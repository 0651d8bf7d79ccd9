import Apsdk.PlistObject
import Apsdk.Library.Traced

/-! The decoder for binary property lists. It leaves a trace of the memory it
reads and of the arithmetic whose bounds it relies on. -/

namespace Apsdk.Plist
open Library

def BPLIST_HEADER_LEN : Nat := 8
def BPLIST_TRAILER_LEN : Nat := 32

/-- What the decoder does apart from computing its result. -/
inductive Event where
  | read (dataidx count : Nat)
  /-- An access to `reftab`, which has a given number of entries. -/
  | entry (index : Int) (objects : Nat)
  /-- The exact value of a size that is computed with `uint64_t`. -/
  | size (value : Nat)
  /-- The exact value of a size that is computed with `int64_t`. -/
  | signedSize (value : Nat)
  | shift (amount width : Nat)
  /-- An object is about to be read. -/
  | object (dataidx : Nat)
deriving DecidableEq, Repr

/-- The allocator may fail at each call; `widen` turns the pattern of a `float` into that of the `double`. -/
structure Host where
  alloc : Nat → Nat → Bool
  widen : BitVec 32 → BitVec 64

/-- The state of a decoding is the number of allocations so far. -/
abbrev Decoding := Traced Event Nat

open Traced

def calloc (host : Host) (count size : Nat) : Decoding Bool := ⟨fun allocations =>
  ⟨[], allocations + 1, .ok (count * size < 2 ^ 64 && host.alloc allocations (count * size))⟩⟩

def malloc (host : Host) (size : Nat) : Decoding Bool := calloc host 1 size

def read (data : Bytes) (dataidx count : Nat) : Decoding Bytes :=
  checked (.read dataidx count) (dataidx + count ≤ data.length) ((data.drop dataidx).take count)

/-- A shift of 1 to the left. -/
def shiftOne (amount width : Nat) : Decoding Nat := checked (.shift amount width) (amount < width) (2 ^ amount)

def signedSize (value : Nat) : Decoding Nat := checked (.signedSize value) (value < 2 ^ 63) value

/-- Sizes of type `uint64_t` wrap around. -/
def unsignedSize (value : Nat) : Decoding Nat := checked (.size value) True (value % 2 ^ 64)

/-- The step of a loop over `reftab` with an `int` counter, which goes on at
`-2^31` on usual machines. -/
def increment (i objects : Nat) : Decoding Nat := do
  if i + 1 < 2 ^ 31 then
    pure (i + 1)
  else
    emit (.entry (-2 ^ 31) objects)
    stop .undefined

def parseInteger (data : Bytes) (dataidx length : Nat) : Decoding (Option (BitVec 64)) :=
  match length with
  | 1 | 2 | 4 | 8 => do
    let bytes ← read data dataidx length
    pure (some (BitVec.ofNat 64 (beValue bytes)))
  | _ => pure none

/-- Any length but that of a `float` is taken for a `double`. The length comes back as an `int`. -/
def parseReal (host : Host) (data : Bytes) (dataidx length : Nat) : Decoding (Int × BitVec 64) :=
  let ret := (BitVec.ofNat 32 length).toInt
  if length = 4 then do
    let bytes ← read data dataidx 4
    return (ret, host.widen (BitVec.ofNat 32 (beValue bytes)))
  else do
    let bytes ← read data dataidx 8
    return (ret, BitVec.ofNat 64 (beValue bytes))

/-- The marker of an object with its length, and where they end. -/
def parseMarker (data : Bytes) (dataidx : Nat) : Decoding (Option (UInt8 × Nat × Nat)) := do
  if dataidx ≥ data.length then return none
  let bytes ← read data dataidx 1
  let type := bytes.headD 0
  let dataidx := dataidx + 1
  if type &&& 0x0f < 15 then return some (type, (type &&& 0x0f).toNat, dataidx)
  if dataidx ≥ data.length then return none
  let bytes ← read data dataidx 1
  let lentype := bytes.headD 0
  let dataidx := dataidx + 1
  if lentype &&& 0xf0 ≠ PLIST_TYPE_INTEGER then return none
  let shifted ← shiftOne (lentype &&& 0x0f).toNat 32
  let lenlength := shifted % 256
  if dataidx + lenlength > data.length then return none
  match ← parseInteger data dataidx lenlength with
  | none => return none
  | some lenvalue =>
    if lenvalue.toInt < 0 then return none
    return some (type, lenvalue.toNat, dataidx + lenlength)

section Payload
variable (host : Host) (data : Bytes) (reflen : Nat) (parse : Nat → Decoding Object)

def parseIntegerObject (length dataidx : Nat) : Decoding Object := do
  let guarded ← shiftOne length 64
  if dataidx + guarded > data.length then return .null
  let width ← shiftOne length 32
  match ← parseInteger data dataidx (width % 256) with
  | none => return .null
  | some value => return .integer value

def parseRealObject (length dataidx : Nat) : Decoding Object := do
  let guarded ← shiftOne length 64
  if dataidx + guarded > data.length then return .null
  let width ← shiftOne length 64
  let (ret, value) ← parseReal host data dataidx width
  return if ret < 0 then .null else .real value

/-- The objects that are copied: dates and data into a buffer of their length, strings with a zero behind. -/
def parseBuffer (make : Bytes → Object) (terminator length dataidx : Nat) : Decoding Object := do
  if dataidx + length > data.length then return .null
  if ¬ (← malloc host (length + terminator)) then return .null
  let buffer ← read data dataidx length
  return make buffer

/-- A loop over references: it ends early where one is cut off, is refused, or does not lead to an acceptable object. -/
def parseReferences {Value : Type} (follow : BitVec 64 → Bool) (accept : Object → Option Value) :
    Nat → Nat → Decoding (List Value × Nat)
  | 0, dataidx => pure ([], dataidx)
  | remaining + 1, dataidx => do
    if dataidx + reflen > data.length then return ([], dataidx)
    match ← parseInteger data dataidx reflen with
    | none => return ([], dataidx)
    | some reference =>
      if ¬ follow reference then return ([], dataidx)
      let object ← parse reference.toNat
      match accept object with
      | none => return ([], dataidx + reflen)
      | some value =>
        let (values, dataidx) ← parseReferences follow accept remaining (dataidx + reflen)
        return (value :: values, dataidx)

def acceptValue (object : Object) : Option Object := if object.isNull then none else some object

def parseArray (length dataidx : Nat) : Decoding Object := do
  let guarded ← unsignedSize (dataidx + length * reflen)
  if guarded > data.length then return .null
  if ¬ (← calloc host length 8) then return .null
  let (values, _) ← parseReferences data reflen parse (fun reference => 0 ≤ reference.toInt) acceptValue length dataidx
  return if values.length ≠ length then .null else .array values

/-- The loop over the values runs also where the one over the keys has ended early. -/
def parseDict (length dataidx : Nat) : Decoding Object := do
  let guarded ← unsignedSize (dataidx + 2 * length * reflen)
  if guarded > data.length then return .null
  if ¬ (← calloc host length 8) then return .null
  if ¬ (← calloc host length 8) then return .null
  let (keys, dataidx) ← parseReferences data reflen parse (fun _ => true) Object.stringGetValue length dataidx
  let (values, _) ← parseReferences data reflen parse (fun _ => true) acceptValue length dataidx
  return if keys.length ≠ length ∨ values.length ≠ length then .null else .dict (keys.zip values)

def parsePayload (type : UInt8) (length dataidx : Nat) : Decoding Object :=
  let kind := type &&& 0xf0
  if kind = PLIST_TYPE_PRIMITIVE then pure (.primitive (type &&& 0x0f))
  else if kind = PLIST_TYPE_INTEGER then parseIntegerObject data length dataidx
  else if kind = PLIST_TYPE_REAL then parseRealObject host data length dataidx
  else if kind = PLIST_TYPE_DATE then parseBuffer host data .date 0 8 dataidx
  else if kind = PLIST_TYPE_DATA then parseBuffer host data .data 0 length dataidx
  else if kind = PLIST_TYPE_STRING then parseBuffer host data (fun buffer => .string (.ofBuffer buffer)) 1 length dataidx
  else if kind = PLIST_TYPE_UNICODE_STRING then parseBuffer host data .unicodeString 1 length dataidx
  else if kind = PLIST_TYPE_ARRAY then parseArray host data reflen parse length dataidx
  else if kind = PLIST_TYPE_DICT then parseDict host data reflen parse length dataidx
  else pure .null

end Payload

section Document
variable (host : Host) (data : Bytes)

/-- `bplist_parse_object`; the fuel bounds the depth of the recursion. -/
def parseObject (reftab : List (BitVec 64)) (reflen : Nat) : Nat → Nat → Decoding Object
  | 0, _ => stop .outOfFuel
  | fuel + 1, reftabidx => do
    if reftabidx ≥ reftab.length then return .null
    emit (.entry reftabidx reftab.length)
    let dataidx := (reftab.getD reftabidx 0).toNat
    match ← parseMarker data dataidx with
    | none => return .null
    | some (type, length, payload) =>
      if ¬ (← calloc host 1 32) then return .null
      emit (.object dataidx)
      parsePayload host data reflen (parseObject reftab reflen fuel) type length payload

/-- The offset table from entry `i` on. Where `parse_integer` fails the entry stays zero. -/
def parseTable (reftaboffset offlen objects : Nat) : Nat → Nat → Decoding (List (BitVec 64))
  | 0, _ => pure []
  | remaining + 1, i => do
    emit (.entry i objects)
    let offset ← parseInteger data (reftaboffset + i * offlen) offlen
    let next ← increment i objects
    let offsets ← parseTable reftaboffset offlen objects remaining next
    return offset.getD 0 :: offsets

structure Trailer where
  offlen : Nat
  reflen : Nat
  objects : Int
  rootid : Int
  reftaboffset : Int
deriving DecidableEq, Repr

def parseTrailer : Decoding Trailer := do
  let trailer := data.length - BPLIST_TRAILER_LEN
  let offlen ← read data (trailer + 6) 1
  let reflen ← read data (trailer + 7) 1
  let objects ← parseInteger data (trailer + 8) 8
  let rootid ← parseInteger data (trailer + 16) 8
  let reftaboffset ← parseInteger data (trailer + 24) 8
  return ⟨(offlen.headD 0).toNat, (reflen.headD 0).toNat, (objects.getD 0).toInt, (rootid.getD 0).toInt,
    (reftaboffset.getD 0).toInt⟩

/-- `plist_object_from_bplist`. -/
def fromBplist (fuel : Nat) : Decoding Object := do
  if data.length < BPLIST_TRAILER_LEN then return .null
  let trailer ← parseTrailer data
  if trailer.objects ≤ 0 then return .null
  if trailer.rootid < 0 ∨ trailer.rootid ≥ trailer.objects then return .null
  if trailer.reftaboffset < BPLIST_HEADER_LEN then return .null
  let objects := trailer.objects.toNat
  let tableSize ← signedSize (objects * trailer.offlen)
  let tableEnd ← signedSize (trailer.reftaboffset.toNat + tableSize)
  if tableEnd > data.length then return .null
  if ¬ (← calloc host objects 8) then return .null
  let reftab ← parseTable data trailer.reftaboffset.toNat trailer.offlen objects objects 0
  parseObject host data reftab trailer.reflen fuel trailer.rootid.toNat

end Document

end Apsdk.Plist
