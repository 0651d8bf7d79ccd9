import Apsdk.PlistDecoder
import Apsdk.Library.WriteLog

/-! The encoder for binary property lists: a pass that measures the tree, and one
that writes it into a buffer of that size. Sizes are natural numbers, since a tree
of `2^64` bytes does not fit into memory. -/

namespace Apsdk.Plist
open Library

def integerLength (value : Int) : Nat :=
  if 0 < value ∧ value < 2 ^ 8 then 1
  else if 0 < value ∧ value < 2 ^ 16 then 2
  else if 0 < value ∧ value < 2 ^ 32 then 4
  else 8

def blistIntegerLength (value : Int) : UInt8 :=
  if 0 < value ∧ value < 2 ^ 8 then 0
  else if 0 < value ∧ value < 2 ^ 16 then 1
  else if 0 < value ∧ value < 2 ^ 32 then 2
  else 3

/-- What `bplist_analyze` counts. -/
structure Sizes where
  objects : Nat
  bytes : Nat
  refs : Nat
deriving DecidableEq, Repr

/-- The bytes of a marker; a dict is measured with twice its size. -/
def markerSize (length measured : Nat) : Nat := if length < 15 then 1 else 1 + 1 + integerLength measured

def Sizes.add (sizes : Sizes) (bytes refs : Nat) : Sizes :=
  ⟨sizes.objects + 1, sizes.bytes + bytes, sizes.refs + refs⟩

mutual

/-- `bplist_analyze`. For dates and UTF-16 strings there is no case, so that only the object is counted. -/
def analyze : Object → Sizes → Sizes
  | .null, sizes => sizes.add 1 0
  | .primitive _, sizes => sizes.add 1 0
  | .integer value, sizes => sizes.add (1 + integerLength value.toInt) 0
  | .real _, sizes => sizes.add (1 + 8) 0
  | .date _, sizes => sizes.add 0 0
  | .data value, sizes => sizes.add (markerSize value.length value.length + value.length) 0
  | .string value, sizes => sizes.add (markerSize value.bytes.length value.bytes.length + value.bytes.length) 0
  | .unicodeString _, sizes => sizes.add 0 0
  | .array values, sizes => analyzeValues values (sizes.add (markerSize values.length values.length) values.length)
  | .dict entries, sizes =>
    analyzeEntries entries (sizes.add (markerSize entries.length (2 * entries.length)) (2 * entries.length))

def analyzeValues : List Object → Sizes → Sizes
  | [], sizes => sizes
  | value :: values, sizes => analyzeValues values (analyze value sizes)

def analyzeEntries : List (CString × Object) → Sizes → Sizes
  | [], sizes => sizes
  | (key, value) :: entries, sizes =>
    let sizes := sizes.add (markerSize key.bytes.length key.bytes.length + key.bytes.length) 0
    analyzeEntries entries (analyze value sizes)

end

/-- The buffer as the log of the writes to it, the write position, and the offsets recorded so far. -/
structure Writer where
  log : List Write
  dataidx : Nat
  reftab : List Nat
deriving DecidableEq, Repr

namespace Writer

/-- A write at the write position, which moves on. -/
def put (writer : Writer) (bytes : Bytes) : Writer :=
  { writer with log := writer.log ++ [⟨writer.dataidx, bytes⟩], dataidx := writer.dataidx + bytes.length }

/-- A write into space that was reserved before. -/
def fill (writer : Writer) (position : Nat) (bytes : Bytes) : Writer :=
  { writer with log := writer.log ++ [⟨position, bytes⟩] }

def skip (writer : Writer) (count : Nat) : Writer := { writer with dataidx := writer.dataidx + count }

/-- The next object begins here. -/
def register (writer : Writer) : Writer := { writer with reftab := writer.reftab ++ [writer.dataidx] }

end Writer

/-- `serialize_integer`, for the widths that its callers pass. -/
def serializeInteger (length value : Nat) : Bytes := beBytes length value

def serializeMarker (kind : UInt8) (length : Nat) (writer : Writer) : Writer :=
  if length < 15 then
    writer.put [kind ||| UInt8.ofNat length]
  else
    let writer := writer.put [kind ||| 0x0f]
    let writer := writer.put [PLIST_TYPE_INTEGER ||| blistIntegerLength length]
    writer.put (serializeInteger (integerLength length) length)

/-- An object of bytes with the object's number. -/
def serializeBytes (kind : UInt8) (bytes : Bytes) (writer : Writer) : Writer :=
  (serializeMarker kind bytes.length writer).put bytes

def serializeString (value : CString) (writer : Writer) : Nat × Writer :=
  (writer.reftab.length, serializeBytes PLIST_TYPE_STRING value.bytes writer.register)

mutual

/-- `bplist_serialize_object`. A real goes out in the byte order of the host, and dates and UTF-16 strings not at all. -/
def serializeObject (reflen : Nat) : Object → Writer → Nat × Writer
  | .null, writer => (writer.reftab.length, writer.register.put [0])
  | .primitive value, writer => (writer.reftab.length, writer.register.put [PLIST_TYPE_PRIMITIVE ||| value])
  | .integer value, writer =>
    (writer.reftab.length,
      (writer.register.put [PLIST_TYPE_INTEGER ||| blistIntegerLength value.toInt]).put
        (serializeInteger (integerLength value.toInt) value.toNat))
  | .real value, writer =>
    (writer.reftab.length, (writer.register.put [PLIST_TYPE_REAL ||| 3]).put (leBytes 8 value.toNat))
  | .date _, writer => (writer.reftab.length, writer.register)
  | .data value, writer => (writer.reftab.length, serializeBytes PLIST_TYPE_DATA value writer.register)
  | .string value, writer => (writer.reftab.length, serializeBytes PLIST_TYPE_STRING value.bytes writer.register)
  | .unicodeString _, writer => (writer.reftab.length, writer.register)
  | .array values, writer =>
    let marked := serializeMarker PLIST_TYPE_ARRAY values.length writer.register
    let valueidx := marked.dataidx
    (writer.reftab.length, serializeValues reflen values valueidx (marked.skip (values.length * reflen)))
  | .dict entries, writer =>
    let marked := serializeMarker PLIST_TYPE_DICT entries.length writer.register
    let keyidx := marked.dataidx
    let valueidx := keyidx + entries.length * reflen
    (writer.reftab.length,
      serializeEntries reflen entries keyidx valueidx
        ((marked.skip (entries.length * reflen)).skip (entries.length * reflen)))

def serializeValues (reflen : Nat) : List Object → Nat → Writer → Writer
  | [], _, writer => writer
  | value :: values, valueidx, writer =>
    let (valueid, writer) := serializeObject reflen value writer
    serializeValues reflen values (valueidx + reflen) (writer.fill valueidx (serializeInteger reflen valueid))

def serializeEntries (reflen : Nat) : List (CString × Object) → Nat → Nat → Writer → Writer
  | [], _, _, writer => writer
  | (key, value) :: entries, keyidx, valueidx, writer =>
    let (keyid, writer) := serializeString key writer
    let (valueid, writer) := serializeObject reflen value writer
    let writer := writer.fill keyidx (serializeInteger reflen keyid)
    let writer := writer.fill valueidx (serializeInteger reflen valueid)
    serializeEntries reflen entries (keyidx + reflen) (valueidx + reflen) writer

end

/-- The offset table from entry `i` on; an entry that was not recorded is zero. -/
def serializeTable (reftab : List Nat) (offlen : Nat) : Nat → Nat → Writer → Writer
  | 0, _, writer => writer
  | remaining + 1, i, writer =>
    serializeTable reftab offlen remaining (i + 1) (writer.put (serializeInteger offlen (reftab.getD i 0)))

def serializeTrailer (offlen reflen objects reftaboffset : Nat) (writer : Writer) : Writer :=
  let writer := writer.skip 6
  let writer := writer.put (serializeInteger 1 offlen)
  let writer := writer.put (serializeInteger 1 reflen)
  let writer := writer.put (serializeInteger 8 objects)
  let writer := writer.put (serializeInteger 8 0)
  writer.put (serializeInteger 8 reftaboffset)

/-- The widths and the size of the buffer for a tree. -/
structure Plan where
  objects : Nat
  reflen : Nat
  offlen : Nat
  buflen : Nat
deriving DecidableEq, Repr

def plan (object : Object) : Plan :=
  let sizes := analyze object ⟨0, 0, 0⟩
  let reflen := integerLength sizes.refs
  let buflen := BPLIST_HEADER_LEN + (sizes.bytes + sizes.refs * reflen)
  let offlen := integerLength buflen
  ⟨sizes.objects, reflen, offlen, buflen + sizes.objects * offlen + BPLIST_TRAILER_LEN⟩

/-- Everything that `plist_object_to_bplist` writes. -/
def serialize (object : Object) : Writer :=
  let plan := plan object
  let writer := (Writer.mk [] 0 []).put (ascii "bplist00")
  let (_, writer) := serializeObject plan.reflen object writer
  let reftaboffset := writer.dataidx
  let writer := serializeTable writer.reftab plan.offlen plan.objects 0 writer
  serializeTrailer plan.offlen plan.reflen plan.objects reftaboffset writer

/-- `plist_object_to_bplist`. -/
def toBplist (host : Host) (object : Object) : Except Int Bytes :=
  if object.isNull then
    .error (-1)
  else if ¬ host.alloc 0 (plan object).buflen then
    .error (-2)
  else if ¬ host.alloc 1 ((plan object).objects * 8) then
    .error (-3)
  else
    .ok (buffer (plan object).buflen (serialize object).log)

end Apsdk.Plist
