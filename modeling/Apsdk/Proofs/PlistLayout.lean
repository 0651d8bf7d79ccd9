import Apsdk.Proofs.DocumentReading
import Apsdk.Library.WriteLog
import Mathlib.Data.List.Forall2

/-! The decoder reads back every tree that is laid out in a document, whatever the
order of its objects and the widths of its numbers. -/

namespace Apsdk.Plist
open Library Traced

/-- The bytes that stand for an object's type and length. -/
inductive Marker (kind : UInt8) (length : Nat) : Bytes → Prop
  | short (small : length < 15) : Marker kind length [kind ||| UInt8.ofNat length]
  | long (exponent : Nat) (known : exponent ≤ 3) (fits : length < 256 ^ 2 ^ exponent) (positive : length < 2 ^ 63) :
    Marker kind length
      ((kind ||| 0x0f) :: (PLIST_TYPE_INTEGER ||| UInt8.ofNat exponent) :: beBytes (2 ^ exponent) length)

mutual

/-- A tree is laid out at an entry of the offset table. -/
def Laid (data : Bytes) (reftab : List (BitVec 64)) (reflen : Nat) : Object → Nat → Prop
  | .primitive value, id => ∃ offset length rest, reftab[id]? = some offset ∧
    Marker PLIST_TYPE_PRIMITIVE length (value :: rest) ∧ At data offset.toNat (value :: rest)
  | .integer value, id => ∃ offset exponent, reftab[id]? = some offset ∧ exponent ≤ 3 ∧ value.toNat < 256 ^ 2 ^ exponent ∧
    At data offset.toNat ((PLIST_TYPE_INTEGER ||| UInt8.ofNat exponent) :: beBytes (2 ^ exponent) value.toNat)
  | .real value, id => ∃ offset, reftab[id]? = some offset ∧
    At data offset.toNat ((PLIST_TYPE_REAL ||| 3) :: beBytes 8 value.toNat)
  | .data value, id => ∃ offset marker, reftab[id]? = some offset ∧ Marker PLIST_TYPE_DATA value.length marker ∧
    At data offset.toNat (marker ++ value)
  | .string value, id => ∃ offset marker, reftab[id]? = some offset ∧ Marker PLIST_TYPE_STRING value.bytes.length marker ∧
    At data offset.toNat (marker ++ value.bytes)
  | .array values, id => ∃ offset marker refs, reftab[id]? = some offset ∧ Marker PLIST_TYPE_ARRAY values.length marker ∧
    At data offset.toNat (marker ++ refs.flatMap (beBytes reflen)) ∧ LaidValues data reftab reflen values refs
  | .dict entries, id => ∃ offset marker keyRefs valueRefs, reftab[id]? = some offset ∧
    Marker PLIST_TYPE_DICT entries.length marker ∧
    At data offset.toNat (marker ++ (keyRefs.flatMap (beBytes reflen) ++ valueRefs.flatMap (beBytes reflen))) ∧
    LaidEntries data reftab reflen entries keyRefs valueRefs
  | .null, _ => False
  | .date _, _ => False
  | .unicodeString _, _ => False

/-- The references of an array lead to its values, and fit into their width. -/
def LaidValues (data : Bytes) (reftab : List (BitVec 64)) (reflen : Nat) : List Object → List Nat → Prop
  | [], refs => refs = []
  | value :: values, refs => ∃ ref rest, refs = ref :: rest ∧ ref < 256 ^ reflen ∧ Laid data reftab reflen value ref ∧
    LaidValues data reftab reflen values rest

def LaidEntries (data : Bytes) (reftab : List (BitVec 64)) (reflen : Nat) :
    List (CString × Object) → List Nat → List Nat → Prop
  | [], keyRefs, valueRefs => keyRefs = [] ∧ valueRefs = []
  | (key, value) :: entries, keyRefs, valueRefs => ∃ keyRef keyRest valueRef valueRest,
    keyRefs = keyRef :: keyRest ∧ valueRefs = valueRef :: valueRest ∧ keyRef < 256 ^ reflen ∧ valueRef < 256 ^ reflen ∧
    (∃ offset marker, reftab[keyRef]? = some offset ∧ Marker PLIST_TYPE_STRING key.bytes.length marker ∧
      At data offset.toNat (marker ++ key.bytes)) ∧
    Laid data reftab reflen value valueRef ∧ LaidEntries data reftab reflen entries keyRest valueRest

end

mutual

/-- The depth of the recursion that reads a tree. -/
def Object.depth : Object → Nat
  | .null => 1
  | .primitive _ => 1
  | .integer _ => 1
  | .real _ => 1
  | .date _ => 1
  | .data _ => 1
  | .string _ => 1
  | .unicodeString _ => 1
  | .array values => valuesDepth values + 1
  | .dict entries => entriesDepth entries + 1

def valuesDepth : List Object → Nat
  | [] => 0
  | value :: values => max value.depth (valuesDepth values)

def entriesDepth : List (CString × Object) → Nat
  | [] => 0
  | (_, value) :: entries => max value.depth (entriesDepth entries)

end

/-- The types that a layout uses. -/
def LAID_TYPES : List UInt8 :=
  [PLIST_TYPE_PRIMITIVE, PLIST_TYPE_INTEGER, PLIST_TYPE_REAL, PLIST_TYPE_DATA, PLIST_TYPE_STRING, PLIST_TYPE_ARRAY,
    PLIST_TYPE_DICT]

section Markers
variable {data : Bytes} {offset : Nat}

theorem nibbles_join (byte : UInt8) : (byte &&& 0xf0) ||| (byte &&& 0x0f) = byte := by
  have all : ∀ value : Fin 256, (UInt8.ofNat value.val &&& 0xf0) ||| (UInt8.ofNat value.val &&& 0x0f) = UInt8.ofNat value.val := by
    decide +kernel
  have here := all ⟨byte.toNat, byte.toNat_lt⟩
  rwa [UInt8.ofNat_toNat] at here

theorem or_and_byte (first second mask : UInt8) : (first ||| second) &&& mask = (first &&& mask) ||| (second &&& mask) := by
  apply UInt8.toBitVec_inj.mp
  rw [UInt8.toBitVec_and, UInt8.toBitVec_or, UInt8.toBitVec_or, UInt8.toBitVec_and, UInt8.toBitVec_and]
  exact BitVec.and_or_distrib_right

/-- A type and what stands in the nibble below it. -/
theorem nibbles {kind : UInt8} (high : kind &&& 0x0f = 0) {low : Nat} (small : low < 16) :
    (kind ||| UInt8.ofNat low) &&& 0x0f = UInt8.ofNat low ∧ (kind ||| UInt8.ofNat low) &&& 0xf0 = kind := by
  have nibble : ∀ low : Fin 16, UInt8.ofNat low &&& 0x0f = UInt8.ofNat low ∧ UInt8.ofNat low &&& 0xf0 = 0 := by
    decide +kernel
  obtain ⟨within, without⟩ := nibble ⟨low, small⟩
  have whole := nibbles_join kind
  rw [high, UInt8.or_zero] at whole
  constructor
  · rw [or_and_byte, high, UInt8.zero_or]
    exact within
  · rw [or_and_byte, whole]
    exact (congrArg (kind ||| ·) without).trans UInt8.or_zero

theorem laid_low {kind : UInt8} (known : kind ∈ LAID_TYPES) : kind &&& 0x0f = 0 := by
  have all : ∀ kind ∈ LAID_TYPES, kind &&& 0x0f = 0 := by decide +kernel
  exact all kind known

/-- The marker in front of a payload gives the type and the length. -/
theorem markerAt_marker {kind : UInt8} (known : kind &&& 0x0f = 0) {length : Nat} {marker payload : Bytes}
    (stands : Marker kind length marker) (found : At data offset (marker ++ payload)) :
    ∃ type, type &&& 0xf0 = kind ∧ markerAt data offset = some (type, length, offset + marker.length) := by
  cases stands with
  | short small =>
    obtain ⟨low, high⟩ := nibbles known (by omega : length < 16)
    have nibble : (UInt8.ofNat length).toNat = length := by
      rw [UInt8.toNat_ofNat']
      omega
    have below : UInt8.ofNat length < 15 := by
      rw [UInt8.lt_iff_toNat_lt, nibble]
      exact small
    refine ⟨_, high, ?_⟩
    unfold markerAt
    rw [found.head]
    simp only [Option.bind_eq_bind, Option.bind_some, low, if_pos below, nibble]
    rfl
  | long exponent small fits positive =>
    obtain ⟨low, high⟩ := nibbles known (by decide : 15 < 16)
    obtain ⟨lengthLow, lengthHigh⟩ := nibbles (by decide : PLIST_TYPE_INTEGER &&& 0x0f = 0) (by omega : exponent < 16)
    have nibble : (UInt8.ofNat exponent).toNat = exponent := by
      rw [UInt8.toNat_ofNat']
      omega
    have width : 2 ^ exponent ≤ 8 := Nat.pow_le_pow_right (by decide) small
    have digits : At data (offset + 2) (beBytes (2 ^ exponent) length) := found.tail.tail.left
    have inside := digits.inside
    have slice := digits.slice
    rw [length_beBytes] at inside slice
    have ends : offset + ((kind ||| 0x0f) :: (PLIST_TYPE_INTEGER ||| UInt8.ofNat exponent) ::
        beBytes (2 ^ exponent) length).length = offset + 2 + 2 ^ exponent := by
      simp only [List.length_cons, length_beBytes]
      omega
    refine ⟨_, high, ?_⟩
    unfold markerAt
    rw [found.head, ends]
    simp only [Option.bind_eq_bind, Option.bind_some]
    have extended : (kind ||| 0x0f) &&& 0x0f = 15 := low
    rw [if_neg (by rw [extended]; decide), found.tail.head]
    simp only [Option.bind_some, lengthLow, nibble, slice, beValue_beBytes, Nat.mod_eq_of_lt fits]
    rw [if_pos ⟨lengthHigh, width, inside, positive⟩]
    rfl

theorem markerAt_type {type : UInt8} {length payload : Nat} (marked : markerAt data offset = some (type, length, payload)) :
    data[offset]? = some type := by
  unfold markerAt at marked
  obtain ⟨first, here, marked⟩ := Option.bind_eq_some_iff.mp marked
  rw [here]
  split at marked
  · exact congrArg (fun marker => marker.map Prod.fst) marked
  · obtain ⟨second, -, marked⟩ := Option.bind_eq_some_iff.mp marked
    dsimp only at marked
    split at marked
    · exact congrArg (fun marker => marker.map Prod.fst) marked
    · cases marked

/-- The marker of a primitive is its value; a length behind it does not matter. -/
theorem markerAt_primitive {value : UInt8} {length : Nat} {rest : Bytes}
    (stands : Marker PLIST_TYPE_PRIMITIVE length (value :: rest)) (found : At data offset (value :: rest)) :
    value &&& 0x0f = value ∧ value &&& 0xf0 = PLIST_TYPE_PRIMITIVE ∧
      markerAt data offset = some (value, length, offset + (value :: rest).length) := by
  have plain : ∀ low < 16, UInt8.ofNat low &&& 0x0f = UInt8.ofNat low := by decide
  have low : value &&& 0x0f = value := by
    cases stands with
    | short small =>
      rw [PLIST_TYPE_PRIMITIVE, UInt8.zero_or]
      exact plain length (by omega)
    | long exponent known fits positive => rfl
  have whole : At data offset ((value :: rest) ++ []) := by rwa [List.append_nil]
  obtain ⟨type, kind, marked⟩ := markerAt_marker (by decide) stands whole
  obtain rfl : value = type := Option.some.inj (found.head.symm.trans (markerAt_type marked))
  exact ⟨low, kind, marked⟩

end Markers

section Decode
variable {host : Host} {data : Bytes} {reftab : List (BitVec 64)} {reflen : Nat}

theorem calloc_yields (generous : ∀ allocations size, host.alloc allocations size = true) {count size : Nat}
    (fits : count * size < 2 ^ 64) : Yields (calloc host count size) true := by
  intro allocations
  simp only [calloc, fits, generous, decide_true, Bool.and_self]

theorem parseBuffer_yields (generous : ∀ allocations size, host.alloc allocations size = true)
    (small : data.length < 2 ^ 60) (make : Bytes → Object) {terminator dataidx : Nat} (room : terminator ≤ 1)
    {bytes : Bytes} (found : At data dataidx bytes) :
    Yields (parseBuffer host data make terminator bytes.length dataidx) (make bytes) := by
  have inside := found.inside
  unfold parseBuffer malloc
  rw [if_neg (Nat.not_lt.mpr inside)]
  refine (calloc_yields generous (by omega)).bind ?_
  rw [if_neg (by decide)]
  refine (yields_checked inside).bind ?_
  rw [found.slice]
  exact yields_pure _

/-- Once the marker of an object is found, what its payload yields is what the object yields, one level further up. -/
theorem parseObject_ends_of_payload (generous : ∀ allocations size, host.alloc allocations size = true) {id : Nat}
    {offset : BitVec 64} (entry : reftab[id]? = some offset) {type : UInt8} {length payload depth : Nat}
    (marker : markerAt data offset.toNat = some (type, length, payload)) {object : Object}
    (read : ∀ fuel, Ends (parsePayload host data reflen (parseObject host data reftab reflen fuel) type length payload)
      (depth ≤ fuel) object) (fuel : Nat) :
    Ends (parseObject host data reftab reflen fuel id) (depth + 1 ≤ fuel) object := by
  cases fuel with
  | zero => exact ends_stop (by omega)
  | succ fuel =>
    obtain ⟨inside, value⟩ := List.getElem?_eq_some_iff.mp entry
    unfold parseObject
    rw [if_neg (Nat.not_le.mpr inside)]
    refine (yields_emit _).bind_ends ?_
    rw [List.getD_eq_getElem?_getD, entry, Option.getD_some]
    refine (parseMarker_yields data _).bind_ends ?_
    rw [marker]
    refine (calloc_yields generous (by decide)).bind_ends ?_
    rw [if_neg (by decide)]
    refine (yields_emit _).bind_ends ?_
    intro state
    refine (read fuel state).trans ?_
    simp only [Nat.add_le_add_iff_right]

section Containers
variable {parse : Nat → Decoding Object}

/-- A loop over references that lead to acceptable objects collects all of them. -/
theorem parseReferences_ends {Value : Type} {fuel : Nat} (width : reflen = 1 ∨ reflen = 2 ∨ reflen = 4 ∨ reflen = 8)
    (cost : Value → Nat) {follow : BitVec 64 → Bool} {accept : Object → Option Value} {refs : List Nat}
    {values : List Value}
    (lead : List.Forall₂ (fun ref value => ref < 256 ^ reflen ∧ follow (BitVec.ofNat 64 ref) = true ∧
      ∃ object, Ends (parse ref) (cost value ≤ fuel) object ∧ accept object = some value) refs values)
    {dataidx : Nat} (found : At data dataidx (refs.flatMap (beBytes reflen))) :
    Ends (parseReferences data reflen parse follow accept values.length dataidx) (∀ value ∈ values, cost value ≤ fuel)
      (values, dataidx + (refs.flatMap (beBytes reflen)).length) := by
  induction lead generalizing dataidx with
  | nil => exact (yields_pure _).ends fun _ member => nomatch member
  | @cons ref value refs values head lead ih =>
    obtain ⟨fits, followed, object, read, accepted⟩ := head
    rw [List.flatMap_cons] at found
    have here := found.left
    have inside := here.inside
    have slice := here.slice
    have there := found.right
    rw [length_beBytes] at inside slice there
    have bound : ref < 2 ^ 64 := fits.trans_le (by
      rw [show 2 ^ 64 = 256 ^ 8 from rfl]
      exact Nat.pow_le_pow_right (by decide) (by omega))
    rw [List.length_cons]
    unfold parseReferences
    rw [if_neg (Nat.not_lt.mpr inside)]
    refine (parseInteger_yields width inside).bind_ends ?_
    rw [slice, beValue_beBytes, Nat.mod_eq_of_lt fits]
    dsimp only
    rw [followed, if_neg (by decide), BitVec.toNat_ofNat, Nat.mod_eq_of_lt bound]
    refine read.bind ?_ List.forall_mem_cons
    rw [accepted]
    refine (ih there).bind_yields ?_
    rw [List.flatMap_cons, List.length_append, length_beBytes, Nat.add_assoc]
    exact yields_pure _

theorem length_references (refs : List Nat) : (refs.flatMap (beBytes reflen)).length = refs.length * reflen := by
  induction refs with
  | nil => rw [List.flatMap_nil, List.length_nil, List.length_nil, Nat.zero_mul]
  | cons ref refs ih =>
    rw [List.flatMap_cons, List.length_append, length_beBytes, ih, List.length_cons, Nat.add_one_mul, Nat.add_comm]

theorem parseArray_ends (generous : ∀ allocations size, host.alloc allocations size = true)
    (small : data.length < 2 ^ 60) (width : reflen = 1 ∨ reflen = 2 ∨ reflen = 4 ∨ reflen = 8) {fuel : Nat}
    {refs : List Nat} {values : List Object}
    (lead : List.Forall₂ (fun ref value => ref < 256 ^ reflen ∧ ref < 2 ^ 63 ∧ value.isNull = false ∧
      Ends (parse ref) (value.depth ≤ fuel) value) refs values)
    {dataidx : Nat} (found : At data dataidx (refs.flatMap (beBytes reflen))) :
    Ends (parseArray host data reflen parse values.length dataidx) (∀ value ∈ values, value.depth ≤ fuel)
      (.array values) := by
  have inside := found.inside
  rw [length_references, lead.length_eq] at inside
  have room : values.length ≤ values.length * reflen := Nat.le_mul_of_pos_right _ (by omega)
  unfold parseArray
  refine (yields_checked trivial).bind_ends ?_
  rw [Nat.mod_eq_of_lt (by omega), if_neg (Nat.not_lt.mpr inside)]
  refine (calloc_yields generous (by omega)).bind_ends ?_
  rw [if_neg (by decide)]
  refine (parseReferences_ends width Object.depth (lead.imp fun ref value step => ?_) found).bind_yields ?_
  · obtain ⟨fits, positive, present, read⟩ := step
    refine ⟨fits, decide_eq_true ?_, value, read, acceptValue_eq present⟩
    rw [BitVec.toInt_ofNat', Int.bmod_eq_of_le] <;> omega
  · dsimp only
    rw [if_neg (by omega)]
    exact yields_pure _

theorem parseDict_ends (generous : ∀ allocations size, host.alloc allocations size = true)
    (small : data.length < 2 ^ 60) (width : reflen = 1 ∨ reflen = 2 ∨ reflen = 4 ∨ reflen = 8) {fuel : Nat}
    {keyRefs valueRefs : List Nat} {keys : List CString} {values : List Object} (paired : keys.length = values.length)
    (leadKeys : List.Forall₂ (fun ref key => ref < 256 ^ reflen ∧ Ends (parse ref) (1 ≤ fuel) (.string key)) keyRefs keys)
    (lead : List.Forall₂ (fun ref value => ref < 256 ^ reflen ∧ value.isNull = false ∧
      Ends (parse ref) (value.depth ≤ fuel) value) valueRefs values)
    {dataidx : Nat}
    (found : At data dataidx (keyRefs.flatMap (beBytes reflen) ++ valueRefs.flatMap (beBytes reflen))) :
    Ends (parseDict host data reflen parse values.length dataidx)
      ((∀ key ∈ keys, 1 ≤ fuel) ∧ ∀ value ∈ values, value.depth ≤ fuel) (.dict (keys.zip values)) := by
  have inside := found.inside
  rw [List.length_append, length_references, length_references, leadKeys.length_eq, lead.length_eq, paired,
    ← Nat.add_assoc] at inside
  have room : values.length ≤ values.length * reflen := Nat.le_mul_of_pos_right _ (by omega)
  have guarded : dataidx + 2 * values.length * reflen = dataidx + values.length * reflen + values.length * reflen := by
    rw [Nat.mul_assoc]
    omega
  unfold parseDict
  refine (yields_checked trivial).bind_ends ?_
  rw [guarded, Nat.mod_eq_of_lt (by omega), if_neg (Nat.not_lt.mpr inside)]
  refine (calloc_yields generous (by omega)).bind_ends ?_
  rw [if_neg (by decide)]
  refine (calloc_yields generous (by omega)).bind_ends ?_
  rw [if_neg (by decide), ← paired]
  refine (parseReferences_ends width (fun _ => 1) (leadKeys.imp fun ref key step => ?_) found.left).bind ?_ Iff.rfl
  · exact ⟨step.1, rfl, _, step.2, rfl⟩
  dsimp only
  rw [paired]
  refine (parseReferences_ends width Object.depth (lead.imp fun ref value step => ?_) found.right).bind_yields ?_
  · exact ⟨step.1, rfl, value, step.2.2, acceptValue_eq step.2.1⟩
  · dsimp only
    rw [if_neg (by omega)]
    exact yields_pure _

end Containers

theorem parseIntegerObject_found {exponent dataidx value : Nat} (known : exponent ≤ 3)
    (fits : value < 256 ^ 2 ^ exponent) (found : At data dataidx (beBytes (2 ^ exponent) value)) :
    Yields (parseIntegerObject data exponent dataidx) (.integer (BitVec.ofNat 64 value)) := by
  have inside := found.inside
  have slice := found.slice
  rw [length_beBytes] at inside slice
  have read : Yields (parseIntegerObject data exponent dataidx) _ := parseIntegerObject_narrow (by omega)
  rw [if_pos ⟨known, inside⟩, slice, beValue_beBytes, Nat.mod_eq_of_lt fits] at read
  exact read

theorem parseRealObject_found {dataidx : Nat} {value : BitVec 64} (found : At data dataidx (beBytes 8 value.toNat)) :
    Yields (parseRealObject host data 3 dataidx) (.real value) := by
  have inside := found.inside
  have slice := found.slice
  rw [length_beBytes] at inside slice
  unfold parseRealObject
  refine (yields_checked (by decide)).bind ?_
  rw [if_neg (show ¬ dataidx + 2 ^ 3 > data.length by omega)]
  refine (yields_checked (by decide)).bind ?_
  have double : Yields (parseReal host data dataidx (2 ^ 3)) (8, value) := by
    unfold parseReal
    rw [if_neg (by decide)]
    refine (yields_checked inside).bind ?_
    rw [slice, beValue_beBytes, Nat.mod_eq_of_lt (show value.toNat < 256 ^ 8 from value.isLt), BitVec.ofNat_toNat,
      BitVec.setWidth_eq]
    exact yields_pure _
  exact double.bind (yields_pure _)

/-- A `float` is widened. -/
theorem parseRealObject_single {dataidx : Nat} {value : BitVec 32} (found : At data dataidx (beBytes 4 value.toNat)) :
    Yields (parseRealObject host data 2 dataidx) (.real (host.widen value)) := by
  have inside := found.inside
  have slice := found.slice
  rw [length_beBytes] at inside slice
  unfold parseRealObject
  refine (yields_checked (by decide)).bind ?_
  rw [if_neg (show ¬ dataidx + 2 ^ 2 > data.length by omega)]
  refine (yields_checked (by decide)).bind ?_
  have float : Yields (parseReal host data dataidx (2 ^ 2)) (4, host.widen value) := by
    unfold parseReal
    rw [if_pos (by decide)]
    refine (yields_checked inside).bind ?_
    rw [slice, beValue_beBytes, Nat.mod_eq_of_lt (show value.toNat < 256 ^ 4 from value.isLt), BitVec.ofNat_toNat,
      BitVec.setWidth_eq]
    exact yields_pure _
  exact float.bind (yields_pure _)

theorem Laid.entry {object : Object} {id : Nat} (laid : Laid data reftab reflen object id) : id < reftab.length := by
  have known : ∃ offset, reftab[id]? = some offset := by
    cases object with
    | primitive => exact laid.imp fun _ found => found.choose_spec.choose_spec.1
    | integer => exact laid.imp fun _ found => found.choose_spec.1
    | real => exact laid.imp fun _ found => found.1
    | data => exact laid.imp fun _ found => found.choose_spec.1
    | string => exact laid.imp fun _ found => found.choose_spec.1
    | array => exact laid.imp fun _ found => found.choose_spec.choose_spec.1
    | dict => exact laid.imp fun _ found => found.choose_spec.choose_spec.choose_spec.1
    | _ => exact laid.elim
  exact (List.getElem?_eq_some_iff.mp known.choose_spec).1

theorem Laid.present {object : Object} {id : Nat} (laid : Laid data reftab reflen object id) : object.isNull = false := by
  cases object with
  | null => exact laid.elim
  | _ => rfl

theorem depth_pos (object : Object) : 1 ≤ object.depth := by
  cases object <;> simp only [Object.depth] <;> omega

theorem valuesDepth_le_iff (values : List Object) (fuel : Nat) :
    valuesDepth values ≤ fuel ↔ ∀ value ∈ values, value.depth ≤ fuel := by
  induction values with
  | nil => exact iff_of_true (Nat.zero_le _) fun _ member => nomatch member
  | cons value values ih => rw [valuesDepth, Nat.max_le, ih, List.forall_mem_cons]

theorem entriesDepth_le_iff (entries : List (CString × Object)) (fuel : Nat) :
    entriesDepth entries ≤ fuel ↔
      (∀ key ∈ entries.map Prod.fst, 1 ≤ fuel) ∧ ∀ value ∈ entries.map Prod.snd, value.depth ≤ fuel := by
  induction entries with
  | nil => exact iff_of_true (Nat.zero_le _) ⟨fun _ member => (nomatch member), fun _ member => (nomatch member)⟩
  | cons entry entries ih =>
    rw [entriesDepth, Nat.max_le, ih, List.map_cons, List.map_cons]
    simp only [List.forall_mem_cons]
    constructor
    · intro ⟨here, keys, values⟩
      exact ⟨⟨(depth_pos entry.2).trans here, keys⟩, here, values⟩
    · intro ⟨⟨_, keys⟩, here, values⟩
      exact ⟨here, keys, values⟩

theorem string_ends (generous : ∀ allocations size, host.alloc allocations size = true) (small : data.length < 2 ^ 60)
    {id : Nat} {offset : BitVec 64} {marker : Bytes} {value : CString} (entry : reftab[id]? = some offset)
    (stands : Marker PLIST_TYPE_STRING value.bytes.length marker) (found : At data offset.toNat (marker ++ value.bytes))
    (fuel : Nat) : Ends (parseObject host data reftab reflen fuel id) (1 ≤ fuel) (.string value) := by
  obtain ⟨type, kind, marked⟩ := markerAt_marker (by decide) stands found
  refine parseObject_ends_of_payload generous entry marked (fun smaller => ?_) fuel
  rw [parsePayload_string kind]
  have copied := parseBuffer_yields generous small (fun buffer => Object.string (.ofBuffer buffer)) le_rfl found.right
  rw [CString.ofBuffer_bytes] at copied
  exact copied.ends (Nat.zero_le _)

end Decode

section Trees
variable {host : Host} {data : Bytes} {reftab : List (BitVec 64)} {reflen : Nat}

/-- What the decoder assumes of every document that it reads to the end. -/
structure Readable (host : Host) (data : Bytes) (entries reflen : Nat) : Prop where
  generous : ∀ allocations size, host.alloc allocations size = true
  small : data.length < 2 ^ 32
  width : reflen = 1 ∨ reflen = 2 ∨ reflen = 4 ∨ reflen = 8
  entries : entries < 2 ^ 63

theorem Readable.fits {entries : Nat} (readable : Readable host data entries reflen) : data.length < 2 ^ 60 :=
  readable.small.trans (by decide)

variable (readable : Readable host data reftab.length reflen)
include readable

mutual

/-- A tree that is laid out is what the decoder returns, given fuel for its depth. -/
theorem parseObject_ends : ∀ (object : Object) (id : Nat), Laid data reftab reflen object id → ∀ fuel,
    Ends (parseObject host data reftab reflen fuel id) (object.depth ≤ fuel) object
  | .null, _, laid, _ => laid.elim
  | .date _, _, laid, _ => laid.elim
  | .unicodeString _, _, laid, _ => laid.elim
  | .primitive value, id, laid, fuel => by
    obtain ⟨offset, length, rest, entry, stands, found⟩ := laid
    obtain ⟨low, high, marked⟩ := markerAt_primitive stands found
    refine parseObject_ends_of_payload readable.generous entry marked (fun smaller => ?_) fuel
    rw [parsePayload_primitive high, low]
    exact (yields_pure _).ends (Nat.zero_le _)
  | .integer value, id, laid, fuel => by
    obtain ⟨offset, exponent, entry, known, fits, found⟩ := laid
    have stands : Marker PLIST_TYPE_INTEGER exponent [PLIST_TYPE_INTEGER ||| UInt8.ofNat exponent] := .short (by omega)
    obtain ⟨type, kind, marked⟩ := markerAt_marker (by decide) stands
      (show At data offset.toNat ([PLIST_TYPE_INTEGER ||| UInt8.ofNat exponent] ++ beBytes (2 ^ exponent) value.toNat)
        from found)
    refine parseObject_ends_of_payload readable.generous entry marked (fun smaller => ?_) fuel
    rw [parsePayload_integer kind]
    have read := parseIntegerObject_found known fits found.tail
    rw [BitVec.ofNat_toNat, BitVec.setWidth_eq] at read
    exact read.ends (Nat.zero_le _)
  | .real value, id, laid, fuel => by
    obtain ⟨offset, entry, found⟩ := laid
    have stands : Marker PLIST_TYPE_REAL 3 [PLIST_TYPE_REAL ||| 3] := .short (by decide)
    obtain ⟨type, kind, marked⟩ := markerAt_marker (by decide) stands
      (show At data offset.toNat ([PLIST_TYPE_REAL ||| 3] ++ beBytes 8 value.toNat) from found)
    refine parseObject_ends_of_payload readable.generous entry marked (fun smaller => ?_) fuel
    rw [parsePayload_real kind]
    exact (parseRealObject_found found.tail).ends (Nat.zero_le _)
  | .data value, id, laid, fuel => by
    obtain ⟨offset, marker, entry, stands, found⟩ := laid
    obtain ⟨type, kind, marked⟩ := markerAt_marker (by decide) stands found
    refine parseObject_ends_of_payload readable.generous entry marked (fun smaller => ?_) fuel
    rw [parsePayload_data kind]
    exact (parseBuffer_yields readable.generous readable.fits .data (Nat.zero_le _) found.right).ends (Nat.zero_le _)
  | .string value, id, laid, fuel => by
    obtain ⟨offset, marker, entry, stands, found⟩ := laid
    exact string_ends readable.generous readable.fits entry stands found fuel
  | .array values, id, laid, fuel => by
    obtain ⟨offset, marker, refs, entry, stands, found, laidValues⟩ := laid
    obtain ⟨type, kind, marked⟩ := markerAt_marker (by decide) stands found
    refine parseObject_ends_of_payload readable.generous entry marked (fun smaller => ?_) fuel
    rw [parsePayload_array kind]
    exact (parseArray_ends readable.generous readable.fits readable.width (parseValues_ends values refs laidValues smaller)
      found.right).congr (valuesDepth_le_iff values smaller).symm
  | .dict entries, id, laid, fuel => by
    obtain ⟨offset, marker, keyRefs, valueRefs, entry, stands, found, laidEntries⟩ := laid
    obtain ⟨type, kind, marked⟩ := markerAt_marker (by decide) stands found
    refine parseObject_ends_of_payload readable.generous entry marked (fun smaller => ?_) fuel
    rw [parsePayload_dict kind]
    obtain ⟨keys, values⟩ := parseEntries_ends entries keyRefs valueRefs laidEntries smaller
    have read := parseDict_ends readable.generous readable.fits readable.width (by rw [List.length_map, List.length_map])
      keys values found.right
    rw [List.length_map] at read
    have zipped : (entries.map Prod.fst).zip (entries.map Prod.snd) = entries := by
      rw [List.zip_map', List.map_id']
    rw [zipped] at read
    exact read.congr (entriesDepth_le_iff entries smaller).symm

theorem parseValues_ends : ∀ (values : List Object) (refs : List Nat), LaidValues data reftab reflen values refs → ∀ fuel,
    List.Forall₂ (fun ref value => ref < 256 ^ reflen ∧ ref < 2 ^ 63 ∧ value.isNull = false ∧
      Ends (parseObject host data reftab reflen fuel ref) (value.depth ≤ fuel) value) refs values
  | [], refs, laid, _ => by
    obtain rfl : refs = [] := laid
    exact .nil
  | value :: values, refs, laid, fuel => by
    obtain ⟨ref, rest, rfl, fits, here, later⟩ := laid
    exact .cons ⟨fits, here.entry.trans readable.entries, here.present, parseObject_ends value ref here fuel⟩
      (parseValues_ends values rest later fuel)

theorem parseEntries_ends : ∀ (pairs : List (CString × Object)) (keyRefs valueRefs : List Nat),
    LaidEntries data reftab reflen pairs keyRefs valueRefs → ∀ fuel,
    List.Forall₂ (fun ref key => ref < 256 ^ reflen ∧
      Ends (parseObject host data reftab reflen fuel ref) (1 ≤ fuel) (.string key)) keyRefs (pairs.map Prod.fst) ∧
    List.Forall₂ (fun ref value => ref < 256 ^ reflen ∧ value.isNull = false ∧
      Ends (parseObject host data reftab reflen fuel ref) (value.depth ≤ fuel) value) valueRefs (pairs.map Prod.snd)
  | [], keyRefs, valueRefs, laid, _ => by
    obtain ⟨rfl, rfl⟩ : keyRefs = [] ∧ valueRefs = [] := laid
    exact ⟨.nil, .nil⟩
  | (key, value) :: pairs, keyRefs, valueRefs, laid, fuel => by
    obtain ⟨keyRef, keyRest, valueRef, valueRest, rfl, rfl, keyFits, valueFits, ⟨offset, marker, entry, stands, found⟩,
      here, later⟩ := laid
    obtain ⟨keys, values⟩ := parseEntries_ends pairs keyRest valueRest later fuel
    exact ⟨.cons ⟨keyFits, string_ends readable.generous readable.fits entry stands found fuel⟩ keys,
      .cons ⟨valueFits, here.present, parseObject_ends value valueRef here fuel⟩ values⟩

end

end Trees

end Apsdk.Plist
