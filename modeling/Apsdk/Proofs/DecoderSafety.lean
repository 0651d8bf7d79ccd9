import Apsdk.PlistDecoder
import Mathlib.Tactic.IntervalCases

/-! The decoder keeps to its bounds exactly as long as the trailer and every object
that it opens keep to theirs. -/

namespace Apsdk.Plist
open Library Traced

/-- Reads stay inside of the data, table accesses inside of the table, shifts below
the width, signed sizes inside of their type, and, where `sizes` is set, unsigned ones too. -/
def Event.Safe (datalen : Nat) (sizes : Bool) : Event → Prop
  | .read dataidx count => dataidx + count ≤ datalen
  | .entry index objects => 0 ≤ index ∧ index < objects
  | .size value => sizes = true → value < 2 ^ 64
  | .signedSize value => value < 2 ^ 63
  | .shift amount width => amount < width
  | .object _ => True

/-- The marker of the object at an offset: its type and length, and where its payload begins. -/
def markerAt (data : Bytes) (dataidx : Nat) : Option (UInt8 × Nat × Nat) := do
  let type ← data[dataidx]?
  if type &&& 0x0f < 15 then
    return (type, (type &&& 0x0f).toNat, dataidx + 1)
  let lentype ← data[dataidx + 1]?
  let width := 2 ^ (lentype &&& 0x0f).toNat
  let length := beValue ((data.drop (dataidx + 2)).take width)
  if lentype &&& 0xf0 = PLIST_TYPE_INTEGER ∧ width ≤ 8 ∧ dataidx + 2 + width ≤ data.length ∧ length < 2 ^ 63 then
    return (type, length, dataidx + 2 + width)
  none

/-- An object that is read within bounds: the exponent in an integer or a real is
below 64, a real that is not a `float` has eight bytes, and the references of a
container fit into a size of 64 bits. -/
structure PayloadSafe (data : Bytes) (reflen : Nat) (sizes : Bool) (type : UInt8) (length dataidx : Nat) : Prop where
  integer : type &&& 0xf0 = PLIST_TYPE_INTEGER → length < 64
  real : type &&& 0xf0 = PLIST_TYPE_REAL →
    length < 64 ∧ (dataidx + 2 ^ length ≤ data.length → length = 2 ∨ dataidx + 8 ≤ data.length)
  array : type &&& 0xf0 = PLIST_TYPE_ARRAY → sizes = true → dataidx + length * reflen < 2 ^ 64
  dict : type &&& 0xf0 = PLIST_TYPE_DICT → sizes = true → dataidx + 2 * length * reflen < 2 ^ 64

def ObjectSafe (data : Bytes) (reflen : Nat) (sizes : Bool) (dataidx : Nat) : Prop :=
  ∀ type length payload, markerAt data dataidx = some (type, length, payload) →
    PayloadSafe data reflen sizes type length payload

/-- Nothing but the objects that are opened, each of which must be safe. -/
def Event.Opens (data : Bytes) (reflen : Nat) (sizes : Bool) : Event → Prop
  | .object dataidx => ObjectSafe data reflen sizes dataidx
  | _ => True

section Primitives
variable {data : Bytes} {dataidx count : Nat}

theorem parseInteger_eq (length : Nat) :
    parseInteger data dataidx length =
      if length = 1 ∨ length = 2 ∨ length = 4 ∨ length = 8 then
        read data dataidx length >>= fun bytes => pure (some (BitVec.ofNat 64 (beValue bytes)))
      else pure none := by
  unfold parseInteger
  split
  all_goals simp_all

theorem parseInteger_emits {property : Event → Prop} {state : Nat} (length : Nat)
    (reads : property (.read dataidx length)) : Emits property (parseInteger data dataidx length) state := by
  rw [parseInteger_eq]
  split
  · exact emits_checked_bind.mpr ⟨reads, fun _ => emits_pure _⟩
  · exact emits_pure _

theorem parseInteger_yields {width : Nat} (known : width = 1 ∨ width = 2 ∨ width = 4 ∨ width = 8)
    (inside : dataidx + width ≤ data.length) :
    Yields (parseInteger data dataidx width) (some (BitVec.ofNat 64 (beValue ((data.drop dataidx).take width)))) := by
  rw [parseInteger_eq, if_pos known]
  exact (yields_checked inside).bind (yields_pure _)

/-- Inside of the data, reading gives a number or fails by its width. -/
theorem parseInteger_reads {width : Nat} (inside : dataidx + width ≤ data.length) :
    Yields (parseInteger data dataidx width) (if width = 1 ∨ width = 2 ∨ width = 4 ∨ width = 8 then
      some (BitVec.ofNat 64 (beValue ((data.drop dataidx).take width))) else none) := by
  split
  next known => exact parseInteger_yields known inside
  next unknown =>
    rw [parseInteger_eq, if_neg unknown]
    exact yields_pure none

theorem head_slice (inside : dataidx < data.length) : ((data.drop dataidx).take 1).headD 0 = data[dataidx] := by
  rw [List.drop_eq_getElem_cons inside]
  rfl

end Primitives

section Marker
variable {data : Bytes}

/-- The exponent of a length is below 16, so that the shift is defined; from 8 on the width is cut off to zero. -/
theorem exponent_lt (lentype : UInt8) : (lentype &&& 0x0f).toNat < 16 := by
  rw [UInt8.toNat_and]
  exact Nat.lt_of_le_of_lt Nat.and_le_right (by decide)

theorem parseMarker_emits {property : Event → Prop} {state : Nat} (dataidx : Nat)
    (reads : ∀ offset count, offset + count ≤ data.length → property (.read offset count))
    (shifts : ∀ amount, amount < 16 → property (.shift amount 32)) :
    Emits property (parseMarker data dataidx) state := by
  unfold parseMarker
  split
  · exact emits_pure _
  rename_i first
  refine emits_checked_bind.mpr ⟨reads _ _ (by omega), fun _ => ?_⟩
  dsimp only
  split
  · exact emits_pure _
  split
  · exact emits_pure _
  rename_i second
  refine emits_checked_bind.mpr ⟨reads _ _ (by omega), fun _ => ?_⟩
  split
  · exact emits_pure _
  refine emits_checked_bind.mpr ⟨shifts _ (exponent_lt _), fun _ => ?_⟩
  split
  · exact emits_pure _
  rename_i third
  refine emits_bind.mpr ⟨parseInteger_emits _ (reads _ _ (by omega)), fun lenvalue _ => ?_⟩
  split
  · exact emits_pure _
  split <;> exact emits_pure _

theorem width_known {exponent : Nat} (narrow : 2 ^ exponent ≤ 8) :
    2 ^ exponent = 1 ∨ 2 ^ exponent = 2 ∨ 2 ^ exponent = 4 ∨ 2 ^ exponent = 8 := by
  have small : exponent ≤ 3 := (Nat.pow_le_pow_iff_right (by decide)).mp narrow
  interval_cases exponent <;> simp

/-- As a `uint8_t`, a power of two above 8 is not a width that is read. -/
theorem width_unknown {exponent : Nat} (wide : 8 < 2 ^ exponent) :
    ¬ (2 ^ exponent % 256 = 1 ∨ 2 ^ exponent % 256 = 2 ∨ 2 ^ exponent % 256 = 4 ∨ 2 ^ exponent % 256 = 8) := by
  have large : 4 ≤ exponent := (Nat.pow_lt_pow_iff_right (by decide)).mp (show 2 ^ 3 < 2 ^ exponent from wide)
  by_cases below : exponent < 8
  · interval_cases exponent <;> decide
  · have zero : 2 ^ exponent % 256 = 0 := Nat.mod_eq_zero_of_dvd (Nat.pow_dvd_pow 2 (Nat.not_lt.mp below))
    omega

theorem parseMarker_yields (data : Bytes) (dataidx : Nat) : Yields (parseMarker data dataidx) (markerAt data dataidx) := by
  unfold parseMarker markerAt
  by_cases first : dataidx ≥ data.length
  · rw [if_pos first, List.getElem?_eq_none first]
    exact yields_pure _
  rw [if_neg first, List.getElem?_eq_getElem (Nat.lt_of_not_le first)]
  refine (yields_checked (by omega)).bind ?_
  rw [head_slice (Nat.lt_of_not_le first)]
  simp only [Option.bind_eq_bind, Option.bind_some]
  generalize data[dataidx] = type
  by_cases short : type &&& 0x0f < 15
  · rw [if_pos short, if_pos short]
    exact yields_pure _
  rw [if_neg short, if_neg short]
  by_cases second : dataidx + 1 ≥ data.length
  · rw [if_pos second, List.getElem?_eq_none second]
    exact yields_pure _
  rw [if_neg second, List.getElem?_eq_getElem (Nat.lt_of_not_le second)]
  refine (yields_checked (by omega)).bind ?_
  rw [head_slice (Nat.lt_of_not_le second)]
  simp only [Option.bind_some]
  generalize data[dataidx + 1] = lentype
  by_cases integer : lentype &&& 0xf0 = PLIST_TYPE_INTEGER
  swap
  · rw [if_pos integer, if_neg fun all => integer all.1]
    exact yields_pure _
  rw [if_neg (not_not.mpr integer)]
  refine (yields_checked ((exponent_lt lentype).trans (by decide))).bind ?_
  generalize (lentype &&& 0x0f).toNat = exponent at *
  by_cases wide : 8 < 2 ^ exponent
  · split
    · rw [if_neg fun all => absurd all.2.1 (Nat.not_le.mpr wide)]
      exact yields_pure _
    rw [if_neg fun all => absurd all.2.1 (Nat.not_le.mpr wide), parseInteger_eq, if_neg (width_unknown wide)]
    exact (yields_pure none).bind (yields_pure _)
  have known := width_known (Nat.not_lt.mp wide)
  rw [Nat.mod_eq_of_lt (by omega : 2 ^ exponent < 256)]
  by_cases third : dataidx + 2 + 2 ^ exponent ≤ data.length
  swap
  · rw [if_pos (by omega), if_neg fun all => third all.2.2.1]
    exact yields_pure _
  rw [if_neg (by omega)]
  refine (parseInteger_yields known (by omega)).bind ?_
  have bound := beValue_lt ((data.drop (dataidx + 2)).take (2 ^ exponent))
  have fits : beValue ((data.drop (dataidx + 2)).take (2 ^ exponent)) < 2 ^ 64 := by
    refine bound.trans_le ?_
    rw [show 2 ^ 64 = 256 ^ 8 from rfl]
    exact Nat.pow_le_pow_right (by decide) ((List.length_take_le ..).trans (Nat.not_lt.mp wide))
  generalize beValue ((data.drop (dataidx + 2)).take (2 ^ exponent)) = length at *
  dsimp only
  have value : (BitVec.ofNat 64 length).toNat = length := by
    rw [BitVec.toNat_ofNat, Nat.mod_eq_of_lt fits]
  have sign : (BitVec.ofNat 64 length).toInt < 0 ↔ ¬ length < 2 ^ 63 := by
    rw [BitVec.toInt_neg_iff, value]
    omega
  by_cases small : length < 2 ^ 63
  · rw [if_neg fun negative => sign.mp negative small, if_pos ⟨integer, Nat.not_lt.mp wide, third, small⟩, value]
    exact yields_pure _
  · rw [if_pos (sign.mpr small), if_neg fun all => small all.2.2.2]
    exact yields_pure _

end Marker

section Kinds
variable {host : Host} {data : Bytes} {reflen : Nat} {parse : Nat → Decoding Object} {type : UInt8} {length dataidx : Nat}

theorem parsePayload_primitive (kind : type &&& 0xf0 = PLIST_TYPE_PRIMITIVE) :
    parsePayload host data reflen parse type length dataidx = pure (.primitive (type &&& 0x0f)) := by
  unfold parsePayload
  rw [kind]
  rfl

theorem parsePayload_integer (kind : type &&& 0xf0 = PLIST_TYPE_INTEGER) :
    parsePayload host data reflen parse type length dataidx = parseIntegerObject data length dataidx := by
  unfold parsePayload
  rw [kind]
  rfl

theorem parsePayload_real (kind : type &&& 0xf0 = PLIST_TYPE_REAL) :
    parsePayload host data reflen parse type length dataidx = parseRealObject host data length dataidx := by
  unfold parsePayload
  rw [kind]
  rfl

theorem parsePayload_date (kind : type &&& 0xf0 = PLIST_TYPE_DATE) :
    parsePayload host data reflen parse type length dataidx = parseBuffer host data .date 0 8 dataidx := by
  unfold parsePayload
  rw [kind]
  rfl

theorem parsePayload_data (kind : type &&& 0xf0 = PLIST_TYPE_DATA) :
    parsePayload host data reflen parse type length dataidx = parseBuffer host data .data 0 length dataidx := by
  unfold parsePayload
  rw [kind]
  rfl

theorem parsePayload_string (kind : type &&& 0xf0 = PLIST_TYPE_STRING) :
    parsePayload host data reflen parse type length dataidx =
      parseBuffer host data (fun buffer => .string (.ofBuffer buffer)) 1 length dataidx := by
  unfold parsePayload
  rw [kind]
  rfl

theorem parsePayload_unicode (kind : type &&& 0xf0 = PLIST_TYPE_UNICODE_STRING) :
    parsePayload host data reflen parse type length dataidx = parseBuffer host data .unicodeString 1 length dataidx := by
  unfold parsePayload
  rw [kind]
  rfl

theorem parsePayload_array (kind : type &&& 0xf0 = PLIST_TYPE_ARRAY) :
    parsePayload host data reflen parse type length dataidx = parseArray host data reflen parse length dataidx := by
  unfold parsePayload
  rw [kind]
  rfl

theorem parsePayload_dict (kind : type &&& 0xf0 = PLIST_TYPE_DICT) :
    parsePayload host data reflen parse type length dataidx = parseDict host data reflen parse length dataidx := by
  unfold parsePayload
  rw [kind]
  rfl

end Kinds

section Payload
variable {host : Host} {data : Bytes} {reflen : Nat} {sizes : Bool} {state : Nat} {parse : Nat → Decoding Object}

theorem calloc_emits {property : Event → Prop} (count size : Nat) : Emits property (calloc host count size) state :=
  fun _ member => nomatch member

theorem parseBuffer_emits {property : Event → Prop} (make : Bytes → Object) (terminator length dataidx : Nat)
    (reads : ∀ offset count, offset + count ≤ data.length → property (.read offset count)) :
    Emits property (parseBuffer host data make terminator length dataidx) state := by
  unfold parseBuffer
  split
  · exact emits_pure _
  refine emits_bind.mpr ⟨calloc_emits _ _, fun _ _ => ?_⟩
  split
  · exact emits_pure _
  · exact emits_checked_bind.mpr ⟨reads _ _ (by omega), fun _ => emits_pure _⟩

/-- Of all that happens in an integer only the first shift can be out of bounds. -/
theorem parseIntegerObject_emits {property : Event → Prop} (length dataidx : Nat) (inside : data.length < 2 ^ 32)
    (reads : ∀ offset count, offset + count ≤ data.length → property (.read offset count))
    (shifts : ∀ amount, amount < 32 → property (.shift amount 32)) :
    Emits property (parseIntegerObject data length dataidx) state ↔ property (.shift length 64) := by
  unfold parseIntegerObject shiftOne
  rw [emits_checked_bind]
  refine and_iff_left fun _ => ?_
  split
  · exact emits_pure _
  rename_i guarded
  have small : length < 32 := (Nat.pow_lt_pow_iff_right Nat.one_lt_two).mp (by omega : 2 ^ length < 2 ^ 32)
  refine emits_checked_bind.mpr ⟨shifts _ small, fun _ => emits_bind.mpr ⟨?_, fun _ _ => ?_⟩⟩
  · have narrow : 2 ^ length % 256 ≤ 2 ^ length := Nat.mod_le ..
    exact parseInteger_emits _ (reads _ _ (by omega))
  · split <;> exact emits_pure _

/-- A real has two bounds: its shift, and the eight bytes of a `double`. -/
theorem parseRealObject_emits {property : Event → Prop} (length dataidx : Nat)
    (reads : ∀ offset count, offset + count ≤ data.length → property (.read offset count))
    (shifts : ∀ amount, amount < 64 → property (.shift amount 64)) :
    Emits property (parseRealObject host data length dataidx) state ↔
      property (.shift length 64) ∧
        (length < 64 → dataidx + 2 ^ length ≤ data.length → length = 2 ∨ property (.read dataidx 8)) := by
  unfold parseRealObject shiftOne
  rw [emits_checked_bind]
  refine and_congr_right fun _ => forall_congr' fun defined => ?_
  split
  · rename_i beyond
    exact iff_of_true (emits_pure _) fun inside => absurd inside (by omega)
  rename_i guarded
  have inside : dataidx + 2 ^ length ≤ data.length := by omega
  rw [emits_checked_bind, and_iff_right (shifts _ defined), forall_prop_of_true defined, forall_prop_of_true inside]
  rw [emits_bind_of_later fun _ _ => emits_pure _, parseReal]
  by_cases float : length = 2
  · subst float
    refine iff_of_true ?_ (Or.inl rfl)
    exact emits_checked_bind.mpr ⟨reads _ _ inside, fun _ => emits_pure _⟩
  · have double : 2 ^ length ≠ 4 := fun four => float (Nat.pow_right_injective le_rfl four)
    rw [if_neg double, or_iff_right float]
    exact (emits_bind_of_later fun _ _ => emits_pure _).trans emits_checked

/-- What a property of events must allow in order to hold of everything but objects and sizes. -/
structure Harmless (data : Bytes) (property : Event → Prop) : Prop where
  reads : ∀ offset count, offset + count ≤ data.length → property (.read offset count)
  narrow : ∀ amount, amount < 32 → property (.shift amount 32)
  wide : ∀ amount, amount < 64 → property (.shift amount 64)

theorem safe_harmless : Harmless data (Event.Safe data.length sizes) :=
  ⟨fun _ _ inside => inside, fun _ below => below, fun _ below => below⟩

theorem opens_harmless : Harmless data (Event.Opens data reflen sizes) :=
  ⟨fun _ _ _ => trivial, fun _ _ => trivial, fun _ _ => trivial⟩

/-- A loop over references adds nothing to the objects that it follows. -/
theorem parseReferences_emits_iff {Value : Type} {property other : Event → Prop} (harmless : Harmless data property)
    (harmless' : Harmless data other)
    (same : ∀ reference state, Emits property (parse reference) state ↔ Emits other (parse reference) state)
    (follow : BitVec 64 → Bool) (accept : Object → Option Value) (remaining dataidx state : Nat) :
    Emits property (parseReferences data reflen parse follow accept remaining dataidx) state ↔
      Emits other (parseReferences data reflen parse follow accept remaining dataidx) state := by
  induction remaining generalizing dataidx state with
  | zero => exact iff_of_true (emits_pure _) (emits_pure _)
  | succ remaining ih =>
    unfold parseReferences
    split
    · exact iff_of_true (emits_pure _) (emits_pure _)
    rename_i inside
    have here : dataidx + reflen ≤ data.length := by omega
    refine emits_bind_congr (iff_of_true (parseInteger_emits _ (harmless.reads _ _ here))
      (parseInteger_emits _ (harmless'.reads _ _ here))) fun found state => ?_
    cases found with
    | none => exact iff_of_true (emits_pure _) (emits_pure _)
    | some reference =>
      dsimp only
      split
      · exact iff_of_true (emits_pure _) (emits_pure _)
      refine emits_bind_congr (same _ _) fun object state => ?_
      cases accept object with
      | none => exact iff_of_true (emits_pure _) (emits_pure _)
      | some value =>
        exact emits_bind_congr (ih _ _) fun result state => iff_of_true (emits_pure _) (emits_pure _)

theorem parseArray_emits_iff {property other : Event → Prop} (harmless : Harmless data property)
    (harmless' : Harmless data other)
    (same : ∀ reference state, Emits property (parse reference) state ↔ Emits other (parse reference) state)
    (length dataidx state : Nat) (fits : property (.size (dataidx + length * reflen)))
    (fits' : other (.size (dataidx + length * reflen))) :
    Emits property (parseArray host data reflen parse length dataidx) state ↔
      Emits other (parseArray host data reflen parse length dataidx) state := by
  unfold parseArray unsignedSize
  refine emits_bind_congr (iff_of_true (emits_checked.mpr fits) (emits_checked.mpr fits')) fun guarded state => ?_
  split
  · exact iff_of_true (emits_pure _) (emits_pure _)
  refine emits_bind_congr (iff_of_true (calloc_emits _ _) (calloc_emits _ _)) fun allocated state => ?_
  split
  · exact iff_of_true (emits_pure _) (emits_pure _)
  refine emits_bind_congr (parseReferences_emits_iff harmless harmless' same _ _ _ _ _) fun values state => ?_
  exact iff_of_true (emits_pure _) (emits_pure _)

theorem parseDict_emits_iff {property other : Event → Prop} (harmless : Harmless data property)
    (harmless' : Harmless data other)
    (same : ∀ reference state, Emits property (parse reference) state ↔ Emits other (parse reference) state)
    (length dataidx state : Nat) (fits : property (.size (dataidx + 2 * length * reflen)))
    (fits' : other (.size (dataidx + 2 * length * reflen))) :
    Emits property (parseDict host data reflen parse length dataidx) state ↔
      Emits other (parseDict host data reflen parse length dataidx) state := by
  unfold parseDict unsignedSize
  refine emits_bind_congr (iff_of_true (emits_checked.mpr fits) (emits_checked.mpr fits')) fun guarded state => ?_
  split
  · exact iff_of_true (emits_pure _) (emits_pure _)
  refine emits_bind_congr (iff_of_true (calloc_emits _ _) (calloc_emits _ _)) fun allocated state => ?_
  split
  · exact iff_of_true (emits_pure _) (emits_pure _)
  refine emits_bind_congr (iff_of_true (calloc_emits _ _) (calloc_emits _ _)) fun allocated state => ?_
  split
  · exact iff_of_true (emits_pure _) (emits_pure _)
  refine emits_bind_congr (parseReferences_emits_iff harmless harmless' same _ _ _ _ _) fun keys state => ?_
  refine emits_bind_congr (parseReferences_emits_iff harmless harmless' same _ _ _ _ _) fun values state => ?_
  exact iff_of_true (emits_pure _) (emits_pure _)

/-- Objects of the other types have no bounds of their own. -/
theorem PayloadSafe.of_plain {type kind : UInt8} {length dataidx : Nat} (same : type &&& 0xf0 = kind)
    (plain : kind ≠ PLIST_TYPE_INTEGER ∧ kind ≠ PLIST_TYPE_REAL ∧ kind ≠ PLIST_TYPE_ARRAY ∧ kind ≠ PLIST_TYPE_DICT) :
    PayloadSafe data reflen sizes type length dataidx :=
  ⟨fun other => absurd (same.symm.trans other) plain.1, fun other => absurd (same.symm.trans other) plain.2.1,
    fun other => absurd (same.symm.trans other) plain.2.2.1, fun other => absurd (same.symm.trans other) plain.2.2.2⟩

/-- A payload is read within bounds when it is safe itself and everything that it refers to is. -/
theorem parsePayload_safe_iff (inside : data.length < 2 ^ 32)
    (same : ∀ reference state, Emits (Event.Safe data.length sizes) (parse reference) state ↔
      Emits (Event.Opens data reflen sizes) (parse reference) state)
    (type : UInt8) (length dataidx state : Nat) :
    Emits (Event.Safe data.length sizes) (parsePayload host data reflen parse type length dataidx) state ↔
      PayloadSafe data reflen sizes type length dataidx ∧
        Emits (Event.Opens data reflen sizes) (parsePayload host data reflen parse type length dataidx) state := by
  have safe : Harmless data (Event.Safe data.length sizes) := safe_harmless
  have opens : Harmless data (Event.Opens data reflen sizes) := opens_harmless
  unfold parsePayload
  dsimp only
  split
  case isTrue primitive => exact iff_of_true (emits_pure _) ⟨.of_plain primitive (by decide), emits_pure _⟩
  split
  case isTrue integer =>
    rw [parseIntegerObject_emits length dataidx inside safe.reads safe.narrow,
      parseIntegerObject_emits length dataidx inside opens.reads opens.narrow]
    refine ⟨fun small => ⟨⟨fun _ => small, ?_, ?_, ?_⟩, trivial⟩, fun whole => whole.1.integer integer⟩
    all_goals exact fun other => absurd (integer.symm.trans other) (by decide)
  split
  case isTrue real =>
    rw [parseRealObject_emits length dataidx safe.reads safe.wide,
      parseRealObject_emits length dataidx opens.reads opens.wide]
    refine ⟨fun bounds => ⟨⟨?_, fun _ => ⟨bounds.1, bounds.2 bounds.1⟩, ?_, ?_⟩, trivial, fun _ _ => Or.inr trivial⟩,
      fun whole => ⟨(whole.1.real real).1, fun _ => (whole.1.real real).2⟩⟩
    all_goals exact fun other => absurd (real.symm.trans other) (by decide)
  split
  case isTrue date =>
    exact iff_of_true (parseBuffer_emits _ _ _ _ safe.reads)
      ⟨.of_plain date (by decide), parseBuffer_emits _ _ _ _ opens.reads⟩
  split
  case isTrue copied =>
    exact iff_of_true (parseBuffer_emits _ _ _ _ safe.reads)
      ⟨.of_plain copied (by decide), parseBuffer_emits _ _ _ _ opens.reads⟩
  split
  case isTrue string =>
    exact iff_of_true (parseBuffer_emits _ _ _ _ safe.reads)
      ⟨.of_plain string (by decide), parseBuffer_emits _ _ _ _ opens.reads⟩
  split
  case isTrue unicode =>
    exact iff_of_true (parseBuffer_emits _ _ _ _ safe.reads)
      ⟨.of_plain unicode (by decide), parseBuffer_emits _ _ _ _ opens.reads⟩
  split
  case isTrue array =>
    have vacuous : ∀ kind, PLIST_TYPE_ARRAY ≠ kind → type &&& 0xf0 ≠ kind := fun kind distinct other =>
      distinct (array.symm.trans other)
    refine ⟨fun emits => ?_, fun whole => ?_⟩
    · have fits : sizes = true → dataidx + length * reflen < 2 ^ 64 := by
        unfold parseArray unsignedSize at emits
        exact (emits_checked_bind.mp emits).1
      exact ⟨⟨fun other => absurd other (vacuous _ (by decide)), fun other => absurd other (vacuous _ (by decide)),
        fun _ => fits, fun other => absurd other (vacuous _ (by decide))⟩,
        (parseArray_emits_iff safe opens same _ _ _ fits trivial).mp emits⟩
    · exact (parseArray_emits_iff safe opens same _ _ _ (whole.1.array array) trivial).mpr whole.2
  split
  case isTrue dict =>
    have vacuous : ∀ kind, PLIST_TYPE_DICT ≠ kind → type &&& 0xf0 ≠ kind := fun kind distinct other =>
      distinct (dict.symm.trans other)
    refine ⟨fun emits => ?_, fun whole => ?_⟩
    · have fits : sizes = true → dataidx + 2 * length * reflen < 2 ^ 64 := by
        unfold parseDict unsignedSize at emits
        exact (emits_checked_bind.mp emits).1
      exact ⟨⟨fun other => absurd other (vacuous _ (by decide)), fun other => absurd other (vacuous _ (by decide)),
        fun other => absurd other (vacuous _ (by decide)), fun _ => fits⟩,
        (parseDict_emits_iff safe opens same _ _ _ fits trivial).mp emits⟩
    · exact (parseDict_emits_iff safe opens same _ _ _ (whole.1.dict dict) trivial).mpr whole.2
  rename_i integer real _ _ _ _ array dict
  exact iff_of_true (emits_pure _) ⟨⟨fun other => absurd other integer, fun other => absurd other real,
    fun other => absurd other array, fun other => absurd other dict⟩, emits_pure _⟩

end Payload

section Document
variable {host : Host} {data : Bytes} {reflen : Nat} {sizes : Bool}

theorem parseObject_safe_iff (inside : data.length < 2 ^ 32) (reftab : List (BitVec 64)) (fuel reftabidx state : Nat) :
    Emits (Event.Safe data.length sizes) (parseObject host data reftab reflen fuel reftabidx) state ↔
      Emits (Event.Opens data reflen sizes) (parseObject host data reftab reflen fuel reftabidx) state := by
  induction fuel generalizing reftabidx state with
  | zero => exact iff_of_true (emits_stop _) (emits_stop _)
  | succ fuel ih =>
    unfold parseObject
    split
    · exact iff_of_true (emits_pure _) (emits_pure _)
    rename_i known
    have entry : Event.Safe data.length sizes (.entry reftabidx reftab.length) := ⟨by omega, by omega⟩
    have entry' : Event.Opens data reflen sizes (.entry reftabidx reftab.length) := trivial
    rw [emits_emit_bind, emits_emit_bind, and_iff_right entry, and_iff_right entry']
    dsimp only
    generalize (reftab.getD reftabidx 0).toNat = dataidx
    have marker : ∀ state', ((parseMarker data dataidx).run state').value = .ok (markerAt data dataidx) :=
      parseMarker_yields data dataidx
    rw [emits_bind, emits_bind, and_iff_right, and_iff_right]
    rotate_left
    · exact parseMarker_emits _ (fun _ _ _ => trivial) fun _ _ => trivial
    · exact parseMarker_emits _ (fun _ _ inside => inside) fun _ below => Nat.lt_trans below (by decide)
    simp only [marker, Except.ok.injEq, forall_eq']
    generalize ((parseMarker data dataidx).run state).state = state
    rcases found : markerAt data dataidx with _ | ⟨type, length, payload⟩
    · exact iff_of_true (emits_pure _) (emits_pure _)
    refine emits_bind_congr (iff_of_true (calloc_emits _ _) (calloc_emits _ _)) fun allocated state => ?_
    split
    · exact iff_of_true (emits_pure _) (emits_pure _)
    have object : Event.Safe data.length sizes (.object dataidx) := trivial
    rw [emits_emit_bind, emits_emit_bind, and_iff_right object, parsePayload_safe_iff inside ih]
    refine and_congr_left fun _ => ⟨fun safe => ?_, fun safe => safe _ _ _ found⟩
    intro type' length' payload' found'
    cases found.symm.trans found'
    exact safe

theorem increment_yields {i objects : Nat} (small : i + 1 < 2 ^ 31) : Yields (increment i objects) (i + 1) := by
  rw [increment, if_pos small]
  exact yields_pure _

/-- The loop over the offset table is within bounds exactly as long as its counter is. -/
theorem parseTable_safe_iff {reftaboffset offlen objects remaining i : Nat}
    (fits : reftaboffset + objects * offlen ≤ data.length) (split : i + remaining = objects) (counter : i < 2 ^ 31)
    (state : Nat) :
    Emits (Event.Safe data.length sizes) (parseTable data reftaboffset offlen objects remaining i) state ↔
      objects < 2 ^ 31 := by
  induction remaining generalizing i state with
  | zero => exact iff_of_true (emits_pure _) (by omega)
  | succ remaining ih =>
    have inside : reftaboffset + i * offlen + offlen ≤ data.length := by
      have step : (i + 1) * offlen ≤ objects * offlen := Nat.mul_le_mul_right _ (by omega)
      rw [Nat.add_one_mul] at step
      omega
    have entry : Event.Safe data.length sizes (.entry i objects) := ⟨by omega, by omega⟩
    have readable : Event.Safe data.length sizes (.read (reftaboffset + i * offlen) offlen) := inside
    unfold parseTable
    rw [emits_emit_bind, and_iff_right entry, emits_yields_bind (parseInteger_reads inside), and_iff_right (parseInteger_emits _ readable)]
    by_cases small : i + 1 < 2 ^ 31
    · have silent : ∀ state, Emits (Event.Safe data.length sizes) (increment i objects) state := by
        intro state
        rw [increment, if_pos small]
        exact emits_pure _
      rw [emits_yields_bind (increment_yields small), and_iff_right (silent _), emits_bind_of_later fun _ _ => emits_pure _]
      exact ih (by omega) small _
    · refine iff_of_false (fun emits => ?_) (by omega)
      rw [increment, if_neg small] at emits
      have wrapped := (emits_emit_bind.mp (emits_bind.mp emits).1).1
      exact absurd wrapped.1 (by decide)

theorem parseTable_opens {reftaboffset offlen objects : Nat} (remaining i state : Nat) :
    Emits (Event.Opens data reflen sizes) (parseTable data reftaboffset offlen objects remaining i) state := by
  induction remaining generalizing i state with
  | zero => exact emits_pure _
  | succ remaining ih =>
    refine emits_emit_bind.mpr ⟨trivial, emits_bind.mpr ⟨parseInteger_emits _ trivial, fun offset _ => ?_⟩⟩
    refine emits_bind.mpr ⟨?_, fun next _ => emits_bind.mpr ⟨ih _ _, fun _ _ => emits_pure _⟩⟩
    unfold increment
    split
    · exact emits_pure _
    · exact emits_emit_bind.mpr ⟨trivial, emits_stop _⟩

/-- The bytes of a trailer field, as the decoder takes them. -/
def trailerField (data : Bytes) (offset width : Nat) : Bytes :=
  (data.drop (data.length - BPLIST_TRAILER_LEN + offset)).take width

def trailerInteger (data : Bytes) (offset : Nat) : Int := (BitVec.ofNat 64 (beValue (trailerField data offset 8))).toInt

def trailerOf (data : Bytes) : Trailer :=
  ⟨((trailerField data 6 1).headD 0).toNat, ((trailerField data 7 1).headD 0).toNat, trailerInteger data 8,
    trailerInteger data 16, trailerInteger data 24⟩

theorem parseTrailer_yields (long : BPLIST_TRAILER_LEN ≤ data.length) : Yields (parseTrailer data) (trailerOf data) := by
  unfold BPLIST_TRAILER_LEN at long
  refine (yields_checked (by unfold BPLIST_TRAILER_LEN; omega)).bind ?_
  refine (yields_checked (by unfold BPLIST_TRAILER_LEN; omega)).bind ?_
  refine (parseInteger_yields (by decide) (by unfold BPLIST_TRAILER_LEN; omega)).bind ?_
  refine (parseInteger_yields (by decide) (by unfold BPLIST_TRAILER_LEN; omega)).bind ?_
  refine (parseInteger_yields (by decide) (by unfold BPLIST_TRAILER_LEN; omega)).bind ?_
  exact yields_pure _

theorem parseTrailer_emits {property : Event → Prop} {state : Nat} (long : BPLIST_TRAILER_LEN ≤ data.length)
    (reads : ∀ offset count, offset + count ≤ data.length → property (.read offset count)) :
    Emits property (parseTrailer data) state := by
  unfold BPLIST_TRAILER_LEN at long
  have field : ∀ offset count, offset + count ≤ 32 →
      property (.read (data.length - BPLIST_TRAILER_LEN + offset) count) := fun offset count inside =>
    reads _ _ (by unfold BPLIST_TRAILER_LEN; omega)
  refine emits_bind.mpr ⟨emits_checked.mpr (field 6 1 (by decide)), fun _ _ => ?_⟩
  refine emits_bind.mpr ⟨emits_checked.mpr (field 7 1 (by decide)), fun _ _ => ?_⟩
  refine emits_bind.mpr ⟨parseInteger_emits _ (field 8 8 (by decide)), fun _ _ => ?_⟩
  refine emits_bind.mpr ⟨parseInteger_emits _ (field 16 8 (by decide)), fun _ _ => ?_⟩
  exact emits_bind.mpr ⟨parseInteger_emits _ (field 24 8 (by decide)), fun _ _ => emits_pure _⟩

theorem parseInteger_keeps (dataidx length : Nat) : Keeps (parseInteger data dataidx length) := by
  rw [parseInteger_eq]
  split
  · exact keeps_checked.bind fun _ => keeps_pure _
  · exact keeps_pure _

theorem parseTrailer_keeps : Keeps (parseTrailer data) :=
  keeps_checked.bind fun _ => keeps_checked.bind fun _ => (parseInteger_keeps _ _).bind fun _ =>
    (parseInteger_keeps _ _).bind fun _ => (parseInteger_keeps _ _).bind fun _ => keeps_pure _

/-- The first checks of the trailer pass. -/
structure Admitted (trailer : Trailer) : Prop where
  objects : 0 < trailer.objects
  rootid : 0 ≤ trailer.rootid
  below : trailer.rootid < trailer.objects
  reftaboffset : BPLIST_HEADER_LEN ≤ trailer.reftaboffset

def tableEnd (trailer : Trailer) : Nat := trailer.reftaboffset.toNat + trailer.objects.toNat * trailer.offlen

/-- The end of the offset table fits into an `int64_t`, and a table that can be
allocated has fewer than `2^31` entries. -/
def TrailerSafe (host : Host) (data : Bytes) : Prop :=
  BPLIST_TRAILER_LEN ≤ data.length → Admitted (trailerOf data) →
    tableEnd (trailerOf data) < 2 ^ 63 ∧
      (tableEnd (trailerOf data) ≤ data.length → (trailerOf data).objects.toNat * 8 < 2 ^ 64 →
        host.alloc 0 ((trailerOf data).objects.toNat * 8) = true → (trailerOf data).objects.toNat < 2 ^ 31)

/-- The same where the allocator has been called before. -/
def TrailerSafeFrom (allocations : Nat) (host : Host) (data : Bytes) : Prop :=
  BPLIST_TRAILER_LEN ≤ data.length → Admitted (trailerOf data) →
    tableEnd (trailerOf data) < 2 ^ 63 ∧
      (tableEnd (trailerOf data) ≤ data.length → (trailerOf data).objects.toNat * 8 < 2 ^ 64 →
        host.alloc allocations ((trailerOf data).objects.toNat * 8) = true → (trailerOf data).objects.toNat < 2 ^ 31)

/-- A computation that ends the decoding at once is safe whatever is asked of later steps. -/
theorem ends_at_once {condition : Prop} {state : Nat} (vacuous : condition) :
    Emits (Event.Safe data.length sizes) (pure Object.null) state ↔
      condition ∧ Emits (Event.Opens data reflen sizes) (pure Object.null) state :=
  iff_of_true (emits_pure _) ⟨vacuous, emits_pure _⟩

theorem signedSize_passes {condition : Prop} {value state : Nat} {next : Nat → Decoding Object} (fits : value < 2 ^ 63)
    (later : Emits (Event.Safe data.length sizes) (next value) state ↔
      condition ∧ Emits (Event.Opens data reflen sizes) (next value) state) :
    Emits (Event.Safe data.length sizes) (signedSize value >>= next) state ↔
      condition ∧ Emits (Event.Opens data reflen sizes) (signedSize value >>= next) state := by
  unfold signedSize
  rw [emits_checked_bind, emits_checked_bind, forall_prop_of_true fits, forall_prop_of_true fits, later]
  exact ⟨fun safe => ⟨safe.2.1, trivial, safe.2.2⟩, fun whole => ⟨fits, whole.1, whole.2.2⟩⟩

theorem fromBplist_safe_from (host : Host) (inside : data.length < 2 ^ 32) (sizes : Bool) (fuel allocations : Nat) :
    Emits (Event.Safe data.length sizes) (fromBplist host data fuel) allocations ↔
      TrailerSafeFrom allocations host data ∧
        Emits (Event.Opens data (trailerOf data).reflen sizes) (fromBplist host data fuel) allocations := by
  unfold fromBplist
  by_cases short : data.length < BPLIST_TRAILER_LEN
  · rw [if_pos short]
    exact ends_at_once fun long => absurd short (Nat.not_lt.mpr long)
  have long : BPLIST_TRAILER_LEN ≤ data.length := Nat.not_lt.mp short
  rw [if_neg short, emits_yields_bind (parseTrailer_yields long), emits_yields_bind (parseTrailer_yields long),
    and_iff_right (parseTrailer_emits long fun _ _ inside => inside),
    and_iff_right (parseTrailer_emits long fun _ _ _ => trivial)]
  rw [parseTrailer_keeps allocations]
  unfold TrailerSafeFrom
  rw [forall_prop_of_true long]
  generalize trailerOf data = trailer
  split
  case isTrue none => exact ends_at_once fun admitted => absurd admitted.objects (by omega)
  case isFalse objects =>
  split
  case isTrue outside =>
    refine ends_at_once fun admitted => ?_
    cases outside with
    | inl negative => exact absurd admitted.rootid (by omega)
    | inr beyond => exact absurd admitted.below (by omega)
  case isFalse root =>
  split
  case isTrue header => exact ends_at_once fun admitted => absurd admitted.reftaboffset (by omega)
  case isFalse header =>
  have admitted : Admitted trailer := ⟨by omega, by omega, by omega, by omega⟩
  rw [forall_prop_of_true admitted]
  by_cases ends : tableEnd trailer < 2 ^ 63
  swap
  · refine iff_of_false (fun emits => ends ?_) fun whole => ends whole.1.1
    obtain ⟨product, later⟩ := emits_checked_bind.mp emits
    exact (emits_checked_bind.mp (later product)).1
  have product : trailer.objects.toNat * trailer.offlen < 2 ^ 63 := by
    unfold tableEnd at ends
    omega
  rw [and_iff_right ends]
  refine signedSize_passes product (signedSize_passes ends ?_)
  split
  case isTrue beyond => exact ends_at_once fun inside => absurd inside (Nat.not_le.mpr beyond)
  case isFalse table =>
  have fits : tableEnd trailer ≤ data.length := Nat.not_lt.mp table
  rw [forall_prop_of_true fits, emits_bind, emits_bind, and_iff_right (calloc_emits _ _), and_iff_right (calloc_emits _ _)]
  simp only [calloc, Except.ok.injEq, forall_eq']
  by_cases allocated : trailer.objects.toNat * 8 < 2 ^ 64 ∧ host.alloc allocations (trailer.objects.toNat * 8) = true
  swap
  · rw [if_pos (by simpa using fun small => by simpa using fun granted => allocated ⟨small, granted⟩)]
    exact ends_at_once fun small granted => absurd ⟨small, granted⟩ allocated
  rw [if_neg (by simpa using allocated), forall_prop_of_true allocated.1, forall_prop_of_true allocated.2,
    emits_bind, emits_bind, and_iff_right (parseTable_opens _ _ _),
    parseTable_safe_iff fits (Nat.zero_add _) (by decide)]
  refine and_congr_right fun _ => forall_congr' fun reftab => forall_congr' fun _ => ?_
  exact parseObject_safe_iff inside reftab fuel _ _

/-- For every byte string and every allocator, everything that the decoder reads, shifts and adds up is within bounds
if and only if the trailer is safe and every object that the decoder opens is. -/
theorem decoder_bounds_iff (host : Host) (data : Bytes) (inside : data.length < 2 ^ 32) (fuel : Nat) :
    (∀ event ∈ ((fromBplist host data fuel).run 0).events, event.Safe data.length true) ↔
      TrailerSafe host data ∧
        ∀ dataidx, .object dataidx ∈ ((fromBplist host data fuel).run 0).events →
          ObjectSafe data (trailerOf data).reflen true dataidx := by
  refine (fromBplist_safe_from host inside true fuel 0).trans (and_congr_right fun _ => ?_)
  refine ⟨fun opens dataidx member => opens _ member, fun objects event member => ?_⟩
  cases event with
  | object dataidx => exact objects dataidx member
  | _ => trivial

/-- A document with a single object. -/
def singleObject (object : Bytes) : Bytes :=
  ascii "bplist00" ++ object ++ [8] ++ [0, 0, 0, 0, 0, 0, 1, 1] ++ beBytes 8 1 ++ beBytes 8 0 ++
    beBytes 8 (8 + object.length)

def generousHost : Host := ⟨fun _ _ => true, fun pattern => pattern.zeroExtend 64⟩

/-- A dictionary whose one value is an array that refers to the same integer twice. -/
def nestedDocument : Bytes :=
  ascii "bplist00" ++ [0xD1, 1, 2] ++ [0x51, 0x61] ++ [0xA2, 3, 3] ++ [0x10, 7] ++ [8, 11, 13, 16] ++
    [0, 0, 0, 0, 0, 0, 1, 1] ++ beBytes 8 4 ++ beBytes 8 0 ++ beBytes 8 18

/-- Where an object is about to be read. -/
def Event.opened : Event → Option Nat
  | .object dataidx => some dataidx
  | _ => none

theorem ObjectSafe.of_marker {type : UInt8} {length payload dataidx : Nat}
    (marked : markerAt data dataidx = some (type, length, payload)) (safe : PayloadSafe data reflen sizes type length payload) :
    ObjectSafe data reflen sizes dataidx := by
  intro type' length' payload' found
  obtain ⟨rfl, rest⟩ := Prod.mk.inj (Option.some.inj (marked.symm.trans found))
  obtain ⟨rfl, rfl⟩ := Prod.mk.inj rest
  exact safe

/-- All four objects are opened, the integer twice. -/
theorem nestedDocument_bounds :
    ((fromBplist generousHost nestedDocument 3).run 0).events.filterMap Event.opened = [8, 11, 13, 16, 16] ∧
      ∀ event ∈ ((fromBplist generousHost nestedDocument 3).run 0).events, event.Safe nestedDocument.length true := by
  have objects : ((fromBplist generousHost nestedDocument 3).run 0).events.filterMap Event.opened = [8, 11, 13, 16, 16] := by
    decide +kernel
  refine ⟨objects, (decoder_bounds_iff generousHost nestedDocument (by decide +kernel) 3).mpr
    ⟨fun _ _ => by decide +kernel, fun dataidx opened => ?_⟩⟩
  have known : dataidx ∈ [8, 11, 13, 16, 16] := objects ▸ List.mem_filterMap.mpr ⟨_, opened, rfl⟩
  have marked : markerAt nestedDocument 8 = some (0xD1, 1, 9) ∧ markerAt nestedDocument 11 = some (0x51, 1, 12) ∧
      markerAt nestedDocument 13 = some (0xA2, 2, 14) ∧ markerAt nestedDocument 16 = some (0x10, 0, 17) := by decide +kernel
  simp only [List.mem_cons, List.not_mem_nil, or_false] at known
  rcases known with rfl | rfl | rfl | rfl | rfl
  · exact .of_marker marked.1 ⟨by decide, by decide, by decide, fun _ _ => by decide +kernel⟩
  · exact .of_marker marked.2.1 ⟨by decide, by decide, by decide, by decide⟩
  · exact .of_marker marked.2.2.1 ⟨by decide, by decide, fun _ _ => by decide +kernel, by decide⟩
  all_goals exact .of_marker marked.2.2.2 ⟨by decide, by decide, by decide, by decide⟩

/-- An integer whose length is given by another integer, with the value 64. -/
theorem long_integer_shifts_too_far :
    ¬ ∀ (host : Host) (data : Bytes), data.length < 2 ^ 32 → ∀ fuel,
      ∀ event ∈ ((fromBplist host data fuel).run 0).events, event.Safe data.length true := by
  intro safe
  have shift := safe generousHost (singleObject [0x1F, 0x10, 64, 0]) (by decide +kernel) 1 (.shift 64 64)
    (by decide +kernel)
  exact Nat.lt_irrefl 64 shift

end Document

end Apsdk.Plist
