import Apsdk.Proofs.PlistRoundTrip

/-! Encoding what the decoder has returned. The encoder leaves out dates and UTF-16 strings, and
writes the primitive 15 without the length that the decoder takes behind it. -/

namespace Apsdk.Plist
open Library Traced

/-- The types of the objects in a tree. -/
inductive Shape where
  | node (type : UInt8) (children : List Shape)

def Shape.type : Shape → UInt8
  | .node type _ => type

def Shape.children : Shape → List Shape
  | .node _ children => children

mutual

def Object.shape : Object → Shape
  | .array values => .node PLIST_TYPE_ARRAY (valuesShape values)
  | .dict entries => .node PLIST_TYPE_DICT (entriesShape entries)
  | .null => .node Object.null.getType []
  | .primitive value => .node (Object.primitive value).getType []
  | .integer value => .node (Object.integer value).getType []
  | .real value => .node (Object.real value).getType []
  | .date value => .node (Object.date value).getType []
  | .data value => .node (Object.data value).getType []
  | .string value => .node (Object.string value).getType []
  | .unicodeString buffer => .node (Object.unicodeString buffer).getType []

def valuesShape : List Object → List Shape
  | [] => []
  | value :: values => value.shape :: valuesShape values

def entriesShape : List (CString × Object) → List Shape
  | [] => []
  | (_, value) :: entries => value.shape :: entriesShape entries

end

theorem shape_type (object : Object) : object.shape.type = object.getType := by
  cases object <;> rfl

theorem getType_of_shape {object other : Object} (same : object.shape = other.shape) : object.getType = other.getType := by
  rw [← shape_type, same, shape_type]

theorem isNull_iff (object : Object) : object.isNull = true ↔ object.getType = Object.null.getType := by
  cases object <;> simp only [Object.isNull, Object.getType] <;> decide

theorem entriesShape_zip {keys : List CString} {values : List Object} (paired : keys.length = values.length) :
    entriesShape (keys.zip values) = valuesShape values := by
  induction keys generalizing values with
  | nil =>
    cases values with
    | nil => rfl
    | cons value values => cases paired
  | cons key keys ih =>
    cases values with
    | nil => cases paired
    | cons value values => rw [List.zip_cons_cons, entriesShape, valuesShape, ih (Nat.succ.inj paired)]

mutual

/-- Reversing the reals keeps every type. -/
theorem shape_reversed : ∀ object : Object, object.reversed.shape = object.shape
  | .array values => congrArg (Shape.node PLIST_TYPE_ARRAY) (valuesShape_reversed values)
  | .dict entries => congrArg (Shape.node PLIST_TYPE_DICT) (entriesShape_reversed entries)
  | .null => rfl
  | .primitive _ => rfl
  | .integer _ => rfl
  | .real _ => by simp only [Object.reversed, Object.shape, Object.getType]
  | .date _ => by simp only [Object.reversed, Object.shape, Object.getType]
  | .data _ => rfl
  | .string _ => rfl
  | .unicodeString _ => rfl

theorem valuesShape_reversed : ∀ values : List Object, valuesShape (valuesReversed values) = valuesShape values
  | [] => rfl
  | value :: values => by
    rw [valuesReversed, valuesShape, valuesShape, shape_reversed value, valuesShape_reversed values]

theorem entriesShape_reversed : ∀ entries : List (CString × Object), entriesShape (entriesReversed entries) = entriesShape entries
  | [] => rfl
  | (_, value) :: entries => by
    rw [entriesReversed, entriesShape, entriesShape, shape_reversed value, entriesShape_reversed entries]

end

section Payloads
variable {host : Host} {data : Bytes} {reftab : List (BitVec 64)} {reflen length dataidx : Nat} {parse : Nat → Decoding Object}
  {type : UInt8} {read : Object}

theorem parseIntegerObject_returns : Returns (fun read => read = .null ∨ read.getType = PLIST_TYPE_INTEGER)
    (parseIntegerObject data length dataidx) := by
  unfold parseIntegerObject
  refine returns_bind fun guarded => ?_
  split
  · exact returns_pure (.inl rfl)
  refine returns_bind fun width => returns_bind fun value => ?_
  cases value with
  | none => exact returns_pure (.inl rfl)
  | some value => exact returns_pure (.inr rfl)

theorem parseRealObject_returns : Returns (fun read => read = .null ∨ read.getType = PLIST_TYPE_REAL)
    (parseRealObject host data length dataidx) := by
  unfold parseRealObject
  refine returns_bind fun guarded => ?_
  split
  · exact returns_pure (.inl rfl)
  refine returns_bind fun width => returns_bind fun result => returns_pure ?_
  split
  · exact .inl rfl
  · exact .inr rfl

theorem parseBuffer_returns {make : Bytes → Object} {terminator : Nat} {kind : UInt8}
    (made : ∀ buffer, (make buffer).getType = kind) : Returns (fun read => read = .null ∨ read.getType = kind)
      (parseBuffer host data make terminator length dataidx) := by
  unfold parseBuffer
  split
  · exact returns_pure (.inl rfl)
  refine returns_bind fun granted => ?_
  split
  · exact returns_pure (.inl rfl)
  · exact returns_bind fun buffer => returns_pure (.inr (made buffer))

theorem parseArray_returns : Returns (fun read => read = .null ∨ read.getType = PLIST_TYPE_ARRAY)
    (parseArray host data reflen parse length dataidx) := by
  unfold parseArray
  refine returns_bind fun guarded => ?_
  split
  · exact returns_pure (.inl rfl)
  refine returns_bind fun granted => ?_
  split
  · exact returns_pure (.inl rfl)
  refine returns_bind fun result => returns_pure ?_
  split
  · exact .inl rfl
  · exact .inr rfl

theorem parseDict_returns : Returns (fun read => read = .null ∨ read.getType = PLIST_TYPE_DICT)
    (parseDict host data reflen parse length dataidx) := by
  unfold parseDict
  refine returns_bind fun guarded => ?_
  split
  · exact returns_pure (.inl rfl)
  refine returns_bind fun granted => ?_
  split
  · exact returns_pure (.inl rfl)
  refine returns_bind fun granted => ?_
  split
  · exact returns_pure (.inl rfl)
  refine returns_bind fun keys => returns_bind fun values => returns_pure ?_
  split
  · exact .inl rfl
  · exact .inr rfl

/-- An object has the type that its marker names. -/
theorem parsePayload_returns : Returns (fun read => read = .null ∨ read.getType = type &&& 0xf0)
    (parsePayload host data reflen parse type length dataidx) := by
  unfold parsePayload
  dsimp only
  split
  next kind => exact returns_pure (.inr kind.symm)
  split
  next kind => exact kind ▸ parseIntegerObject_returns
  split
  next kind => exact kind ▸ parseRealObject_returns
  split
  next kind => exact kind ▸ parseBuffer_returns fun _ => rfl
  split
  next kind => exact kind ▸ parseBuffer_returns fun _ => rfl
  split
  next kind => exact kind ▸ parseBuffer_returns fun _ => rfl
  split
  next kind => exact kind ▸ parseBuffer_returns fun _ => rfl
  split
  next kind => exact kind ▸ parseArray_returns
  split
  next kind => exact kind ▸ parseDict_returns
  · exact returns_pure (.inl rfl)

/-- What is not null has been read from a marker and a payload. -/
theorem parseObject_present {fuel id : Nat} {offset : BitVec 64} (entry : reftab[id]? = some offset)
    (ends : MayEnd (parseObject host data reftab reflen fuel id) read) (present : read.isNull = false) :
    ∃ smaller type length payload, markerAt data offset.toNat = some (type, length, payload) ∧
      read.getType = type &&& 0xf0 ∧
      MayEnd (parsePayload host data reflen (parseObject host data reftab reflen smaller) type length payload) read := by
  cases fuel with
  | zero =>
    obtain ⟨_, done⟩ := ends
    cases done
  | succ fuel =>
    obtain ⟨inside, -⟩ := List.getElem?_eq_some_iff.mp entry
    unfold parseObject at ends
    rw [if_neg (Nat.not_le.mpr inside)] at ends
    have parsed := (ends.yields_bind (yields_emit _)).yields_bind (parseMarker_yields data _)
    rw [List.getD_eq_getElem?_getD, entry, Option.getD_some] at parsed
    cases marked : markerAt data offset.toNat with
    | none =>
      rw [marked] at parsed
      obtain rfl := parsed.eq_of_pure
      cases present
    | some marker =>
      obtain ⟨type, length, payload⟩ := marker
      rw [marked] at parsed
      obtain ⟨granted, -, parsed⟩ := parsed.bind
      split at parsed
      · obtain rfl := parsed.eq_of_pure
        cases present
      obtain ⟨state, done⟩ := parsed.yields_bind (yields_emit _)
      refine ⟨fuel, type, length, payload, rfl, ?_, state, done⟩
      apply (parsePayload_returns state read done).resolve_left
      rintro rfl
      cases present

/-- A loop that has taken a value for each reference has followed all of them. -/
theorem parseReferences_taken {Value : Type} (width : reflen = 1 ∨ reflen = 2 ∨ reflen = 4 ∨ reflen = 8)
    {follow : BitVec 64 → Bool} {accept : Object → Option Value} {refs : List Nat} (fits : ∀ ref ∈ refs, ref < 256 ^ reflen)
    {values : List Value} {last : Nat} (found : At data dataidx (refs.flatMap (beBytes reflen)))
    (ends : MayEnd (parseReferences data reflen parse follow accept refs.length dataidx) (values, last))
    (whole : values.length = refs.length) :
    last = dataidx + (refs.flatMap (beBytes reflen)).length ∧
      List.Forall₂ (fun ref value => ∃ object, MayEnd (parse ref) object ∧ accept object = some value) refs values := by
  induction refs generalizing dataidx values with
  | nil =>
    obtain ⟨rfl, rfl⟩ := Prod.mk.inj ends.eq_of_pure
    exact ⟨rfl, .nil⟩
  | cons ref refs ih =>
    have lacking : ∀ stop, (values, last) ≠ (([] : List Value), stop) := by
      intro stop same
      rw [(Prod.mk.inj same).1] at whole
      cases whole
    obtain ⟨fit, fits⟩ := List.forall_mem_cons.mp fits
    rw [List.flatMap_cons] at found
    have here := found.left
    have inside := here.inside
    have slice := here.slice
    have there := found.right
    rw [length_beBytes] at inside slice there
    have bound : ref < 2 ^ 64 := fit.trans_le (by
      rw [show 2 ^ 64 = 256 ^ 8 from rfl]
      exact Nat.pow_le_pow_right (by decide) (by omega))
    rw [List.length_cons] at ends
    unfold parseReferences at ends
    rw [if_neg (Nat.not_lt.mpr inside)] at ends
    have ends := ends.yields_bind (parseInteger_yields width inside)
    rw [slice, beValue_beBytes, Nat.mod_eq_of_lt fit] at ends
    dsimp only at ends
    split at ends
    · exact absurd ends.eq_of_pure (lacking _)
    obtain ⟨object, read, ends⟩ := ends.bind
    rw [BitVec.toNat_ofNat, Nat.mod_eq_of_lt bound] at read
    cases accepted : accept object with
    | none =>
      rw [accepted] at ends
      exact absurd ends.eq_of_pure (lacking _)
    | some value =>
      rw [accepted] at ends
      obtain ⟨⟨rest, stop⟩, loop, ends⟩ := ends.bind
      obtain ⟨rfl, rfl⟩ := Prod.mk.inj ends.eq_of_pure
      obtain ⟨rfl, later⟩ := ih fits there loop (Nat.succ.inj whole)
      refine ⟨?_, .cons ⟨object, read, accepted⟩ later⟩
      rw [List.flatMap_cons, List.length_append, length_beBytes, Nat.add_assoc]

theorem acceptValue_some {object value : Object} (accepted : acceptValue object = some value) :
    value = object ∧ value.isNull = false := by
  have present := acceptValue_isSome.mp (Option.isSome_of_eq_some accepted)
  rw [acceptValue_eq present] at accepted
  obtain rfl := Option.some.inj accepted
  exact ⟨rfl, present⟩

theorem values_taken {refs : List Nat} {values : List Object}
    (taken : List.Forall₂ (fun ref value => ∃ object, MayEnd (parse ref) object ∧ acceptValue object = some value) refs values) :
    List.Forall₂ (fun ref value => MayEnd (parse ref) value ∧ value.isNull = false) refs values := by
  refine taken.imp ?_
  rintro ref value ⟨object, read, accepted⟩
  obtain ⟨rfl, present⟩ := acceptValue_some accepted
  exact ⟨read, present⟩

/-- The values of an array come from its references. -/
theorem parseArray_taken (width : reflen = 1 ∨ reflen = 2 ∨ reflen = 4 ∨ reflen = 8) {refs : List Nat}
    (fits : ∀ ref ∈ refs, ref < 256 ^ reflen) (found : At data dataidx (refs.flatMap (beBytes reflen)))
    (ends : MayEnd (parseArray host data reflen parse refs.length dataidx) read) (present : read.isNull = false) :
    ∃ values, read = .array values ∧
      List.Forall₂ (fun ref value => MayEnd (parse ref) value ∧ value.isNull = false) refs values := by
  have refused : read ≠ .null := by
    rintro rfl
    cases present
  unfold parseArray at ends
  obtain ⟨guarded, -, ends⟩ := ends.bind
  split at ends
  · exact absurd ends.eq_of_pure refused
  obtain ⟨granted, -, ends⟩ := ends.bind
  split at ends
  · exact absurd ends.eq_of_pure refused
  obtain ⟨⟨values, last⟩, loop, ends⟩ := ends.bind
  have made := ends.eq_of_pure
  by_cases whole : values.length = refs.length
  · refine ⟨values, made.trans (if_neg (not_not_intro whole)), ?_⟩
    exact values_taken (parseReferences_taken width fits found loop whole).2
  · exact absurd (made.trans (if_pos whole)) refused

theorem parseDict_taken (width : reflen = 1 ∨ reflen = 2 ∨ reflen = 4 ∨ reflen = 8) {keyRefs valueRefs : List Nat}
    (paired : keyRefs.length = valueRefs.length) (keyFits : ∀ ref ∈ keyRefs, ref < 256 ^ reflen)
    (fits : ∀ ref ∈ valueRefs, ref < 256 ^ reflen)
    (found : At data dataidx (keyRefs.flatMap (beBytes reflen) ++ valueRefs.flatMap (beBytes reflen)))
    (ends : MayEnd (parseDict host data reflen parse valueRefs.length dataidx) read) (present : read.isNull = false) :
    ∃ (keys : List CString) (values : List Object), read = .dict (keys.zip values) ∧ keys.length = values.length ∧
      List.Forall₂ (fun ref key => ∃ object, MayEnd (parse ref) object ∧ object.stringGetValue = some key) keyRefs keys ∧
      List.Forall₂ (fun ref value => MayEnd (parse ref) value ∧ value.isNull = false) valueRefs values := by
  have refused : read ≠ .null := by
    rintro rfl
    cases present
  unfold parseDict at ends
  obtain ⟨guarded, -, ends⟩ := ends.bind
  split at ends
  · exact absurd ends.eq_of_pure refused
  obtain ⟨granted, -, ends⟩ := ends.bind
  split at ends
  · exact absurd ends.eq_of_pure refused
  obtain ⟨granted, -, ends⟩ := ends.bind
  split at ends
  · exact absurd ends.eq_of_pure refused
  obtain ⟨⟨keys, middle⟩, keyLoop, ends⟩ := ends.bind
  obtain ⟨⟨values, last⟩, loop, ends⟩ := ends.bind
  have made := ends.eq_of_pure
  by_cases partly : keys.length ≠ valueRefs.length ∨ values.length ≠ valueRefs.length
  · exact absurd (made.trans (if_pos partly)) refused
  obtain ⟨allKeys, allValues⟩ := not_or.mp partly
  have allKeys := not_not.mp allKeys
  have allValues := not_not.mp allValues
  rw [← paired] at keyLoop
  obtain ⟨rfl, texts⟩ := parseReferences_taken width keyFits found.left keyLoop (allKeys.trans paired.symm)
  refine ⟨keys, values, made.trans (if_neg partly), allKeys.trans allValues.symm, texts, ?_⟩
  exact values_taken (parseReferences_taken width fits found.right loop allValues).2

end Payloads

section Positions
variable {data : Bytes} {reftab : List (BitVec 64)} {reflen position : Nat}

/-- What follows an object: nothing that reads as a date or a UTF-16 string, and a length only where one is announced. -/
structure Behind (data : Bytes) (position : Nat) (next : Bool) : Prop where
  type : ∀ byte, data[position]? = some byte → byte &&& 0xf0 ≠ PLIST_TYPE_DATE ∧ byte &&& 0xf0 ≠ PLIST_TYPE_UNICODE_STRING
  length : LengthAt data position → next = true

theorem LengthAt.head (found : LengthAt data position) : ∃ byte, data[position]? = some byte ∧ byte &&& 0xf0 = PLIST_TYPE_INTEGER := by
  obtain ⟨exponent, value, known, -, -, digits⟩ := found
  exact ⟨_, digits.head, (nibbles (by decide : PLIST_TYPE_INTEGER &&& 0x0f = 0) (by omega)).2⟩

theorem behind_of_type {type : UInt8} (found : data[position]? = some type) (laid : type &&& 0xf0 ∈ LAID_TYPES)
    (other : type &&& 0xf0 ≠ PLIST_TYPE_INTEGER) (next : Bool) : Behind data position next := by
  have known : ∀ kind ∈ LAID_TYPES, kind ≠ PLIST_TYPE_DATE ∧ kind ≠ PLIST_TYPE_UNICODE_STRING := by decide +kernel
  constructor
  · intro byte here
    obtain rfl := Option.some.inj (found.symm.trans here)
    exact known _ laid
  · intro length
    obtain ⟨byte, here, kind⟩ := length.head
    obtain rfl := Option.some.inj (found.symm.trans here)
    exact absurd kind other

/-- What begins with a marker is no length. -/
theorem behind_marker {kind : UInt8} (laid : kind ∈ LAID_TYPES) (other : kind ≠ PLIST_TYPE_INTEGER) {length : Nat}
    (short : length < 2 ^ 63) {payload : Bytes} (found : At data position (markerBytes kind length ++ payload)) (next : Bool) :
    Behind data position next := by
  obtain ⟨type, rfl, marked⟩ := markerAt_marker (laid_low laid) (markerBytes_stands kind short) found
  exact behind_of_type (markerAt_type marked) laid other next

/-- A number has one form with a given marker. -/
theorem length_nonnegative {value : BitVec 64} (found : LengthAt data position)
    (digits : At data position ((PLIST_TYPE_INTEGER ||| blistIntegerLength value.toInt) ::
      beBytes (integerLength value.toInt) value.toNat)) : 0 ≤ value.toInt := by
  obtain ⟨exponent, length, known, fits, positive, stands⟩ := found
  obtain ⟨exponent', known', bound, width, blist⟩ := integerLength_word value
  rw [blist, width] at digits
  have integer : PLIST_TYPE_INTEGER &&& 0x0f = 0 := by decide
  have low := (nibbles integer (by omega : exponent < 16)).1
  have low' := (nibbles integer (by omega : exponent' < 16)).1
  have same := Option.some.inj (stands.head.symm.trans digits.head)
  rw [same, low'] at low
  have equal : exponent' = exponent := by
    have numbers := congrArg UInt8.toNat low
    rw [UInt8.toNat_ofNat', UInt8.toNat_ofNat'] at numbers
    omega
  subst equal
  have slice := stands.tail.slice
  have slice' := digits.tail.slice
  rw [length_beBytes] at slice slice'
  have numbers := congrArg beValue (slice.symm.trans slice')
  rw [beValue_beBytes, beValue_beBytes, Nat.mod_eq_of_lt fits, Nat.mod_eq_of_lt bound] at numbers
  rw [BitVec.toInt_eq_toNat_of_lt (by omega)]
  exact Int.natCast_nonneg _

/-- What a legible object begins with. -/
theorem placed_behind (positive : 0 < reflen) (small : data.length < 2 ^ 32) {object : Object} {id start : Nat} {next : Bool}
    (placed : Placed data reftab reflen object id start) (legible : object.Legible next) :
    Behind data start object.isLength := by
  cases object with
  | null => exact legible.elim
  | date => exact legible.elim
  | unicodeString => exact legible.elim
  | primitive value =>
    have head := placed.bytes.head
    rw [PLIST_TYPE_PRIMITIVE, UInt8.zero_or] at head
    have kinds : ∀ value : Fin 16, UInt8.ofNat value.val &&& 0xf0 = PLIST_TYPE_PRIMITIVE := by decide
    have low : value.toNat < 16 := by
      rcases legible with short | ⟨rfl, -⟩
      · exact (UInt8.lt_iff_toNat_lt.mp short).trans (by decide)
      · decide
    have kind := kinds ⟨value.toNat, low⟩
    rw [UInt8.ofNat_toNat] at kind
    exact behind_of_type head (by rw [kind]; decide) (by rw [kind]; decide) _
  | integer value =>
    have digits := placed.bytes
    obtain ⟨exponent, known, -, blist⟩ := integerLength_exponent value.toInt
    have high := (nibbles (by decide : PLIST_TYPE_INTEGER &&& 0x0f = 0) (by omega : exponent < 16)).2
    constructor
    · intro byte here
      obtain rfl := Option.some.inj (digits.head.symm.trans here)
      rw [blist, high]
      decide
    · intro length
      exact decide_eq_true (length_nonnegative length digits)
  | real value => exact behind_of_type placed.bytes.head (by decide) (by decide) _
  | data value =>
    have inside := placed.bytes.inside
    rw [List.length_append] at inside
    exact behind_marker (by decide) (by decide) (by omega) placed.bytes _
  | string value =>
    have inside := placed.bytes.inside
    rw [List.length_append] at inside
    exact behind_marker (by decide) (by decide) (by omega) placed.bytes _
  | array values =>
    have inside := placed.1.bytes.inside
    rw [List.length_append, length_references, length_valueIds] at inside
    have room : values.length ≤ values.length * reflen := Nat.le_mul_of_pos_right _ positive
    exact behind_marker (by decide) (by decide) (by omega) placed.1.bytes _
  | dict entries =>
    have inside := placed.1.bytes.inside
    rw [List.length_append, List.length_append, length_references, length_keyIds] at inside
    have room : entries.length ≤ entries.length * reflen := Nat.le_mul_of_pos_right _ positive
    exact behind_marker (by decide) (by decide) (by omega) placed.1.bytes _

/-- A marker without the length in it has the length behind it. -/
theorem markerAt_extended {length payload : Nat} (marked : markerAt data position = some (15, length, payload)) :
    LengthAt data (position + 1) := by
  have first := markerAt_type marked
  unfold markerAt at marked
  obtain ⟨type, here, marked⟩ := Option.bind_eq_some_iff.mp marked
  obtain rfl := Option.some.inj (first.symm.trans here)
  rw [if_neg (by decide)] at marked
  obtain ⟨lentype, second, marked⟩ := Option.bind_eq_some_iff.mp marked
  dsimp only at marked
  split at marked
  case isFalse => cases marked
  case isTrue checks =>
    obtain ⟨kind, narrow, inside, positive⟩ := checks
    have known : (lentype &&& 0x0f).toNat ≤ 3 := by
      by_contra wide
      have large : 2 ^ 4 ≤ 2 ^ (lentype &&& 0x0f).toNat := Nat.pow_le_pow_right (by decide) (by omega)
      omega
    have split : lentype = PLIST_TYPE_INTEGER ||| UInt8.ofNat (lentype &&& 0x0f).toNat := by
      rw [UInt8.ofNat_toNat, ← kind, nibbles_join]
    have digits : ((data.drop (position + 2)).take (2 ^ (lentype &&& 0x0f).toNat)).length = 2 ^ (lentype &&& 0x0f).toNat := by
      rw [List.length_take, List.length_drop]
      omega
    have fits := beValue_lt ((data.drop (position + 2)).take (2 ^ (lentype &&& 0x0f).toNat))
    have same := beBytes_beValue ((data.drop (position + 2)).take (2 ^ (lentype &&& 0x0f).toNat))
    rw [digits] at fits same
    refine ⟨_, _, known, fits, positive, ?_⟩
    rw [same, ← split]
    refine ⟨by rw [List.length_cons, digits]; omega, fun i below => ?_⟩
    cases i with
    | zero => exact second
    | succ i =>
      rw [List.length_cons, digits] at below
      rw [List.getElem_cons_succ, List.getElem_take, List.getElem_drop, ← List.getElem?_eq_getElem]
      congr 1
      omega

end Positions

theorem valueIds_below {values : List Object} {id ref : Nat} (member : ref ∈ valueIds values id) : ref < id + valuesCount values := by
  induction values generalizing id with
  | nil => cases member
  | cons value values ih =>
    have positive := value.count_pos
    rw [valuesCount]
    cases List.mem_cons.mp member with
    | inl here => omega
    | inr later =>
      have below := ih later
      omega

theorem keyIds_below {entries : List (CString × Object)} {id ref : Nat} (member : ref ∈ keyIds entries id) :
    ref + 1 < id + entriesCount entries := by
  induction entries generalizing id with
  | nil => cases member
  | cons entry entries ih =>
    have positive := entry.2.count_pos
    rw [entriesCount]
    cases List.mem_cons.mp member with
    | inl here => omega
    | inr later =>
      have below := ih later
      omega

theorem entryIds_below {entries : List (CString × Object)} {id ref : Nat} (member : ref ∈ entryIds entries id) :
    ref < id + entriesCount entries := by
  rw [entryIds_eq] at member
  obtain ⟨key, inside, rfl⟩ := List.mem_map.mp member
  exact keyIds_below inside

section Legibility
variable {host : Host} {data : Bytes} {reftab : List (BitVec 64)} {reflen : Nat}

/-- What is read where a marker and its payload have been placed. -/
theorem placed_payload {kind : UInt8} (laid : kind ∈ LAID_TYPES) {fuel id start length : Nat} {payload : Bytes} {read : Object}
    (short : length < 2 ^ 63) (stands : Stands data reftab id start (markerBytes kind length ++ payload))
    (ends : MayEnd (parseObject host data reftab reflen fuel id) read) (present : read.isNull = false) :
    ∃ smaller type, type &&& 0xf0 = kind ∧ MayEnd (parsePayload host data reflen (parseObject host data reftab reflen smaller)
      type length (start + (markerBytes kind length).length)) read := by
  obtain ⟨offset, entry, rfl⟩ := stands.entry
  obtain ⟨smaller, type, length', payload', marked, -, parsed⟩ := parseObject_present entry ends present
  obtain ⟨type', same, marked'⟩ := markerAt_marker (laid_low laid) (markerBytes_stands kind short) stands.bytes
  obtain ⟨rfl, rfl, rfl⟩ : type = type' ∧ length' = length ∧ payload' = _ := by
    have equal := Option.some.inj (marked.symm.trans marked')
    rwa [Prod.mk.injEq, Prod.mk.injEq] at equal
  exact ⟨smaller, type, same, parsed⟩

/-- The byte where an object has been placed gives the type of what is read. -/
theorem placed_type {fuel id start : Nat} {bytes : Bytes} {read : Object} (stands : Stands data reftab id start bytes)
    (ends : MayEnd (parseObject host data reftab reflen fuel id) read) (present : read.isNull = false) :
    ∃ type length payload, markerAt data start = some (type, length, payload) ∧ read.getType = type &&& 0xf0 := by
  obtain ⟨offset, entry, rfl⟩ := stands.entry
  obtain ⟨-, type, length, payload, marked, same, -⟩ := parseObject_present entry ends present
  exact ⟨type, length, payload, marked, same⟩

mutual

/-- A tree that can be read back with its types is legible. -/
theorem placed_legible (width : reflen = 1 ∨ reflen = 2 ∨ reflen = 4 ∨ reflen = 8) (small : data.length < 2 ^ 32) :
    ∀ (object : Object) (id start : Nat) (next : Bool) (fuel : Nat) (read : Object),
    Placed data reftab reflen object id start → MayEnd (parseObject host data reftab reflen fuel id) read →
    read.isNull = false → read.shape = object.shape → Behind data (start + object.span reflen) next →
    id + object.count ≤ 256 ^ reflen → object.Legible next
  | .null, _, _, _, _, read, _, _, present, same, _, _ => by
    have null := (isNull_iff read).mpr (getType_of_shape same)
    rw [present] at null
    cases null
  | .date value, _, start, _, _, _, placed, ends, present, same, behind, _ => by
    obtain ⟨type, length, payload, marked, kind⟩ := placed_type placed ends present
    rw [getType_of_shape same] at kind
    exact absurd kind.symm (behind.type type (markerAt_type marked)).1
  | .unicodeString buffer, _, start, _, _, _, placed, ends, present, same, behind, _ => by
    obtain ⟨type, length, payload, marked, kind⟩ := placed_type placed ends present
    rw [getType_of_shape same] at kind
    exact absurd kind.symm (behind.type type (markerAt_type marked)).2
  | .primitive value, _, start, next, _, _, placed, ends, present, same, behind, _ => by
    obtain ⟨type, length, payload, marked, kind⟩ := placed_type placed ends present
    rw [getType_of_shape same] at kind
    have head := placed.bytes.head
    rw [PLIST_TYPE_PRIMITIVE, UInt8.zero_or, markerAt_type marked] at head
    obtain rfl := Option.some.inj head
    have low : type.toNat < 16 := by
      have bound := UInt8.toNat_and type 0x0f
      have whole := nibbles_join type
      rw [← kind, Object.getType, PLIST_TYPE_PRIMITIVE, UInt8.zero_or] at whole
      rw [whole] at bound
      rw [bound]
      exact Nat.lt_succ_of_le Nat.and_le_right
    by_cases short : type < 15
    · exact .inl short
    · have last : type = 15 := by
        apply UInt8.toNat_inj.mp
        rw [UInt8.lt_iff_toNat_lt] at short
        change ¬ type.toNat < 15 at short
        show type.toNat = 15
        omega
      rw [last] at marked
      exact .inr ⟨last, behind.length (markerAt_extended marked)⟩
  | .integer _, _, _, _, _, _, _, _, _, _, _, _ => trivial
  | .real _, _, _, _, _, _, _, _, _, _, _, _ => trivial
  | .data _, _, _, _, _, _, _, _, _, _, _, _ => trivial
  | .string _, _, _, _, _, _, _, _, _, _, _, _ => trivial
  | .array values, id, start, next, _, _, ⟨stands, children⟩, ends, present, same, behind, counted => by
    have inside := stands.bytes.inside
    rw [List.length_append, length_references, length_valueIds] at inside
    have room : values.length ≤ values.length * reflen := Nat.le_mul_of_pos_right _ (by omega)
    obtain ⟨smaller, type, kind, parsed⟩ := placed_payload (by decide) (by omega) stands ends present
    simp only [Object.span, Object.count, ← Nat.add_assoc] at behind counted
    rw [parsePayload_array kind, ← length_valueIds values (id + 1)] at parsed
    rw [← length_valueIds values (id + 1)] at stands
    obtain ⟨reads, rfl, taken⟩ := parseArray_taken width (fun ref member => (valueIds_below member).trans_le counted)
      stands.bytes.right parsed present
    exact placedValues_legible width small values _ _ next smaller reads children taken (congrArg Shape.children same) behind counted
  | .dict entries, id, start, next, _, _, ⟨stands, children⟩, ends, present, same, behind, counted => by
    have inside := stands.bytes.inside
    rw [List.length_append, List.length_append, length_references, length_keyIds] at inside
    have room : entries.length ≤ entries.length * reflen := Nat.le_mul_of_pos_right _ (by omega)
    obtain ⟨smaller, type, kind, parsed⟩ := placed_payload (by decide) (by omega) stands ends present
    simp only [Object.span, Object.count, ← Nat.add_assoc] at behind counted
    rw [parsePayload_dict kind, ← length_entryIds entries (id + 1)] at parsed
    rw [← length_entryIds entries (id + 1)] at stands
    obtain ⟨keys, reads, rfl, paired, -, taken⟩ := parseDict_taken width
      ((length_keyIds _ _).trans (length_entryIds _ _).symm)
      (fun ref member => (Nat.lt_of_succ_lt (keyIds_below member)).trans_le counted)
      (fun ref member => (entryIds_below member).trans_le counted) stands.bytes.right parsed present
    have shapes := congrArg Shape.children same
    change entriesShape (keys.zip reads) = entriesShape entries at shapes
    rw [entriesShape_zip paired] at shapes
    exact placedEntries_legible width small entries _ _ next smaller reads children taken shapes behind counted

theorem placedValues_legible (width : reflen = 1 ∨ reflen = 2 ∨ reflen = 4 ∨ reflen = 8) (small : data.length < 2 ^ 32) :
    ∀ (values : List Object) (id start : Nat) (next : Bool) (fuel : Nat) (reads : List Object),
    PlacedValues data reftab reflen values id start →
    List.Forall₂ (fun ref read => MayEnd (parseObject host data reftab reflen fuel ref) read ∧ read.isNull = false)
      (valueIds values id) reads →
    valuesShape reads = valuesShape values → Behind data (start + valuesSpan reflen values) next →
    id + valuesCount values ≤ 256 ^ reflen → ValuesLegible values next
  | [], _, _, _, _, _, _, _, _, _, _ => trivial
  | value :: values, id, start, next, fuel, _, ⟨here, later⟩, taken, same, behind, counted => by
    obtain ⟨read, reads, ⟨ends, present⟩, takes, rfl⟩ := List.forall₂_cons_left_iff.mp taken
    obtain ⟨shape, shapes⟩ := List.cons.inj same
    simp only [valuesSpan, valuesCount, ← Nat.add_assoc] at behind counted
    -- What comes later decides what stands behind this value.
    have others := placedValues_legible width small values _ _ next fuel reads later takes shapes behind counted
    have next_ : Behind data (start + value.span reflen) (leadingLength values next) := by
      cases values with
      | nil => exact behind
      | cons second values => exact placed_behind (by omega) small later.1 others.1
    exact ⟨placed_legible width small value id start _ fuel read here ends present shape next_ (by omega), others⟩

theorem placedEntries_legible (width : reflen = 1 ∨ reflen = 2 ∨ reflen = 4 ∨ reflen = 8) (small : data.length < 2 ^ 32) :
    ∀ (entries : List (CString × Object)) (id start : Nat) (next : Bool) (fuel : Nat) (reads : List Object),
    PlacedEntries data reftab reflen entries id start →
    List.Forall₂ (fun ref read => MayEnd (parseObject host data reftab reflen fuel ref) read ∧ read.isNull = false)
      (entryIds entries id) reads →
    valuesShape reads = entriesShape entries → Behind data (start + entriesSpan reflen entries) next →
    id + entriesCount entries ≤ 256 ^ reflen → EntriesLegible entries next
  | [], _, _, _, _, _, _, _, _, _, _ => trivial
  | (key, value) :: entries, id, start, next, fuel, _, ⟨name, here, later⟩, taken, same, behind, counted => by
    obtain ⟨read, reads, ⟨ends, present⟩, takes, rfl⟩ := List.forall₂_cons_left_iff.mp taken
    obtain ⟨shape, shapes⟩ := List.cons.inj same
    simp only [entriesSpan, entriesCount, ← Nat.add_assoc] at behind counted here later
    have others := placedEntries_legible width small entries _ _ next fuel reads later takes shapes behind counted
    have next_ : Behind data (start + markerSize key.bytes.length key.bytes.length + key.bytes.length + value.span reflen)
        (entries.isEmpty && next) := by
      cases entries with
      | nil => exact behind
      | cons entry entries =>
        have stands := later.1.bytes
        have inside := stands.inside
        rw [List.length_append] at inside
        exact behind_marker (by decide) (by decide) (by omega) stands _
    exact ⟨placed_legible width small value (id + 1) _ _ fuel read here ends present shape next_ (by omega), others⟩

end

end Legibility

section Document
variable {host : Host} {object : Object} {data : Bytes} {offsets : List Nat}

/-- What is decoded has been read from a table. -/
theorem fromBplist_taken {offlen reflen objects root reftaboffset : Nat}
    (trailer : trailerOf data = ⟨offlen, reflen, objects, root, reftaboffset⟩) {fuel : Nat} {result : Object}
    (ends : MayEnd (fromBplist host data fuel) result) (present : result.isNull = false) :
    ∃ table, MayEnd (parseTable data reftaboffset offlen objects objects 0) table ∧
      MayEnd (parseObject host data table reflen fuel root) result := by
  have refused : result ≠ .null := by
    rintro rfl
    cases present
  unfold fromBplist at ends
  split at ends
  · exact absurd ends.eq_of_pure refused
  rename_i long
  have ends := ends.yields_bind (parseTrailer_yields (Nat.not_lt.mp long))
  rw [trailer] at ends
  dsimp only at ends
  split at ends
  · exact absurd ends.eq_of_pure refused
  split at ends
  · exact absurd ends.eq_of_pure refused
  split at ends
  · exact absurd ends.eq_of_pure refused
  obtain ⟨tableSize, -, ends⟩ := ends.bind
  obtain ⟨tableEnd, -, ends⟩ := ends.bind
  split at ends
  · exact absurd ends.eq_of_pure refused
  obtain ⟨granted, -, ends⟩ := ends.bind
  split at ends
  · exact absurd ends.eq_of_pure refused
  simp only [Int.toNat_natCast] at ends
  exact ends.bind

/-- What is decoded from a document with the table at the place that its trailer names is read from the table. -/
theorem fromBplist_present {offlen reflen root reftaboffset : Nat}
    (trailer : trailerOf data = ⟨offlen, reflen, offsets.length, root, reftaboffset⟩) (few : offsets.length < 2 ^ 31)
    (width : offlen = 1 ∨ offlen = 2 ∨ offlen = 4 ∨ offlen = 8) (placed : ∀ offset ∈ offsets, offset < 256 ^ offlen)
    (table : At data reftaboffset (offsets.flatMap (beBytes offlen))) {fuel : Nat} {result : Object}
    (ends : MayEnd (fromBplist host data fuel) result) (present : result.isNull = false) :
    MayEnd (parseObject host data (offsets.map (BitVec.ofNat 64)) reflen fuel root) result := by
  have read := parseTable_found width few placed (Nat.zero_add _) (by rw [Nat.zero_mul, Nat.add_zero]; exact table)
  obtain ⟨entries, ⟨_, loop⟩, ends⟩ := fromBplist_taken trailer ends present
  obtain rfl := read.value_eq loop
  exact ends

theorem Placed.entry {reftab : List (BitVec 64)} {reflen id start : Nat} (placed : Placed data reftab reflen object id start) :
    ∃ offset, reftab[id]? = some offset ∧ offset.toNat = start := by
  cases object with
  | array => exact placed.1.entry
  | dict => exact placed.1.entry
  | _ => exact Stands.entry placed

/-- The table behind the tree begins with the offset of its root, which is no length and no object that is left out. -/
theorem encoded_behind (encoded : Encoded object data offsets) (small : data.length < 2 ^ 32) :
    Behind data (8 + object.span (plan object).reflen) false := by
  obtain ⟨-, -, offlen, -⟩ := plan_sizes object
  have width := integerLength_width (8 + object.span (plan object).reflen + object.slack : Nat)
  rw [← offlen] at width
  obtain ⟨offset, entry, first⟩ := (encoded_placed encoded (by omega)).entry
  have length := encoded.length
  have table := encoded.table
  cases offsets with
  | nil => cases entry
  | cons root offsets =>
    have bounded := encoded.bounded root List.mem_cons_self
    obtain rfl : BitVec.ofNat 64 root = offset := Option.some.inj entry
    rw [BitVec.toNat_ofNat, Nat.mod_eq_of_lt (by omega)] at first
    subst first
    rw [List.flatMap_cons] at table
    have digits := table.left
    rcases width with width | width | width | width
    all_goals
      rw [width] at digits
      exact behind_of_type digits.head (by decide) (by decide) false

/-- A tree comes back with its types exactly where all of it can be read where the encoder puts it. -/
theorem reencoding_iff (generous : ∀ allocations size, host.alloc allocations size = true) (present : object.isNull = false)
    (measured : object.Everywhere DictMeasured) (small : (plan object).buflen < 2 ^ 32) :
    (∃ data, toBplist host object = .ok data ∧ ∃ fuel result, ((fromBplist host data fuel).run 0).value = .ok result ∧
      result.shape = object.shape) ↔ object.Legible false := by
  obtain ⟨-, reflen, offlen, size⟩ := plan_sizes object
  have positive : 0 < (plan object).reflen := reflen ▸ integerLength_pos _
  have few := count_le_span object positive
  have wide : object.count ≤ object.count * (plan object).offlen := Nat.le_mul_of_pos_right _ (offlen ▸ integerLength_pos _)
  have tight : object.slack = 0 := (slack_eq_zero_iff object (by omega)).mpr measured
  constructor
  · intro ⟨data, encoding, fuel, result, done, same⟩
    obtain ⟨offsets, encoded⟩ := toBplist_encoded encoding
    have length := encoded.length
    have short : data.length < 2 ^ 32 := by omega
    obtain ⟨offWidth, refWidth, placed, references, few⟩ := encoded_numbered encoded short
    have counted := encoded.counted
    have trailer := trailerOf_encoded encoded short tight
    rw [← counted] at trailer
    have there : result.isNull = false := by
      rw [Bool.eq_false_iff, Ne, isNull_iff, getType_of_shape same, ← isNull_iff, present]
      exact Bool.false_ne_true
    have ends := fromBplist_present trailer (by omega) offWidth placed encoded.table ⟨0, done⟩ there
    exact placed_legible refWidth short object 0 8 false fuel result (encoded_placed encoded (by omega)) ends there same
      (encoded_behind encoded short) (by omega)
  · intro legible
    have encoding := toBplist_generous generous present
    obtain ⟨offsets, encoded⟩ := toBplist_encoded encoding
    have length := encoded.length
    have ends := decode_encoded generous encoded legible (by omega) tight object.reversed.depth 0
    rw [if_pos le_rfl] at ends
    exact ⟨_, encoding, _, object.reversed, ends, shape_reversed object⟩

end Document

/-- A container of fewer than 128 entries. -/
def Narrow : Object → Prop
  | .array values => values.length < 128
  | .dict entries => entries.length < 128
  | _ => True

theorem Narrow.measured {object : Object} (narrow : Narrow object) : DictMeasured object := by
  cases object with
  | dict entries =>
    have few : entries.length < 128 := narrow
    exact ⟨by omega, by omega⟩
  | _ => trivial

mutual

theorem everywhere_imp {property other : Object → Prop} (implies : ∀ {object}, property object → other object) :
    ∀ object : Object, object.Everywhere property → object.Everywhere other
  | .array values, holds => ⟨implies holds.1, valuesEverywhere_imp implies values holds.2⟩
  | .dict entries, holds => ⟨implies holds.1, entriesEverywhere_imp implies entries holds.2⟩
  | .null, holds => implies holds
  | .primitive _, holds => implies holds
  | .integer _, holds => implies holds
  | .real _, holds => implies holds
  | .date _, holds => implies holds
  | .data _, holds => implies holds
  | .string _, holds => implies holds
  | .unicodeString _, holds => implies holds

theorem valuesEverywhere_imp {property other : Object → Prop} (implies : ∀ {object}, property object → other object) :
    ∀ values : List Object, ValuesEverywhere property values → ValuesEverywhere other values
  | [], _ => trivial
  | value :: values, holds => ⟨everywhere_imp implies value holds.1, valuesEverywhere_imp implies values holds.2⟩

theorem entriesEverywhere_imp {property other : Object → Prop} (implies : ∀ {object}, property object → other object) :
    ∀ entries : List (CString × Object), EntriesEverywhere property entries → EntriesEverywhere other entries
  | [], _ => trivial
  | (_, value) :: entries, holds => ⟨everywhere_imp implies value holds.1, entriesEverywhere_imp implies entries holds.2⟩

end

/-- The tree can be encoded, and decoding the document gives a tree of the same types. -/
def Reencodes (host : Host) (object : Object) : Prop :=
  ∃ data, toBplist host object = .ok data ∧ data.length < 2 ^ 32 ∧
    ∃ fuel result, ((fromBplist host data fuel).run 0).value = .ok result ∧ result.shape = object.shape

/-- What the decoder returns comes back with its types exactly if the document is short enough to be decoded, holds
no date and no UTF-16 string, and has a length behind every primitive 15. -/
theorem decoded_reencodes_iff (host : Host) (generous : host.Generous) (bytes : Bytes) (fuel allocations : Nat) (object : Object) :
    ((fromBplist host bytes fuel).run allocations).value = .ok object → object.isNull = false →
      object.Everywhere Narrow → (Reencodes host object ↔ object.Legible false ∧ (plan object).buflen < 2 ^ 32) := by
  intro _ present narrow
  have measured := everywhere_imp Narrow.measured object narrow
  have size : ∀ data, toBplist host object = .ok data → data.length = (plan object).buflen := by
    intro data encoding
    rw [toBplist_ok encoding, buffer, List.length_map, List.length_range]
  constructor
  · rintro ⟨data, encoding, short, fuel, result, done, same⟩
    rw [size data encoding] at short
    exact ⟨(reencoding_iff generous present measured short).mp ⟨data, encoding, fuel, result, done, same⟩, short⟩
  · rintro ⟨legible, short⟩
    obtain ⟨data, encoding, fuel, result, done, same⟩ := (reencoding_iff generous present measured short).mpr legible
    exact ⟨data, encoding, by rwa [size data encoding], fuel, result, done, same⟩

theorem nestedDocument_reencodes :
    Reencodes generousHost (.dict [(⟨ascii "a", by decide⟩, .array [.integer 7, .integer 7])]) :=
  have decoded : ((fromBplist generousHost nestedDocument 3).run 0).value =
    .ok (.dict [(⟨ascii "a", by decide⟩, .array [.integer 7, .integer 7])]) := rfl
  (decoded_reencodes_iff generousHost (fun _ _ => rfl) _ 3 0 _ decoded rfl
    ⟨(by decide : 1 < 128), ⟨(by decide : 2 < 128), trivial, trivial, trivial⟩, trivial⟩).mpr
    ⟨⟨⟨trivial, trivial, trivial⟩, trivial⟩, by decide +kernel⟩

/-- A date is decoded, but not written. -/
theorem date_not_reencoded :
    ¬ ∀ (host : Host), host.Generous → ∀ (bytes : Bytes) (fuel allocations : Nat) (object : Object), bytes.length < 2 ^ 32 →
      ((fromBplist host bytes fuel).run allocations).value = .ok object → object.isNull = false →
        object.Everywhere Narrow → Reencodes host object := by
  intro all
  have decoded : ((fromBplist generousHost (singleObject (0x33 :: beBytes 8 1)) 1).run 0).value =
      .ok (.date (beBytes 8 1)) := rfl
  obtain ⟨data, encoding, -, fuel, result, done, same⟩ :=
    all generousHost (fun _ _ => rfl) _ 1 0 _ (by decide +kernel) decoded rfl trivial
  exact (@reencoding_iff generousHost (.date (beBytes 8 1)) (fun _ _ => rfl) rfl trivial (by decide +kernel)).mp
    ⟨data, encoding, fuel, result, done, same⟩

end Apsdk.Plist
