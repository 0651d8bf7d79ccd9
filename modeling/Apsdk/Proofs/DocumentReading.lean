import Apsdk.Proofs.DocumentStructure

/-! What the decoder makes of an object, once it ends: an object that is not valid becomes null,
and a valid one does not, unless an allocation fails. -/

namespace Apsdk.Plist
open Library Traced

/-- No allocation fails. -/
def Host.Generous (host : Host) : Prop := ∀ allocations size, host.alloc allocations size = true

section Leaves
variable {host : Host} {data : Bytes} {length dataidx state after : Nat} {object : Object}

theorem pow_le_three {exponent : Nat} (known : 2 ^ exponent % 256 = 1 ∨ 2 ^ exponent % 256 = 2 ∨ 2 ^ exponent % 256 = 4 ∨
    2 ^ exponent % 256 = 8) : exponent ≤ 3 := by
  by_contra wide
  have large : 8 < 2 ^ exponent := (Nat.pow_lt_pow_iff_right Nat.one_lt_two (a := 2) (n := 3)).mpr (by omega)
  exact width_unknown large known

theorem parseIntegerObject_narrow (small : length < 32) :
    Yields (parseIntegerObject data length dataidx) (if length ≤ 3 ∧ dataidx + 2 ^ length ≤ data.length then
      .integer (BitVec.ofNat 64 (beValue ((data.drop dataidx).take (2 ^ length)))) else .null) := by
  unfold parseIntegerObject
  refine (yields_checked (by omega)).bind ?_
  by_cases there : dataidx + 2 ^ length ≤ data.length
  · rw [if_neg (by omega)]
    have low : 2 ^ length % 256 ≤ 2 ^ length := Nat.mod_le ..
    refine (yields_checked small).bind ?_
    refine (parseInteger_reads (by omega)).bind ?_
    by_cases short : length ≤ 3
    · have width : 2 ^ length % 256 = 2 ^ length := by
        interval_cases length <;> rfl
      have known : 2 ^ length = 1 ∨ 2 ^ length = 2 ∨ 2 ^ length = 4 ∨ 2 ^ length = 8 :=
        width_known (show 2 ^ length ≤ 2 ^ 3 from Nat.pow_le_pow_right (by decide) short)
      rw [width, if_pos known, if_pos ⟨short, there⟩]
      exact yields_pure _
    · rw [if_neg fun known => short (pow_le_three known), if_neg fun both => short both.1]
      exact yields_pure _
  · rw [if_pos (by omega), if_neg fun both => there both.2]
    exact yields_pure _

/-- An integer has a width of at most eight bytes and is inside of the data. -/
theorem parseIntegerObject_yields (inside : data.length < 2 ^ 32) (small : length < 64) :
    Yields (parseIntegerObject data length dataidx) (if length ≤ 3 ∧ dataidx + 2 ^ length ≤ data.length then
      .integer (BitVec.ofNat 64 (beValue ((data.drop dataidx).take (2 ^ length)))) else .null) := by
  by_cases narrow : length < 32
  · exact parseIntegerObject_narrow narrow
  · have wide : 2 ^ 32 ≤ 2 ^ length := Nat.pow_le_pow_right (by decide) (by omega)
    unfold parseIntegerObject
    refine (yields_checked small).bind ?_
    rw [if_pos (by omega), if_neg (by omega)]
    exact yields_pure _

theorem parseIntegerObject_bounds (ends : Outcome (parseIntegerObject data length dataidx) state object after) :
    length < 64 := by
  unfold parseIntegerObject at ends
  exact (outcome_checked_bind_iff.mp ends).1

theorem parseReal_yields (width : Nat) (readable : width = 4 ∧ dataidx + 4 ≤ data.length ∨ dataidx + 8 ≤ data.length) :
    ∃ value, Yields (parseReal host data dataidx width) ((BitVec.ofNat 32 width).toInt, value) := by
  unfold parseReal
  by_cases float : width = 4
  · rw [if_pos float]
    exact ⟨_, (yields_checked (by omega)).bind (yields_pure _)⟩
  · rw [if_neg float]
    exact ⟨_, (yields_checked (by omega)).bind (yields_pure _)⟩

/-- The length of a real comes back as an `int`, which is negative for one of them. -/
theorem pow_negative_iff {exponent : Nat} (small : 2 ^ exponent < 2 ^ 32) :
    (BitVec.ofNat 32 (2 ^ exponent)).toInt < 0 ↔ exponent = 31 := by
  have below : exponent < 32 := (Nat.pow_lt_pow_iff_right Nat.one_lt_two).mp small
  rw [BitVec.toInt_neg_iff, BitVec.toNat_ofNat, Nat.mod_eq_of_lt small]
  constructor
  · intro high
    by_contra other
    have low : 2 ^ exponent ≤ 2 ^ 30 := Nat.pow_le_pow_right (by decide) (by omega)
    omega
  · rintro rfl
    decide

theorem parseRealObject_yields (inside : data.length < 2 ^ 32) (small : length < 64)
    (bounds : dataidx + 2 ^ length ≤ data.length → length = 2 ∨ dataidx + 8 ≤ data.length) :
    ∃ value, Yields (parseRealObject host data length dataidx)
      (if length ≠ 31 ∧ dataidx + 2 ^ length ≤ data.length then .real value else .null) := by
  unfold parseRealObject
  by_cases there : dataidx + 2 ^ length ≤ data.length
  · have readable : 2 ^ length = 4 ∧ dataidx + 4 ≤ data.length ∨ dataidx + 8 ≤ data.length := by
      rcases bounds there with rfl | double
      · exact .inl ⟨rfl, there⟩
      · exact .inr double
    obtain ⟨value, yields⟩ : ∃ value, Yields (parseReal host data dataidx (2 ^ length))
        ((BitVec.ofNat 32 (2 ^ length)).toInt, value) := parseReal_yields _ readable
    refine ⟨value, (yields_checked small).bind ?_⟩
    rw [if_neg (by omega)]
    refine (yields_checked small).bind (yields.bind ?_)
    have negative : (BitVec.ofNat 32 (2 ^ length)).toInt < 0 ↔ length = 31 := pow_negative_iff (by omega)
    dsimp only
    by_cases last : length = 31
    · rw [if_pos (negative.mpr last), if_neg fun both => both.1 last]
      exact yields_pure _
    · rw [if_neg fun sign => last (negative.mp sign), if_pos ⟨last, there⟩]
      exact yields_pure _
  · refine ⟨0, (yields_checked small).bind ?_⟩
    rw [if_pos (by omega), if_neg fun both => there both.2]
    exact yields_pure _

theorem parseRealObject_bounds (ends : Outcome (parseRealObject host data length dataidx) state object after) :
    length < 64 ∧ (dataidx + 2 ^ length ≤ data.length → length = 2 ∨ dataidx + 8 ≤ data.length) := by
  unfold parseRealObject at ends
  obtain ⟨small, rest⟩ := outcome_checked_bind_iff.mp ends
  refine ⟨small, fun there => ?_⟩
  rw [if_neg (by omega)] at rest
  obtain ⟨-, real⟩ := outcome_checked_bind_iff.mp rest
  obtain ⟨result, between, parsed, -⟩ := outcome_bind_iff.mp real
  unfold parseReal at parsed
  by_cases float : 2 ^ length = 4
  · exact .inl (Nat.pow_right_injective le_rfl float)
  · rw [if_neg float] at parsed
    exact .inr (outcome_checked_bind_iff.mp parsed).1

theorem calloc_outcome_iff {count size : Nat} {granted : Bool} :
    Outcome (calloc host count size) state granted after ↔
      granted = (decide (count * size < 2 ^ 64) && host.alloc state (count * size)) ∧ after = state + 1 :=
  ⟨fun ends => ⟨(Except.ok.inj ends.1).symm, ends.2.symm⟩, fun same => ⟨congrArg Except.ok same.1.symm, same.2.symm⟩⟩

/-- An object that is copied. -/
theorem parseBuffer_outcome_iff (make : Bytes → Object) (terminator : Nat) :
    Outcome (parseBuffer host data make terminator length dataidx) state object after ↔
      if dataidx + length ≤ data.length then
        after = state + 1 ∧ object = if length + terminator < 2 ^ 64 ∧ host.alloc state (length + terminator) = true then
          make ((data.drop dataidx).take length) else .null
      else object = .null ∧ after = state := by
  unfold parseBuffer
  by_cases there : dataidx + length ≤ data.length
  · rw [if_neg (by omega), if_pos there, outcome_bind_iff, malloc]
    simp only [calloc_outcome_iff, Nat.one_mul]
    constructor
    · rintro ⟨granted, between, ⟨rfl, rfl⟩, rest⟩
      by_cases allocated : length + terminator < 2 ^ 64 ∧ host.alloc state (length + terminator) = true
      · rw [if_neg (by simpa using allocated)] at rest
        obtain ⟨rfl, rfl⟩ := outcome_pure_iff.mp (outcome_checked_bind_iff.mp rest).2
        exact ⟨rfl, (if_pos allocated).symm⟩
      · rw [if_pos (by simpa using allocated)] at rest
        obtain ⟨rfl, rfl⟩ := outcome_pure_iff.mp rest
        exact ⟨rfl, (if_neg allocated).symm⟩
    · rintro ⟨rfl, rfl⟩
      refine ⟨_, _, ⟨rfl, rfl⟩, ?_⟩
      by_cases allocated : length + terminator < 2 ^ 64 ∧ host.alloc state (length + terminator) = true
      · rw [if_neg (by simpa using allocated), if_pos allocated]
        exact outcome_checked_bind_iff.mpr ⟨there, outcome_pure_iff.mpr ⟨rfl, rfl⟩⟩
      · rw [if_pos (by simpa using allocated), if_neg allocated]
        exact outcome_pure_iff.mpr ⟨rfl, rfl⟩
  · rw [if_pos (by omega), if_neg there]
    exact outcome_pure_iff

/-- What comes of an object without references. -/
structure ReadsLeaf (host : Host) (doc : Document) (type : UInt8) (length payload : Nat) (object : Object) : Prop where
  safe : PayloadSafe doc.data doc.reflen false type length payload
  sound : object.isNull = false → doc.Leaf type length payload
  complete : host.Generous → doc.Leaf type length payload → object.isNull = false
  string : object.stringGetValue.isSome = true ↔ object.isNull = false ∧ type &&& 0xf0 = PLIST_TYPE_STRING

theorem parseBuffer_reads {make : Bytes → Object} {terminator : Nat} (object_ : ∀ buffer, (make buffer).isNull = false)
    (inside : data.length < 2 ^ 32) (few : terminator ≤ 1)
    (ends : Outcome (parseBuffer host data make terminator length dataidx) state object after) :
    (object.isNull = false → dataidx + length ≤ data.length ∧ ∃ buffer, object = make buffer) ∧
      (host.Generous → dataidx + length ≤ data.length → object.isNull = false) := by
  rw [parseBuffer_outcome_iff] at ends
  split at ends
  next there =>
    obtain ⟨-, rfl⟩ := ends
    constructor
    · intro present
      split at present
      · exact ⟨there, _, if_pos ‹_›⟩
      · cases present
    · intro generous _
      have allocated : length + terminator < 2 ^ 64 ∧ host.alloc state (length + terminator) = true :=
        ⟨by omega, generous _ _⟩
      rw [if_pos allocated]
      exact object_ _
  next beyond =>
    obtain ⟨rfl, -⟩ := ends
    exact ⟨fun present => (nomatch present), fun _ there => absurd there beyond⟩

variable {doc : Document} {parse : Nat → Decoding Object} {type : UInt8} {payload : Nat}

theorem Document.leaf_iff (doc : Document) {kind : UInt8} (same : type &&& 0xf0 = kind) :
    doc.Leaf type length payload ↔
      if kind = PLIST_TYPE_PRIMITIVE then True
      else if kind = PLIST_TYPE_INTEGER then length ≤ 3 ∧ payload + 2 ^ length ≤ doc.data.length
      else if kind = PLIST_TYPE_REAL then length ≠ 31 ∧ payload + 2 ^ length ≤ doc.data.length
      else if kind = PLIST_TYPE_DATE then payload + 8 ≤ doc.data.length
      else (kind = PLIST_TYPE_DATA ∨ kind = PLIST_TYPE_STRING ∨ kind = PLIST_TYPE_UNICODE_STRING) ∧
        payload + length ≤ doc.data.length := by
  rw [← same]
  rfl

/-- A number, or null where it is not all there. -/
theorem ReadsLeaf.of_value {condition : Prop} [Decidable condition] {value : Object}
    (safe : PayloadSafe doc.data doc.reflen false type length payload) (leaf : doc.Leaf type length payload ↔ condition)
    (same : object = if condition then value else .null) (present : value.isNull = false)
    (number : value.stringGetValue = none) (kind : type &&& 0xf0 ≠ PLIST_TYPE_STRING) :
    ReadsLeaf host doc type length payload object := by
  by_cases holds : condition
  · obtain rfl : object = value := same.trans (if_pos holds)
    refine ⟨safe, fun _ => leaf.mpr holds, fun _ _ => present, ?_⟩
    simp [number, kind]
  · obtain rfl : object = .null := same.trans (if_neg holds)
    refine ⟨safe, fun here => (nomatch here), fun _ whole => absurd (leaf.mp whole) holds, ?_⟩
    simp [Object.stringGetValue, kind]

theorem ReadsLeaf.of_buffer {make : Bytes → Object} {terminator count : Nat} (inside : doc.data.length < 2 ^ 32)
    (few : terminator ≤ 1) (leaf : doc.Leaf type length payload ↔ payload + count ≤ doc.data.length)
    (safe : PayloadSafe doc.data doc.reflen false type length payload)
    (ends : Outcome (parseBuffer host doc.data make terminator count payload) state object after)
    (present : ∀ buffer, (make buffer).isNull = false)
    (string : ∀ buffer, (make buffer).stringGetValue.isSome = true ↔ type &&& 0xf0 = PLIST_TYPE_STRING) :
    ReadsLeaf host doc type length payload object := by
  obtain ⟨sound, complete⟩ := parseBuffer_reads present inside few ends
  refine ⟨safe, fun here => leaf.mpr (sound here).1, fun generous whole => complete generous (leaf.mp whole), ?_⟩
  cases null : object.isNull with
  | true =>
    cases object with
    | null => simp [Object.stringGetValue]
    | _ => cases null
  | false =>
    obtain ⟨-, buffer, rfl⟩ := sound null
    simp [string buffer]

theorem parsePayload_leaf (inside : doc.data.length < 2 ^ 32) (array : type &&& 0xf0 ≠ PLIST_TYPE_ARRAY)
    (dict : type &&& 0xf0 ≠ PLIST_TYPE_DICT)
    (ends : Outcome (parsePayload host doc.data doc.reflen parse type length payload) state object after) :
    ReadsLeaf host doc type length payload object := by
  have distinct : ∀ {kind}, type &&& 0xf0 = kind → kind ≠ PLIST_TYPE_STRING → type &&& 0xf0 ≠ PLIST_TYPE_STRING :=
    fun same distinct string => distinct (same.symm.trans string)
  unfold parsePayload at ends
  dsimp only at ends
  split at ends
  next primitive =>
    obtain ⟨rfl, -⟩ := outcome_pure_iff.mp ends
    exact .of_value (.of_plain primitive (by decide)) (doc.leaf_iff primitive) (if_pos trivial).symm rfl rfl
      (distinct primitive (by decide))
  split at ends
  next integer =>
    have small := parseIntegerObject_bounds ends
    have safe : PayloadSafe doc.data doc.reflen false type length payload := by
      refine ⟨fun _ => small, ?_, ?_, ?_⟩
      all_goals exact fun other => absurd (integer.symm.trans other) (by decide)
    have same := (parseIntegerObject_yields inside small).value_eq ends.1
    exact .of_value safe (doc.leaf_iff integer) same rfl rfl (distinct integer (by decide))
  split at ends
  next real =>
    obtain ⟨small, bounds⟩ := parseRealObject_bounds ends
    have safe : PayloadSafe doc.data doc.reflen false type length payload := by
      refine ⟨?_, fun _ => ⟨small, bounds⟩, ?_, ?_⟩
      all_goals exact fun other => absurd (real.symm.trans other) (by decide)
    obtain ⟨value, yields⟩ : ∃ value, Yields (parseRealObject host doc.data length payload) _ :=
      parseRealObject_yields inside small bounds
    have same := yields.value_eq ends.1
    exact .of_value safe (doc.leaf_iff real) same rfl rfl (distinct real (by decide))
  split at ends
  next date =>
    exact .of_buffer inside (by decide) (doc.leaf_iff date) (.of_plain date (by decide)) ends (fun _ => rfl)
      fun buffer => iff_of_false (by simp [Object.stringGetValue]) (distinct date (by decide))
  split at ends
  next data =>
    exact .of_buffer inside (by decide) ((doc.leaf_iff data).trans (and_iff_right (.inl rfl))) (.of_plain data (by decide))
      ends (fun _ => rfl) fun buffer => iff_of_false (by simp [Object.stringGetValue]) (distinct data (by decide))
  split at ends
  next string =>
    exact .of_buffer inside (by decide) ((doc.leaf_iff string).trans (and_iff_right (.inr (.inl rfl))))
      (.of_plain string (by decide)) ends (fun _ => rfl) fun buffer => iff_of_true rfl string
  split at ends
  next unicode =>
    exact .of_buffer inside (by decide) ((doc.leaf_iff unicode).trans (and_iff_right (.inr (.inr rfl))))
      (.of_plain unicode (by decide)) ends (fun _ => rfl)
      fun buffer => iff_of_false (by simp [Object.stringGetValue]) (distinct unicode (by decide))
  obtain ⟨rfl, -⟩ := outcome_pure_iff.mp ends
  have none_ : ¬ doc.Leaf type length payload := by
    simp_all [Document.Leaf]
  have safe : PayloadSafe doc.data doc.reflen false type length payload := by
    constructor <;> intro kind <;> contradiction
  exact ⟨safe, fun here => (nomatch here), fun _ leaf => absurd leaf none_, by simp [Object.stringGetValue, *]⟩

/-- An object without references is read to its end, if it is safe. -/
theorem parsePayload_leaf_halts (inside : doc.data.length < 2 ^ 32) (array : type &&& 0xf0 ≠ PLIST_TYPE_ARRAY)
    (dict : type &&& 0xf0 ≠ PLIST_TYPE_DICT) (safe : PayloadSafe doc.data doc.reflen false type length payload) :
    Halts (parsePayload host doc.data doc.reflen parse type length payload) state := by
  have buffer : ∀ make terminator count, Halts (parseBuffer host doc.data make terminator count payload) state := by
    intro make terminator count
    by_cases there : payload + count ≤ doc.data.length
    · exact ⟨_, _, (parseBuffer_outcome_iff make terminator).mpr (by rw [if_pos there]; exact ⟨rfl, rfl⟩)⟩
    · exact ⟨_, _, (parseBuffer_outcome_iff make terminator).mpr (by rw [if_neg there]; exact ⟨rfl, rfl⟩)⟩
  unfold parsePayload
  dsimp only
  split
  · exact halts_pure _
  split
  next integer => exact ⟨_, _, parseIntegerObject_yields inside (safe.integer integer) state, rfl⟩
  split
  next real =>
    obtain ⟨small, bounds⟩ := safe.real real
    obtain ⟨value, yields⟩ : ∃ value, Yields (parseRealObject host doc.data length payload) _ :=
      parseRealObject_yields inside small bounds
    exact ⟨_, _, yields state, rfl⟩
  split
  · exact buffer ..
  split
  · exact buffer ..
  split
  · exact buffer ..
  split
  · exact buffer ..
  exact halts_pure _

end Leaves

section Containers
variable {host : Host} {doc : Document} {parse : Nat → Decoding Object} {length payload state after : Nat} {object : Object}

/-- An allocation is too large or is refused, or the decoder goes on behind it. -/
theorem allocated_outcome {count size : Nat} {rest : Decoding Object}
    (ends : Outcome (calloc host count size >>= fun granted => if ¬ granted = true then pure .null else rest) state object after) :
    (object = .null ∧ (host.Generous → ¬ count * size < 2 ^ 64)) ∨
      (count * size < 2 ^ 64 ∧ ∃ between, Outcome rest between object after) := by
  obtain ⟨granted, between, allocated, continued⟩ := outcome_bind_iff.mp ends
  obtain ⟨rfl, rfl⟩ := calloc_outcome_iff.mp allocated
  split at continued
  next failed =>
    obtain ⟨rfl, -⟩ := outcome_pure_iff.mp continued
    refine .inl ⟨rfl, fun generous small => failed ?_⟩
    rw [Bool.and_eq_true, decide_eq_true_eq]
    exact ⟨small, generous _ _⟩
  next passed =>
    simp only [Bool.and_eq_true, decide_eq_true_eq, not_not] at passed
    exact .inr ⟨passed.1, _, continued⟩

/-- Either the references do not fit or an allocation has failed, or the loop has run to one of its ends. -/
theorem parseArray_outcome (ends : Outcome (parseArray host doc.data doc.reflen parse length payload) state object after) :
    (object = .null ∧ (host.Generous → ¬ doc.Fits length length payload)) ∨
      (doc.Fits length length payload ∧ ∃ taken stop, LoopEnd (doc.elements payload) (Accepted parse acceptValue)
        (Refused parse acceptValue) 0 length taken stop ∧ (object.isNull = false ↔ taken = length) ∧
        object.stringGetValue = none) := by
  unfold parseArray unsignedSize at ends
  replace ends := (outcome_checked_bind_iff.mp ends).2
  split at ends
  next beyond =>
    obtain ⟨rfl, -⟩ := outcome_pure_iff.mp ends
    exact .inl ⟨rfl, fun _ fits => absurd fits.1 (by omega)⟩
  next inside =>
    obtain ⟨rfl, refused⟩ | ⟨small, between, rest⟩ := allocated_outcome ends
    · exact .inl ⟨rfl, fun generous fits => refused generous fits.2⟩
    · obtain ⟨⟨values, dataidx⟩, between, loop, done⟩ := outcome_bind_iff.mp rest
      have from_ : payload = payload + 0 * doc.reflen := by omega
      rw [from_] at loop
      obtain ⟨stop, -, loop⟩ := parseReferences_end loop
      refine .inr ⟨⟨by omega, small⟩, values.length, stop, loop, ?_⟩
      obtain ⟨rfl, -⟩ := outcome_pure_iff.mp done
      by_cases whole : values.length = length <;> simp [whole, Object.isNull, Object.stringGetValue]

theorem calloc_halts_bind {count size : Nat} {next : Bool → Decoding Object}
    (later : ∀ granted after, (granted = true → count * size < 2 ^ 64) → Halts (next granted) after) (state : Nat) :
    Halts (calloc host count size >>= next) state := by
  refine (calloc_outcome_iff.mpr ⟨rfl, rfl⟩).bind_halts (later _ _ fun granted => ?_)
  rw [Bool.and_eq_true, decide_eq_true_eq] at granted
  exact granted.1

theorem parseArray_halts (objects : ∀ object, doc.Fits length length payload →
      Follows (doc.elements payload) (Accepted parse acceptValue) 0 length object → ∀ state, Halts (parse object) state)
    (state : Nat) : Halts (parseArray host doc.data doc.reflen parse length payload) state := by
  unfold parseArray unsignedSize
  refine Outcome.bind_halts ⟨rfl, rfl⟩ ?_
  split
  · exact halts_pure _
  next inside =>
    refine calloc_halts_bind (fun granted after small => ?_) _
    split
    · exact halts_pure _
    next passed =>
      have fits : doc.Fits length length payload := ⟨by omega, small (by simpa using passed)⟩
      have loop := parseReferences_halts (fun object follows => objects object fits follows) after
      rw [Nat.zero_mul, Nat.add_zero] at loop
      exact loop.bind fun _ _ _ => halts_pure _

/-- The same for the two loops of a dictionary. -/
theorem parseDict_outcome (ends : Outcome (parseDict host doc.data doc.reflen parse length payload) state object after) :
    (object = .null ∧ (host.Generous → ¬ doc.Fits (2 * length) length payload)) ∨
      (doc.Fits (2 * length) length payload ∧ ∃ taken stop taken' stop',
        LoopEnd (doc.members payload) (Accepted parse Object.stringGetValue) (Refused parse Object.stringGetValue) 0 length
          taken stop ∧
        LoopEnd (doc.members payload) (Accepted parse acceptValue) (Refused parse acceptValue) stop length taken' stop' ∧
        (object.isNull = false ↔ taken = length ∧ taken' = length) ∧ object.stringGetValue = none) := by
  unfold parseDict unsignedSize at ends
  replace ends := (outcome_checked_bind_iff.mp ends).2
  split at ends
  next beyond =>
    obtain ⟨rfl, -⟩ := outcome_pure_iff.mp ends
    exact .inl ⟨rfl, fun _ fits => absurd fits.1 (by omega)⟩
  next inside =>
    obtain ⟨rfl, refused⟩ | ⟨small, between, rest⟩ := allocated_outcome ends
    · exact .inl ⟨rfl, fun generous fits => refused generous fits.2⟩
    obtain ⟨rfl, refused⟩ | ⟨-, between, rest⟩ := allocated_outcome rest
    · exact .inl ⟨rfl, fun generous fits => refused generous fits.2⟩
    obtain ⟨⟨keys, dataidx⟩, between, loop, rest⟩ := outcome_bind_iff.mp rest
    have from_ : payload = payload + 0 * doc.reflen := by omega
    rw [from_] at loop
    obtain ⟨stop, rfl, keysEnd⟩ := parseReferences_end loop
    obtain ⟨⟨values, dataidx⟩, between, loop', done⟩ := outcome_bind_iff.mp rest
    obtain ⟨stop', -, valuesEnd⟩ := parseReferences_end loop'
    refine .inr ⟨⟨by omega, small⟩, keys.length, stop, values.length, stop', keysEnd, valuesEnd, ?_⟩
    obtain ⟨rfl, -⟩ := outcome_pure_iff.mp done
    by_cases partial_ : keys.length ≠ length ∨ values.length ≠ length
    · rw [if_pos partial_]
      exact ⟨iff_of_false (by decide) (by omega), rfl⟩
    · rw [if_neg partial_]
      exact ⟨iff_of_true rfl (by omega), rfl⟩

theorem parseDict_halts (keys : ∀ object, doc.Fits (2 * length) length payload →
      Follows (doc.members payload) (Accepted parse Object.stringGetValue) 0 length object →
      ∀ state, Halts (parse object) state)
    (values : ∀ object taken stop, doc.Fits (2 * length) length payload →
      LoopEnd (doc.members payload) (Accepted parse Object.stringGetValue) (Refused parse Object.stringGetValue) 0 length
        taken stop →
      Follows (doc.members payload) (Accepted parse acceptValue) stop length object → ∀ state, Halts (parse object) state)
    (state : Nat) : Halts (parseDict host doc.data doc.reflen parse length payload) state := by
  unfold parseDict unsignedSize
  refine Outcome.bind_halts ⟨rfl, rfl⟩ ?_
  split
  · exact halts_pure _
  next inside =>
    refine calloc_halts_bind (fun granted after small => ?_) _
    split
    · exact halts_pure _
    next passed =>
      refine calloc_halts_bind (fun granted after _ => ?_) _
      split
      · exact halts_pure _
      · have fits : doc.Fits (2 * length) length payload := ⟨by omega, small (by simpa using passed)⟩
        have loop := parseReferences_halts (fun object follows => keys object fits follows) after
        rw [Nat.zero_mul, Nat.add_zero] at loop
        refine loop.bind fun result after ended => ?_
        have from_ : payload = payload + 0 * doc.reflen := by omega
        rw [from_] at ended
        obtain ⟨stop, same, ended⟩ := parseReferences_end ended
        dsimp only
        rw [same]
        refine (parseReferences_halts (fun object follows => values object _ stop fits ended follows) after).bind ?_
        exact fun _ _ _ => halts_pure _

end Containers

/-- `bplist_parse_object` in a document. -/
def Document.decode (doc : Document) (host : Host) (fuel object : Nat) : Decoding Object :=
  parseObject host doc.data doc.reftab doc.reflen fuel object

section Objects
variable {host : Host} {doc : Document} {fuel object length payload state after : Nat} {type : UInt8} {read : Object}

theorem parseMarker_keeps (data : Bytes) (dataidx : Nat) : Keeps (parseMarker data dataidx) := by
  unfold parseMarker
  split
  · exact keeps_pure _
  refine keeps_checked.bind fun bytes => ?_
  dsimp only
  split
  · exact keeps_pure _
  split
  · exact keeps_pure _
  refine keeps_checked.bind fun bytes => ?_
  split
  · exact keeps_pure _
  refine keeps_checked.bind fun shifted => ?_
  split
  · exact keeps_pure _
  refine (parseInteger_keeps _ _).bind fun lenvalue => ?_
  split
  · exact keeps_pure _
  · split <;> exact keeps_pure _

/-- What follows the marker of an object. -/
theorem decode_step :
    Outcome (doc.decode host (fuel + 1) object) state read after ↔
      Outcome (match doc.marker object with
        | none => pure .null
        | some (type, length, payload) => do
          if ¬ (← calloc host 1 32) then return .null
          emit (.object (doc.reftab.getD object 0).toNat)
          parsePayload host doc.data doc.reflen (doc.decode host fuel) type length payload) state read after := by
  rw [Document.decode, parseObject, Document.marker]
  by_cases known : object < doc.reftab.length
  · rw [if_neg (by omega), if_pos known, outcome_emit_bind_iff,
      (parseMarker_yields _ _).outcome_bind_iff (parseMarker_keeps _ _)]
    cases markerAt doc.data (doc.reftab.getD object 0).toNat with
    | none => exact Iff.rfl
    | some marker => exact Iff.rfl
  · rw [if_pos (by omega), if_neg known]

theorem decode_unmarked (unmarked : doc.marker object = none) :
    Outcome (doc.decode host (fuel + 1) object) state read after ↔ read = .null ∧ after = state := by
  rw [decode_step, unmarked]
  exact outcome_pure_iff

theorem decode_marked (marked : doc.marker object = some (type, length, payload))
    (ends : Outcome (doc.decode host (fuel + 1) object) state read after) :
    (read = .null ∧ ¬ host.Generous) ∨
      ∃ between, Outcome (parsePayload host doc.data doc.reflen (doc.decode host fuel) type length payload) between read after := by
  rw [decode_step, marked] at ends
  obtain ⟨granted, between, allocated, rest⟩ := outcome_bind_iff.mp ends
  obtain ⟨rfl, rfl⟩ := calloc_outcome_iff.mp allocated
  split at rest
  next failed =>
    obtain ⟨rfl, -⟩ := outcome_pure_iff.mp rest
    refine .inl ⟨rfl, fun generous => failed ?_⟩
    simp [generous _ _]
  next => exact .inr ⟨_, outcome_emit_bind_iff.mp rest⟩

theorem decode_halts (payloads : ∀ type length payload, doc.marker object = some (type, length, payload) → ∀ state,
    Halts (parsePayload host doc.data doc.reflen (doc.decode host fuel) type length payload) state) (state : Nat) :
    Halts (doc.decode host (fuel + 1) object) state := by
  have equivalent := exists_congr fun read => exists_congr fun after => @decode_step host doc fuel object state after read
  refine equivalent.mpr ?_
  cases marked : doc.marker object with
  | none => exact halts_pure _
  | some marker =>
    obtain ⟨type, length, payload⟩ := marker
    refine calloc_halts_bind (fun granted after _ => ?_) state
    split
    · exact halts_pure _
    · obtain ⟨read, after', ends⟩ := payloads type length payload marked after
      exact ⟨read, after', outcome_emit_bind_iff.mpr ends⟩

theorem acceptValue_eq {object : Object} (present : object.isNull = false) : acceptValue object = some object := by
  rw [acceptValue, present]
  rfl

theorem acceptValue_isSome {object : Object} : (acceptValue object).isSome = true ↔ object.isNull = false := by
  unfold acceptValue
  cases object.isNull <;> simp

theorem acceptValue_eq_none {object : Object} : acceptValue object = none ↔ object.isNull = true := by
  unfold acceptValue
  cases object.isNull <;> simp

theorem isNull_of_string {object : Object} (string : object.stringGetValue.isSome = true) : object.isNull = false := by
  cases object with
  | string => rfl
  | _ => cases string

theorem Document.isString_iff (marked : doc.marker object = some (type, length, payload)) :
    doc.IsString object ↔ type &&& 0xf0 = PLIST_TYPE_STRING := by
  constructor
  · rintro ⟨type', length', payload', marked', string⟩
    obtain ⟨rfl, -⟩ := Prod.mk.inj (Option.some.inj (marked.symm.trans marked'))
    exact string
  · exact fun string => ⟨type, length, payload, marked, string⟩

/-- What the decoder makes of an object that is not null is an object that is valid. -/
structure Sound (doc : Document) (object : Nat) (read : Object) : Prop where
  valid : doc.Valid object
  string : read.stringGetValue.isSome = true ↔ doc.IsString object

theorem Passes.at {references : References} {good : Nat → Prop} {first last position : Nat} {reference : BitVec 64}
    (passes : Passes references good first last) (low : first ≤ position) (high : position < last)
    (found : references position = some reference) : good reference.toNat := by
  obtain ⟨other, found', holds⟩ := passes position low high
  exact Option.some.inj (found'.symm.trans found) ▸ holds

theorem Passes.there {references : References} {good : Nat → Prop} {first last position : Nat}
    (passes : Passes references good first last) (low : first ≤ position) (high : position < last) :
    references position ≠ none := by
  obtain ⟨reference, found, -⟩ := passes position low high
  rw [found]
  exact Option.some_ne_none reference

/-- Whatever comes of an object, the object is valid unless it is null. -/
def SoundReader (doc : Document) (parse : Nat → Decoding Object) : Prop :=
  ∀ object state read after, Outcome (parse object) state read after → read.isNull = false → Sound doc object read

/-- Nothing that comes of a valid object is null. -/
def CompleteReader (doc : Document) (parse : Nat → Decoding Object) : Prop :=
  ∀ object state read after, Outcome (parse object) state read after → doc.Valid object → read.isNull = false

section Readers
variable {parse : Nat → Decoding Object}

theorem SoundReader.valid (sound : SoundReader doc parse) (accepted : Accepted parse acceptValue object) : doc.Valid object := by
  obtain ⟨state, read, after, ends, present⟩ := accepted
  exact (sound _ _ _ _ ends (acceptValue_isSome.mp present)).valid

theorem SoundReader.key (sound : SoundReader doc parse) (accepted : Accepted parse Object.stringGetValue object) :
    doc.Key object := by
  obtain ⟨state, read, after, ends, string⟩ := accepted
  have holds := sound _ _ _ _ ends (isNull_of_string string)
  exact ⟨holds.valid, holds.string.mp string⟩

theorem CompleteReader.takes_valid (complete : CompleteReader doc parse) (valid : doc.Valid object) :
    ¬ Refused parse acceptValue object := by
  rintro ⟨state, read, after, ends, refused⟩
  have null := acceptValue_eq_none.mp refused
  rw [complete _ _ _ _ ends valid] at null
  cases null

theorem CompleteReader.takes_key (complete : CompleteReader doc parse) (sound : SoundReader doc parse) (key : doc.Key object) :
    ¬ Refused parse Object.stringGetValue object := by
  rintro ⟨state, read, after, ends, refused⟩
  have string := (sound _ _ _ _ ends (complete _ _ _ _ ends key.1)).string.mpr key.2
  rw [refused] at string
  cases string

theorem SoundReader.array (sound : SoundReader doc parse) (marked : doc.marker object = some (type, length, payload))
    (kind : type &&& 0xf0 = PLIST_TYPE_ARRAY)
    (ends : Outcome (parseArray host doc.data doc.reflen parse length payload) state read after)
    (present : read.isNull = false) : Sound doc object read := by
  rcases parseArray_outcome ends with ⟨rfl, -⟩ | ⟨fits, taken, stop, loop, whole, string⟩
  · cases present
  obtain rfl := whole.mp present
  have passes := loop.all.1.mono fun _ => sound.valid
  rw [Nat.zero_add] at passes
  have valid : doc.Valid object := .array marked kind fits (fun position below => passes.there (Nat.zero_le _) below)
    fun position below reference found => passes.at (Nat.zero_le _) below found
  refine ⟨valid, ?_⟩
  simp [string, Document.isString_iff marked, kind, PLIST_TYPE_ARRAY, PLIST_TYPE_STRING]

theorem SoundReader.dict (sound : SoundReader doc parse) (marked : doc.marker object = some (type, length, payload))
    (kind : type &&& 0xf0 = PLIST_TYPE_DICT)
    (ends : Outcome (parseDict host doc.data doc.reflen parse length payload) state read after)
    (present : read.isNull = false) : Sound doc object read := by
  rcases parseDict_outcome ends with ⟨rfl, -⟩ | ⟨fits, taken, stop, taken', stop', loop, loop', whole, string⟩
  · cases present
  obtain ⟨allKeys, allValues⟩ := whole.mp present
  rw [allKeys] at loop
  rw [allValues] at loop'
  obtain ⟨passed, rfl⟩ := loop.all
  have keys := passed.mono fun _ => sound.key
  have values := loop'.all.1.mono fun _ => sound.valid
  have all : Passes (doc.members payload) doc.Valid 0 (2 * length) := by
    intro position _ below
    by_cases key : position < length
    · exact keys.mono (fun _ both => both.1) position (Nat.zero_le _) (by omega)
    · exact values position (by omega) (by omega)
  have valid : doc.Valid object := .dict marked kind fits (fun position below => all.there (Nat.zero_le _) below)
    (fun position below reference found => (keys.at (Nat.zero_le _) (by omega) found).2)
    fun position below reference found => all.at (Nat.zero_le _) below found
  refine ⟨valid, ?_⟩
  simp [string, Document.isString_iff marked, kind, PLIST_TYPE_DICT, PLIST_TYPE_STRING]

end Readers

theorem decode_sound (inside : doc.data.length < 2 ^ 32) : SoundReader doc (doc.decode host fuel) := by
  intro object state read after ends present
  induction fuel generalizing object state read after with
  | zero => cases ends.1
  | succ fuel ih =>
    cases marked : doc.marker object with
    | none =>
      obtain ⟨rfl, -⟩ := (decode_unmarked marked).mp ends
      cases present
    | some marker =>
      obtain ⟨type, length, payload⟩ := marker
      rcases decode_marked marked ends with ⟨rfl, -⟩ | ⟨between, ends⟩
      · cases present
      by_cases array : type &&& 0xf0 = PLIST_TYPE_ARRAY
      · rw [parsePayload_array array] at ends
        exact SoundReader.array ih marked array ends present
      by_cases dict : type &&& 0xf0 = PLIST_TYPE_DICT
      · rw [parsePayload_dict dict] at ends
        exact SoundReader.dict ih marked dict ends present
      have leaf := parsePayload_leaf inside array dict ends
      refine ⟨.leaf marked (leaf.sound present), ?_⟩
      rw [leaf.string, Document.isString_iff marked, and_iff_right present]

theorem Document.Leaf.plain (leaf : doc.Leaf type length payload) :
    type &&& 0xf0 ≠ PLIST_TYPE_ARRAY ∧ type &&& 0xf0 ≠ PLIST_TYPE_DICT := by
  constructor
  · intro array
    exact absurd ((doc.leaf_iff array).mp leaf).1 (by decide)
  · intro dict
    exact absurd ((doc.leaf_iff dict).mp leaf).1 (by decide)

/-- Where no allocation fails, a valid object is not null. -/
theorem decode_complete (inside : doc.data.length < 2 ^ 32) (generous : host.Generous) :
    CompleteReader doc (doc.decode host fuel) := by
  intro object state read after ends valid
  induction fuel generalizing object state read after with
  | zero => cases ends.1
  | succ fuel ih =>
    have complete : CompleteReader doc (doc.decode host fuel) := ih
    have payload_ends : ∀ {type length payload}, doc.marker object = some (type, length, payload) →
        ∃ between, Outcome (parsePayload host doc.data doc.reflen (doc.decode host fuel) type length payload) between read after :=
      fun marked => (decode_marked marked ends).resolve_left fun both => both.2 generous
    cases valid with
    | leaf marked leaf =>
      obtain ⟨between, ends⟩ := payload_ends marked
      exact (parsePayload_leaf inside leaf.plain.1 leaf.plain.2 ends).complete generous leaf
    | @array _ length payload _ marked kind fits there elements =>
      obtain ⟨between, ends⟩ := payload_ends marked
      rw [parsePayload_array kind] at ends
      rcases parseArray_outcome ends with ⟨-, failed⟩ | ⟨-, taken, stop, loop, whole, -⟩
      · exact absurd fits (failed generous)
      have passes := passes_of_there there elements
      apply whole.mpr
      rw [← Nat.zero_add length] at passes
      exact (loop.complete (passes.mono fun _ => complete.takes_valid)).1
    | @dict _ length payload _ marked kind fits there keys members =>
      obtain ⟨between, ends⟩ := payload_ends marked
      rw [parsePayload_dict kind] at ends
      rcases parseDict_outcome ends with ⟨-, failed⟩ | ⟨-, taken, stop, taken', stop', loop, loop', whole, -⟩
      · exact absurd fits (failed generous)
      have values : Passes (doc.members payload) doc.Valid 0 (2 * length) := passes_of_there there members
      have strings : Passes (doc.members payload) doc.Key 0 (0 + length) := by
        intro position low high
        obtain ⟨reference, found, valid⟩ := values position low (by omega)
        exact ⟨reference, found, valid, keys position (by omega) reference found⟩
      have rest : Passes (doc.members payload) doc.Valid (0 + length) (0 + length + length) :=
        values.within (Nat.zero_le _) (by omega)
      obtain ⟨rfl, rfl⟩ := loop.complete (strings.mono fun _ => complete.takes_key (decode_sound inside))
      obtain ⟨rfl, -⟩ := loop'.complete (rest.mono fun _ => complete.takes_valid)
      exact whole.mpr ⟨rfl, rfl⟩

end Objects

end Apsdk.Plist
