import Apsdk.Proofs.DecoderSafety

/-! The structure of a document: which of its objects are valid, and which references
between them the decoder follows. Both are said of the bytes, without the decoder. -/

namespace Apsdk.Plist
open Library Traced

/-- The data with the table of its objects. -/
structure Document where
  data : Bytes
  reftab : List (BitVec 64)
  reflen : Nat

/-- The references of a container by their positions. -/
abbrev References := Nat → Option (BitVec 64)

/-- All references between two positions are there and lead to good objects. -/
def Passes (references : References) (good : Nat → Prop) (first last : Nat) : Prop :=
  ∀ position, first ≤ position → position < last → ∃ reference, references position = some reference ∧ good reference.toNat

/-- How a loop over `count` references comes to its end: it has taken some of them and
stops at a position. A reference that leads to a bad object is consumed. -/
inductive LoopEnd (references : References) (good bad : Nat → Prop) (first count : Nat) : Nat → Nat → Prop
  | whole (passes : Passes references good first (first + count)) :
      LoopEnd references good bad first count count (first + count)
  | missing {taken : Nat} (early : taken < count) (passes : Passes references good first (first + taken))
      (absent : references (first + taken) = none) : LoopEnd references good bad first count taken (first + taken)
  | refused {taken : Nat} {reference : BitVec 64} (early : taken < count)
      (passes : Passes references good first (first + taken)) (found : references (first + taken) = some reference)
      (refuses : bad reference.toNat) : LoopEnd references good bad first count taken (first + taken + 1)

/-- A loop over `count` references gets to one that leads to an object. -/
def Follows (references : References) (good : Nat → Prop) (first count object : Nat) : Prop :=
  ∃ position reference, first ≤ position ∧ position < first + count ∧ Passes references good first position ∧
    references position = some reference ∧ object = reference.toNat

section Loops
variable {references : References} {good other : Nat → Prop} {first count : Nat}

theorem Passes.mono {last : Nat} (passes : Passes references good first last) (implies : ∀ object, good object → other object) :
    Passes references other first last := by
  intro position low high
  obtain ⟨reference, found, holds⟩ := passes position low high
  exact ⟨reference, found, implies _ holds⟩

theorem Passes.cons {last : Nat} {reference : BitVec 64} (found : references first = some reference)
    (holds : good reference.toNat) (passes : Passes references good (first + 1) last) : Passes references good first last := by
  intro position low high
  rcases Nat.eq_or_lt_of_le low with rfl | later
  · exact ⟨reference, found, holds⟩
  · exact passes position later high

theorem Passes.within {last first' last' : Nat} (passes : Passes references good first last) (low : first ≤ first')
    (high : last' ≤ last) : Passes references good first' last' :=
  fun position above below => passes position (low.trans above) (below.trans_le high)

theorem passes_of_there {last : Nat} (there : ∀ position < last, references position ≠ none)
    (holds : ∀ position < last, ∀ reference, references position = some reference → good reference.toNat) :
    Passes references good 0 last := by
  intro position _ below
  obtain ⟨reference, found⟩ := Option.ne_none_iff_exists'.mp (there position below)
  exact ⟨reference, found, holds position below reference found⟩

theorem passes_empty : Passes references good first first :=
  fun _ low high => absurd high (Nat.not_lt.mpr low)

theorem LoopEnd.cons {bad : Nat → Prop} {taken stop : Nat} {reference : BitVec 64} (found : references first = some reference)
    (holds : good reference.toNat) (ends : LoopEnd references good bad (first + 1) count taken stop) :
    LoopEnd references good bad first (count + 1) (taken + 1) stop := by
  have shift : ∀ steps, first + 1 + steps = first + (steps + 1) := by omega
  cases ends with
  | whole passes =>
    rw [shift] at passes ⊢
    exact .whole (passes.cons found holds)
  | missing early passes absent =>
    rw [shift] at passes absent ⊢
    exact .missing (by omega) (passes.cons found holds) absent
  | refused early passes found' refuses =>
    rw [shift] at passes found' ⊢
    exact .refused (by omega) (passes.cons found holds) found' refuses

/-- A loop that takes as many as it should has passed all of them. -/
theorem LoopEnd.all {bad : Nat → Prop} {stop : Nat} (ends : LoopEnd references good bad first count count stop) :
    Passes references good first (first + count) ∧ stop = first + count := by
  cases ends with
  | whole passes => exact ⟨passes, rfl⟩
  | missing early => exact absurd early (Nat.lt_irrefl count)
  | refused early => exact absurd early (Nat.lt_irrefl count)

/-- A loop takes all references, where none is missing or refused. -/
theorem LoopEnd.complete {bad : Nat → Prop} {taken stop : Nat} (ends : LoopEnd references good bad first count taken stop)
    (there : Passes references (fun object => ¬ bad object) first (first + count)) : taken = count ∧ stop = first + count := by
  cases ends with
  | whole passes => exact ⟨rfl, rfl⟩
  | missing early passes absent =>
    obtain ⟨reference, found, -⟩ := there (first + taken) (by omega) (by omega)
    cases absent.symm.trans found
  | refused early passes found refuses =>
    obtain ⟨reference, found', fine⟩ := there (first + taken) (by omega) (by omega)
    obtain rfl := Option.some.inj (found.symm.trans found')
    exact absurd refuses fine

theorem Follows.mono {object : Nat} (follows : Follows references good first count object)
    (implies : ∀ object, good object → other object) : Follows references other first count object := by
  obtain ⟨position, reference, low, high, passes, found, same⟩ := follows
  exact ⟨position, reference, low, high, passes.mono implies, found, same⟩

theorem Follows.cons {object : Nat} {reference : BitVec 64} (found : references first = some reference)
    (holds : good reference.toNat) (follows : Follows references good (first + 1) count object) :
    Follows references good first (count + 1) object := by
  obtain ⟨position, reference', low, high, passes, found', same⟩ := follows
  exact ⟨position, reference', by omega, by omega, passes.cons found holds, found', same⟩

end Loops

namespace Document
variable (doc : Document)

/-- The marker of an object that is in the table. -/
def marker (object : Nat) : Option (UInt8 × Nat × Nat) :=
  if object < doc.reftab.length then markerAt doc.data (doc.reftab.getD object 0).toNat else none

/-- The references behind a marker; a loop may refuse to follow some. -/
def references (follow : BitVec 64 → Bool) (payload : Nat) : References := fun position =>
  let dataidx := payload + position * doc.reflen
  if dataidx + doc.reflen ≤ doc.data.length ∧ (doc.reflen = 1 ∨ doc.reflen = 2 ∨ doc.reflen = 4 ∨ doc.reflen = 8) then
    (some (BitVec.ofNat 64 (beValue ((doc.data.drop dataidx).take doc.reflen)))).filter follow
  else none

/-- An array follows no negative references. -/
def elements : Nat → References := doc.references fun reference => 0 ≤ reference.toInt

def members : Nat → References := doc.references fun _ => true

/-- The decoder gets to the references of a container: as far as it computes their size, they fit. -/
def Fits (count length payload : Nat) : Prop :=
  (payload + count * doc.reflen) % 2 ^ 64 ≤ doc.data.length ∧ length * 8 < 2 ^ 64

def IsString (object : Nat) : Prop := ∃ type length payload, doc.marker object = some (type, length, payload) ∧
  type &&& 0xf0 = PLIST_TYPE_STRING

/-- An object without references that is all there. -/
def Leaf (type : UInt8) (length payload : Nat) : Prop :=
  let kind := type &&& 0xf0
  if kind = PLIST_TYPE_PRIMITIVE then True
  else if kind = PLIST_TYPE_INTEGER then length ≤ 3 ∧ payload + 2 ^ length ≤ doc.data.length
  else if kind = PLIST_TYPE_REAL then length ≠ 31 ∧ payload + 2 ^ length ≤ doc.data.length
  else if kind = PLIST_TYPE_DATE then payload + 8 ≤ doc.data.length
  else (kind = PLIST_TYPE_DATA ∨ kind = PLIST_TYPE_STRING ∨ kind = PLIST_TYPE_UNICODE_STRING) ∧
    payload + length ≤ doc.data.length

/-- An object that is all there, with everything that it refers to. -/
inductive Valid : Nat → Prop
  | leaf {object length payload : Nat} {type : UInt8} (marked : doc.marker object = some (type, length, payload))
      (leaf : doc.Leaf type length payload) : Valid object
  | array {object length payload : Nat} {type : UInt8} (marked : doc.marker object = some (type, length, payload))
      (kind : type &&& 0xf0 = PLIST_TYPE_ARRAY) (fits : doc.Fits length length payload)
      (there : ∀ position < length, doc.elements payload position ≠ none)
      (values : ∀ position < length, ∀ reference, doc.elements payload position = some reference → Valid reference.toNat) :
      Valid object
  | dict {object length payload : Nat} {type : UInt8} (marked : doc.marker object = some (type, length, payload))
      (kind : type &&& 0xf0 = PLIST_TYPE_DICT) (fits : doc.Fits (2 * length) length payload)
      (there : ∀ position < 2 * length, doc.members payload position ≠ none)
      (keys : ∀ position < length, ∀ reference, doc.members payload position = some reference → doc.IsString reference.toNat)
      (values : ∀ position < 2 * length, ∀ reference, doc.members payload position = some reference →
        Valid reference.toNat) : Valid object

/-- An object that may be a key. -/
def Key (object : Nat) : Prop := doc.Valid object ∧ doc.IsString object

/-- The references that the decoder follows: those of an array as long as they lead to valid objects, the keys
of a dictionary as long as they are valid strings, and from where it has left the keys, as long as they
lead to valid objects, as many values as there should be keys. -/
inductive Refers : Nat → Nat → Prop
  | element {object length payload target : Nat} {type : UInt8} (marked : doc.marker object = some (type, length, payload))
      (kind : type &&& 0xf0 = PLIST_TYPE_ARRAY) (fits : doc.Fits length length payload)
      (follows : Follows (doc.elements payload) doc.Valid 0 length target) : Refers object target
  | key {object length payload target : Nat} {type : UInt8} (marked : doc.marker object = some (type, length, payload))
      (kind : type &&& 0xf0 = PLIST_TYPE_DICT) (fits : doc.Fits (2 * length) length payload)
      (follows : Follows (doc.members payload) doc.Key 0 length target) : Refers object target
  | value {object length payload target taken stop : Nat} {type : UInt8}
      (marked : doc.marker object = some (type, length, payload)) (kind : type &&& 0xf0 = PLIST_TYPE_DICT)
      (fits : doc.Fits (2 * length) length payload)
      (keys : LoopEnd (doc.members payload) doc.Key (fun object => ¬ doc.Key object) 0 length taken stop)
      (follows : Follows (doc.members payload) doc.Valid stop length target) : Refers object target

end Document

section Loops
variable {doc : Document} {parse : Nat → Decoding Object} {Value : Type} {follow : BitVec 64 → Bool}
  {accept : Object → Option Value} {payload position state after : Nat} {result : List Value × Nat}

/-- What a loop makes of the object that a reference leads to. -/
def continueReferences (doc : Document) (parse : Nat → Decoding Object) (follow : BitVec 64 → Bool)
    (accept : Object → Option Value) (remaining dataidx : Nat) (object : Object) : Decoding (List Value × Nat) :=
  match accept object with
  | none => pure ([], dataidx)
  | some value => do
    let (values, dataidx) ← parseReferences doc.data doc.reflen parse follow accept remaining dataidx
    return (value :: values, dataidx)

/-- Reading and following a reference is what the loop does at a position. -/
theorem parseReferences_step (remaining : Nat) :
    Outcome (parseReferences doc.data doc.reflen parse follow accept (remaining + 1) (payload + position * doc.reflen))
      state result after ↔
    Outcome (match doc.references follow payload position with
      | none => pure ([], payload + position * doc.reflen)
      | some reference => parse reference.toNat >>=
        continueReferences doc parse follow accept remaining (payload + (position + 1) * doc.reflen)) state result after := by
  have next : payload + (position + 1) * doc.reflen = payload + position * doc.reflen + doc.reflen := by
    rw [Nat.add_one_mul]
    omega
  unfold parseReferences
  split
  next beyond =>
    have absent : doc.references follow payload position = none := if_neg fun both => by omega
    rw [absent]
  next inside =>
    have here : payload + position * doc.reflen + doc.reflen ≤ doc.data.length := by omega
    rw [(parseInteger_reads here).outcome_bind_iff (parseInteger_keeps _ _), next]
    simp only [Document.references, here, true_and]
    by_cases known : doc.reflen = 1 ∨ doc.reflen = 2 ∨ doc.reflen = 4 ∨ doc.reflen = 8
    · simp only [known, if_true, Option.filter_some]
      by_cases followed :
          follow (BitVec.ofNat 64 (beValue ((doc.data.drop (payload + position * doc.reflen)).take doc.reflen))) = true
      · simp only [followed, not_true_eq_false, if_false, if_true]
        exact Iff.rfl
      · simp only [followed]
        exact Iff.rfl
    · simp only [known, if_false]

/-- Decoding an object can end with one that a loop takes. -/
def Accepted (parse : Nat → Decoding Object) (accept : Object → Option Value) (object : Nat) : Prop :=
  ∃ state read after, Outcome (parse object) state read after ∧ (accept read).isSome = true

def Refused (parse : Nat → Decoding Object) (accept : Object → Option Value) (object : Nat) : Prop :=
  ∃ state read after, Outcome (parse object) state read after ∧ accept read = none

theorem parseReferences_end {first count : Nat} {values : List Value} {dataidx : Nat}
    (ends : Outcome (parseReferences doc.data doc.reflen parse follow accept count (payload + first * doc.reflen)) state
      (values, dataidx) after) :
    ∃ stop, dataidx = payload + stop * doc.reflen ∧ LoopEnd (doc.references follow payload) (Accepted parse accept)
      (Refused parse accept) first count values.length stop := by
  induction count generalizing first state values dataidx after with
  | zero =>
    obtain ⟨same, -⟩ := outcome_pure_iff.mp ends
    obtain ⟨rfl, rfl⟩ := Prod.mk.inj same
    exact ⟨first, rfl, .whole passes_empty⟩
  | succ count ih =>
    have step := (parseReferences_step count).mp ends
    cases found : doc.references follow payload first with
    | none =>
      rw [found] at step
      obtain ⟨same, -⟩ := outcome_pure_iff.mp step
      obtain ⟨rfl, rfl⟩ := Prod.mk.inj same
      exact ⟨first, rfl, .missing (Nat.succ_pos count) passes_empty found⟩
    | some reference =>
      rw [found] at step
      obtain ⟨read, between, object, rest⟩ := outcome_bind_iff.mp step
      unfold continueReferences at rest
      cases taken : accept read with
      | none =>
        rw [taken] at rest
        obtain ⟨same, -⟩ := outcome_pure_iff.mp rest
        obtain ⟨rfl, rfl⟩ := Prod.mk.inj same
        exact ⟨first + 1, rfl, .refused (Nat.succ_pos count) passes_empty found ⟨state, read, between, object, taken⟩⟩
      | some value =>
        rw [taken] at rest
        obtain ⟨⟨later, stop⟩, between', loop, done⟩ := outcome_bind_iff.mp rest
        obtain ⟨same, -⟩ := outcome_pure_iff.mp done
        obtain ⟨rfl, rfl⟩ := Prod.mk.inj same
        obtain ⟨stop, same, ended⟩ := ih loop
        have accepted : Accepted parse accept reference.toNat := ⟨state, read, between, object, taken ▸ rfl⟩
        exact ⟨stop, same, ended.cons found accepted⟩

/-- A loop ends where each object that it gets to does. -/
theorem parseReferences_halts {first count : Nat}
    (objects : ∀ object, Follows (doc.references follow payload) (Accepted parse accept) first count object →
      ∀ state, Halts (parse object) state) (state : Nat) :
    Halts (parseReferences doc.data doc.reflen parse follow accept count (payload + first * doc.reflen)) state := by
  induction count generalizing first state with
  | zero => exact halts_pure _
  | succ count ih =>
    have step := fun result after => @parseReferences_step doc parse Value follow accept payload first state after result count
    have equivalent : Halts (parseReferences doc.data doc.reflen parse follow accept (count + 1)
        (payload + first * doc.reflen)) state ↔ Halts (match doc.references follow payload first with
      | none => pure ([], payload + first * doc.reflen)
      | some reference => parse reference.toNat >>=
        continueReferences doc parse follow accept count (payload + (first + 1) * doc.reflen)) state :=
      exists_congr fun result => exists_congr fun after => step result after
    rw [equivalent]
    cases found : doc.references follow payload first with
    | none => exact halts_pure _
    | some reference =>
      have here : Follows (doc.references follow payload) (Accepted parse accept) first (count + 1) reference.toNat :=
        ⟨first, reference, le_rfl, by omega, passes_empty, found, rfl⟩
      refine (objects _ here state).bind fun read between object => ?_
      unfold continueReferences
      cases taken : accept read with
      | none => exact halts_pure _
      | some value =>
        have accepted : Accepted parse accept reference.toNat := ⟨state, read, between, object, taken ▸ rfl⟩
        refine (ih (fun object follows => objects object (follows.cons found accepted)) between).bind fun _ _ _ => ?_
        exact halts_pure _

/-- A loop that has ended has got to everything that it follows, if what is good is accepted. -/
theorem LoopEnd.follows {references : References} {good accepted refused : Nat → Prop} {first count taken stop : Nat}
    (ends : LoopEnd references accepted refused first count taken stop) (sound : ∀ object, good object → ¬ refused object)
    {object : Nat} (follows : Follows references good first count object) : accepted object ∨ refused object := by
  obtain ⟨position, reference, low, high, passes, found, rfl⟩ := follows
  have inside : ∀ last, Passes references accepted first last → position < last → accepted reference.toNat := by
    intro last passed before
    obtain ⟨other, found', holds⟩ := passed position low before
    exact Option.some.inj (found'.symm.trans found) ▸ holds
  cases ends with
  | whole passed => exact .inl (inside _ passed high)
  | missing early passed absent =>
    by_cases before : position < first + taken
    · exact .inl (inside _ passed before)
    · rcases Nat.eq_or_lt_of_le (Nat.not_lt.mp before) with rfl | after
      · cases absent.symm.trans found
      · obtain ⟨other, found', -⟩ := passes (first + taken) (by omega) after
        cases absent.symm.trans found'
  | refused early passed found' refuses =>
    by_cases before : position < first + taken
    · exact .inl (inside _ passed before)
    · rcases Nat.eq_or_lt_of_le (Nat.not_lt.mp before) with rfl | after
      · exact .inr (Option.some.inj (found'.symm.trans found) ▸ refuses)
      · obtain ⟨other, found'', holds⟩ := passes (first + taken) (by omega) after
        obtain rfl := Option.some.inj (found'.symm.trans found'')
        exact absurd refuses (sound _ holds)

end Loops

end Apsdk.Plist
