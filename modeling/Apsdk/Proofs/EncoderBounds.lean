import Apsdk.Proofs.EncoderSizes

/-! The encoder writes every byte at most once and only inside of its buffer, whatever
tree it is given: what the sizing pass does not know, the writer does not write. -/

namespace Apsdk.Plist
open Library

/-- A writer goes on from another one with writes in a region, none of them over another one. -/
structure Separates (before after : Writer) (region : Nat → Prop) : Prop where
  log : ∃ later, after.log = before.log ++ later ∧ Confined later region ∧ Once later

section Separating
variable {before middle after writer : Writer} {region other wider : Nat → Prop}

theorem separates_of_log (same : after.log = before.log) : Separates before after region :=
  ⟨[], same.trans (List.append_nil _).symm, confined_nil, once_nil⟩

theorem Separates.mono (separates : Separates before after region) (included : ∀ i, region i → wider i) :
    Separates before after wider := by
  obtain ⟨later, split, confined, once⟩ := separates.log
  exact ⟨later, split, confined.mono included, once⟩

theorem Separates.trans (here : Separates before middle region) (there : Separates middle after other)
    (apart : ∀ i, region i → ¬ other i) : Separates before after (fun i => region i ∨ other i) := by
  obtain ⟨early, split, confined, once⟩ := here.log
  obtain ⟨late, split', confined', once'⟩ := there.log
  refine ⟨early ++ late, ?_, ?_, once.append once' confined confined' apart⟩
  · rw [split', split, List.append_assoc]
  · exact (confined.mono fun i => Or.inl).append (confined'.mono fun i => Or.inr)

theorem put_separates (writer : Writer) (bytes : Bytes) :
    Separates writer (writer.put bytes) (Between writer.dataidx (writer.dataidx + bytes.length)) :=
  ⟨[_], rfl, confined_singleton fun _ covers => covers, once_singleton _⟩

theorem fill_separates (writer : Writer) (position : Nat) (bytes : Bytes) :
    Separates writer (writer.fill position bytes) (Between position (position + bytes.length)) :=
  ⟨[_], rfl, confined_singleton fun _ covers => covers, once_singleton _⟩

/-- Writes at the write position, one behind the other. -/
structure Sequential (before after : Writer) : Prop where
  forward : before.dataidx ≤ after.dataidx
  separates : Separates before after (Between before.dataidx after.dataidx)

theorem sequential_self : Sequential writer writer := ⟨le_rfl, separates_of_log rfl⟩

theorem Sequential.trans (here : Sequential before middle) (there : Sequential middle after) : Sequential before after := by
  have forward := here.forward
  have further := there.forward
  refine ⟨forward.trans further, (here.separates.trans there.separates fun i inside beyond => ?_).mono fun i inside => ?_⟩
  · simp only [Between] at inside beyond
    omega
  · simp only [Between] at inside ⊢
    omega

theorem put_sequential (writer : Writer) (bytes : Bytes) : Sequential writer (writer.put bytes) :=
  ⟨Nat.le_add_right _ _, put_separates writer bytes⟩

theorem Sequential.put (here : Sequential before after) (bytes : Bytes) : Sequential before (after.put bytes) :=
  here.trans (put_sequential after bytes)

theorem skip_sequential (writer : Writer) (count : Nat) : Sequential writer (writer.skip count) :=
  ⟨Nat.le_add_right _ _, separates_of_log rfl⟩

theorem register_sequential (writer : Writer) : Sequential writer writer.register := ⟨le_rfl, separates_of_log rfl⟩

theorem serializeMarker_sequential (kind : UInt8) (length : Nat) (writer : Writer) :
    Sequential writer (serializeMarker kind length writer) := by
  unfold serializeMarker
  split
  · exact put_sequential _ _
  · exact ((put_sequential _ _).put _).put _

theorem serializeBytes_sequential (kind : UInt8) (bytes : Bytes) (writer : Writer) :
    Sequential writer (serializeBytes kind bytes writer) := (serializeMarker_sequential kind bytes.length writer).put bytes

theorem serializeString_sequential (value : CString) (writer : Writer) : Sequential writer (serializeString value writer).2 :=
  (register_sequential writer).trans (serializeBytes_sequential _ _ _)

/-- A container is its marker, the space that it reserves for its references, and its children with the references. -/
theorem container_sequential {kind : UInt8} {length reserved : Nat} (children : Separates
      ((serializeMarker kind length writer.register).skip reserved) after
      (Between (serializeMarker kind length writer.register).dataidx after.dataidx))
    (forward : (serializeMarker kind length writer.register).dataidx + reserved ≤ after.dataidx) : Sequential writer after := by
  have marker := (register_sequential writer).trans (serializeMarker_sequential kind length writer.register)
  obtain ⟨later, split, confined, once⟩ := children.log
  exact marker.trans ⟨by omega, later, split, confined, once⟩

mutual

theorem serializeObject_sequential (reflen : Nat) : ∀ (object : Object) (writer : Writer),
    Sequential writer (serializeObject reflen object writer).2
  | .null, writer => (register_sequential writer).put [0]
  | .primitive value, writer => (register_sequential writer).put [PLIST_TYPE_PRIMITIVE ||| value]
  | .integer value, writer => ((register_sequential writer).put _).put _
  | .real value, writer => ((register_sequential writer).put _).put _
  | .date _, writer => register_sequential writer
  | .data value, writer => (register_sequential writer).trans (serializeBytes_sequential _ _ _)
  | .string value, writer => serializeString_sequential value writer
  | .unicodeString _, writer => register_sequential writer
  | .array values, writer => by
    have children := serializeValues_separates reflen values (serializeMarker PLIST_TYPE_ARRAY values.length writer.register).dataidx
      ((serializeMarker PLIST_TYPE_ARRAY values.length writer.register).skip (values.length * reflen)) le_rfl
    rw [serializeObject]
    refine container_sequential (children.2.mono fun i inside => ?_) children.1
    have forward := children.1
    simp only [Between, skip_dataidx] at inside forward ⊢
    omega
  | .dict entries, writer => by
    have children := serializeEntries_separates reflen entries (serializeMarker PLIST_TYPE_DICT entries.length writer.register).dataidx
      ((serializeMarker PLIST_TYPE_DICT entries.length writer.register).dataidx + entries.length * reflen)
      ((serializeMarker PLIST_TYPE_DICT entries.length writer.register).skip (entries.length * reflen + entries.length * reflen))
      le_rfl (by rw [skip_dataidx]; omega)
    rw [serializeObject, skip_skip]
    refine container_sequential (children.2.mono fun i inside => ?_) children.1
    have forward := children.1
    simp only [Between, skip_dataidx] at inside forward ⊢
    omega

/-- The values behind the write position, and their references from a place in front of it on. -/
theorem serializeValues_separates (reflen : Nat) : ∀ (values : List Object) (valueidx : Nat) (writer : Writer),
    valueidx + values.length * reflen ≤ writer.dataidx →
    writer.dataidx ≤ (serializeValues reflen values valueidx writer).dataidx ∧
      Separates writer (serializeValues reflen values valueidx writer) (fun i =>
        Between valueidx (valueidx + values.length * reflen) i ∨
        Between writer.dataidx (serializeValues reflen values valueidx writer).dataidx i)
  | [], _, writer, _ => ⟨le_rfl, separates_of_log rfl⟩
  | value :: values, valueidx, writer, reserved => by
    have here := serializeObject_sequential reflen value writer
    have forward := here.forward
    have slot := fill_separates (serializeObject reflen value writer).2 valueidx
      (serializeInteger reflen (serializeObject reflen value writer).1)
    have unfolded : serializeValues reflen (value :: values) valueidx writer =
        serializeValues reflen values (valueidx + reflen)
          ((serializeObject reflen value writer).2.fill valueidx
            (serializeInteger reflen (serializeObject reflen value writer).1)) := rfl
    simp only [serializeInteger, length_beBytes] at slot
    rw [List.length_cons, Nat.add_one_mul] at reserved ⊢
    rw [unfolded]
    obtain ⟨further, later⟩ := serializeValues_separates reflen values (valueidx + reflen)
      ((serializeObject reflen value writer).2.fill valueidx
        (serializeInteger reflen (serializeObject reflen value writer).1)) (by rw [fill_dataidx]; omega)
    rw [fill_dataidx] at further
    refine ⟨forward.trans further, ?_⟩
    refine ((here.separates.trans slot fun i inside touch => ?_).trans later fun i inside touch => ?_).mono fun i inside => ?_
    · simp only [Between] at inside touch
      omega
    · simp only [Between, fill_dataidx] at inside touch
      omega
    · simp only [Between, fill_dataidx] at inside ⊢
      omega

theorem serializeEntries_separates (reflen : Nat) : ∀ (entries : List (CString × Object)) (keyidx valueidx : Nat)
    (writer : Writer), keyidx + entries.length * reflen ≤ valueidx → valueidx + entries.length * reflen ≤ writer.dataidx →
    writer.dataidx ≤ (serializeEntries reflen entries keyidx valueidx writer).dataidx ∧
      Separates writer (serializeEntries reflen entries keyidx valueidx writer) (fun i =>
        Between keyidx (keyidx + entries.length * reflen) i ∨
        Between valueidx (valueidx + entries.length * reflen) i ∨
        Between writer.dataidx (serializeEntries reflen entries keyidx valueidx writer).dataidx i)
  | [], _, _, writer, _, _ => ⟨le_rfl, separates_of_log rfl⟩
  | (key, value) :: entries, keyidx, valueidx, writer, apart, reserved => by
    have here := (serializeString_sequential key writer).trans (serializeObject_sequential reflen value (serializeString key writer).2)
    have forward := here.forward
    obtain ⟨written, writtenEq⟩ : ∃ written, written = (serializeObject reflen value (serializeString key writer).2).2 := ⟨_, rfl⟩
    obtain ⟨number, numberEq⟩ : ∃ number, number = (serializeObject reflen value (serializeString key writer).2).1 := ⟨_, rfl⟩
    have unfolded : serializeEntries reflen ((key, value) :: entries) keyidx valueidx writer =
        serializeEntries reflen entries (keyidx + reflen) (valueidx + reflen)
          ((written.fill keyidx (serializeInteger reflen (serializeString key writer).1)).fill valueidx
            (serializeInteger reflen number)) := by rw [writtenEq, numberEq]; rfl
    rw [← writtenEq] at here forward
    have keySlot := fill_separates written keyidx (serializeInteger reflen (serializeString key writer).1)
    have valueSlot := fill_separates (written.fill keyidx (serializeInteger reflen (serializeString key writer).1)) valueidx
      (serializeInteger reflen number)
    simp only [serializeInteger, length_beBytes] at keySlot valueSlot
    rw [List.length_cons, Nat.add_one_mul] at apart reserved ⊢
    rw [unfolded]
    obtain ⟨further, later⟩ := serializeEntries_separates reflen entries (keyidx + reflen) (valueidx + reflen)
      ((written.fill keyidx (serializeInteger reflen (serializeString key writer).1)).fill valueidx
        (serializeInteger reflen number)) (by omega) (by rw [fill_dataidx, fill_dataidx]; omega)
    rw [fill_dataidx, fill_dataidx] at further
    refine ⟨forward.trans further, ?_⟩
    refine (((here.separates.trans keySlot fun i inside touch => ?_).trans valueSlot fun i inside touch => ?_).trans later
      fun i inside touch => ?_).mono fun i inside => ?_
    · simp only [Between] at inside touch
      omega
    · simp only [Between] at inside touch
      omega
    · simp only [Between, fill_dataidx] at inside touch
      omega
    · simp only [Between, fill_dataidx] at inside ⊢
      omega

end

theorem serializeTable_sequential (reftab : List Nat) (offlen remaining i : Nat) (writer : Writer) :
    Sequential writer (serializeTable reftab offlen remaining i writer) := by
  induction remaining generalizing i writer with
  | zero => exact sequential_self
  | succ remaining ih =>
    rw [serializeTable]
    exact (put_sequential writer _).trans (ih _ _)

theorem serializeTrailer_sequential (offlen reflen objects reftaboffset : Nat) (writer : Writer) :
    Sequential writer (serializeTrailer offlen reflen objects reftaboffset writer) :=
  (((((skip_sequential writer 6).put _).put _).put _).put _).put _

end Separating

/-- What is written when the loop over the offset table ends after some rounds; its `int` overflows in a tree of `2^31`
objects. -/
def serializeRounds (rounds : Nat) (object : Object) : Writer :=
  let writer := (serializeObject (plan object).reflen object headed).2
  serializeTrailer (plan object).offlen (plan object).reflen (plan object).objects writer.dataidx
    (serializeTable writer.reftab (plan object).offlen rounds 0 writer)

theorem serialize_rounds (object : Object) : serialize object = serializeRounds (plan object).objects object := rfl

/-- Every byte goes into the buffer, no byte over another one, and every object into its own entry of the table. -/
structure Inside (object : Object) (writer : Writer) : Prop where
  log : Confined writer.log (· < (plan object).buflen)
  once : Once writer.log
  reftab : (serializeObject (plan object).reflen object headed).2.reftab.length = (plan object).objects

/-- The encoder stays inside of its buffer and its table for every tree. -/
theorem encoder_inside (object : Object) {rounds : Nat} (ends : rounds ≤ (plan object).objects) :
    Inside object (serializeRounds rounds object) := by
  obtain ⟨objects, -, -, size⟩ := plan_sizes object
  have places := serializeObject_places (plan object).reflen object headed
  have body : (serializeObject (plan object).reflen object headed).2.dataidx = 8 + object.span (plan object).reflen := places.dataidx
  have header : Sequential (Writer.mk [] 0 []) headed := put_sequential _ _
  have table := serializeTable_sequential (serializeObject (plan object).reflen object headed).2.reftab (plan object).offlen
    rounds 0 (serializeObject (plan object).reflen object headed).2
  have all : Sequential (Writer.mk [] 0 []) (serializeRounds rounds object) :=
    ((header.trans (serializeObject_sequential _ object headed)).trans table).trans (serializeTrailer_sequential ..)
  have last : (serializeRounds rounds object).dataidx ≤ (plan object).buflen := by
    have room : rounds * (plan object).offlen ≤ object.count * (plan object).offlen :=
      Nat.mul_le_mul_right _ (objects ▸ ends)
    rw [serializeRounds, serializeTrailer_dataidx, serializeTable_dataidx, body, size, BPLIST_TRAILER_LEN]
    omega
  obtain ⟨later, split, confined, once⟩ := all.separates.log
  rw [List.nil_append] at split
  refine ⟨?_, ?_, ?_⟩
  · rw [split]
    exact confined.mono fun i inside => inside.2.trans_le last
  · rw [split]
    exact once
  · obtain ⟨offsets, registered, length, -⟩ := places.reftab
    rw [registered, objects, ← length]
    rfl

/-- A tree with a missing value and with what only a decoder makes. -/
def foreignTree : Object :=
  .dict [(.ofBuffer (ascii "a"), .array [.null, .date [1, 2, 3]]), (.ofBuffer (ascii "b"), .unicodeString [0, 1])]

theorem foreignTree_inside : 6 ≤ (plan foreignTree).objects ∧ Inside foreignTree (serializeRounds 6 foreignTree) :=
  ⟨by decide, encoder_inside foreignTree (by decide)⟩

end Apsdk.Plist
