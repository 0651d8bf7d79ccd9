import Apsdk.Proofs.PlistRoundTrip

/-! The pass that measures a tree and the one that writes it agree but for dicts whose
markers are measured with twice their sizes. The offset table is written in a loop
that counts in an `int`. -/

namespace Apsdk.Plist
open Library

section Position

theorem serializeTable_dataidx (reftab : List Nat) (offlen remaining i : Nat) (writer : Writer) :
    (serializeTable reftab offlen remaining i writer).dataidx = writer.dataidx + remaining * offlen := by
  induction remaining generalizing i writer with
  | zero => rw [serializeTable, Nat.zero_mul, Nat.add_zero]
  | succ remaining ih =>
    rw [serializeTable, ih, Nat.add_one_mul]
    simp only [Writer.put, serializeInteger, length_beBytes]
    omega

theorem serializeTrailer_dataidx (offlen reflen objects reftaboffset : Nat) (writer : Writer) :
    (serializeTrailer offlen reflen objects reftaboffset writer).dataidx = writer.dataidx + BPLIST_TRAILER_LEN := by
  have written := (serializeTrailer_appends offlen reflen objects reftaboffset writer).dataidx
  simp only [trailerBytes, List.length_append, length_beBytes, skip_dataidx] at written
  rw [written]
  rfl

/-- What is measured in excess is not written. -/
theorem serialize_dataidx (object : Object) : (serialize object).dataidx + object.slack = (plan object).buflen := by
  obtain ⟨objects, -, -, size⟩ := plan_sizes object
  have body : (serializeObject (plan object).reflen object headed).2.dataidx = 8 + object.span (plan object).reflen :=
    (serializeObject_places (plan object).reflen object headed).dataidx
  have ends : (serialize object).dataidx = (serializeTable (serializeObject (plan object).reflen object headed).2.reftab
      (plan object).offlen (plan object).objects 0 (serializeObject (plan object).reflen object headed).2).dataidx +
      BPLIST_TRAILER_LEN := serializeTrailer_dataidx ..
  rw [ends, serializeTable_dataidx, body, objects, size, BPLIST_TRAILER_LEN]
  omega

end Position

/-- The position behind the trailer. The loop over the offset table counts in an `int`, so that it is defined for fewer
than `2^31` objects. -/
def bufidx (object : Object) : Option Nat :=
  if (plan object).objects < 2 ^ 31 then some (serialize object).dataidx else none

/-- The two passes agree, and the trailer is where the decoder looks for it. -/
structure Agrees (object : Object) : Prop where
  bufidx : bufidx object = some (plan object).buflen
  trailer : At (buffer (plan object).buflen (serialize object).log) ((plan object).buflen - BPLIST_TRAILER_LEN + 6)
    (trailerBytes (plan object).offlen (plan object).reflen (plan object).objects
      (serializeObject (plan object).reflen object headed).2.dataidx)

theorem built_present {object : Object} (built : object.Everywhere Built) : object.isNull = false := by
  cases object with
  | null => exact built.elim
  | _ => rfl

/-- For every tree of the public constructors, the two passes agree just when it has fewer than `2^31` objects and no
dict of 128 to 255 or 32768 to 65535 entries. -/
theorem passes_agree_iff (object : Object) (built : object.Everywhere Built) :
    Agrees object ↔ (plan object).objects < 2 ^ 31 ∧ object.Everywhere DictMeasured := by
  obtain ⟨objects, -, -, size⟩ := plan_sizes object
  have ends := serialize_dataidx object
  constructor
  · intro agrees
    have reached := agrees.bufidx
    rw [bufidx] at reached
    split_ifs at reached with few
    have tight : object.slack = 0 := by
      have same := Option.some.inj reached
      omega
    exact ⟨few, (slack_eq_zero_iff object (by omega)).mp tight⟩
  · intro ⟨few, measured⟩
    have tight := (slack_eq_zero_iff object (by omega)).mpr measured
    obtain ⟨offsets, encoded⟩ := toBplist_encoded (@toBplist_generous object generousHost (fun _ _ => rfl) (built_present built))
    have body : (serializeObject (plan object).reflen object headed).2.dataidx = 8 + object.span (plan object).reflen :=
      (serializeObject_places (plan object).reflen object headed).dataidx
    refine ⟨?_, ?_⟩
    · rw [bufidx, if_pos few]
      exact congrArg some (by omega)
    · have position : (plan object).buflen - BPLIST_TRAILER_LEN + 6 =
          8 + object.span (plan object).reflen + object.count * (plan object).offlen + 6 := by
        rw [size, tight, BPLIST_TRAILER_LEN]
        omega
      rw [position, objects, body]
      exact encoded.trailer

theorem sampleTree_passes_agree :
    Agrees sampleTree ↔ (plan sampleTree).objects < 2 ^ 31 ∧ sampleTree.Everywhere DictMeasured :=
  passes_agree_iff sampleTree ⟨trivial, ⟨trivial, trivial, trivial, trivial⟩, trivial⟩

def largeDict : Object := .dict (List.replicate 128 (.ofBuffer (ascii "k"), .integer 1))

/-- A dict of 128 entries is measured with one byte more than it takes. -/
theorem large_dict_disagrees : largeDict.Everywhere Built ∧ ¬ Agrees largeDict := by
  constructor
  · have all : ∀ count, EntriesEverywhere Built (List.replicate count (.ofBuffer (ascii "k"), .integer 1)) := by
      intro count
      induction count with
      | zero => trivial
      | succ count ih => exact ⟨trivial, ih⟩
    exact ⟨trivial, all 128⟩
  · intro agrees
    have excess : largeDict.slack = 1 := by decide +kernel
    have ends := serialize_dataidx largeDict
    have reached := agrees.bufidx
    rw [bufidx] at reached
    split_ifs at reached
    have same := Option.some.inj reached
    omega

end Apsdk.Plist
