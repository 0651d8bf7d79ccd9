import Apsdk.Library.ByteOrder
import Mathlib.Data.List.Basic

/-! A zeroed memory that is written piece by piece, and byte strings found in it. -/

namespace Library

structure Write where
  position : Nat
  bytes : Bytes
deriving DecidableEq, Repr

namespace Write

def Covers (write : Write) (i : Nat) : Prop := write.position ≤ i ∧ i < write.position + write.bytes.length

instance (write : Write) (i : Nat) : Decidable (write.Covers i) := inferInstanceAs (Decidable (_ ∧ _))

/-- The bytes of a write replace what was there before. -/
def onto (write : Write) (before : Nat → UInt8) (i : Nat) : UInt8 :=
  if write.Covers i then write.bytes.getD (i - write.position) 0 else before i

end Write

/-- What a sequence of writes leaves at each place. -/
def memory (log : List Write) : Nat → UInt8 := log.foldl (fun before write => write.onto before) fun _ => 0

/-- The first bytes of the memory. -/
def buffer (size : Nat) (log : List Write) : Bytes := (List.range size).map (memory log)

/-- Every write of a log stays inside of a region. -/
def Confined (log : List Write) (region : Nat → Prop) : Prop := ∀ write ∈ log, ∀ i, write.Covers i → region i

section Memory
variable {log later : List Write} {region wider : Nat → Prop}

theorem memory_concat (log : List Write) (write : Write) : memory (log ++ [write]) = write.onto (memory log) := by
  simp only [memory, List.foldl_append, List.foldl_cons, List.foldl_nil]

theorem memory_written (log : List Write) (position : Nat) (bytes : Bytes) {i : Nat} (inside : i < bytes.length) :
    memory (log ++ [⟨position, bytes⟩]) (position + i) = bytes[i] := by
  have covers : Write.Covers ⟨position, bytes⟩ (position + i) := ⟨Nat.le_add_right .., Nat.add_lt_add_left inside _⟩
  rw [memory_concat, Write.onto, if_pos covers]
  simp only [Nat.add_sub_cancel_left, List.getD_eq_getElem?_getD, List.getElem?_eq_getElem inside, Option.getD_some]

/-- Writes to other places do not matter. -/
theorem memory_append_of_confined (log : List Write) (confined : Confined later region) {i : Nat} (outside : ¬ region i) :
    memory (log ++ later) i = memory log i := by
  induction later generalizing log with
  | nil => rw [List.append_nil]
  | cons write rest ih =>
    have apart : ¬ write.Covers i := fun covers => outside (confined write List.mem_cons_self i covers)
    have rest_confined : Confined rest region := fun other member => confined other (List.mem_cons_of_mem _ member)
    rw [List.append_cons, ih (log ++ [write]) rest_confined, memory_concat, Write.onto, if_neg apart]

theorem confined_nil : Confined [] region := fun _ member => nomatch member

theorem confined_singleton {write : Write} (covered : ∀ i, write.Covers i → region i) : Confined [write] region := by
  intro other member
  obtain rfl := List.mem_singleton.mp member
  exact covered

theorem Confined.mono (confined : Confined log region) (included : ∀ i, region i → wider i) : Confined log wider :=
  fun write member i covers => included i (confined write member i covers)

theorem Confined.append (first : Confined log region) (second : Confined later region) : Confined (log ++ later) region := by
  intro write member
  cases List.mem_append.mp member with
  | inl early => exact first write early
  | inr late => exact second write late

end Memory

/-- No place is covered by both writes. -/
def Write.Apart (first second : Write) : Prop := ∀ i, first.Covers i → ¬ second.Covers i

/-- No place is written twice. -/
def Once (log : List Write) : Prop := log.Pairwise Write.Apart

theorem once_nil : Once [] := List.Pairwise.nil

theorem once_singleton (write : Write) : Once [write] := List.pairwise_singleton _ _

/-- Logs that stay in disjoint regions. -/
theorem Once.append {first later : List Write} {region other : Nat → Prop} (here : Once first) (there : Once later)
    (confined : Confined first region) (confined' : Confined later other) (apart : ∀ i, region i → ¬ other i) :
    Once (first ++ later) := by
  refine List.pairwise_append.mpr ⟨here, there, fun write early write' late i covers covers' => ?_⟩
  exact apart i (confined write early i covers) (confined' write' late i covers')

/-- A byte string stands at a position of the data. -/
structure At (data : Bytes) (position : Nat) (bytes : Bytes) : Prop where
  inside : position + bytes.length ≤ data.length
  bytes : ∀ i (below : i < bytes.length), data[position + i]? = some bytes[i]

namespace At
variable {data first second bytes : Bytes} {position : Nat}

theorem slice (found : At data position bytes) : (data.drop position).take bytes.length = bytes := by
  apply List.ext_getElem?
  intro i
  by_cases below : i < bytes.length
  · rw [List.getElem?_take_of_lt below, List.getElem?_drop, found.bytes i below, List.getElem?_eq_getElem below]
  · rw [List.getElem?_take_eq_none (Nat.not_lt.mp below), List.getElem?_eq_none (Nat.not_lt.mp below)]

theorem left (found : At data position (first ++ second)) : At data position first := by
  have inside := found.inside
  rw [List.length_append] at inside
  refine ⟨by omega, fun i below => ?_⟩
  rw [found.bytes i (by rw [List.length_append]; omega), List.getElem_append_left below]

theorem right (found : At data position (first ++ second)) : At data (position + first.length) second := by
  have inside := found.inside
  rw [List.length_append] at inside
  refine ⟨by omega, fun i below => ?_⟩
  rw [Nat.add_assoc, found.bytes (first.length + i) (by rw [List.length_append]; omega)]
  simp only [List.getElem_append_right' first below, Nat.add_comm]

theorem append (here : At data position first) (there : At data (position + first.length) second) :
    At data position (first ++ second) := by
  have inside := there.inside
  refine ⟨by rw [List.length_append]; omega, fun i below => ?_⟩
  by_cases early : i < first.length
  · rw [here.bytes i early, List.getElem_append_left early]
  · have late : i - first.length < second.length := by rw [List.length_append] at below; omega
    rw [List.getElem_append_right (Nat.not_lt.mp early), ← there.bytes _ late]
    congr 1
    omega

theorem head {byte : UInt8} {rest : Bytes} (found : At data position (byte :: rest)) : data[position]? = some byte :=
  found.bytes 0 (Nat.zero_lt_succ _)

theorem tail {byte : UInt8} {rest : Bytes} (found : At data position (byte :: rest)) : At data (position + 1) rest :=
  (show At data position ([byte] ++ rest) from found).right

end At

end Library
