import Apsdk.Library.ByteOrder

/-! Composed reads into a buffer. The operation reads again and again, each time
as much as a limit allows that it computes from the outcome of the last read
and the contents of the buffer, until the limit is zero. -/

namespace Library

/-- What one read of the socket yields. -/
inductive Received where
  | bytes (chunk : Bytes)
  | failed
deriving DecidableEq, Repr

/-- How much may be read, after a read with or without an error. -/
abbrev ReadLimit := Bool → Bytes → Nat

inductive ReadState where
  | reading (buffer : Bytes)
  | finished (failed : Bool) (buffer : Bytes)
deriving DecidableEq, Repr

namespace ReadLoop

/-- One round. A socket yields no bytes without an error only when none are asked for. -/
def round (limit : ReadLimit) (buffer : Bytes) : Received → Option ReadState
  | .bytes chunk =>
    if chunk.length ≤ limit false buffer ∧ (chunk = [] → limit false buffer = 0) then
      if chunk = [] ∨ limit false (buffer ++ chunk) = 0 then some (.finished false (buffer ++ chunk))
      else some (.reading (buffer ++ chunk))
    else none
  | .failed => if limit true buffer = 0 then some (.finished true buffer) else some (.reading buffer)

/-- The rounds of an operation, up to the one that ends it. -/
def run (limit : ReadLimit) (buffer : Bytes) : List Received → Option ReadState
  | [] => some (.reading buffer)
  | event :: later =>
    match round limit buffer event with
    | none => none
    | some (.finished failed rest) => some (.finished failed rest)
    | some (.reading buffer) => run limit buffer later

def Ended (state : Option ReadState) : Prop := ∃ failed buffer, state = some (.finished failed buffer)

def arrived : List Received → Nat
  | [] => 0
  | .bytes chunk :: later => chunk.length + arrived later
  | .failed :: later => arrived later

variable {limit : ReadLimit} {total : Nat}

theorem run_reading {buffer grown : Bytes} {event : Received} (taken : round limit buffer event = some (.reading grown))
    (later : List Received) : run limit buffer (event :: later) = run limit grown later := by
  simp only [run, taken]

/-- A read that delivers `chunk` keeps to the limit, and ends the operation when nothing more is asked for. -/
theorem round_bytes {buffer chunk : Bytes} {next : ReadState} (taken : round limit buffer (.bytes chunk) = some next) :
    chunk.length ≤ limit false buffer ∧ (chunk = [] → limit false buffer = 0) ∧
    ((next = .finished false (buffer ++ chunk) ∧ limit false (buffer ++ chunk) = 0) ∨
      (next = .reading (buffer ++ chunk) ∧ chunk ≠ [] ∧ limit false (buffer ++ chunk) ≠ 0)) := by
  simp only [round] at taken
  split_ifs at taken with allowed ended
  · refine ⟨allowed.1, allowed.2, Or.inl ⟨(Option.some.inj taken).symm, ?_⟩⟩
    rcases ended with rfl | ended
    · rw [List.append_nil]
      exact allowed.2 rfl
    · exact ended
  · exact ⟨allowed.1, allowed.2, Or.inr ⟨(Option.some.inj taken).symm, not_or.mp ended⟩⟩

/-- The limit is what is missing of `total`, whether or not an error has occurred. -/
def Exact (limit : ReadLimit) (total start : Nat) : Prop :=
  ∀ failed buffer, start ≤ buffer.length → buffer.length ≤ total → limit failed buffer = total - buffer.length

theorem run_failures {start : Nat} (exactly : Exact limit total start) {buffer : Bytes} (low : start ≤ buffer.length)
    (short : buffer.length < total) (k : Nat) : run limit buffer (List.replicate k .failed) = some (.reading buffer) := by
  induction k with
  | zero => rfl
  | succ k ih =>
    have missing : limit true buffer ≠ 0 := by
      rw [exactly true buffer low (Nat.le_of_lt short)]
      omega
    simp only [List.replicate_succ, run, round, if_neg missing, ih]

theorem round_exact {start : Nat} (exactly : Exact limit total start) {buffer : Bytes} (low : start ≤ buffer.length)
    (short : buffer.length < total) {event : Received} {next : ReadState}
    (taken : round limit buffer event = some next) :
    (∃ grown, next = .reading grown ∧ grown.length = buffer.length + arrived [event] ∧ grown.length < total) ∨
      (∃ full, next = .finished false full ∧ full.length = buffer.length + arrived [event] ∧ full.length = total) := by
  have missing : ∀ failed, limit failed buffer = total - buffer.length := fun failed =>
    exactly failed buffer low (Nat.le_of_lt short)
  cases event with
  | failed =>
    have more : ¬ limit true buffer = 0 := by rw [missing]; omega
    rw [round, if_neg more] at taken
    exact Or.inl ⟨buffer, (Option.some.inj taken).symm, rfl, short⟩
  | bytes chunk =>
    obtain ⟨allowed, -, outcome⟩ := round_bytes taken
    rw [missing] at allowed
    have grown : (buffer ++ chunk).length = buffer.length + arrived [.bytes chunk] := List.length_append
    have size : (buffer ++ chunk).length = buffer.length + chunk.length := List.length_append
    have rest := exactly false (buffer ++ chunk) (by omega) (by omega)
    rcases outcome with ⟨rfl, stop⟩ | ⟨rfl, -, more⟩
    · exact Or.inr ⟨_, rfl, grown, by omega⟩
    · exact Or.inl ⟨_, rfl, grown, by omega⟩

theorem arrived_cons (event : Received) (later : List Received) : arrived (event :: later) = arrived [event] + arrived later := by
  cases event <;> simp only [arrived, Nat.add_zero, Nat.zero_add]

theorem ended_iff_of_exact {start : Nat} (exactly : Exact limit total start) {buffer : Bytes} {arrival : List Received}
    (low : start ≤ buffer.length) (short : buffer.length < total) (ran : run limit buffer arrival ≠ none) :
    (∃ k, Ended (run limit buffer (arrival ++ List.replicate k .failed))) ↔ total ≤ buffer.length + arrived arrival := by
  induction arrival generalizing buffer with
  | nil =>
    refine ⟨fun ⟨k, failed, rest, ended⟩ => ?_, fun enough => ?_⟩
    · rw [List.nil_append, run_failures exactly low short k] at ended
      cases ended
    · simp only [arrived] at enough
      omega
  | cons event later ih =>
    rw [arrived_cons]
    cases taken : round limit buffer event with
    | none => simp only [run, taken, ne_eq, not_true_eq_false] at ran
    | some next =>
      rcases round_exact exactly low short taken with ⟨grown, rfl, size, more⟩ | ⟨full, rfl, size, last⟩
      · simp only [run, taken] at ran
        have rest := ih (by omega) more ran
        simp only [List.cons_append, run, taken]
        rw [rest, size, Nat.add_assoc]
      · refine ⟨fun _ => by omega, fun _ => ⟨0, false, full, ?_⟩⟩
        simp only [List.cons_append, run, taken]

/-- An operation that has nothing to wait for ends with the first round. -/
theorem round_full {buffer : Bytes} (full : ∀ failed, limit failed buffer = 0) {event : Received} {next : ReadState}
    (taken : round limit buffer event = some next) : ∃ failed rest, next = .finished failed rest := by
  cases event with
  | failed =>
    rw [round, if_pos (full true)] at taken
    exact ⟨true, buffer, (Option.some.inj taken).symm⟩
  | bytes chunk =>
    obtain ⟨room, -, ⟨rfl, -⟩ | ⟨-, some_, -⟩⟩ := round_bytes taken
    · exact ⟨false, _, rfl⟩
    · rw [full] at room
      exact absurd (List.length_eq_zero_iff.mp (Nat.le_zero.mp room)) some_

/-- Once the socket only fails, an operation that waits for an exact number of
bytes ends if and only if all of them arrived before. -/
theorem ended_iff {buffer : Bytes} {arrival : List Received} (exactly : Exact limit total buffer.length)
    (short : buffer.length ≤ total) (ran : run limit buffer arrival ≠ none) :
    (∃ k, Ended (run limit buffer (arrival ++ List.replicate k .failed))) ↔ total ≤ buffer.length + arrived arrival := by
  rcases Nat.lt_or_eq_of_le short with less | same
  · exact ended_iff_of_exact exactly le_rfl less ran
  have full : ∀ failed, limit failed buffer = 0 := fun failed => by
    rw [exactly failed buffer le_rfl short, same, Nat.sub_self]
  refine ⟨fun _ => by omega, fun _ => ⟨1, ?_⟩⟩
  cases arrival with
  | nil => exact ⟨true, buffer, by simp [run, round, full]⟩
  | cons event later =>
    cases taken : round limit buffer event with
    | none => simp [run, taken] at ran
    | some next =>
      obtain ⟨failed, rest, rfl⟩ := round_full full taken
      exact ⟨failed, rest, by simp [run, taken]⟩

end ReadLoop
end Library
