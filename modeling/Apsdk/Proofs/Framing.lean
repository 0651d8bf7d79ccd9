import Apsdk.Connection
import Apsdk.Proofs.CountedParse

/-! What one read does to a connection, and the streams of messages it reads from. -/

namespace Apsdk
open Library

/-- A message on the wire. -/
structure Sent where
  head : Bytes
  body : Bytes
deriving DecidableEq, Repr

namespace Sent

def bytes (message : Sent) : Bytes := message.head ++ message.body

/-- The first empty line of the head is at its end. -/
def Headed (message : Sent) : Prop := endOfFirst RNRN_LINE_BREAK message.head = some message.head.length

instance (message : Sent) : Decidable message.Headed := inferInstanceAs (Decidable (_ = _))

theorem Headed.ends {message : Sent} (headed : message.Headed) : RNRN_LINE_BREAK <:+ message.head := by
  simpa only [List.take_length] using (endOfFirst_suffix headed).2

theorem Headed.head_pos {message : Sent} (headed : message.Headed) : 0 < message.head.length :=
  Nat.lt_of_lt_of_le (by decide) headed.ends.length_le

/-- A buffer at the beginning of a message shows the empty line once the whole head is in it. -/
theorem Headed.found {message : Sent} (headed : message.Headed) {buffer rest : Bytes}
    (begins : buffer <+: message.head ++ rest) :
    endOfFirst RNRN_LINE_BREAK buffer = if message.head.length ≤ buffer.length then some message.head.length else none := by
  split_ifs with long
  · obtain ⟨left, rfl⟩ := List.prefix_of_prefix_length_le (List.prefix_append message.head rest) begins long
    exact endOfFirst_append headed left
  · cases found : endOfFirst RNRN_LINE_BREAK buffer with
    | none => rfl
    | some n =>
      obtain ⟨left, same⟩ := List.prefix_of_prefix_length_le begins (List.prefix_append message.head rest)
        (Nat.le_of_not_le long)
      have again := endOfFirst_append found left
      rw [same, headed] at again
      have bound := (endOfFirst_suffix found).1
      have := Option.some.inj again
      omega

end Sent

def stream (messages : List Sent) : Bytes := messages.flatMap Sent.bytes

@[simp] theorem stream_nil : stream [] = [] := rfl

@[simp] theorem stream_cons (message : Sent) (rest : List Sent) :
    stream (message :: rest) = message.head ++ (message.body ++ stream rest) := by
  simp only [stream, List.flatMap_cons, Sent.bytes, List.append_assoc]

@[simp] theorem stream_append (first second : List Sent) : stream (first ++ second) = stream first ++ stream second :=
  List.flatMap_append

/-- Some read of the cut stream ends at offset `n`. -/
def Mark (cuts : List Bytes) (n : Nat) : Prop := ∃ reads later, cuts = reads ++ later ∧ reads.flatten.length = n

theorem mark_append (cuts : List Bytes) (chunk : Bytes) (n : Nat) :
    Mark (cuts ++ [chunk]) n ↔ Mark cuts n ∨ n = (cuts ++ [chunk]).flatten.length := by
  constructor
  · rintro ⟨reads, later, same, rfl⟩
    rcases List.eq_nil_or_concat later with rfl | ⟨front, last, rfl⟩
    · exact Or.inr (by rw [same, List.append_nil])
    · rw [List.concat_eq_append, ← List.append_assoc] at same
      exact Or.inl ⟨reads, front, (List.append_inj' same rfl).1, rfl⟩
  · rintro (⟨reads, later, rfl, rfl⟩ | rfl)
    · exact ⟨reads, later ++ [chunk], by rw [List.append_assoc], rfl⟩
    · exact ⟨cuts ++ [chunk], [], by rw [List.append_nil], rfl⟩

theorem Mark.le {cuts : List Bytes} {n : Nat} (mark : Mark cuts n) : n ≤ cuts.flatten.length := by
  obtain ⟨reads, later, rfl, rfl⟩ := mark
  rw [List.flatten_append, List.length_append]
  exact Nat.le_add_right _ _

theorem mark_end (cuts : List Bytes) : Mark cuts cuts.flatten.length := ⟨cuts, [], (List.append_nil _).symm, rfl⟩

theorem sizeSub_of_le {c n : Nat} (bound : c < 2 ^ 64) (le : n ≤ c) : sizeSub c n = c - n := by
  have small : n % 2 ^ 64 = n := Nat.mod_eq_of_lt (Nat.lt_of_le_of_lt le bound)
  simp only [sizeSub, small]
  omega

theorem sizeSub_of_lt {c n : Nat} (lt : c < n) (bound : n < 2 ^ 64) : sizeSub c n = 2 ^ 64 - (n - c) := by
  have small : n % 2 ^ 64 = n := Nat.mod_eq_of_lt bound
  simp only [sizeSub, small]
  omega

namespace Connection
variable {reverses : Request → Bool} {conn next : Connection} {chunk : Bytes} {processed : List Processed}

theorem streambufConsume_of_lt {buffer : Bytes} {n : Nat} (short : min n buffer.length < 2 ^ 31) :
    streambufConsume buffer n = some (buffer.drop n) := by
  have moved : min n buffer.length % 2 ^ 32 = min n buffer.length := Nat.mod_eq_of_lt (by omega)
  have dropped : buffer.drop (min n buffer.length) = buffer.drop n := by
    rcases le_total n buffer.length with within | beyond
    · rw [min_eq_left within]
    · rw [min_eq_right beyond, List.drop_length, List.drop_eq_nil_of_le beyond]
  simp only [streambufConsume, moved, if_pos short, dropped]

theorem headReceived_accepted {n : Nat} {parsed : Connection} {left : Bytes}
    (accepted : conn.parseHead (conn.inStream.take n) = some (true, parsed))
    (consumed : streambufConsume conn.inStream n = some left) :
    conn.headReceived reverses n = { parsed with inStream := left }.headAccepted reverses := by
  simp only [headReceived, accepted, consumed]

/-- A head that is not accepted, or that `int` counters have no room for, ends the reading. -/
theorem headReceived_cases (reverses : Request → Bool) (conn : Connection) (n : Nat) :
    (∃ accepted left, conn.parseHead (conn.inStream.take n) = some (true, accepted) ∧
      conn.headReceived reverses n = { accepted with inStream := left }.headAccepted reverses) ∨
    (∃ other, (other = conn ∨ ∃ verdict, conn.parseHead (conn.inStream.take n) = some (verdict, other)) ∧
      (conn.headReceived reverses n = (other.stop, []) ∨ conn.headReceived reverses n = (other.undefined, []))) := by
  rw [headReceived]
  cases parsed : conn.parseHead (conn.inStream.take n) with
  | none => exact Or.inr ⟨conn, Or.inl rfl, Or.inr rfl⟩
  | some outcome =>
    obtain ⟨verdict, other⟩ := outcome
    cases verdict with
    | false => exact Or.inr ⟨other, Or.inr ⟨false, rfl⟩, Or.inl rfl⟩
    | true =>
      cases consumed : streambufConsume conn.inStream n with
      | none => exact Or.inr ⟨other, Or.inr ⟨true, rfl⟩, Or.inr rfl⟩
      | some left => exact Or.inl ⟨other, left, rfl, rfl⟩

/-- A buffer that an `int` can count is taken whole. -/
theorem deliver_of_lt (short : conn.inStream.length < 2 ^ 31) :
    conn.deliver reverses = { conn.assignContent with inStream := [] }.process reverses := by
  simp only [deliver, streambufConsume_of_lt (lt_of_le_of_lt (min_le_right ..) short), List.drop_length]

theorem deliver_cases (reverses : Request → Bool) (conn : Connection) :
    (∃ left, conn.deliver reverses = { conn.assignContent with inStream := left }.process reverses) ∨
    (conn.inStream ≠ [] ∧ (conn.deliver reverses).1 = (conn.assignContent.process reverses).1.undefined) := by
  rw [deliver]
  cases consumed : streambufConsume conn.inStream conn.inStream.length with
  | some left => exact Or.inl ⟨left, rfl⟩
  | none =>
    refine Or.inr ⟨?_, rfl⟩
    intro empty
    simp [empty, streambufConsume] at consumed

/-- The message is handed over with the whole buffer, however long it is. -/
theorem deliver_processed : (conn.deliver reverses).2 = (conn.assignContent.process reverses).2 := by
  rw [deliver]
  cases streambufConsume conn.inStream conn.inStream.length with
  | none => rfl
  | some inStream =>
    simp only [process]
    split_ifs <;> rfl

/-- The buffer is empty afterwards only if an `int` can count it. -/
theorem deliver_inStream : (conn.deliver reverses).1.inStream = [] ↔ conn.inStream.length < 2 ^ 31 := by
  have kept : ∀ other : Connection, (other.assignContent.process reverses).1.inStream = other.inStream := by
    intro other
    simp only [assignContent, process, processResponse, processRequest, postReceiveMessageHead]
    split_ifs <;> rfl
  by_cases short : conn.inStream.length < 2 ^ 31
  · refine iff_of_true ?_ short
    rw [deliver_of_lt short]
    simp only [process, processResponse, processRequest, postReceiveMessageHead]
    split_ifs <;> rfl
  · refine iff_of_false (fun empty => ?_) short
    rw [deliver] at empty
    cases consumed : streambufConsume conn.inStream conn.inStream.length with
    | none =>
      simp only [consumed] at empty
      have whole : conn.inStream = [] := (kept conn).symm.trans empty
      simp [whole] at short
    | some left =>
      simp only [consumed] at empty
      have nothing : left = [] := by
        simp only [process, processResponse, processRequest, postReceiveMessageHead] at empty
        split_ifs at empty <;> exact empty
      simp only [streambufConsume, min_self] at consumed
      split_ifs at consumed with moved
      rw [← Option.some.inj consumed, List.drop_eq_nil_iff] at nothing
      omega

/-- A read for a head completes it, leaves it open, or fills the buffer without one. -/
theorem step_head (pending : conn.pending = .head) (taken : step reverses conn (.bytes chunk) = some (next, processed)) :
    ((endOfFirst RNRN_LINE_BREAK conn.inStream).isSome → chunk = []) ∧
    chunk.length ≤ streambufMaxSize - conn.inStream.length ∧
    ((∃ n, endOfFirst RNRN_LINE_BREAK (conn.inStream ++ chunk) = some n ∧
        (next, processed) = { conn with inStream := conn.inStream ++ chunk }.headReceived reverses n) ∨
      (endOfFirst RNRN_LINE_BREAK (conn.inStream ++ chunk) = none ∧ chunk ≠ [] ∧
        next = { conn with inStream := conn.inStream ++ chunk } ∧ processed = []) ∨
      (endOfFirst RNRN_LINE_BREAK (conn.inStream ++ chunk) = none ∧
        streambufMaxSize ≤ (conn.inStream ++ chunk).length ∧
        next = { conn with inStream := conn.inStream ++ chunk }.stop ∧ processed = [])) := by
  obtain ⟨request, response, isReversed, inStream, parser, phase⟩ := conn
  obtain rfl : phase = .head := pending
  simp only [step] at taken
  obtain ⟨state, round, result⟩ := Option.bind_eq_some_iff.mp taken
  obtain ⟨allowed, -, outcome⟩ := ReadLoop.round_bytes round
  refine ⟨fun found => ?_, allowed.trans ?_, ?_⟩
  · simp only [headLimit, found, Bool.or_true, if_true] at allowed
    exact List.length_eq_zero_iff.mp (Nat.le_zero.mp allowed)
  · simp only [headLimit]
    split_ifs
    · exact Nat.zero_le _
    · exact le_rfl
  · rcases outcome with ⟨rfl, full⟩ | ⟨rfl, some_, more⟩
    · simp only [onMessageHeadReceived, Option.pure_def, Option.some.injEq, Bool.false_eq_true, if_false] at result
      cases found : endOfFirst RNRN_LINE_BREAK (inStream ++ chunk) with
      | some n => exact Or.inl ⟨n, rfl, by simpa only [found] using result.symm⟩
      | none =>
        simp only [found, Prod.mk.injEq] at result
        simp only [headLimit, found, Option.isSome_none, Bool.or_false, Bool.false_eq_true, if_false] at full
        exact Or.inr (Or.inr ⟨rfl, Nat.le_of_sub_eq_zero full, result.1.symm, result.2.symm⟩)
    · simp only [Option.pure_def, Option.some.injEq, Prod.mk.injEq] at result
      refine Or.inr (Or.inl ⟨?_, some_, result.1.symm, result.2.symm⟩)
      by_contra found
      simp [headLimit, Option.isSome_iff_ne_none.mpr found] at more

/-- Once the buffer holds an empty line, an empty read completes the head. -/
theorem step_head_found (pending : conn.pending = .head) {n : Nat}
    (found : endOfFirst RNRN_LINE_BREAK conn.inStream = some n) : step reverses conn (.bytes []) ≠ none := by
  simp [step, pending, ReadLoop.round, headLimit, found]

/-- While the buffer holds no more than the body, a read asks for what is missing of it. -/
theorem bodyLimit_of_le {buffer : Bytes} {failed : Bool} (bound : conn.request.contentLength < 2 ^ 64)
    (le : buffer.length ≤ conn.request.contentLength) :
    conn.bodyLimit failed buffer = conn.request.contentLength - buffer.length := by
  simp only [bodyLimit, bodyCompletionCondition, sizeSub_of_le bound le, streambufMaxSize]
  omega

/-- Beyond the body, a read asks for all that the buffer can take. -/
theorem bodyLimit_of_lt {buffer : Bytes} {failed : Bool} (lt : conn.request.contentLength < buffer.length)
    (small : buffer.length ≤ streambufMaxSize) :
    conn.bodyLimit failed buffer = streambufMaxSize - buffer.length := by
  simp only [streambufMaxSize] at small
  simp only [bodyLimit, bodyCompletionCondition, sizeSub_of_lt lt (by omega), streambufMaxSize]
  omega

/-- A read for a body takes at most what the completion condition allows, and
the body is what the buffer holds when it allows no more. -/
theorem step_content (pending : conn.pending = .content)
    (taken : step reverses conn (.bytes chunk) = some (next, processed)) :
    chunk.length ≤ conn.bodyLimit false conn.inStream ∧ (chunk = [] → conn.bodyLimit false conn.inStream = 0) ∧
    ((conn.bodyLimit false (conn.inStream ++ chunk) = 0 ∧
        (next, processed) = { conn with inStream := conn.inStream ++ chunk }.deliver reverses) ∨
      (conn.bodyLimit false (conn.inStream ++ chunk) ≠ 0 ∧
        next = { conn with inStream := conn.inStream ++ chunk } ∧ processed = [])) := by
  obtain ⟨request, response, isReversed, inStream, parser, phase⟩ := conn
  obtain rfl : phase = .content := pending
  simp only [step] at taken
  obtain ⟨state, round, result⟩ := Option.bind_eq_some_iff.mp taken
  obtain ⟨allowed, asked, outcome⟩ := ReadLoop.round_bytes round
  refine ⟨allowed, asked, ?_⟩
  rcases outcome with ⟨rfl, ended⟩ | ⟨rfl, -, more⟩
  · simp only [onMessageContentReceived, Option.pure_def, Option.some.injEq, Bool.false_eq_true, if_false] at result
    exact Or.inl ⟨ended, result.symm⟩
  · simp only [Option.pure_def, Option.some.injEq, Prod.mk.injEq] at result
    exact Or.inr ⟨more, result.1.symm, result.2.symm⟩

end Connection
end Apsdk
