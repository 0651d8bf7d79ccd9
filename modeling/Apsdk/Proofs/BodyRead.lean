import Apsdk.Connection

/-! The read for a message body. Its completion condition asks for the rest of
the body whatever has become of the socket, so that a peer that closes early
leaves the read asking for good. -/

namespace Apsdk
open Library

namespace Connection
variable (reverses : Request → Bool)

/-- What `on_message_content_received` leaves behind, when the read for the body ends within the given events. -/
def contentRead (conn : Connection) (events : List Received) : Option (Connection × List Processed) :=
  match ReadLoop.run conn.bodyLimit conn.inStream events with
  | some (.finished failed inStream) => some ({ conn with inStream }.onMessageContentReceived reverses failed)
  | _ => none

variable {reverses} {conn next : Connection} {event : Received} {processed : List Processed}

/-- A step of the connection either is the one that ends the read, or goes on with it. -/
theorem step_contentRead (pending : conn.pending = .content)
    (taken : step reverses conn event = some (next, processed)) (later : List Received) :
    conn.contentRead reverses (event :: later) = some (next, processed) ∨
      (next.pending = .content ∧ processed = [] ∧
        conn.contentRead reverses (event :: later) = next.contentRead reverses later) := by
  obtain ⟨request, response, isReversed, inStream, parser, phase⟩ := conn
  obtain rfl : phase = .content := pending
  simp only [step] at taken
  obtain ⟨state, round, result⟩ := Option.bind_eq_some_iff.mp taken
  cases state with
  | finished failed buffer =>
    refine Or.inl ?_
    simp only [contentRead, ReadLoop.run, round]
    exact result
  | reading buffer =>
    obtain ⟨rfl, rfl⟩ := Prod.mk.inj (Option.some.inj result)
    refine Or.inr ⟨rfl, rfl, ?_⟩
    simp only [contentRead, ReadLoop.run, round]
    rfl

/-- The buffer size at which the read ends. -/
def enough (conn : Connection) : Nat :=
  if conn.inStream.length < conn.request.contentLength then conn.request.contentLength else streambufMaxSize

theorem bodyLimit_exact (length : conn.request.contentLength < 2 ^ 64)
    (differs : conn.inStream.length ≠ conn.request.contentLength) :
    ReadLoop.Exact conn.bodyLimit conn.enough conn.inStream.length := by
  intro failed buffer low high
  simp only [enough] at high ⊢
  split_ifs at high ⊢ with short
  · simp only [bodyLimit, bodyCompletionCondition, sizeSub, streambufMaxSize]
    omega
  · simp only [streambufMaxSize] at high
    simp only [bodyLimit, bodyCompletionCondition, sizeSub, streambufMaxSize]
    omega

theorem contentRead_isSome (events : List Received) :
    (conn.contentRead reverses events).isSome ↔ ReadLoop.Ended (ReadLoop.run conn.bodyLimit conn.inStream events) := by
  simp only [contentRead, ReadLoop.Ended]
  split
  next failed buffer ended => exact ⟨fun _ => ⟨failed, buffer, ended⟩, fun _ => rfl⟩
  next running =>
    exact ⟨fun ended => (nomatch ended), fun ⟨failed, buffer, ended⟩ => absurd ended (running failed buffer)⟩

@[simp] theorem postReceiveMessageContent_inStream : conn.postReceiveMessageContent.inStream = conn.inStream := by
  simp only [postReceiveMessageContent]
  split <;> rfl

@[simp] theorem postReceiveMessageContent_contentLength :
    conn.postReceiveMessageContent.request.contentLength = conn.request.contentLength := by
  simp only [postReceiveMessageContent]
  split <;> rfl

/-- Once the stream has ended, the read for a body ends if and only if what
arrived before makes up the body, or fills the buffer when more than the body
was in it from the start. -/
theorem body_read_ends_iff (length : conn.request.contentLength < 2 ^ 64)
    (differs : conn.inStream.length ≠ conn.request.contentLength) (room : conn.inStream.length ≤ streambufMaxSize)
    {arrival : List Received}
    (ran : ReadLoop.run conn.postReceiveMessageContent.bodyLimit conn.inStream arrival ≠ none) :
    (∃ k, (conn.postReceiveMessageContent.contentRead reverses (arrival ++ List.replicate k .failed)).isSome) ↔
      conn.enough ≤ conn.inStream.length + ReadLoop.arrived arrival := by
  have short : conn.inStream.length ≤ conn.enough := by
    simp only [enough]
    split_ifs <;> omega
  have exactly : ReadLoop.Exact conn.postReceiveMessageContent.bodyLimit conn.enough conn.inStream.length := by
    have posted := @bodyLimit_exact conn.postReceiveMessageContent
      (by rwa [postReceiveMessageContent_contentLength])
      (by rwa [postReceiveMessageContent_contentLength, postReceiveMessageContent_inStream])
    simpa only [enough, postReceiveMessageContent_contentLength, postReceiveMessageContent_inStream] using posted
  simp only [contentRead_isSome, postReceiveMessageContent_inStream]
  exact ReadLoop.ended_iff exactly short ran

/-- A connection that has read a head with the given Content-Length, and nothing behind it. -/
def announced (length : Nat) : Connection := start length 0

/-- The peer announces ten bytes and closes after three: the read goes on for good. -/
theorem closed_body_read_endless :
    ¬ ∃ k, ((announced 10).postReceiveMessageContent.contentRead (fun _ => false)
      ([.bytes [1, 2, 3]] ++ List.replicate k .failed)).isSome := by
  rintro ⟨k, ended⟩
  have first : ReadLoop.round (announced 10).postReceiveMessageContent.bodyLimit [] (.bytes [1, 2, 3]) =
      some (.reading [1, 2, 3]) := by decide +kernel
  have exactly := @bodyLimit_exact (announced 10).postReceiveMessageContent (by decide) (by decide)
  have rest := @ReadLoop.run_failures _ _ _ exactly [1, 2, 3] (by decide) (by decide) k
  obtain ⟨failed, buffer, finished⟩ := (contentRead_isSome _).mp ended
  rw [postReceiveMessageContent_inStream, show (announced 10).inStream = [] from rfl, List.singleton_append,
    ReadLoop.run_reading first, rest] at finished
  cases finished

/-- The ten bytes arrive in two reads, with an error in between. -/
theorem whole_body_read_ends :
    ∃ k, ((announced 10).postReceiveMessageContent.contentRead (fun _ => false)
      ([.bytes [1, 2, 3], .failed, .bytes [4, 5, 6, 7, 8, 9, 10]] ++ List.replicate k .failed)).isSome :=
  (body_read_ends_iff (by decide) (by decide) (by decide) (by decide +kernel)).mpr (by decide)

end Connection
end Apsdk
