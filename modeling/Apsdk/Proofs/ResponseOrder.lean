import Apsdk.ResponseSender

/-! The bytes on the wire. As long as responses are posted one after the other,
what has been sent and what is still buffered make up the posted responses. A
response posted while a write is pending starts a second write of the same bytes. -/

namespace Apsdk.Sender
open Library

/-- The bytes of the posted responses. -/
def bytesPosted (trace : List SendEvent) : Bytes := (posted trace).flatMap Response.serialize

theorem bytesPosted_append (first second : List SendEvent) :
    bytesPosted (first ++ second) = bytesPosted first ++ bytesPosted second := by
  simp [bytesPosted, posted]

@[simp] theorem bytesPosted_post (res : Response) (later : List SendEvent) :
    bytesPosted (.postSendResponse res :: later) = res.serialize ++ bytesPosted later := rfl

@[simp] theorem bytesPosted_wrote (index count : Nat) (later : List SendEvent) :
    bytesPosted (.wroteSome index count :: later) = bytesPosted later := rfl

theorem serialize_ne_nil (res : Response) : res.serialize ≠ [] := by simp [Response.serialize, CHAR_BLANK]

/-- At most one write is pending, and it is sending all that is buffered. -/
inductive Tidy (all wire : Bytes) : Sender → Prop
  | idle {outStream : Bytes} (whole : wire ++ outStream = all) : Tidy all wire ⟨outStream, []⟩
  | busy {before data : Bytes} {transferred : Nat} (whole : before ++ data = all)
    (sent : wire = before ++ data.take transferred) (unfinished : transferred < data.length) :
    Tidy all wire ⟨data, [⟨data, transferred⟩]⟩

theorem Tidy.sent_prefix {all wire : Bytes} {sender : Sender} (tidy : Tidy all wire sender) : wire <+: all := by
  cases tidy with
  | idle whole => exact ⟨_, whole⟩
  | @busy before data transferred whole sent unfinished =>
    refine ⟨data.drop transferred, ?_⟩
    rw [sent, List.append_assoc, List.take_append_drop, whole]

variable {all wire sent : Bytes} {sender next : Sender}

theorem Tidy.post (tidy : Tidy all wire sender) (idle : sender.writes = []) (res : Response) :
    Tidy (all ++ res.serialize) wire (sender.postSendResponse res) := by
  cases tidy with
  | @idle outStream whole =>
    have grown := List.length_pos_of_ne_nil (serialize_ne_nil res)
    refine @Tidy.busy _ _ wire _ 0 ?_ ?_ ?_
    · rw [← whole, List.append_assoc]
    · rw [List.take_zero, List.append_nil]
    · rw [List.length_append]
      omega
  | busy => cases idle

theorem Tidy.wrote (tidy : Tidy all wire sender) {index count : Nat}
    (taken : step sender (.wroteSome index count) = some (next, sent)) : Tidy all (wire ++ sent) next := by
  cases tidy with
  | idle => simp [step] at taken
  | @busy before data transferred whole known unfinished =>
    cases index with
    | succ index => simp [step] at taken
    | zero =>
      simp only [step, List.getElem?_cons_zero, Option.bind_eq_bind, Option.bind_some] at taken
      have piece : wire ++ (data.drop transferred).take count = before ++ data.take (transferred + count) := by
        rw [known, List.append_assoc, List.take_add]
      split_ifs at taken with enabled finished
      · obtain ⟨rfl, rfl⟩ := Prod.mk.inj (Option.some.inj taken)
        apply Tidy.idle
        rw [piece, finished, List.take_length, whole, List.drop_length, List.append_nil]
      · obtain ⟨rfl, rfl⟩ := Prod.mk.inj (Option.some.inj taken)
        exact Tidy.busy whole piece (Nat.lt_of_le_of_ne enabled.2 finished)

theorem Tidy.failed (tidy : Tidy all wire sender) {index : Nat}
    (taken : step sender (.failed index) = some (next, sent)) : Tidy all (wire ++ sent) next := by
  cases tidy with
  | idle => simp [step] at taken
  | @busy before data transferred whole known unfinished =>
    cases index with
    | succ index => simp [step] at taken
    | zero =>
      simp only [step, List.getElem?_cons_zero, Option.bind_eq_bind, Option.bind_some] at taken
      obtain ⟨rfl, rfl⟩ := Prod.mk.inj (Option.some.inj taken)
      apply Tidy.idle
      rw [List.append_nil, known, List.append_assoc, List.take_append_drop, whole]

theorem run_tidy (trace : List SendEvent) (tidy : Tidy all wire sender) (sequential : Sequential sender trace)
    {final : Sender} (ran : Machine.run step sender trace = some (final, sent)) :
    Tidy (all ++ bytesPosted trace) (wire ++ sent) final := by
  induction trace generalizing all wire sender sent with
  | nil =>
    obtain ⟨rfl, rfl⟩ := Prod.mk.inj (Option.some.inj ran)
    simpa [bytesPosted, posted] using tidy
  | cons event later ih =>
    obtain ⟨next, first, rest, taken, continued, rfl⟩ := Machine.run_cons_eq_some.mp ran
    obtain ⟨calm, onward⟩ := sequential
    have remaining := onward next first taken
    rw [← List.append_assoc]
    cases event with
    | postSendResponse res =>
      obtain ⟨rfl, rfl⟩ := Prod.mk.inj (Option.some.inj taken)
      have posted := ih (tidy.post (calm res rfl) res) remaining continued
      simpa using posted
    | wroteSome index count => exact ih (tidy.wrote taken) remaining continued
    | failed index => exact ih (tidy.failed taken) remaining continued

theorem tidy_idle : Tidy [] [] idle := Tidy.idle rfl

/-- While no response is posted during a pending write, the socket has been given
a first part of the responses, each once and in the order of their posting. -/
theorem responses_in_order (trace : List SendEvent) (sequential : Sequential idle trace) {final : Sender} {wire : Bytes}
    (ran : Machine.run step idle trace = some (final, wire)) :
    wire <+: (posted trace).flatMap Response.serialize := by
  have tidy := run_tidy trace tidy_idle sequential ran
  exact tidy.sent_prefix

def accepted : Response := .new (ascii "RTSP/1.0")

def refused : Response := accepted.withStatus badRequest

theorem Sequential.cons {sender next : Sender} {event : SendEvent} {sent : Bytes} {later : List SendEvent}
    (idle : ∀ res, event = .postSendResponse res → sender.writes = []) (stepped : step sender event = some (next, sent))
    (sequential : Sequential next later) : Sequential sender (event :: later) := by
  refine ⟨idle, fun other sent' other_step => ?_⟩
  obtain ⟨rfl, -⟩ := Prod.mk.inj (Option.some.inj (stepped.symm.trans other_step))
  exact sequential

/-- The first response goes out in two pieces, and then the second one is posted and begun. -/
def answeredInTurn : List SendEvent :=
  [.postSendResponse accepted, .wroteSome 0 5, .wroteSome 0 (accepted.serialize.length - 5),
    .postSendResponse refused, .wroteSome 0 12]

theorem answeredInTurn_in_order :
    accepted.serialize ++ refused.serialize.take 12 <+: (posted answeredInTurn).flatMap Response.serialize := by
  have sequential : Sequential idle answeredInTurn := by
    refine .cons (fun _ _ => rfl) (rfl : step idle _ = some (⟨accepted.serialize, [⟨accepted.serialize, 0⟩]⟩, [])) ?_
    refine .cons (fun _ same => nomatch same)
      (by decide +kernel : step _ _ = some (⟨accepted.serialize, [⟨accepted.serialize, 5⟩]⟩, accepted.serialize.take 5)) ?_
    refine .cons (fun _ same => nomatch same) (by decide +kernel : step _ _ = some (idle, accepted.serialize.drop 5)) ?_
    exact ⟨fun _ _ => rfl, fun _ _ _ => ⟨fun _ same => (nomatch same), fun _ _ _ => trivial⟩⟩
  have ran : Machine.run step idle answeredInTurn =
      some (⟨refused.serialize, [⟨refused.serialize, 12⟩]⟩, accepted.serialize ++ refused.serialize.take 12) := by
    decide +kernel
  exact responses_in_order answeredInTurn sequential ran

/-- Two requests are answered before the socket has taken the first response. -/
theorem first_response_sent_twice :
    Machine.run step idle [.postSendResponse accepted, .postSendResponse refused,
        .wroteSome 0 accepted.serialize.length, .wroteSome 0 (accepted.serialize ++ refused.serialize).length] =
      some (idle, accepted.serialize ++ (accepted.serialize ++ refused.serialize)) ∧
    ¬ accepted.serialize ++ (accepted.serialize ++ refused.serialize) <+:
      (posted [.postSendResponse accepted, .postSendResponse refused,
        .wroteSome 0 accepted.serialize.length,
        .wroteSome 0 (accepted.serialize ++ refused.serialize).length]).flatMap Response.serialize := by
  decide +kernel

/-- A write that completes in one more piece. -/
theorem finish_first (outStream : Bytes) {data : Bytes} {transferred : Nat} (unfinished : transferred < data.length)
    (others : List PendingWrite) :
    step ⟨outStream, ⟨data, transferred⟩ :: others⟩ (.wroteSome 0 (data.length - transferred)) =
      some (⟨outStream.drop data.length, others⟩, data.drop transferred) := by
  have enabled : 0 < data.length - transferred := by omega
  have whole : transferred + (data.length - transferred) = data.length := by omega
  have full : (data.drop transferred).take (data.length - transferred) = data.drop transferred :=
    List.take_of_length_le (by rw [List.length_drop])
  simp [step, enabled, whole, full, complete]

/-- A response posted during a pending write: once both writes complete, more
bytes have been sent than were posted. -/
theorem overlapping_post_corrupts {before : List SendEvent} (sequential : Sequential idle before)
    (ran : Machine.run step idle before = some (sender, wire)) (pending : sender.writes ≠ []) (res : Response) :
    ∃ later final sent, Machine.run step idle (before ++ .postSendResponse res :: later) = some (final, sent) ∧
      ¬ sent <+: (posted (before ++ .postSendResponse res :: later)).flatMap Response.serialize := by
  have tidy := run_tidy before tidy_idle sequential ran
  cases tidy with
  | idle => exact absurd rfl pending
  | @busy start data transferred whole sent unfinished =>
    have more : 0 < (data ++ res.serialize).length := by
      rw [List.length_append]
      omega
    have first := finish_first (data ++ res.serialize) unfinished [⟨data ++ res.serialize, 0⟩]
    have second := finish_first ((data ++ res.serialize).drop data.length) more []
    have finished := Machine.run_cons_eq_some.mpr ⟨_, [], _,
      (rfl : step ⟨data, [⟨data, transferred⟩]⟩ (.postSendResponse res) = _), Machine.run_cons_eq_some.mpr
        ⟨_, _, _, first, Machine.run_cons_eq_some.mpr ⟨_, _, [], second, Machine.run_nil _, rfl⟩, rfl⟩, rfl⟩
    refine ⟨_, _, _, Machine.run_append_eq_some.mpr ⟨_, _, _, ran, finished, rfl⟩, ?_⟩
    intro inside
    have bound := inside.length_le
    have known := congrArg List.length whole
    have gone := congrArg List.length sent
    rw [← bytesPosted, bytesPosted_append] at bound
    simp only [bytesPosted_post, bytesPosted_wrote, List.nil_append, List.append_nil, List.length_append,
      List.length_take, List.length_drop] at bound known gone
    have none : (bytesPosted []).length = 0 := rfl
    omega

end Apsdk.Sender
