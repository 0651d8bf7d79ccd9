import Apsdk.MediaDataStore
import Mathlib.Data.List.Perm.Subperm

/-! When `process_media_data` names a location, no collected URI is left, and the
session has had at least as many answers as it has sent requests. Whether these
are the answers to its requests the store does not check. -/

namespace Apsdk.MediaDataStore
open Library

/-- The requests and answers since the last call of `request_media_data` or
`reset`, and whether every answer was for a request still unanswered. -/
structure Session where
  asked : List Bytes
  answered : List Bytes
  solicited : Bool
deriving DecidableEq, Repr

namespace Session

def empty : Session := ⟨[], [], true⟩

/-- The session after a call that sent the given requests. -/
def record (session : Session) (sent : List FcupRequest) : Call → Session
  | .setStoreRoot _ => session
  | .requestMediaData .. => { empty with asked := sent.map FcupRequest.uri }
  | .reset => empty
  | .processMediaData _ uri _ =>
    { asked := session.asked ++ sent.map FcupRequest.uri
      answered := session.answered ++ [uri]
      solicited := session.solicited && session.answered.count uri < session.asked.count uri }

/-- At most one request is unanswered, and answers that were asked for answer what was asked. -/
structure Balanced (session : Session) : Prop where
  length : session.asked.length ≤ session.answered.length + 1
  count : session.solicited = true → ∀ uri, session.answered.count uri ≤ session.asked.count uri

end Session

/-- The store and its session after a sequence of calls. -/
def run (rewriting : Rewriting) (store : Store) (session : Session) : List Call → Store × Session
  | [] => (store, session)
  | call :: later =>
    let outcome := store.step rewriting call
    run rewriting outcome.store (session.record outcome.sent call) later

variable {rewriting : Rewriting} {store : Store} {session : Session}

theorem sendFcupRequest_sent (connected : Bool) (uri : Bytes) :
    (store.sendFcupRequest connected uri).2.length ≤ 1 ∧
      ∀ fcup ∈ (store.sendFcupRequest connected uri).2, fcup.uri = uri := by
  cases connected <;> simp [Store.sendFcupRequest]

theorem requestMediaData_sent (connected : Bool) (primaryUri sessionId : Bytes) :
    (store.requestMediaData connected primaryUri sessionId).2.1.length ≤ 1 := by
  simp only [Store.requestMediaData]
  split
  · exact Nat.zero_le _
  · exact (sendFcupRequest_sent connected primaryUri).1

theorem nextRequest_outcome (connected : Bool) :
    (store.nextRequest connected).2.1.length ≤ 1 ∧
      ((store.nextRequest connected).2.2 ≠ [] →
        (store.nextRequest connected).2.1 = [] ∧ (store.nextRequest connected).1.uriStack = []) := by
  simp only [Store.nextRequest]
  split
  case h_1 stack => exact ⟨Nat.zero_le _, fun _ => ⟨rfl, stack⟩⟩
  case h_2 next rest stack => exact ⟨(sendFcupRequest_sent connected next).1, fun location => absurd rfl location⟩

/-- `process_media_data` sends at most one request, and names a location only when it sends none and the stack is empty. -/
theorem processMediaData_outcome (connected : Bool) (uri data : Bytes) :
    (store.step rewriting (.processMediaData connected uri data)).sent.length ≤ 1 ∧
      ((store.step rewriting (.processMediaData connected uri data)).location ≠ [] →
        (store.step rewriting (.processMediaData connected uri data)).sent = [] ∧
        (store.step rewriting (.processMediaData connected uri data)).store.uriStack = []) := by
  simp only [Store.step]
  split
  case h_1 next sent location processed =>
    simp only [Store.processMediaData] at processed
    split at processed
    · cases processed
    split at processed
    · cases processed
    cases processed
    exact nextRequest_outcome connected
  case h_2 next sent fault processed =>
    refine ⟨?_, fun location => absurd rfl location⟩
    simp only [Store.processMediaData] at processed
    split at processed
    · cases processed
      exact Nat.zero_le _
    split at processed <;> cases processed
    exact Nat.zero_le _

theorem record_balanced (balanced : session.Balanced) (call : Call) :
    (session.record (store.step rewriting call).sent call).Balanced := by
  cases call with
  | setStoreRoot port => exact balanced
  | reset => exact ⟨Nat.zero_le _, fun _ _ => Nat.le_refl _⟩
  | requestMediaData connected primaryUri sessionId =>
    refine ⟨?_, fun _ uri => by simp [Session.record, Session.empty]⟩
    simpa [Session.record, Session.empty, Store.step] using requestMediaData_sent connected primaryUri sessionId
  | processMediaData connected uri data =>
    have one := (@processMediaData_outcome rewriting store connected uri data).1
    refine ⟨?_, fun solicited other => ?_⟩
    · have length := balanced.length
      simp only [Session.record, List.length_append, List.length_map, List.length_singleton]
      omega
    · simp only [Session.record, Bool.and_eq_true, decide_eq_true_eq] at solicited
      obtain ⟨before, outstanding⟩ := solicited
      have count := balanced.count before other
      simp only [Session.record, List.count_append, List.count_singleton]
      by_cases same : uri = other
      · subst same
        simp only [BEq.rfl, if_true]
        omega
      · simp only [beq_iff_eq, same, if_false]
        omega

theorem run_balanced (balanced : session.Balanced) (calls : List Call) : (run rewriting store session calls).2.Balanced := by
  induction calls generalizing store session with
  | nil => exact balanced
  | cons call later ih => exact ih (record_balanced balanced call)

theorem empty_balanced : Session.empty.Balanced := ⟨Nat.zero_le _, fun _ _ => Nat.le_refl _⟩

/-- Answers to outstanding requests only are, once there are as many as requests, the answers to all of them. -/
theorem Session.Balanced.perm (balanced : session.Balanced) (enough : session.asked.length ≤ session.answered.length)
    (solicited : session.solicited = true) : session.answered.Perm session.asked :=
  (List.subperm_ext_iff.2 fun uri _ => balanced.count solicited uri).perm_of_length_le enough

/-- In every interleaving of calls from a constructed store, a location is named only when no collected URI is left and
the session has had as many answers as requests; if all were answers to outstanding requests, every request is answered. -/
theorem location_after_answers (rewriting : Rewriting) (requestId : UInt32) (calls : List Call) (connected : Bool)
    (uri data : Bytes) :
    let before := run rewriting (Store.new requestId) Session.empty calls
    let outcome := before.1.step rewriting (.processMediaData connected uri data)
    let session := before.2.record outcome.sent (.processMediaData connected uri data)
    outcome.location ≠ [] →
      outcome.store.uriStack = [] ∧ session.asked.length ≤ session.answered.length ∧
      (session.solicited = true → ∀ asked ∈ session.asked, session.answered.count asked = session.asked.count asked) := by
  intro before outcome session location
  obtain ⟨-, complete⟩ := @processMediaData_outcome rewriting before.1 connected uri data
  obtain ⟨nothing, stack⟩ := complete location
  have balanced : before.2.Balanced := run_balanced empty_balanced calls
  have enough : session.asked.length ≤ session.answered.length := by
    have length := balanced.length
    simp only [session, outcome, Session.record, nothing, List.map_nil, List.append_nil, List.length_append,
      List.length_singleton]
    exact length
  refine ⟨stack, enough, fun solicited asked _ => ?_⟩
  have after : session.Balanced := record_balanced balanced _
  exact (after.perm enough solicited).count_eq asked

/-- A rewriting for documents that list nothing and are not condensed. -/
def plainRewriting : Rewriting := ⟨fun _ => none, some⟩

def masterUri : Bytes := ascii "mlhls://localhost/master.m3u8"

theorem answered_master_located :
    let before := run plainRewriting (Store.new 0) Session.empty [.requestMediaData true masterUri (ascii "A")]
    let outcome := before.1.step plainRewriting (.processMediaData true masterUri (ascii "#EXTM3U"))
    let session := before.2.record outcome.sent (.processMediaData true masterUri (ascii "#EXTM3U"))
    outcome.store.uriStack = [] ∧ session.asked.length ≤ session.answered.length ∧
      (session.solicited = true → ∀ asked ∈ session.asked, session.answered.count asked = session.asked.count asked) :=
  location_after_answers plainRewriting 0 [.requestMediaData true masterUri (ascii "A")] true masterUri (ascii "#EXTM3U")
    (by decide +kernel)

/-- The playlist of some other URI, which nobody asked for, stands in for the answer to the primary one. -/
theorem unsolicited_answer_located :
    ¬ ∀ (rewriting : Rewriting) (requestId : UInt32) (calls : List Call) (connected : Bool) (uri data : Bytes),
      let before := run rewriting (Store.new requestId) Session.empty calls
      let outcome := before.1.step rewriting (.processMediaData connected uri data)
      let session := before.2.record outcome.sent (.processMediaData connected uri data)
      outcome.location ≠ [] → outcome.store.uriStack = [] ∧ ∀ asked ∈ session.asked, asked ∈ session.answered := by
  intro complete
  have answered := complete plainRewriting 0 [.requestMediaData true masterUri (ascii "A")] true
    (ascii "mlhls://localhost/other.m3u8") (ascii "#EXTM3U") (by decide +kernel)
  exact absurd (answered.2 masterUri (by decide +kernel)) (by decide +kernel)

end Apsdk.MediaDataStore
