import Apsdk.Proofs.ServiceSteps
import Apsdk.Proofs.ResponseCorrespondence

/-! The manager of event connections knows sessions only. A connection that is
destroyed takes the entry of its session with it, also when another connection has
been reversed for the session since. -/

namespace Apsdk.Airplay
open Library Traced Machine

variable {prims : Primitives}

/-- The session that a request reverses its connection for. -/
def reversal (req : Request) : Option Bytes :=
  if routed req = some .postReverse then req.headers.find? MediaDataStore.HEADER_APPLE_SESSION_ID else none

def ServiceEvent.reversal : ServiceEvent → Option (Bytes × Nat)
  | .request id dispatch => (Airplay.reversal dispatch.req).map fun session => (session, id)
  | _ => none

/-- The connection that was reversed last for a session. -/
def lastReversed (session : Bytes) (trace : List ServiceEvent) : Option Nat :=
  SortedMap.lastValue session (trace.filterMap ServiceEvent.reversal)

theorem lastReversed_reverses {session reversed : Bytes} {id : Nat} (trace : List ServiceEvent) {event : ServiceEvent}
    (here : event.reversal = some (reversed, id)) :
    lastReversed session (trace ++ [event]) = if reversed = session then some id else lastReversed session trace := by
  rw [lastReversed, List.filterMap_append, SortedMap.lastValue_append]
  by_cases same : reversed = session <;> simp [here, SortedMap.lastValue, same, lastReversed]

theorem lastReversed_other {session : Bytes} (trace : List ServiceEvent) {event : ServiceEvent} (here : event.reversal = none) :
    lastReversed session (trace ++ [event]) = lastReversed session trace := by
  simp [lastReversed, List.filterMap_append, here]

namespace Service

/-- The connection that was reversed last for a session is the one that is found for it, as long as it is alive. -/
def Registers (service : Service prims) (trace : List ServiceEvent) : Prop :=
  ∀ session id, lastReversed session trace = some id → service.alive id = true → service.eventConnection session = some id

/-- A reversed connection is destroyed only when no other one holds its session, which was reversed for it later and is alive. -/
def Yields (trace : List ServiceEvent) (service : Service prims) : ServiceEvent → Prop
  | .destroy id => ∀ conn other, service.members.find? id = some ⟨conn, false⟩ → conn.isReversed = true →
      lastReversed conn.appleSessionId trace = some other → service.alive other = false
  | _ => True

theorem alive_of_found {service : Service prims} {id : Nat} {member : Member prims} (found : service.members.find? id = some member) :
    service.alive id = member.alive := by
  rw [alive, found]
  rfl

theorem postReverseHandler_outcome {req : Request} {res posted : Response} {world after : World prims}
    (ends : Outcome (postReverseHandler req res) world posted after) :
    ∃ session, req.headers.find? MediaDataStore.HEADER_APPLE_SESSION_ID = some session ∧
      after = { world with
        conn := { world.conn with appleSessionId := session, isReversed := true }
        eventConnections := world.eventConnections.insert session world.conn.id } := by
  simp only [postReverseHandler, second] at ends
  obtain ⟨present, rest⟩ := outcome_checked_bind_iff.mp ends
  obtain ⟨session, found⟩ := Option.isSome_iff_exists.mp present
  refine ⟨session, found, ?_⟩
  obtain ⟨_, between, changed, last⟩ := outcome_bind_iff.mp rest
  rw [found] at changed
  exact (outcome_pure_iff.mp last).2.trans changed.2.symm

section Process
variable {service : Service prims} {dispatch : Dispatch} {conn : Connection prims} {posted : Option Response}

/-- What a request does to the event connections. -/
theorem process_eventConnections (answered : (service.process dispatch conn).value = .ok posted) :
    (service.process dispatch conn).state.eventConnections =
      (reversal dispatch.req).elim service.eventConnections fun session => service.eventConnections.insert session conn.id := by
  rw [reversal]
  split
  next reverses =>
    obtain ⟨res, ran, -⟩ := (processRequest_outcome_iff reverses).mp ⟨answered, rfl⟩
    obtain ⟨session, found, after⟩ := postReverseHandler_outcome ran
    rw [found]
    exact congrArg World.eventConnections after
  next other =>
    refine process_view service dispatch conn (?_ : Part.eventConnections ∉ _)
    cases route : routed dispatch.req with
    | none => exact List.not_mem_nil
    | some handler =>
      rw [route] at other
      cases handler <;> first | decide | exact absurd rfl other

end Process

variable {service next : Service prims} {trace : List ServiceEvent} {event : ServiceEvent} {outputs : List (Nat × Observation)}

/-- The connections that have been reversed had been accepted. -/
def Accepted (service : Service prims) (trace : List ServiceEvent) : Prop :=
  Identified service ∧ ∀ session id, lastReversed session trace = some id → id < service.next

theorem Accepted.step (accepted : service.Accepted trace) (taken : Taken service event next outputs) :
    next.Accepted (trace ++ [event]) := by
  refine ⟨accepted.1.step taken, fun session id last => ?_⟩
  cases taken with
  | accept sessionId server handler =>
    rw [lastReversed_other trace rfl] at last
    exact Nat.lt_succ_of_lt (accepted.2 session id last)
  | @request requested dispatch conn posted found requests answered =>
    cases reverses : reversal dispatch.req with
    | none =>
      rw [lastReversed_other trace (by rw [ServiceEvent.reversal, reverses]; rfl)] at last
      exact accepted.2 session id last
    | some reversed =>
      rw [lastReversed_reverses trace (by rw [ServiceEvent.reversal, reverses]; rfl)] at last
      split_ifs at last
      · exact Option.some.inj last ▸ (accepted.1 requested _ found).2
      · exact accepted.2 session id last
  | release found =>
    rw [lastReversed_other trace rfl] at last
    exact accepted.2 session id last
  | destroy found =>
    rw [lastReversed_other trace rfl] at last
    exact accepted.2 session id last

theorem eventConnection_eq_some_iff {session : Bytes} {id : Nat} :
    service.eventConnection session = some id ↔ service.eventConnections.find? session = some id ∧ service.alive id = true :=
  Option.filter_eq_some_iff

/-- The law is kept by every step but the destruction of a connection whose session another one holds. -/
theorem Registers.step (registers : service.Registers trace) (accepted : service.Accepted trace)
    (yields : Yields trace service event) (taken : Taken service event next outputs) : next.Registers (trace ++ [event]) := by
  intro session id last living
  cases taken with
  | accept sessionId server handler =>
    rw [lastReversed_other trace rfl] at last
    have older : service.next ≠ id := (accepted.2 session id last).ne'
    have same : service.alive id = true := by
      rwa [alive, SortedMap.find?_insert, if_neg older] at living
    exact eventConnection_eq_some_iff.mpr ⟨(eventConnection_eq_some_iff.mp (registers session id last same)).1, living⟩
  | @request requested dispatch conn posted found requests answered =>
    have found' := process_eventConnections answered
    have still : service.alive id = true := by
      rw [alive, update, SortedMap.find?_insert] at living
      split_ifs at living with same
      · exact same ▸ alive_of_found found
      · exact living
    refine eventConnection_eq_some_iff.mpr ⟨?_, living⟩
    show (service.process dispatch conn).state.eventConnections.find? session = some id
    rw [found']
    cases reverses : reversal dispatch.req with
    | none =>
      rw [lastReversed_other trace (by rw [ServiceEvent.reversal, reverses]; rfl)] at last
      exact (eventConnection_eq_some_iff.mp (registers session id last still)).1
    | some reversed =>
      rw [lastReversed_reverses trace (by rw [ServiceEvent.reversal, reverses]; rfl)] at last
      rw [Option.elim_some, SortedMap.find?_insert]
      split_ifs at last with same
      · rw [if_pos same, (accepted.1 requested _ found).1]
        exact last
      · rw [if_neg same]
        exact (eventConnection_eq_some_iff.mp (registers session id last still)).1
  | @release released conn found =>
    rw [lastReversed_other trace rfl] at last
    have still : service.alive id = true := by
      rw [alive, SortedMap.find?_insert] at living
      split_ifs at living
      · cases living
      · exact living
    exact eventConnection_eq_some_iff.mpr ⟨(eventConnection_eq_some_iff.mp (registers session id last still)).1, living⟩
  | @destroy destroyed conn found =>
    rw [lastReversed_other trace rfl] at last
    have still : service.alive id = true := by
      rw [alive, SortedMap.find?_erase] at living
      split_ifs at living
      · cases living
      · exact living
    have before := (eventConnection_eq_some_iff.mp (registers session id last still)).1
    refine eventConnection_eq_some_iff.mpr ⟨?_, living⟩
    show (conn.unregister service.eventConnections).find? session = some id
    rw [Connection.unregister]
    split_ifs with reversed
    · rw [SortedMap.find?_erase]
      split_ifs with same
      · subst same
        have dead := yields conn id found reversed last
        rw [still] at dead
        cases dead
      · exact before
    · exact before

/-- A destruction that does not yield takes the entry of a connection that is alive. -/
theorem not_registers_of_destroy {id other : Nat} {conn : Connection prims} (found : service.members.find? id = some ⟨conn, false⟩)
    (reversed : conn.isReversed = true) (last : lastReversed conn.appleSessionId trace = some other)
    (living : service.alive other = true) (taken : Service.step service (.destroy id) = some (next, outputs)) :
    ¬ next.Registers (trace ++ [.destroy id]) := by
  intro registers
  have apart : id ≠ other := by
    rintro rfl
    have dead := alive_of_found found
    rw [living] at dead
    cases dead
  simp only [Service.step, found] at taken
  obtain ⟨rfl, -⟩ := Prod.mk.inj (Option.some.inj taken)
  have kept := registers conn.appleSessionId other (by rwa [lastReversed_other trace rfl])
    (by rwa [alive, SortedMap.find?_erase, if_neg apart])
  have entry := (eventConnection_eq_some_iff.mp kept).1
  simp only [Connection.unregister, if_pos reversed, SortedMap.find?_erase, if_true] at entry
  cases entry

end Service

/-- In every state of a run the connection that was reversed last for a session is found, just
when every connection that is destroyed in the run yields to the one that holds its session. -/
theorem registers_throughout_iff (prims : Primitives) (requestId : UInt32) (trace : List ServiceEvent) :
    Throughout Service.step (Service.start requestId : Service prims) trace (fun earlier service _ => service.Registers earlier) ↔
      Allowed Service.step (Service.start requestId : Service prims) trace Service.Yields := by
  constructor
  · intro throughout earlier event part service outputs ran
    cases event with
    | destroy id =>
      intro conn other found reversed last
      by_contra living
      obtain ⟨⟨after, sent⟩, taken⟩ : ∃ result, Service.step service (.destroy id) = some result := by
        simp only [Service.step, found]
        exact ⟨_, rfl⟩
      have next := throughout.after part ran taken
      exact Service.not_registers_of_destroy found reversed last (Bool.not_eq_false _ ▸ living) taken next
    | _ => trivial
  · intro allowed
    have both : Throughout Service.step (Service.start requestId : Service prims) trace
        fun earlier service _ => service.Accepted earlier ∧ service.Registers earlier := by
      refine allowed.throughout ⟨⟨Service.start_identified requestId, fun _ _ last => by cases last⟩, fun _ _ last => by cases last⟩ ?_
      rintro earlier service sent event next outputs ⟨accepted, registers⟩ yields taken
      have step := Service.taken_of_step taken
      exact ⟨accepted.step step, registers.step accepted yields step⟩
    exact fun earlier part service outputs ran => (both earlier part service outputs ran).2

/-- A `POST /reverse` for the session `S`. -/
def reverseRequest : Request where
  toMessage := (Message.new (ascii "HTTP/1.1")).withHeader MediaDataStore.HEADER_APPLE_SESSION_ID (ascii "S")
  method := ascii "POST"
  uri := ascii "/reverse"

/-- A client comes back under the id of its session before its old connection is destroyed. -/
def reconnection : List ServiceEvent :=
  [.accept 7 default true, .request 0 ⟨still, someDate, reverseRequest⟩,
    .accept 8 default true, .request 1 ⟨still, someDate, reverseRequest⟩,
    .release 0, .destroy 0]

/-- The new connection is alive and no longer found. -/
theorem reconnection_not_registered :
    ¬ Throughout Service.step (Service.start 0 : Service default) reconnection
      (fun earlier service _ => service.Registers earlier) := by
  intro throughout
  have ended : (Machine.run Service.step (Service.start 0 : Service default) reconnection).map
      (fun (service, _) => (service.alive 1, service.eventConnection (ascii "S"))) = some (true, none) := by
    decide +kernel
  obtain ⟨⟨service, outputs⟩, ran, seen⟩ := Option.map_eq_some_iff.mp ended
  obtain ⟨living, lost⟩ := Prod.mk.inj seen
  have last : lastReversed (ascii "S") reconnection = some 1 := by decide +kernel
  have found := throughout reconnection (List.prefix_refl _) service outputs ran (ascii "S") 1 last living
  rw [found] at lost
  cases lost

end Apsdk.Airplay
