import Apsdk.AirplayService
import Apsdk.Proofs.HandlerFootprint

/-! What a step of the service can do. -/

namespace Apsdk.Airplay.Service
open Library Traced

variable {prims : Primitives}

/-- The steps with their guards. -/
inductive Taken (service : Service prims) : ServiceEvent → Service prims → List (Nat × Observation) → Prop where
  | accept (sessionId : UInt64) (server : ServerKeyChain) (handler : Bool) :
    Taken service (.accept sessionId server handler)
      { service with
        next := service.next + 1
        members := service.members.insert service.next ⟨.new prims service.next sessionId server handler, true⟩ } []
  | request {id : Nat} {dispatch : Dispatch} {conn : Connection prims} {posted : Option Response}
    (found : service.members.find? id = some ⟨conn, true⟩) (requests : conn.isReversed = false)
    (answered : (service.process dispatch conn).value = .ok posted) :
    Taken service (.request id dispatch) (service.update id (service.process dispatch conn).state)
      (((service.process dispatch conn).events.filterMap Event.observation ++
        [Observation.sessionType (service.process dispatch conn).state.conn.sessionType]).map fun observation => (id, observation))
  | release {id : Nat} {conn : Connection prims} (found : service.members.find? id = some ⟨conn, true⟩) :
    Taken service (.release id) { service with members := service.members.insert id ⟨conn, false⟩ } []
  | destroy {id : Nat} {conn : Connection prims} (found : service.members.find? id = some ⟨conn, false⟩) :
    Taken service (.destroy id)
      { service with
        members := service.members.erase id
        eventConnections := conn.unregister service.eventConnections }
      (conn.endSession.map fun observation => (id, observation))

theorem taken_of_step {service next : Service prims} {event : ServiceEvent} {outputs : List (Nat × Observation)}
    (taken : step service event = some (next, outputs)) : Taken service event next outputs := by
  cases event with
  | accept sessionId server handler =>
    obtain ⟨rfl, rfl⟩ := Prod.mk.inj (Option.some.inj taken)
    exact .accept sessionId server handler
  | request id dispatch =>
    simp only [step] at taken
    split at taken
    next conn found =>
      split at taken
      next => cases taken
      next requests =>
        split at taken
        next posted answered =>
          obtain ⟨rfl, rfl⟩ := Prod.mk.inj (Option.some.inj taken)
          exact .request found (Bool.not_eq_true _ ▸ requests) answered
        next => cases taken
    next => cases taken
  | release id =>
    simp only [step] at taken
    split at taken
    next conn found =>
      obtain ⟨rfl, rfl⟩ := Prod.mk.inj (Option.some.inj taken)
      exact .release found
    next => cases taken
  | destroy id =>
    simp only [step] at taken
    split at taken
    next conn found =>
      obtain ⟨rfl, rfl⟩ := Prod.mk.inj (Option.some.inj taken)
      exact .destroy found
    next => cases taken

theorem fixed_untouched (req : Request) : Part.fixed ∉ (routed req).elim [] Handler.touches := by
  cases routed req with
  | none => exact List.not_mem_nil
  | some handler => cases handler <;> decide

section Process
variable (service : Service prims) (dispatch : Dispatch) (conn : Connection prims)

/-- A part that the handler of a request does not touch. -/
theorem process_view {part : Part} (outside : part ∉ (routed dispatch.req).elim [] Handler.touches) :
    part.view (service.process dispatch conn).state = part.view (service.world conn) :=
  (processRequest_confined dispatch.date dispatch.req).view outside _

theorem process_id : (service.process dispatch conn).state.conn.id = conn.id := by
  exact congrArg Prod.fst (process_view service dispatch conn (fixed_untouched dispatch.req))

end Process

/-- Every member is known by its own identity, which has been given out. -/
def Identified (service : Service prims) : Prop :=
  ∀ id member, service.members.find? id = some member → member.conn.id = id ∧ id < service.next

theorem Identified.step {service next : Service prims} {event : ServiceEvent} {outputs : List (Nat × Observation)}
    (identified : Identified service) (taken : Taken service event next outputs) : Identified next := by
  intro id member found
  cases taken with
  | accept sessionId server handler =>
    rw [SortedMap.find?_insert] at found
    split_ifs at found with same
    · obtain rfl := Option.some.inj found
      exact ⟨same, same ▸ Nat.lt_succ_self _⟩
    · exact ⟨(identified id member found).1, Nat.lt_succ_of_lt (identified id member found).2⟩
  | @request requested dispatch conn posted here requests answered =>
    rw [update, SortedMap.find?_insert] at found
    split_ifs at found with same
    · obtain rfl := Option.some.inj found
      obtain ⟨own, below⟩ := identified requested _ here
      exact ⟨(process_id service dispatch conn).trans (own.trans same), same ▸ below⟩
    · exact identified id member found
  | release here =>
    rw [SortedMap.find?_insert] at found
    split_ifs at found with same
    · obtain rfl := Option.some.inj found
      obtain ⟨own, below⟩ := identified _ _ here
      exact ⟨own.trans same, same ▸ below⟩
    · exact identified id member found
  | destroy here =>
    rw [SortedMap.find?_erase] at found
    split_ifs at found with same
    exact identified id member found

theorem start_identified (requestId : UInt32) : Identified (start requestId : Service prims) := fun _ _ found => nomatch found

/-- The parts that belong to the connection itself. -/
def own : Part → Bool
  | .store | .eventConnections | .allocations => false
  | _ => true

theorem view_own {part : Part} (owned : own part = true) (service other : Service prims) (conn : Connection prims) :
    part.view (service.world conn) = part.view (other.world conn) := by
  cases part <;> first | rfl | cases owned

/-- The events of a run that leave a part of a connection alone. -/
def LeavesAlone (id : Nat) (part : Part) : ServiceEvent → Prop
  | .request requested dispatch => requested = id → part ∉ (routed dispatch.req).elim [] Handler.touches
  | _ => True

/-- What no request of a connection touches stays as it is over a run. -/
theorem view_kept {service final : Service prims} {trace : List ServiceEvent} {outputs : List (Nat × Observation)} {id : Nat}
    {conn last : Connection prims} {alive living : Bool} (part : Part) (owned : own part = true)
    (spared : ∀ event ∈ trace, LeavesAlone id part event) (identified : Identified service)
    (ran : Machine.run step service trace = some (final, outputs)) (found : service.members.find? id = some ⟨conn, alive⟩)
    (reached : final.members.find? id = some ⟨last, living⟩) : part.view (final.world last) = part.view (service.world conn) := by
  let Kept (current : Service prims) : Prop := Identified current ∧ id < current.next ∧
    ∀ member, current.members.find? id = some member → part.view (service.world member.conn) = part.view (service.world conn)
  have kept : Kept final := by
    refine Machine.run_invariant_of_permitted ?_ spared ?_ ran
    · intro current event next outputs spares ⟨identified, born, same⟩ stepped
      have taken := taken_of_step stepped
      refine ⟨identified.step taken, ?_⟩
      cases taken with
      | accept sessionId server handler =>
        refine ⟨Nat.lt_succ_of_lt born, fun member found => same member ?_⟩
        rwa [SortedMap.find?_insert, if_neg born.ne'] at found
      | @request requested dispatch conn' posted found' requests answered =>
        refine ⟨born, fun member found => ?_⟩
        rw [update, SortedMap.find?_insert] at found
        split_ifs at found with here
        · obtain rfl := Option.some.inj found
          subst here
          calc part.view (service.world (current.process dispatch conn').state.conn)
            _ = part.view (current.process dispatch conn').state := by
              cases part <;> first | rfl | cases owned
            _ = part.view (current.world conn') := process_view current dispatch conn' (spares rfl)
            _ = part.view (service.world conn') := view_own owned _ _ _
            _ = part.view (service.world conn) := same _ found'
        · exact same member found
      | @release released conn' found' =>
        refine ⟨born, fun member found => ?_⟩
        rw [SortedMap.find?_insert] at found
        split_ifs at found with here
        · obtain rfl := Option.some.inj found
          have before := same _ (here ▸ found')
          exact before
        · exact same member found
      | destroy found' =>
        refine ⟨born, fun member found => same member ?_⟩
        rw [SortedMap.find?_erase] at found
        split_ifs at found
        exact found
    · refine ⟨identified, (identified id _ found).2, fun member found' => ?_⟩
      rw [← Option.some.inj (found.symm.trans found')]
  exact (view_own owned _ _ _).trans (kept.2.2 _ reached)

/-- Whether a connection has a handler does not change. -/
theorem handler_kept {service final : Service prims} {trace : List ServiceEvent} {outputs : List (Nat × Observation)} {id : Nat}
    {conn last : Connection prims} {alive living : Bool} (identified : Identified service)
    (ran : Machine.run step service trace = some (final, outputs)) (found : service.members.find? id = some ⟨conn, alive⟩)
    (reached : final.members.find? id = some ⟨last, living⟩) : last.handler = conn.handler := by
  have spared : ∀ event ∈ trace, LeavesAlone id .fixed event := by
    intro event _
    cases event with
    | request requested dispatch => exact fun _ => fixed_untouched dispatch.req
    | _ => trivial
  exact congrArg (fun fixed => fixed.2.2.1) (view_kept .fixed rfl spared identified ran found reached)

end Apsdk.Airplay.Service
