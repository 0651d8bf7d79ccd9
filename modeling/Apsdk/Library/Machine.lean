import Mathlib.Data.List.Basic
import Mathlib.Data.List.Induction

/-! Machines that take events one at a time. A step may be disabled, and puts
out a list of outputs; a run is enabled when all of its steps are. -/

namespace Library

variable {State Event Output : Type*}

abbrev Machine (State Event Output : Type*) := State → Event → Option (State × List Output)

namespace Machine

def run (step : Machine State Event Output) (state : State) : List Event → Option (State × List Output)
  | [] => some (state, [])
  | event :: later => do
    let (next, outputs) ← step state event
    let (final, rest) ← run step next later
    return (final, outputs ++ rest)

variable {step : Machine State Event Output}

@[simp] theorem run_nil (state : State) : run step state [] = some (state, []) := rfl

theorem run_cons_eq_some {state final : State} {event : Event} {later : List Event} {outputs : List Output} :
    run step state (event :: later) = some (final, outputs) ↔
      ∃ next first rest, step state event = some (next, first) ∧ run step next later = some (final, rest) ∧
        outputs = first ++ rest := by
  constructor
  · intro ran
    cases taken : step state event with
    | none => simp [run, taken] at ran
    | some pair =>
      obtain ⟨next, first⟩ := pair
      cases continued : run step next later with
      | none => simp [run, taken, continued] at ran
      | some result =>
        obtain ⟨last, rest⟩ := result
        obtain ⟨rfl, rfl⟩ : last = final ∧ first ++ rest = outputs := by
          simpa [run, taken, continued] using ran
        exact ⟨next, first, rest, rfl, continued, rfl⟩
  · rintro ⟨next, first, rest, taken, continued, rfl⟩
    simp [run, taken, continued]

theorem run_append_eq_some {state final : State} {first second : List Event} {outputs : List Output} :
    run step state (first ++ second) = some (final, outputs) ↔
      ∃ between sent rest, run step state first = some (between, sent) ∧ run step between second = some (final, rest) ∧
        outputs = sent ++ rest := by
  induction first generalizing state outputs with
  | nil => simp
  | cons event later ih =>
    rw [List.cons_append, run_cons_eq_some]
    constructor
    · rintro ⟨next, here, rest, taken, continued, rfl⟩
      obtain ⟨between, sent, last, ran, further, rfl⟩ := ih.mp continued
      exact ⟨between, here ++ sent, last, run_cons_eq_some.mpr ⟨next, here, sent, taken, ran, rfl⟩, further,
        (List.append_assoc ..).symm⟩
    · rintro ⟨between, sent, last, ran, further, rfl⟩
      obtain ⟨next, here, rest, taken, continued, rfl⟩ := run_cons_eq_some.mp ran
      exact ⟨next, here, rest ++ last, taken, ih.mpr ⟨between, rest, last, continued, further, rfl⟩, List.append_assoc ..⟩

/-- One step more. -/
theorem run_concat_eq_some {state final : State} {trace : List Event} {event : Event} {outputs : List Output} :
    run step state (trace ++ [event]) = some (final, outputs) ↔
      ∃ between sent rest, run step state trace = some (between, sent) ∧ step between event = some (final, rest) ∧
        outputs = sent ++ rest := by
  rw [run_append_eq_some]
  refine exists_congr fun between => exists_congr fun sent => exists_congr fun rest => and_congr_right fun _ => ?_
  refine and_congr_left fun _ => ?_
  simp [run_cons_eq_some]

/-- The last of the events is the first one at which something is put out. -/
def FirstOutput (step : Machine State Event Output) (start : State) (events : List Event) (next : State)
    (outputs : List Output) : Prop :=
  outputs ≠ [] ∧ ∃ earlier event between, events = earlier ++ [event] ∧ run step start earlier = some (between, []) ∧
    step between event = some (next, outputs)

theorem FirstOutput.single {start next : State} {event : Event} {outputs : List Output}
    (taken : step start event = some (next, outputs)) (some_ : outputs ≠ []) : FirstOutput step start [event] next outputs :=
  ⟨some_, [], event, start, rfl, rfl, taken⟩

theorem FirstOutput.cons {start middle next : State} {event : Event} {events : List Event} {outputs : List Output}
    (taken : step start event = some (middle, [])) (first : FirstOutput step middle events next outputs) :
    FirstOutput step start (event :: events) next outputs := by
  obtain ⟨some_, earlier, last, between, rfl, ran, shown⟩ := first
  exact ⟨some_, event :: earlier, last, between, rfl, run_cons_eq_some.mpr ⟨middle, [], [], taken, ran, rfl⟩, shown⟩

/-- Two parts of one trace at whose ends something is put out for the first time are the same. -/
theorem FirstOutput.unique {start next next' : State} {events events' trace : List Event} {outputs outputs' : List Output}
    (first : FirstOutput step start events next outputs) (other : FirstOutput step start events' next' outputs')
    (within : events <+: trace) (within' : events' <+: trace) : events = events' ∧ next = next' ∧ outputs = outputs' := by
  -- The longer one would have put something out before its last event.
  have shorter : ∀ {events events' : List Event} {next next' : State} {outputs outputs' : List Output},
      FirstOutput step start events next outputs → FirstOutput step start events' next' outputs' → events <+: events' →
      events = events' := by
    rintro events events' next next' outputs outputs' ⟨some_, earlier, event, between, rfl, ran, taken⟩
      ⟨-, earlier', event', between', rfl, ran', -⟩ part
    rcases List.prefix_concat_iff.mp part with same | ⟨rest, rfl⟩
    · exact same
    · obtain ⟨middle, sent, more, reached, -, silent⟩ := run_append_eq_some.mp ran'
      obtain ⟨here, before, shown, again, stepped, rfl⟩ := run_concat_eq_some.mp reached
      obtain ⟨rfl, rfl⟩ := Prod.mk.inj (Option.some.inj (ran.symm.trans again))
      obtain ⟨rfl, rfl⟩ := Prod.mk.inj (Option.some.inj (taken.symm.trans stepped))
      simp only [List.nil_append, List.nil_eq, List.append_eq_nil_iff] at silent
      exact absurd silent.1 some_
  have same : events = events' := by
    rcases List.prefix_or_prefix_of_prefix within within' with part | part
    · exact shorter first other part
    · exact (shorter other first part).symm
  subst same
  obtain ⟨-, earlier, event, between, rfl, ran, taken⟩ := first
  obtain ⟨-, earlier', event', between', split, ran', taken'⟩ := other
  obtain ⟨rfl, last⟩ := List.append_inj' split rfl
  obtain rfl : event = event' := by simpa using last
  obtain ⟨rfl, -⟩ := Prod.mk.inj (Option.some.inj (ran.symm.trans ran'))
  exact ⟨rfl, Prod.mk.inj (Option.some.inj (taken.symm.trans taken'))⟩

/-- A property of the events so far, of the state and of what has been put out holds wherever the run of a trace passes. -/
def Throughout (step : Machine State Event Output) (start : State) (trace : List Event)
    (holds : List Event → State → List Output → Prop) : Prop :=
  ∀ earlier, earlier <+: trace → ∀ state outputs, run step start earlier = some (state, outputs) → holds earlier state outputs

/-- What holds throughout holds behind one more step. -/
theorem Throughout.after {start state next : State} {trace earlier : List Event} {event : Event} {sent outputs : List Output}
    {holds : List Event → State → List Output → Prop} (throughout : Throughout step start trace holds)
    (part : earlier ++ [event] <+: trace) (ran : run step start earlier = some (state, sent))
    (taken : step state event = some (next, outputs)) : holds (earlier ++ [event]) next (sent ++ outputs) :=
  throughout _ part _ _ (run_concat_eq_some.mpr ⟨_, _, _, ran, taken, rfl⟩)

/-- Every event of a trace comes in a state, and after events, that allow it. -/
def Allowed (step : Machine State Event Output) (start : State) (trace : List Event)
    (allows : List Event → State → Event → Prop) : Prop :=
  ∀ earlier event, earlier ++ [event] <+: trace → ∀ state outputs, run step start earlier = some (state, outputs) →
    allows earlier state event

/-- What holds at the start and is kept by every step that is allowed. -/
theorem Allowed.throughout {start : State} {trace : List Event} {holds : List Event → State → List Output → Prop}
    {allows : List Event → State → Event → Prop} (allowed : Allowed step start trace allows) (initially : holds [] start [])
    (kept : ∀ earlier state sent event next outputs, holds earlier state sent → allows earlier state event →
      step state event = some (next, outputs) → holds (earlier ++ [event]) next (sent ++ outputs)) :
    Throughout step start trace holds := by
  intro earlier part
  induction earlier using List.reverseRecOn with
  | nil =>
    intro state outputs ran
    cases ran
    exact initially
  | append_singleton earlier event ih =>
    intro state outputs ran
    obtain ⟨between, sent, rest, before, taken, rfl⟩ := run_concat_eq_some.mp ran
    have shorter : earlier <+: trace := (List.prefix_append _ _).trans part
    have here := ih shorter between sent before
    exact kept earlier between sent event state rest here (allowed earlier event part between sent before) taken

/-- Where a step keeps a property just when its event is allowed, a run has the property throughout just when it is allowed. -/
theorem throughout_iff_allowed {start final : State} {trace : List Event} {sent : List Output}
    {holds : List Event → State → List Output → Prop} {allows : List Event → State → Event → Prop}
    (ran : run step start trace = some (final, sent)) (initially : holds [] start [])
    (kept : ∀ earlier state sent event next outputs, run step start earlier = some (state, sent) → holds earlier state sent →
      step state event = some (next, outputs) → (holds (earlier ++ [event]) next (sent ++ outputs) ↔ allows earlier state event)) :
    Throughout step start trace holds ↔ Allowed step start trace allows := by
  constructor
  · intro throughout earlier event part between before reached
    obtain ⟨rest, rfl⟩ := part
    obtain ⟨next, all, more, ranTo, -, -⟩ := run_append_eq_some.mp ran
    obtain ⟨state, shown, outputs, reached', stepped, rfl⟩ := run_concat_eq_some.mp ranTo
    obtain ⟨rfl, rfl⟩ := Prod.mk.inj (Option.some.inj (reached.symm.trans reached'))
    have here := throughout earlier ((List.prefix_append _ _).trans (List.prefix_append _ _)) _ _ reached
    have later := throughout (earlier ++ [event]) (List.prefix_append _ _) _ _ ranTo
    exact (kept earlier between before event next outputs reached here stepped).mp later
  · intro allowed earlier part
    induction earlier using List.reverseRecOn with
    | nil =>
      intro state outputs reached
      cases reached
      exact initially
    | append_singleton earlier event ih =>
      intro state outputs reached
      obtain ⟨between, before, shown, reachedBefore, stepped, rfl⟩ := run_concat_eq_some.mp reached
      have here := ih ((List.prefix_append _ _).trans part) between before reachedBefore
      exact (kept earlier between before event state shown reachedBefore here stepped).mpr
        (allowed earlier event part between before reachedBefore)

/-- A machine whose steps are never disabled runs on every trace. -/
theorem run_enabled (enabled : ∀ state event, (step state event).isSome = true) (state : State) (trace : List Event) :
    ∃ final outputs, run step state trace = some (final, outputs) := by
  induction trace generalizing state with
  | nil => exact ⟨state, [], rfl⟩
  | cons event later ih =>
    obtain ⟨⟨next, first⟩, taken⟩ := Option.isSome_iff_exists.mp (enabled state event)
    obtain ⟨final, rest, continued⟩ := ih next
    exact ⟨final, first ++ rest, run_cons_eq_some.mpr ⟨next, first, rest, taken, continued, rfl⟩⟩

/-- What every step for a permitted event keeps holds after a run on permitted events. -/
theorem run_invariant_of_permitted {invariant : State → Prop} {permits : Event → Prop}
    (keeps : ∀ state event next outputs, permits event → invariant state → step state event = some (next, outputs) → invariant next)
    {state final : State} {trace : List Event} {outputs : List Output} (permitted : ∀ event ∈ trace, permits event)
    (holds : invariant state) (ran : run step state trace = some (final, outputs)) : invariant final := by
  induction trace generalizing state outputs with
  | nil =>
    obtain ⟨rfl, -⟩ : state = final ∧ [] = outputs := by simpa using ran
    exact holds
  | cons event later ih =>
    obtain ⟨next, first, rest, taken, continued, rfl⟩ := run_cons_eq_some.mp ran
    obtain ⟨here, others⟩ := List.forall_mem_cons.mp permitted
    exact ih others (keeps state event next first here holds taken) continued

/-- What every step keeps holds after every run. -/
theorem run_invariant {invariant : State → Prop}
    (keeps : ∀ state event next outputs, invariant state → step state event = some (next, outputs) → invariant next)
    {state final : State} {trace : List Event} {outputs : List Output}
    (holds : invariant state) (ran : run step state trace = some (final, outputs)) : invariant final :=
  have all : ∀ event ∈ trace, True := fun _ _ => trivial
  run_invariant_of_permitted (fun state event next outputs _ => keeps state event next outputs) all holds ran

section Simulation
variable {State' : Type*} {step' : Machine State' Event Output} {related : State → State' → Prop}

/-- Machines that stay related, and put out the same on the way, put out the same in all. -/
theorem run_outputs_of_related
    (keeps : ∀ state state' event, related state state' →
      Option.Rel (fun next next' => related next.1 next'.1 ∧ next.2 = next'.2) (step state event) (step' state' event))
    {state : State} {state' : State'} (start : related state state') (trace : List Event) :
    (run step state trace).map Prod.snd = (run step' state' trace).map Prod.snd := by
  induction trace generalizing state state' with
  | nil => rfl
  | cons event later ih =>
    have both := keeps state state' event start
    cases taken : step state event with
    | none =>
      rw [taken] at both
      cases taken' : step' state' event with
      | none =>
        rw [run, run, taken, taken']
        rfl
      | some pair' =>
        rw [taken'] at both
        cases both
    | some pair =>
      rw [taken] at both
      cases taken' : step' state' event with
      | none =>
        rw [taken'] at both
        cases both
      | some pair' =>
        rw [taken'] at both
        obtain ⟨further, same⟩ : related pair.1 pair'.1 ∧ pair.2 = pair'.2 := by
          cases both with
          | some both => exact both
        have rest := ih further
        cases continued : run step pair.1 later with
        | none =>
          rw [continued, Option.map_none, eq_comm, Option.map_eq_none_iff] at rest
          simp [run, taken, taken', continued, rest]
        | some result =>
          rw [continued, Option.map_some, eq_comm, Option.map_eq_some_iff] at rest
          obtain ⟨result', continued', outputs⟩ := rest
          simp [run, taken, taken', continued, continued', same, outputs]

end Simulation

end Machine
end Library
