import Mathlib.Logic.Basic

/-! Computations that leave a trace of events and may stop without a value. -/

namespace Library

/-- A computation without a value has run into undefined behaviour or out of fuel. -/
inductive Stop where
  | undefined
  | outOfFuel
deriving DecidableEq, Repr

structure Execution (Event State α : Type) where
  events : List Event
  state : State
  value : Except Stop α

structure Traced (Event State α : Type) where
  run : State → Execution Event State α

namespace Traced
variable {Event State α β : Type}

def ret (value : α) : Traced Event State α := ⟨fun state => ⟨[], state, .ok value⟩⟩

def andThen (first : Traced Event State α) (next : α → Traced Event State β) : Traced Event State β := ⟨fun state =>
  match first.run state with
  | ⟨events, state, .error reason⟩ => ⟨events, state, .error reason⟩
  | ⟨events, state, .ok value⟩ =>
    let later := (next value).run state
    ⟨events ++ later.events, later.state, later.value⟩⟩

instance : Monad (Traced Event State) where
  pure := ret
  bind := andThen

def emit (event : Event) : Traced Event State Unit := ⟨fun state => ⟨[event], state, .ok ()⟩⟩

def stop (reason : Stop) : Traced Event State α := ⟨fun state => ⟨[], state, .error reason⟩⟩

/-- A step that is defined only under a condition; the event tells what the condition is about. -/
def checked (event : Event) (condition : Prop) [Decidable condition] (value : α) : Traced Event State α :=
  ⟨fun state => ⟨[event], state, if condition then .ok value else .error .undefined⟩⟩

/-- The state a computation is in. -/
def get : Traced Event State State := ⟨fun state => ⟨[], state, .ok state⟩⟩

def modify (change : State → State) : Traced Event State Unit := ⟨fun state => ⟨[], change state, .ok ()⟩⟩

/-- A computation on a part of the state, whose events are events of the whole. -/
def zoom {Inner Part : Type} (event : Inner → Event) (part : State → Part) (put : Part → State → State)
    (inner : Traced Inner Part α) : Traced Event State α := ⟨fun state =>
  let ran := inner.run (part state)
  ⟨ran.events.map event, put ran.state state, ran.value⟩⟩

theorem bind_of_ok {first : Traced Event State α} {next : α → Traced Event State β} {state : State} {value : α}
    (done : (first.run state).value = .ok value) :
    (first >>= next).run state = ⟨(first.run state).events ++ ((next value).run (first.run state).state).events,
      ((next value).run (first.run state).state).state, ((next value).run (first.run state).state).value⟩ := by
  rcases run : first.run state with ⟨events, after, result⟩
  cases show result = .ok value by simpa only [run] using done
  exact show (andThen first next).run state = _ by simp only [andThen, run]

theorem bind_of_error {first : Traced Event State α} {next : α → Traced Event State β} {state : State} {reason : Stop}
    (stopped : (first.run state).value = .error reason) :
    (first >>= next).run state = ⟨(first.run state).events, (first.run state).state, .error reason⟩ := by
  rcases run : first.run state with ⟨events, after, result⟩
  cases show result = .error reason by simpa only [run] using stopped
  exact show (andThen first next).run state = _ by simp only [andThen, run]

/-- Every event of the run from a state satisfies a property. -/
def Emits (property : Event → Prop) (traced : Traced Event State α) (state : State) : Prop :=
  ∀ event ∈ (traced.run state).events, property event

section Rules
variable {property other : Event → Prop} {state : State}

theorem emits_pure (value : α) : Emits property (pure value : Traced Event State α) state :=
  fun _ member => nomatch member

theorem emits_stop (reason : Stop) : Emits property (stop reason : Traced Event State α) state :=
  fun _ member => nomatch member

theorem emits_emit {event : Event} : Emits property (emit event : Traced Event State Unit) state ↔ property event :=
  List.forall_mem_singleton

theorem emits_bind {first : Traced Event State α} {next : α → Traced Event State β} :
    Emits property (first >>= next) state ↔
      Emits property first state ∧
        ∀ value, (first.run state).value = .ok value → Emits property (next value) (first.run state).state := by
  unfold Emits
  cases done : (first.run state).value with
  | error reason =>
    rw [bind_of_error done]
    exact ⟨fun all => ⟨all, fun _ impossible => nomatch impossible⟩, And.left⟩
  | ok result =>
    rw [bind_of_ok done]
    simp only [List.forall_mem_append, Except.ok.injEq, forall_eq']

/-- Two properties of events agree on a computation when they agree on its parts. -/
theorem emits_bind_congr {first : Traced Event State α} {next : α → Traced Event State β}
    (here : Emits property first state ↔ Emits other first state)
    (later : ∀ value state, Emits property (next value) state ↔ Emits other (next value) state) :
    Emits property (first >>= next) state ↔ Emits other (first >>= next) state := by
  rw [emits_bind, emits_bind, here]
  exact and_congr_right fun _ => forall_congr' fun value => forall_congr' fun _ => later value _

theorem emits_bind_of_later {first : Traced Event State α} {next : α → Traced Event State β}
    (later : ∀ value state, Emits property (next value) state) :
    Emits property (first >>= next) state ↔ Emits property first state :=
  emits_bind.trans (and_iff_left fun value _ => later value _)

theorem emits_emit_bind {event : Event} {next : Unit → Traced Event State β} :
    Emits property (emit event >>= next) state ↔ property event ∧ Emits property (next ()) state := by
  rw [emits_bind, emits_emit]
  exact and_congr_right fun _ => ⟨fun all => all () rfl, fun here _ _ => here⟩

theorem emits_get_bind {next : State → Traced Event State β} :
    Emits property (get >>= next) state ↔ Emits property (next state) state := by
  rw [emits_bind]
  exact ⟨fun all => all.2 state rfl, fun later => ⟨fun _ member => (nomatch member), fun _ same => Except.ok.inj same ▸ later⟩⟩

theorem emits_modify_bind {change : State → State} {next : Unit → Traced Event State β} :
    Emits property (modify change >>= next) state ↔ Emits property (next ()) (change state) := by
  rw [emits_bind]
  exact ⟨fun all => all.2 () rfl, fun later => ⟨fun _ member => (nomatch member), fun _ _ => later⟩⟩

theorem emits_zoom {Inner Part : Type} {event : Inner → Event} {part : State → Part} {put : Part → State → State}
    {inner : Traced Inner Part α} :
    Emits property (zoom event part put inner) state ↔ Emits (fun inside => property (event inside)) inner (part state) :=
  List.forall_mem_map

section Checked
variable {event : Event} {condition : Prop} [Decidable condition] {value : α}

theorem emits_checked : Emits property (checked event condition value : Traced Event State α) state ↔ property event :=
  List.forall_mem_singleton

/-- What follows a checked step runs only where the condition holds. -/
theorem emits_checked_bind {next : α → Traced Event State β} :
    Emits property (checked event condition value >>= next) state ↔
      property event ∧ (condition → Emits property (next value) state) := by
  rw [emits_bind, emits_checked]
  refine and_congr_right fun _ => ?_
  by_cases holds : condition
  · simp only [checked, if_pos holds, Except.ok.injEq, forall_eq', forall_prop_of_true holds]
  · simp only [checked, if_neg holds, reduceCtorEq, false_implies, implies_true, forall_prop_of_false holds]

end Checked

end Rules

/-- Every event of the run satisfies a property, whatever state it begins in. -/
def Always (property : Event → Prop) (traced : Traced Event State α) : Prop := ∀ state, Emits property traced state

section Always
variable {property : Event → Prop}

theorem always_pure (value : α) : Always property (pure value : Traced Event State α) := fun _ => emits_pure value

theorem always_emit {event : Event} (holds : property event) : Always property (emit event : Traced Event State Unit) :=
  fun _ => emits_emit.mpr holds

theorem always_get : Always property (get : Traced Event State State) := fun _ _ member => nomatch member

theorem always_modify (change : State → State) : Always property (modify change : Traced Event State Unit) :=
  fun _ _ member => nomatch member

theorem Always.bind {first : Traced Event State α} {next : α → Traced Event State β} (always : Always property first)
    (later : ∀ value, Always property (next value)) : Always property (first >>= next) :=
  fun state => (emits_bind_of_later fun value => later value).mpr (always state)

end Always

/-- From every state the computation ends with the value. -/
def Yields (traced : Traced Event State α) (value : α) : Prop := ∀ state, (traced.run state).value = .ok value

theorem yields_pure (value : α) : Yields (pure value : Traced Event State α) value := fun _ => rfl

theorem yields_emit (event : Event) : Yields (emit event : Traced Event State Unit) () := fun _ => rfl

theorem yields_checked {event : Event} {condition : Prop} [Decidable condition] {value : α} (holds : condition) :
    Yields (checked event condition value : Traced Event State α) value := fun _ => if_pos holds

theorem Yields.bind {first : Traced Event State α} {next : α → Traced Event State β} {value : α} {result : β}
    (done : Yields first value) (later : Yields (next value) result) : Yields (first >>= next) result := by
  intro state
  rw [bind_of_ok (done state)]
  exact later _

/-- The computation ends with the value where the fuel suffices, and otherwise for lack of fuel. -/
def Ends (traced : Traced Event State α) (enough : Prop) [Decidable enough] (value : α) : Prop :=
  ∀ state, (traced.run state).value = if enough then .ok value else .error .outOfFuel

theorem Yields.ends {traced : Traced Event State α} {enough : Prop} [Decidable enough] {value : α}
    (done : Yields traced value) (holds : enough) : Ends traced enough value := by
  intro state
  rw [if_pos holds]
  exact done state

theorem Ends.congr {traced : Traced Event State α} {enough same : Prop} [Decidable enough] [Decidable same] {value : α}
    (ends : Ends traced enough value) (equivalent : enough ↔ same) : Ends traced same value := by
  intro state
  rw [ends state]
  exact if_congr equivalent rfl rfl

theorem ends_stop {enough : Prop} [Decidable enough] {value : α} (lacking : ¬ enough) :
    Ends (stop .outOfFuel : Traced Event State α) enough value := fun _ => (if_neg lacking).symm

theorem Ends.bind {first : Traced Event State α} {next : α → Traced Event State β} {enough further both : Prop}
    [Decidable enough] [Decidable further] [Decidable both] {value : α} {result : β} (done : Ends first enough value)
    (later : Ends (next value) further result) (split : both ↔ enough ∧ further) : Ends (first >>= next) both result := by
  intro state
  have here := done state
  by_cases holds : enough
  · rw [if_pos holds] at here
    rw [bind_of_ok here]
    refine (later _).trans ?_
    by_cases rest : further
    · rw [if_pos rest, if_pos (split.mpr ⟨holds, rest⟩)]
    · rw [if_neg rest, if_neg fun all => rest (split.mp all).2]
  · rw [if_neg holds] at here
    rw [bind_of_error here, if_neg fun all => holds (split.mp all).1]

theorem Yields.bind_ends {first : Traced Event State α} {next : α → Traced Event State β} {enough : Prop}
    [Decidable enough] {value : α} {result : β} (done : Yields first value) (later : Ends (next value) enough result) :
    Ends (first >>= next) enough result := by
  intro state
  rw [bind_of_ok (done state)]
  exact later _

theorem Ends.bind_yields {first : Traced Event State α} {next : α → Traced Event State β} {enough : Prop}
    [Decidable enough] {value : α} {result : β} (done : Ends first enough value) (later : Yields (next value) result) :
    Ends (first >>= next) enough result :=
  done.bind (later.ends trivial) (and_true enough).symm.to_iff

theorem emits_yields_bind {property : Event → Prop} {state : State} {first : Traced Event State α}
    {next : α → Traced Event State β} {value : α} (done : Yields first value) :
    Emits property (first >>= next) state ↔
      Emits property first state ∧ Emits property (next value) (first.run state).state := by
  rw [emits_bind, done state]
  simp only [Except.ok.injEq, forall_eq']

/-- The computation leaves the state alone. -/
def Keeps (traced : Traced Event State α) : Prop := ∀ state, (traced.run state).state = state

theorem keeps_pure (value : α) : Keeps (pure value : Traced Event State α) := fun _ => rfl

theorem keeps_emit (event : Event) : Keeps (emit event : Traced Event State Unit) := fun _ => rfl

theorem keeps_stop (reason : Stop) : Keeps (stop reason : Traced Event State α) := fun _ => rfl

theorem keeps_checked {event : Event} {condition : Prop} [Decidable condition] {value : α} :
    Keeps (checked event condition value : Traced Event State α) := fun _ => rfl

theorem Keeps.bind {first : Traced Event State α} {next : α → Traced Event State β} (keeps : Keeps first)
    (later : ∀ value, Keeps (next value)) : Keeps (first >>= next) := by
  intro state
  cases done : (first.run state).value with
  | error reason => rw [bind_of_error done, keeps state]
  | ok value => rw [bind_of_ok done, later value, keeps state]

/-- A computation that ends with a value has passed through its first part. -/
theorem value_bind {first : Traced Event State α} {next : α → Traced Event State β} {state : State} {result : β}
    (done : ((first >>= next).run state).value = .ok result) :
    ∃ value, (first.run state).value = .ok value ∧ ((next value).run (first.run state).state).value = .ok result := by
  cases here : (first.run state).value with
  | error reason =>
    rw [bind_of_error here] at done
    cases done
  | ok value =>
    rw [bind_of_ok here] at done
    exact ⟨value, rfl, done⟩

theorem value_checked {event : Event} {condition : Prop} [Decidable condition] {value result : α} {state : State}
    (done : ((checked event condition value : Traced Event State α).run state).value = .ok result) :
    condition ∧ result = value := by
  by_cases holds : condition
  · simp only [checked, if_pos holds, Except.ok.injEq] at done
    exact ⟨holds, done.symm⟩
  · simp only [checked, if_neg holds, reduceCtorEq] at done

theorem Yields.value_eq {traced : Traced Event State α} {value result : α} {state : State} (yields : Yields traced value)
    (done : (traced.run state).value = .ok result) : result = value :=
  Except.ok.inj (done.symm.trans (yields state))

/-- The computation can end with the value. -/
def MayEnd (traced : Traced Event State α) (value : α) : Prop := ∃ state, (traced.run state).value = .ok value

theorem MayEnd.eq_of_pure {value result : α} (ends : MayEnd (pure value : Traced Event State α) result) : result = value := by
  obtain ⟨_, done⟩ := ends
  exact (Except.ok.inj done).symm

theorem MayEnd.bind {first : Traced Event State α} {next : α → Traced Event State β} {result : β}
    (ends : MayEnd (first >>= next) result) : ∃ value, MayEnd first value ∧ MayEnd (next value) result := by
  obtain ⟨state, done⟩ := ends
  obtain ⟨value, here, rest⟩ := value_bind done
  exact ⟨value, ⟨state, here⟩, ⟨_, rest⟩⟩

theorem MayEnd.yields_bind {first : Traced Event State α} {next : α → Traced Event State β} {value : α} {result : β}
    (ends : MayEnd (first >>= next) result) (yields : Yields first value) : MayEnd (next value) result := by
  obtain ⟨other, ⟨_, here⟩, rest⟩ := ends.bind
  obtain rfl := yields.value_eq here
  exact rest

/-- Every value that the computation can end with satisfies a property. -/
def Returns (post : α → Prop) (traced : Traced Event State α) : Prop :=
  ∀ state value, (traced.run state).value = .ok value → post value

theorem returns_pure {post : α → Prop} {value : α} (holds : post value) :
    Returns post (pure value : Traced Event State α) :=
  fun _ _ same => Except.ok.inj same ▸ holds

theorem Returns.bind {first : Traced Event State α} {next : α → Traced Event State β} {post : α → Prop} {final : β → Prop}
    (returns : Returns post first) (later : ∀ value, post value → Returns final (next value)) :
    Returns final (first >>= next) := by
  intro state result done
  obtain ⟨value, here, rest⟩ := value_bind done
  exact later value (returns state value here) _ result rest

/-- Where nothing is known about what comes first. -/
theorem returns_bind {first : Traced Event State α} {next : α → Traced Event State β} {post : β → Prop}
    (later : ∀ value, Returns post (next value)) : Returns post (first >>= next) := by
  intro state result done
  obtain ⟨value, -, rest⟩ := value_bind done
  exact later value _ result rest

/-- From a state the computation ends with a value, in another state. -/
def Outcome (traced : Traced Event State α) (state : State) (value : α) (after : State) : Prop :=
  (traced.run state).value = .ok value ∧ (traced.run state).state = after

section Outcome
variable {first : Traced Event State α} {next : α → Traced Event State β} {state after : State} {value result : α}

theorem Outcome.unique {other : α} {elsewhere : State} (ends : Outcome first state value after)
    (again : Outcome first state other elsewhere) : value = other ∧ after = elsewhere :=
  ⟨Except.ok.inj (ends.1.symm.trans again.1), ends.2.symm.trans again.2⟩

theorem outcome_pure_iff : Outcome (pure value : Traced Event State α) state result after ↔ result = value ∧ after = state :=
  ⟨fun ends => ⟨(Except.ok.inj ends.1).symm, ends.2.symm⟩, fun same => ⟨congrArg Except.ok same.1.symm, same.2.symm⟩⟩

theorem outcome_bind_iff {result : β} :
    Outcome (first >>= next) state result after ↔
      ∃ value between, Outcome first state value between ∧ Outcome (next value) between result after := by
  constructor
  · rintro ⟨done, same⟩
    obtain ⟨value, here, rest⟩ := value_bind done
    rw [bind_of_ok here] at same
    exact ⟨value, _, ⟨here, rfl⟩, rest, same⟩
  · rintro ⟨value, between, ⟨here, rfl⟩, rest, same⟩
    rw [Outcome, bind_of_ok here]
    exact ⟨rest, same⟩

theorem outcome_modify_bind_iff {change : State → State} {next : Unit → Traced Event State β} {result : β} :
    Outcome (modify change >>= next) state result after ↔ Outcome (next ()) (change state) result after := Iff.rfl

theorem Yields.outcome_iff (yields : Yields first value) (keeps : Keeps first) :
    Outcome first state result after ↔ result = value ∧ after = state := by
  rw [Outcome, yields state, keeps state, Except.ok.injEq, eq_comm, eq_comm (a := after)]

theorem Yields.outcome_bind_iff (yields : Yields first value) (keeps : Keeps first) {result : β} :
    Outcome (first >>= next) state result after ↔ Outcome (next value) state result after := by
  rw [Traced.outcome_bind_iff]
  constructor
  · rintro ⟨other, between, here, rest⟩
    obtain ⟨rfl, rfl⟩ := (yields.outcome_iff keeps).mp here
    exact rest
  · exact fun rest => ⟨value, state, (yields.outcome_iff keeps).mpr ⟨rfl, rfl⟩, rest⟩

theorem outcome_emit_bind_iff {event : Event} {next : Unit → Traced Event State β} {result : β} :
    Outcome (emit event >>= next) state result after ↔ Outcome (next ()) state result after :=
  (yields_emit event).outcome_bind_iff fun _ => rfl

theorem outcome_checked_bind_iff {event : Event} {condition : Prop} [Decidable condition] {result : β} :
    Outcome (checked event condition value >>= next) state result after ↔
      condition ∧ Outcome (next value) state result after := by
  constructor
  · intro ends
    obtain ⟨other, between, ⟨here, same⟩, rest⟩ := Traced.outcome_bind_iff.mp ends
    obtain ⟨holds, rfl⟩ := value_checked here
    obtain rfl : state = between := same
    exact ⟨holds, rest⟩
  · rintro ⟨holds, rest⟩
    exact ((yields_checked holds).outcome_bind_iff keeps_checked).mpr rest

/-- From a state the computation ends with some value. -/
def Halts (traced : Traced Event State α) (state : State) : Prop := ∃ value after, Outcome traced state value after

theorem halts_pure (value : α) : Halts (pure value : Traced Event State α) state := ⟨value, state, rfl, rfl⟩

theorem Outcome.bind_halts {between : State} (ends : Outcome first state value between)
    (later : Halts (next value) between) : Halts (first >>= next) state := by
  obtain ⟨result, after, rest⟩ := later
  exact ⟨result, after, Traced.outcome_bind_iff.mpr ⟨value, between, ends, rest⟩⟩

theorem Halts.bind (halts : Halts first state) (later : ∀ value after, Outcome first state value after →
    Halts (next value) after) : Halts (first >>= next) state := by
  obtain ⟨value, after, ends⟩ := halts
  exact ends.bind_halts (later value after ends)

end Outcome

end Traced

end Library
