import Apsdk.Library.Machine

/-! Programs against a reference that lists items: the program puts out a rendering of each
item, and is undefined as soon as one of them cannot be rendered. -/

namespace Library

universe u

variable {State State' : Type u} {Reference Reference' Event Item Output : Type*}

/-- The result of the program, beside the state and the items of the reference. -/
inductive Renders (render : Item → Output) (Renderable : Item → Prop) (related : State → Reference → Prop) :
    Option (State × List Output) → Reference × List Item → Prop where
  | defined {state final items} (renderable : ∀ item ∈ items, Renderable item) (reached : related state final) :
      Renders render Renderable related (some (state, items.map render)) (final, items)
  | undefined {final items item} (member : item ∈ items) (unrenderable : ¬ Renderable item) :
      Renders render Renderable related none (final, items)

namespace Renders
variable {render : Item → Output} {Renderable : Item → Prop} {related : State → Reference → Prop}
  {related' : State' → Reference' → Prop}

/-- Nothing is put out for no items. -/
theorem silent {state : State} {final : Reference} (reached : related state final) :
    Renders render Renderable related (some (state, [])) (final, []) :=
  .defined (List.forall_mem_nil _) reached

/-- The result is defined just when every item can be rendered. -/
theorem defined_iff {result : Option (State × List Output)} {final : Reference} {items : List Item}
    (renders : Renders render Renderable related result (final, items)) :
    result.map Prod.snd = some (items.map render) ↔ ∀ item ∈ items, Renderable item := by
  cases renders with
  | defined renderable reached => exact iff_of_true rfl renderable
  | undefined member unrenderable =>
    refine iff_of_false ?_ fun renderable => unrenderable (renderable _ member)
    intro defined
    cases defined

/-- One program after the other. -/
theorem bind {first : Option (State × List Output)} {between : Reference} {items : List Item}
    {next : State → Option (State' × List Output)} {final : Reference'} {more : List Item}
    (renders : Renders render Renderable related first (between, items))
    (continues : ∀ state, related state between → Renders render Renderable related' (next state) (final, more)) :
    Renders render Renderable related'
      (do let (state, outputs) ← first
          let (last, rest) ← next state
          return (last, outputs ++ rest)) (final, items ++ more) := by
  cases renders with
  | undefined member unrenderable => exact .undefined (List.mem_append_left _ member) unrenderable
  | @defined state _ _ renderable reached =>
    have further := continues state reached
    simp only [Option.bind_eq_bind, Option.bind_some]
    generalize next state = result at further ⊢
    cases further with
    | undefined member unrenderable => exact .undefined (List.mem_append_right _ member) unrenderable
    | @defined last _ _ renderable' reached' =>
      have all : ∀ item ∈ items ++ more, Renderable item := List.forall_mem_append.mpr ⟨renderable, renderable'⟩
      have rendered : Renders render Renderable related' (some (last, (items ++ more).map render)) (final, items ++ more) :=
        .defined all reached'
      rw [List.map_append] at rendered
      exact rendered

end Renders

/-- The reference over a trace: the state that it reaches, and all items on the way. -/
def itemize (reference : Reference → Event → Reference × List Item) (state : Reference) : List Event → Reference × List Item
  | [] => (state, [])
  | event :: later =>
    let (next, items) := reference state event
    let (final, more) := itemize reference next later
    (final, items ++ more)

/-- A machine whose steps render the steps of the reference renders its traces. -/
theorem Machine.run_renders {step : Machine State Event Output} {reference : Reference → Event → Reference × List Item}
    {render : Item → Output} {Renderable : Item → Prop} {related : State → Reference → Prop}
    (steps : ∀ state final event, related state final → Renders render Renderable related (step state event) (reference final event))
    {state : State} {start : Reference} (initially : related state start) (trace : List Event) :
    Renders render Renderable related (Machine.run step state trace) (itemize reference start trace) := by
  induction trace generalizing state start with
  | nil => exact .silent initially
  | cons event later ih => exact (steps state start event initially).bind fun next reached => ih reached

end Library
