import Apsdk.Library.Traced

/-! What a traced computation may touch. A state is seen part by part; a
computation that is confined to some parts leaves the view of every other one
as it was, and none of its events is about another one. -/

namespace Library

structure Parts (Part Event State : Type) where
  View : Part → Type
  view : (part : Part) → State → View part
  /-- The events that are about a part. -/
  shows : Part → Event → Prop

namespace Traced
variable {Part Event State α β : Type} (parts : Parts Part Event State) (touched : List Part)

/-- From a state the computation does not reach beyond the parts. -/
def ConfinedAt (traced : Traced Event State α) (state : State) : Prop :=
  ∀ part ∉ touched, parts.view part (traced.run state).state = parts.view part state ∧
    Emits (fun event => ¬ parts.shows part event) traced state

/-- Whatever state the computation begins in. -/
def Confined (traced : Traced Event State α) : Prop := ∀ state, ConfinedAt parts touched traced state

variable {parts touched} {traced : Traced Event State α} {state : State}

theorem confined_pure (value : α) : Confined parts touched (pure value : Traced Event State α) :=
  fun _ _ _ => ⟨rfl, emits_pure value⟩

theorem confined_stop (reason : Stop) : Confined parts touched (stop reason : Traced Event State α) :=
  fun _ _ _ => ⟨rfl, emits_stop reason⟩

theorem confined_get : Confined parts touched (get : Traced Event State State) := fun state _ _ => ⟨rfl, always_get state⟩

theorem confined_emit {event : Event} (apart : ∀ part ∉ touched, ¬ parts.shows part event) :
    Confined parts touched (emit event : Traced Event State Unit) :=
  fun _ part outside => ⟨rfl, emits_emit.mpr (apart part outside)⟩

theorem confined_checked {event : Event} {condition : Prop} [Decidable condition] {value : α}
    (apart : ∀ part ∉ touched, ¬ parts.shows part event) :
    Confined parts touched (checked event condition value : Traced Event State α) :=
  fun _ part outside => ⟨rfl, emits_checked.mpr (apart part outside)⟩

theorem confinedAt_modify {change : State → State}
    (keeps : ∀ part ∉ touched, parts.view part (change state) = parts.view part state) :
    ConfinedAt parts touched (modify change : Traced Event State Unit) state :=
  fun part outside => ⟨keeps part outside, always_modify change state⟩

theorem confined_zoom {Inner Piece : Type} {event : Inner → Event} {piece : State → Piece} {put : Piece → State → State}
    {inner : Traced Inner Piece α} (apart : ∀ part ∉ touched, ∀ inside, ¬ parts.shows part (event inside))
    (keeps : ∀ part ∉ touched, ∀ value state, parts.view part (put value state) = parts.view part state) :
    Confined parts touched (zoom event piece put inner) :=
  fun state part outside => ⟨keeps part outside _ state, emits_zoom.mpr fun inside _ => apart part outside inside⟩

theorem ConfinedAt.bind {first : Traced Event State α} {next : α → Traced Event State β}
    (here : ConfinedAt parts touched first state)
    (later : ∀ value, (first.run state).value = .ok value → ConfinedAt parts touched (next value) (first.run state).state) :
    ConfinedAt parts touched (first >>= next) state := by
  intro part outside
  obtain ⟨kept, silent⟩ := here part outside
  refine ⟨?_, emits_bind.mpr ⟨silent, fun value done => (later value done part outside).2⟩⟩
  cases done : (first.run state).value with
  | error reason => rw [bind_of_error done, kept]
  | ok value => rw [bind_of_ok done, (later value done part outside).1, kept]

theorem Confined.bind {first : Traced Event State α} {next : α → Traced Event State β} (here : Confined parts touched first)
    (later : ∀ value, Confined parts touched (next value)) : Confined parts touched (first >>= next) :=
  fun state => (here state).bind fun value _ => later value _

theorem Confined.view (confined : Confined parts touched traced) {part : Part} (outside : part ∉ touched) (state : State) :
    parts.view part (traced.run state).state = parts.view part state := (confined state part outside).1

theorem Confined.silent (confined : Confined parts touched traced) {part : Part} (outside : part ∉ touched) (state : State)
    {event : Event} (member : event ∈ (traced.run state).events) : ¬ parts.shows part event :=
  (confined state part outside).2 event member

end Traced
end Library
