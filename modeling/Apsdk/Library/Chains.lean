import Mathlib.Data.Set.Card
import Mathlib.Order.CompletePartialOrder
import Mathlib.Logic.Relation

/-! Relations that are followed from a root. Where only finitely many elements have
successors and none of those that are reached leads back to itself, the length of
the chains from the root is bounded. -/

namespace Library
open Relation

variable {α : Type*} {next : α → α → Prop}

/-- Every chain from an element has at most so many steps. -/
def ChainsWithin (next : α → α → Prop) : Nat → α → Prop
  | 0, element => ∀ other, ¬ next element other
  | steps + 1, element => ∀ other, next element other → ChainsWithin next steps other

theorem ChainsWithin.succ {steps : Nat} {element : α} (within : ChainsWithin next steps element) :
    ChainsWithin next (steps + 1) element := by
  induction steps generalizing element with
  | zero => exact fun other step => absurd step (within other)
  | succ steps ih => exact fun other step => ih (within other step)

theorem ChainsWithin.mono {steps more : Nat} {element : α} (within : ChainsWithin next steps element) (le : steps ≤ more) :
    ChainsWithin next more element := by
  induction le with
  | refl => exact within
  | step _ ih => exact ih.succ

/-- An element that is reached and leads back to itself is an obstacle; there must be none. -/
def Acyclic (next : α → α → Prop) (root : α) : Prop := ∀ element, ReflTransGen next root element → ¬ TransGen next element element

theorem Acyclic.step {root other : α} (acyclic : Acyclic next root) (step : next root other) : Acyclic next other :=
  fun element reached => acyclic element (.head step reached)

/-- What a root leads to and has successors itself. -/
def inner (next : α → α → Prop) (root : α) : Set α := {element | (∃ other, next element other) ∧ ReflTransGen next root element}

/-- A step leaves an element behind for good. -/
theorem Acyclic.inner_ssubset {root other : α} (acyclic : Acyclic next root) (step : next root other) :
    inner next other ⊂ inner next root := by
  constructor
  · rintro element ⟨successor, reached⟩
    exact ⟨successor, .head step reached⟩
  · intro whole
    have back : root ∈ inner next other := whole ⟨⟨other, step⟩, .refl⟩
    exact acyclic root .refl (.head' step back.2)

theorem Acyclic.chainsWithin (finite : {element | ∃ other, next element other}.Finite) {root : α}
    (acyclic : Acyclic next root) : ChainsWithin next (inner next root).ncard root := by
  have inside : ∀ root, (inner next root).Finite := fun root => finite.subset fun element member => member.1
  generalize size : (inner next root).ncard = steps
  induction steps using Nat.strong_induction_on generalizing root with
  | _ steps ih =>
    cases steps with
    | zero =>
      intro other step
      have empty : inner next root = ∅ := (Set.ncard_eq_zero (inside root)).mp size
      have member : root ∈ inner next root := ⟨⟨other, step⟩, .refl⟩
      rw [empty] at member
      exact member
    | succ steps =>
      intro other step
      have fewer : (inner next other).ncard < steps + 1 :=
        size ▸ Set.ncard_lt_ncard (acyclic.inner_ssubset step) (inside root)
      have within := ih _ fewer (acyclic.step step) rfl
      exact within.mono (Nat.le_of_lt_succ fewer)

end Library
