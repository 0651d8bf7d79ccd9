import Mathlib.Data.List.Basic

/-! Lists whose entries are numbered one after the other, from some number on. -/

namespace Library
variable {α : Type*} {holds : Nat → α → Prop}

/-- Every entry has a property together with its number. -/
def Numbering (holds : Nat → α → Prop) : Nat → List α → Prop
  | _, [] => True
  | number, entry :: rest => holds number entry ∧ Numbering holds (number + 1) rest

theorem numbering_append {number : Nat} {first second : List α} :
    Numbering holds number (first ++ second) ↔
      Numbering holds number first ∧ Numbering holds (number + first.length) second := by
  induction first generalizing number with
  | nil => exact (true_and _).symm.to_iff
  | cons entry first ih =>
    have moved : number + (entry :: first).length = number + 1 + first.length := by
      rw [List.length_cons]
      omega
    rw [moved, List.cons_append, Numbering, Numbering, ih, and_assoc]

theorem Numbering.get {number k : Nat} {entries : List α} {entry : α} (numbering : Numbering holds number entries)
    (found : entries[k]? = some entry) : holds (number + k) entry := by
  induction entries generalizing number k with
  | nil => cases found
  | cons head rest ih =>
    cases k with
    | zero =>
      obtain rfl := Option.some.inj found
      exact numbering.1
    | succ k =>
      have later := ih numbering.2 found
      rw [Nat.add_right_comm] at later
      exact later

/-- Every entry is found in the list under its number. -/
theorem numbering_self (before entries : List α) :
    Numbering (fun number entry => (before ++ entries)[number]? = some entry) before.length entries := by
  induction entries generalizing before with
  | nil => trivial
  | cons entry rest ih =>
    refine ⟨?_, ?_⟩
    · show (before ++ entry :: rest)[before.length]? = some entry
      rw [List.getElem?_append_right (Nat.le_refl _), Nat.sub_self]
      rfl
    · have later := ih (before ++ [entry])
      rw [List.length_append, List.append_assoc] at later
      exact later

end Library
