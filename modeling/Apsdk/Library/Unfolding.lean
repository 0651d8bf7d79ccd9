import Apsdk.Library.Chains
import Mathlib.Order.Interval.Set.Nat

/-! Numbered nodes that refer to each other, and the values that are put together along
the references. Where no node leads back to itself, each has one value. -/

namespace Library
open Relation

/-- How a node's value is made of the values of those that it refers to; a number without a node has a value, too. -/
structure Assembly (Node Value : Type) where
  references : Node → List Nat
  assemble : (Nat → Value) → Node → Value
  missing : Value
  congr : ∀ (node : Node) (values others : Nat → Value),
    (∀ reference ∈ references node, values reference = others reference) → assemble values node = assemble others node

namespace Assembly
variable {Node Value : Type} (assembly : Assembly Node Value) {nodes : List Node} {object : Nat} {node : Node}

def Leads (nodes : List Node) (object other : Nat) : Prop :=
  ∃ node, nodes[object]? = some node ∧ other ∈ assembly.references node

/-- The value of a node, to a depth. -/
def unfold (nodes : List Node) : Nat → Nat → Value
  | 0, _ => assembly.missing
  | depth + 1, object => (nodes[object]?.map (assembly.assemble (unfold nodes depth))).getD assembly.missing

theorem unfold_succ (found : nodes[object]? = some node) (depth : Nat) :
    assembly.unfold nodes (depth + 1) object = assembly.assemble (assembly.unfold nodes depth) node := by
  rw [unfold, found]
  rfl

/-- What holds at each depth for the missing value, and at the next one for what is assembled. -/
theorem unfold_induction (property : Nat → Value → Prop) (missing : ∀ depth, property depth assembly.missing)
    (assembled : ∀ (depth : Nat) (node : Node) (values : Nat → Value), (∀ reference, property depth (values reference)) →
      property (depth + 1) (assembly.assemble values node))
    (depth object : Nat) : property depth (assembly.unfold nodes depth object) := by
  induction depth generalizing object with
  | zero => exact missing 0
  | succ depth ih =>
    cases found : nodes[object]? with
    | none =>
      rw [unfold, found]
      exact missing (depth + 1)
    | some node =>
      rw [unfold_succ assembly found]
      exact assembled depth node _ ih

theorem unfold_congr {depth more : Nat}
    (same : ∀ other, assembly.Leads nodes object other → assembly.unfold nodes depth other = assembly.unfold nodes more other) :
    assembly.unfold nodes (depth + 1) object = assembly.unfold nodes (more + 1) object := by
  cases found : nodes[object]? with
  | none =>
    rw [unfold, unfold, found]
    rfl
  | some node =>
    rw [unfold_succ assembly found, unfold_succ assembly found]
    exact assembly.congr node _ _ fun reference member => same reference ⟨node, found, member⟩

/-- Below the longest chain there is nothing to unfold. -/
theorem unfold_stable {steps : Nat} (within : ChainsWithin (assembly.Leads nodes) steps object) {depth : Nat}
    (enough : steps ≤ depth) : assembly.unfold nodes (depth + 1) object = assembly.unfold nodes (steps + 1) object := by
  induction steps generalizing object depth with
  | zero => exact assembly.unfold_congr fun other leads => absurd leads (within other)
  | succ steps ih =>
    obtain ⟨depth, rfl⟩ := Nat.exists_eq_add_of_le' (Nat.lt_of_succ_le enough)
    apply assembly.unfold_congr
    intro other leads
    exact ih (within other leads) (Nat.le_of_succ_le_succ enough)

theorem chainsWithin (acyclic : ∀ object, ¬ TransGen (assembly.Leads nodes) object object) (object : Nat) :
    ChainsWithin (assembly.Leads nodes) nodes.length object := by
  have inside : {object | ∃ other, assembly.Leads nodes object other} ⊆ Set.Iio nodes.length := by
    rintro object ⟨other, node, found, -⟩
    exact (List.getElem?_eq_some_iff.mp found).1
  have finite : (Set.Iio nodes.length).Finite := Set.finite_lt_nat nodes.length
  have none : Acyclic (assembly.Leads nodes) object := fun element _ => acyclic element
  refine (none.chainsWithin (finite.subset inside)).mono ?_
  calc (inner (assembly.Leads nodes) object).ncard
    _ ≤ (Set.Iio nodes.length).ncard := Set.ncard_le_ncard (fun element member => inside member.1) finite
    _ = nodes.length := Set.ncard_Iio_nat nodes.length

/-- Where references lead to higher numbers only, none leads back. -/
theorem acyclic_of_rising (rising : ∀ object (node : Node), nodes[object]? = some node →
    ∀ reference ∈ assembly.references node, object < reference) (object : Nat) :
    ¬ TransGen (assembly.Leads nodes) object object := by
  intro cycle
  have rises : ∀ {last}, TransGen (assembly.Leads nodes) object last → object < last := by
    intro last chain
    induction chain with
    | single leads =>
      obtain ⟨node, found, member⟩ := leads
      exact rising _ node found _ member
    | tail _ leads ih =>
      obtain ⟨node, found, member⟩ := leads
      exact ih.trans (rising _ node found _ member)
  exact Nat.lt_irrefl object (rises cycle)

/-- The value of a node. -/
def value (nodes : List Node) (object : Nat) : Value := assembly.unfold nodes (nodes.length + 1) object

/-- A value is put together from those of the nodes referred to. -/
theorem value_eq (acyclic : ∀ object, ¬ TransGen (assembly.Leads nodes) object object) (found : nodes[object]? = some node) :
    assembly.value nodes object = assembly.assemble (assembly.value nodes) node := by
  have below : object < nodes.length := (List.getElem?_eq_some_iff.mp found).1
  obtain ⟨count, size⟩ := Nat.exists_eq_add_of_le' (Nat.zero_lt_of_lt below)
  have within := assembly.chainsWithin acyclic object
  rw [value, unfold_succ assembly found]
  apply assembly.congr
  intro reference member
  rw [size] at within
  rw [value, size]
  exact (assembly.unfold_stable (within reference ⟨node, found, member⟩) (Nat.le_succ count)).symm

end Assembly

end Library
