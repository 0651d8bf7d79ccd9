import Apsdk.Library.Unfolding
import Apsdk.PlistObject

/-! What a binary property list stands for: objects that refer to each other by their
numbers, and the tree that unfolds from one of them. -/

namespace Apsdk.Plist
open Library Relation

/-- An integer of 8 bytes has a sign, a shorter one has none. -/
def readInteger (bytes : Bytes) : Int :=
  if bytes.length = 8 then (BitVec.ofNat 64 (beValue bytes)).toInt else beValue bytes

inductive Node where
  /-- A low nibble of 15 is not a value: it announces a length. -/
  | primitive (value : UInt8) (plain : value < 15)
  | integer (exponent : Fin 4) (bytes : Bytes) (width : bytes.length = 2 ^ exponent.val)
  | real (value : BitVec 64)
  | data (value : Bytes)
  | string (value : CString)
  | array (references : List Nat)
  | dict (entries : List (Nat × Nat))

namespace Node

/-- The objects that an object refers to. -/
def references : Node → List Nat
  | .array references => references
  | .dict entries => entries.map Prod.fst ++ entries.map Prod.snd
  | _ => []

def keys : Node → List Nat
  | .dict entries => entries.map Prod.fst
  | _ => []

end Node

/-- The text of a key. -/
def keyText (object : Object) : CString := object.stringGetValue.getD ⟨[], CString.nothing_zeroFree⟩

/-- The tree of an object, from the trees of those that it refers to. -/
def Node.assemble (children : Nat → Object) : Node → Object
  | .primitive value _ => .primitive value
  | .integer _ bytes _ => .integer (BitVec.ofInt 64 (readInteger bytes))
  | .real value => .real value
  | .data value => .data value
  | .string value => .string value
  | .array references => .array (references.map children)
  | .dict entries => .dict (entries.map fun entry => (keyText (children entry.1), children entry.2))

theorem Node.assemble_congr {node : Node} {children others : Nat → Object}
    (same : ∀ reference ∈ node.references, children reference = others reference) :
    node.assemble children = node.assemble others := by
  cases node with
  | array references =>
    exact congrArg Object.array (List.map_congr_left same)
  | dict entries =>
    apply congrArg Object.dict
    apply List.map_congr_left
    intro entry member
    rw [same entry.1 (List.mem_append_left _ (List.mem_map_of_mem member)),
      same entry.2 (List.mem_append_right _ (List.mem_map_of_mem member))]
  | _ => rfl

def Refers (nodes : List Node) (object other : Nat) : Prop := ∃ node, nodes[object]? = some node ∧ other ∈ node.references

/-- A document without cycles. Objects may be shared. -/
structure Graph where
  nodes : List Node
  root : Nat
  rooted : root < nodes.length
  closed : ∀ node ∈ nodes, ∀ reference ∈ node.references, reference < nodes.length
  keyed : ∀ node ∈ nodes, ∀ key ∈ node.keys, ∃ text, nodes[key]? = some (.string text)
  acyclic : ∀ object, ¬ TransGen (Refers nodes) object object

/-- The tree below an object, to a depth. -/
def unfold (nodes : List Node) : Nat → Nat → Object
  | 0, _ => .null
  | depth + 1, object => (nodes[object]?.map (Node.assemble (unfold nodes depth))).getD .null

theorem unfold_succ {nodes : List Node} {object : Nat} {node : Node} (found : nodes[object]? = some node) (depth : Nat) :
    unfold nodes (depth + 1) object = node.assemble (unfold nodes depth) := by
  rw [unfold, found]
  rfl

def assembly : Assembly Node Object := ⟨Node.references, Node.assemble, .null, fun _ _ _ => Node.assemble_congr⟩

theorem unfold_eq (nodes : List Node) (depth : Nat) : unfold nodes depth = assembly.unfold nodes depth := by
  induction depth with
  | zero => rfl
  | succ depth ih =>
    funext object
    rw [unfold, ih]
    rfl

namespace Graph
variable (graph : Graph)

/-- The tree that unfolds from an object. -/
def tree (object : Nat) : Object := unfold graph.nodes (graph.nodes.length + 1) object

theorem chainsWithin (object : Nat) : ChainsWithin (Refers graph.nodes) graph.nodes.length object :=
  assembly.chainsWithin graph.acyclic object

/-- The tree of an object is put together from the trees of those that it refers to. -/
theorem tree_eq {object : Nat} {node : Node} (found : graph.nodes[object]? = some node) :
    graph.tree object = node.assemble graph.tree := by
  have trees : graph.tree = assembly.value graph.nodes := by
    funext object
    rw [tree, unfold_eq]
    rfl
  rw [trees]
  exact assembly.value_eq graph.acyclic found

end Graph

end Apsdk.Plist
