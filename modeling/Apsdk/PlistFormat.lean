import Apsdk.Library.Unfolding
import Apsdk.PlistDecoder

/-! The whole format of binary property lists, with the text and the numbers that its
senders use where ASCII and eight bytes do not do. -/

namespace Apsdk.Plist.Format
open Library Relation

/-- The decoder has no case for these types. -/
def PLIST_TYPE_UUID : UInt8 := 0x80
def PLIST_TYPE_SET : UInt8 := 0xC0

inductive Node where
  /-- A low nibble of 15 is not a value: it announces a length. -/
  | primitive (value : UInt8) (plain : value < 15)
  | integer (exponent : Fin 5) (bytes : Bytes) (width : bytes.length = 2 ^ exponent.val)
  | single (value : BitVec 32)
  | real (value : BitVec 64)
  | date (value : Bytes) (width : value.length = 8)
  | data (value : Bytes)
  | string (value : Bytes)
  | utf16 (units : List (BitVec 16))
  | uuid (size : Fin 16) (value : Bytes) (width : value.length = size.val + 1)
  | array (references : List Nat)
  | set (references : List Nat)
  | dict (entries : List (Nat × Nat))

/-- Two bytes for each code unit. -/
def unitBytes (units : List (BitVec 16)) : Bytes := units.flatMap fun unit => beBytes 2 unit.toNat

namespace Node

/-- The objects that an object refers to. -/
def references : Node → List Nat
  | .array references => references
  | .set references => references
  | .dict entries => entries.map Prod.fst ++ entries.map Prod.snd
  | _ => []

def keys : Node → List Nat
  | .dict entries => entries.map Prod.fst
  | _ => []

def IsText : Node → Prop
  | .string _ => True
  | .utf16 _ => True
  | _ => False

/-- The high nibble of the marker. -/
def kind : Node → UInt8
  | .primitive _ _ => PLIST_TYPE_PRIMITIVE
  | .integer _ _ _ => PLIST_TYPE_INTEGER
  | .single _ => PLIST_TYPE_REAL
  | .real _ => PLIST_TYPE_REAL
  | .date _ _ => PLIST_TYPE_DATE
  | .data _ => PLIST_TYPE_DATA
  | .string _ => PLIST_TYPE_STRING
  | .utf16 _ => PLIST_TYPE_UNICODE_STRING
  | .uuid _ _ _ => PLIST_TYPE_UUID
  | .array _ => PLIST_TYPE_ARRAY
  | .set _ => PLIST_TYPE_SET
  | .dict _ => PLIST_TYPE_DICT

/-- The low nibble of the marker, or the number behind it. -/
def length : Node → Nat
  | .primitive value _ => value.toNat
  | .integer exponent _ _ => exponent.val
  | .single _ => 2
  | .real _ => 3
  | .date _ _ => 3
  | .data value => value.length
  | .string value => value.length
  | .utf16 units => units.length
  | .uuid size _ _ => size.val
  | .array references => references.length
  | .set references => references.length
  | .dict entries => entries.length

/-- Whether the length may have any form. -/
def Measured : Node → Prop
  | .data _ => True
  | .string _ => True
  | .utf16 _ => True
  | .array _ => True
  | .set _ => True
  | .dict _ => True
  | _ => False

/-- What is behind the marker. -/
def payload (reflen : Nat) : Node → Bytes
  | .primitive _ _ => []
  | .integer _ bytes _ => bytes
  | .single value => beBytes 4 value.toNat
  | .real value => beBytes 8 value.toNat
  | .date value _ => value
  | .data value => value
  | .string value => value
  | .utf16 units => unitBytes units
  | .uuid _ value _ => value
  | .array references => references.flatMap (beBytes reflen)
  | .set references => references.flatMap (beBytes reflen)
  | .dict entries => (entries.map Prod.fst).flatMap (beBytes reflen) ++ (entries.map Prod.snd).flatMap (beBytes reflen)

end Node

/-- The text of a key, as far as it goes into a `char *`. -/
def keyText : Object → CString
  | .string value => value
  | .unicodeString buffer => .ofBuffer buffer
  | _ => ⟨[], CString.nothing_zeroFree⟩

/-- The tree of an object, from the trees of those that it refers to. Integers are taken modulo `2^64`; no
tree stands for a type that the decoder has no case for. -/
def Node.assemble (host : Host) (children : Nat → Object) : Node → Object
  | .primitive value _ => .primitive value
  | .integer _ bytes _ => .integer (BitVec.ofNat 64 (beValue bytes))
  | .single value => .real (host.widen value)
  | .real value => .real value
  | .date value _ => .date value
  | .data value => .data value
  | .string value => .string (.ofBuffer value)
  | .utf16 units => .unicodeString (unitBytes units)
  | .uuid _ _ _ => .null
  | .array references => .array (references.map children)
  | .set _ => .null
  | .dict entries => .dict (entries.map fun entry => (keyText (children entry.1), children entry.2))

theorem Node.assemble_congr (host : Host) (node : Node) (children others : Nat → Object)
    (same : ∀ reference ∈ node.references, children reference = others reference) :
    node.assemble host children = node.assemble host others := by
  cases node with
  | array references =>
    exact congrArg Object.array (List.map_congr_left same)
  | dict entries =>
    apply congrArg Object.dict
    apply List.map_congr_left
    intro entry member
    rw [same entry.1 (List.mem_append_left _ (List.mem_map_of_mem member)),
      same entry.2 (List.mem_append_right _ (List.mem_map_of_mem member))]
  | _ => rfl

def assembly (host : Host) : Assembly Node Object := ⟨Node.references, Node.assemble host, .null, Node.assemble_congr host⟩

def Refers (nodes : List Node) (object other : Nat) : Prop := ∃ node, nodes[object]? = some node ∧ other ∈ node.references

/-- A document without cycles. Objects may be shared. -/
structure Graph where
  nodes : List Node
  root : Nat
  rooted : root < nodes.length
  closed : ∀ node ∈ nodes, ∀ reference ∈ node.references, reference < nodes.length
  keyed : ∀ node ∈ nodes, ∀ key ∈ node.keys, ∃ text, nodes[key]? = some text ∧ text.IsText
  acyclic : ∀ object, ¬ TransGen (Refers nodes) object object

namespace Graph
variable (graph : Graph) (host : Host)

/-- The tree that unfolds from an object. -/
def tree (object : Nat) : Object := (assembly host).value graph.nodes object

include host in
theorem chainsWithin (object : Nat) : ChainsWithin (Refers graph.nodes) graph.nodes.length object :=
  (assembly host).chainsWithin graph.acyclic object

/-- The tree of an object is put together from the trees of those that it refers to. -/
theorem tree_eq {object : Nat} {node : Node} (found : graph.nodes[object]? = some node) :
    graph.tree host object = node.assemble host (graph.tree host) :=
  (assembly host).value_eq graph.acyclic found

end Graph

/-- What the decoder makes the right object of: no integer of 16 bytes, no text in UTF-16 but the empty one, no dict with
a key in UTF-16, and no type without a case. -/
def Node.Spared (nodes : List Node) : Node → Prop
  | .integer exponent _ _ => exponent.val < 4
  | .utf16 units => units = []
  | .uuid _ _ _ => False
  | .set _ => False
  | .dict entries => ∀ entry ∈ entries, ∀ units, nodes[entry.1]? ≠ some (.utf16 units)
  | _ => True

end Apsdk.Plist.Format
