import Apsdk.Library.Numbering
import Apsdk.Proofs.PlistRoundTrip

/-! The table of a written tree: its objects in depth-first order, each at its own
place, and each referred to by its number. -/

namespace Apsdk.Plist
open Library

/-- One step from a container to what it refers to. -/
inductive Step
  | element (index : Nat)
  | key (index : Nat)
  | value (index : Nat)
deriving DecidableEq, Repr

abbrev Path := List Step

/-- What the encoder numbers. -/
inductive TreeNode
  | object (object : Object)
  | key (text : CString)

mutual

/-- The nodes of a tree in preorder with the paths to them; a key comes right before its value. -/
def Object.preorder (path : Path) : Object → List (Path × TreeNode)
  | .array values => (path, .object (.array values)) :: valuesPreorder path values 0
  | .dict entries => (path, .object (.dict entries)) :: entriesPreorder path entries 0
  | .null => [(path, .object .null)]
  | .primitive value => [(path, .object (.primitive value))]
  | .integer value => [(path, .object (.integer value))]
  | .real value => [(path, .object (.real value))]
  | .date value => [(path, .object (.date value))]
  | .data value => [(path, .object (.data value))]
  | .string value => [(path, .object (.string value))]
  | .unicodeString value => [(path, .object (.unicodeString value))]

def valuesPreorder (path : Path) : List Object → Nat → List (Path × TreeNode)
  | [], _ => []
  | value :: values, i => value.preorder (path ++ [.element i]) ++ valuesPreorder path values (i + 1)

def entriesPreorder (path : Path) : List (CString × Object) → Nat → List (Path × TreeNode)
  | [], _ => []
  | (key, value) :: entries, i =>
    (path ++ [.key i], .key key) :: (value.preorder (path ++ [.value i]) ++ entriesPreorder path entries (i + 1))

end

/-- The first byte of a marker. -/
def headMarker (kind : UInt8) (length : Nat) : UInt8 := kind ||| if length < 15 then UInt8.ofNat length else 0x0f

/-- The marker byte of a node; dates and UTF-16 strings have none. -/
def TreeNode.marker : TreeNode → UInt8
  | .key text => headMarker PLIST_TYPE_STRING text.bytes.length
  | .object (.primitive value) => PLIST_TYPE_PRIMITIVE ||| value
  | .object (.integer value) => PLIST_TYPE_INTEGER ||| blistIntegerLength value.toInt
  | .object (.real _) => PLIST_TYPE_REAL ||| 3
  | .object (.data value) => headMarker PLIST_TYPE_DATA value.length
  | .object (.string value) => headMarker PLIST_TYPE_STRING value.bytes.length
  | .object (.array values) => headMarker PLIST_TYPE_ARRAY values.length
  | .object (.dict entries) => headMarker PLIST_TYPE_DICT entries.length
  | .object _ => 0

section Order

mutual

theorem length_preorder : ∀ (object : Object) (path : Path), (object.preorder path).length = object.count
  | .array values, path => by rw [Object.preorder, Object.count, List.length_cons, length_valuesPreorder, Nat.add_comm]
  | .dict entries, path => by rw [Object.preorder, Object.count, List.length_cons, length_entriesPreorder, Nat.add_comm]
  | .null, _ => rfl
  | .primitive _, _ => rfl
  | .integer _, _ => rfl
  | .real _, _ => rfl
  | .date _, _ => rfl
  | .data _, _ => rfl
  | .string _, _ => rfl
  | .unicodeString _, _ => rfl

theorem length_valuesPreorder : ∀ (values : List Object) (path : Path) (i : Nat),
    (valuesPreorder path values i).length = valuesCount values
  | [], _, _ => rfl
  | value :: values, path, i => by
    rw [valuesPreorder, valuesCount, List.length_append, length_preorder, length_valuesPreorder]

theorem length_entriesPreorder : ∀ (entries : List (CString × Object)) (path : Path) (i : Nat),
    (entriesPreorder path entries i).length = entriesCount entries
  | [], _, _ => rfl
  | (key, value) :: entries, path, i => by
    rw [entriesPreorder, entriesCount, List.length_cons, List.length_append, length_preorder, length_entriesPreorder]
    omega

end

/-- A tree's own node comes first. -/
theorem preorder_head (object : Object) (path : Path) : ∃ rest, object.preorder path = (path, .object object) :: rest := by
  cases object <;> exact ⟨_, rfl⟩

end Order

section Slots
variable {data : Bytes} {reflen : Nat} {nodes : List (Path × TreeNode)}

/-- A slot holds the number of a node. -/
def Slot (data : Bytes) (reflen : Nat) (nodes : List (Path × TreeNode)) (position : Nat) (node : Path × TreeNode) : Prop :=
  ∃ number, nodes[number]? = some node ∧ At data position (beBytes reflen number)

/-- A container's slots hold the numbers of what it refers to, the keys of a dict before its values. -/
def SlotsRefer (data : Bytes) (reflen : Nat) (nodes : List (Path × TreeNode)) (offset : Nat) (path : Path) : TreeNode → Prop
  | .object (.array values) => ∀ i value, values[i]? = some value →
    Slot data reflen nodes (offset + markerSize values.length values.length + i * reflen) (path ++ [.element i], .object value)
  | .object (.dict entries) => ∀ i key value, entries[i]? = some (key, value) →
    Slot data reflen nodes (offset + markerSize entries.length entries.length + i * reflen) (path ++ [.key i], .key key) ∧
    Slot data reflen nodes (offset + markerSize entries.length entries.length + entries.length * reflen + i * reflen)
      (path ++ [.value i], .object value)
  | _ => True

/-- A node is where the table has it, and refers to the nodes that it should. -/
def Recorded (data : Bytes) (reftab : List Nat) (reflen : Nat) (nodes : List (Path × TreeNode)) (number : Nat)
    (node : Path × TreeNode) : Prop :=
  ∃ offset, reftab[number]? = some offset ∧ data[offset]? = some node.2.marker ∧ SlotsRefer data reflen nodes offset node.1 node.2

/-- A number among others of one width. -/
theorem slot_found {position i number : Nat} {numbers : List Nat} (found : At data position (numbers.flatMap (beBytes reflen)))
    (entry : numbers[i]? = some number) : At data (position + i * reflen) (beBytes reflen number) := by
  induction numbers generalizing position i with
  | nil => cases entry
  | cons first numbers ih =>
    rw [List.flatMap_cons] at found
    cases i with
    | zero =>
      obtain rfl := Option.some.inj entry
      rw [Nat.zero_mul, Nat.add_zero]
      exact found.left
    | succ i =>
      have later := ih found.right entry
      rw [length_beBytes] at later
      rw [Nat.add_one_mul, Nat.add_comm (i * reflen), ← Nat.add_assoc]
      exact later

theorem head_marker (kind : UInt8) (length : Nat) (rest : Bytes) :
    ∃ tail, markerBytes kind length ++ rest = headMarker kind length :: tail := by
  unfold markerBytes headMarker
  split
  · exact ⟨_, rfl⟩
  · exact ⟨_, rfl⟩

/-- The nodes of the tree stand in the table from some number on. -/
abbrev Listed (nodes : List (Path × TreeNode)) (number : Nat) (entries : List (Path × TreeNode)) : Prop :=
  Numbering (fun number node => nodes[number]? = some node) number entries

theorem values_listed {values : List Object} {path : Path} {number start i : Nat} {value : Object}
    (listed : Listed nodes number (valuesPreorder path values start)) (entry : values[i]? = some value) :
    ∃ id, (valueIds values number)[i]? = some id ∧ nodes[id]? = some (path ++ [.element (start + i)], .object value) := by
  induction values generalizing number start i with
  | nil => cases entry
  | cons first values ih =>
    obtain ⟨here, later⟩ := numbering_append.mp listed
    rw [length_preorder] at later
    cases i with
    | zero =>
      obtain rfl := Option.some.inj entry
      obtain ⟨rest, head⟩ := preorder_head first (path ++ [.element start])
      rw [head] at here
      exact ⟨number, rfl, here.1⟩
    | succ i =>
      obtain ⟨id, known, node⟩ := ih later entry
      rw [Nat.add_right_comm] at node
      exact ⟨id, known, node⟩

theorem entries_listed {entries : List (CString × Object)} {path : Path} {number start i : Nat} {key : CString} {value : Object}
    (listed : Listed nodes number (entriesPreorder path entries start)) (entry : entries[i]? = some (key, value)) :
    ∃ id, (keyIds entries number)[i]? = some id ∧ (entryIds entries number)[i]? = some (id + 1) ∧
      nodes[id]? = some (path ++ [.key (start + i)], .key key) ∧
      nodes[id + 1]? = some (path ++ [.value (start + i)], .object value) := by
  induction entries generalizing number start i with
  | nil => cases entry
  | cons first entries ih =>
    obtain ⟨name, listed⟩ := listed
    obtain ⟨here, later⟩ := numbering_append.mp listed
    rw [length_preorder] at later
    cases i with
    | zero =>
      obtain rfl := Option.some.inj entry
      obtain ⟨rest, head⟩ := preorder_head value (path ++ [.value start])
      rw [head] at here
      exact ⟨number, rfl, rfl, name, here.1⟩
    | succ i =>
      obtain ⟨id, known, known', node, node'⟩ := ih later entry
      rw [Nat.add_right_comm] at node node'
      exact ⟨id, known, known', node, node'⟩

variable {reftab : List Nat} {bytes rest : Bytes} {path : Path} {id start : Nat}

theorem stands_recorded {node : TreeNode} (small : ∀ offset ∈ reftab, offset < 2 ^ 64)
    (stands : Stands data (reftab.map (BitVec.ofNat 64)) id start bytes) (marked : ∃ tail, bytes = node.marker :: tail)
    (refers : SlotsRefer data reflen nodes start path node) : Recorded data reftab reflen nodes id (path, node) := by
  obtain ⟨entry, listed, place⟩ := stands.entry
  obtain ⟨tail, rfl⟩ := marked
  rw [List.getElem?_map, Option.map_eq_some_iff] at listed
  obtain ⟨offset, recorded, rfl⟩ := listed
  rw [BitVec.toNat_ofNat, Nat.mod_eq_of_lt (small offset (List.mem_of_getElem? recorded))] at place
  obtain rfl := place
  exact ⟨offset, recorded, stands.bytes.head, refers⟩

mutual

/-- Every node of a tree that has been placed is recorded where it is. -/
theorem placed_recorded (small : ∀ offset ∈ reftab, offset < 2 ^ 64) : ∀ (object : Object) (path : Path) (id start : Nat),
    object.Everywhere Built → Placed data (reftab.map (BitVec.ofNat 64)) reflen object id start →
    Listed nodes id (object.preorder path) → Numbering (Recorded data reftab reflen nodes) id (object.preorder path)
  | .null, _, _, _, built, _, _ => built.elim
  | .date _, _, _, _, built, _, _ => built.elim
  | .unicodeString _, _, _, _, built, _, _ => built.elim
  | .primitive _, _, _, _, _, placed, _ => ⟨stands_recorded small placed ⟨_, rfl⟩ trivial, trivial⟩
  | .integer _, _, _, _, _, placed, _ => ⟨stands_recorded small placed ⟨_, rfl⟩ trivial, trivial⟩
  | .real _, _, _, _, _, placed, _ => ⟨stands_recorded small placed ⟨_, rfl⟩ trivial, trivial⟩
  | .data value, _, _, _, _, placed, _ =>
    ⟨stands_recorded small placed (head_marker PLIST_TYPE_DATA value.length value) trivial, trivial⟩
  | .string value, _, _, _, _, placed, _ =>
    ⟨stands_recorded small placed (head_marker PLIST_TYPE_STRING value.bytes.length value.bytes) trivial, trivial⟩
  | .array values, path, id, start, built, placed, listed => by
    obtain ⟨stands, children⟩ := placed
    refine ⟨stands_recorded small stands (head_marker PLIST_TYPE_ARRAY values.length _) ?_,
      placedValues_recorded small values path 0 (id + 1) _ built.2 children listed.2⟩
    intro i value entry
    obtain ⟨number, known, node⟩ := values_listed listed.2 entry
    rw [Nat.zero_add] at node
    have slots := stands.bytes.right
    rw [length_markerBytes] at slots
    exact ⟨number, node, slot_found slots known⟩
  | .dict entries, path, id, start, built, placed, listed => by
    obtain ⟨stands, children⟩ := placed
    refine ⟨stands_recorded small stands (head_marker PLIST_TYPE_DICT entries.length _) ?_,
      placedEntries_recorded small entries path 0 (id + 1) _ built.2 children listed.2⟩
    intro i key value entry
    obtain ⟨number, known, known', name, node⟩ := entries_listed listed.2 entry
    rw [Nat.zero_add] at name node
    have slots := stands.bytes.right
    rw [length_markerBytes] at slots
    have later := slots.right
    rw [length_references, length_keyIds] at later
    exact ⟨⟨number, name, slot_found slots.left known⟩, ⟨number + 1, node, slot_found later known'⟩⟩

theorem placedValues_recorded (small : ∀ offset ∈ reftab, offset < 2 ^ 64) : ∀ (values : List Object) (path : Path)
    (i id start : Nat), ValuesEverywhere Built values → PlacedValues data (reftab.map (BitVec.ofNat 64)) reflen values id start →
    Listed nodes id (valuesPreorder path values i) → Numbering (Recorded data reftab reflen nodes) id (valuesPreorder path values i)
  | [], _, _, _, _, _, _, _ => trivial
  | value :: values, path, i, id, start, built, placed, listed => by
    obtain ⟨here, later⟩ := numbering_append.mp listed
    rw [length_preorder] at later
    refine numbering_append.mpr ⟨placed_recorded small value _ id start built.1 placed.1 here, ?_⟩
    rw [length_preorder]
    exact placedValues_recorded small values path (i + 1) _ _ built.2 placed.2 later

theorem placedEntries_recorded (small : ∀ offset ∈ reftab, offset < 2 ^ 64) : ∀ (entries : List (CString × Object)) (path : Path)
    (i id start : Nat), EntriesEverywhere Built entries →
    PlacedEntries data (reftab.map (BitVec.ofNat 64)) reflen entries id start →
    Listed nodes id (entriesPreorder path entries i) →
    Numbering (Recorded data reftab reflen nodes) id (entriesPreorder path entries i)
  | [], _, _, _, _, _, _, _ => trivial
  | (key, value) :: entries, path, i, id, start, built, placed, listed => by
    obtain ⟨name, here, others⟩ := placed
    obtain ⟨present, later⟩ := numbering_append.mp listed.2
    rw [length_preorder] at later
    refine ⟨stands_recorded small name (head_marker PLIST_TYPE_STRING key.bytes.length key.bytes) trivial,
      numbering_append.mpr ⟨placed_recorded small value _ (id + 1) _ built.1 here present, ?_⟩⟩
    rw [length_preorder]
    exact placedEntries_recorded small entries path (i + 1) _ _ built.2 others later

end

end Slots

/-- A writer goes on from another one with objects whose offsets rise. -/
structure Rises (before after : Writer) : Prop where
  forward : before.dataidx ≤ after.dataidx
  reftab : ∃ offsets, after.reftab = before.reftab ++ offsets ∧ offsets.Pairwise (· < ·) ∧
    ∀ offset ∈ offsets, before.dataidx ≤ offset ∧ offset < after.dataidx

section Rising
variable {before middle after writer : Writer}

theorem rises_of_reftab (forward : before.dataidx ≤ after.dataidx) (same : after.reftab = before.reftab) : Rises before after :=
  ⟨forward, [], same.trans (List.append_nil _).symm, .nil, fun _ member => nomatch member⟩

theorem Rises.trans (here : Rises before middle) (there : Rises middle after) : Rises before after := by
  obtain ⟨offsets, extended, sorted, bounded⟩ := here.reftab
  obtain ⟨later, extended', sorted', bounded'⟩ := there.reftab
  have forward := here.forward
  have further := there.forward
  refine ⟨forward.trans further, offsets ++ later, ?_, ?_, ?_⟩
  · rw [extended', extended, List.append_assoc]
  · refine List.pairwise_append.mpr ⟨sorted, sorted', fun offset old offset' new => ?_⟩
    exact (bounded offset old).2.trans_le (bounded' offset' new).1
  · intro offset member
    cases List.mem_append.mp member with
    | inl old => exact ⟨(bounded offset old).1, (bounded offset old).2.trans_le further⟩
    | inr new => exact ⟨forward.trans (bounded' offset new).1, (bounded' offset new).2⟩

/-- An object that has a marker begins before those that come after it. -/
theorem marked_rises (forward : writer.dataidx < after.dataidx) (same : after.reftab = writer.register.reftab) :
    Rises writer after := by
  refine ⟨forward.le, [writer.dataidx], same, List.pairwise_singleton _ _, fun offset member => ?_⟩
  obtain rfl := List.mem_singleton.mp member
  exact ⟨le_rfl, forward⟩

theorem markerSize_pos (length measured : Nat) : 0 < markerSize length measured := by
  unfold markerSize
  split
  · exact Nat.one_pos
  · omega

theorem serializeMarker_rises (kind : UInt8) (length : Nat) (writer : Writer) :
    Rises writer (serializeMarker kind length writer.register) := by
  have appends := serializeMarker_appends kind length writer.register
  have positive := markerSize_pos length length
  apply marked_rises
  · rw [appends.dataidx, length_markerBytes, register_dataidx]
    omega
  · exact appends.reftab

theorem put_rises (bytes : Bytes) : Rises writer (writer.put bytes) := rises_of_reftab (Nat.le_add_right _ _) rfl

theorem serializeBytes_rises (kind : UInt8) (bytes : Bytes) (writer : Writer) :
    Rises writer (serializeBytes kind bytes writer.register) :=
  (serializeMarker_rises kind bytes.length writer).trans (put_rises bytes)

theorem skip_rises (count : Nat) : Rises writer (writer.skip count) := rises_of_reftab (Nat.le_add_right _ _) rfl

theorem fill_rises (position : Nat) (bytes : Bytes) : Rises writer (writer.fill position bytes) := rises_of_reftab le_rfl rfl

mutual

theorem serializeObject_rises (reflen : Nat) : ∀ (object : Object) (writer : Writer), object.Everywhere Built →
    Rises writer (serializeObject reflen object writer).2
  | .null, _, built => built.elim
  | .date _, _, built => built.elim
  | .unicodeString _, _, built => built.elim
  | .primitive _, writer, _ => marked_rises (Nat.lt_add_one _) rfl
  | .integer value, writer, _ => by
    have marker : Rises writer (writer.register.put [PLIST_TYPE_INTEGER ||| blistIntegerLength value.toInt]) :=
      marked_rises (Nat.lt_add_one _) rfl
    exact marker.trans (put_rises _)
  | .real value, writer, _ => by
    have marker : Rises writer (writer.register.put [PLIST_TYPE_REAL ||| 3]) := marked_rises (Nat.lt_add_one _) rfl
    exact marker.trans (put_rises _)
  | .data value, writer, _ => serializeBytes_rises _ _ _
  | .string value, writer, _ => serializeBytes_rises _ _ _
  | .array values, writer, built =>
    ((serializeMarker_rises _ _ writer).trans (skip_rises _)).trans (serializeValues_rises reflen values _ _ built.2)
  | .dict entries, writer, built =>
    (((serializeMarker_rises _ _ writer).trans (skip_rises _)).trans (skip_rises _)).trans
      (serializeEntries_rises reflen entries _ _ _ built.2)

theorem serializeValues_rises (reflen : Nat) : ∀ (values : List Object) (valueidx : Nat) (writer : Writer),
    ValuesEverywhere Built values → Rises writer (serializeValues reflen values valueidx writer)
  | [], _, _, _ => rises_of_reftab le_rfl rfl
  | value :: values, _, writer, built =>
    ((serializeObject_rises reflen value writer built.1).trans (fill_rises _ _)).trans
      (serializeValues_rises reflen values _ _ built.2)

theorem serializeEntries_rises (reflen : Nat) : ∀ (entries : List (CString × Object)) (keyidx valueidx : Nat) (writer : Writer),
    EntriesEverywhere Built entries → Rises writer (serializeEntries reflen entries keyidx valueidx writer)
  | [], _, _, _, _ => rises_of_reftab le_rfl rfl
  | (key, value) :: entries, _, _, writer, built =>
    ((((serializeBytes_rises PLIST_TYPE_STRING key.bytes writer).trans
      (serializeObject_rises reflen value _ built.1)).trans (fill_rises _ _)).trans (fill_rises _ _)).trans
      (serializeEntries_rises reflen entries _ _ _ built.2)

end

end Rising

section Paths

mutual

theorem preorder_under : ∀ (object : Object) (path : Path), ∀ node ∈ object.preorder path, path <+: node.1
  | .array values, path => by
    intro node member
    cases List.mem_cons.mp member with
    | inl root => exact root ▸ List.prefix_rfl
    | inr below =>
      obtain ⟨j, -, under⟩ := valuesPreorder_under values path 0 node below
      exact (List.prefix_append _ _).trans under
  | .dict entries, path => by
    intro node member
    cases List.mem_cons.mp member with
    | inl root => exact root ▸ List.prefix_rfl
    | inr below =>
      obtain ⟨j, -, under⟩ := entriesPreorder_under entries path 0 node below
      cases under with
      | inl name => exact (List.prefix_append _ _).trans name
      | inr value => exact (List.prefix_append _ _).trans value
  | .null, path => fun _ member => List.mem_singleton.mp member ▸ List.prefix_rfl
  | .primitive _, path => fun _ member => List.mem_singleton.mp member ▸ List.prefix_rfl
  | .integer _, path => fun _ member => List.mem_singleton.mp member ▸ List.prefix_rfl
  | .real _, path => fun _ member => List.mem_singleton.mp member ▸ List.prefix_rfl
  | .date _, path => fun _ member => List.mem_singleton.mp member ▸ List.prefix_rfl
  | .data _, path => fun _ member => List.mem_singleton.mp member ▸ List.prefix_rfl
  | .string _, path => fun _ member => List.mem_singleton.mp member ▸ List.prefix_rfl
  | .unicodeString _, path => fun _ member => List.mem_singleton.mp member ▸ List.prefix_rfl

theorem valuesPreorder_under : ∀ (values : List Object) (path : Path) (i : Nat),
    ∀ node ∈ valuesPreorder path values i, ∃ j, i ≤ j ∧ path ++ [.element j] <+: node.1
  | [], _, _ => fun _ member => nomatch member
  | value :: values, path, i => by
    intro node member
    cases List.mem_append.mp member with
    | inl here => exact ⟨i, le_rfl, preorder_under value _ node here⟩
    | inr later =>
      obtain ⟨j, beyond, under⟩ := valuesPreorder_under values path (i + 1) node later
      exact ⟨j, by omega, under⟩

theorem entriesPreorder_under : ∀ (entries : List (CString × Object)) (path : Path) (i : Nat),
    ∀ node ∈ entriesPreorder path entries i, ∃ j, i ≤ j ∧ (path ++ [.key j] <+: node.1 ∨ path ++ [.value j] <+: node.1)
  | [], _, _ => fun _ member => nomatch member
  | (key, value) :: entries, path, i => by
    intro node member
    cases List.mem_cons.mp member with
    | inl name => exact ⟨i, le_rfl, .inl (name ▸ List.prefix_rfl)⟩
    | inr member =>
      cases List.mem_append.mp member with
      | inl here => exact ⟨i, le_rfl, .inr (preorder_under value _ node here)⟩
      | inr later =>
        obtain ⟨j, beyond, under⟩ := entriesPreorder_under entries path (i + 1) node later
        exact ⟨j, by omega, under⟩

end

/-- What is under one step from a place is not under another one. -/
theorem step_unique {path place : Path} {step other : Step} (under : path ++ [step] <+: place)
    (under' : path ++ [other] <+: place) : step = other := by
  obtain ⟨tail, rfl⟩ := under
  rw [List.append_assoc, List.prefix_append_right_inj] at under'
  obtain ⟨tail', same⟩ := under'
  exact (List.cons.inj same).1.symm

/-- Nothing is under itself and a step. -/
theorem not_under_self {path : Path} {step : Step} : ¬ path ++ [step] <+: path := by
  intro under
  have shorter := under.length_le
  rw [List.length_append, List.length_singleton] at shorter
  omega

mutual

/-- No path occurs twice. -/
theorem preorder_apart : ∀ (object : Object) (path : Path), (object.preorder path).Pairwise (fun node other => node.1 ≠ other.1)
  | .array values, path => by
    refine List.pairwise_cons.mpr ⟨fun node member same => ?_, valuesPreorder_apart values path 0⟩
    obtain ⟨j, -, under⟩ := valuesPreorder_under values path 0 node member
    exact not_under_self (same ▸ under)
  | .dict entries, path => by
    refine List.pairwise_cons.mpr ⟨fun node member same => ?_, entriesPreorder_apart entries path 0⟩
    obtain ⟨j, -, under⟩ := entriesPreorder_under entries path 0 node member
    cases under with
    | inl name => exact not_under_self (same ▸ name)
    | inr value => exact not_under_self (same ▸ value)
  | .null, _ => List.pairwise_singleton _ _
  | .primitive _, _ => List.pairwise_singleton _ _
  | .integer _, _ => List.pairwise_singleton _ _
  | .real _, _ => List.pairwise_singleton _ _
  | .date _, _ => List.pairwise_singleton _ _
  | .data _, _ => List.pairwise_singleton _ _
  | .string _, _ => List.pairwise_singleton _ _
  | .unicodeString _, _ => List.pairwise_singleton _ _

theorem valuesPreorder_apart : ∀ (values : List Object) (path : Path) (i : Nat),
    (valuesPreorder path values i).Pairwise (fun node other => node.1 ≠ other.1)
  | [], _, _ => .nil
  | value :: values, path, i => by
    refine List.pairwise_append.mpr ⟨preorder_apart value _, valuesPreorder_apart values path (i + 1), ?_⟩
    intro node here other later same
    have under := preorder_under value _ node here
    obtain ⟨j, beyond, under'⟩ := valuesPreorder_under values path (i + 1) other later
    rw [← same] at under'
    cases step_unique under under'
    omega

theorem entriesPreorder_apart : ∀ (entries : List (CString × Object)) (path : Path) (i : Nat),
    (entriesPreorder path entries i).Pairwise (fun node other => node.1 ≠ other.1)
  | [], _, _ => .nil
  | (key, value) :: entries, path, i => by
    refine List.pairwise_cons.mpr ⟨fun node member same => ?_, List.pairwise_append.mpr
      ⟨preorder_apart value _, entriesPreorder_apart entries path (i + 1), ?_⟩⟩
    · cases List.mem_append.mp member with
      | inl here =>
        have under := preorder_under value _ node here
        rw [← same] at under
        cases step_unique under List.prefix_rfl
      | inr later =>
        obtain ⟨j, beyond, under⟩ := entriesPreorder_under entries path (i + 1) node later
        rw [← same] at under
        cases under with
        | inl name =>
          cases step_unique name List.prefix_rfl
          omega
        | inr value => cases step_unique value List.prefix_rfl
    · intro node here other later same
      have under := preorder_under value _ node here
      obtain ⟨j, beyond, under'⟩ := entriesPreorder_under entries path (i + 1) other later
      rw [← same] at under'
      cases under' with
      | inl name => cases step_unique under name
      | inr value =>
        cases step_unique under value
        omega

end

end Paths

/-- What the table of a document says about the tree in it. -/
structure ObjectTable (object : Object) (data : Bytes) (reftab : List Nat) : Prop where
  counted : reftab.length = (plan object).objects
  numbered : (object.preorder []).length = reftab.length
  apart : (object.preorder []).Pairwise (fun node other => node.1 ≠ other.1)
  rising : reftab.Pairwise (· < ·)
  recorded : ∀ id node, (object.preorder [])[id]? = some node →
    Recorded data reftab (plan object).reflen (object.preorder []) id node
  references : ∀ id < reftab.length, id < 256 ^ (plan object).reflen
  offsets : ∀ offset ∈ reftab, offset < 256 ^ (plan object).offlen

/-- The encoder numbers every tree of the public constructors in preorder, records each object where it is, and cuts off
no number. A block of memory has fewer than `2^64` bytes. -/
theorem objects_tabled (host : Host) (memory : ∀ allocations size, host.alloc allocations size = true → size < 2 ^ 64)
    (object : Object) (built : object.Everywhere Built) (data : Bytes) (encoding : toBplist host object = .ok data) :
    ObjectTable object data (serializeObject (plan object).reflen object headed).2.reftab := by
  have encoded := toBplist_parts encoding
  have length : data.length = (plan object).buflen := by
    rw [toBplist_ok encoding, buffer, List.length_map, List.length_range]
  have small : data.length < 2 ^ 64 := by
    rw [length]
    unfold toBplist at encoding
    split_ifs at encoding with _ allocated
    exact memory 0 _ allocated
  obtain ⟨bounded, references⟩ := encoded_widths encoded small
  have inside : ∀ offset ∈ (serializeObject (plan object).reflen object headed).2.reftab, offset < 2 ^ 64 := by
    intro offset member
    have bound := encoded.bounded offset member
    have total := encoded.length
    omega
  obtain ⟨-, offsets, recorded, sorted, -⟩ := serializeObject_rises (plan object).reflen object headed built
  refine ⟨encoded.counted.trans encoded.objects.symm, ?_, preorder_apart object [], ?_, ?_, ?_, bounded⟩
  · rw [length_preorder, encoded.counted]
  · rw [recorded]
    exact sorted
  · intro id node found
    have all := placed_recorded inside object [] 0 8 built (encoded_placed encoded small) (numbering_self [] _)
    have here := all.get found
    rw [Nat.zero_add] at here
    exact here
  · intro id below
    rw [encoded.counted] at below
    omega

/-- A host whose blocks are smaller than `2^64` bytes. -/
def boundedHost : Host := ⟨fun _ size => size < 2 ^ 64, fun pattern => pattern.zeroExtend 64⟩

theorem sampleTree_tabled : ObjectTable sampleTree (buffer (plan sampleTree).buflen (serialize sampleTree).log)
    (serializeObject (plan sampleTree).reflen sampleTree headed).2.reftab :=
  objects_tabled boundedHost (fun _ _ => of_decide_eq_true) sampleTree
    ⟨trivial, ⟨trivial, trivial, trivial, trivial⟩, trivial⟩ _ rfl

end Apsdk.Plist
