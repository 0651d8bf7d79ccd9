import Apsdk.PlistGraph
import Apsdk.Proofs.PlistRoundTrip

/-! Decoding a document gives the tree that unfolds from its root, whoever has laid the
document out: nothing depends on where the objects are, or on the widths of numbers. -/

namespace Apsdk.Plist
open Library Traced Relation

/-- The bytes of an object, with any form of its length. -/
def Node.Encoded (reflen : Nat) : Node → Bytes → Prop
  | .primitive value _, bytes => bytes = [value]
  | .integer exponent value _, bytes => bytes = (PLIST_TYPE_INTEGER ||| UInt8.ofNat exponent.val) :: value
  | .real value, bytes => bytes = (PLIST_TYPE_REAL ||| 3) :: beBytes 8 value.toNat
  | .data value, bytes => ∃ marker, Marker PLIST_TYPE_DATA value.length marker ∧ bytes = marker ++ value
  | .string value, bytes => ∃ marker, Marker PLIST_TYPE_STRING value.bytes.length marker ∧ bytes = marker ++ value.bytes
  | .array references, bytes => ∃ marker, Marker PLIST_TYPE_ARRAY references.length marker ∧
    bytes = marker ++ references.flatMap (beBytes reflen)
  | .dict entries, bytes => ∃ marker, Marker PLIST_TYPE_DICT entries.length marker ∧
    bytes = marker ++ ((entries.map Prod.fst).flatMap (beBytes reflen) ++ (entries.map Prod.snd).flatMap (beBytes reflen))

/-- Where a document is in its data: every object at its offset, the table of the offsets, and the trailer at the end. -/
structure Layout (graph : Graph) (data : Bytes) where
  offlen : Nat
  reflen : Nat
  offsets : List Nat
  reftaboffset : Nat
  counted : offsets.length = graph.nodes.length
  offWidth : offlen = 1 ∨ offlen = 2 ∨ offlen = 4 ∨ offlen = 8
  refWidth : reflen = 1 ∨ reflen = 2 ∨ reflen = 4 ∨ reflen = 8
  placed : ∀ offset ∈ offsets, offset < 256 ^ offlen
  numbered : ∀ node ∈ graph.nodes, ∀ reference ∈ node.references, reference < 256 ^ reflen
  stands : ∀ (object offset : Nat) (node : Node), graph.nodes[object]? = some node → offsets[object]? = some offset →
    ∃ bytes, node.Encoded reflen bytes ∧ At data offset bytes
  behind : BPLIST_HEADER_LEN ≤ reftaboffset
  table : At data reftaboffset (offsets.flatMap (beBytes offlen))
  long : BPLIST_TRAILER_LEN ≤ data.length
  trailer : At data (data.length - BPLIST_TRAILER_LEN + 6)
    (beBytes 1 offlen ++ beBytes 1 reflen ++ beBytes 8 graph.nodes.length ++ beBytes 8 graph.root ++ beBytes 8 reftaboffset)

/-- What is read from the bytes of an integer fits back into them. -/
theorem readInteger_toNat {bytes : Bytes} {exponent : Fin 4} (width : bytes.length = 2 ^ exponent.val) :
    (BitVec.ofInt 64 (readInteger bytes)).toNat = beValue bytes := by
  have fits : beValue bytes < 256 ^ bytes.length := beValue_lt bytes
  have wide : beValue bytes < 2 ^ 64 := by
    rw [width] at fits
    refine fits.trans_le ?_
    calc 256 ^ 2 ^ exponent.val
      _ ≤ 256 ^ 2 ^ 3 := Nat.pow_le_pow_right (by decide) (Nat.pow_le_pow_right (by decide) (by omega))
      _ = 2 ^ 64 := by decide
  rw [readInteger]
  split
  · rw [BitVec.ofInt_toInt, BitVec.toNat_ofNat, Nat.mod_eq_of_lt wide]
  · rw [BitVec.ofInt_natCast, BitVec.toNat_ofNat, Nat.mod_eq_of_lt wide]

namespace Layout
variable {graph : Graph} {data : Bytes} (layout : Layout graph data)

def reftab : List (BitVec 64) := layout.offsets.map (BitVec.ofNat 64)

/-- An object is where the table says. -/
theorem stands_at {object : Nat} {node : Node} (found : graph.nodes[object]? = some node) :
    ∃ offset bytes, layout.reftab[object]? = some offset ∧ node.Encoded layout.reflen bytes ∧ At data offset.toNat bytes := by
  have below : object < layout.offsets.length := layout.counted ▸ (List.getElem?_eq_some_iff.mp found).1
  have entry := List.getElem?_eq_getElem below
  obtain ⟨bytes, encoded, at_⟩ := layout.stands object _ node found entry
  obtain ⟨there, same⟩ := table_entry layout.offWidth layout.placed entry
  exact ⟨_, bytes, there, encoded, same.symm ▸ at_⟩

theorem laidValues {references : List Nat} (children : ∀ reference ∈ references, reference < 256 ^ layout.reflen ∧
    Laid data layout.reftab layout.reflen (graph.tree reference) reference) :
    LaidValues data layout.reftab layout.reflen (references.map graph.tree) references := by
  induction references with
  | nil => rfl
  | cons reference references ih =>
    obtain ⟨⟨fits, laid⟩, others⟩ := List.forall_mem_cons.mp children
    exact ⟨reference, references, rfl, fits, laid, ih others⟩

theorem laidEntries {entries : List (Nat × Nat)} (keys : ∀ key ∈ entries.map Prod.fst, key < 256 ^ layout.reflen ∧
      ∃ text, graph.nodes[key]? = some (.string text))
    (children : ∀ reference ∈ entries.map Prod.snd, reference < 256 ^ layout.reflen ∧
      Laid data layout.reftab layout.reflen (graph.tree reference) reference) :
    LaidEntries data layout.reftab layout.reflen
      (entries.map fun entry => (keyText (graph.tree entry.1), graph.tree entry.2)) (entries.map Prod.fst)
      (entries.map Prod.snd) := by
  induction entries with
  | nil => exact ⟨rfl, rfl⟩
  | cons entry entries ih =>
    obtain ⟨⟨keyFits, text, found⟩, keys⟩ := List.forall_mem_cons.mp keys
    obtain ⟨⟨fits, laid⟩, children⟩ := List.forall_mem_cons.mp children
    obtain ⟨offset, bytes, there, ⟨marker, stands, rfl⟩, at_⟩ := layout.stands_at found
    have text_ : keyText (graph.tree entry.1) = text := by
      rw [graph.tree_eq found]
      rfl
    refine ⟨entry.1, entries.map Prod.fst, entry.2, entries.map Prod.snd, rfl, rfl, keyFits, fits, ?_, laid, ih keys children⟩
    rw [text_]
    exact ⟨offset, marker, there, stands, at_⟩

/-- The tree of an object is laid out if those that it refers to are. -/
theorem laid_of_children {object : Nat} {node : Node} (found : graph.nodes[object]? = some node)
    (children : ∀ reference ∈ node.references, Laid data layout.reftab layout.reflen (graph.tree reference) reference) :
    Laid data layout.reftab layout.reflen (graph.tree object) object := by
  have member := List.mem_of_getElem? found
  obtain ⟨offset, bytes, there, encoded, at_⟩ := layout.stands_at found
  rw [graph.tree_eq found]
  cases node with
  | primitive value plain =>
    obtain rfl := encoded
    have small : value.toNat < 15 := UInt8.lt_iff_toNat_lt.mp plain
    have short : [value] = [PLIST_TYPE_PRIMITIVE ||| UInt8.ofNat value.toNat] := by
      rw [UInt8.ofNat_toNat, PLIST_TYPE_PRIMITIVE, UInt8.zero_or]
    exact ⟨offset, value.toNat, [], there, short ▸ .short small, at_⟩
  | integer exponent value width =>
    obtain rfl := encoded
    have known : exponent.val ≤ 3 := by omega
    have same := readInteger_toNat width
    refine ⟨offset, exponent.val, there, known, ?_, ?_⟩
    · rw [same, ← width]
      exact beValue_lt value
    · rw [same, ← width, beBytes_beValue]
      exact at_
  | real value =>
    obtain rfl := encoded
    exact ⟨offset, there, at_⟩
  | data value =>
    obtain ⟨marker, stands, rfl⟩ := encoded
    exact ⟨offset, marker, there, stands, at_⟩
  | string value =>
    obtain ⟨marker, stands, rfl⟩ := encoded
    exact ⟨offset, marker, there, stands, at_⟩
  | array references =>
    obtain ⟨marker, stands, rfl⟩ := encoded
    refine ⟨offset, marker, references, there, ?_, at_, ?_⟩
    · rwa [List.length_map]
    · exact layout.laidValues fun reference inside => ⟨layout.numbered _ member reference inside, children reference inside⟩
  | dict entries =>
    obtain ⟨marker, stands, rfl⟩ := encoded
    refine ⟨offset, marker, entries.map Prod.fst, entries.map Prod.snd, there, ?_, at_, ?_⟩
    · rwa [List.length_map]
    · apply layout.laidEntries
      · intro key inside
        exact ⟨layout.numbered _ member key (List.mem_append_left _ inside), graph.keyed _ member key inside⟩
      · intro reference inside
        have referred : reference ∈ (Node.dict entries).references := List.mem_append_right _ inside
        exact ⟨layout.numbered _ member reference referred, children reference referred⟩

theorem laid {steps object : Nat} (within : ChainsWithin (Refers graph.nodes) steps object) (below : object < graph.nodes.length) :
    Laid data layout.reftab layout.reflen (graph.tree object) object := by
  have found := List.getElem?_eq_getElem below
  induction steps generalizing object with
  | zero =>
    apply layout.laid_of_children found
    intro reference member
    exact absurd ⟨_, found, member⟩ (within reference)
  | succ steps ih =>
    apply layout.laid_of_children found
    intro reference member
    have inside := graph.closed _ (List.getElem_mem below) reference member
    exact ih (within reference ⟨_, found, member⟩) inside (List.getElem?_eq_getElem inside)

end Layout

/-- A tree is one level deeper than those below it. -/
theorem assemble_depth {node : Node} {children : Nat → Object} {depth : Nat}
    (below : ∀ reference ∈ node.references, (children reference).depth ≤ depth) : (node.assemble children).depth ≤ depth + 1 := by
  cases node with
  | array references =>
    apply Nat.succ_le_succ
    rw [valuesDepth_le_iff, List.forall_mem_map]
    exact below
  | dict entries =>
    apply Nat.succ_le_succ
    rw [entriesDepth_le_iff, List.map_map, List.map_map, List.forall_mem_map, List.forall_mem_map]
    have values : ∀ entry ∈ entries, (children entry.2).depth ≤ depth := fun entry member =>
      below entry.2 (List.mem_append_right _ (List.mem_map_of_mem member))
    exact ⟨fun entry member => (depth_pos _).trans (values entry member), values⟩
  | _ => exact Nat.le_add_left 1 depth

theorem unfold_depth (nodes : List Node) (steps object : Nat) : (unfold nodes steps object).depth ≤ steps + 1 := by
  rw [unfold_eq]
  apply assembly.unfold_induction (fun depth tree => tree.depth ≤ depth + 1) (fun depth => Nat.le_add_left 1 depth)
  intro steps node children below
  exact assemble_depth fun reference _ => below reference

/-- Decoding a document, laid out in any way, gives the tree that unfolds from its root. -/
theorem decoder_unfolds {host : Host} (generous : host.Generous) {graph : Graph} {data : Bytes} (layout : Layout graph data)
    (few : graph.nodes.length < 2 ^ 31) (small : data.length < 2 ^ 32) {fuel : Nat} (enough : graph.nodes.length + 2 ≤ fuel)
    (allocations : Nat) :
    ((fromBplist host data fuel).run allocations).value = .ok (graph.tree graph.root) ∧
      ∀ object node, graph.nodes[object]? = some node → graph.tree object = node.assemble graph.tree := by
  refine ⟨?_, fun object node => graph.tree_eq⟩
  have counted := layout.counted
  have rooted := graph.rooted
  have table := layout.table.inside
  rw [length_references] at table
  have wide : layout.offsets.length * layout.offlen ≤ layout.offsets.length * 8 :=
    Nat.mul_le_mul_left _ (by have := layout.offWidth; omega)
  have narrow : layout.offlen < 256 ^ 1 := by
    have := layout.offWidth
    omega
  have narrow' : layout.reflen < 256 ^ 1 := by
    have := layout.refWidth
    omega
  have trailer := trailerOf_found narrow narrow' (by omega) (by omega) (by omega) layout.trailer
  rw [← counted] at trailer
  have readable : Readable host data layout.reftab.length layout.reflen :=
    ⟨generous, small, layout.refWidth, by rw [Layout.reftab, List.length_map]; omega⟩
  have laid := layout.laid (graph.chainsWithin graph.root) rooted
  have depth : (graph.tree graph.root).depth ≤ fuel := (unfold_depth graph.nodes _ graph.root).trans enough
  have read := fromBplist_ends readable layout.long trailer (by omega) layout.offWidth layout.behind (by omega) layout.placed
    layout.table laid fuel allocations
  rwa [if_pos depth] at read

def sharedNodes : List Node :=
  [.dict [(1, 2), (3, 2)], .string ⟨ascii "a", by decide⟩, .array [4, 4], .string ⟨ascii "b", by decide⟩,
    .integer 1 [0xff, 0xfe] rfl]

theorem sharedNodes_ascend :
    ∀ object : Fin sharedNodes.length, ∀ reference ∈ sharedNodes[object].references, object.val < reference := by
  decide

theorem sharedNodes_rises {object other : Nat} (refers : Refers sharedNodes object other) : object < other := by
  obtain ⟨node, found, member⟩ := refers
  obtain ⟨below, rfl⟩ := List.getElem?_eq_some_iff.mp found
  exact sharedNodes_ascend ⟨object, below⟩ other member

/-- A dict with two keys for one array, which holds one integer twice. -/
def sharedGraph : Graph where
  nodes := sharedNodes
  root := 0
  rooted := by decide
  closed := by decide
  keyed := by
    intro node member key inside
    have texts : ∀ node ∈ sharedNodes, ∀ key ∈ node.keys, key = 1 ∨ key = 3 := by decide
    rcases texts node member key inside with rfl | rfl
    · exact ⟨_, rfl⟩
    · exact ⟨_, rfl⟩
  acyclic := by
    intro object cycle
    have rises : ∀ {last}, TransGen (Refers sharedNodes) object last → object < last := by
      intro last chain
      induction chain with
      | single refers => exact sharedNodes_rises refers
      | tail _ refers ih => exact ih.trans (sharedNodes_rises refers)
    exact Nat.lt_irrefl object (rises cycle)

/-- Its objects from the last one to the first, with a long form for the length of the array. -/
def sharedBytes : Bytes :=
  ascii "bplist00" ++ [0x11, 0xff, 0xfe] ++ [0x51, 0x62] ++ [0xaf, 0x10, 2, 4, 4] ++ [0x51, 0x61] ++ [0xd2, 1, 3, 2, 2] ++
    [0, 20, 0, 18, 0, 13, 0, 11, 0, 8] ++ [0, 0, 0, 0, 0, 0] ++ [2, 1] ++ beBytes 8 5 ++ beBytes 8 0 ++ beBytes 8 25

def sharedLayout : Layout sharedGraph sharedBytes where
  offlen := 2
  reflen := 1
  offsets := [20, 18, 13, 11, 8]
  reftaboffset := 25
  counted := rfl
  offWidth := by decide
  refWidth := by decide
  placed := by decide
  numbered := by decide
  stands := by
    intro object offset node found place
    match object with
    | 0 =>
      obtain rfl := Option.some.inj found
      obtain rfl := Option.some.inj place
      exact ⟨_, ⟨_, .short (by decide), rfl⟩, by decide, by decide⟩
    | 1 =>
      obtain rfl := Option.some.inj found
      obtain rfl := Option.some.inj place
      exact ⟨_, ⟨_, .short (by decide), rfl⟩, by decide, by decide⟩
    | 2 =>
      obtain rfl := Option.some.inj found
      obtain rfl := Option.some.inj place
      exact ⟨_, ⟨_, .long 0 (by decide) (by decide) (by decide), rfl⟩, by decide, by decide⟩
    | 3 =>
      obtain rfl := Option.some.inj found
      obtain rfl := Option.some.inj place
      exact ⟨_, ⟨_, .short (by decide), rfl⟩, by decide, by decide⟩
    | 4 =>
      obtain rfl := Option.some.inj found
      obtain rfl := Option.some.inj place
      exact ⟨_, rfl, by decide, by decide⟩
  behind := by decide
  table := ⟨by decide, by decide⟩
  long := by decide
  trailer := ⟨by decide, by decide⟩

/-- The tree holds the array twice. -/
theorem shared_decoded : ((fromBplist generousHost sharedBytes 7).run 0).value = .ok (.dict
    [(⟨ascii "a", by decide⟩, .array [.integer 0xfffe, .integer 0xfffe]),
      (⟨ascii "b", by decide⟩, .array [.integer 0xfffe, .integer 0xfffe])]) :=
  (decoder_unfolds (fun _ _ => rfl) sharedLayout (by decide) (by decide) (Nat.le_refl 7) 0).1

end Apsdk.Plist
