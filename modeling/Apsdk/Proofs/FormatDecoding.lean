import Apsdk.PlistFormat
import Apsdk.Proofs.DecoderTermination
import Apsdk.Proofs.Reencoding

/-! Which documents of the whole format are decoded to what they stand for. -/

namespace Apsdk.Plist.Format
open Library Traced Relation

/-- The bytes of an object. -/
def Node.Encoded (reflen : Nat) (node : Node) (bytes : Bytes) : Prop :=
  ∃ marker, bytes = marker ++ node.payload reflen ∧
    (node.Measured ∧ Marker node.kind node.length marker ∨
      ¬ node.Measured ∧ marker = [node.kind ||| UInt8.ofNat node.length])

/-- Where a document is in its data: every object at its offset, the table of the offsets, and the trailer at the end. -/
structure Layout (graph : Graph) (data : Bytes) where
  offlen : Nat
  reflen : Nat
  offsets : List Nat
  reftaboffset : Nat
  counted : offsets.length = graph.nodes.length
  offWidth : offlen = 1 ∨ offlen = 2 ∨ offlen = 4 ∨ offlen = 8
  refWidth : reflen = 1 ∨ reflen = 2 ∨ reflen = 4 ∨ reflen = 8
  placed : ∀ offset ∈ offsets, offset < 256 ^ offlen
  numbered : ∀ node ∈ graph.nodes, ∀ reference ∈ node.references, reference < 256 ^ reflen
  stands : ∀ (object offset : Nat) (node : Node), graph.nodes[object]? = some node → offsets[object]? = some offset →
    ∃ bytes, node.Encoded reflen bytes ∧ At data offset bytes
  behind : BPLIST_HEADER_LEN ≤ reftaboffset
  table : At data reftaboffset (offsets.flatMap (beBytes offlen))
  long : BPLIST_TRAILER_LEN ≤ data.length
  trailer : At data (data.length - BPLIST_TRAILER_LEN + 6)
    (beBytes 1 offlen ++ beBytes 1 reflen ++ beBytes 8 graph.nodes.length ++ beBytes 8 graph.root ++ beBytes 8 reftaboffset)

/-- What the marker of an object leaves to read. -/
structure Marked (node : Node) (data : Bytes) (reflen : Nat) (type : UInt8) (payload : Nat) : Prop where
  kind : type &&& 0xf0 = node.kind
  low : node.Measured ∨ type &&& 0x0f = UInt8.ofNat node.length
  payload : At data payload (node.payload reflen)

section Nodes
variable {host : Host} {data bytes : Bytes} {reflen offset payload : Nat} {node : Node} {children : Nat → Object}
  {nodes : List Node} {type : UInt8} {parse : Nat → Decoding Object}

theorem kind_low (node : Node) : node.kind &&& 0x0f = 0 := by
  cases node <;> rw [Node.kind] <;> decide

/-- Where the length has one form only, it fits into the marker, except for that of a UUID. -/
theorem length_short (other : node.kind ≠ PLIST_TYPE_UUID) : node.Measured ∨ node.length < 15 := by
  cases node with
  | primitive value plain => exact .inr (UInt8.lt_iff_toNat_lt.mp plain)
  | integer exponent => exact .inr (exponent.isLt.trans (by decide))
  | single => exact .inr (show 2 < 15 by decide)
  | real => exact .inr (show 3 < 15 by decide)
  | date => exact .inr (show 3 < 15 by decide)
  | uuid => exact absurd rfl other
  | _ => exact .inl trivial

theorem encoded_marked (encoded : node.Encoded reflen bytes) (found : At data offset bytes) (other : node.kind ≠ PLIST_TYPE_UUID) :
    ∃ type payload, markerAt data offset = some (type, node.length, payload) ∧ Marked node data reflen type payload := by
  obtain ⟨marker, rfl, ⟨measured, stands⟩ | ⟨plain, rfl⟩⟩ := encoded
  · obtain ⟨type, kind, marked⟩ := markerAt_marker (kind_low node) stands found
    exact ⟨type, _, marked, kind, .inl measured, found.right⟩
  · have short := (length_short other).resolve_left plain
    obtain ⟨type, kind, marked⟩ := markerAt_marker (kind_low node) (.short short) found
    obtain rfl := Option.some.inj (found.head.symm.trans (markerAt_type marked))
    exact ⟨_, _, marked, kind, .inr (nibbles (kind_low node) (by omega)).1, found.right⟩

theorem spared_other (spared : node.Spared nodes) : node.kind ≠ PLIST_TYPE_UUID := by
  cases node with
  | uuid => exact spared.elim
  | _ =>
    rw [Node.kind]
    decide

theorem spared_present (spared : node.Spared nodes) : (node.assemble host children).isNull = false := by
  cases node with
  | uuid => exact spared.elim
  | set => exact spared.elim
  | _ => rfl

/-- An object without references is read as it is meant, if it is spared. -/
theorem leaf_yields (generous : host.Generous) (fits : data.length < 2 ^ 60) (spared : node.Spared nodes)
    (marked : Marked node data reflen type payload) (array : node.kind ≠ PLIST_TYPE_ARRAY) (dict : node.kind ≠ PLIST_TYPE_DICT) :
    Yields (parsePayload host data reflen parse type node.length payload) (node.assemble host children) := by
  have found := marked.payload
  cases node with
  | primitive value plain =>
    have low := marked.low.resolve_left id
    rw [Node.length, UInt8.ofNat_toNat] at low
    rw [parsePayload_primitive marked.kind, low]
    exact yields_pure _
  | integer exponent bytes width =>
    have known : exponent.val ≤ 3 := Nat.le_of_lt_succ spared
    rw [parsePayload_integer marked.kind]
    apply parseIntegerObject_found known
    · rw [← width]
      exact beValue_lt bytes
    · rw [← width, beBytes_beValue]
      exact found
  | single value =>
    rw [parsePayload_real marked.kind]
    exact parseRealObject_single found
  | real value =>
    rw [parsePayload_real marked.kind]
    exact parseRealObject_found found
  | date value width =>
    rw [parsePayload_date marked.kind, ← width]
    exact parseBuffer_yields generous fits .date (Nat.zero_le _) found
  | data value =>
    rw [parsePayload_data marked.kind]
    exact parseBuffer_yields generous fits .data (Nat.zero_le _) found
  | string value =>
    rw [parsePayload_string marked.kind]
    exact parseBuffer_yields generous fits (fun buffer => .string (.ofBuffer buffer)) le_rfl found
  | utf16 units =>
    obtain rfl : units = [] := spared
    rw [parsePayload_unicode marked.kind]
    exact parseBuffer_yields generous fits .unicodeString le_rfl found
  | uuid => exact spared.elim
  | set => exact spared.elim
  | array => exact absurd rfl array
  | dict => exact absurd rfl dict

/-- An object that is copied has as many bytes as its length says. -/
theorem parseBuffer_length {make : Bytes → Object} {terminator length dataidx : Nat} :
    Returns (fun read => read = .null ∨ ∃ buffer, read = make buffer ∧ buffer.length = length)
      (parseBuffer host data make terminator length dataidx) := by
  unfold parseBuffer
  split
  · exact returns_pure (.inl rfl)
  rename_i inside
  refine returns_bind fun granted => ?_
  split
  · exact returns_pure (.inl rfl)
  intro state result done
  obtain ⟨buffer, copied, done⟩ := value_bind done
  obtain ⟨-, rfl⟩ := value_checked copied
  refine .inr ⟨_, (Except.ok.inj done).symm, ?_⟩
  rw [List.length_take, List.length_drop]
  omega

theorem length_unitBytes (units : List (BitVec 16)) : (unitBytes units).length = 2 * units.length := by
  induction units with
  | nil => rfl
  | cons unit units ih =>
    rw [unitBytes, List.flatMap_cons, List.length_append, length_beBytes, List.length_cons, ← unitBytes, ih]
    omega

/-- No integer of 16 bytes is decoded, and all of a text in UTF-16 only if it is empty. -/
theorem leaf_spared (marked : Marked node data reflen type payload) (dict : node.kind ≠ PLIST_TYPE_DICT)
    (ends : MayEnd (parsePayload host data reflen parse type node.length payload) (node.assemble host children))
    (present : (node.assemble host children).isNull = false) : node.Spared nodes := by
  cases node with
  | integer exponent bytes width =>
    by_contra wide
    rw [parsePayload_integer marked.kind] at ends
    obtain ⟨_, done⟩ := ends
    have narrow : exponent.val < 32 := exponent.isLt.trans (by decide)
    have null := (parseIntegerObject_narrow narrow).value_eq done
    rw [if_neg fun both => wide (Nat.lt_succ_of_le both.1)] at null
    rw [null] at present
    cases present
  | utf16 units =>
    rw [parsePayload_unicode marked.kind] at ends
    obtain ⟨_, done⟩ := ends
    rcases parseBuffer_length _ _ done with null | ⟨buffer, same, copied⟩
    · cases null
    · have whole := length_unitBytes units
      rw [Object.unicodeString.inj same, copied, Node.length] at whole
      exact List.eq_nil_of_length_eq_zero (by omega)
  | uuid => cases present
  | set => cases present
  | dict => exact absurd rfl dict
  | _ => trivial

theorem assemble_depth {depth : Nat} (below : ∀ reference, (children reference).depth ≤ depth) :
    (node.assemble host children).depth ≤ depth + 1 := by
  cases node with
  | array references =>
    apply Nat.succ_le_succ
    rw [valuesDepth_le_iff, List.forall_mem_map]
    exact fun reference _ => below reference
  | dict entries =>
    apply Nat.succ_le_succ
    rw [entriesDepth_le_iff, List.map_map, List.map_map, List.forall_mem_map, List.forall_mem_map]
    exact ⟨fun entry _ => (depth_pos _).trans (below entry.2), fun entry _ => below entry.2⟩
  | _ => exact Nat.le_add_left 1 depth

theorem tree_depth (graph : Graph) (object : Nat) : (graph.tree host object).depth ≤ graph.nodes.length + 2 := by
  apply (assembly host).unfold_induction (fun depth tree => tree.depth ≤ depth + 1) (fun depth => Nat.le_add_left 1 depth)
  exact fun depth node children below => assemble_depth below

theorem stringGetValue_some {object : Object} {text : CString} (string : object.stringGetValue = some text) :
    object.getType = PLIST_TYPE_STRING := by
  cases object with
  | string => rfl
  | _ => cases string

end Nodes

namespace Layout
variable {graph : Graph} {data : Bytes} (layout : Layout graph data) (host : Host) {object fuel : Nat} {node : Node}

def reftab : List (BitVec 64) := layout.offsets.map (BitVec.ofNat 64)

def parse (fuel object : Nat) : Decoding Object := parseObject host data layout.reftab layout.reflen fuel object

/-- An object is where the table says. -/
theorem stands_at (found : graph.nodes[object]? = some node) :
    ∃ offset bytes, layout.reftab[object]? = some offset ∧ node.Encoded layout.reflen bytes ∧ At data offset.toNat bytes := by
  have below : object < layout.offsets.length := layout.counted ▸ (List.getElem?_eq_some_iff.mp found).1
  have entry := List.getElem?_eq_getElem below
  obtain ⟨bytes, encoded, at_⟩ := layout.stands object _ node found entry
  obtain ⟨there, same⟩ := table_entry layout.offWidth layout.placed entry
  exact ⟨_, bytes, there, encoded, same.symm ▸ at_⟩

/-- An object is decoded to its tree, with fuel for its depth. -/
structure Decoded (object : Nat) : Prop where
  ends : ∀ fuel, Ends (layout.parse host fuel object) ((graph.tree host object).depth ≤ fuel) (graph.tree host object)
  present : (graph.tree host object).isNull = false

section Reading
variable {layout host}
variable (generous : host.Generous) (fits : data.length < 2 ^ 60)
include generous fits

theorem values_ends {payload : Nat} {references : List Nat}
    (numbered : ∀ reference ∈ references, reference < 256 ^ layout.reflen ∧ reference < graph.nodes.length)
    (found : At data payload (references.flatMap (beBytes layout.reflen)))
    (children : ∀ reference ∈ references, layout.Decoded host reference) (fuel : Nat) :
    Ends (parseArray host data layout.reflen (layout.parse host fuel) references.length payload)
      (valuesDepth (references.map (graph.tree host)) ≤ fuel) (.array (references.map (graph.tree host))) := by
  have table := layout.table.inside
  have counted := layout.counted
  rw [length_references] at table
  have room : layout.offsets.length ≤ layout.offsets.length * layout.offlen :=
    Nat.le_mul_of_pos_right _ (by have := layout.offWidth; omega)
  have lead : List.Forall₂ (fun reference value => reference < 256 ^ layout.reflen ∧ reference < 2 ^ 63 ∧ value.isNull = false ∧
      Ends (layout.parse host fuel reference) (value.depth ≤ fuel) value) references (references.map (graph.tree host)) := by
    apply List.forall₂_map_right_iff.mpr
    apply List.forall₂_same.mpr
    intro reference member
    obtain ⟨narrow, below⟩ := numbered reference member
    exact ⟨narrow, by omega, (children reference member).present, (children reference member).ends fuel⟩
  have read := parseArray_ends generous fits layout.refWidth lead found
  rw [List.length_map] at read
  exact read.congr (valuesDepth_le_iff _ fuel).symm

theorem entries_ends {payload : Nat} {entries : List (Nat × Nat)}
    (numbered : ∀ reference ∈ (Node.dict entries).references, reference < 256 ^ layout.reflen)
    (texts : ∀ entry ∈ entries, ∃ text, graph.tree host entry.1 = .string text)
    (found : At data payload ((Node.dict entries).payload layout.reflen))
    (children : ∀ reference ∈ (Node.dict entries).references, layout.Decoded host reference) (fuel : Nat) :
    Ends (parseDict host data layout.reflen (layout.parse host fuel) entries.length payload)
      (entriesDepth (entries.map fun entry => (keyText (graph.tree host entry.1), graph.tree host entry.2)) ≤ fuel)
      (.dict (entries.map fun entry => (keyText (graph.tree host entry.1), graph.tree host entry.2))) := by
  have first : ∀ entry ∈ entries, entry.1 ∈ (Node.dict entries).references := fun entry member =>
    List.mem_append_left _ (List.mem_map_of_mem member)
  have second : ∀ entry ∈ entries, entry.2 ∈ (Node.dict entries).references := fun entry member =>
    List.mem_append_right _ (List.mem_map_of_mem member)
  have leadKeys : List.Forall₂ (fun reference key => reference < 256 ^ layout.reflen ∧
      Ends (layout.parse host fuel reference) (1 ≤ fuel) (.string key)) (entries.map Prod.fst)
        (entries.map fun entry => keyText (graph.tree host entry.1)) := by
    apply List.forall₂_map_left_iff.mpr
    apply List.forall₂_map_right_iff.mpr
    apply List.forall₂_same.mpr
    intro entry member
    obtain ⟨text, string⟩ := texts entry member
    have read := (children _ (first entry member)).ends fuel
    rw [string] at read ⊢
    exact ⟨numbered _ (first entry member), read⟩
  have lead : List.Forall₂ (fun reference value => reference < 256 ^ layout.reflen ∧ value.isNull = false ∧
      Ends (layout.parse host fuel reference) (value.depth ≤ fuel) value) (entries.map Prod.snd)
        (entries.map fun entry => graph.tree host entry.2) := by
    apply List.forall₂_map_left_iff.mpr
    apply List.forall₂_map_right_iff.mpr
    apply List.forall₂_same.mpr
    intro entry member
    have child := children _ (second entry member)
    exact ⟨numbered _ (second entry member), child.present, child.ends fuel⟩
  have read := parseDict_ends generous fits layout.refWidth (by rw [List.length_map, List.length_map]) leadKeys lead found
  rw [List.length_map, List.zip_map'] at read
  refine read.congr ?_
  rw [entriesDepth_le_iff, List.map_map, List.map_map]
  rfl

/-- An object that is spared is decoded if those are that it refers to. -/
theorem decoded_of_children (found : graph.nodes[object]? = some node) (spared : node.Spared graph.nodes)
    (children : ∀ reference ∈ node.references, layout.Decoded host reference) : layout.Decoded host object := by
  have inside := List.mem_of_getElem? found
  obtain ⟨offset, bytes, entry, encoded, at_⟩ := layout.stands_at found
  obtain ⟨type, payload, marker, marked⟩ := encoded_marked encoded at_ (spared_other spared)
  have same := graph.tree_eq host found
  constructor
  case present =>
    rw [same]
    exact spared_present spared
  case ends =>
    intro fuel
    rw [same]
    by_cases array : node.kind = PLIST_TYPE_ARRAY
    · cases node with
      | array references =>
        refine parseObject_ends_of_payload generous entry marker (fun smaller => ?_) fuel
        rw [parsePayload_array marked.kind]
        apply values_ends generous fits _ marked.payload children
        exact fun reference member => ⟨layout.numbered _ inside reference member, graph.closed _ inside reference member⟩
      | _ => cases array
    by_cases dict : node.kind = PLIST_TYPE_DICT
    · cases node with
      | dict entries =>
        refine parseObject_ends_of_payload generous entry marker (fun smaller => ?_) fuel
        rw [parsePayload_dict marked.kind]
        apply entries_ends generous fits (layout.numbered _ inside) _ marked.payload children
        intro entry member
        obtain ⟨text, there, kind⟩ := graph.keyed _ inside entry.1 (List.mem_map_of_mem member)
        cases text with
        | string value => exact ⟨_, graph.tree_eq host there⟩
        | utf16 units => exact absurd there (spared entry member units)
        | _ => exact kind.elim
      | _ => cases dict
    have leaf : ∀ smaller, Ends (parsePayload host data layout.reflen (layout.parse host smaller) type node.length payload)
        (0 ≤ smaller) (node.assemble host (graph.tree host)) := fun smaller =>
      (leaf_yields generous fits spared marked array dict).ends (Nat.zero_le smaller)
    refine (parseObject_ends_of_payload generous entry marker leaf fuel).congr ?_
    cases node with
    | array => exact absurd rfl array
    | dict => exact absurd rfl dict
    | _ => exact Iff.rfl

theorem decoded_below {steps : Nat} (within : ChainsWithin (Refers graph.nodes) steps object)
    (spared : ∀ other, ReflTransGen (Refers graph.nodes) object other → ∀ node, graph.nodes[other]? = some node →
      node.Spared graph.nodes) (below : object < graph.nodes.length) : layout.Decoded host object := by
  have found := List.getElem?_eq_getElem below
  induction steps generalizing object with
  | zero =>
    apply decoded_of_children generous fits found (spared object .refl _ found)
    intro reference member
    exact absurd ⟨_, found, member⟩ (within reference)
  | succ steps ih =>
    apply decoded_of_children generous fits found (spared object .refl _ found)
    intro reference member
    have refers : Refers graph.nodes object reference := ⟨_, found, member⟩
    have inside := graph.closed _ (List.getElem_mem below) reference member
    exact ih (within reference refers) (fun other reached => spared other (.head refers reached)) inside
      (List.getElem?_eq_getElem inside)

end Reading

section Taking
variable {layout host}

/-- The tree of an object has been read. -/
structure Taken (layout : Layout graph data) (host : Host) (object : Nat) : Prop where
  ends : ∃ fuel, MayEnd (layout.parse host fuel object) (graph.tree host object)
  present : (graph.tree host object).isNull = false

/-- What has been read of an object has been read behind its marker. -/
theorem parse_taken (found : graph.nodes[object]? = some node) (other : node.kind ≠ PLIST_TYPE_UUID) {read : Object}
    (ends : MayEnd (layout.parse host fuel object) read) (present : read.isNull = false) :
    ∃ smaller type payload, Marked node data layout.reflen type payload ∧
      MayEnd (parsePayload host data layout.reflen (layout.parse host smaller) type node.length payload) read := by
  obtain ⟨offset, bytes, entry, encoded, at_⟩ := layout.stands_at found
  obtain ⟨type, payload, marker, marked⟩ := encoded_marked encoded at_ other
  obtain ⟨smaller, type', length', payload', marker', -, parsed⟩ := parseObject_present entry ends present
  obtain ⟨rfl, rfl, rfl⟩ : type' = type ∧ length' = node.length ∧ payload' = payload := by
    have equal := Option.some.inj (marker'.symm.trans marker)
    rwa [Prod.mk.injEq, Prod.mk.injEq] at equal
  exact ⟨smaller, _, _, marked, parsed⟩

/-- A text in UTF-16 is not read as a key. -/
theorem key_not_utf16 {units : List (BitVec 16)} {key : CString} {read : Object} (ends : MayEnd (layout.parse host fuel object) read)
    (string : read.stringGetValue = some key) : graph.nodes[object]? ≠ some (.utf16 units) := by
  intro found
  have present := isNull_of_string (Option.isSome_of_eq_some string)
  obtain ⟨smaller, type, payload, marked, parsed⟩ := parse_taken found (by rw [Node.kind]; decide) ends present
  obtain ⟨_, done⟩ := parsed
  rcases parsePayload_returns _ _ done with null | kind
  · rw [null] at present
    cases present
  · rw [stringGetValue_some string, marked.kind] at kind
    cases kind

theorem values_taken {references : List Nat}
    (taken : List.Forall₂ (fun reference value => MayEnd (layout.parse host fuel reference) value ∧ value.isNull = false) references
      (references.map (graph.tree host))) : ∀ reference ∈ references, layout.Taken host reference := by
  have all := List.forall₂_same.mp (List.forall₂_map_right_iff.mp taken)
  exact fun reference member => ⟨⟨fuel, (all reference member).1⟩, (all reference member).2⟩

/-- An object whose tree has been read is spared, and all that it refers to has been read; a key is text in any case. -/
theorem taken_step (found : graph.nodes[object]? = some node) (taken : layout.Taken host object) :
    node.Spared graph.nodes ∧ ∀ reference ∈ node.references, layout.Taken host reference ∨
      ∃ text, graph.nodes[reference]? = some (.string text) := by
  have inside := List.mem_of_getElem? found
  have same := graph.tree_eq host found
  obtain ⟨⟨fuel, ends⟩, present⟩ := taken
  rw [same] at ends present
  have other : node.kind ≠ PLIST_TYPE_UUID := by
    cases node with
    | uuid => cases present
    | _ =>
      rw [Node.kind]
      decide
  obtain ⟨smaller, type, payload, marked, parsed⟩ := parse_taken found other ends present
  cases node with
  | array references =>
    rw [parsePayload_array marked.kind] at parsed
    obtain ⟨values, equal, taken⟩ := parseArray_taken layout.refWidth (layout.numbered _ inside) marked.payload parsed present
    rw [← Object.array.inj equal] at taken
    exact ⟨trivial, fun reference member => .inl (values_taken taken reference member)⟩
  | dict entries =>
    rw [parsePayload_dict marked.kind] at parsed
    have paired : (entries.map Prod.fst).length = (entries.map Prod.snd).length := by
      rw [List.length_map, List.length_map]
    have counted : (Node.dict entries).length = (entries.map Prod.snd).length := (List.length_map _).symm
    rw [counted] at parsed
    obtain ⟨keys, values, equal, lengths, texts, taken⟩ := parseDict_taken layout.refWidth paired
      (fun reference member => layout.numbered _ inside reference (List.mem_append_left _ member))
      (fun reference member => layout.numbered _ inside reference (List.mem_append_right _ member)) marked.payload parsed present
    have snds := congrArg (List.map Prod.snd) (Object.dict.inj equal)
    rw [List.map_map, List.map_snd_zip lengths.ge] at snds
    have trees : (entries.map Prod.snd).map (graph.tree host) = values := by
      rw [List.map_map]
      exact snds
    rw [← trees] at taken
    have named : ∀ key ∈ entries.map Prod.fst, ∀ units, graph.nodes[key]? ≠ some (.utf16 units) := by
      intro key member units
      obtain ⟨index, below, rfl⟩ := List.getElem_of_mem member
      obtain ⟨read, ends, string⟩ := texts.get below (texts.length_eq ▸ below)
      exact key_not_utf16 ends string
    refine ⟨fun entry member => named entry.1 (List.mem_map_of_mem member), fun reference member => ?_⟩
    rcases List.mem_append.mp member with key | value
    · obtain ⟨text, there, kind⟩ := graph.keyed _ inside reference key
      cases text with
      | string value => exact .inr ⟨value, there⟩
      | utf16 units => exact absurd there (named reference key units)
      | _ => exact kind.elim
    · exact .inl (values_taken taken reference value)
  | set => cases present
  | _ => exact ⟨leaf_spared marked (by rw [Node.kind]; decide) parsed present, fun reference member => absurd member List.not_mem_nil⟩

theorem taken_reached (taken : layout.Taken host object) {other : Nat} (reached : ReflTransGen (Refers graph.nodes) object other) :
    layout.Taken host other ∨ ∃ text, graph.nodes[other]? = some (.string text) := by
  induction reached with
  | refl => exact .inl taken
  | tail _ refers ih =>
    obtain ⟨node, found, member⟩ := refers
    rcases ih with taken | ⟨text, string⟩
    · exact (taken_step found taken).2 _ member
    · obtain rfl := Option.some.inj (string.symm.trans found)
      cases member

theorem taken_spared (taken : layout.Taken host object) {other : Nat} (reached : ReflTransGen (Refers graph.nodes) object other)
    (found : graph.nodes[other]? = some node) : node.Spared graph.nodes := by
  rcases taken_reached taken reached with taken | ⟨text, string⟩
  · exact (taken_step found taken).1
  · obtain rfl := Option.some.inj (string.symm.trans found)
    exact trivial

end Taking

/-- The trailer that the decoder finds. -/
theorem trailerOf_layout (fits : data.length < 2 ^ 60) :
    trailerOf data = ⟨layout.offlen, layout.reflen, graph.nodes.length, graph.root, layout.reftaboffset⟩ := by
  have offWidth := layout.offWidth
  have refWidth := layout.refWidth
  have counted := layout.counted
  have rooted := graph.rooted
  have table := layout.table.inside
  rw [length_references] at table
  have room : layout.offsets.length ≤ layout.offsets.length * layout.offlen := Nat.le_mul_of_pos_right _ (by omega)
  exact trailerOf_found (by omega) (by omega) (by omega) (by omega) (by omega) layout.trailer

end Layout

/-- A document is decoded to what it stands for exactly if its objects can be counted and all that is reached is spared. -/
theorem format_decoded_iff (host : Host) (generous : host.Generous) (graph : Graph) (data : Bytes) (layout : Layout graph data)
    (fits : data.length < 2 ^ 60) (fuel allocations : Nat) (enough : graph.nodes.length + 2 ≤ fuel) :
    ((fromBplist host data fuel).run allocations).value = .ok (graph.tree host graph.root) ∧
        (graph.tree host graph.root).isNull = false ↔
      graph.nodes.length < 2 ^ 31 ∧ ∀ object, ReflTransGen (Refers graph.nodes) graph.root object →
        ∀ node, graph.nodes[object]? = some node → node.Spared graph.nodes := by
  have trailer := layout.trailerOf_layout fits
  have counted := layout.counted
  have rooted := graph.rooted
  constructor
  · intro ⟨done, present⟩
    obtain ⟨table, ⟨_, loop⟩, -⟩ := fromBplist_taken trailer ⟨allocations, done⟩ present
    obtain ⟨remaining, same⟩ := Nat.exists_eq_add_of_le' (show 1 ≤ graph.nodes.length by omega)
    have few : graph.nodes.length < 2 ^ 31 := by
      rw [same] at loop
      have small := parseTable_small ⟨loop, rfl⟩
      omega
    rw [← counted] at trailer
    have read := fromBplist_present trailer (counted ▸ few) layout.offWidth layout.placed layout.table ⟨allocations, done⟩ present
    exact ⟨few, fun object reached node found => Layout.taken_spared ⟨⟨fuel, read⟩, present⟩ reached found⟩
  · intro ⟨few, spared⟩
    obtain ⟨ends, present⟩ : layout.Decoded host graph.root :=
      Layout.decoded_below generous fits (graph.chainsWithin host graph.root) spared rooted
    rw [← counted] at trailer
    have read := fromBplist_ends_of_root generous fits layout.long trailer (counted ▸ few) layout.offWidth layout.behind
      (counted ▸ rooted) layout.placed layout.table (ends fuel) allocations
    have depth : (graph.tree host graph.root).depth ≤ fuel := (tree_depth graph graph.root).trans enough
    rw [if_pos depth] at read
    exact ⟨read, present⟩

theorem keys_references {node : Node} {key : Nat} (member : key ∈ node.keys) : key ∈ node.references := by
  cases node with
  | dict entries => exact List.mem_append_left _ member
  | _ => cases member

/-- An array of objects without references. -/
def flatGraph (leaves : List Node) (plain : ∀ leaf ∈ leaves, leaf.references = []) : Graph where
  nodes := .array (List.range' 1 leaves.length) :: leaves
  root := 0
  rooted := Nat.succ_pos _
  closed := by
    intro node member reference inside
    rcases List.mem_cons.mp member with rfl | leaf
    · have bounds := List.mem_range'_1.mp inside
      rw [List.length_cons]
      omega
    · rw [plain node leaf] at inside
      cases inside
  keyed := by
    intro node member key inside
    rcases List.mem_cons.mp member with rfl | leaf
    · cases inside
    · have reference := keys_references inside
      rw [plain node leaf] at reference
      cases reference
  acyclic := by
    apply (assembly generousHost).acyclic_of_rising
    intro object node found reference inside
    cases object with
    | zero =>
      obtain rfl := Option.some.inj found
      exact (List.mem_range'_1.mp inside).1
    | succ object =>
      have none : node.references = [] := plain node (List.mem_of_getElem? found)
      change reference ∈ node.references at inside
      rw [none] at inside
      cases inside

theorem single_width : 1 = 1 ∨ 1 = 2 ∨ 1 = 4 ∨ 1 = 8 := .inl rfl

/-- An empty text and a number whose highest bit is set. -/
def plainGraph : Graph := flatGraph [.utf16 [], .integer 3 [0x80, 0, 0, 0, 0, 0, 0, 1] rfl] (by decide)

def plainBytes : Bytes :=
  ascii "bplist00" ++ [0xa2, 1, 2] ++ [0x60] ++ [0x13, 0x80, 0, 0, 0, 0, 0, 0, 1] ++ [8, 11, 12] ++ [0, 0, 0, 0, 0, 0] ++
    [1, 1] ++ beBytes 8 3 ++ beBytes 8 0 ++ beBytes 8 21

def plainLayout : Layout plainGraph plainBytes where
  offlen := 1
  reflen := 1
  offsets := [8, 11, 12]
  reftaboffset := 21
  counted := rfl
  offWidth := single_width
  refWidth := single_width
  placed := by decide
  numbered := by decide
  stands := by
    intro object offset node found place
    match object with
    | 0 =>
      obtain rfl := Option.some.inj found
      obtain rfl := Option.some.inj place
      exact ⟨_, ⟨[0xa2], rfl, .inl ⟨trivial, .short (by decide)⟩⟩, by decide, by decide⟩
    | 1 =>
      obtain rfl := Option.some.inj found
      obtain rfl := Option.some.inj place
      exact ⟨_, ⟨[0x60], rfl, .inl ⟨trivial, .short (by decide)⟩⟩, by decide, by decide⟩
    | 2 =>
      obtain rfl := Option.some.inj found
      obtain rfl := Option.some.inj place
      exact ⟨_, ⟨[0x13], rfl, .inr ⟨id, rfl⟩⟩, by decide, by decide⟩
  behind := by decide
  table := ⟨by decide, by decide⟩
  long := by decide
  trailer := ⟨by decide, by decide⟩

theorem plain_decoded : ((fromBplist generousHost plainBytes 5).run 0).value =
    .ok (.array [.unicodeString [], .integer 0x8000000000000001]) := by
  have rooted : ∀ object, ReflTransGen (Refers plainGraph.nodes) plainGraph.root object → ∀ node,
      plainGraph.nodes[object]? = some node → node.Spared plainGraph.nodes := by
    intro object _ node found
    match object with
    | 0 =>
      obtain rfl := Option.some.inj found
      trivial
    | 1 =>
      obtain rfl := Option.some.inj found
      rfl
    | 2 =>
      obtain rfl := Option.some.inj found
      show 3 < 4
      decide
  exact ((format_decoded_iff generousHost (fun _ _ => rfl) plainGraph plainBytes plainLayout (by decide) 5 0 (Nat.le_refl 5)).mpr
    ⟨by decide, rooted⟩).1

/-- A text of one code unit. -/
def accentGraph : Graph := flatGraph [.utf16 [0x00e9]] (by decide)

def accentBytes : Bytes :=
  ascii "bplist00" ++ [0xa1, 1] ++ [0x61, 0x00, 0xe9] ++ [8, 10] ++ [0, 0, 0, 0, 0, 0] ++ [1, 1] ++ beBytes 8 2 ++
    beBytes 8 0 ++ beBytes 8 13

def accentLayout : Layout accentGraph accentBytes where
  offlen := 1
  reflen := 1
  offsets := [8, 10]
  reftaboffset := 13
  counted := rfl
  offWidth := single_width
  refWidth := single_width
  placed := by decide
  numbered := by decide
  stands := by
    intro object offset node found place
    match object with
    | 0 =>
      obtain rfl := Option.some.inj found
      obtain rfl := Option.some.inj place
      exact ⟨_, ⟨[0xa1], rfl, .inl ⟨trivial, .short (by decide)⟩⟩, by decide, by decide⟩
    | 1 =>
      obtain rfl := Option.some.inj found
      obtain rfl := Option.some.inj place
      exact ⟨_, ⟨[0x61], rfl, .inl ⟨trivial, .short (by decide)⟩⟩, by decide, by decide⟩
  behind := by decide
  table := ⟨by decide, by decide⟩
  long := by decide
  trailer := ⟨by decide, by decide⟩

/-- One of the two bytes of the text is kept. -/
theorem utf16_cut_off : ¬ ∀ (host : Host), host.Generous → ∀ (graph : Graph) (data : Bytes), Nonempty (Layout graph data) →
    data.length < 2 ^ 60 → graph.nodes.length < 2 ^ 31 → ∀ fuel allocations, graph.nodes.length + 2 ≤ fuel →
      ((fromBplist host data fuel).run allocations).value = .ok (graph.tree host graph.root) := by
  intro all
  have decoded := all generousHost (fun _ _ => rfl) accentGraph accentBytes ⟨accentLayout⟩ (by decide) (by decide) 4 0 (Nat.le_refl 4)
  have cut : ((fromBplist generousHost accentBytes 4).run 0).value = .ok (.array [.unicodeString [0x00]]) := rfl
  have whole : accentGraph.tree generousHost accentGraph.root = .array [.unicodeString [0x00, 0xe9]] := rfl
  rw [cut, whole] at decoded
  cases decoded

end Apsdk.Plist.Format
