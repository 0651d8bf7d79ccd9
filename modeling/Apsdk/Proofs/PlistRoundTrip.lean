import Apsdk.Proofs.PlistWriting

/-! Encoding a tree and decoding the document gives the tree back unless a real
reads differently backwards or a dict has a size at which the encoder reserves too
much space, so that the trailer is not at the end. -/

namespace Apsdk.Plist
open Library Traced

section Table
variable {data : Bytes} {before : Writer}

theorem serializeTable_appends (reftab : List Nat) (offlen remaining i : Nat) (split : i + remaining = reftab.length) :
    ∀ writer : Writer, Appends writer (serializeTable reftab offlen remaining i writer)
      ((reftab.drop i).flatMap (beBytes offlen)) := by
  induction remaining generalizing i with
  | zero =>
    intro writer
    rw [List.drop_eq_nil_of_le (by omega)]
    exact ⟨rfl, rfl, ⟨[], (List.append_nil _).symm, confined_nil⟩, fun _ below => absurd below (Nat.not_lt_zero _)⟩
  | succ remaining ih =>
    intro writer
    have below : i < reftab.length := by omega
    rw [List.drop_eq_getElem_cons below, List.flatMap_cons, serializeTable, List.getD_eq_getElem?_getD,
      List.getElem?_eq_getElem below, Option.getD_some]
    exact (put_appends writer _).trans (ih (i + 1) (by omega) _)

theorem parseTable_found {reftaboffset offlen objects : Nat} (width : offlen = 1 ∨ offlen = 2 ∨ offlen = 4 ∨ offlen = 8)
    (few : objects < 2 ^ 31) {offsets : List Nat} (fits : ∀ offset ∈ offsets, offset < 256 ^ offlen) {i : Nat}
    (split : i + offsets.length = objects)
    (found : At data (reftaboffset + i * offlen) (offsets.flatMap (beBytes offlen))) :
    Yields (parseTable data reftaboffset offlen objects offsets.length i) (offsets.map (BitVec.ofNat 64)) := by
  induction offsets generalizing i with
  | nil => exact yields_pure _
  | cons offset offsets ih =>
    rw [List.flatMap_cons] at found
    have here := found.left
    have there := found.right
    have inside := here.inside
    have slice := here.slice
    rw [length_beBytes] at inside slice there
    rw [List.length_cons] at split ⊢
    unfold parseTable
    refine (yields_emit _).bind ((parseInteger_yields width inside).bind ((increment_yields (by omega)).bind ?_))
    refine (ih (fun other member => fits other (List.mem_cons_of_mem _ member)) (by omega) ?_).bind ?_
    · rw [Nat.add_one_mul, ← Nat.add_assoc]
      exact there
    · rw [slice, beValue_beBytes, Nat.mod_eq_of_lt (fits offset List.mem_cons_self)]
      exact yields_pure _

/-- An entry of the table is the offset of its object. -/
theorem table_entry {offsets : List Nat} {offlen : Nat} (width : offlen = 1 ∨ offlen = 2 ∨ offlen = 4 ∨ offlen = 8)
    (fits : ∀ offset ∈ offsets, offset < 256 ^ offlen) {object offset : Nat} (entry : offsets[object]? = some offset) :
    (offsets.map (BitVec.ofNat 64))[object]? = some (BitVec.ofNat 64 offset) ∧ (BitVec.ofNat 64 offset).toNat = offset := by
  have small : offset < 2 ^ 64 := by
    refine (fits offset (List.mem_of_getElem? entry)).trans_le ?_
    rcases width with width | width | width | width <;> rw [width] <;> decide
  rw [List.getElem?_map, entry, BitVec.toNat_ofNat, Nat.mod_eq_of_lt small]
  exact ⟨rfl, rfl⟩

end Table

/-- The bytes of the trailer behind the six that are not used. -/
def trailerBytes (offlen reflen objects reftaboffset : Nat) : Bytes :=
  beBytes 1 offlen ++ beBytes 1 reflen ++ beBytes 8 objects ++ beBytes 8 0 ++ beBytes 8 reftaboffset

theorem serializeTrailer_appends (offlen reflen objects reftaboffset : Nat) (writer : Writer) :
    Appends (writer.skip 6) (serializeTrailer offlen reflen objects reftaboffset writer)
      (trailerBytes offlen reflen objects reftaboffset) :=
  ((((put_appends (writer.skip 6) (beBytes 1 offlen)).trans (put_appends _ _)).trans (put_appends _ _)).trans
    (put_appends _ _)).trans (put_appends _ _)

/-- The writer behind the header. -/
def headed : Writer := (Writer.mk [] 0 []).put (ascii "bplist00")

section Document
variable {object : Object} {data : Bytes}

/-- Where the parts of an encoded document are. -/
structure Encoded (object : Object) (data : Bytes) (offsets : List Nat) : Prop where
  length : data.length =
    8 + object.span (plan object).reflen + object.slack + object.count * (plan object).offlen + 32
  objects : (plan object).objects = object.count
  counted : offsets.length = object.count
  bounded : ∀ offset ∈ offsets, offset ≤ 8 + object.span (plan object).reflen
  shows : Shows data (offsets.map (BitVec.ofNat 64)) (serializeObject (plan object).reflen object headed).2
    (Between 8 (8 + object.span (plan object).reflen))
  table : At data (8 + object.span (plan object).reflen) (offsets.flatMap (beBytes (plan object).offlen))
  trailer : At data (8 + object.span (plan object).reflen + object.count * (plan object).offlen + 6)
    (trailerBytes (plan object).offlen (plan object).reflen object.count (8 + object.span (plan object).reflen))
  zeros : ∀ i, data.length - object.slack ≤ i → i < data.length → data[i]? = some 0

theorem plan_sizes (object : Object) : (plan object).objects = object.count ∧
    (plan object).reflen = integerLength (object.count - 1 : Nat) ∧
    (plan object).offlen = integerLength (8 + object.span (plan object).reflen + object.slack : Nat) ∧
    (plan object).buflen = 8 + object.span (plan object).reflen + object.slack +
      object.count * (plan object).offlen + 32 := by
  obtain ⟨objects, refs, bytes⟩ := analyze_sizes (plan object).reflen object ⟨0, 0, 0⟩
  simp only [Nat.zero_add, Nat.zero_mul] at objects refs bytes
  have widths : (analyze object ⟨0, 0, 0⟩).bytes + (analyze object ⟨0, 0, 0⟩).refs * (plan object).reflen =
      object.span (plan object).reflen + object.slack := bytes
  refine ⟨objects, ?_, ?_, ?_⟩
  · show integerLength ((analyze object ⟨0, 0, 0⟩).refs : Int) = _
    congr 2
    omega
  · show integerLength ((BPLIST_HEADER_LEN + ((analyze object ⟨0, 0, 0⟩).bytes +
      (analyze object ⟨0, 0, 0⟩).refs * (plan object).reflen) : Nat) : Int) = _
    rw [widths, Nat.add_assoc]
    rfl
  · show BPLIST_HEADER_LEN + ((analyze object ⟨0, 0, 0⟩).bytes + (analyze object ⟨0, 0, 0⟩).refs * (plan object).reflen) +
      (analyze object ⟨0, 0, 0⟩).objects * (plan object).offlen + BPLIST_TRAILER_LEN = _
    rw [widths, objects, ← Nat.add_assoc]
    rfl

theorem getElem?_buffer {size i : Nat} (log : List Write) (inside : i < size) :
    (buffer size log)[i]? = some (memory log i) := by
  rw [buffer, List.getElem?_map, List.getElem?_range inside]
  rfl

theorem toBplist_ok {host : Host} (encoded : toBplist host object = .ok data) :
    data = buffer (plan object).buflen (serialize object).log := by
  unfold toBplist at encoded
  split_ifs at encoded
  exact (Except.ok.inj encoded).symm

/-- A tree is encoded where there is memory. -/
theorem toBplist_generous {host : Host} (generous : ∀ allocations size, host.alloc allocations size = true)
    (present : object.isNull = false) : toBplist host object = .ok (buffer (plan object).buflen (serialize object).log) := by
  unfold toBplist
  rw [if_neg (by rw [present]; decide), if_neg (not_not_intro (generous _ _)), if_neg (not_not_intro (generous _ _))]

/-- The document that the encoder returns, part by part. -/
theorem toBplist_parts {host : Host} (encoded : toBplist host object = .ok data) :
    Encoded object data (serializeObject (plan object).reflen object headed).2.reftab := by
  obtain ⟨objects, -, -, size⟩ := plan_sizes object
  have content := toBplist_ok encoded
  have length : data.length = (plan object).buflen := by rw [content, buffer, List.length_map, List.length_range]
  rw [size] at length
  -- The writers behind the objects, the offset table and the trailer.
  have body := serializeObject_places (plan object).reflen object headed
  obtain ⟨bodied, bodiedEq⟩ : ∃ writer, writer = (serializeObject (plan object).reflen object headed).2 := ⟨_, rfl⟩
  rw [← bodiedEq] at body
  obtain ⟨offsets, recorded, counted, bounded⟩ := body.reftab
  rw [show headed.reftab = [] from rfl, List.nil_append] at recorded
  have bodyEnd : bodied.dataidx = 8 + object.span (plan object).reflen := body.dataidx
  have table := serializeTable_appends bodied.reftab (plan object).offlen (plan object).objects 0
    (by rw [objects, recorded, counted, Nat.zero_add]) bodied
  rw [List.drop_zero] at table
  obtain ⟨tabled, tabledEq⟩ : ∃ writer, writer = serializeTable bodied.reftab (plan object).offlen (plan object).objects 0 bodied :=
    ⟨_, rfl⟩
  rw [← tabledEq] at table
  have trailer := serializeTrailer_appends (plan object).offlen (plan object).reflen (plan object).objects bodied.dataidx tabled
  obtain ⟨last, lastEq⟩ : ∃ writer, writer = serializeTrailer (plan object).offlen (plan object).reflen (plan object).objects
    bodied.dataidx tabled := ⟨_, rfl⟩
  rw [← lastEq] at trailer
  have final : serialize object = last := by
    rw [lastEq, tabledEq, bodiedEq]
    rfl
  rw [final, size] at content
  have tableLength : (bodied.reftab.flatMap (beBytes (plan object).offlen)).length = object.count * (plan object).offlen := by
    rw [length_references, recorded, counted]
  have trailerLength : (trailerBytes (plan object).offlen (plan object).reflen (plan object).objects bodied.dataidx).length = 26 := by
    simp only [trailerBytes, List.length_append, length_beBytes]
  have tableEnd := table.dataidx
  rw [tableLength, bodyEnd] at tableEnd
  have shown : Shows data (offsets.map (BitVec.ofNat 64)) last fun i => i < data.length := by
    refine ⟨fun i inside => ?_, fun id offset entry => ?_⟩
    · rw [length] at inside
      rw [content, getElem?_buffer _ inside]
    · rw [trailer.reftab, Writer.skip, table.reftab, recorded] at entry
      rw [List.getElem?_map, entry]
      rfl
  have lastEnd := trailer.dataidx
  rw [trailerLength, skip_dataidx] at lastEnd
  have afterTable : Places tabled last _ _ (Between tabled.dataidx last.dataidx) := (skip_places 6).trans
    (trailer.places.mono fun i inside => by
      simp only [Between, trailerLength, skip_dataidx] at inside ⊢
      omega)
  have afterBody : Places bodied last _ _ (Between bodied.dataidx last.dataidx) := (table.places.mono fun i inside => by
      simp only [Between, tableLength] at inside ⊢
      omega).trans (afterTable.mono fun i inside => by
      simp only [Between] at inside ⊢
      omega)
  rw [← bodiedEq, recorded]
  refine ⟨length, objects, counted, fun offset member => bodyEnd ▸ bounded offset member, ?_, ?_, ?_, ?_⟩
  · rw [← bodiedEq]
    refine shown.back afterBody fun i inside => ?_
    simp only [Between] at inside ⊢
    omega
  · rw [← bodyEnd, ← recorded]
    refine table.at (shown.back afterTable fun i inside => ?_) (by omega)
    simp only [Between] at inside ⊢
    omega
  · have found := trailer.at (shown.mono fun i inside => by
      have below := inside.2
      rw [trailerLength, skip_dataidx] at below
      omega) (by rw [trailerLength, skip_dataidx]; omega)
    rw [objects, bodyEnd, skip_dataidx, tableEnd] at found
    exact found
  · intro i above below
    have header := (put_appends (Writer.mk [] 0 []) (ascii "bplist00")).places
    have whole : Places (Writer.mk [] 0 []) last _ _ (fun i => i < last.dataidx) := ((header.mono fun i inside => by
        have below := inside.2
        exact below.trans_le (show 8 ≤ last.dataidx by omega)).trans
      (body.mono fun i inside => inside.2.trans_le (show 8 + _ ≤ last.dataidx by omega))).trans
      (afterBody.mono fun i inside => inside.2)
    obtain ⟨log, written, confined⟩ := whole.log
    rw [content, getElem?_buffer _ (by omega), written, memory_append_of_confined _ confined (by omega)]
    rfl

theorem toBplist_encoded {host : Host} (encoded : toBplist host object = .ok data) :
    ∃ offsets, Encoded object data offsets := ⟨_, toBplist_parts encoded⟩

theorem count_le_span (object : Object) {reflen : Nat} (positive : 0 < reflen) :
    object.count ≤ object.span reflen + object.slack + 1 := by
  obtain ⟨-, refs, bytes⟩ := analyze_sizes reflen object ⟨0, 0, 0⟩
  simp only [Nat.zero_add, Nat.zero_mul] at refs bytes
  have room : (analyze object ⟨0, 0, 0⟩).refs ≤ (analyze object ⟨0, 0, 0⟩).refs * reflen :=
    Nat.le_mul_of_pos_right _ positive
  omega

theorem integerLength_pos (value : Int) : 0 < integerLength value := by
  have width := integerLength_width value
  omega

theorem toInt_ofNat_small {value : Nat} (small : value < 2 ^ 63) : (BitVec.ofNat 64 value).toInt = value := by
  rw [BitVec.toInt_ofNat', Int.bmod_eq_of_le] <;> omega

theorem headD_beBytes_one {value : Nat} (small : value < 256 ^ 1) : ((beBytes 1 value).headD 0).toNat = value := by
  show (UInt8.ofNat value).toNat = value
  rw [UInt8.toNat_ofNat']
  omega

/-- The trailer that the decoder finds at the end of the data. -/
theorem trailerOf_found {offlen reflen objects root reftaboffset : Nat} (narrow : offlen < 256 ^ 1) (narrow' : reflen < 256 ^ 1)
    (few : objects < 2 ^ 63) (inside : root < 2 ^ 63) (small : reftaboffset < 2 ^ 63)
    (trailer : At data (data.length - BPLIST_TRAILER_LEN + 6)
      (beBytes 1 offlen ++ beBytes 1 reflen ++ beBytes 8 objects ++ beBytes 8 root ++ beBytes 8 reftaboffset)) :
    trailerOf data = ⟨offlen, reflen, objects, root, reftaboffset⟩ := by
  have first := trailer.left.left.left.left.slice
  have second := trailer.left.left.left.right.slice
  have third := trailer.left.left.right.slice
  have fourth := trailer.left.right.slice
  have fifth := trailer.right.slice
  simp only [List.length_append, length_beBytes, Nat.add_assoc, Nat.reduceAdd] at first second third fourth fifth
  unfold trailerOf trailerInteger trailerField
  rw [first, second, third, fourth, fifth]
  have decoded : ∀ value, value < 2 ^ 63 → (BitVec.ofNat 64 (beValue (beBytes 8 value))).toInt = value := by
    intro value below
    rw [beValue_beBytes, Nat.mod_eq_of_lt (by omega), toInt_ofNat_small below]
  rw [headD_beBytes_one narrow, headD_beBytes_one narrow', decoded _ few, decoded _ inside, decoded _ small]

/-- A document whose trailer leads to the offset table comes out as its root does. -/
theorem fromBplist_ends_of_root {host : Host} (generous : host.Generous) (fits : data.length < 2 ^ 60) {offsets : List Nat}
    {offlen reflen root reftaboffset : Nat} (long : BPLIST_TRAILER_LEN ≤ data.length)
    (trailer : trailerOf data = ⟨offlen, reflen, offsets.length, root, reftaboffset⟩) (few : offsets.length < 2 ^ 31)
    (width : offlen = 1 ∨ offlen = 2 ∨ offlen = 4 ∨ offlen = 8) (behind : BPLIST_HEADER_LEN ≤ reftaboffset)
    (rooted : root < offsets.length) (placed : ∀ offset ∈ offsets, offset < 256 ^ offlen)
    (table : At data reftaboffset (offsets.flatMap (beBytes offlen))) {fuel : Nat} {enough : Prop} [Decidable enough]
    (ends : Ends (parseObject host data (offsets.map (BitVec.ofNat 64)) reflen fuel root) enough object) :
    Ends (fromBplist host data fuel) enough object := by
  have inside := table.inside
  rw [length_references] at inside
  have read := parseTable_found width few placed (Nat.zero_add _) (by rw [Nat.zero_mul, Nat.add_zero]; exact table)
  have wide : offsets.length * offlen ≤ offsets.length * 8 := Nat.mul_le_mul_left _ (by omega)
  unfold fromBplist
  rw [if_neg (Nat.not_lt.mpr long)]
  refine (parseTrailer_yields long).bind_ends ?_
  rw [trailer]
  dsimp only
  rw [if_neg (by omega), if_neg (by omega), if_neg (by omega)]
  simp only [Int.toNat_natCast]
  refine (yields_checked (by omega)).bind_ends ((yields_checked (by omega)).bind_ends ?_)
  rw [if_neg (by omega)]
  refine (calloc_yields generous (by omega)).bind_ends ?_
  rw [if_neg (by decide)]
  exact read.bind_ends ends

/-- A document whose trailer leads to the offset table, and the table to a tree. -/
theorem fromBplist_ends {host : Host} {offsets : List Nat} {offlen reflen root reftaboffset : Nat}
    (readable : Readable host data (offsets.map (BitVec.ofNat 64)).length reflen) (long : BPLIST_TRAILER_LEN ≤ data.length)
    (trailer : trailerOf data = ⟨offlen, reflen, offsets.length, root, reftaboffset⟩) (few : offsets.length < 2 ^ 31)
    (width : offlen = 1 ∨ offlen = 2 ∨ offlen = 4 ∨ offlen = 8) (behind : BPLIST_HEADER_LEN ≤ reftaboffset)
    (rooted : root < offsets.length) (placed : ∀ offset ∈ offsets, offset < 256 ^ offlen)
    (table : At data reftaboffset (offsets.flatMap (beBytes offlen)))
    (laid : Laid data (offsets.map (BitVec.ofNat 64)) reflen object root) (fuel : Nat) :
    Ends (fromBplist host data fuel) (object.depth ≤ fuel) object :=
  fromBplist_ends_of_root readable.generous readable.fits long trailer few width behind rooted placed table
    (parseObject_ends readable object root laid fuel)

/-- The trailer that the decoder finds where the encoder has measured what it has written. -/
theorem trailerOf_encoded {offsets : List Nat} (encoded : Encoded object data offsets) (small : data.length < 2 ^ 32)
    (tight : object.slack = 0) :
    trailerOf data = ⟨(plan object).offlen, (plan object).reflen, object.count, 0,
      (8 + object.span (plan object).reflen : Nat)⟩ := by
  obtain ⟨-, reflen, offlen, -⟩ := plan_sizes object
  have length := encoded.length
  have narrow : (plan object).offlen < 256 ^ 1 := by
    rw [offlen]
    have width := integerLength_width (8 + object.span (plan object).reflen + object.slack : Nat)
    omega
  have narrow' : (plan object).reflen < 256 ^ 1 := by
    rw [reflen]
    have width := integerLength_width (object.count - 1 : Nat)
    omega
  have few := count_le_span object (reflen ▸ integerLength_pos _ : 0 < (plan object).reflen)
  have place : 8 + object.span (plan object).reflen + object.count * (plan object).offlen + 6 =
      data.length - BPLIST_TRAILER_LEN + 6 := by
    rw [BPLIST_TRAILER_LEN]
    omega
  have trailer := encoded.trailer
  rw [place, trailerBytes] at trailer
  exact trailerOf_found narrow narrow' (by omega) (by decide) (by omega) trailer

mutual

theorem built_legible : ∀ (object : Object) (next : Bool), object.Everywhere Built → object.Legible next
  | .primitive value, _, built => by
    cases built with
    | inl true => exact .inl (by rw [true]; decide)
    | inr false => exact .inl (by rw [false]; decide)
  | .array values, next, built => builtValues_legible values next built.2
  | .dict entries, next, built => builtEntries_legible entries next built.2
  | .integer _, _, _ => trivial
  | .real _, _, _ => trivial
  | .data _, _, _ => trivial
  | .string _, _, _ => trivial

theorem builtValues_legible : ∀ (values : List Object) (next : Bool), ValuesEverywhere Built values → ValuesLegible values next
  | [], _, _ => trivial
  | value :: values, next, built => ⟨built_legible value _ built.1, builtValues_legible values next built.2⟩

theorem builtEntries_legible : ∀ (entries : List (CString × Object)) (next : Bool), EntriesEverywhere Built entries →
    EntriesLegible entries next
  | [], _, _ => trivial
  | (_, value) :: entries, next, built => ⟨built_legible value _ built.1, builtEntries_legible entries next built.2⟩

end

theorem encoded_placed {offsets : List Nat} (encoded : Encoded object data offsets) (small : data.length < 2 ^ 64) :
    Placed data (offsets.map (BitVec.ofNat 64)) (plan object).reflen object 0 8 := by
  have length := encoded.length
  exact serializeObject_placed small object headed encoded.shows (show 8 + object.span _ ≤ data.length by omega)

/-- No offset and no reference is cut off. -/
theorem encoded_widths {offsets : List Nat} (encoded : Encoded object data offsets) (small : data.length < 2 ^ 64) :
    (∀ offset ∈ offsets, offset < 256 ^ (plan object).offlen) ∧ object.count ≤ 256 ^ (plan object).reflen := by
  obtain ⟨-, reflen, offlen, -⟩ := plan_sizes object
  have length := encoded.length
  constructor
  · intro offset member
    refine (encoded.bounded offset member).trans_lt ?_
    have fits := @integerLength_fits (8 + object.span (plan object).reflen + object.slack : Nat)
      (8 + object.span (plan object).reflen + object.slack) (by omega) fun _ => rfl
    rw [← offlen] at fits
    omega
  · have few := count_le_span object (reflen ▸ integerLength_pos _ : 0 < (plan object).reflen)
    have numbered : object.count - 1 < 256 ^ (plan object).reflen := by
      rw [reflen]
      exact integerLength_fits (by omega) fun _ => rfl
    omega

/-- The widths that the encoder chooses suffice for its offsets and references. -/
structure Numbered (object : Object) (offsets : List Nat) : Prop where
  offWidth : (plan object).offlen = 1 ∨ (plan object).offlen = 2 ∨ (plan object).offlen = 4 ∨ (plan object).offlen = 8
  refWidth : (plan object).reflen = 1 ∨ (plan object).reflen = 2 ∨ (plan object).reflen = 4 ∨ (plan object).reflen = 8
  offsets : ∀ offset ∈ offsets, offset < 256 ^ (plan object).offlen
  references : object.count ≤ 256 ^ (plan object).reflen
  few : object.count < 2 ^ 31

theorem encoded_numbered {offsets : List Nat} (encoded : Encoded object data offsets) (small : data.length < 2 ^ 32) :
    Numbered object offsets := by
  obtain ⟨-, reflen, offlen, -⟩ := plan_sizes object
  obtain ⟨bounded, references⟩ := encoded_widths encoded (by omega)
  have length := encoded.length
  have offWidth : (plan object).offlen = 1 ∨ (plan object).offlen = 2 ∨ (plan object).offlen = 4 ∨ (plan object).offlen = 8 := by
    rw [offlen]
    exact integerLength_width _
  have refWidth : (plan object).reflen = 1 ∨ (plan object).reflen = 2 ∨ (plan object).reflen = 4 ∨ (plan object).reflen = 8 := by
    rw [reflen]
    exact integerLength_width _
  have few := count_le_span object (by omega : 0 < (plan object).reflen)
  have wide : object.count ≤ object.count * (plan object).offlen := Nat.le_mul_of_pos_right _ (by omega)
  exact ⟨offWidth, refWidth, bounded, references, by omega⟩

/-- Where the encoder has measured what it has written, the decoder finds the tree with its reals reversed. -/
theorem decode_encoded {host : Host} (generous : ∀ allocations size, host.alloc allocations size = true)
    {offsets : List Nat} (encoded : Encoded object data offsets) (legible : object.Legible false)
    (small : data.length < 2 ^ 32) (tight : object.slack = 0) (fuel : Nat) :
    Ends (fromBplist host data fuel) (object.reversed.depth ≤ fuel) object.reversed := by
  obtain ⟨offWidth, refWidth, placed, references, few⟩ := encoded_numbered encoded small
  have length := encoded.length
  have positive := object.count_pos
  have counted := encoded.counted
  have laid := placed_laid (by omega) small object 0 8 false (encoded_placed encoded (by omega)) legible (fun last => nomatch last)
    (by omega)
  have readable : Readable host data (offsets.map (BitVec.ofNat 64)).length (plan object).reflen :=
    ⟨generous, small, refWidth, by rw [List.length_map, counted]; omega⟩
  have trailer := trailerOf_encoded encoded small tight
  rw [← counted] at trailer
  exact fromBplist_ends readable (by rw [BPLIST_TRAILER_LEN]; omega) trailer (by omega) offWidth
    (Nat.le_add_right 8 _) (counted ▸ positive) placed encoded.table laid fuel

/-- The decoder refuses a document whose trailer places the offset table outside of it. -/
theorem fromBplist_refuses {host : Host} (outside : (trailerOf data).reftaboffset < BPLIST_HEADER_LEN ∨
    data.length < (trailerOf data).reftaboffset.toNat) {fuel state : Nat} {result : Object}
    (done : ((fromBplist host data fuel).run state).value = .ok result) : result = .null := by
  unfold fromBplist at done
  split at done
  · exact (Except.ok.inj done).symm
  rename_i long
  obtain ⟨trailer, found, done⟩ := value_bind done
  obtain rfl := (parseTrailer_yields (Nat.not_lt.mp long)).value_eq found
  split at done
  · exact (Except.ok.inj done).symm
  split at done
  · exact (Except.ok.inj done).symm
  split at done
  · exact (Except.ok.inj done).symm
  rename_i header
  obtain ⟨tableSize, -, done⟩ := value_bind done
  obtain ⟨tableEnd, computed, done⟩ := value_bind done
  obtain ⟨-, rfl⟩ := value_checked computed
  split at done
  · exact (Except.ok.inj done).symm
  rename_i inside
  omega

theorem beValue_replicate_zero (count : Nat) : beValue (List.replicate count 0) = 0 := by
  rw [beValue, List.reverse_replicate]
  induction count with
  | zero => rfl
  | succ count ih => rw [List.replicate_succ, leValue, ih]; rfl

/-- A number in eight bytes that stands too far to the left loses its upper bytes and gains lower ones. -/
theorem beValue_shifted {value shift : Nat} (known : shift ≤ 8) :
    beValue ((beBytes 8 value).drop shift ++ List.replicate shift 0) = value % 256 ^ (8 - shift) * 256 ^ shift := by
  have whole := beValue_beBytes 8 value
  rw [← List.take_append_drop shift (beBytes 8 value), beValue_append, List.length_drop, length_beBytes] at whole
  have upper := beValue_lt ((beBytes 8 value).drop shift)
  rw [List.length_drop, length_beBytes] at upper
  have split : 256 ^ 8 = 256 ^ (8 - shift) * 256 ^ shift := by rw [← Nat.pow_add, Nat.sub_add_cancel known]
  have lower : value % 256 ^ (8 - shift) = beValue ((beBytes 8 value).drop shift) := by
    rw [← Nat.mod_mod_of_dvd value (Dvd.intro _ split.symm), ← whole, Nat.mul_add_mod', Nat.mod_eq_of_lt upper]
  rw [beValue_append, beValue_replicate_zero, List.length_replicate, Nat.add_zero, lower]

/-- Where less is written than was measured, the last eight bytes are the offset of the table with its lower part shifted out. -/
theorem trailer_misplaced {offsets : List Nat} (encoded : Encoded object data offsets) (small : data.length < 2 ^ 32)
    (loose : 0 < object.slack) :
    ∃ shift, 1 ≤ shift ∧ shift ≤ 8 ∧ (shift = 8 ∨ shift = object.slack) ∧ trailerField data 24 8 =
      (beBytes 8 (8 + object.span (plan object).reflen)).drop shift ++ List.replicate shift 0 := by
  have length := encoded.length
  refine ⟨min object.slack 8, by omega, by omega, by omega, ?_⟩
  have digits := encoded.trailer.right
  simp only [List.length_append, length_beBytes, Nat.add_assoc, Nat.reduceAdd] at digits
  have stands : At data (data.length - BPLIST_TRAILER_LEN + 24)
      ((beBytes 8 (8 + object.span (plan object).reflen)).drop (min object.slack 8) ++
        List.replicate (min object.slack 8) 0) := by
    rw [BPLIST_TRAILER_LEN]
    refine ⟨?_, fun i below => ?_⟩
    · rw [List.length_append, List.length_drop, length_beBytes, List.length_replicate]
      omega
    · rw [List.length_append, List.length_drop, length_beBytes, List.length_replicate] at below
      by_cases left : i < 8 - min object.slack 8
      · have digit := digits.bytes (min object.slack 8 + i) (by rw [length_beBytes]; omega)
        rw [List.getElem_append_left (by rw [List.length_drop, length_beBytes]; exact left), List.getElem_drop, ← digit]
        congr 1
        omega
      · rw [encoded.zeros _ (by omega) (by omega), List.getElem_append_right (by rw [List.length_drop, length_beBytes]; omega),
          List.getElem_replicate]
  have slice := stands.slice
  rw [List.length_append, List.length_drop, length_beBytes, List.length_replicate] at slice
  rw [trailerField, ← slice]
  congr 1
  omega

/-- An offset below `2^32` that is shifted to the left by whole bytes is too small or too large for the document. -/
theorem shifted_outside {offset length shift : Nat} (small : offset < 2 ^ 32) (least : 1 ≤ shift) (most : shift ≤ 8)
    (near : length < 2 ^ 32 ∧ (shift < 8 → length < 256 * offset)) :
    (BitVec.ofNat 64 (offset % 256 ^ (8 - shift) * 256 ^ shift)).toInt < BPLIST_HEADER_LEN ∨
      length < (BitVec.ofNat 64 (offset % 256 ^ (8 - shift) * 256 ^ shift)).toInt.toNat := by
  have shifted : offset % 256 ^ (8 - shift) * 256 ^ shift = 0 ∨ length < offset % 256 ^ (8 - shift) * 256 ^ shift := by
    interval_cases shift <;> simp only [Nat.reduceSub, Nat.reducePow] <;> omega
  have bound : offset % 256 ^ (8 - shift) * 256 ^ shift < 2 ^ 64 := by
    interval_cases shift <;> simp only [Nat.reduceSub, Nat.reducePow] <;> omega
  generalize offset % 256 ^ (8 - shift) * 256 ^ shift = value at *
  rw [BPLIST_HEADER_LEN]
  cases shifted with
  | inl zero => exact Or.inl (by rw [zero]; decide)
  | inr large =>
    by_cases positive : value < 2 ^ 63
    · exact Or.inr (by rw [toInt_ofNat_small positive, Int.toNat_natCast]; exact large)
    · have negative : (BitVec.ofNat 64 value).toInt < 0 := by
        rw [BitVec.toInt_neg_iff, BitVec.toNat_ofNat, Nat.mod_eq_of_lt bound]
        omega
      exact Or.inl (negative.trans (by decide))

/-- A document with a misplaced trailer is refused. -/
theorem decode_misplaced {host : Host} {offsets : List Nat} (encoded : Encoded object data offsets)
    (small : data.length < 2 ^ 32) (loose : 0 < object.slack) {fuel state : Nat} {result : Object}
    (done : ((fromBplist host data fuel).run state).value = .ok result) : result = .null := by
  refine fromBplist_refuses ?_ done
  obtain ⟨shift, least, most, known, field⟩ := trailer_misplaced encoded small loose
  have length := encoded.length
  obtain ⟨-, reflen, offlen, -⟩ := plan_sizes object
  have few := count_le_span object (reflen ▸ integerLength_pos _)
  have narrow : (plan object).offlen ≤ 4 := by
    rw [offlen]
    unfold integerLength
    split_ifs <;> omega
  have table : object.count * (plan object).offlen ≤ object.count * 4 := Nat.mul_le_mul_left _ narrow
  have value : trailerInteger data 24 =
      (BitVec.ofNat 64 ((8 + object.span (plan object).reflen) % 256 ^ (8 - shift) * 256 ^ shift)).toInt := by
    rw [trailerInteger, field, beValue_shifted most]
  show trailerInteger data 24 < _ ∨ _ < (trailerInteger data 24).toNat
  rw [value]
  exact shifted_outside (by omega) least most (by omega)

/-- What comes back from a document in which the trailer is at the end can only be the tree with its reals reversed. -/
theorem decoded_reversed {host : Host} (generous : ∀ allocations size, host.alloc allocations size = true)
    {offsets : List Nat} (encoded : Encoded object data offsets) (built : object.Everywhere Built)
    (small : data.length < 2 ^ 32) (tight : object.slack = 0) {fuel state : Nat} {result : Object}
    (done : ((fromBplist host data fuel).run state).value = .ok result) : object.reversed = result := by
  have ends := decode_encoded generous encoded (built_legible object false built) small tight fuel state
  rw [done] at ends
  split at ends
  · exact (Except.ok.inj ends).symm
  · cases ends

end Document

/-- A real whose bytes read the same in both orders. -/
def RealPalindrome : Object → Prop
  | .real value => reversedBytes value = value
  | _ => True

/-- A dict that is measured with the bytes that its marker takes. -/
def DictMeasured : Object → Prop
  | .dict entries => ¬ (128 ≤ entries.length ∧ entries.length < 256) ∧ ¬ (32768 ≤ entries.length ∧ entries.length < 65536)
  | _ => True

mutual

theorem reversed_eq_iff : ∀ object : Object, object.reversed = object ↔ object.Everywhere RealPalindrome
  | .real value => by
    show Object.real _ = Object.real value ↔ reversedBytes value = value
    rw [Object.real.injEq]
  | .array values => by
    show Object.array _ = Object.array values ↔ True ∧ _
    rw [Object.array.injEq, true_and, valuesReversed_eq_iff values]
  | .dict entries => by
    show Object.dict _ = Object.dict entries ↔ True ∧ _
    rw [Object.dict.injEq, true_and, entriesReversed_eq_iff entries]
  | .null => iff_of_true rfl trivial
  | .primitive _ => iff_of_true rfl trivial
  | .integer _ => iff_of_true rfl trivial
  | .date _ => iff_of_true rfl trivial
  | .data _ => iff_of_true rfl trivial
  | .string _ => iff_of_true rfl trivial
  | .unicodeString _ => iff_of_true rfl trivial

theorem valuesReversed_eq_iff : ∀ values : List Object,
    valuesReversed values = values ↔ ValuesEverywhere RealPalindrome values
  | [] => iff_of_true rfl trivial
  | value :: values => by
    rw [valuesReversed, List.cons.injEq, reversed_eq_iff value, valuesReversed_eq_iff values, ValuesEverywhere]

theorem entriesReversed_eq_iff : ∀ entries : List (CString × Object),
    entriesReversed entries = entries ↔ EntriesEverywhere RealPalindrome entries
  | [] => iff_of_true rfl trivial
  | (key, value) :: entries => by
    rw [entriesReversed, List.cons.injEq, Prod.mk.injEq, eq_self, true_and, reversed_eq_iff value,
      entriesReversed_eq_iff entries, EntriesEverywhere]

end

theorem markerSize_slack_iff {length : Nat} (small : length < 2 ^ 31) :
    markerSize length (2 * length) - markerSize length length = 0 ↔
      ¬ (128 ≤ length ∧ length < 256) ∧ ¬ (32768 ≤ length ∧ length < 65536) := by
  unfold markerSize integerLength
  split
  · omega
  · simp only [Nat.cast_mul, Nat.cast_ofNat]
    split_ifs <;> first | omega | (rw [false_iff]; omega)

/-- A dict has a key for each of its entries. -/
theorem length_le_entriesCount (entries : List (CString × Object)) : entries.length ≤ entriesCount entries := by
  induction entries with
  | nil => exact le_rfl
  | cons entry entries ih =>
    rw [entriesCount, List.length_cons]
    omega

mutual

/-- Nothing is measured in excess exactly when no dict has one of the sizes at which its marker is. -/
theorem slack_eq_zero_iff : ∀ object : Object, object.count ≤ 2 ^ 31 → (object.slack = 0 ↔ object.Everywhere DictMeasured)
  | .array values, few => by
    simp only [Object.count] at few
    show valuesSlack values = 0 ↔ True ∧ _
    rw [true_and, valuesSlack_eq_zero_iff values (by omega)]
  | .dict entries, few => by
    have keys := length_le_entriesCount entries
    simp only [Object.count] at few
    rw [Object.slack, Nat.add_eq_zero_iff, markerSize_slack_iff (by omega), entriesSlack_eq_zero_iff entries (by omega)]
    rfl
  | .null, _ => iff_of_true rfl trivial
  | .primitive _, _ => iff_of_true rfl trivial
  | .integer _, _ => iff_of_true rfl trivial
  | .real _, _ => iff_of_true rfl trivial
  | .date _, _ => iff_of_true rfl trivial
  | .data _, _ => iff_of_true rfl trivial
  | .string _, _ => iff_of_true rfl trivial
  | .unicodeString _, _ => iff_of_true rfl trivial

theorem valuesSlack_eq_zero_iff : ∀ values : List Object,
    valuesCount values ≤ 2 ^ 31 → (valuesSlack values = 0 ↔ ValuesEverywhere DictMeasured values)
  | [], _ => iff_of_true rfl trivial
  | value :: values, few => by
    simp only [valuesCount] at few
    rw [valuesSlack, Nat.add_eq_zero_iff, slack_eq_zero_iff value (by omega), valuesSlack_eq_zero_iff values (by omega),
      ValuesEverywhere]

theorem entriesSlack_eq_zero_iff : ∀ entries : List (CString × Object),
    entriesCount entries ≤ 2 ^ 31 → (entriesSlack entries = 0 ↔ EntriesEverywhere DictMeasured entries)
  | [], _ => iff_of_true rfl trivial
  | (_, value) :: entries, few => by
    simp only [entriesCount] at few
    rw [entriesSlack, Nat.add_eq_zero_iff, slack_eq_zero_iff value (by omega), entriesSlack_eq_zero_iff entries (by omega),
      EntriesEverywhere]

end

/-- Every tree of the public constructors comes back from its document if and only if its reals are palindromes and
no dict has 128 to 255 or 32768 to 65535 entries. -/
theorem round_trip_iff (host : Host) (generous : ∀ allocations size, host.alloc allocations size = true) (object : Object)
    (built : object.Everywhere Built) (data : Bytes) (encoding : toBplist host object = .ok data)
    (small : data.length < 2 ^ 32) :
    (∃ fuel, ((fromBplist host data fuel).run 0).value = .ok object) ↔
      object.Everywhere RealPalindrome ∧ object.Everywhere DictMeasured := by
  obtain ⟨offsets, encoded⟩ := toBplist_encoded encoding
  have few := (encoded_numbered encoded small).few
  rw [← reversed_eq_iff, ← slack_eq_zero_iff object (by omega)]
  constructor
  · intro ⟨fuel, done⟩
    have tight : object.slack = 0 := by
      by_contra loose
      have null := decode_misplaced encoded small (Nat.pos_of_ne_zero loose) done
      rw [null] at built
      exact built
    exact ⟨decoded_reversed generous encoded built small tight done, tight⟩
  · intro ⟨same, tight⟩
    have ends := decode_encoded generous encoded (built_legible object false built) small tight object.depth 0
    rw [same, if_pos le_rfl] at ends
    exact ⟨object.depth, ends⟩

/-- A small tree without reals. -/
def sampleTree : Object := .dict [(.ofBuffer (ascii "rate"), .array [.integer 1, .data [1, 2, 3]])]

theorem sampleTree_round_trip :
    (∃ fuel, ((fromBplist generousHost (buffer (plan sampleTree).buflen (serialize sampleTree).log) fuel).run 0).value =
      .ok sampleTree) ↔ sampleTree.Everywhere RealPalindrome ∧ sampleTree.Everywhere DictMeasured :=
  round_trip_iff generousHost (fun _ _ => rfl) sampleTree ⟨trivial, ⟨trivial, trivial, trivial, trivial⟩, trivial⟩ _ rfl
    (by decide +kernel)

/-- The real 1.0 comes back as another number. -/
theorem real_one_reversed :
    ¬ ∀ (host : Host), (∀ allocations size, host.alloc allocations size = true) → ∀ object : Object,
      object.Everywhere Built → ∀ data, toBplist host object = .ok data → data.length < 2 ^ 32 →
        ∃ fuel, ((fromBplist host data fuel).run 0).value = .ok object := by
  intro round
  have encoding : toBplist generousHost (.real 0x3FF0000000000000) = .ok _ := rfl
  obtain ⟨fuel, done⟩ := round generousHost (fun _ _ => rfl) (.real 0x3FF0000000000000) trivial _ encoding
    (by decide +kernel)
  obtain ⟨offsets, encoded⟩ := toBplist_encoded encoding
  have same := decoded_reversed (fun _ _ => rfl) encoded trivial (by decide +kernel) rfl done
  exact absurd (Object.real.inj same) (by decide +kernel)

end Apsdk.Plist
