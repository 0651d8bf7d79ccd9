import Apsdk.PlistEncoder
import Apsdk.Proofs.PlistLayout

/-! The encoder lays out the tree that it is given, with its reals in the byte order
of the host, and writes as many bytes as it has measured but for some dicts. -/

namespace Apsdk.Plist
open Library

mutual

/-- A property of every object in a tree. -/
def Object.Everywhere (property : Object → Prop) : Object → Prop
  | .array values => property (.array values) ∧ ValuesEverywhere property values
  | .dict entries => property (.dict entries) ∧ EntriesEverywhere property entries
  | .null => property .null
  | .primitive value => property (.primitive value)
  | .integer value => property (.integer value)
  | .real value => property (.real value)
  | .date value => property (.date value)
  | .data value => property (.data value)
  | .string value => property (.string value)
  | .unicodeString value => property (.unicodeString value)

def ValuesEverywhere (property : Object → Prop) : List Object → Prop
  | [] => True
  | value :: values => value.Everywhere property ∧ ValuesEverywhere property values

def EntriesEverywhere (property : Object → Prop) : List (CString × Object) → Prop
  | [] => True
  | (_, value) :: entries => value.Everywhere property ∧ EntriesEverywhere property entries

end

/-- What the public constructors make. -/
def Built : Object → Prop
  | .primitive value => value = PLIST_PRIMITIVE_TRUE ∨ value = PLIST_PRIMITIVE_FALSE
  | .null => False
  | .date _ => False
  | .unicodeString _ => False
  | _ => True

/-- A pattern with its bytes in the opposite order. -/
def reversedBytes (value : BitVec 64) : BitVec 64 := BitVec.ofNat 64 (beValue (leBytes 8 value.toNat))

mutual

/-- The tree that a decoder finds in what the encoder has written. -/
def Object.reversed : Object → Object
  | .real value => .real (reversedBytes value)
  | .array values => .array (valuesReversed values)
  | .dict entries => .dict (entriesReversed entries)
  | .null => .null
  | .primitive value => .primitive value
  | .integer value => .integer value
  | .date value => .date value
  | .data value => .data value
  | .string value => .string value
  | .unicodeString value => .unicodeString value

def valuesReversed : List Object → List Object
  | [] => []
  | value :: values => value.reversed :: valuesReversed values

def entriesReversed : List (CString × Object) → List (CString × Object)
  | [] => []
  | (key, value) :: entries => (key, value.reversed) :: entriesReversed entries

end

mutual

/-- The number of objects in a tree. -/
def Object.count : Object → Nat
  | .array values => 1 + valuesCount values
  | .dict entries => 1 + entriesCount entries
  | .null => 1
  | .primitive _ => 1
  | .integer _ => 1
  | .real _ => 1
  | .date _ => 1
  | .data _ => 1
  | .string _ => 1
  | .unicodeString _ => 1

def valuesCount : List Object → Nat
  | [] => 0
  | value :: values => value.count + valuesCount values

def entriesCount : List (CString × Object) → Nat
  | [] => 0
  | (_, value) :: entries => 1 + value.count + entriesCount entries

end

mutual

/-- The bytes that a tree takes up behind the write position. -/
def Object.span (reflen : Nat) : Object → Nat
  | .array values => markerSize values.length values.length + values.length * reflen + valuesSpan reflen values
  | .dict entries =>
    markerSize entries.length entries.length + entries.length * reflen + entries.length * reflen +
      entriesSpan reflen entries
  | .null => 1
  | .primitive _ => 1
  | .integer value => 1 + integerLength value.toInt
  | .real _ => 1 + 8
  | .date _ => 0
  | .data value => markerSize value.length value.length + value.length
  | .string value => markerSize value.bytes.length value.bytes.length + value.bytes.length
  | .unicodeString _ => 0

def valuesSpan (reflen : Nat) : List Object → Nat
  | [] => 0
  | value :: values => value.span reflen + valuesSpan reflen values

def entriesSpan (reflen : Nat) : List (CString × Object) → Nat
  | [] => 0
  | (key, value) :: entries =>
    markerSize key.bytes.length key.bytes.length + key.bytes.length + value.span reflen + entriesSpan reflen entries

end

mutual

/-- The bytes that are measured but not written: the marker of a dict is measured with twice its size. -/
def Object.slack : Object → Nat
  | .array values => valuesSlack values
  | .dict entries =>
    markerSize entries.length (2 * entries.length) - markerSize entries.length entries.length + entriesSlack entries
  | .null => 0
  | .primitive _ => 0
  | .integer _ => 0
  | .real _ => 0
  | .date _ => 0
  | .data _ => 0
  | .string _ => 0
  | .unicodeString _ => 0

def valuesSlack : List Object → Nat
  | [] => 0
  | value :: values => value.slack + valuesSlack values

def entriesSlack : List (CString × Object) → Nat
  | [] => 0
  | (_, value) :: entries => value.slack + entriesSlack entries

end

section Measure

theorem markerSize_mono (length : Nat) : markerSize length length ≤ markerSize length (2 * length) := by
  unfold markerSize integerLength
  split
  · exact le_rfl
  · push_cast
    split_ifs <;> omega

theorem leaf_sizes (reflen bytes : Nat) (sizes : Sizes) :
    (sizes.add bytes 0).objects = sizes.objects + 1 ∧ (sizes.add bytes 0).refs + 1 = sizes.refs + 1 ∧
    (sizes.add bytes 0).bytes + (sizes.add bytes 0).refs * reflen = sizes.bytes + sizes.refs * reflen + bytes + 0 := by
  refine ⟨rfl, rfl, ?_⟩
  simp only [Sizes.add, Nat.add_zero]
  omega

mutual

/-- The measured bytes and references are those that are written and the slack. -/
theorem analyze_sizes (reflen : Nat) : ∀ (object : Object) (sizes : Sizes),
    (analyze object sizes).objects = sizes.objects + object.count ∧
    (analyze object sizes).refs + 1 = sizes.refs + object.count ∧
    (analyze object sizes).bytes + (analyze object sizes).refs * reflen =
      sizes.bytes + sizes.refs * reflen + object.span reflen + object.slack
  | .array values, sizes => by
    obtain ⟨objects, refs, bytes⟩ := analyzeValues_sizes reflen values
      (sizes.add (markerSize values.length values.length) values.length)
    simp only [analyze, Object.count, Object.span, Object.slack, Sizes.add]
    simp only [Sizes.add, Nat.add_mul] at objects refs bytes
    exact ⟨by omega, by omega, by omega⟩
  | .dict entries, sizes => by
    obtain ⟨objects, refs, bytes⟩ := analyzeEntries_sizes reflen entries
      (sizes.add (markerSize entries.length (2 * entries.length)) (2 * entries.length))
    have mono := markerSize_mono entries.length
    simp only [analyze, Object.count, Object.span, Object.slack, Sizes.add]
    simp only [Sizes.add, Nat.add_mul, Nat.mul_assoc] at objects refs bytes
    exact ⟨by omega, by omega, by omega⟩
  | .null, sizes => leaf_sizes reflen _ sizes
  | .primitive _, sizes => leaf_sizes reflen _ sizes
  | .integer _, sizes => leaf_sizes reflen _ sizes
  | .real _, sizes => leaf_sizes reflen _ sizes
  | .date _, sizes => leaf_sizes reflen _ sizes
  | .data _, sizes => leaf_sizes reflen _ sizes
  | .string _, sizes => leaf_sizes reflen _ sizes
  | .unicodeString _, sizes => leaf_sizes reflen _ sizes

theorem analyzeValues_sizes (reflen : Nat) : ∀ (values : List Object) (sizes : Sizes),
    (analyzeValues values sizes).objects = sizes.objects + valuesCount values ∧
    (analyzeValues values sizes).refs + values.length = sizes.refs + valuesCount values ∧
    (analyzeValues values sizes).bytes + (analyzeValues values sizes).refs * reflen =
      sizes.bytes + sizes.refs * reflen + valuesSpan reflen values + valuesSlack values
  | [], sizes => ⟨rfl, rfl, rfl⟩
  | value :: values, sizes => by
    obtain ⟨objects, refs, bytes⟩ := analyze_sizes reflen value sizes
    obtain ⟨objects', refs', bytes'⟩ := analyzeValues_sizes reflen values (analyze value sizes)
    simp only [analyzeValues, valuesCount, valuesSpan, valuesSlack, List.length_cons]
    exact ⟨by omega, by omega, by omega⟩

theorem analyzeEntries_sizes (reflen : Nat) : ∀ (entries : List (CString × Object)) (sizes : Sizes),
    (analyzeEntries entries sizes).objects = sizes.objects + entriesCount entries ∧
    (analyzeEntries entries sizes).refs + 2 * entries.length = sizes.refs + entriesCount entries ∧
    (analyzeEntries entries sizes).bytes + (analyzeEntries entries sizes).refs * reflen =
      sizes.bytes + sizes.refs * reflen + entriesSpan reflen entries + entriesSlack entries
  | [], sizes => ⟨rfl, rfl, rfl⟩
  | (key, value) :: entries, sizes => by
    obtain ⟨objects, refs, bytes⟩ := analyze_sizes reflen value
      (sizes.add (markerSize key.bytes.length key.bytes.length + key.bytes.length) 0)
    obtain ⟨objects', refs', bytes'⟩ := analyzeEntries_sizes reflen entries
      (analyze value (sizes.add (markerSize key.bytes.length key.bytes.length + key.bytes.length) 0))
    simp only [analyzeEntries, entriesCount, entriesSpan, entriesSlack, List.length_cons, Sizes.add, Nat.add_zero]
    simp only [Sizes.add, Nat.add_zero] at objects refs bytes objects' refs' bytes'
    exact ⟨by omega, by omega, by omega⟩

end

end Measure

section Widths

/-- The width of a number is a power of two, whose exponent goes into the marker. -/
theorem integerLength_exponent (value : Int) :
    ∃ exponent ≤ 3, integerLength value = 2 ^ exponent ∧ blistIntegerLength value = UInt8.ofNat exponent := by
  unfold integerLength blistIntegerLength
  split_ifs
  · exact ⟨0, by decide, rfl, rfl⟩
  · exact ⟨1, by decide, rfl, rfl⟩
  · exact ⟨2, by decide, rfl, rfl⟩
  · exact ⟨3, by decide, rfl, rfl⟩

theorem integerLength_fits {value : Int} {bits : Nat} (bound : bits < 2 ^ 64) (same : 0 < value → value = bits) :
    bits < 256 ^ integerLength value := by
  unfold integerLength
  split_ifs <;> omega

/-- The width that an integer object is given holds its bits. -/
theorem integerLength_word (value : BitVec 64) : ∃ exponent ≤ 3, value.toNat < 256 ^ 2 ^ exponent ∧
    integerLength value.toInt = 2 ^ exponent ∧ blistIntegerLength value.toInt = UInt8.ofNat exponent := by
  obtain ⟨exponent, known, width, blist⟩ := integerLength_exponent value.toInt
  have fits := @integerLength_fits value.toInt _ value.isLt fun above =>
    BitVec.toInt_eq_toNat_of_lt (BitVec.toInt_pos_iff.mp above.le)
  rw [width] at fits
  exact ⟨exponent, known, fits, width, blist⟩

theorem integerLength_width (value : Int) :
    integerLength value = 1 ∨ integerLength value = 2 ∨ integerLength value = 4 ∨ integerLength value = 8 := by
  unfold integerLength
  split_ifs <;> omega

def markerBytes (kind : UInt8) (length : Nat) : Bytes :=
  if length < 15 then [kind ||| UInt8.ofNat length]
  else (kind ||| 0x0f) :: (PLIST_TYPE_INTEGER ||| blistIntegerLength length) :: beBytes (integerLength length) length

theorem length_markerBytes (kind : UInt8) (length : Nat) : (markerBytes kind length).length = markerSize length length := by
  unfold markerBytes markerSize
  split
  · rfl
  · simp only [List.length_cons, length_beBytes]
    omega

theorem markerBytes_stands (kind : UInt8) {length : Nat} (small : length < 2 ^ 63) :
    Marker kind length (markerBytes kind length) := by
  unfold markerBytes
  split
  case isTrue short => exact .short short
  case isFalse long =>
    obtain ⟨exponent, known, width, blist⟩ := integerLength_exponent length
    have fits := @integerLength_fits length length (by omega) fun _ => rfl
    rw [width] at fits ⊢
    rw [blist]
    exact .long exponent known fits small

end Widths

/-- A writer goes on from another one with a string of bytes. -/
structure Appends (before after : Writer) (bytes : Bytes) : Prop where
  dataidx : after.dataidx = before.dataidx + bytes.length
  reftab : after.reftab = before.reftab
  log : ∃ later, after.log = before.log ++ later ∧
    Confined later fun i => before.dataidx ≤ i ∧ i < before.dataidx + bytes.length
  bytes : ∀ i (below : i < bytes.length), memory after.log (before.dataidx + i) = bytes[i]

section Appending
variable {before middle after : Writer}

theorem put_appends (writer : Writer) (bytes : Bytes) : Appends writer (writer.put bytes) bytes :=
  ⟨rfl, rfl, ⟨_, rfl, confined_singleton fun _ covers => covers⟩, fun _ below => memory_written _ _ _ below⟩

theorem Appends.trans {first second : Bytes} (here : Appends before middle first) (there : Appends middle after second) :
    Appends before after (first ++ second) := by
  obtain ⟨early, split, early_confined⟩ := here.log
  obtain ⟨late, split', late_confined⟩ := there.log
  have moved := here.dataidx
  refine ⟨?_, there.reftab.trans here.reftab, ⟨early ++ late, ?_, ?_⟩, fun i below => ?_⟩
  · rw [there.dataidx, moved, List.length_append]
    omega
  · rw [split', split, List.append_assoc]
  · rw [List.length_append]
    exact (early_confined.mono fun i inside => ⟨inside.1, by omega⟩).append
      (late_confined.mono fun i inside => ⟨by omega, by omega⟩)
  · by_cases left : i < first.length
    · rw [split', memory_append_of_confined _ late_confined (by omega), here.bytes i left, List.getElem_append_left left]
    · rw [List.length_append] at below
      rw [List.getElem_append_right (Nat.not_lt.mp left), ← there.bytes (i - first.length) (by omega), moved]
      congr 1
      omega

theorem serializeMarker_appends (kind : UInt8) (length : Nat) (writer : Writer) :
    Appends writer (serializeMarker kind length writer) (markerBytes kind length) := by
  unfold serializeMarker markerBytes
  split
  · exact put_appends _ _
  · exact ((put_appends writer [kind ||| 0x0f]).trans (put_appends _ _)).trans (put_appends _ _)

theorem serializeBytes_appends (kind : UInt8) (bytes : Bytes) (writer : Writer) :
    Appends writer (serializeBytes kind bytes writer) (markerBytes kind bytes.length ++ bytes) :=
  (serializeMarker_appends kind bytes.length writer).trans (put_appends _ _)

end Appending

def Between (first last i : Nat) : Prop := first ≤ i ∧ i < last

/-- A writer goes on from another one by a number of objects and a number of bytes, and writes in a region only. -/
structure Places (before after : Writer) (count span : Nat) (region : Nat → Prop) : Prop where
  dataidx : after.dataidx = before.dataidx + span
  reftab : ∃ offsets, after.reftab = before.reftab ++ offsets ∧ offsets.length = count ∧
    ∀ offset ∈ offsets, offset ≤ after.dataidx
  log : ∃ later, after.log = before.log ++ later ∧ Confined later region

section Placing
variable {before middle after writer : Writer} {count span more further : Nat} {region wider : Nat → Prop}

theorem Places.trans (here : Places before middle count span region) (there : Places middle after more further region) :
    Places before after (count + more) (span + further) region := by
  obtain ⟨offsets, extended, counted, bounded⟩ := here.reftab
  obtain ⟨offsets', extended', counted', bounded'⟩ := there.reftab
  obtain ⟨early, split, confined⟩ := here.log
  obtain ⟨late, split', confined'⟩ := there.log
  have moved := there.dataidx
  refine ⟨by rw [moved, here.dataidx, Nat.add_assoc], ⟨offsets ++ offsets', ?_, ?_, ?_⟩, ⟨early ++ late, ?_, ?_⟩⟩
  · rw [extended', extended, List.append_assoc]
  · rw [List.length_append, counted, counted']
  · intro offset member
    cases List.mem_append.mp member with
    | inl old => exact (bounded offset old).trans (by omega)
    | inr new => exact bounded' offset new
  · rw [split', split, List.append_assoc]
  · exact confined.append confined'

theorem Places.mono (places : Places before after count span region) (included : ∀ i, region i → wider i) :
    Places before after count span wider :=
  ⟨places.dataidx, places.reftab, places.log.imp fun _ later => ⟨later.1, later.2.mono included⟩⟩

theorem Appends.places {bytes : Bytes} (appends : Appends before after bytes) :
    Places before after 0 bytes.length (Between before.dataidx (before.dataidx + bytes.length)) :=
  ⟨appends.dataidx, ⟨[], by rw [appends.reftab, List.append_nil], rfl, fun _ member => nomatch member⟩, appends.log⟩

theorem places_self : Places writer writer 0 0 region :=
  ⟨rfl, ⟨[], (List.append_nil _).symm, rfl, fun _ member => nomatch member⟩, ⟨[], (List.append_nil _).symm, confined_nil⟩⟩

@[simp] theorem register_dataidx : writer.register.dataidx = writer.dataidx := rfl

@[simp] theorem skip_dataidx (length : Nat) : (writer.skip length).dataidx = writer.dataidx + length := rfl

@[simp] theorem fill_dataidx (position : Nat) (bytes : Bytes) : (writer.fill position bytes).dataidx = writer.dataidx := rfl

theorem register_places : Places writer writer.register 1 0 region :=
  ⟨rfl, ⟨[writer.dataidx], rfl, rfl, fun _ member => (List.mem_singleton.mp member).le⟩,
    ⟨[], (List.append_nil _).symm, confined_nil⟩⟩

theorem skip_places (length : Nat) : Places writer (writer.skip length) 0 length region :=
  ⟨rfl, ⟨[], (List.append_nil _).symm, rfl, fun _ member => nomatch member⟩, ⟨[], (List.append_nil _).symm, confined_nil⟩⟩

theorem fill_places {position : Nat} {bytes : Bytes} (covered : ∀ i, Between position (position + bytes.length) i → region i)
    (later : Places (writer.fill position bytes) after count span region) : Places writer after count span region := by
  have filled : Places writer (writer.fill position bytes) 0 0 region :=
    ⟨rfl, ⟨[], (List.append_nil _).symm, rfl, fun _ member => nomatch member⟩, ⟨_, rfl, confined_singleton covered⟩⟩
  have placed := filled.trans later
  rw [Nat.zero_add, Nat.zero_add] at placed
  exact placed

/-- An object that is a marker and a payload. -/
theorem leaf_places {bytes : Bytes} (appends : Appends writer.register after bytes) :
    Places writer after 1 bytes.length (Between writer.dataidx (writer.dataidx + bytes.length)) := by
  have places := register_places.trans appends.places
  rw [Nat.zero_add] at places
  exact places

theorem serializeObject_id (reflen : Nat) (object : Object) (writer : Writer) :
    (serializeObject reflen object writer).1 = writer.reftab.length := by
  cases object <;> rfl

theorem serializeString_places (value : CString) (writer : Writer) :
    Places writer (serializeString value writer).2 1
      (markerSize value.bytes.length value.bytes.length + value.bytes.length)
      (Between writer.dataidx
        (writer.dataidx + (markerSize value.bytes.length value.bytes.length + value.bytes.length))) := by
  have places := leaf_places (serializeBytes_appends PLIST_TYPE_STRING value.bytes writer.register)
  rw [List.length_append, length_markerBytes] at places
  exact places

/-- A container is its marker, the space for its references, and its children behind that. -/
theorem container_places {kind : UInt8} {length reserved : Nat}
    (children : Places ((serializeMarker kind length writer.register).skip reserved) after count span region)
    (included : ∀ i, region i → Between writer.dataidx (writer.dataidx + (markerSize length length + reserved + span)) i) :
    Places writer after (1 + count) (markerSize length length + reserved + span)
      (Between writer.dataidx (writer.dataidx + (markerSize length length + reserved + span))) := by
  have marker := (serializeMarker_appends kind length writer.register).places
  rw [length_markerBytes] at marker
  have within : ∀ i, Between writer.register.dataidx (writer.register.dataidx + markerSize length length) i →
      Between writer.dataidx (writer.dataidx + (markerSize length length + reserved + span)) i := by
    intro i inside
    simp only [Between, register_dataidx] at inside ⊢
    omega
  have placed := (register_places.trans (marker.mono within)).trans ((skip_places reserved).trans (children.mono included))
  simp only [Nat.zero_add, Nat.add_zero, ← Nat.add_assoc] at placed ⊢
  exact placed

theorem skip_skip (first second : Nat) : (writer.skip first).skip second = writer.skip (first + second) := by
  simp only [Writer.skip, Nat.add_assoc]

mutual

/-- An object is written behind the write position, with all that belongs to it. -/
theorem serializeObject_places (reflen : Nat) : ∀ (object : Object) (writer : Writer),
    Places writer (serializeObject reflen object writer).2 object.count (object.span reflen)
      (Between writer.dataidx (writer.dataidx + object.span reflen))
  | .null, writer => leaf_places (put_appends writer.register [0])
  | .primitive value, writer => leaf_places (put_appends writer.register [PLIST_TYPE_PRIMITIVE ||| value])
  | .integer value, writer => by
    have places := leaf_places ((put_appends writer.register [PLIST_TYPE_INTEGER ||| blistIntegerLength value.toInt]).trans
      (put_appends _ (serializeInteger (integerLength value.toInt) value.toNat)))
    rw [List.length_append, serializeInteger, length_beBytes] at places
    exact places
  | .real value, writer => by
    have places := leaf_places ((put_appends writer.register [PLIST_TYPE_REAL ||| 3]).trans
      (put_appends _ (leBytes 8 value.toNat)))
    rw [List.length_append, length_leBytes] at places
    exact places
  | .date _, writer => register_places
  | .data value, writer => by
    have places := leaf_places (serializeBytes_appends PLIST_TYPE_DATA value writer.register)
    rw [List.length_append, length_markerBytes] at places
    exact places
  | .string value, writer => serializeString_places value writer
  | .unicodeString _, writer => register_places
  | .array values, writer => by
    have moved := (serializeMarker_appends PLIST_TYPE_ARRAY values.length writer.register).dataidx
    rw [length_markerBytes] at moved
    refine container_places (serializeValues_places reflen values _ _) fun i inside => ?_
    simp only [Between, skip_dataidx, moved, register_dataidx] at inside ⊢
    omega
  | .dict entries, writer => by
    have moved := (serializeMarker_appends PLIST_TYPE_DICT entries.length writer.register).dataidx
    rw [length_markerBytes] at moved
    have children := serializeEntries_places reflen entries
      (serializeMarker PLIST_TYPE_DICT entries.length writer.register).dataidx
      ((serializeMarker PLIST_TYPE_DICT entries.length writer.register).dataidx + entries.length * reflen)
      ((serializeMarker PLIST_TYPE_DICT entries.length writer.register).skip
        (entries.length * reflen + entries.length * reflen))
    have places := container_places children fun i inside => ?_
    · rw [← skip_skip, ← Nat.add_assoc] at places
      exact places
    · simp only [Between, skip_dataidx, moved, register_dataidx] at inside ⊢
      omega

theorem serializeValues_places (reflen : Nat) : ∀ (values : List Object) (valueidx : Nat) (writer : Writer),
    Places writer (serializeValues reflen values valueidx writer) (valuesCount values) (valuesSpan reflen values)
      (fun i => Between valueidx (valueidx + values.length * reflen) i ∨
        Between writer.dataidx (writer.dataidx + valuesSpan reflen values) i)
  | [], _, writer => places_self
  | value :: values, valueidx, writer => by
    have here := serializeObject_places reflen value writer
    have moved := here.dataidx
    have later := serializeValues_places reflen values (valueidx + reflen)
      ((serializeObject reflen value writer).2.fill valueidx
        (serializeInteger reflen (serializeObject reflen value writer).1))
    simp only [valuesCount, valuesSpan, List.length_cons, Nat.add_one_mul]
    refine (here.mono fun i inside => ?_).trans (fill_places (fun i inside => ?_) (later.mono fun i inside => ?_))
    all_goals
      simp only [Between, fill_dataidx, moved, serializeInteger, length_beBytes] at inside ⊢
      omega

theorem serializeEntries_places (reflen : Nat) : ∀ (entries : List (CString × Object)) (keyidx valueidx : Nat)
    (writer : Writer),
    Places writer (serializeEntries reflen entries keyidx valueidx writer) (entriesCount entries)
      (entriesSpan reflen entries)
      (fun i => Between keyidx (keyidx + entries.length * reflen) i ∨
        Between valueidx (valueidx + entries.length * reflen) i ∨
        Between writer.dataidx (writer.dataidx + entriesSpan reflen entries) i)
  | [], _, _, writer => places_self
  | (key, value) :: entries, keyidx, valueidx, writer => by
    have name := serializeString_places key writer
    have here := serializeObject_places reflen value (serializeString key writer).2
    have moved := name.dataidx
    have moved' := here.dataidx
    have later := serializeEntries_places reflen entries (keyidx + reflen) (valueidx + reflen)
      (((serializeObject reflen value (serializeString key writer).2).2.fill keyidx
        (serializeInteger reflen (serializeString key writer).1)).fill valueidx
        (serializeInteger reflen (serializeObject reflen value (serializeString key writer).2).1))
    simp only [entriesCount, entriesSpan, List.length_cons, Nat.add_one_mul]
    refine ((name.mono fun i inside => ?_).trans (here.mono fun i inside => ?_)).trans
      (fill_places (fun i inside => ?_) (fill_places (fun i inside => ?_) (later.mono fun i inside => ?_)))
    all_goals
      simp only [Between, fill_dataidx, moved, moved', serializeInteger, length_beBytes] at inside ⊢
      omega

end

end Placing

/-- A document holds what a writer has left in a region, and an offset table that goes on from the recorded offsets. -/
structure Shows (data : Bytes) (reftab : List (BitVec 64)) (writer : Writer) (region : Nat → Prop) : Prop where
  bytes : ∀ i, region i → data[i]? = some (memory writer.log i)
  offsets : ∀ (id offset : Nat), writer.reftab[id]? = some offset → reftab[id]? = some (BitVec.ofNat 64 offset)

/-- An object begins at a place, where the offset table has it. -/
structure Stands (data : Bytes) (reftab : List (BitVec 64)) (id start : Nat) (bytes : Bytes) : Prop where
  entry : ∃ offset, reftab[id]? = some offset ∧ offset.toNat = start
  bytes : At data start bytes

section Showing
variable {data : Bytes} {reftab : List (BitVec 64)} {before after writer : Writer} {count span position : Nat}
variable {region touched smaller : Nat → Prop} {bytes : Bytes}

/-- What is left alone by later writes is what an earlier writer has left. -/
theorem Shows.back (shows : Shows data reftab after region) (places : Places before after count span touched)
    (apart : ∀ i, smaller i → region i ∧ ¬ touched i) : Shows data reftab before smaller := by
  obtain ⟨offsets, extended, -, -⟩ := places.reftab
  obtain ⟨later, split, confined⟩ := places.log
  refine ⟨fun i inside => ?_, fun id offset entry => shows.offsets id offset ?_⟩
  · rw [shows.bytes i (apart i inside).1, split, memory_append_of_confined _ confined (apart i inside).2]
  · obtain ⟨below, -⟩ := List.getElem?_eq_some_iff.mp entry
    rw [extended, List.getElem?_append_left below, entry]

theorem Shows.mono (shows : Shows data reftab writer region) (included : ∀ i, smaller i → region i) :
    Shows data reftab writer smaller :=
  ⟨fun i inside => shows.bytes i (included i inside), shows.offsets⟩

theorem Appends.at (appends : Appends before after bytes)
    (shows : Shows data reftab after (Between before.dataidx (before.dataidx + bytes.length)))
    (inside : before.dataidx + bytes.length ≤ data.length) : At data before.dataidx bytes := by
  refine ⟨inside, fun i below => ?_⟩
  rw [shows.bytes _ ⟨Nat.le_add_right .., Nat.add_lt_add_left below _⟩, appends.bytes i below]

theorem fill_at (shows : Shows data reftab after region) (later : Places (writer.fill position bytes) after count span touched)
    (apart : ∀ i, Between position (position + bytes.length) i → region i ∧ ¬ touched i)
    (inside : position + bytes.length ≤ data.length) : At data position bytes := by
  refine ⟨inside, fun i below => ?_⟩
  have filled := (shows.back later apart).bytes (position + i) ⟨Nat.le_add_right .., Nat.add_lt_add_left below _⟩
  rw [filled, Writer.fill, memory_written _ _ _ below]

/-- The entry of the offset table for an object that has been registered. -/
theorem registered (shows : Shows data reftab after region) (places : Places writer.register after count span touched)
    (small : writer.dataidx < 2 ^ 64) :
    ∃ offset, reftab[writer.reftab.length]? = some offset ∧ offset.toNat = writer.dataidx := by
  obtain ⟨offsets, extended, -, -⟩ := places.reftab
  refine ⟨BitVec.ofNat 64 writer.dataidx, shows.offsets _ _ ?_, ?_⟩
  · rw [extended, Writer.register, List.append_assoc, List.getElem?_append_right le_rfl, Nat.sub_self]
    rfl
  · rw [BitVec.toNat_ofNat, Nat.mod_eq_of_lt small]

/-- An object that is one string of bytes stands where it has been registered. -/
theorem leaf_found (appends : Appends writer.register after bytes)
    (shows : Shows data reftab after (Between writer.dataidx (writer.dataidx + bytes.length)))
    (inside : writer.dataidx + bytes.length ≤ data.length) (small : data.length < 2 ^ 64) :
    Stands data reftab writer.reftab.length writer.dataidx bytes :=
  ⟨registered shows appends.places (by omega), appends.at shows inside⟩

theorem string_found {value : CString}
    (shows : Shows data reftab (serializeString value writer).2 (Between writer.dataidx
      (writer.dataidx + (markerSize value.bytes.length value.bytes.length + value.bytes.length))))
    (inside : writer.dataidx + (markerSize value.bytes.length value.bytes.length + value.bytes.length) ≤ data.length)
    (small : data.length < 2 ^ 64) :
    Stands data reftab writer.reftab.length writer.dataidx (markerBytes PLIST_TYPE_STRING value.bytes.length ++ value.bytes) := by
  have appends := serializeBytes_appends PLIST_TYPE_STRING value.bytes writer.register
  have length : (markerBytes PLIST_TYPE_STRING value.bytes.length ++ value.bytes).length =
      markerSize value.bytes.length value.bytes.length + value.bytes.length := by
    rw [List.length_append, length_markerBytes]
  rw [← length] at shows inside
  exact leaf_found appends shows inside small

theorem beBytes_reversedBytes (value : BitVec 64) : beBytes 8 (reversedBytes value).toNat = leBytes 8 value.toNat := by
  have bound := beValue_lt (leBytes 8 value.toNat)
  have same := beBytes_beValue (leBytes 8 value.toNat)
  rw [length_leBytes] at bound same
  rw [reversedBytes, BitVec.toNat_ofNat, Nat.mod_eq_of_lt (show beValue (leBytes 8 value.toNat) < 2 ^ 64 from bound), same]

theorem length_valuesReversed (values : List Object) : (valuesReversed values).length = values.length := by
  induction values with
  | nil => rfl
  | cons value values ih => rw [valuesReversed, List.length_cons, List.length_cons, ih]

theorem length_entriesReversed (entries : List (CString × Object)) :
    (entriesReversed entries).length = entries.length := by
  induction entries with
  | nil => rfl
  | cons entry entries ih => rw [entriesReversed, List.length_cons, List.length_cons, ih]

theorem Object.count_pos (object : Object) : 1 ≤ object.count := by
  cases object <;> simp only [Object.count] <;> omega

/-- The marker of a container stands in front of its references. -/
theorem container_found {kind : UInt8} {length reserved : Nat}
    (children : Places ((serializeMarker kind length writer.register).skip reserved) after count span touched)
    (shows : Shows data reftab after (Between writer.dataidx (writer.dataidx + (markerSize length length + reserved + span))))
    (apart : ∀ i, touched i → writer.dataidx + markerSize length length ≤ i)
    (inside : writer.dataidx + (markerSize length length + reserved + span) ≤ data.length) (small : data.length < 2 ^ 64)
    (references : Bytes) (filled : At data (writer.dataidx + markerSize length length) references) :
    Stands data reftab writer.reftab.length writer.dataidx (markerBytes kind length ++ references) := by
  have marker := serializeMarker_appends kind length writer.register
  have placed : Places (serializeMarker kind length writer.register) after _ _ touched :=
    (skip_places reserved).trans children
  have shown : Shows data reftab (serializeMarker kind length writer.register)
      (Between writer.dataidx (writer.dataidx + (markerBytes kind length).length)) := by
    refine shows.back placed fun i here => ⟨⟨here.1, ?_⟩, fun touch => ?_⟩
    · have below := here.2
      rw [length_markerBytes] at below
      omega
    · have below := here.2
      rw [length_markerBytes] at below
      exact absurd (apart i touch) (by omega)
  have found := leaf_found marker shown (by rw [length_markerBytes]; omega) small
  refine ⟨found.entry, found.bytes.append ?_⟩
  rw [length_markerBytes]
  exact filled

end Showing

/-- The numbers of the values of an array, from that of the first one on. -/
def valueIds : List Object → Nat → List Nat
  | [], _ => []
  | value :: values, id => id :: valueIds values (id + value.count)

def keyIds : List (CString × Object) → Nat → List Nat
  | [], _ => []
  | (_, value) :: entries, id => id :: keyIds entries (id + 1 + value.count)

def entryIds : List (CString × Object) → Nat → List Nat
  | [], _ => []
  | (_, value) :: entries, id => (id + 1) :: entryIds entries (id + 1 + value.count)

theorem length_valueIds (values : List Object) (id : Nat) : (valueIds values id).length = values.length := by
  induction values generalizing id with
  | nil => rfl
  | cons value values ih => rw [valueIds, List.length_cons, List.length_cons, ih]

theorem length_keyIds (entries : List (CString × Object)) (id : Nat) : (keyIds entries id).length = entries.length := by
  induction entries generalizing id with
  | nil => rfl
  | cons entry entries ih => rw [keyIds, List.length_cons, List.length_cons, ih]

/-- Each value is numbered right behind its key. -/
theorem entryIds_eq (entries : List (CString × Object)) (id : Nat) : entryIds entries id = (keyIds entries id).map (· + 1) := by
  induction entries generalizing id with
  | nil => rfl
  | cons entry entries ih => rw [entryIds, keyIds, List.map_cons, ih]

theorem length_entryIds (entries : List (CString × Object)) (id : Nat) : (entryIds entries id).length = entries.length := by
  rw [entryIds_eq, List.length_map, length_keyIds]

mutual

/-- Where the encoder puts a tree: its objects are numbered and follow each other as they are come by, an object
before those that it refers to. Nothing stands where a date or a UTF-16 string has been registered. -/
def Placed (data : Bytes) (reftab : List (BitVec 64)) (reflen : Nat) : Object → Nat → Nat → Prop
  | .null, id, start => Stands data reftab id start [0]
  | .primitive value, id, start => Stands data reftab id start [PLIST_TYPE_PRIMITIVE ||| value]
  | .integer value, id, start => Stands data reftab id start
    ((PLIST_TYPE_INTEGER ||| blistIntegerLength value.toInt) :: beBytes (integerLength value.toInt) value.toNat)
  | .real value, id, start => Stands data reftab id start ((PLIST_TYPE_REAL ||| 3) :: leBytes 8 value.toNat)
  | .date _, id, start => Stands data reftab id start []
  | .data value, id, start => Stands data reftab id start (markerBytes PLIST_TYPE_DATA value.length ++ value)
  | .string value, id, start => Stands data reftab id start (markerBytes PLIST_TYPE_STRING value.bytes.length ++ value.bytes)
  | .unicodeString _, id, start => Stands data reftab id start []
  | .array values, id, start =>
    Stands data reftab id start
      (markerBytes PLIST_TYPE_ARRAY values.length ++ (valueIds values (id + 1)).flatMap (beBytes reflen)) ∧
    PlacedValues data reftab reflen values (id + 1) (start + markerSize values.length values.length + values.length * reflen)
  | .dict entries, id, start =>
    Stands data reftab id start (markerBytes PLIST_TYPE_DICT entries.length ++
      ((keyIds entries (id + 1)).flatMap (beBytes reflen) ++ (entryIds entries (id + 1)).flatMap (beBytes reflen))) ∧
    PlacedEntries data reftab reflen entries (id + 1)
      (start + markerSize entries.length entries.length + entries.length * reflen + entries.length * reflen)

def PlacedValues (data : Bytes) (reftab : List (BitVec 64)) (reflen : Nat) : List Object → Nat → Nat → Prop
  | [], _, _ => True
  | value :: values, id, start => Placed data reftab reflen value id start ∧
    PlacedValues data reftab reflen values (id + value.count) (start + value.span reflen)

def PlacedEntries (data : Bytes) (reftab : List (BitVec 64)) (reflen : Nat) : List (CString × Object) → Nat → Nat → Prop
  | [], _, _ => True
  | (key, value) :: entries, id, start =>
    Stands data reftab id start (markerBytes PLIST_TYPE_STRING key.bytes.length ++ key.bytes) ∧
    Placed data reftab reflen value (id + 1) (start + (markerSize key.bytes.length key.bytes.length + key.bytes.length)) ∧
    PlacedEntries data reftab reflen entries (id + 1 + value.count)
      (start + (markerSize key.bytes.length key.bytes.length + key.bytes.length) + value.span reflen)

end

section Placement
variable {data : Bytes} {reftab : List (BitVec 64)} {reflen : Nat}

mutual

/-- The encoder places the tree that it is given, behind the write position. -/
theorem serializeObject_placed (small : data.length < 2 ^ 64) :
    ∀ (object : Object) (writer : Writer),
    Shows data reftab (serializeObject reflen object writer).2
      (Between writer.dataidx (writer.dataidx + object.span reflen)) →
    writer.dataidx + object.span reflen ≤ data.length →
    Placed data reftab reflen object writer.reftab.length writer.dataidx
  | .null, writer, shows, inside => leaf_found (put_appends writer.register [0]) shows inside small
  | .date _, writer, shows, inside =>
    ⟨registered shows (@places_self writer.register fun _ => False) (by omega), inside, fun i below => absurd below (Nat.not_lt_zero i)⟩
  | .unicodeString _, writer, shows, inside =>
    ⟨registered shows (@places_self writer.register fun _ => False) (by omega), inside, fun i below => absurd below (Nat.not_lt_zero i)⟩
  | .primitive value, writer, shows, inside =>
    leaf_found (put_appends writer.register [PLIST_TYPE_PRIMITIVE ||| value]) shows inside small
  | .integer value, writer, shows, inside => by
    have appends := (put_appends writer.register [PLIST_TYPE_INTEGER ||| blistIntegerLength value.toInt]).trans
      (put_appends _ (serializeInteger (integerLength value.toInt) value.toNat))
    have length : ([PLIST_TYPE_INTEGER ||| blistIntegerLength value.toInt] ++
        serializeInteger (integerLength value.toInt) value.toNat).length = 1 + integerLength value.toInt := by
      rw [List.length_append, serializeInteger, length_beBytes]
      rfl
    have found := leaf_found appends (by rw [length]; exact shows) (by rw [length]; exact inside) small
    exact found
  | .real value, writer, shows, inside => by
    have appends := (put_appends writer.register [PLIST_TYPE_REAL ||| 3]).trans (put_appends _ (leBytes 8 value.toNat))
    have length : ([PLIST_TYPE_REAL ||| 3] ++ leBytes 8 value.toNat).length = 1 + 8 := by
      rw [List.length_append, length_leBytes]
      rfl
    have found := leaf_found appends (by rw [length]; exact shows) (by rw [length]; exact inside) small
    exact found
  | .data value, writer, shows, inside => by
    have appends := serializeBytes_appends PLIST_TYPE_DATA value writer.register
    have length : (markerBytes PLIST_TYPE_DATA value.length ++ value).length =
        markerSize value.length value.length + value.length := by
      rw [List.length_append, length_markerBytes]
    exact leaf_found appends (by rw [length]; exact shows) (by rw [length]; exact inside) small
  | .string value, writer, shows, inside => string_found shows inside small
  | .array values, writer, shows, inside => by
    have marked := serializeMarker_appends PLIST_TYPE_ARRAY values.length writer.register
    have moved := marked.dataidx
    rw [length_markerBytes, register_dataidx] at moved
    have children := serializeValues_places reflen values (serializeMarker PLIST_TYPE_ARRAY values.length writer.register).dataidx
      ((serializeMarker PLIST_TYPE_ARRAY values.length writer.register).skip (values.length * reflen))
    simp only [Object.span] at shows inside
    obtain ⟨filled, placed⟩ := serializeValues_placed small values
      (serializeMarker PLIST_TYPE_ARRAY values.length writer.register).dataidx
      ((serializeMarker PLIST_TYPE_ARRAY values.length writer.register).skip (values.length * reflen))
      (shows.mono fun i here => by
        simp only [Between, skip_dataidx, moved] at here ⊢
        omega)
      le_rfl (by rw [skip_dataidx, moved]; omega)
    have number : ((serializeMarker PLIST_TYPE_ARRAY values.length writer.register).skip (values.length * reflen)).reftab.length =
        writer.reftab.length + 1 := by
      rw [Writer.skip, marked.reftab, Writer.register, List.length_append, List.length_singleton]
    rw [number, moved] at filled
    rw [number, skip_dataidx, moved] at placed
    exact ⟨container_found children shows (fun i touch => by
      simp only [Between, skip_dataidx, moved] at touch
      omega) inside small _ filled, placed⟩
  | .dict entries, writer, shows, inside => by
    have marked := serializeMarker_appends PLIST_TYPE_DICT entries.length writer.register
    have moved := marked.dataidx
    rw [length_markerBytes, register_dataidx] at moved
    have children := serializeEntries_places reflen entries (serializeMarker PLIST_TYPE_DICT entries.length writer.register).dataidx
      ((serializeMarker PLIST_TYPE_DICT entries.length writer.register).dataidx + entries.length * reflen)
      ((serializeMarker PLIST_TYPE_DICT entries.length writer.register).skip
        (entries.length * reflen + entries.length * reflen))
    simp only [Object.span, serializeObject, skip_skip] at shows inside
    rw [Nat.add_assoc (markerSize _ _)] at shows inside
    obtain ⟨names, filled, placed⟩ := serializeEntries_placed small entries
      (serializeMarker PLIST_TYPE_DICT entries.length writer.register).dataidx
      ((serializeMarker PLIST_TYPE_DICT entries.length writer.register).dataidx + entries.length * reflen)
      ((serializeMarker PLIST_TYPE_DICT entries.length writer.register).skip
        (entries.length * reflen + entries.length * reflen))
      (shows.mono fun i here => by
        simp only [Between, skip_dataidx, moved] at here ⊢
        omega)
      le_rfl (by rw [skip_dataidx]; omega) (by rw [skip_dataidx, moved]; omega)
    have number : ((serializeMarker PLIST_TYPE_DICT entries.length writer.register).skip
        (entries.length * reflen + entries.length * reflen)).reftab.length = writer.reftab.length + 1 := by
      rw [Writer.skip, marked.reftab, Writer.register, List.length_append, List.length_singleton]
    rw [number, moved] at names filled
    rw [number, skip_dataidx, moved, ← Nat.add_assoc] at placed
    have both := names.append (by rw [length_references, length_keyIds]; exact filled)
    exact ⟨container_found children shows (fun i touch => by
      simp only [Between, skip_dataidx, moved] at touch
      omega) inside small _ both, placed⟩

theorem serializeValues_placed (small : data.length < 2 ^ 64) :
    ∀ (values : List Object) (valueidx : Nat) (writer : Writer),
    Shows data reftab (serializeValues reflen values valueidx writer)
      (fun i => Between valueidx (valueidx + values.length * reflen) i ∨
        Between writer.dataidx (writer.dataidx + valuesSpan reflen values) i) →
    valueidx + values.length * reflen ≤ writer.dataidx → writer.dataidx + valuesSpan reflen values ≤ data.length →
    At data valueidx ((valueIds values writer.reftab.length).flatMap (beBytes reflen)) ∧
      PlacedValues data reftab reflen values writer.reftab.length writer.dataidx
  | [], valueidx, writer, _, reserved, inside => by
    refine ⟨⟨?_, fun i below => absurd below (Nat.not_lt_zero i)⟩, trivial⟩
    simp only [List.length_nil, valuesSpan, valueIds, List.flatMap_nil] at reserved inside ⊢
    omega
  | value :: values, valueidx, writer, shows, reserved, inside => by
    have here := serializeObject_places reflen value writer
    have moved := here.dataidx
    obtain ⟨offsets, extended, added, -⟩ := here.reftab
    have number := serializeObject_id reflen value writer
    have later := serializeValues_places reflen values (valueidx + reflen)
      ((serializeObject reflen value writer).2.fill valueidx
        (serializeInteger reflen (serializeObject reflen value writer).1))
    simp only [valuesSpan, List.length_cons, Nat.add_one_mul] at shows reserved inside
    have slot := fill_at shows later (fun i covered => by
      simp only [Between, serializeInteger, length_beBytes, fill_dataidx, moved] at covered ⊢
      omega) (by rw [serializeInteger, length_beBytes]; omega)
    have whole : Places (serializeObject reflen value writer).2 _ _ _ (fun i =>
        Between valueidx (valueidx + (values.length * reflen + reflen)) i ∨
        Between (writer.dataidx + value.span reflen) (writer.dataidx + (value.span reflen + valuesSpan reflen values)) i) :=
      fill_places (fun i covered => by
        simp only [Between, serializeInteger, length_beBytes] at covered ⊢
        omega)
      (later.mono fun i touch => by
        simp only [Between, fill_dataidx, moved] at touch ⊢
        omega)
    have placed := serializeObject_placed small value writer
      (shows.back whole fun i covered => by
        simp only [Between] at covered ⊢
        omega)
      (by omega)
    obtain ⟨filled, rest⟩ := serializeValues_placed small values (valueidx + reflen) _
      (shows.mono fun i covered => by
        simp only [Between, fill_dataidx, moved] at covered ⊢
        omega)
      (by rw [fill_dataidx, moved]; omega) (by rw [fill_dataidx, moved]; omega)
    have next : ((serializeObject reflen value writer).2.fill valueidx
        (serializeInteger reflen (serializeObject reflen value writer).1)).reftab.length = writer.reftab.length + value.count := by
      rw [Writer.fill, extended, List.length_append, added]
    rw [number, serializeInteger] at slot
    rw [next] at filled
    rw [next, fill_dataidx, moved] at rest
    rw [valueIds, List.flatMap_cons]
    exact ⟨slot.append (by rw [length_beBytes]; exact filled), placed, rest⟩

theorem serializeEntries_placed (small : data.length < 2 ^ 64) :
    ∀ (entries : List (CString × Object)) (keyidx valueidx : Nat) (writer : Writer),
    Shows data reftab (serializeEntries reflen entries keyidx valueidx writer)
      (fun i => Between keyidx (keyidx + entries.length * reflen) i ∨
        Between valueidx (valueidx + entries.length * reflen) i ∨
        Between writer.dataidx (writer.dataidx + entriesSpan reflen entries) i) →
    keyidx + entries.length * reflen ≤ valueidx → valueidx + entries.length * reflen ≤ writer.dataidx →
    writer.dataidx + entriesSpan reflen entries ≤ data.length →
    At data keyidx ((keyIds entries writer.reftab.length).flatMap (beBytes reflen)) ∧
      At data valueidx ((entryIds entries writer.reftab.length).flatMap (beBytes reflen)) ∧
      PlacedEntries data reftab reflen entries writer.reftab.length writer.dataidx
  | [], keyidx, valueidx, writer, _, apart, reserved, inside => by
    simp only [List.length_nil, entriesSpan] at apart reserved inside
    refine ⟨⟨?_, fun i below => absurd below (Nat.not_lt_zero i)⟩, ⟨?_, fun i below => absurd below (Nat.not_lt_zero i)⟩, trivial⟩
    · rw [keyIds, List.flatMap_nil, List.length_nil]
      omega
    · rw [entryIds, List.flatMap_nil, List.length_nil]
      omega
  | (key, value) :: entries, keyidx, valueidx, writer, shows, apart, reserved, inside => by
    have name := serializeString_places key writer
    have moved := name.dataidx
    obtain ⟨offsets, extended, added, -⟩ := name.reftab
    have here := serializeObject_places reflen value (serializeString key writer).2
    have moved' := here.dataidx
    obtain ⟨offsets', extended', added', -⟩ := here.reftab
    have number := serializeObject_id reflen value (serializeString key writer).2
    have later := serializeEntries_places reflen entries (keyidx + reflen) (valueidx + reflen)
      (((serializeObject reflen value (serializeString key writer).2).2.fill keyidx
        (serializeInteger reflen (serializeString key writer).1)).fill valueidx
        (serializeInteger reflen (serializeObject reflen value (serializeString key writer).2).1))
    simp only [entriesSpan, List.length_cons, Nat.add_one_mul] at shows apart reserved inside
    -- The slot of the value is filled last, that of the key before it, and the objects before both.
    have valueSlot := fill_at shows later (fun i covered => by
      simp only [Between, serializeInteger, length_beBytes, fill_dataidx, moved, moved'] at covered ⊢
      omega) (by rw [serializeInteger, length_beBytes]; omega)
    have afterKey : Places ((serializeObject reflen value (serializeString key writer).2).2.fill keyidx
        (serializeInteger reflen (serializeString key writer).1)) _ _ _ (fun i =>
        Between (keyidx + reflen) (keyidx + (entries.length * reflen + reflen)) i ∨
        Between valueidx (valueidx + (entries.length * reflen + reflen)) i ∨
        (serializeObject reflen value (serializeString key writer).2).2.dataidx ≤ i) :=
      fill_places (fun i covered => by
        simp only [Between, serializeInteger, length_beBytes] at covered ⊢
        omega)
      (later.mono fun i touch => by
        simp only [Between, fill_dataidx] at touch ⊢
        omega)
    have keySlot := fill_at shows afterKey (fun i covered => by
      simp only [Between, serializeInteger, length_beBytes, moved, moved'] at covered ⊢
      omega) (by rw [serializeInteger, length_beBytes]; omega)
    have afterObjects : Places (serializeObject reflen value (serializeString key writer).2).2 _ _ _ (fun i =>
        i < writer.dataidx ∨ (serializeObject reflen value (serializeString key writer).2).2.dataidx ≤ i) :=
      fill_places (fun i covered => by
        simp only [Between, serializeInteger, length_beBytes] at covered ⊢
        omega)
      (afterKey.mono fun i touch => by
        simp only [Between] at touch ⊢
        omega)
    have placed := serializeObject_placed small value (serializeString key writer).2
      (shows.back afterObjects fun i covered => by
        simp only [Between, moved] at covered ⊢
        omega)
      (by omega)
    have afterName : Places (serializeString key writer).2 _ _ _ (fun i =>
        i < writer.dataidx ∨ (serializeString key writer).2.dataidx ≤ i) :=
      (here.mono fun i touch => Or.inr touch.1).trans
        (afterObjects.mono fun i touch => touch.imp id fun beyond => by omega)
    have stands := string_found (shows.back afterName fun i covered => by
      simp only [Between, moved] at covered ⊢
      omega) (by omega) small
    obtain ⟨names, filled, rest⟩ := serializeEntries_placed small entries (keyidx + reflen) (valueidx + reflen)
      (((serializeObject reflen value (serializeString key writer).2).2.fill keyidx
        (serializeInteger reflen (serializeString key writer).1)).fill valueidx
        (serializeInteger reflen (serializeObject reflen value (serializeString key writer).2).1))
      (shows.mono fun i covered => by
        simp only [Between, fill_dataidx, moved, moved'] at covered ⊢
        omega)
      (by omega) (by rw [fill_dataidx, fill_dataidx]; omega) (by rw [fill_dataidx, fill_dataidx]; omega)
    have next : (((serializeObject reflen value (serializeString key writer).2).2.fill keyidx
        (serializeInteger reflen (serializeString key writer).1)).fill valueidx
        (serializeInteger reflen (serializeObject reflen value (serializeString key writer).2).1)).reftab.length =
        writer.reftab.length + 1 + value.count := by
      rw [Writer.fill, Writer.fill, extended', List.length_append, added', extended, List.length_append, added]
    rw [next] at names filled
    rw [next, fill_dataidx, fill_dataidx, moved', moved] at rest
    rw [number, serializeInteger, extended, List.length_append, added] at valueSlot
    rw [extended, List.length_append, added, moved] at placed
    refine ⟨?_, ?_, stands, placed, rest⟩
    · rw [keyIds, List.flatMap_cons]
      exact keySlot.append (by rw [serializeInteger, length_beBytes]; exact names)
    · rw [entryIds, List.flatMap_cons]
      exact valueSlot.append (by rw [length_beBytes]; exact filled)

end

end Placement

/-- An integer that can stand for a length. -/
def LengthAt (data : Bytes) (position : Nat) : Prop := ∃ exponent value, exponent ≤ 3 ∧ value < 256 ^ 2 ^ exponent ∧ value < 2 ^ 63 ∧
  At data position ((PLIST_TYPE_INTEGER ||| UInt8.ofNat exponent) :: beBytes (2 ^ exponent) value)

def Object.isLength : Object → Bool
  | .integer value => 0 ≤ value.toInt
  | _ => false

/-- Whether a list of values begins with an integer that can be a length, or else what follows it does. -/
def leadingLength (values : List Object) (next : Bool) : Bool := (values.head?.map Object.isLength).getD next

mutual

/-- A tree that the decoder can read where it has been written; the flag says whether a length follows it.
Dates and UTF-16 strings are not written, and the primitive 15 takes what follows for its length. -/
def Object.Legible : Object → Bool → Prop
  | .primitive value, next => value < 15 ∨ value = 15 ∧ next = true
  | .array values, next => ValuesLegible values next
  | .dict entries, next => EntriesLegible entries next
  | .null, _ => False
  | .date _, _ => False
  | .unicodeString _, _ => False
  | .integer _, _ => True
  | .real _, _ => True
  | .data _, _ => True
  | .string _, _ => True

def ValuesLegible : List Object → Bool → Prop
  | [], _ => True
  | value :: values, next => value.Legible (leadingLength values next) ∧ ValuesLegible values next

/-- A key follows each value but the last. -/
def EntriesLegible : List (CString × Object) → Bool → Prop
  | [], _ => True
  | (_, value) :: entries, next => value.Legible (entries.isEmpty && next) ∧ EntriesLegible entries next

end

section Reading
variable {data : Bytes} {reftab : List (BitVec 64)} {reflen : Nat}

theorem placed_length {object : Object} {id start : Nat} (placed : Placed data reftab reflen object id start)
    (length : object.isLength = true) : LengthAt data start := by
  cases object with
  | integer value =>
    have positive : 0 ≤ value.toInt := of_decide_eq_true length
    have below : value.toNat < 2 ^ 63 := by
      have small := BitVec.toInt_lt (x := value)
      rw [BitVec.toInt_eq_toNat_of_lt (BitVec.toInt_pos_iff.mp positive)] at small
      omega
    obtain ⟨exponent, known, fits, width, blist⟩ := integerLength_word value
    have bytes := placed.bytes
    rw [blist, width] at bytes
    exact ⟨exponent, value.toNat, known, fits, below, bytes⟩
  | _ => cases length

mutual

/-- A legible tree is laid out where it has been placed, with its reals reversed. -/
theorem placed_laid (positive : 0 < reflen) (small : data.length < 2 ^ 32) : ∀ (object : Object) (id start : Nat) (next : Bool),
    Placed data reftab reflen object id start → object.Legible next →
    (next = true → LengthAt data (start + object.span reflen)) → id + object.count ≤ 256 ^ reflen →
    Laid data reftab reflen object.reversed id
  | .null, _, _, _, _, legible, _, _ => legible.elim
  | .date _, _, _, _, _, legible, _, _ => legible.elim
  | .unicodeString _, _, _, _, _, legible, _, _ => legible.elim
  | .primitive value, id, start, next, placed, legible, follows, _ => by
    obtain ⟨offset, entry, rfl⟩ := placed.entry
    have found := placed.bytes
    rw [PLIST_TYPE_PRIMITIVE, UInt8.zero_or] at found
    rcases legible with short | ⟨rfl, last⟩
    · have low : value.toNat < 15 := UInt8.lt_iff_toNat_lt.mp short
      have marker : [value] = [PLIST_TYPE_PRIMITIVE ||| UInt8.ofNat value.toNat] := by
        rw [UInt8.ofNat_toNat, PLIST_TYPE_PRIMITIVE, UInt8.zero_or]
      exact ⟨offset, value.toNat, [], entry, marker ▸ .short low, found⟩
    · obtain ⟨exponent, length, known, fits, below, digits⟩ := follows last
      exact ⟨offset, length, _, entry, .long exponent known fits below, found.append digits⟩
  | .integer value, id, start, _, placed, _, _, _ => by
    obtain ⟨offset, entry, rfl⟩ := placed.entry
    obtain ⟨exponent, known, fits, width, blist⟩ := integerLength_word value
    have bytes := placed.bytes
    rw [blist, width] at bytes
    exact ⟨offset, exponent, entry, known, fits, bytes⟩
  | .real value, id, start, _, placed, _, _, _ => by
    obtain ⟨offset, entry, rfl⟩ := placed.entry
    refine ⟨offset, entry, ?_⟩
    rw [beBytes_reversedBytes]
    exact placed.bytes
  | .data value, id, start, _, placed, _, _, _ => by
    obtain ⟨offset, entry, rfl⟩ := placed.entry
    have inside := placed.bytes.inside
    rw [List.length_append] at inside
    exact ⟨offset, _, entry, markerBytes_stands _ (by omega), placed.bytes⟩
  | .string value, id, start, _, placed, _, _, _ => by
    obtain ⟨offset, entry, rfl⟩ := placed.entry
    have inside := placed.bytes.inside
    rw [List.length_append] at inside
    exact ⟨offset, _, entry, markerBytes_stands _ (by omega), placed.bytes⟩
  | .array values, id, start, next, placed, legible, follows, counted => by
    obtain ⟨stands, children⟩ := placed
    obtain ⟨offset, entry, rfl⟩ := stands.entry
    have inside := stands.bytes.inside
    rw [List.length_append, length_references, length_valueIds] at inside
    have room : values.length ≤ values.length * reflen := Nat.le_mul_of_pos_right _ positive
    simp only [Object.span, Object.count, ← Nat.add_assoc] at follows counted
    refine ⟨offset, _, _, entry, ?_, stands.bytes, placedValues_laid positive small values _ _ next children legible follows counted⟩
    rw [length_valuesReversed]
    exact markerBytes_stands _ (by omega)
  | .dict entries, id, start, next, placed, legible, follows, counted => by
    obtain ⟨stands, children⟩ := placed
    obtain ⟨offset, entry, rfl⟩ := stands.entry
    have inside := stands.bytes.inside
    rw [List.length_append, List.length_append, length_references, length_keyIds] at inside
    have room : entries.length ≤ entries.length * reflen := Nat.le_mul_of_pos_right _ positive
    simp only [Object.span, Object.count, ← Nat.add_assoc] at follows counted
    refine ⟨offset, _, _, _, entry, ?_, stands.bytes, placedEntries_laid positive small entries _ _ next children legible follows counted⟩
    rw [length_entriesReversed]
    exact markerBytes_stands _ (by omega)

theorem placedValues_laid (positive : 0 < reflen) (small : data.length < 2 ^ 32) :
    ∀ (values : List Object) (id start : Nat) (next : Bool), PlacedValues data reftab reflen values id start →
    ValuesLegible values next → (next = true → LengthAt data (start + valuesSpan reflen values)) →
    id + valuesCount values ≤ 256 ^ reflen → LaidValues data reftab reflen (valuesReversed values) (valueIds values id)
  | [], _, _, _, _, _, _, _ => rfl
  | value :: values, id, start, next, ⟨here, later⟩, ⟨legible, others⟩, follows, counted => by
    simp only [valuesSpan, valuesCount, ← Nat.add_assoc] at follows counted
    have counts := value.count_pos
    have lookahead : leadingLength values next = true → LengthAt data (start + value.span reflen) := by
      intro length
      cases values with
      | nil => exact follows length
      | cons second values => exact placed_length later.1 length
    exact ⟨id, _, rfl, by omega, placed_laid positive small value id start _ here legible lookahead (by omega),
      placedValues_laid positive small values _ _ next later others follows counted⟩

theorem placedEntries_laid (positive : 0 < reflen) (small : data.length < 2 ^ 32) :
    ∀ (entries : List (CString × Object)) (id start : Nat) (next : Bool), PlacedEntries data reftab reflen entries id start →
    EntriesLegible entries next → (next = true → LengthAt data (start + entriesSpan reflen entries)) →
    id + entriesCount entries ≤ 256 ^ reflen →
    LaidEntries data reftab reflen (entriesReversed entries) (keyIds entries id) (entryIds entries id)
  | [], _, _, _, _, _, _, _ => ⟨rfl, rfl⟩
  | (key, value) :: entries, id, start, next, ⟨name, here, later⟩, ⟨legible, others⟩, follows, counted => by
    simp only [entriesSpan, entriesCount, ← Nat.add_assoc] at follows counted later here
    have counts := value.count_pos
    have lookahead : (entries.isEmpty && next) = true → LengthAt data (start + markerSize key.bytes.length key.bytes.length +
        key.bytes.length + value.span reflen) := by
      intro last
      obtain ⟨empty, length⟩ := Bool.and_eq_true_iff.mp last
      obtain rfl := List.isEmpty_iff.mp empty
      exact follows length
    obtain ⟨offset, entry, place⟩ := name.entry
    have inside := name.bytes.inside
    rw [List.length_append] at inside
    have laid := placed_laid positive small value (id + 1) _ _ here legible lookahead (by omega)
    refine ⟨id, _, id + 1, _, rfl, rfl, by omega, by omega, ⟨offset, _, entry, markerBytes_stands _ (by omega), ?_⟩, laid,
      placedEntries_laid positive small entries _ _ next later others follows counted⟩
    rw [place]
    exact name.bytes

end

end Reading

end Apsdk.Plist
