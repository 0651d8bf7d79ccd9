import Apsdk.Library.Text
import Mathlib.Data.List.TakeWhile

/-! The text of XML elements: characters in UTF-8, references for those that cannot
stand for themselves, and string elements behind their keys in a property list. -/

namespace Library

/-- A text in UTF-8. -/
def utf8 (text : List Char) : Bytes := text.flatMap String.utf8EncodeChar

/-- The characters that may occur in a document. -/
def XmlChar (char : Char) : Prop :=
  char.toNat = 0x9 ∨ char.toNat = 0xA ∨ char.toNat = 0xD ∨ 0x20 ≤ char.toNat ∧ char.toNat ≤ 0xD7FF ∨
    0xE000 ≤ char.toNat ∧ char.toNat ≤ 0xFFFD ∨ 0x10000 ≤ char.toNat

/-- The predefined entities. -/
def entities : List (Bytes × Char) :=
  [(ascii "amp", '&'), (ascii "lt", '<'), (ascii "gt", '>'), (ascii "apos", Char.ofNat 39), (ascii "quot", Char.ofNat 34)]

def hexDigit (byte : UInt8) : Option Nat :=
  if 48 ≤ byte ∧ byte ≤ 57 then some (byte.toNat - 48)
  else if 65 ≤ byte ∧ byte ≤ 70 then some (byte.toNat - 55)
  else if 97 ≤ byte ∧ byte ≤ 102 then some (byte.toNat - 87)
  else none

def decimalDigit (byte : UInt8) : Option Nat := if 48 ≤ byte ∧ byte ≤ 57 then some (byte.toNat - 48) else none

/-- The value of the digits of a base; there is at least one. -/
def digitsValue (digit : UInt8 → Option Nat) (base : Nat) (digits : Bytes) : Option Nat :=
  if digits = [] then none else digits.foldlM (fun value byte => (digit byte).map (value * base + ·)) 0

/-- A reference to a character, from the ampersand to the semicolon. -/
inductive Reference : Bytes → Char → Prop
  | entity {name char} (known : (name, char) ∈ entities) : Reference (ascii "&" ++ name ++ ascii ";") char
  | decimal {digits} {char : Char} (value : digitsValue decimalDigit 10 digits = some char.toNat) (xml : XmlChar char) :
    Reference (ascii "&#" ++ digits ++ ascii ";") char
  | hexadecimal {digits} {char : Char} (value : digitsValue hexDigit 16 digits = some char.toNat) (xml : XmlChar char) :
    Reference (ascii "&#x" ++ digits ++ ascii ";") char

/-- What stands between two tags, and the text that a reader makes of it. Line ends become line feeds. -/
inductive CharacterData : Bytes → List Char → Prop
  | empty : CharacterData [] []
  | char {char written text} (xml : XmlChar char) (plain : char ≠ '&' ∧ char ≠ '<' ∧ char ≠ '\r')
    (rest : CharacterData written text) : CharacterData (String.utf8EncodeChar char ++ written) (char :: text)
  | lineEnd {written text} (rest : CharacterData written text) : CharacterData (13 :: 10 :: written) ('\n' :: text)
  | carriageReturn {written text} (alone : written.head? ≠ some 10) (rest : CharacterData written text) :
    CharacterData (13 :: written) ('\n' :: text)
  | reference {reference char written text} (here : Reference reference char) (rest : CharacterData written text) :
    CharacterData (reference ++ written) (char :: text)

section Characters
variable {written : Bytes} {text : List Char} {char : Char}

theorem utf8_cons (char : Char) (text : List Char) : utf8 (char :: text) = String.utf8EncodeChar char ++ utf8 text := rfl

theorem utf8_lineFeed (text : List Char) : utf8 ('\n' :: text) = 10 :: utf8 text := rfl

/-- An ASCII byte is a character of its own. -/
theorem toNat_of_mem_utf8EncodeChar {byte : UInt8} (low : byte.toNat < 128) (member : byte ∈ String.utf8EncodeChar char) :
    char.toNat = byte.toNat := by
  simp only [String.utf8EncodeChar] at member
  split_ifs at member with one two three
  · obtain rfl := List.mem_singleton.mp member
    rw [UInt8.toNat_ofNat', Nat.mod_eq_of_lt (by omega)]
    rfl
  all_goals
    simp only [List.mem_cons, List.not_mem_nil, or_false] at member
    exfalso
    rcases member with rfl | rfl | rfl | rfl <;> simp only [UInt8.toNat_ofNat'] at low <;> omega

theorem utf8EncodeChar_low (small : char.toNat < 128) : String.utf8EncodeChar char = [UInt8.ofNat char.toNat] := by
  unfold String.utf8EncodeChar
  exact if_pos (Nat.le_of_lt_succ small)

theorem length_low (small : char.toNat < 128) : (String.utf8EncodeChar char).length = 1 := by
  rw [utf8EncodeChar_low small]
  rfl

theorem length_utf8EncodeChar_le (char : Char) : (String.utf8EncodeChar char).length ≤ 4 := by
  rw [String.length_utf8EncodeChar]
  exact Char.utf8Size_le_four char

/-- A single digit stands for a character of one byte. -/
theorem digits_long {digit : UInt8 → Option Nat} {base : Nat} {digits : Bytes}
    (digit_lt : ∀ byte value, digit byte = some value → value < 128)
    (value : digitsValue digit base digits = some char.toNat) :
    2 ≤ digits.length ∨ digits.length = 1 ∧ char.toNat < 128 := by
  cases digits with
  | nil => cases value
  | cons first rest =>
    cases rest with
    | nil =>
      obtain ⟨known, digit_eq, same⟩ := Option.map_eq_some_iff.mp (show (digit first).map (0 * base + ·) = some char.toNat by
        simpa [digitsValue] using value)
      rw [Nat.zero_mul, Nat.zero_add] at same
      exact .inr ⟨rfl, same ▸ digit_lt first known digit_eq⟩
    | cons second rest => exact .inl (by simp only [List.length_cons]; omega)

theorem decimalDigit_lt (byte : UInt8) (value : Nat) (digit : decimalDigit byte = some value) : value < 128 := by
  unfold decimalDigit at digit
  split_ifs at digit with inside
  have below := UInt8.le_iff_toNat_le.mp inside.2
  obtain rfl := Option.some.inj digit
  exact (Nat.sub_le _ _).trans_lt (below.trans_lt (by decide))

theorem hexDigit_lt (byte : UInt8) (value : Nat) (digit : hexDigit byte = some value) : value < 128 := by
  unfold hexDigit at digit
  split_ifs at digit with number upper lower
  all_goals obtain rfl := Option.some.inj digit
  · exact (Nat.sub_le _ _).trans_lt ((UInt8.le_iff_toNat_le.mp number.2).trans_lt (by decide))
  · exact (Nat.sub_le _ _).trans_lt ((UInt8.le_iff_toNat_le.mp upper.2).trans_lt (by decide))
  · exact (Nat.sub_le _ _).trans_lt ((UInt8.le_iff_toNat_le.mp lower.2).trans_lt (by decide))

theorem entity_short {name : Bytes} (known : (name, char) ∈ entities) : char.toNat < 128 ∧ 2 ≤ name.length := by
  have all : ∀ entity ∈ entities, entity.2.toNat < 128 ∧ 2 ≤ entity.1.length := by decide
  exact all (name, char) known

/-- A reference is longer than the character it stands for. -/
theorem Reference.longer {reference : Bytes} (refers : Reference reference char) :
    (String.utf8EncodeChar char).length < reference.length := by
  have most := length_utf8EncodeChar_le char
  cases refers with
  | entity known =>
    obtain ⟨small, name⟩ := entity_short known
    rw [length_low small, List.length_append, List.length_append]
    omega
  | @decimal digits _ value _ =>
    have marks : (ascii "&#" ++ digits ++ ascii ";").length = 2 + digits.length + 1 := by
      rw [List.length_append, List.length_append]
      rfl
    rw [marks]
    cases digits_long decimalDigit_lt value with
    | inl two => omega
    | inr one =>
      rw [length_low one.2]
      omega
  | @hexadecimal digits _ value _ =>
    have marks : (ascii "&#x" ++ digits ++ ascii ";").length = 3 + digits.length + 1 := by
      rw [List.length_append, List.length_append]
      rfl
    rw [marks]
    cases digits_long hexDigit_lt value with
    | inl two => omega
    | inr one =>
      rw [length_low one.2]
      omega

/-- No text is longer than what is written for it. -/
theorem CharacterData.length_le (data : CharacterData written text) : (utf8 text).length ≤ written.length := by
  induction data with
  | empty => exact le_rfl
  | char _ _ _ ih =>
    rw [utf8_cons, List.length_append, List.length_append]
    omega
  | lineEnd _ ih =>
    rw [utf8_lineFeed]
    exact Nat.succ_le_succ (ih.trans (Nat.le_succ _))
  | carriageReturn _ _ ih =>
    rw [utf8_lineFeed]
    exact Nat.succ_le_succ ih
  | reference here _ ih =>
    have longer := here.longer
    rw [utf8_cons, List.length_append, List.length_append]
    omega

/-- What reads as itself has no reference and no line end to be replaced. -/
theorem CharacterData.plain (data : CharacterData written text) (same : utf8 text = written) :
    ∀ char ∈ text, XmlChar char ∧ char ≠ '&' ∧ char ≠ '<' ∧ char ≠ '\r' := by
  induction data with
  | empty => exact fun _ member => nomatch member
  | char xml plain _ ih =>
    intro char member
    cases List.mem_cons.mp member with
    | inl here => exact here ▸ ⟨xml, plain⟩
    | inr later => exact ih (List.append_cancel_left same) char later
  | lineEnd _ _ => cases same
  | carriageReturn _ _ _ => cases same
  | reference here rest _ =>
    have longer := here.longer
    have bound := rest.length_le
    have lengths := congrArg List.length same
    rw [utf8_cons, List.length_append, List.length_append] at lengths
    omega

theorem plain_data (plain : ∀ char ∈ text, XmlChar char ∧ char ≠ '&' ∧ char ≠ '<' ∧ char ≠ '\r') :
    CharacterData (utf8 text) text := by
  induction text with
  | nil => exact .empty
  | cons char text ih =>
    obtain ⟨xml, ordinary⟩ := plain char List.mem_cons_self
    exact .char xml ordinary (ih fun other member => plain other (List.mem_cons_of_mem _ member))

theorem mem_utf8_iff {byte : UInt8} (low : byte.toNat < 128) : byte ∈ utf8 text ↔ ∃ char ∈ text, char.toNat = byte.toNat := by
  rw [utf8, List.mem_flatMap]
  constructor
  · intro ⟨char, member, inside⟩
    exact ⟨char, member, toNat_of_mem_utf8EncodeChar low inside⟩
  · intro ⟨char, member, same⟩
    refine ⟨char, member, ?_⟩
    rw [utf8EncodeChar_low (same ▸ low), same, UInt8.ofNat_toNat]
    exact List.mem_singleton_self byte

end Characters

/-- A text of XML characters in UTF-8 that is its own character data. -/
structure Plain (bytes : Bytes) : Prop where
  text : ∃ text, (∀ char ∈ text, XmlChar char) ∧ utf8 text = bytes
  /-- No ampersand, no opening bracket and no carriage return. -/
  unreferenced : 38 ∉ bytes
  untagged : 60 ∉ bytes
  unreturned : 13 ∉ bytes
  /-- The end of a CDATA section must not occur. -/
  unclosed : contains (ascii "]]>") bytes = false

/-- Character data in an element: the end of a CDATA section does not occur in it. -/
def ContentOf (written : Bytes) (text : List Char) : Prop :=
  contains (ascii "]]>") written = false ∧ CharacterData written text

/-- A byte string is the text of an element that it is written into just when it is plain. -/
theorem content_self_iff (bytes : Bytes) : (∃ text, ContentOf bytes text ∧ utf8 text = bytes) ↔ Plain bytes := by
  constructor
  · intro ⟨text, ⟨unclosed, data⟩, same⟩
    have plain := data.plain same
    have absent : ∀ byte : UInt8, byte.toNat < 128 → (∀ char : Char, char.toNat = byte.toNat → char = '&' ∨ char = '<' ∨ char = '\r') →
        byte ∉ bytes := by
      intro byte low marks member
      rw [← same, mem_utf8_iff low] at member
      obtain ⟨char, inside, code⟩ := member
      obtain ⟨-, unreferenced, untagged, unreturned⟩ := plain char inside
      cases marks char code with
      | inl mark => exact unreferenced mark
      | inr marks => cases marks with
        | inl mark => exact untagged mark
        | inr mark => exact unreturned mark
    refine ⟨⟨text, fun char member => (plain char member).1, same⟩, absent 38 (by decide) fun char code => ?_,
      absent 60 (by decide) fun char code => ?_, absent 13 (by decide) fun char code => ?_, unclosed⟩
    · exact .inl (Char.toNat_inj.mp code)
    · exact .inr (.inl (Char.toNat_inj.mp code))
    · exact .inr (.inr (Char.toNat_inj.mp code))
  · intro plain
    obtain ⟨text, xml, same⟩ := plain.text
    refine ⟨text, ⟨plain.unclosed, ?_⟩, same⟩
    rw [← same]
    refine plain_data fun char member => ⟨xml char member, ?_, ?_, ?_⟩
    · intro mark
      exact plain.unreferenced (same ▸ (mem_utf8_iff (by decide)).mpr ⟨char, member, congrArg Char.toNat mark⟩)
    · intro mark
      exact plain.untagged (same ▸ (mem_utf8_iff (by decide)).mpr ⟨char, member, congrArg Char.toNat mark⟩)
    · intro mark
      exact plain.unreturned (same ▸ (mem_utf8_iff (by decide)).mpr ⟨char, member, congrArg Char.toNat mark⟩)

/-- What comes behind the first occurrence of a pattern. -/
def behind (pattern text : Bytes) : Option Bytes := (endOfFirst pattern text).map text.drop

/-- No occurrence of a pattern begins in a stretch, whatever follows it. -/
def clear (pattern : Bytes) : Bytes → Bool
  | [] => true
  | byte :: rest => !pattern.isPrefixOf (byte :: rest) && !(byte :: rest).isPrefixOf pattern && clear pattern rest

section Search
variable {pattern stretch text after : Bytes}

theorem behind_append (found : behind pattern text = some after) (later : Bytes) :
    behind pattern (text ++ later) = some (after ++ later) := by
  obtain ⟨n, first, rfl⟩ := Option.map_eq_some_iff.mp found
  rw [behind, endOfFirst_append first later, Option.map_some, List.drop_append_of_le_length (endOfFirst_suffix first).1]

theorem behind_cons {byte : UInt8} (absent : ¬ pattern.isPrefixOf (byte :: text)) :
    behind pattern (byte :: text) = behind pattern text := by
  rw [behind, behind, endOfFirst, if_neg absent, Option.map_map]
  rfl

theorem behind_clear (unfound : clear pattern stretch = true) (text : Bytes) :
    behind pattern (stretch ++ text) = behind pattern text := by
  induction stretch with
  | nil => rfl
  | cons byte stretch ih =>
    simp only [clear, Bool.and_eq_true, Bool.not_eq_true'] at unfound
    obtain ⟨⟨absent, begun⟩, later⟩ := unfound
    rw [List.cons_append, behind_cons, ih later]
    intro found
    have both := List.prefix_or_prefix_of_prefix (List.isPrefixOf_iff_prefix.mp found) (List.prefix_append (byte :: stretch) text)
    cases both with
    | inl inside => rw [List.isPrefixOf_iff_prefix.mpr inside] at absent; cases absent
    | inr across => rw [List.isPrefixOf_iff_prefix.mpr across] at begun; cases begun

/-- A stretch without the first byte of a pattern. -/
theorem clear_of_absent {first : UInt8} (pattern : Bytes) (absent : first ∉ stretch) : clear (first :: pattern) stretch = true := by
  induction stretch with
  | nil => rfl
  | cons byte stretch ih =>
    obtain ⟨differs, later⟩ := List.ne_and_not_mem_of_not_mem_cons absent
    simp [clear, List.isPrefixOf, differs, differs.symm, ih later]

end Search

/-- White space in a document. -/
def blank (byte : UInt8) : Bool := byte = 32 || byte = 9 || byte = 10 || byte = 13

/-- What is written up to the closing tag of a string element. -/
def stringContent (content : Bytes) : Option Bytes :=
  let written := content.takeWhile (· ≠ 60)
  if (ascii "</string>").isPrefixOf (content.drop written.length) then some written else none

def keyElement (key : Bytes) : Bytes := ascii "<key>" ++ (key ++ ascii "</key>")

/-- What is written between the tags of the string element behind a key of a property list. -/
def stringBehind (key document : Bytes) : Option Bytes := do
  let rest ← behind (keyElement key) document
  let element := rest.dropWhile blank
  if (ascii "<string>").isPrefixOf element then stringContent (element.drop (ascii "<string>").length) else none

/-- The string element behind a key has a text. -/
def TextBehind (key document : Bytes) (text : List Char) : Prop :=
  ∃ written, stringBehind key document = some written ∧ ContentOf written text

section Elements
variable {key document space value rest : Bytes}

theorem stringBehind_eq (space : Bytes) {content : Bytes}
    (found : behind (keyElement key) document = some (space ++ (ascii "<string>" ++ content)))
    (blanks : space.all blank = true) : stringBehind key document = stringContent content := by
  have skipped : (space ++ (ascii "<string>" ++ content)).dropWhile blank = ascii "<string>" ++ content := by
    rw [List.dropWhile_append_of_pos (List.all_eq_true.mp blanks)]
    rfl
  have opened : (ascii "<string>").isPrefixOf (ascii "<string>" ++ content) = true :=
    List.isPrefixOf_iff_prefix.mpr (List.prefix_append _ _)
  simp only [stringBehind, found, Option.bind_eq_bind, Option.bind_some, skipped, opened, if_true, List.drop_left]

theorem stringContent_of_untagged (untagged : 60 ∉ value) (closed : ascii "</string>" <+: rest) :
    stringContent (value ++ rest) = some value := by
  obtain ⟨later, rfl⟩ := closed
  have split : ascii "</string>" ++ later = 60 :: (ascii "/string>" ++ later) := rfl
  have written : (value ++ (ascii "</string>" ++ later)).takeWhile (· ≠ 60) = value := by
    rw [split]
    exact takeWhile_ne_append untagged _
  rw [stringContent, written, List.drop_left, if_pos (List.isPrefixOf_iff_prefix.mpr (List.prefix_append _ _))]

theorem stringContent_of_tagged {written : Bytes} (tagged : 60 ∈ value) (found : stringContent (value ++ rest) = some written) :
    written.length < value.length := by
  simp only [stringContent] at found
  split_ifs at found
  obtain rfl := Option.some.inj found
  obtain ⟨before, after, rfl⟩ := List.append_of_mem tagged
  by_contra long
  have cut := List.takeWhile_prefix (· ≠ (60 : UInt8)) (l := before ++ 60 :: after ++ rest)
  have covers : before ++ [60] <+: before ++ 60 :: after ++ rest := ⟨after ++ rest, by simp⟩
  have reached := List.prefix_of_prefix_length_le covers cut (by
    rw [List.length_append, List.length_cons] at long
    rw [List.length_append, List.length_singleton]
    omega)
  have inside := List.mem_takeWhile_imp (reached.subset (List.mem_append_right before (List.mem_singleton_self 60)))
  cases inside

/-- A string element names the value that it has been written with just when the value is plain. -/
theorem value_named_iff (found : stringBehind key document = stringContent (value ++ rest)) (closed : ascii "</string>" <+: rest) :
    (∃ text, TextBehind key document text ∧ utf8 text = value) ↔ Plain value := by
  by_cases tagged : 60 ∈ value
  · refine iff_of_false (fun ⟨text, ⟨written, read, content⟩, same⟩ => ?_) fun plain => plain.untagged tagged
    have short := stringContent_of_tagged tagged (found ▸ read)
    have bound := content.2.length_le
    rw [same] at bound
    omega
  · rw [stringContent_of_untagged tagged closed] at found
    rw [← content_self_iff]
    constructor
    · intro ⟨text, ⟨written, read, content⟩, same⟩
      rw [found] at read
      obtain rfl := Option.some.inj read
      exact ⟨text, content, same⟩
    · intro ⟨text, content, same⟩
      exact ⟨text, ⟨value, found, content⟩, same⟩

end Elements

end Library
