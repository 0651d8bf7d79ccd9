import Apsdk.Proofs.HlsSafety

/-! What a master playlist lists: a document is made of lines, and the parser takes the URIs of
the renditions and the streams from it in their order, whatever else its lines hold. -/

namespace Apsdk.HlsParser
open Library MediaDataStore

/-- An attribute of a rendition: a word, or a text in quotes. -/
inductive Written where
  | word (text : Bytes)
  | quoted (name text : Bytes)

/-- The attributes that are no texts. -/
def words : List Bytes :=
  [ascii "TYPE=VIDEO", ascii "TYPE=AUDIO", ascii "TYPE=SUBTITLES", ascii "TYPE=CLOSED-CAPTIONS", ascii "AUTOSELECT=YES",
    ascii "AUTOSELECT=NO", ascii "FORCED=YES", ascii "FORCED=NO", ascii "DEFAULT=YES", ascii "DEFAULT=NO"]

/-- The names of texts but the URI. -/
def textNames : List Bytes :=
  [ascii "GROUP-ID", ascii "NAME", ascii "LANGUAGE", ascii "ASSOC-LANGUAGE", ascii "CHARACTERISTICS", ascii "CHANNELS"]

namespace Written

def text : Written → Bytes
  | word text => text
  | quoted name text => name ++ 61 :: 34 :: (text ++ [34])

def Proper : Written → Prop
  | word text => text ∈ words
  | quoted name text => name ∈ ascii "URI" :: textNames ∧ ∀ byte ∈ text, byte ≠ 34 ∧ isEnd byte = false

/-- The URI that an attribute gives; an empty one is none. -/
def uri : Written → Option Bytes
  | word _ => none
  | quoted name text => if name = ascii "URI" ∧ text ≠ [] then some text else none

end Written

/-- Attributes with a comma after each but the last. -/
def attributesText : List Written → Bytes
  | [] => []
  | [item] => item.text
  | item :: items => item.text ++ 44 :: attributesText items

theorem attributesText_cons (item second : Written) (items : List Written) :
    attributesText (item :: second :: items) = item.text ++ 44 :: attributesText (second :: items) := rfl

/-- A stream with the line that names it, a rendition, or another line. -/
inductive Entry where
  | stream (attributes uri : Bytes)
  | media (items : List Written)
  | other (line : Bytes)

/-- The return in front of a newline is no part of a line. -/
def withoutReturn (line : Bytes) : Bytes := if line.getLast? = some 13 then line.dropLast else line

namespace Entry

def text : Entry → Bytes
  | stream attributes uri => ascii "#EXT-X-STREAM-INF" ++ attributes ++ 10 :: (uri ++ [10])
  | media items => ascii "#EXT-X-MEDIA" ++ 58 :: (attributesText items ++ [10])
  | other line => line ++ [10]

theorem text_ne_nil (entry : Entry) : entry.text ≠ [] := by
  cases entry with
  | stream attributes uri => exact List.cons_ne_nil _ _
  | media items => exact List.cons_ne_nil _ _
  | other line => exact List.append_ne_nil_of_right_ne_nil _ (List.cons_ne_nil _ _)

/-- The last URI of a rendition counts. -/
def rendition : Entry → Option (Option Bytes)
  | media items => some (items.filterMap Written.uri).getLast?
  | _ => none

def location : Entry → Option (Option Bytes)
  | stream _ uri => some (some (withoutReturn uri))
  | _ => none

end Entry

/-- No zero, no newline and no other tag. -/
structure Plain (line : Bytes) : Prop where
  text : ∀ byte ∈ line, byte ≠ 0 ∧ byte ≠ 10 ∧ byte ≠ 35
  followed : Followed line

def Entry.Proper : Entry → Prop
  | stream attributes uri => Plain attributes ∧ withoutReturn uri ≠ [] ∧ ∀ byte ∈ uri, byte ≠ 0 ∧ byte ≠ 10
  | media items => ∀ item ∈ items, item.Proper
  | other [] => True
  | other (first :: line) => first ≠ 0 ∧ first ≠ 10 ∧ Plain line ∧
      ¬ (first = 35 ∧ ((ascii "EXT-X-MEDIA").isPrefixOf line ∨ (ascii "EXT-X-STREAM-INF").isPrefixOf line))

section Attributes

theorem quoted_text {text : Bytes} (plain : ∀ byte ∈ text, byte ≠ 34 ∧ isEnd byte = false) (front rest : Bytes) :
    quoted front (text ++ 34 :: rest) = (if front ++ text = [] then none else some (front ++ text), rest) := by
  induction text generalizing front with
  | nil =>
    rw [List.nil_append, List.append_nil, quoted, if_neg (by decide), if_pos rfl]
  | cons byte text ih =>
    obtain ⟨⟨quote, ends⟩, others⟩ := List.forall_mem_cons.mp plain
    rw [List.cons_append, quoted, if_neg (ends ▸ Bool.false_ne_true), if_neg quote, ih others, List.append_assoc,
      List.singleton_append]

theorem assigned_text {α : Type} {text : Bytes} (plain : ∀ byte ∈ text, byte ≠ 34 ∧ isEnd byte = false) (set : α → Bytes → α)
    (dest : α) (rest : Bytes) :
    assigned parseAttribStr set dest (61 :: 34 :: (text ++ 34 :: rest)) =
      some (if text = [] then dest else set dest text, rest) := by
  have read : parseAttribStr (34 :: (text ++ 34 :: rest)) = (if text = [] then none else some text, rest) := by
    rw [parseAttribStr, if_neg (by decide), if_pos rfl, quoted_text plain, List.nil_append]
  rw [assigned, next, Option.bind_eq_bind, Option.bind_some, read]
  by_cases empty : text = []
  · simp [empty]
  · simp [empty]

/-- The texts of a rendition but the URI leave that alone. -/
theorem parseTag_text {name : Bytes} (known : name ∈ textNames) :
    ∃ set : Media → Bytes → Media, (∀ dest text, (set dest text).uri = dest.uri) ∧
      ∀ dest rest, parseTag mediaTags dest (name ++ rest) = assigned parseAttribStr set dest rest := by
  simp only [textNames, List.mem_cons, List.not_mem_nil, or_false] at known
  rcases known with rfl | rfl | rfl | rfl | rfl | rfl
  · exact ⟨fun dest groupId => { dest with groupId }, fun _ _ => rfl, fun _ _ => rfl⟩
  · exact ⟨fun dest name => { dest with name }, fun _ _ => rfl, fun _ _ => rfl⟩
  · exact ⟨fun dest language => { dest with language }, fun _ _ => rfl, fun _ _ => rfl⟩
  · exact ⟨fun dest assocLanguage => { dest with assocLanguage }, fun _ _ => rfl, fun _ _ => rfl⟩
  · exact ⟨fun dest characteristics => { dest with characteristics }, fun _ _ => rfl, fun _ _ => rfl⟩
  · exact ⟨fun dest channels => { dest with channels }, fun _ _ => rfl, fun _ _ => rfl⟩

theorem textNames_uri {name : Bytes} (known : name ∈ textNames) : name ≠ ascii "URI" := by
  rintro rfl
  exact absurd known (by decide)

/-- An attribute is read to its end. -/
theorem parseTag_written {item : Written} (proper : item.Proper) (dest : Media) :
    ∃ dest' : Media, dest'.uri = item.uri.or dest.uri ∧
      ∀ rest, parseTag mediaTags dest (item.text ++ rest) = some (dest', rest) := by
  cases item with
  | word text =>
    change text ∈ words at proper
    simp only [words, List.mem_cons, List.not_mem_nil, or_false] at proper
    rcases proper with rfl | rfl | rfl | rfl | rfl | rfl | rfl | rfl | rfl | rfl
    all_goals
      refine ⟨_, ?_, fun rest => rfl⟩
      rfl
  | quoted name text =>
    obtain ⟨known, plain⟩ := proper
    have whole : ∀ rest, (Written.quoted name text).text ++ rest = name ++ 61 :: 34 :: (text ++ 34 :: rest) := by
      intro rest
      simp [Written.text]
    rcases List.mem_cons.mp known with rfl | other
    · refine ⟨if text = [] then dest else { dest with uri := text }, ?_, fun rest => ?_⟩
      · by_cases empty : text = []
        · simp [Written.uri, empty]
        · simp [Written.uri, empty]
      · rw [whole]
        exact assigned_text plain (fun (dest : Media) uri => { dest with uri }) dest rest
    · obtain ⟨set, kept, read⟩ := parseTag_text other
      refine ⟨if text = [] then dest else set dest text, ?_, fun rest => ?_⟩
      · have absent : (Written.quoted name text).uri = none := if_neg fun both => textNames_uri other both.1
        rw [absent, Option.none_or]
        split
        · rfl
        · exact kept dest text
      · rw [whole, read, assigned_text plain]

theorem text_starts {item : Written} (proper : item.Proper) :
    ∃ byte rest, item.text = byte :: rest ∧ isEnd byte = false ∧ ¬ (byte = 44 ∨ byte = 61 ∨ byte = 58) := by
  cases item with
  | word text =>
    change text ∈ words at proper
    simp only [words, List.mem_cons, List.not_mem_nil, or_false] at proper
    rcases proper with rfl | rfl | rfl | rfl | rfl | rfl | rfl | rfl | rfl | rfl
    all_goals exact ⟨_, _, rfl, by decide, by decide⟩
  | quoted name text =>
    obtain known := proper.1
    simp only [textNames, List.mem_cons, List.not_mem_nil, or_false] at known
    rcases known with rfl | rfl | rfl | rfl | rfl | rfl | rfl
    all_goals exact ⟨_, _, rfl, by decide, by decide⟩

/-- Reading an attribute leaves what is behind it. -/
theorem parseAttributes_item {item : Written} (proper : item.Proper) (dest : Media) :
    ∃ dest' : Media, dest'.uri = item.uri.or dest.uri ∧ ∀ fuel rest,
      parseAttributes mediaTags (fuel + 1) dest (item.text ++ rest) = parseAttributes mediaTags fuel dest' rest := by
  obtain ⟨dest', uri, read⟩ := parseTag_written proper dest
  obtain ⟨byte, text, starts, ends, separates⟩ := text_starts proper
  refine ⟨dest', uri, fun fuel rest => ?_⟩
  have here := read rest
  rw [starts, List.cons_append] at here ⊢
  have shorter : rest.length < (text ++ rest).length + 1 := by
    rw [List.length_append]
    omega
  rw [parseAttributes, if_neg (ends ▸ Bool.false_ne_true), if_neg separates, here, Option.bind_eq_bind, Option.bind_some]
  dsimp only
  rw [if_pos shorter]

theorem or_getLast? (uris : List Bytes) (uri : Bytes) (last : Option Bytes) :
    uris.getLast?.or ((some uri).or last) = (uri :: uris).getLast? := by
  cases uris with
  | nil => rfl
  | cons second uris =>
    rw [List.getLast?_cons_cons]
    obtain ⟨value, found⟩ : ∃ value, (second :: uris).getLast? = some value := ⟨_, List.getLast?_eq_some_getLast (by simp)⟩
    rw [found]
    rfl

/-- The attributes of a line are read to its end. -/
theorem parseAttributes_written {items : List Written} (proper : ∀ item ∈ items, item.Proper) (dest : Media) :
    ∃ dest' : Media, dest'.uri = (items.filterMap Written.uri).getLast?.or dest.uri ∧ ∀ fuel tail,
      (attributesText items).length < fuel →
        parseAttributes mediaTags fuel dest (attributesText items ++ 10 :: tail) = some (dest', 10 :: tail) := by
  induction items generalizing dest with
  | nil =>
    refine ⟨dest, rfl, fun fuel tail enough => ?_⟩
    obtain ⟨fuel, rfl⟩ := Nat.exists_eq_add_one_of_ne_zero (Nat.ne_zero_of_lt enough)
    rfl
  | cons item items ih =>
    obtain ⟨here, others⟩ := List.forall_mem_cons.mp proper
    obtain ⟨dest₁, uri₁, read₁⟩ := parseAttributes_item here dest
    obtain ⟨dest₂, uri₂, read₂⟩ := ih others dest₁
    refine ⟨dest₂, ?_, fun fuel tail enough => ?_⟩
    · rw [uri₂, uri₁, List.filterMap_cons]
      cases item.uri with
      | none => rfl
      | some uri => exact or_getLast? _ uri dest.uri
    · obtain ⟨byte, text, starts, -⟩ := text_starts here
      obtain ⟨fuel, rfl⟩ := Nat.exists_eq_add_one_of_ne_zero (Nat.ne_zero_of_lt enough)
      cases items with
      | nil =>
        rw [attributesText, read₁]
        rw [attributesText, starts, List.length_cons] at enough
        exact read₂ fuel tail (Nat.zero_lt_of_lt (Nat.lt_of_succ_lt_succ enough))
      | cons second items =>
        have whole : attributesText (item :: second :: items) ++ 10 :: tail =
            item.text ++ 44 :: (attributesText (second :: items) ++ 10 :: tail) := by
          rw [attributesText_cons, List.append_assoc, List.cons_append]
        have length : (attributesText (item :: second :: items)).length =
            text.length + 1 + (attributesText (second :: items)).length + 1 := by
          rw [attributesText_cons, starts]
          simp only [List.length_append, List.length_cons]
          omega
        rw [length] at enough
        obtain ⟨fuel, rfl⟩ := Nat.exists_eq_add_one_of_ne_zero (show fuel ≠ 0 by omega)
        rw [whole, read₁, parseAttributes, if_neg (by decide), if_pos (.inl rfl)]
        exact read₂ fuel tail (by omega)

end Attributes

section Lines

theorem lineLength_line (line : Bytes) : ∃ n, ∀ tail, n ≤ line.length ∧ lineLength (line ++ 10 :: tail) = n := by
  induction line with
  | nil => exact ⟨0, fun tail => ⟨le_refl 0, by simp [lineLength]⟩⟩
  | cons byte line ih =>
    obtain ⟨n, length⟩ := ih
    by_cases ends : byte = 10 ∨ (byte = 13 ∧ peek (line ++ [10]) = 10) ∨ byte = 0
    · exact ⟨0, fun tail => ⟨Nat.zero_le _, by rw [List.cons_append, lineLength, peek_line, if_pos ends]⟩⟩
    · refine ⟨n + 1, fun tail => ⟨Nat.succ_le_succ (length tail).1, ?_⟩⟩
      rw [List.cons_append, lineLength, peek_line, if_neg ends, (length tail).2]

theorem parseLineToStr_local : Local parseLineToStr := by
  intro line
  obtain ⟨n, length⟩ := lineLength_line line
  refine ⟨if 0 < n then some (line.take n) else none, line.drop n, List.drop_suffix .., fun tail => ?_⟩
  obtain ⟨inside, same⟩ := length tail
  rw [parseLineToStr, same, List.take_append_of_le_length inside, List.drop_append_of_le_length inside]

theorem withoutReturn_cons (byte : UInt8) {line : Bytes} (filled : line ≠ []) :
    withoutReturn (byte :: line) = byte :: withoutReturn line := by
  obtain ⟨first, rest, rfl⟩ := List.exists_cons_of_ne_nil filled
  unfold withoutReturn
  rw [List.getLast?_cons_cons]
  split
  · rfl
  · rfl

theorem lineLength_uri {uri : Bytes} (text : ∀ byte ∈ uri, byte ≠ 0 ∧ byte ≠ 10) (tail : Bytes) :
    lineLength (uri ++ 10 :: tail) = (withoutReturn uri).length := by
  induction uri with
  | nil => rfl
  | cons byte uri ih =>
    obtain ⟨⟨zero, newline⟩, others⟩ := List.forall_mem_cons.mp text
    cases uri with
    | nil =>
      by_cases carriage : byte = 13
      · rw [carriage]
        rfl
      · simp [lineLength, withoutReturn, zero, newline, carriage, peek]
    | cons second uri =>
      have next : second ≠ 10 := (others second List.mem_cons_self).2
      rw [withoutReturn_cons byte (List.cons_ne_nil second uri), List.cons_append, lineLength, ih others, if_neg]
      · rfl
      · rintro (rfl | ⟨-, here⟩ | rfl)
        · exact newline rfl
        · exact next here
        · exact zero rfl

theorem take_withoutReturn (uri : Bytes) : uri.take (withoutReturn uri).length = withoutReturn uri := by
  unfold withoutReturn
  split
  · rw [List.length_dropLast, List.dropLast_eq_take]
  · exact List.take_length

theorem drop_withoutReturn (uri : Bytes) : ∀ byte ∈ uri.drop (withoutReturn uri).length, byte = 13 := by
  intro byte member
  unfold withoutReturn at member
  split at member
  next last =>
    obtain ⟨front, rfl⟩ := List.getLast?_eq_some_iff.mp last
    rw [List.dropLast_concat, List.drop_left] at member
    exact List.mem_singleton.mp member
  next =>
    rw [List.drop_length] at member
    cases member

end Lines

section Loop

/-- The loop goes through a text, from one playlist to another. -/
def Passes (text : Bytes) (dest dest' : Master) : Prop :=
  ∀ tail fuel, (text ++ tail).length < fuel →
    ∃ fuel', tail.length < fuel' ∧ masterLoop fuel dest (text ++ tail) = masterLoop fuel' dest' tail

theorem Passes.append {first second : Bytes} {dest dest' dest'' : Master} (passes : Passes first dest dest')
    (passes' : Passes second dest' dest'') : Passes (first ++ second) dest dest'' := by
  intro tail fuel enough
  rw [List.append_assoc] at enough ⊢
  obtain ⟨fuel', enough', looped⟩ := passes (second ++ tail) fuel enough
  obtain ⟨fuel'', enough'', looped'⟩ := passes' tail fuel' enough'
  exact ⟨fuel'', enough'', looped.trans looped'⟩

theorem plain_lineEnd : ∀ byte ∈ ([10] : Bytes), byte ≠ 0 ∧ byte ≠ 35 :=
  List.forall_mem_singleton.mpr ⟨by decide, by decide⟩

theorem passes_text {text : Bytes} (plain : ∀ byte ∈ text, byte ≠ 0 ∧ byte ≠ 35) (dest : Master) : Passes text dest dest := by
  intro tail fuel enough
  induction text generalizing fuel with
  | nil => exact ⟨fuel, enough, rfl⟩
  | cons byte text ih =>
    obtain ⟨⟨zero, tag⟩, others⟩ := List.forall_mem_cons.mp plain
    obtain ⟨fuel, rfl⟩ := Nat.exists_eq_add_one_of_ne_zero (Nat.ne_zero_of_lt enough)
    obtain ⟨fuel', enough', looped⟩ := ih others fuel (Nat.lt_of_succ_lt_succ enough)
    refine ⟨fuel', enough', ?_⟩
    rw [List.cons_append, masterLoop, if_neg zero, if_neg tag, looped]

/-- A tag that is read within a text, with nothing of another one behind it. -/
theorem passes_tag {text left : Bytes} {dest dest' : Master}
    (read : ∀ tail, parseMasterTag dest (text ++ tail) = some (dest', left ++ tail)) (short : text.length < 2 ^ 31)
    (inside : left <:+ text) (plain : ∀ byte ∈ left, byte ≠ 0 ∧ byte ≠ 35) : Passes (35 :: text) dest dest' := by
  intro tail fuel enough
  obtain ⟨fuel, rfl⟩ := Nat.exists_eq_add_one_of_ne_zero (Nat.ne_zero_of_lt enough)
  have enough' : (left ++ tail).length < fuel := by
    have less := inside.length_le
    simp only [List.cons_append, List.length_cons, List.length_append] at enough ⊢
    omega
  obtain ⟨fuel', enough'', looped⟩ := passes_text plain dest' tail fuel enough'
  refine ⟨fuel', enough'', ?_⟩
  have distance : (text ++ tail).length - (left ++ tail).length < 2 ^ 31 := by
    rw [List.length_append, List.length_append]
    omega
  rw [List.cons_append, masterLoop, if_neg (by decide), if_pos rfl, read, Option.bind_eq_bind, Option.bind_some]
  dsimp only
  rw [if_pos distance, looped]

end Loop

section Entries

/-- The renditions and the streams of a playlist. -/
def Master.listed (master : Master) : MasterPlaylist := ⟨master.media.map Media.uri, master.streamInfs.map StreamInf.uri⟩

theorem plain_left {line left : Bytes} (plain : Plain line) (inside : left <:+ line) :
    ∀ byte ∈ left ++ [10], byte ≠ 0 ∧ byte ≠ 35 := by
  intro byte member
  rcases List.mem_append.mp member with there | there
  · have text := plain.text byte (inside.mem there)
    exact ⟨text.1, text.2.2⟩
  · rw [List.mem_singleton.mp there]
    decide

theorem parseMasterTag_media (dest : Master) (rest : Bytes) :
    parseMasterTag dest (ascii "EXT-X-MEDIA" ++ rest) =
      (parseLine mediaTags {} rest).bind fun (media, pt) => some ({ dest with media := dest.media ++ [media] }, pt) := by
  have found : (masterTags.find? fun tag => tag.name.isPrefixOf (ascii "EXT-X-MEDIA" ++ rest)) = masterTags[1]? := rfl
  rw [parseMasterTag, found]
  rfl

theorem parseMasterTag_stream (dest : Master) (rest : Bytes) :
    parseMasterTag dest (ascii "EXT-X-STREAM-INF" ++ rest) = parseStream dest rest := by
  have found : (masterTags.find? fun tag => tag.name.isPrefixOf (ascii "EXT-X-STREAM-INF" ++ rest)) = masterTags[4]? := rfl
  rw [parseMasterTag, found]
  rfl

theorem media_passes {items : List Written} (proper : ∀ item ∈ items, item.Proper)
    (short : (Entry.media items).text.length < 2 ^ 31) (dest : Master) :
    ∃ dest', Passes (Entry.media items).text dest dest' ∧
      dest'.listed = ⟨dest.listed.media ++ [(items.filterMap Written.uri).getLast?], dest.listed.streamInfs⟩ := by
  obtain ⟨media, uri, read⟩ := parseAttributes_written proper {}
  refine ⟨{ dest with media := dest.media ++ [media] }, ?_, ?_⟩
  · have whole : (Entry.media items).text = 35 :: (ascii "EXT-X-MEDIA" ++ 58 :: (attributesText items ++ [10])) := rfl
    rw [whole] at short ⊢
    refine @passes_tag _ [10] _ _ (fun tail => ?_) (Nat.lt_of_succ_lt short) ?_ plain_lineEnd
    · have line : ∀ rest, parseLine mediaTags {} (58 :: (attributesText items ++ 10 :: rest)) = some (media, 10 :: rest) := by
        intro rest
        rw [parseLine, List.length_cons, parseAttributes, if_neg (by decide), if_pos (.inr (.inr rfl))]
        refine read _ rest ?_
        rw [List.length_append]
        omega
      simp only [List.append_assoc, List.cons_append, List.nil_append]
      rw [parseMasterTag_media, line, Option.bind_some]
    · exact ((List.suffix_append ..).trans (List.suffix_cons ..)).trans (List.suffix_append ..)
  · rw [Master.listed, Master.listed, List.map_append, List.map_singleton, uri, Option.or_none]

theorem dropWhile_line {left : Bytes} (plain : ∀ byte ∈ left, byte ≠ 0 ∧ byte ≠ 10) (rest : Bytes) :
    (left ++ 10 :: rest).dropWhile (fun byte => byte ≠ 10 ∧ byte ≠ 0) = 10 :: rest := by
  induction left with
  | nil => rfl
  | cons byte left ih =>
    obtain ⟨⟨zero, newline⟩, others⟩ := List.forall_mem_cons.mp plain
    rw [List.cons_append, List.dropWhile_cons_of_pos (by simp [zero, newline]), ih others]

theorem stream_passes {attributes uri : Bytes} (plain : Plain attributes) (filled : withoutReturn uri ≠ [])
    (text : ∀ byte ∈ uri, byte ≠ 0 ∧ byte ≠ 10) (short : (Entry.stream attributes uri).text.length < 2 ^ 31) (dest : Master) :
    ∃ dest', Passes (Entry.stream attributes uri).text dest dest' ∧
      dest'.listed = ⟨dest.listed.media, dest.listed.streamInfs ++ [some (withoutReturn uri)]⟩ := by
  obtain ⟨streamInf, left, inside, read⟩ := parseLine_reads streamInfTags_sound plain.followed {}
  refine ⟨{ dest with streamInfs := dest.streamInfs ++ [{ streamInf with uri := some (withoutReturn uri) }] }, ?_, ?_⟩
  · have whole : (Entry.stream attributes uri).text = 35 :: (ascii "EXT-X-STREAM-INF" ++ attributes ++ 10 :: (uri ++ [10])) := rfl
    have line : ∀ byte ∈ left, byte ≠ 0 ∧ byte ≠ 10 := by
      intro byte member
      have both := plain.text byte (inside.mem member)
      exact ⟨both.1, both.2.1⟩
    have lower : (withoutReturn uri).length ≤ uri.length := by
      rw [← take_withoutReturn uri, List.length_take]
      exact Nat.min_le_right ..
    rw [whole] at short ⊢
    refine @passes_tag _ (uri.drop (withoutReturn uri).length ++ [10]) _ _ (fun tail => ?_) (Nat.lt_of_succ_lt short) ?_ ?_
    · simp only [List.append_assoc, List.cons_append, List.nil_append]
      rw [parseMasterTag_stream, parseStream, read]
      simp only [Option.bind_eq_bind, Option.bind_some, Option.pure_def, dropWhile_line line, peek, List.headD_cons,
        parseLineToStr, List.drop_one, List.tail_cons, ne_eq, show ¬ ((10 : UInt8) = 0) by decide, not_false_eq_true, if_true,
        lineLength_uri text, if_pos (List.length_pos_iff.mpr filled), List.take_append_of_le_length lower,
        List.drop_append_of_le_length lower, take_withoutReturn]
    · rw [List.append_assoc]
      refine List.IsSuffix.trans ?_ (List.suffix_append ..)
      exact ((List.suffix_append_self_iff.mpr (List.drop_suffix ..)).trans (List.suffix_cons ..)).trans (List.suffix_append ..)
    · intro byte member
      rcases List.mem_append.mp member with there | there
      · rw [drop_withoutReturn uri byte there]
        decide
      · rw [List.mem_singleton.mp there]
        decide
  · rw [Master.listed, Master.listed, List.map_append]
    rfl

/-- The tags but two leave the renditions and the streams alone. -/
theorem masterTags_listed : ∀ tag ∈ masterTags, tag.name = ascii "EXT-X-MEDIA" ∨ tag.name = ascii "EXT-X-STREAM-INF" ∨
    ∀ dest pt dest' left, tag.value dest pt = some (dest', left) → dest'.listed = dest.listed := by
  simp only [masterTags, List.forall_mem_cons]
  refine ⟨.inr (.inr ?_), .inl trivial, .inr (.inr ?_), .inr (.inr ?_), .inr (.inl trivial), .inr (.inr ?_), .inr (.inr ?_),
    .inr (.inr ?_), .inr (.inr ?_), List.forall_mem_nil _⟩
  · rintro dest pt dest' left ⟨⟩
    rfl
  · intro dest pt dest' left read
    obtain ⟨pt, -, rest⟩ := Option.bind_eq_some_iff.mp read
    generalize parseStrToInt pt = value at rest
    obtain ⟨number, behind⟩ := value
    obtain ⟨rfl, rfl⟩ := Prod.mk.inj (Option.some.inj rest)
    cases number <;> rfl
  · rintro dest pt dest' left ⟨⟩
    rfl
  · intro dest pt dest' left read
    obtain ⟨object, -, rest⟩ := Option.bind_eq_some_iff.mp read
    obtain ⟨rfl, rfl⟩ := Prod.mk.inj (Option.some.inj rest)
    rfl
  · intro dest pt dest' left read
    obtain ⟨object, -, rest⟩ := Option.bind_eq_some_iff.mp read
    obtain ⟨rfl, rfl⟩ := Prod.mk.inj (Option.some.inj rest)
    rfl
  · intro dest pt dest' left read
    obtain ⟨pt, -, rest⟩ := Option.bind_eq_some_iff.mp read
    obtain ⟨object, -, rest'⟩ := Option.bind_eq_some_iff.mp rest
    obtain ⟨rfl, rfl⟩ := Prod.mk.inj (Option.some.inj rest')
    rfl
  · intro dest pt dest' left read
    obtain ⟨pt, -, rest⟩ := Option.bind_eq_some_iff.mp read
    obtain ⟨object, -, rest'⟩ := Option.bind_eq_some_iff.mp rest
    obtain ⟨rfl, rfl⟩ := Prod.mk.inj (Option.some.inj rest')
    rfl

/-- A tag that is neither for a rendition nor for a stream. -/
theorem parseMasterTag_other {line : Bytes} (followed : Followed line)
    (other : ¬ ((ascii "EXT-X-MEDIA").isPrefixOf line ∨ (ascii "EXT-X-STREAM-INF").isPrefixOf line)) (dest : Master) :
    ∃ dest' left, left <:+ line ∧ dest'.listed = dest.listed ∧
      ∀ tail, parseMasterTag dest (line ++ 10 :: tail) = some (dest', left ++ 10 :: tail) := by
  have same := find_line Attribute.name (fun tag member => (masterTags_reads tag member).1) line
  cases found : masterTags.find? fun tag => tag.name.isPrefixOf line with
  | none =>
    obtain ⟨customTag, left, inside, read⟩ := parseLineToStr_local line
    refine ⟨{ dest with customTags := dest.customTags ++ customTag.toList }, left, inside, rfl, fun tail => ?_⟩
    rw [parseMasterTag, same, found]
    simp only [read]
  | some tag =>
    have starts : tag.name.isPrefixOf line = true := by
      simpa using List.find?_some found
    have member := List.mem_of_find?_eq_some found
    have whole : tag.name ++ line.drop tag.name.length = line :=
      List.prefix_iff_eq_append.mp (List.isPrefixOf_iff_prefix.mp starts)
    rcases masterTags_listed tag member with media | stream | listed
    · exact absurd (.inl (media ▸ starts)) other
    · exact absurd (.inr (stream ▸ starts)) other
    rcases (masterTags_reads tag member).2 with ⟨stream, -⟩ | reads
    · exact absurd (.inr (stream ▸ starts)) other
    obtain ⟨dest', left, inside, read⟩ := reads _ (whole.symm ▸ followed) dest
    refine ⟨dest', left, inside.trans (List.drop_suffix ..), listed _ _ _ _ (read []), fun tail => ?_⟩
    rw [parseMasterTag, same, found]
    simp only [drop_line starts, read]

theorem other_passes {line : Bytes} (proper : (Entry.other line).Proper) (short : (Entry.other line).text.length < 2 ^ 31)
    (dest : Master) : ∃ dest', Passes (Entry.other line).text dest dest' ∧ dest'.listed = dest.listed := by
  cases line with
  | nil => exact ⟨dest, passes_text plain_lineEnd dest, rfl⟩
  | cons first line =>
    obtain ⟨zero, newline, plain, other⟩ := proper
    by_cases tag : first = 35
    · rw [tag] at short ⊢
      obtain ⟨dest', left, inside, listed, read⟩ := parseMasterTag_other plain.followed (fun found => other ⟨tag, found⟩) dest
      refine ⟨dest', ?_, listed⟩
      have whole : (Entry.other (35 :: line)).text = 35 :: (line ++ [10]) := rfl
      rw [whole] at short ⊢
      refine passes_tag (fun tail => ?_) (Nat.lt_of_succ_lt short) (List.suffix_append_self_iff.mpr inside) (plain_left plain inside)
      simp only [List.append_assoc, List.singleton_append]
      exact read tail
    · refine ⟨dest, passes_text ?_ dest, rfl⟩
      intro byte member
      rcases List.mem_cons.mp member with rfl | there
      · exact ⟨zero, tag⟩
      · exact plain_left plain (List.suffix_refl _) byte there

theorem entry_passes {entry : Entry} (proper : entry.Proper) (short : entry.text.length < 2 ^ 31) (dest : Master) :
    ∃ dest', Passes entry.text dest dest' ∧
      dest'.listed = ⟨dest.listed.media ++ entry.rendition.toList, dest.listed.streamInfs ++ entry.location.toList⟩ := by
  cases entry with
  | stream attributes uri =>
    obtain ⟨dest', passes, listed⟩ := stream_passes proper.1 proper.2.1 proper.2.2 short dest
    refine ⟨dest', passes, listed.trans ?_⟩
    simp [Entry.rendition, Entry.location]
  | media items =>
    obtain ⟨dest', passes, listed⟩ := media_passes proper short dest
    refine ⟨dest', passes, listed.trans ?_⟩
    simp [Entry.rendition, Entry.location]
  | other line =>
    obtain ⟨dest', passes, listed⟩ := other_passes proper short dest
    refine ⟨dest', passes, listed.trans ?_⟩
    simp [Entry.rendition, Entry.location]

theorem entries_pass {entries : List Entry} (proper : ∀ entry ∈ entries, entry.Proper)
    (short : (entries.flatMap Entry.text).length < 2 ^ 31) (dest : Master) :
    ∃ dest', Passes (entries.flatMap Entry.text) dest dest' ∧
      dest'.listed = ⟨dest.listed.media ++ entries.filterMap Entry.rendition,
        dest.listed.streamInfs ++ entries.filterMap Entry.location⟩ := by
  induction entries generalizing dest with
  | nil =>
    refine ⟨dest, fun tail fuel enough => ⟨fuel, enough, rfl⟩, ?_⟩
    rw [List.filterMap_nil, List.filterMap_nil, List.append_nil, List.append_nil]
  | cons entry entries ih =>
    obtain ⟨here, others⟩ := List.forall_mem_cons.mp proper
    rw [List.flatMap_cons, List.length_append] at short
    obtain ⟨dest', passes, listed⟩ := entry_passes here (by omega) dest
    obtain ⟨dest'', passes', listed'⟩ := ih others (by omega) dest'
    refine ⟨dest'', passes.append passes', ?_⟩
    have toList : ∀ item : Entry → Option (Option Bytes), (item entry).toList ++ entries.filterMap item =
        (entry :: entries).filterMap item := by
      intro item
      cases found : item entry <;> simp [found]
    rw [listed', listed, List.append_assoc, List.append_assoc, toList, toList]

theorem masterLoop_entries {entries : List Entry} (proper : ∀ entry ∈ entries, entry.Proper)
    (short : (entries.flatMap Entry.text).length < 2 ^ 31) :
    ∃ master, masterLoop ((entries.flatMap Entry.text).length + 1) {} (entries.flatMap Entry.text) = some (master, []) ∧
      master.listed = ⟨entries.filterMap Entry.rendition, entries.filterMap Entry.location⟩ := by
  obtain ⟨master, passes, listed⟩ := entries_pass proper short {}
  have text : (entries.flatMap Entry.text ++ []).length < (entries.flatMap Entry.text).length + 1 := by
    rw [List.append_nil]
    exact Nat.lt_succ_self _
  obtain ⟨fuel, enough, looped⟩ := passes [] _ text
  obtain ⟨fuel, rfl⟩ := Nat.exists_eq_add_one_of_ne_zero (Nat.ne_zero_of_lt enough)
  rw [List.append_nil, masterLoop] at looped
  exact ⟨master, looped, listed⟩

/-- The store takes from a document the URIs of its renditions and of its streams. -/
theorem playlist_listed (entries : List Entry) (proper : ∀ entry ∈ entries, entry.Proper) (some : entries ≠ [])
    (short : (entries.flatMap Entry.text).length < 2 ^ 31) :
    playlist (entries.flatMap Entry.text) = .some ⟨entries.filterMap Entry.rendition, entries.filterMap Entry.location⟩ := by
  obtain ⟨master, looped, listed⟩ := masterLoop_entries proper short
  have filled : 0 < (entries.flatMap Entry.text).length := by
    obtain ⟨entry, later, rfl⟩ := List.exists_cons_of_ne_nil some
    rw [List.flatMap_cons, List.length_append]
    exact Nat.add_pos_left (List.length_pos_iff.mpr entry.text_ne_nil) _
  have res : BitVec.ofNat 32 ((entries.flatMap Entry.text).length - ([] : Bytes).length) ≠ 0 := by
    intro zero
    have value := congrArg BitVec.toNat zero
    rw [BitVec.toNat_ofNat, List.length_nil, Nat.sub_zero, Nat.mod_eq_of_lt (by omega)] at value
    exact absurd value (by simpa using Nat.ne_of_gt filled)
  rw [playlist, hlsparseMaster, looped, Option.bind_eq_bind, Option.bind_some, Option.pure_def, Option.bind_some]
  dsimp only
  rw [if_pos res]
  exact congrArg Option.some listed

/-- A rendition and a stream. -/
def sample : List Entry :=
  [.other (ascii "#EXTM3U"), .media [.word (ascii "TYPE=AUDIO"), .quoted (ascii "NAME") (ascii "#1"), .quoted (ascii "URI") (ascii "a")],
    .stream (ascii ":BANDWIDTH=1") (ascii "b\r")]

end Entries

end Apsdk.HlsParser
