import Apsdk.HlsParser
import Apsdk.Library.Replacing

/-! How far the parser for playlists reads in a line: what is read in front of a newline does
not depend on what follows it, as long as every name has something behind it. -/

namespace Apsdk.HlsParser
open Library

/-- Reading a value in front of a newline ends there. -/
def Local {β : Type} (parse : Bytes → Option β × Bytes) : Prop :=
  ∀ line, ∃ value left, left <:+ line ∧ ∀ tail, parse (line ++ 10 :: tail) = (value, left ++ 10 :: tail)

/-- The same for a value that goes into an object. -/
def Reads {α : Type} (value : Value α) (line : Bytes) : Prop :=
  ∀ dest, ∃ dest' left, left <:+ line ∧ ∀ tail, value dest (line ++ 10 :: tail) = some (dest', left ++ 10 :: tail)

section Words

theorem drop_line {word line : Bytes} (starts : word.isPrefixOf line = true) (tail : Bytes) :
    (line ++ 10 :: tail).drop word.length = line.drop word.length ++ 10 :: tail := by
  have inside := (List.isPrefixOf_iff_prefix.mp starts).length_le
  exact List.drop_append_of_le_length inside

theorem find_line {γ : Type} (name : γ → Bytes) {items : List γ} (single : ∀ item ∈ items, 10 ∉ name item) (line tail : Bytes) :
    (items.find? fun item => (name item).isPrefixOf (line ++ 10 :: tail)) = items.find? fun item => (name item).isPrefixOf line := by
  induction items with
  | nil => rfl
  | cons item items ih =>
    obtain ⟨here, others⟩ := List.forall_mem_cons.mp single
    simp only [List.find?_cons, isPrefixOf_stop here, ih others]

theorem chosen_local {β : Type} (words : List (Bytes × β)) (otherwise : Option β) (single : ∀ word ∈ words, 10 ∉ word.1) :
    Local (chosen words otherwise) := by
  intro line
  cases found : words.find? fun word => word.1.isPrefixOf line with
  | none =>
    refine ⟨otherwise, line, List.suffix_refl line, fun tail => ?_⟩
    rw [chosen, find_line Prod.fst single, found]
  | some word =>
    have starts : word.1.isPrefixOf line = true := by
      simpa using List.find?_some found
    refine ⟨some word.2, line.drop word.1.length, List.drop_suffix .., fun tail => ?_⟩
    rw [chosen, find_line Prod.fst single, found, ← drop_line starts]

end Words

section Values

theorem intDigits_local (value : BitVec 32) (line : Bytes) :
    ∃ value' left, left <:+ line ∧ ∀ tail, intDigits value (line ++ 10 :: tail) = (value', left ++ 10 :: tail) := by
  induction line generalizing value with
  | nil => exact ⟨value, [], List.suffix_refl [], fun _ => rfl⟩
  | cons byte line ih =>
    by_cases digit : isDigit byte
    · obtain ⟨value', left, inside, read⟩ := ih (value * 10 + BitVec.ofNat 32 (byte.toNat - 48))
      refine ⟨value', left, inside.trans (List.suffix_cons ..), fun tail => ?_⟩
      rw [List.cons_append, intDigits, if_pos digit, read]
    · refine ⟨value, byte :: line, List.suffix_refl _, fun tail => ?_⟩
      rw [List.cons_append, intDigits, if_neg digit]

theorem peek_line (line tail : Bytes) : peek (line ++ 10 :: tail) = peek (line ++ [10]) := by
  cases line <;> rfl

/-- A sign that is there, and no newline, is passed. -/
theorem passed_line {sign : UInt8} {line : Bytes} (other : sign ≠ 10) (here : peek (line ++ [10]) = sign) :
    ∃ rest, rest <:+ line ∧ ∀ tail, (line ++ 10 :: tail).drop 1 = rest ++ 10 :: tail := by
  cases line with
  | nil => exact absurd here.symm other
  | cons byte line => exact ⟨line, List.suffix_cons .., fun _ => rfl⟩

theorem line_ne_nil (line tail : Bytes) : line ++ 10 :: tail ≠ [] := by simp

theorem parseStrToInt_local : Local parseStrToInt := by
  intro line
  by_cases sign : peek (line ++ [10]) = 45
  · obtain ⟨rest, inside, passed⟩ := passed_line (by decide) sign
    obtain ⟨value, left, inside', read⟩ := intDigits_local 0 rest
    refine ⟨some (-value), left, inside'.trans inside, fun tail => ?_⟩
    rw [parseStrToInt, if_neg (line_ne_nil line tail), peek_line, if_pos sign, passed, read]
  · obtain ⟨value, left, inside, read⟩ := intDigits_local 0 line
    refine ⟨some value, left, inside, fun tail => ?_⟩
    rw [parseStrToInt, if_neg (line_ne_nil line tail), peek_line, if_neg sign, read]

theorem floatDigits_local (value divis : Float32) (line : Bytes) :
    ∃ value' divis' left, left <:+ line ∧
      ∀ tail, floatDigits value divis (line ++ 10 :: tail) = (value', divis', left ++ 10 :: tail) := by
  induction line generalizing value divis with
  | nil => exact ⟨value, divis, [], List.suffix_refl [], fun _ => rfl⟩
  | cons byte line ih =>
    by_cases digit : isDigit byte
    · obtain ⟨value', divis', left, inside, read⟩ := ih (value * 10 + Float32.ofNat (byte.toNat - 48)) (divis * 10)
      refine ⟨value', divis', left, inside.trans (List.suffix_cons ..), fun tail => ?_⟩
      rw [List.cons_append, floatDigits, if_pos digit, read]
    · refine ⟨value, divis, byte :: line, List.suffix_refl _, fun tail => ?_⟩
      rw [List.cons_append, floatDigits, if_neg digit]

/-- What `parse_str_to_float` does behind the sign. -/
theorem unsigned_local (sign : Float32) (line : Bytes) :
    ∃ value left, left <:+ line ∧ ∀ tail,
      (let (value, _, pt) := floatDigits 0 1 (line ++ 10 :: tail)
       if peek pt = 46 then
         let (fraction, divis, pt) := floatDigits 0 1 (pt.drop 1)
         (some (sign * (value + fraction / divis)), pt)
       else (some (sign * (value + 0)), pt)) = (value, left ++ 10 :: tail) := by
  obtain ⟨value, divis, rest, inside, read⟩ := floatDigits_local 0 1 line
  by_cases point : peek (rest ++ [10]) = 46
  · obtain ⟨behind, inside', passed⟩ := passed_line (by decide) point
    obtain ⟨fraction, divis, left, inside'', read'⟩ := floatDigits_local 0 1 behind
    refine ⟨some (sign * (value + fraction / divis)), left, inside''.trans (inside'.trans inside), fun tail => ?_⟩
    simp only [read, peek_line, if_pos point, passed, read']
  · refine ⟨some (sign * (value + 0)), rest, inside, fun tail => ?_⟩
    simp only [read, peek_line, if_neg point]

theorem parseStrToFloat_local : Local parseStrToFloat := by
  intro line
  by_cases sign : peek (line ++ [10]) = 45
  · obtain ⟨rest, inside, passed⟩ := passed_line (by decide) sign
    obtain ⟨value, left, inside', read⟩ := unsigned_local (-1) rest
    refine ⟨value, left, inside'.trans inside, fun tail => ?_⟩
    rw [parseStrToFloat, if_neg (line_ne_nil line tail), peek_line, if_pos sign, passed]
    exact read tail
  · obtain ⟨value, left, inside, read⟩ := unsigned_local 1 line
    refine ⟨value, left, inside, fun tail => ?_⟩
    rw [parseStrToFloat, if_neg (line_ne_nil line tail), peek_line, if_neg sign]
    exact read tail

theorem quoted_local (text : Bytes) : Local (quoted text) := by
  intro line
  induction line generalizing text with
  | nil => exact ⟨none, [], List.suffix_refl [], fun _ => rfl⟩
  | cons byte line ih =>
    by_cases ends : isEnd byte
    · refine ⟨none, byte :: line, List.suffix_refl _, fun tail => ?_⟩
      rw [List.cons_append, quoted, if_pos ends]
    by_cases quote : byte = 34
    · refine ⟨if text = [] then none else some text, line, List.suffix_cons .., fun tail => ?_⟩
      rw [List.cons_append, quoted, if_neg ends, if_pos quote]
    · obtain ⟨value, left, inside, read⟩ := ih (text ++ [byte])
      refine ⟨value, left, inside.trans (List.suffix_cons ..), fun tail => ?_⟩
      rw [List.cons_append, quoted, if_neg ends, if_neg quote, read]

theorem parseAttribStr_local : Local parseAttribStr := by
  intro line
  induction line with
  | nil => exact ⟨none, [], List.suffix_refl [], fun _ => rfl⟩
  | cons byte line ih =>
    by_cases ends : isEnd byte
    · refine ⟨none, byte :: line, List.suffix_refl _, fun tail => ?_⟩
      rw [List.cons_append, parseAttribStr, if_pos ends]
    by_cases quote : byte = 34
    · obtain ⟨value, left, inside, read⟩ := quoted_local [] line
      refine ⟨value, left, inside.trans (List.suffix_cons ..), fun tail => ?_⟩
      rw [List.cons_append, parseAttribStr, if_neg ends, if_pos quote, read]
    · obtain ⟨value, left, inside, read⟩ := ih
      refine ⟨value, left, inside.trans (List.suffix_cons ..), fun tail => ?_⟩
      rw [List.cons_append, parseAttribStr, if_neg ends, if_neg quote, read]

theorem hexDigits_local (dest : Option Bytes) (buffer : Bytes) (upper : Option UInt8) : Local (hexDigits dest buffer upper) := by
  intro line
  induction line generalizing dest buffer upper with
  | nil => exact ⟨_, [], List.suffix_refl [], fun _ => rfl⟩
  | cons byte line ih =>
    cases digit : hexDigit byte with
    | none =>
      refine ⟨if buffer = [] then dest else appendData dest buffer, byte :: line, List.suffix_refl _, fun tail => ?_⟩
      simp only [List.cons_append, hexDigits, digit]
    | some value =>
      cases upper with
      | none =>
        obtain ⟨result, left, inside, read⟩ := ih dest buffer (some value)
        refine ⟨result, left, inside.trans (List.suffix_cons ..), fun tail => ?_⟩
        simp only [List.cons_append, hexDigits, digit, read]
      | some high =>
        by_cases full : (buffer ++ [high * 16 + value]).length = 16
        · obtain ⟨result, left, inside, read⟩ := ih (appendData dest (buffer ++ [high * 16 + value])) [] none
          refine ⟨result, left, inside.trans (List.suffix_cons ..), fun tail => ?_⟩
          simp only [List.cons_append, hexDigits, digit, if_pos full, read]
        · obtain ⟨result, left, inside, read⟩ := ih dest (buffer ++ [high * 16 + value]) none
          refine ⟨result, left, inside.trans (List.suffix_cons ..), fun tail => ?_⟩
          simp only [List.cons_append, hexDigits, digit, if_neg full, read]

theorem parseAttribData_local (dest : Option Bytes) : Local (parseAttribData dest) := by
  have skipped : ∀ line, (∀ tail, parseAttribData dest (line ++ 10 :: tail) = (dest, line ++ 10 :: tail)) →
      ∃ value left, left <:+ line ∧ ∀ tail, parseAttribData dest (line ++ 10 :: tail) = (value, left ++ 10 :: tail) :=
    fun line same => ⟨dest, line, List.suffix_refl line, same⟩
  intro line
  match line with
  | [] => exact skipped [] fun _ => rfl
  | [byte] =>
    apply skipped
    intro tail
    by_cases zero : byte = 48
    · rw [zero]
      rfl
    · simp [parseAttribData, zero]
  | byte :: mark :: rest =>
    by_cases hex : byte = 48 ∧ (mark = 120 ∨ mark = 88)
    · obtain ⟨rfl, marked⟩ := hex
      obtain ⟨value, left, inside, read⟩ := hexDigits_local dest [] none rest
      refine ⟨value, left, inside.trans ((List.suffix_cons ..).trans (List.suffix_cons ..)), fun tail => ?_⟩
      rw [List.cons_append, List.cons_append, parseAttribData, if_pos marked, read]
    · apply skipped
      intro tail
      by_cases zero : byte = 48
      · rw [zero, List.cons_append, List.cons_append, parseAttribData, if_neg fun marked => hex ⟨zero, marked⟩]
      · simp [parseAttribData, zero]

theorem parseResolution_local : Local parseResolution := by
  intro line
  obtain ⟨width, rest, inside, read⟩ := parseStrToInt_local line
  by_cases times : peek (rest ++ [10]) = 120
  · obtain ⟨behind, inside', passed⟩ := passed_line (by decide) times
    obtain ⟨height, left, inside'', read'⟩ := parseStrToInt_local behind
    refine ⟨some ⟨width.getD 0, height.getD 0⟩, left, inside''.trans (inside'.trans inside), fun tail => ?_⟩
    simp only [parseResolution, if_neg (line_ne_nil line tail), read, peek_line, if_pos times, passed, read']
  · refine ⟨some ⟨width.getD 0, 0⟩, rest, inside, fun tail => ?_⟩
    simp only [parseResolution, if_neg (line_ne_nil line tail), read, peek_line, if_neg times]

theorem closedCaptions_local : Local closedCaptions := by
  intro line
  have single : (10 : UInt8) ∉ ascii "NONE" := by decide
  by_cases word : (ascii "NONE").isPrefixOf line = true
  · refine ⟨some (ascii "NONE"), line.drop 4, List.drop_suffix .., fun tail => ?_⟩
    rw [closedCaptions, isPrefixOf_stop single, if_pos word]
    exact congrArg (some (ascii "NONE"), ·) (drop_line word tail)
  · obtain ⟨value, left, inside, read⟩ := parseAttribStr_local line
    refine ⟨value, left, inside, fun tail => ?_⟩
    rw [closedCaptions, isPrefixOf_stop single, if_neg word, read]

end Values

section Followed

/-- The names behind which a sign is passed without a look at it, and the colon that `parse_start` passes. -/
def names : List Bytes :=
  mediaTags.map Attribute.name ++ streamInfTags.map Attribute.name ++ iframeStreamInfTags.map Attribute.name ++
    sessionDataTags.map Attribute.name ++ keyTags.map Attribute.name ++ startTags.map Attribute.name ++
    [ascii "EXT-X-VERSION", ascii "EXT-X-START", ascii "EXT-X-SESSION-KEY", [58]]

/-- Something stands behind every name: a sign, and in one case a quote as well. -/
structure Followed (line : Bytes) : Prop where
  named : ∀ name ∈ names, ¬ name <:+ line
  instream : ¬ ascii "INSTREAM-ID" <:+ line.dropLast

theorem Followed.suffix {line rest : Bytes} (followed : Followed line) (inside : rest <:+ line) : Followed rest := by
  refine ⟨fun name member there => followed.named name member (there.trans inside), fun there => ?_⟩
  obtain ⟨front, rfl⟩ := inside
  by_cases empty : rest = []
  · rw [empty] at there
    exact absurd (List.eq_nil_of_suffix_nil there) (by decide)
  · apply followed.instream
    rw [List.dropLast_append_of_ne_nil empty]
    exact there.trans (List.suffix_append ..)

theorem Followed.ne_nil {name line : Bytes} (followed : Followed (name ++ line)) (member : name ∈ names) : line ≠ [] := by
  rintro rfl
  apply followed.named name member
  simp only [List.append_nil, List.suffix_refl]

variable {α : Type}

/-- Every value of a table is read within its line. -/
def Sound (tags : List (Attribute α)) : Prop :=
  ∀ tag ∈ tags, tag.name ≠ [] ∧ 10 ∉ tag.name ∧ ∀ line, Followed (tag.name ++ line) → Reads tag.value line

theorem assigned_reads {β : Type} {parse : Bytes → Option β × Bytes} (reads : Local parse) (set : α → β → α) {line : Bytes}
    (some : line ≠ []) : Reads (assigned parse set) line := by
  intro dest
  cases line with
  | nil => exact absurd rfl some
  | cons sign line =>
    obtain ⟨value, left, inside, read⟩ := reads line
    refine ⟨value.elim dest (set dest), left, inside.trans (List.suffix_cons ..), fun tail => ?_⟩
    simp only [assigned, List.cons_append, next, Option.bind_eq_bind, Option.bind_some, read, Option.pure_def]

theorem assigned_sound {β : Type} {name : Bytes} {parse : Bytes → Option β × Bytes} {set : α → β → α} (reads : Local parse)
    (known : name ≠ [] ∧ 10 ∉ name ∧ name ∈ names) :
    name ≠ [] ∧ 10 ∉ name ∧ ∀ line, Followed (name ++ line) → Reads (assigned parse set) line :=
  ⟨known.1, known.2.1, fun _ followed => assigned_reads reads set (followed.ne_nil known.2.2)⟩

theorem flag_local : Local flag := chosen_local _ none (by decide)

theorem hdcpLevel_local : Local hdcpLevel := chosen_local _ none (by decide)

theorem instreamId_reads {line : Bytes} (followed : Followed (ascii "INSTREAM-ID" ++ line)) : Reads instreamId line := by
  intro dest
  match line, followed with
  | [], followed => exact absurd rfl (followed.ne_nil (by decide))
  | [sign], followed => exact absurd (List.dropLast_concat ▸ List.suffix_refl _) followed.instream
  | sign :: quote :: line, _ =>
    have words : Local (chosen [(ascii "CC1", InstreamId.cc1), (ascii "CC2", .cc2), (ascii "CC3", .cc3), (ascii "CC4", .cc4),
        (ascii "SERVICE", .service)] (some .invalid)) := chosen_local _ _ (by decide)
    obtain ⟨id, left, inside, read⟩ := words line
    have inside' : left <:+ sign :: quote :: line := inside.trans ((List.suffix_cons ..).trans (List.suffix_cons ..))
    by_cases service : id = some .service
    · obtain ⟨number, left', inside'', read'⟩ := parseStrToInt_local left
      refine ⟨{ dest with instreamId := .service, serviceN := number.getD dest.serviceN }, left', inside''.trans inside',
        fun tail => ?_⟩
      simp only [instreamId, List.cons_append, next, Option.bind_eq_bind, Option.bind_some, read, service, read',
        Option.pure_def]
    · refine ⟨{ dest with instreamId := id.getD dest.instreamId }, left, inside', fun tail => ?_⟩
      simp only [instreamId, List.cons_append, next, Option.bind_eq_bind, Option.bind_some, read, Option.pure_def]

end Followed

section Tables

theorem mediaTags_sound : Sound mediaTags := by
  have words : Local (chosen [(ascii "VIDEO", MediaType.video), (ascii "AUDIO", .audio), (ascii "SUBTITLES", .subtitles),
      (ascii "CLOSED-CAPTIONS", .closedCaptions)] (some .invalid)) := chosen_local _ _ (by decide)
  simp only [Sound, mediaTags, List.forall_mem_cons]
  exact ⟨assigned_sound words (by decide), assigned_sound parseAttribStr_local (by decide),
    assigned_sound parseAttribStr_local (by decide), assigned_sound flag_local (by decide),
    assigned_sound flag_local (by decide), assigned_sound flag_local (by decide),
    assigned_sound parseAttribStr_local (by decide), assigned_sound parseAttribStr_local (by decide),
    assigned_sound parseAttribStr_local (by decide), ⟨by decide, by decide, fun _ => instreamId_reads⟩,
    assigned_sound parseAttribStr_local (by decide), assigned_sound parseAttribStr_local (by decide), List.forall_mem_nil _⟩

theorem streamInfTags_sound : Sound streamInfTags := by
  simp only [Sound, streamInfTags, List.forall_mem_cons]
  exact ⟨assigned_sound parseStrToInt_local (by decide), assigned_sound parseStrToFloat_local (by decide),
    assigned_sound parseStrToFloat_local (by decide), assigned_sound parseAttribStr_local (by decide),
    assigned_sound parseResolution_local (by decide), assigned_sound parseAttribStr_local (by decide),
    assigned_sound parseAttribStr_local (by decide), assigned_sound parseAttribStr_local (by decide),
    assigned_sound closedCaptions_local (by decide), assigned_sound parseStrToFloat_local (by decide),
    assigned_sound hdcpLevel_local (by decide), List.forall_mem_nil _⟩

theorem iframeStreamInfTags_sound : Sound iframeStreamInfTags := by
  simp only [Sound, iframeStreamInfTags, List.forall_mem_cons]
  exact ⟨assigned_sound parseStrToInt_local (by decide), assigned_sound parseStrToFloat_local (by decide),
    assigned_sound parseStrToFloat_local (by decide), assigned_sound parseAttribStr_local (by decide),
    assigned_sound parseResolution_local (by decide), assigned_sound parseAttribStr_local (by decide),
    assigned_sound parseAttribStr_local (by decide), assigned_sound parseStrToFloat_local (by decide),
    assigned_sound hdcpLevel_local (by decide), List.forall_mem_nil _⟩

theorem sessionDataTags_sound : Sound sessionDataTags := by
  simp only [Sound, sessionDataTags, List.forall_mem_cons]
  exact ⟨assigned_sound parseAttribStr_local (by decide), assigned_sound parseAttribStr_local (by decide),
    assigned_sound parseAttribStr_local (by decide), assigned_sound parseAttribStr_local (by decide), List.forall_mem_nil _⟩

theorem iv_reads {line : Bytes} (some : line ≠ []) :
    Reads (fun (dest : HlsKey) pt => do
      let pt ← next pt
      let (iv, pt) := parseAttribData dest.iv pt
      return ({ dest with iv }, pt)) line := by
  intro dest
  cases line with
  | nil => exact absurd rfl some
  | cons sign line =>
    obtain ⟨value, left, inside, read⟩ := parseAttribData_local dest.iv line
    refine ⟨{ dest with iv := value }, left, inside.trans (List.suffix_cons ..), fun tail => ?_⟩
    simp only [List.cons_append, next, Option.bind_eq_bind, Option.bind_some, read, Option.pure_def]

theorem keyTags_sound : Sound keyTags := by
  have words : Local (chosen [(ascii "NONE", KeyMethod.none), (ascii "AES-128", .aes128), (ascii "SAMPLE-AES", .sampleAes)]
      (some .invalid)) := chosen_local _ _ (by decide)
  simp only [Sound, keyTags, List.forall_mem_cons]
  exact ⟨assigned_sound words (by decide), assigned_sound parseAttribStr_local (by decide),
    ⟨by decide, by decide, fun _ followed => iv_reads (followed.ne_nil (by decide))⟩,
    assigned_sound parseAttribStr_local (by decide), assigned_sound parseAttribStr_local (by decide), List.forall_mem_nil _⟩

theorem startTags_sound : Sound startTags := by
  simp only [Sound, startTags, List.forall_mem_cons]
  exact ⟨assigned_sound parseStrToFloat_local (by decide), assigned_sound flag_local (by decide), List.forall_mem_nil _⟩

end Tables

section Lines
variable {α : Type} {tags : List (Attribute α)}

/-- The first tag that is there, and what is behind its name. -/
theorem find_tag (sound : Sound tags) {tag : Attribute α} {line : Bytes}
    (found : (tags.find? fun tag => tag.name.isPrefixOf line) = some tag) :
    tag.name ++ line.drop tag.name.length = line ∧ tag.name ≠ [] ∧
      (Followed line → Reads tag.value (line.drop tag.name.length)) := by
  have starts : tag.name.isPrefixOf line = true := by
    simpa using List.find?_some found
  obtain ⟨filled, _, reads⟩ := sound tag (List.mem_of_find?_eq_some found)
  have whole : tag.name ++ line.drop tag.name.length = line :=
    List.prefix_iff_eq_append.mp (List.isPrefixOf_iff_prefix.mp starts)
  exact ⟨whole, filled, fun followed => reads _ (whole.symm ▸ followed)⟩

/-- A line of attributes is read up to its end at most. -/
theorem parseAttributes_reads (sound : Sound tags) {line : Bytes} (followed : Followed line) (dest : α) :
    ∃ dest' left, left <:+ line ∧ ∀ fuel tail, line.length < fuel →
      parseAttributes tags fuel dest (line ++ 10 :: tail) = some (dest', left ++ 10 :: tail) := by
  induction length : line.length using Nat.strong_induction_on generalizing line dest with
  | _ n ih =>
    subst length
    cases line with
    | nil =>
      refine ⟨dest, [], List.suffix_refl [], fun fuel tail enough => ?_⟩
      obtain ⟨fuel, rfl⟩ := Nat.exists_eq_add_one_of_ne_zero (Nat.ne_zero_of_lt enough)
      rfl
    | cons byte line =>
      have shorter : line.length < (byte :: line).length := Nat.lt_succ_self _
      obtain ⟨dest₁, left₁, inside₁, read₁⟩ := ih _ shorter (followed.suffix (List.suffix_cons byte line)) dest rfl
      have later : left₁ <:+ byte :: line := inside₁.trans (List.suffix_cons ..)
      by_cases ends : isEnd byte
      · refine ⟨dest, byte :: line, List.suffix_refl _, fun fuel tail enough => ?_⟩
        obtain ⟨fuel, rfl⟩ := Nat.exists_eq_add_one_of_ne_zero (Nat.ne_zero_of_lt enough)
        rw [List.cons_append, parseAttributes, if_pos ends]
      by_cases separates : byte = 44 ∨ byte = 61 ∨ byte = 58
      · refine ⟨dest₁, left₁, later, fun fuel tail enough => ?_⟩
        obtain ⟨fuel, rfl⟩ := Nat.exists_eq_add_one_of_ne_zero (Nat.ne_zero_of_lt enough)
        rw [List.cons_append, parseAttributes, if_neg ends, if_pos separates, read₁ fuel tail (Nat.lt_of_succ_lt_succ enough)]
      have same : ∀ tail, (tags.find? fun tag => tag.name.isPrefixOf (byte :: (line ++ 10 :: tail))) =
          tags.find? fun tag => tag.name.isPrefixOf (byte :: line) :=
        find_line Attribute.name (fun tag member => (sound tag member).2.1) (byte :: line)
      cases found : tags.find? fun tag => tag.name.isPrefixOf (byte :: line) with
      | none =>
        refine ⟨dest₁, left₁, later, fun fuel tail enough => ?_⟩
        obtain ⟨fuel, rfl⟩ := Nat.exists_eq_add_one_of_ne_zero (Nat.ne_zero_of_lt enough)
        rw [List.cons_append, parseAttributes, if_neg ends, if_neg separates, parseTag, same, found]
        simp only [Option.bind_eq_bind, Option.bind_some, List.length_cons, lt_irrefl, if_false]
        exact read₁ fuel tail (Nat.lt_of_succ_lt_succ enough)
      | some tag =>
        obtain ⟨whole, filled, reads⟩ := find_tag sound found
        obtain ⟨dest₂, left₂, inside₂, read₂⟩ := reads followed dest
        have behind : left₂.length < (byte :: line).length := by
          have total := congrArg List.length whole
          have first := List.length_pos_iff.mpr filled
          have second := inside₂.length_le
          rw [List.length_append] at total
          omega
        have inside₂' : left₂ <:+ byte :: line := inside₂.trans (List.drop_suffix ..)
        obtain ⟨dest₃, left₃, inside₃, read₃⟩ := ih _ behind (followed.suffix inside₂') dest₂ rfl
        refine ⟨dest₃, left₃, inside₃.trans inside₂', fun fuel tail enough => ?_⟩
        obtain ⟨fuel, rfl⟩ := Nat.exists_eq_add_one_of_ne_zero (Nat.ne_zero_of_lt enough)
        have starts : tag.name.isPrefixOf (byte :: line) = true := by
          simpa using List.find?_some found
        have dropped := drop_line starts tail
        rw [List.cons_append] at dropped
        have progress : (left₂ ++ 10 :: tail).length < (line ++ 10 :: tail).length + 1 := by
          simp only [List.length_append, List.length_cons] at behind ⊢
          omega
        rw [List.cons_append, parseAttributes, if_neg ends, if_neg separates, parseTag, same, found]
        simp only [dropped, read₂, Option.bind_eq_bind, Option.bind_some, if_pos progress]
        exact read₃ fuel tail (by omega)

theorem parseLine_reads (sound : Sound tags) {line : Bytes} (followed : Followed line) : Reads (parseLine tags) line := by
  intro dest
  obtain ⟨dest', left, inside, read⟩ := parseAttributes_reads sound followed dest
  refine ⟨dest', left, inside, fun tail => read _ tail ?_⟩
  simp only [List.length_append]
  omega

end Lines

end Apsdk.HlsParser
