import Apsdk.CondensedPlaylist
import Apsdk.Library.RegexCaptures
import Apsdk.Library.RegexLiteral
import Apsdk.Proofs.CastingRun

/-! When the expansion of a condensed playlist is a literal one. The prefix is used as a
pattern and the base as a format, and the first line is behind no end of a line. -/

namespace Apsdk.MediaDataStore
open Library

namespace Condensed
variable (found : Condensed)

/-- A line that begins with the prefix belongs behind the base. -/
def expandLine (line : Bytes) : Bytes := if found.linePrefix.isPrefixOf line then found.base ++ 47 :: line else line

def expand (data : Bytes) : Bytes := [10].intercalate ((data.splitOn 10).map found.expandLine)

/-- No operator but dots in the prefix, and no directive in the format. -/
structure Tame : Prop where
  dotted : Regex.Dotted found.linePrefix
  inert : Regex.Inert found.format

/-- The expression matches nothing. -/
def Unmatched (data : Bytes) : Prop := ∀ regex, Regex.parse found.pattern = some regex → regex.search data = none

/-- Either there is nothing to expand, or what fits the prefix begins with it. -/
inductive Literal (data : Bytes) : Prop
  | unused (formed : (Regex.parse found.pattern).isSome = true) (unmatched : found.Unmatched data)
    (absent : ∀ line ∈ data.splitOn 10, ¬ found.linePrefix <+: line)
  | fitting (tame : found.Tame) (first : ¬ found.linePrefix <+: data)
    (begins : ∀ line ∈ (data.splitOn 10).tail, Regex.fits found.linePrefix line = true → found.linePrefix <+: line)

end Condensed

/-- The expansion does not throw, expands each line that begins with the prefix, and changes nothing else. -/
def Expands (data : Bytes) : Prop :=
  adjustSecondaryMediaData data = some (if (condensed data).Given then (condensed data).expand data else data)

section Header
variable (data : Bytes)

theorem youtube_groups : (Regex.parse YOUTUBE_PATTERN).all (fun regex => regex.groupsReject 10) = true := by decide +kernel

/-- Neither the base nor the prefix contains the end of a line. -/
theorem condensed_single : 10 ∉ (condensed data).base ∧ 10 ∉ (condensed data).linePrefix := by
  unfold condensed
  dsimp only
  split
  · rename_i groups matched
    obtain ⟨regex, parsed, matched⟩ := Option.bind_eq_some_iff.mp matched
    have grouped := youtube_groups
    rw [parsed] at grouped
    exact ⟨Regex.search_free grouped matched (by decide : 1 ≠ 0), Regex.search_free grouped matched (by decide : 2 ≠ 0)⟩
  · exact ⟨List.not_mem_nil, List.not_mem_nil⟩

end Header

section Lines
variable {found : Condensed} {line : Bytes} {lines : List Bytes}

theorem expandLine_eq_self_iff : found.expandLine line = line ↔ ¬ found.linePrefix <+: line := by
  rw [Condensed.expandLine, ← List.isPrefixOf_iff_prefix]
  split
  · rename_i begins
    refine iff_of_false (fun same => ?_) (not_not_intro begins)
    have sizes := congrArg List.length same
    rw [List.length_append, List.length_cons] at sizes
    omega
  · rename_i other
    exact iff_of_true rfl other

theorem fits_of_begins {pattern : Bytes} (begins : pattern <+: line) : Regex.fits pattern line = true := by
  induction pattern generalizing line with
  | nil => rfl
  | cons mark pattern ih =>
    obtain ⟨rest, rfl⟩ := begins
    have own : Regex.accepts mark mark = true := by
      unfold Regex.accepts
      split
      · rename_i dot
        rw [dot]
        decide
      · exact beq_self_eq_true mark
    rw [List.cons_append, Regex.fits, own, Bool.true_and]
    exact ih (List.prefix_append pattern rest)

/-- Replacing what fits is literal just where it begins with the prefix. -/
theorem replaceLine_eq_iff : Regex.replaceLine found.linePrefix (found.base ++ 47 :: found.linePrefix) line = found.expandLine line ↔
    (Regex.fits found.linePrefix line = true → found.linePrefix <+: line) := by
  by_cases begins : found.linePrefix <+: line
  · refine iff_of_true ?_ fun _ => begins
    rw [Regex.replaceLine, if_pos (fits_of_begins begins), Condensed.expandLine,
      if_pos (List.isPrefixOf_iff_prefix.mpr begins)]
    obtain ⟨rest, rfl⟩ := begins
    rw [List.drop_left, List.append_assoc]
    rfl
  · have kept := expandLine_eq_self_iff.mpr begins
    rw [kept, Regex.replaceLine]
    split
    · rename_i fit
      have below := Regex.fits_length fit
      refine iff_of_false (fun same => ?_) fun all => begins (all fit)
      have sizes := congrArg List.length same
      simp only [List.length_append, List.length_cons, List.length_drop] at sizes
      omega
    · rename_i other
      exact iff_of_true rfl fun fit => absurd fit other

theorem expandLine_single (base : 10 ∉ found.base) (here : 10 ∉ line) : 10 ∉ found.expandLine line := by
  rw [Condensed.expandLine]
  split
  · intro member
    rcases List.mem_append.mp member with inside | behind
    · exact base inside
    · exact here ((List.mem_cons.mp behind).resolve_left (by decide))
  · exact here

theorem replaceLine_single {pattern format : Bytes} (inside : 10 ∉ format) (here : 10 ∉ line) :
    10 ∉ Regex.replaceLine pattern format line := by
  rw [Regex.replaceLine]
  split
  · intro member
    rcases List.mem_append.mp member with left | right
    · exact inside left
    · exact here (List.mem_of_mem_drop right)
  · exact here

/-- Lines that have been joined can be told apart again. -/
theorem intercalate_inj {others : List Bytes} (filled : lines ≠ []) (filled' : others ≠ []) (single : ∀ line ∈ lines, 10 ∉ line)
    (single' : ∀ line ∈ others, 10 ∉ line) : ([10] : Bytes).intercalate lines = [10].intercalate others ↔ lines = others := by
  refine ⟨fun same => ?_, fun same => congrArg _ same⟩
  rw [← List.splitOn_intercalate 10 single filled, same, List.splitOn_intercalate 10 single' filled']

theorem prefix_first {pattern : Bytes} (single : 10 ∉ pattern) (first : Bytes) (lines : List Bytes) :
    pattern <+: [10].intercalate (first :: lines) ↔ pattern <+: first := by
  rw [Regex.intercalate_lines]
  refine ⟨fun begins => ?_, fun begins => begins.trans (List.prefix_append _ _)⟩
  rcases List.prefix_or_prefix_of_prefix begins (List.prefix_append first _) with shorter | longer
  · exact shorter
  · obtain ⟨rest, rfl⟩ := longer
    have behind := (List.prefix_append_right_inj first).mp begins
    rcases Regex.behindFirst_head lines with none | some
    · rw [none, List.prefix_nil] at behind
      subst behind
      simp only [List.append_nil, List.prefix_rfl]
    · obtain ⟨tail, same⟩ := behind
      cases rest with
      | nil => simp only [List.append_nil, List.prefix_rfl]
      | cons byte rest =>
        rw [← same] at some
        exact absurd (List.mem_append_right first (Option.some.inj some ▸ List.mem_cons_self)) single

end Lines

section Documents
variable {data : Bytes}

theorem expand_eq_self_iff (found : Condensed) (base : 10 ∉ found.base) :
    found.expand data = data ↔ ∀ line ∈ data.splitOn 10, ¬ found.linePrefix <+: line := by
  have single := Regex.mem_splitOn_single data
  have single' : ∀ line ∈ (data.splitOn 10).map found.expandLine, 10 ∉ line :=
    List.forall_mem_map.mpr fun line member => expandLine_single base (single line member)
  have filled := List.splitOn_ne_nil 10 data
  calc found.expand data = data
    _ ↔ [10].intercalate ((data.splitOn 10).map found.expandLine) = [10].intercalate (data.splitOn 10) := by
      rw [List.intercalate_splitOn, Condensed.expand]
    _ ↔ (data.splitOn 10).map found.expandLine = data.splitOn 10 :=
      intercalate_inj (fun none => filled (List.map_eq_nil_iff.mp none)) filled single' single
    _ ↔ (data.splitOn 10).map found.expandLine = (data.splitOn 10).map id := by rw [List.map_id]
    _ ↔ ∀ line ∈ data.splitOn 10, found.expandLine line = line := List.map_inj_left
    _ ↔ ∀ line ∈ data.splitOn 10, ¬ found.linePrefix <+: line :=
      forall₂_congr fun line _ => expandLine_eq_self_iff

/-- With a tame prefix, the expansion is literal if the document begins otherwise and what fits begins with the prefix. -/
theorem tame_expands_iff (tame : (condensed data).Tame) (given : (condensed data).Given) :
    Expands data ↔ ¬ (condensed data).linePrefix <+: data ∧ ∀ line ∈ (data.splitOn 10).tail,
      Regex.fits (condensed data).linePrefix line = true → (condensed data).linePrefix <+: line := by
  obtain ⟨base, single⟩ := condensed_single data
  have parsed : Regex.parse (condensed data).pattern = some (Regex.dotted (condensed data).pattern) := by
    apply Regex.parse_dotted
    exact List.forall_mem_cons.mpr ⟨.inl (by decide), tame.dotted⟩
  have replaced : adjustSecondaryMediaData data =
      some (Regex.scan (condensed data).pattern (condensed data).format 0 data) := by
    rw [adjustSecondaryMediaData, if_pos given, parsed, Option.map_some]
    exact congrArg some (Regex.replace_dotted (List.cons_ne_nil _ _) tame.inert)
  have separate := Regex.mem_splitOn_single data
  have whole : [10].intercalate (data.splitOn 10) = data := List.intercalate_splitOn 10
  obtain ⟨first, lines, split⟩ := List.exists_cons_of_ne_nil (List.splitOn_ne_nil 10 data)
  rw [split] at separate whole
  obtain ⟨here, separate⟩ := List.forall_mem_cons.mp separate
  have format : 10 ∉ (condensed data).base ++ 47 :: (condensed data).linePrefix := by
    intro member
    rcases List.mem_append.mp member with left | right
    · exact base left
    · exact single ((List.mem_cons.mp right).resolve_left (by decide))
  have begins : (condensed data).linePrefix <+: data ↔ (condensed data).linePrefix <+: first := by
    have same := prefix_first single first lines
    rwa [whole] at same
  rw [Expands, replaced, if_pos given, Option.some_inj, Condensed.pattern, Condensed.format, Regex.scan_lines single split,
    Condensed.expand, split, List.map_cons, begins, List.tail_cons]
  rw [intercalate_inj (List.cons_ne_nil _ _) (List.cons_ne_nil _ _)
    (List.forall_mem_cons.mpr ⟨here, List.forall_mem_map.mpr fun line member => replaceLine_single format (separate line member)⟩)
    (List.forall_mem_cons.mpr ⟨expandLine_single base here,
      List.forall_mem_map.mpr fun line member => expandLine_single base (separate line member)⟩)]
  rw [List.cons.injEq, eq_comm, expandLine_eq_self_iff, List.map_inj_left]
  exact and_congr_right' (forall₂_congr fun line _ => replaceLine_eq_iff)

/-- An expression that matches nothing leaves the document alone. -/
theorem unmatched_expands_iff (unmatched : (condensed data).Unmatched data) (given : (condensed data).Given) :
    Expands data ↔ (Regex.parse (condensed data).pattern).isSome = true ∧
      ∀ line ∈ data.splitOn 10, ¬ (condensed data).linePrefix <+: line := by
  rw [Expands, adjustSecondaryMediaData, if_pos given, if_pos given, ← expand_eq_self_iff _ (condensed_single data).1]
  cases parsed : Regex.parse (condensed data).pattern with
  | none => exact iff_of_false (fun same => nomatch same) fun both => nomatch both.1
  | some regex =>
    rw [Option.map_some, Regex.replace_unmatched (unmatched regex parsed), Option.some_inj, Option.isSome_some,
      and_iff_right rfl, eq_comm]

/-- A document without a header is left alone. With one, the expansion is literal if there is nothing to expand or what
fits the prefix begins with it; of prefixes without other operators than dots, and where nothing matches, that is all. -/
theorem condensed_expands_iff (data : Bytes) :
    (¬ (condensed data).Given → Expands data) ∧ ((condensed data).Given →
      ((condensed data).Literal data → Expands data) ∧
      ((condensed data).Tame ∨ (condensed data).Unmatched data → Expands data → (condensed data).Literal data)) := by
  constructor
  · intro absent
    rw [Expands, adjustSecondaryMediaData, if_neg absent, if_neg absent]
  · intro given
    constructor
    · intro literal
      cases literal with
      | unused formed unmatched absent => exact (unmatched_expands_iff unmatched given).mpr ⟨formed, absent⟩
      | fitting tame first begins => exact (tame_expands_iff tame given).mpr ⟨first, begins⟩
    · intro settled expands
      rcases settled with tame | unmatched
      · obtain ⟨first, begins⟩ := (tame_expands_iff tame given).mp expands
        exact .fitting tame first begins
      · obtain ⟨formed, absent⟩ := (unmatched_expands_iff unmatched given).mp expands
        exact .unused formed unmatched absent

/-- Two lines with the prefix, and one without it. -/
def segmentPlaylist : Bytes :=
  ascii "#YT-EXT-CONDENSED-URL:BASE-URI=\"http://h\",PARAMS=\"a\",PREFIX=\"s/\"\ns/1\n#x\ns/2\n"

theorem segments_expanded : adjustSecondaryMediaData segmentPlaylist =
    some (ascii "#YT-EXT-CONDENSED-URL:BASE-URI=\"http://h\",PARAMS=\"a\",PREFIX=\"s/\"\nhttp://h/s/1\n#x\nhttp://h/s/2\n") := by
  have found : condensed segmentPlaylist = ⟨ascii "http://h", ascii "s/"⟩ := by decide +kernel
  have given : (condensed segmentPlaylist).Given := by
    rw [found]
    decide
  have literal : (condensed segmentPlaylist).Literal segmentPlaylist := by
    rw [found]
    apply Condensed.Literal.fitting
    · constructor
      · unfold Regex.Dotted
        decide +kernel
      · exact Regex.inert_of_absent (by decide +kernel)
    · rw [← List.isPrefixOf_iff_prefix]
      decide +kernel
    · have all : ∀ line ∈ (segmentPlaylist.splitOn 10).tail, Regex.fits (ascii "s/") line = true →
          (ascii "s/").isPrefixOf line = true := by decide +kernel
      intro line member fit
      exact List.isPrefixOf_iff_prefix.mp (all line member fit)
  have expands := ((condensed_expands_iff segmentPlaylist).2 given).1 literal
  rw [Expands, if_pos given, found] at expands
  rw [expands]
  decide +kernel

/-- The question mark makes the `v` optional, so that the line with the prefix is not found. -/
def queryPlaylist : Bytes := ascii "#YT-EXT-CONDENSED-URL:BASE-URI=\"h\",PARAMS=\"a\",PREFIX=\"v?i=\"\nv?i=1\n"

theorem query_not_expanded : ¬ ∀ data, Expands data := by
  intro all
  have expands := all queryPlaylist
  unfold Expands at expands
  revert expands
  decide +kernel

theorem rewriting_adjust (hlsparseMaster : Bytes → Option MasterPlaylist) :
    (rewriting hlsparseMaster).adjustSecondaryMediaData = adjustSecondaryMediaData := by
  with_reducible simp only [rewriting]

/-- What is kept of a document for a collected URI. -/
theorem secondary_kept {store : Store} {uri : Bytes} (secondary : store.Secondary uri) (expands : Expands data)
    (hlsparseMaster : Bytes → Option MasterPlaylist) (connected : Bool) :
    (store.processMediaData (rewriting hlsparseMaster) connected uri data).1.mediaData =
      (store.keep (uri, if (condensed data).Given then (condensed data).expand data else data)).mediaData := by
  unfold Expands at expands
  rw [← rewriting_adjust hlsparseMaster] at expands
  rw [processMediaData_secondary secondary expands, Store.nextRequest_mediaData]

end Documents

end Apsdk.MediaDataStore
