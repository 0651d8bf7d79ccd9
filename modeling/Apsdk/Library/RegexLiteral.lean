import Apsdk.Library.RegexSyntax

/-! Patterns that consist of bytes and dots: what they match, and what replacing their
matches makes of a text. -/

namespace Library.Regex

def accepts (mark byte : UInt8) : Bool := if mark = DOT then byte ≠ 10 && byte ≠ 13 else byte == mark

/-- Whether a text begins like a pattern of bytes and dots. -/
def fits : Bytes → Bytes → Bool
  | [], _ => true
  | _ :: _, [] => false
  | mark :: pattern, byte :: text => accepts mark byte && fits pattern text

/-- The expression of such a pattern. -/
def dotted : Bytes → Regex
  | [] => .empty
  | mark :: pattern => .sequence (.set (accepts mark)) (dotted pattern)

def Dotted (pattern : Bytes) : Prop := ∀ byte ∈ pattern, ordinary byte = true ∨ byte = DOT

section Parsing
variable {pattern rest : Bytes} {byte mark : UInt8}

theorem dotted_plain (plain : ordinary byte = true ∨ byte = DOT) :
    byte ≠ '*'.toUInt8 ∧ byte ≠ '+'.toUInt8 ∧ byte ≠ '?'.toUInt8 ∧ byte ≠ 123 ∧ byte ≠ '|'.toUInt8 ∧ byte ≠ ')'.toUInt8 := by
  refine ⟨?_, ?_, ?_, ?_, ?_, ?_⟩
  all_goals
    rintro rfl
    revert plain
    decide

/-- Nothing that is ordinary is a quantifier. -/
theorem quantified_dotted (dots : Dotted rest) (before groups : Nat) (atom : Regex) :
    quantified before atom groups rest = some (atom, groups, rest) := by
  cases rest with
  | nil => rfl
  | cons byte rest =>
    obtain ⟨star, plus, optional, brace, -⟩ := dotted_plain (dots byte List.mem_cons_self)
    simp only [quantified, if_neg star, if_neg plus, if_neg optional, if_neg brace]

theorem term_dotted (plain : ordinary mark = true ∨ mark = DOT) (dots : Dotted rest) (fuel groups : Nat) :
    term (fuel + 1) groups mark rest = some (.set (accepts mark), groups, rest) := by
  unfold term
  by_cases dot : mark = DOT
  · have operator : ¬ ordinary DOT = true := by decide
    have same : Regex.any = .set (accepts DOT) := rfl
    rw [dot, if_neg operator, if_pos rfl, same]
    exact quantified_dotted dots _ _ _
  · have same : Regex.char mark = .set (accepts mark) := by
      refine congrArg Regex.set (funext fun byte => ?_)
      rw [accepts, if_neg dot]
    rw [if_pos (plain.resolve_right dot), same]
    exact quantified_dotted dots _ _ _

theorem alternative_dotted (dots : Dotted pattern) (groups : Nat) {fuel : Nat} (enough : pattern.length < fuel) :
    alternative fuel groups pattern = some (dotted pattern, groups, []) := by
  induction pattern generalizing fuel with
  | nil =>
    obtain ⟨fuel, rfl⟩ := Nat.exists_eq_add_of_le' enough
    rfl
  | cons mark pattern ih =>
    obtain ⟨plain, dots⟩ := List.forall_mem_cons.mp dots
    obtain ⟨fuel, rfl⟩ := Nat.exists_eq_add_of_le' (Nat.zero_lt_of_lt enough)
    rw [List.length_cons] at enough
    obtain ⟨smaller, rfl⟩ := Nat.exists_eq_add_of_le' (show 1 ≤ fuel by omega)
    obtain ⟨-, -, -, -, bar, close⟩ := dotted_plain plain
    unfold alternative
    rw [if_neg (not_or.mpr ⟨bar, close⟩), term_dotted plain dots]
    simp only [Option.bind_eq_bind, Option.bind_some]
    rw [ih dots (by omega)]
    rfl

theorem dotted_refersWithin (pattern : Bytes) (groups : Nat) : (dotted pattern).refersWithin groups = true := by
  induction pattern with
  | nil => rfl
  | cons mark pattern ih =>
    rw [dotted, refersWithin, ih]
    rfl

theorem parse_dotted (dots : Dotted pattern) : parse pattern = some (dotted pattern) := by
  have read : disjunction (3 * pattern.length + 3) 0 pattern = some (dotted pattern, 0, []) := by
    unfold disjunction
    rw [alternative_dotted dots 0 (by omega)]
    rfl
  unfold parse
  rw [read]
  simp only [Option.bind_eq_bind, Option.bind_some, dotted_refersWithin, and_self, if_true]

end Parsing

section Matching
variable {pattern text : Bytes}

theorem run_dotted (state : State) (next : State → Option State) :
    run text (dotted pattern) state next = if fits pattern (text.drop state.position) = true then
      next { state with position := state.position + pattern.length } else none := by
  induction pattern generalizing state with
  | nil => rfl
  | cons mark pattern ih =>
    have step : run text (dotted (mark :: pattern)) state next = if text[state.position]?.any (accepts mark) then
        run text (dotted pattern) { state with position := state.position + 1 } next else none := rfl
    rw [step]
    cases here : text[state.position]? with
    | none =>
      rw [List.drop_eq_nil_of_le (List.getElem?_eq_none_iff.mp here), fits]
      rfl
    | some byte =>
      obtain ⟨below, rfl⟩ := List.getElem?_eq_some_iff.mp here
      rw [List.drop_eq_getElem_cons below, fits, ih, Option.any_some, List.length_cons, Nat.add_assoc, Nat.add_comm 1]
      cases accepts mark text[state.position] with
      | true => rfl
      | false => rfl

theorem matchAt_dotted (filled : pattern ≠ []) (again : Bool) (position : Nat) :
    matchAt (dotted pattern) text again position = if fits pattern (text.drop position) = true then
      some ⟨position, position + pattern.length, fun _ => none⟩ else none := by
  have positive := List.length_pos_of_ne_nil filled
  rw [matchAt, run_dotted]
  split
  · have advanced : ¬ (again = true ∧ position + pattern.length = position) := fun both => by omega
    rw [if_neg advanced]
    rfl
  · rfl

end Matching

/-- Replaces what fits the pattern, from left to right; `skip` bytes still belong to a match. -/
def scan (pattern format : Bytes) : Nat → Bytes → Bytes
  | _, [] => []
  | skip + 1, _ :: rest => scan pattern format skip rest
  | 0, byte :: rest =>
    if fits pattern (byte :: rest) = true then format ++ scan pattern format (pattern.length - 1) rest
    else byte :: scan pattern format 0 rest

/-- A format without directives. -/
def Inert (format : Bytes) : Prop := ∀ rest, '$'.toUInt8 :: rest <:+ format → directive rest = none

theorem inert_of_absent {format : Bytes} (absent : '$'.toUInt8 ∉ format) : Inert format := by
  intro rest suffix
  exact absurd (suffix.subset List.mem_cons_self) absent

section Replacing
variable {pattern format text : Bytes}

theorem formatFrom_inert (inert : Inert format) (found : Match) (text : Bytes) (last : Nat) :
    formatFrom found text last 0 format = format := by
  induction format with
  | nil => rfl
  | cons byte rest ih =>
    have later : Inert rest := fun other suffix => inert other (suffix.trans (List.suffix_cons byte rest))
    unfold formatFrom
    by_cases dollar : byte = '$'.toUInt8
    · rw [if_pos dollar, inert rest (dollar ▸ List.suffix_refl _), ih later]
    · rw [if_neg dollar, ih later]

theorem scan_drop (skip : Nat) : scan pattern format skip text = scan pattern format 0 (text.drop skip) := by
  induction text generalizing skip with
  | nil => cases skip <;> rfl
  | cons byte rest ih =>
    cases skip with
    | zero => rfl
    | succ skip => exact ih skip

theorem fits_length (fit : fits pattern text = true) : pattern.length ≤ text.length := by
  induction pattern generalizing text with
  | nil => exact Nat.zero_le _
  | cons mark pattern ih =>
    cases text with
    | nil => cases fit
    | cons byte text => exact Nat.succ_le_succ (ih (Bool.and_eq_true_iff.mp fit).2)

theorem scan_fit (filled : pattern ≠ []) (fit : fits pattern text = true) :
    scan pattern format 0 text = format ++ scan pattern format 0 (text.drop pattern.length) := by
  have positive := List.length_pos_of_ne_nil filled
  cases text with
  | nil => exact absurd (fits_length fit) (Nat.not_le.mpr positive)
  | cons byte rest =>
    obtain ⟨count, size⟩ := Nat.exists_eq_add_of_le' positive
    rw [scan, if_pos fit, scan_drop, size]
    rfl

theorem slice_self (text : Bytes) (position : Nat) : slice text position position = [] := by
  rw [slice, Nat.sub_self, List.take_zero]

/-- The text up to a position ends with the byte in front of it. -/
theorem slice_succ {last position : Nat} (ordered : last ≤ position) (below : position < text.length) :
    slice text last (position + 1) = slice text last position ++ [text[position]] := by
  have inside : position - last < (text.drop last).length := by
    rw [List.length_drop]
    omega
  have here : (text.drop last)[position - last] = text[position] := by
    rw [List.getElem_drop]
    congr 1
    omega
  rw [slice, slice, Nat.sub_add_comm ordered, ← here, List.take_succ_eq_append_getElem inside]

/-- Replacing the matches from a position on. -/
theorem substitute_dotted (filled : pattern ≠ []) (inert : Inert format) {last position fuel count : Nat}
    (ordered : last ≤ position) (inside : position ≤ text.length) (rest : count = text.length + 1 - position)
    (enough : count ≤ fuel) :
    substitute format text last (matchesFrom (dotted pattern) text fuel (searchFrom (dotted pattern) text count position)) =
      slice text last position ++ scan pattern format 0 (text.drop position) := by
  have positive := List.length_pos_of_ne_nil filled
  induction count using Nat.strongRecOn generalizing last position fuel with
  | ind count ih =>
    obtain ⟨count, rfl⟩ := Nat.exists_eq_add_of_le' (show 1 ≤ count by omega)
    obtain ⟨fuel, rfl⟩ := Nat.exists_eq_add_of_le' (show 1 ≤ fuel by omega)
    rw [searchFrom, matchAt_dotted filled]
    by_cases fit : fits pattern (text.drop position) = true
    · have bound := fits_length fit
      rw [List.length_drop] at bound
      have next : following (dotted pattern) text ⟨position, position + pattern.length, fun _ => none⟩ =
          searchFrom (dotted pattern) text (text.length + 1 - (position + pattern.length)) (position + pattern.length) := by
        rw [following, if_neg (show ¬ position = position + pattern.length by omega)]
      have later := @ih (text.length + 1 - (position + pattern.length)) (by omega) _ _ fuel (Nat.le_refl (position + pattern.length))
        (by omega) rfl (by omega)
      rw [if_pos fit, Option.some_or, matchesFrom, substitute, next, formatFrom_inert inert]
      dsimp only
      rw [later, slice_self, scan_fit filled fit, List.drop_drop, List.nil_append, List.append_assoc]
    · rw [if_neg fit, Option.none_or]
      by_cases more : position < text.length
      · rw [ih count (by omega) (by omega) more (by omega) (by omega), slice_succ ordered more,
          List.drop_eq_getElem_cons more, List.append_assoc]
        rw [List.drop_eq_getElem_cons more] at fit
        rw [scan, if_neg fit]
        rfl
      · obtain rfl : position = text.length := by omega
        obtain rfl : count = 0 := by omega
        have whole : slice text last text.length = text.drop last := by
          rw [slice, List.take_of_length_le (by rw [List.length_drop])]
        rw [searchFrom, matchesFrom, substitute, whole, List.drop_length, scan, List.append_nil]
        exact Nat.succ_ne_zero fuel

/-- Replacing the matches of bytes and dots. -/
theorem replace_dotted (filled : pattern ≠ []) (inert : Inert format) :
    (dotted pattern).replace format text = scan pattern format 0 text := by
  have all := substitute_dotted filled inert (Nat.le_refl 0) (Nat.zero_le text.length) (Nat.sub_zero (text.length + 1)).symm
    (show text.length + 1 ≤ 2 * text.length + 2 by omega)
  rw [slice_self] at all
  exact all

theorem replace_unmatched {regex : Regex} (absent : regex.search text = none) : regex.replace format text = text := by
  rw [replace, allMatches, absent]
  rfl

end Replacing

section Lines
variable {pattern format first line rest : Bytes} {lines : List Bytes}

theorem accepts_newline {mark : UInt8} (other : mark ≠ 10) : accepts mark 10 = false := by
  unfold accepts
  split
  · rfl
  · exact beq_false_of_ne other.symm

/-- What fits at the beginning of a line is in the line. -/
theorem fits_line (single : 10 ∉ pattern) (ends : rest = [] ∨ rest.head? = some 10) :
    fits pattern (line ++ rest) = fits pattern line := by
  induction pattern generalizing line with
  | nil => rfl
  | cons mark pattern ih =>
    obtain ⟨other, single⟩ := List.ne_and_not_mem_of_not_mem_cons single
    cases line with
    | cons byte line => exact congrArg (accepts mark byte && ·) (ih single)
    | nil =>
      cases rest with
      | nil => rfl
      | cons byte rest =>
        obtain rfl : byte = 10 := Option.some.inj (ends.resolve_left (List.cons_ne_nil byte rest))
        rw [List.nil_append, fits, fits, accepts_newline other.symm, Bool.false_and]

theorem scan_line (single : 10 ∉ line) :
    scan (10 :: pattern) format 0 (line ++ rest) = line ++ scan (10 :: pattern) format 0 rest := by
  induction line with
  | nil => rfl
  | cons byte line ih =>
    obtain ⟨other, single⟩ := List.ne_and_not_mem_of_not_mem_cons single
    have absent : fits (10 :: pattern) (byte :: (line ++ rest)) = false := by
      have rejected : accepts 10 byte = false := beq_false_of_ne other.symm
      rw [fits, rejected, Bool.false_and]
    rw [List.cons_append, scan, absent, if_neg Bool.false_ne_true, ih single]
    rfl

/-- What follows the first of some lines. -/
def behindFirst (lines : List Bytes) : Bytes := lines.flatMap fun line => 10 :: line

theorem intercalate_lines (first : Bytes) (lines : List Bytes) : [10].intercalate (first :: lines) = first ++ behindFirst lines := by
  induction lines generalizing first with
  | nil => rw [List.intercalate_singleton, behindFirst, List.flatMap_nil, List.append_nil]
  | cons second lines ih =>
    rw [List.intercalate_cons_cons, ih, List.append_assoc]
    rfl

theorem behindFirst_head (lines : List Bytes) : behindFirst lines = [] ∨ (behindFirst lines).head? = some 10 := by
  cases lines with
  | nil => exact .inl rfl
  | cons line lines => exact .inr rfl

/-- A line in which a pattern at its beginning is replaced. -/
def replaceLine (pattern format line : Bytes) : Bytes :=
  if fits pattern line = true then format ++ line.drop pattern.length else line

theorem scan_behindFirst (single : 10 ∉ pattern) (separate : ∀ line ∈ lines, 10 ∉ line) :
    scan (10 :: pattern) (10 :: format) 0 (behindFirst lines) = behindFirst (lines.map (replaceLine pattern format)) := by
  induction lines with
  | nil => rfl
  | cons line lines ih =>
    obtain ⟨here, separate⟩ := List.forall_mem_cons.mp separate
    have split : behindFirst (line :: lines) = 10 :: (line ++ behindFirst lines) := rfl
    have begins : fits (10 :: pattern) (10 :: (line ++ behindFirst lines)) = fits pattern line := by
      rw [fits, fits_line single (behindFirst_head lines)]
      rfl
    have joined : behindFirst ((line :: lines).map (replaceLine pattern format)) =
        10 :: (replaceLine pattern format line ++ behindFirst (lines.map (replaceLine pattern format))) := rfl
    rw [split, joined, replaceLine]
    by_cases fit : fits pattern line = true
    · have below := fits_length fit
      have remains : 10 ∉ line.drop pattern.length := fun member => here (List.mem_of_mem_drop member)
      rw [scan_fit (List.cons_ne_nil 10 pattern) (begins.trans fit), if_pos fit, List.length_cons, List.drop_succ_cons,
        List.drop_append_of_le_length below, scan_line remains, ih separate, List.cons_append, List.append_assoc]
    · rw [scan, begins, if_neg fit, if_neg fit, scan_line here, ih separate]

theorem mem_splitOn_single (text : Bytes) : ∀ line ∈ text.splitOn 10, 10 ∉ line := by
  induction text with
  | nil =>
    intro line member
    rw [List.splitOn_nil, List.mem_singleton] at member
    rw [member]
    exact List.not_mem_nil
  | cons byte text ih =>
    rw [List.splitOn_cons_eq_if_modifyHead]
    split
    · exact List.forall_mem_cons.mpr ⟨List.not_mem_nil, ih⟩
    · rename_i other
      obtain ⟨first, lines, split⟩ := List.exists_cons_of_ne_nil (List.splitOn_ne_nil 10 text)
      rw [split] at ih ⊢
      obtain ⟨here, later⟩ := List.forall_mem_cons.mp ih
      refine List.forall_mem_cons.mpr ⟨?_, later⟩
      exact List.not_mem_cons_of_ne_of_not_mem (fun same => other (beq_iff_eq.mpr same.symm)) here

/-- Replacing a pattern behind the ends of lines. -/
theorem scan_lines (single : 10 ∉ pattern) {text : Bytes} (split : text.splitOn 10 = first :: lines) :
    scan (10 :: pattern) (10 :: format) 0 text = [10].intercalate (first :: lines.map (replaceLine pattern format)) := by
  have separate := mem_splitOn_single text
  rw [split] at separate
  obtain ⟨here, separate⟩ := List.forall_mem_cons.mp separate
  have whole : [10].intercalate (text.splitOn 10) = text := List.intercalate_splitOn 10
  rw [split, intercalate_lines] at whole
  rw [← whole, scan_line here, scan_behindFirst single separate, intercalate_lines]

end Lines

end Library.Regex
