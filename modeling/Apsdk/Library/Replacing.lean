import Apsdk.Library.Text

/-! Replacing literals in a text, from left to right: what is replaced, how often, and
what that does to the size of the text. -/

namespace Library

/-- The literal that is replaced at the beginning of a text. -/
def matchAt (alternatives : List Bytes) (text : Bytes) : Option Bytes :=
  alternatives.find? fun literal => literal.isPrefixOf text

/-- The number of literals that `replaceFrom` replaces. -/
def matchesFrom (alternatives : List Bytes) : Nat → Bytes → Nat
  | _, [] => 0
  | skip + 1, _ :: rest => matchesFrom alternatives skip rest
  | 0, byte :: rest =>
    match matchAt alternatives (byte :: rest) with
    | some literal => matchesFrom alternatives (literal.length - 1) rest + 1
    | none => matchesFrom alternatives 0 rest

def matchesIn (alternatives : List Bytes) (text : Bytes) : Nat := matchesFrom alternatives 0 text

section Steps
variable {alternatives : List Bytes} {replacement literal rest text : Bytes} {byte : UInt8}

theorem replaceFrom_drop (skip : Nat) : replaceFrom alternatives replacement skip text =
    replaceAll alternatives replacement (text.drop skip) := by
  induction text generalizing skip with
  | nil => cases skip <;> rfl
  | cons byte rest ih =>
    cases skip with
    | zero => rfl
    | succ skip => exact ih skip

theorem matchesFrom_drop (skip : Nat) : matchesFrom alternatives skip text = matchesIn alternatives (text.drop skip) := by
  induction text generalizing skip with
  | nil => cases skip <;> rfl
  | cons byte rest ih =>
    cases skip with
    | zero => rfl
    | succ skip => exact ih skip

theorem matchAt_mem (found : matchAt alternatives text = some literal) : literal ∈ alternatives ∧ literal <+: text := by
  unfold matchAt at found
  have begins : literal.isPrefixOf text = true := by simpa only using List.find?_some found
  exact ⟨List.mem_of_find?_eq_some found, List.isPrefixOf_iff_prefix.mp begins⟩

/-- Where no literal begins with another one, a text begins with one of them at most. -/
theorem matchAt_append (free : ∀ first ∈ alternatives, ∀ second ∈ alternatives, first <+: second → first = second)
    (member : literal ∈ alternatives) (rest : Bytes) : matchAt alternatives (literal ++ rest) = some literal := by
  cases found : matchAt alternatives (literal ++ rest) with
  | none =>
    have absent := List.find?_eq_none.mp found literal member
    exact absurd (List.isPrefixOf_iff_prefix.mpr (List.prefix_append literal rest)) absent
  | some other =>
    obtain ⟨inside, begins⟩ := matchAt_mem found
    cases List.prefix_or_prefix_of_prefix begins (List.prefix_append literal rest) with
    | inl shorter => rw [free other inside literal member shorter]
    | inr longer => rw [free literal member other inside longer]

theorem replaceAll_match (filled : literal ≠ []) (found : matchAt alternatives (literal ++ rest) = some literal) :
    replaceAll alternatives replacement (literal ++ rest) = replacement ++ replaceAll alternatives replacement rest := by
  cases literal with
  | nil => exact absurd rfl filled
  | cons byte tail =>
    have step : replaceAll alternatives replacement (byte :: (tail ++ rest)) =
        replacement ++ replaceFrom alternatives replacement ((byte :: tail).length - 1) (tail ++ rest) := by
      rw [replaceAll, replaceFrom]
      rw [show alternatives.find? (fun literal => literal.isPrefixOf (byte :: (tail ++ rest))) = some (byte :: tail) from found]
    rw [List.cons_append, step, replaceFrom_drop, List.length_cons, Nat.add_sub_cancel, List.drop_left]

theorem matchesIn_match (filled : literal ≠ []) (found : matchAt alternatives (literal ++ rest) = some literal) :
    matchesIn alternatives (literal ++ rest) = matchesIn alternatives rest + 1 := by
  cases literal with
  | nil => exact absurd rfl filled
  | cons byte tail =>
    have step : matchesIn alternatives (byte :: (tail ++ rest)) =
        matchesFrom alternatives ((byte :: tail).length - 1) (tail ++ rest) + 1 := by
      rw [matchesIn, matchesFrom]
      rw [show matchAt alternatives (byte :: (tail ++ rest)) = some (byte :: tail) from found]
    rw [List.cons_append, step, matchesFrom_drop, List.length_cons, Nat.add_sub_cancel, List.drop_left]

theorem replaceAll_byte (absent : matchAt alternatives (byte :: rest) = none) :
    replaceAll alternatives replacement (byte :: rest) = byte :: replaceAll alternatives replacement rest := by
  rw [replaceAll, replaceFrom]
  rw [show alternatives.find? (fun literal => literal.isPrefixOf (byte :: rest)) = none from absent]
  rfl

theorem matchesIn_byte (absent : matchAt alternatives (byte :: rest) = none) :
    matchesIn alternatives (byte :: rest) = matchesIn alternatives rest := by
  rw [matchesIn, matchesFrom, absent]
  rfl

end Steps

section Replacing
variable {alternatives : List Bytes} (solid : ∀ literal ∈ alternatives, literal ≠ [])
include solid

/-- A text is read as the replacement goes through it: literal by literal, and byte by byte between them. -/
theorem replace_induction {P : Bytes → Prop} (nil : P [])
    (match_ : ∀ literal rest, literal ∈ alternatives → matchAt alternatives (literal ++ rest) = some literal → P rest →
      P (literal ++ rest))
    (byte : ∀ byte rest, matchAt alternatives (byte :: rest) = none → P rest → P (byte :: rest)) (text : Bytes) : P text := by
  induction size : text.length using Nat.strongRecOn generalizing text with
  | ind size_ ih =>
    cases text with
    | nil => exact nil
    | cons first rest =>
      cases found : matchAt alternatives (first :: rest) with
      | none =>
        apply byte first rest found
        apply ih rest.length _ rest rfl
        rw [← size]
        exact Nat.lt_succ_self _
      | some literal =>
        obtain ⟨member, later, same⟩ := matchAt_mem found
        have positive := List.length_pos_of_ne_nil (solid literal member)
        rw [← same] at found size ⊢
        apply match_ literal later member found
        apply ih later.length _ later rfl
        rw [← size, List.length_append]
        omega

/-- What adds up over a text changes by the same amount with each literal that is replaced, if all literals have the same of it. -/
theorem measure_replaceAll {measure : Bytes → Nat} (additive : ∀ first second, measure (first ++ second) = measure first + measure second)
    {size : Nat} (same : ∀ literal ∈ alternatives, measure literal = size) (replacement text : Bytes) :
    measure (replaceAll alternatives replacement text) + matchesIn alternatives text * size =
      measure text + matchesIn alternatives text * measure replacement := by
  induction text using replace_induction solid with
  | nil =>
    show measure [] + 0 * size = measure [] + 0 * measure replacement
    rw [Nat.zero_mul, Nat.zero_mul]
  | match_ literal rest member found ih =>
    rw [replaceAll_match (solid literal member) found, matchesIn_match (solid literal member) found, additive, additive,
      same literal member, Nat.add_one_mul, Nat.add_one_mul]
    omega
  | byte byte rest absent ih =>
    have split := additive [byte] rest
    have split' := additive [byte] (replaceAll alternatives replacement rest)
    rw [replaceAll_byte absent, matchesIn_byte absent]
    simp only [List.singleton_append] at split split'
    omega

theorem length_replaceAll {size : Nat} (same : ∀ literal ∈ alternatives, literal.length = size) (replacement text : Bytes) :
    (replaceAll alternatives replacement text).length + matchesIn alternatives text * size =
      text.length + matchesIn alternatives text * replacement.length :=
  measure_replaceAll solid (fun _ _ => List.length_append) same replacement text

theorem count_replaceAll (byte : UInt8) (size : Nat) (same : ∀ literal ∈ alternatives, literal.count byte = size)
    (replacement text : Bytes) :
    (replaceAll alternatives replacement text).count byte + matchesIn alternatives text * size =
      text.count byte + matchesIn alternatives text * replacement.count byte :=
  measure_replaceAll solid (fun _ _ => List.count_append) same replacement text

theorem replaceAll_of_none {text : Bytes} (none_ : matchesIn alternatives text = 0) (replacement : Bytes) :
    replaceAll alternatives replacement text = text := by
  induction text using replace_induction solid with
  | nil => rfl
  | match_ literal rest member found ih =>
    rw [matchesIn_match (solid literal member) found] at none_
    cases none_
  | byte byte rest absent ih =>
    rw [matchesIn_byte absent] at none_
    rw [replaceAll_byte absent, ih none_]

/-- The first literal that is replaced. -/
theorem replaceAll_of_succ {text : Bytes} {count : Nat} (some_ : matchesIn alternatives text = count + 1) :
    ∃ before literal after, literal ∈ alternatives ∧ text = before ++ literal ++ after ∧ matchesIn alternatives after = count ∧
      ∀ replacement, replaceAll alternatives replacement text =
        before ++ replacement ++ replaceAll alternatives replacement after := by
  induction text using replace_induction solid with
  | nil => cases some_
  | match_ literal rest member found ih =>
    rw [matchesIn_match (solid literal member) found] at some_
    exact ⟨[], literal, rest, member, rfl, Nat.succ.inj some_, fun _ => replaceAll_match (solid literal member) found⟩
  | byte byte rest absent ih =>
    rw [matchesIn_byte absent] at some_
    obtain ⟨before, literal, after, member, rfl, later, replaced⟩ := ih some_
    refine ⟨byte :: before, literal, after, member, rfl, later, fun replacement => ?_⟩
    rw [replaceAll_byte absent, replaced]
    rfl

theorem matchesIn_eq_zero_iff (text : Bytes) :
    matchesIn alternatives text = 0 ↔ ∀ literal ∈ alternatives, contains literal text = false := by
  induction text using replace_induction solid with
  | nil =>
    refine iff_of_true rfl fun literal member => ?_
    rw [contains, endOfFirst, if_neg (solid literal member)]
    rfl
  | match_ literal rest member found ih =>
    rw [matchesIn_match (solid literal member) found]
    refine iff_of_false (Nat.succ_ne_zero _) fun all => ?_
    obtain ⟨n, -, here⟩ := endOfFirst_of_suffix (List.suffix_refl literal)
    have absent := all literal member
    rw [contains_append (Option.isSome_of_eq_some here) rest] at absent
    cases absent
  | byte byte rest absent ih =>
    rw [matchesIn_byte absent, ih]
    refine forall₂_congr fun literal member => ?_
    have elsewhere : ¬ literal.isPrefixOf (byte :: rest) = true := List.find?_eq_none.mp absent literal member
    rw [contains, contains, endOfFirst, if_neg elsewhere, Option.isSome_map]

end Replacing

section Stretches
variable {alternatives : List Bytes} {stretch : Bytes}

/-- Nothing that is replaced begins in the stretch. -/
def Apart (alternatives : List Bytes) (stretch : Bytes) : Prop :=
  ∀ byte ∈ stretch, ∀ literal ∈ alternatives, literal ≠ [] ∧ literal.head? ≠ some byte

instance (alternatives : List Bytes) (stretch : Bytes) : Decidable (Apart alternatives stretch) :=
  inferInstanceAs (Decidable (∀ byte ∈ stretch, ∀ literal ∈ alternatives, literal ≠ [] ∧ literal.head? ≠ some byte))

theorem matchAt_apart {byte : UInt8} (apart : ∀ literal ∈ alternatives, literal ≠ [] ∧ literal.head? ≠ some byte) (rest : Bytes) :
    matchAt alternatives (byte :: rest) = none := by
  refine List.find?_eq_none.mpr fun literal member begins => ?_
  obtain ⟨filled, differs⟩ := apart literal member
  cases literal with
  | nil => exact absurd rfl filled
  | cons first tail =>
    obtain ⟨later, same⟩ := List.isPrefixOf_iff_prefix.mp begins
    exact differs (congrArg some (List.cons.inj same).1)

theorem replaceAll_stretch (apart : Apart alternatives stretch) (replacement rest : Bytes) :
    replaceAll alternatives replacement (stretch ++ rest) = stretch ++ replaceAll alternatives replacement rest := by
  induction stretch with
  | nil => rfl
  | cons byte stretch ih =>
    obtain ⟨here, later⟩ := List.forall_mem_cons.mp apart
    rw [List.cons_append, replaceAll_byte (matchAt_apart here _), ih later]
    rfl

theorem matchesIn_stretch (apart : Apart alternatives stretch) (rest : Bytes) :
    matchesIn alternatives (stretch ++ rest) = matchesIn alternatives rest := by
  induction stretch with
  | nil => rfl
  | cons byte stretch ih =>
    obtain ⟨here, later⟩ := List.forall_mem_cons.mp apart
    rw [List.cons_append, matchesIn_byte (matchAt_apart here _), ih later]

end Stretches

section Surviving
variable {alternatives : List Bytes} {replacement text : Bytes} {byte : UInt8}

/-- A byte that no literal has is not replaced. -/
theorem mem_replaceAll (solid : ∀ literal ∈ alternatives, literal ≠ []) (foreign : ∀ literal ∈ alternatives, byte ∉ literal)
    (member : byte ∈ text) : byte ∈ replaceAll alternatives replacement text := by
  induction text using replace_induction solid with
  | nil => cases member
  | match_ literal rest inside found ih =>
    rw [replaceAll_match (solid literal inside) found]
    apply List.mem_append_right
    exact ih ((List.mem_append.mp member).resolve_left (foreign literal inside))
  | byte first rest absent ih =>
    rw [replaceAll_byte absent]
    cases List.mem_cons.mp member with
    | inl here => exact here ▸ List.mem_cons_self
    | inr later => exact List.mem_cons_of_mem _ (ih later)

end Surviving

section Stops
variable {alternatives : List Bytes} {replacement text front rest : Bytes} {stop : UInt8}

/-- A literal does not reach over a byte that it has not. -/
theorem isPrefixOf_stop {literal : Bytes} (foreign : stop ∉ literal) (front rest : Bytes) :
    literal.isPrefixOf (front ++ stop :: rest) = literal.isPrefixOf front := by
  induction literal generalizing front with
  | nil => rfl
  | cons byte literal ih =>
    obtain ⟨other, others⟩ := not_or.mp (List.mem_cons.not.mp foreign)
    cases front with
    | nil =>
      have differs : (byte == stop) = false := beq_false_of_ne (Ne.symm other)
      simp [List.isPrefixOf, differs]
    | cons first front => simp only [List.cons_append, List.isPrefixOf, ih others]

theorem matchAt_stop (foreign : ∀ literal ∈ alternatives, stop ∉ literal) (front rest : Bytes) :
    matchAt alternatives (front ++ stop :: rest) = matchAt alternatives front := by
  induction alternatives with
  | nil => rfl
  | cons literal alternatives ih =>
    obtain ⟨here, others⟩ := List.forall_mem_cons.mp foreign
    have later := ih others
    unfold matchAt at later ⊢
    rw [List.find?_cons, List.find?_cons, isPrefixOf_stop here, later]

variable (solid : ∀ literal ∈ alternatives, literal ≠ [])
include solid

/-- A text is replaced piece by piece. -/
theorem replaceAll_stop (foreign : ∀ literal ∈ alternatives, stop ∉ literal) (front rest : Bytes) :
    replaceAll alternatives replacement (front ++ stop :: rest) =
      replaceAll alternatives replacement front ++ stop :: replaceAll alternatives replacement rest := by
  induction front using replace_induction solid with
  | nil =>
    have absent : matchAt alternatives (stop :: rest) = none := by
      rw [← List.nil_append (stop :: rest), matchAt_stop foreign]
      refine List.find?_eq_none.mpr fun literal member begins => ?_
      exact solid literal member (List.eq_nil_of_prefix_nil (List.isPrefixOf_iff_prefix.mp begins))
    exact replaceAll_byte absent
  | match_ literal later member found ih =>
    have found' : matchAt alternatives (literal ++ (later ++ stop :: rest)) = some literal := by
      rw [← List.append_assoc, matchAt_stop foreign, found]
    rw [replaceAll_match (solid literal member) found, List.append_assoc, replaceAll_match (solid literal member) found', ih,
      List.append_assoc]
  | byte byte later absent ih =>
    have absent' : matchAt alternatives (byte :: (later ++ stop :: rest)) = none := by
      rw [← List.cons_append, matchAt_stop foreign, absent]
    rw [replaceAll_byte absent, List.cons_append, replaceAll_byte absent', ih, List.cons_append]

/-- What is there comes from the text or from the replacement. -/
theorem of_mem_replaceAll {byte : UInt8} (member : byte ∈ replaceAll alternatives replacement text) :
    byte ∈ text ∨ byte ∈ replacement := by
  induction text using replace_induction solid with
  | nil => cases member
  | match_ literal later inside found ih =>
    rw [replaceAll_match (solid literal inside) found] at member
    rcases List.mem_append.mp member with here | there
    · exact .inr here
    · exact (ih there).imp_left (List.mem_append_right literal)
  | byte first later absent ih =>
    rw [replaceAll_byte absent] at member
    rcases List.mem_cons.mp member with rfl | there
    · exact .inl List.mem_cons_self
    · exact (ih there).imp_left (List.mem_cons_of_mem first)

theorem replaceAll_ne_nil (filled : replacement ≠ []) (some : text ≠ []) : replaceAll alternatives replacement text ≠ [] := by
  induction text using replace_induction solid with
  | nil => exact absurd rfl some
  | match_ literal later inside found ih =>
    rw [replaceAll_match (solid literal inside) found]
    exact List.append_ne_nil_of_left_ne_nil filled _
  | byte first later absent ih =>
    rw [replaceAll_byte absent]
    exact List.cons_ne_nil _ _

/-- A byte that neither the literals nor the replacement have comes last only where it came last before. -/
theorem getLast?_of_replaceAll (filled : replacement ≠ []) (foreign : stop ∉ replacement)
    (last : (replaceAll alternatives replacement text).getLast? = some stop) : text.getLast? = some stop := by
  induction text using replace_induction solid with
  | nil => cases last
  | match_ literal later inside found ih =>
    rw [replaceAll_match (solid literal inside) found] at last
    by_cases empty : later = []
    · have nothing : replaceAll alternatives replacement later = [] := by
        rw [empty]
        rfl
      rw [nothing, List.append_nil] at last
      exact absurd (List.mem_of_getLast? last) foreign
    · have behind := replaceAll_ne_nil solid filled empty
      rw [List.getLast?_append_of_ne_nil _ behind] at last
      rw [List.getLast?_append_of_ne_nil _ empty, ih last]
  | byte first later absent ih =>
    rw [replaceAll_byte absent] at last
    by_cases empty : later = []
    · rw [empty] at last ⊢
      exact last
    · have behind := replaceAll_ne_nil solid filled empty
      rw [← List.singleton_append, List.getLast?_append_of_ne_nil _ behind] at last
      rw [← List.singleton_append, List.getLast?_append_of_ne_nil _ empty, ih last]

end Stops

end Library
