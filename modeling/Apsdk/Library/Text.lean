import Apsdk.Library.ByteOrder
import Mathlib.Order.Defs.LinearOrder
import Mathlib.Data.List.Lex

/-! Byte strings as texts: literals, their order, searching and replacing. -/

namespace Library

/-- The bytes of an ASCII literal. -/
def ascii (text : String) : Bytes := text.toList.map (fun char => UInt8.ofNat char.toNat)

instance linearOrderUInt8 : LinearOrder UInt8 where
  le_refl := UInt8.le_refl
  le_trans _ _ _ := UInt8.le_trans
  le_antisymm _ _ := UInt8.le_antisymm
  le_total := UInt8.le_total
  lt_iff_le_not_ge first second := by
    rw [UInt8.lt_iff_toNat_lt, UInt8.le_iff_toNat_le, UInt8.le_iff_toNat_le]
    omega
  toDecidableLE := inferInstance
  toDecidableEq := inferInstance
  toDecidableLT := inferInstance

/-- The offset just behind the first occurrence of `pattern`. -/
def endOfFirst (pattern : Bytes) : Bytes → Option Nat
  | [] => if pattern = [] then some 0 else none
  | byte :: rest =>
    if pattern.isPrefixOf (byte :: rest) then some pattern.length
    else (endOfFirst pattern rest).map (· + 1)

/-- The first occurrence ends the text up to the offset found. -/
theorem endOfFirst_suffix {pattern text : Bytes} {n : Nat} (found : endOfFirst pattern text = some n) :
    n ≤ text.length ∧ pattern <:+ text.take n := by
  induction text generalizing n with
  | nil =>
    simp only [endOfFirst] at found
    split_ifs at found with empty
    obtain rfl := Option.some.inj found
    exact ⟨le_rfl, by rw [empty]; exact List.nil_suffix⟩
  | cons byte rest ih =>
    simp only [endOfFirst] at found
    split_ifs at found with here
    · obtain rfl := Option.some.inj found
      have begins := List.isPrefixOf_iff_prefix.mp here
      exact ⟨begins.length_le, (List.prefix_iff_eq_take.mp begins) ▸ List.suffix_refl pattern⟩
    · obtain ⟨m, further, rfl⟩ := Option.map_eq_some_iff.mp found
      obtain ⟨bound, suffix⟩ := ih further
      refine ⟨Nat.succ_le_succ bound, ?_⟩
      rw [List.take_succ_cons]
      exact suffix.trans (List.suffix_cons byte _)

theorem endOfFirst_append {pattern text : Bytes} {n : Nat} (found : endOfFirst pattern text = some n) (later : Bytes) :
    endOfFirst pattern (text ++ later) = some n := by
  induction text generalizing n with
  | nil =>
    simp only [endOfFirst] at found
    split_ifs at found with empty
    subst empty
    obtain rfl := Option.some.inj found
    cases later <;> rfl
  | cons byte rest ih =>
    simp only [endOfFirst, List.cons_append] at found ⊢
    split_ifs at found with here
    · have still : pattern.isPrefixOf (byte :: (rest ++ later)) = true := by
        rw [List.isPrefixOf_iff_prefix] at here ⊢
        exact here.trans (List.prefix_append (byte :: rest) later)
      rw [if_pos still, found]
    · obtain ⟨m, further, rfl⟩ := Option.map_eq_some_iff.mp found
      -- A match across the end of the text would be shorter than the one already found.
      have absent : ¬ pattern.isPrefixOf (byte :: (rest ++ later)) := by
        intro still
        rw [List.isPrefixOf_iff_prefix] at here still
        obtain ⟨bound, suffix⟩ := endOfFirst_suffix further
        have short : pattern.length ≤ (byte :: rest).length :=
          (suffix.length_le.trans (List.length_take_le ..)).trans (bound.trans (Nat.le_succ _))
        exact here (List.prefix_of_prefix_length_le still (List.prefix_append (byte :: rest) later) short)
      rw [if_neg absent, ih further]
      rfl

/-- A match cannot begin in a stretch without the first byte of the pattern. -/
theorem endOfFirst_skip {first : UInt8} (pattern : Bytes) {stretch : Bytes} (absent : first ∉ stretch) (rest : Bytes) :
    endOfFirst (first :: pattern) (stretch ++ rest) = (endOfFirst (first :: pattern) rest).map (· + stretch.length) := by
  induction stretch with
  | nil => simp
  | cons byte stretch ih =>
    obtain ⟨differs, later⟩ := List.ne_and_not_mem_of_not_mem_cons absent
    have elsewhere : ¬ (first :: pattern).isPrefixOf (byte :: (stretch ++ rest)) := by
      simp [List.isPrefixOf, differs]
    rw [List.cons_append, endOfFirst, if_neg elsewhere, ih later, Option.map_map]
    exact congrArg (Option.map · _) (funext fun n => by simp [Nat.add_assoc])

/-- A text that ends in the pattern has a first occurrence of it. -/
theorem endOfFirst_of_suffix {pattern text : Bytes} (suffix : pattern <:+ text) :
    ∃ n, n ≤ text.length ∧ endOfFirst pattern text = some n := by
  induction text with
  | nil => exact ⟨0, le_rfl, by simp [endOfFirst, List.suffix_nil.mp suffix]⟩
  | cons byte rest ih =>
    simp only [endOfFirst]
    split
    next here => exact ⟨pattern.length, (List.isPrefixOf_iff_prefix.mp here).length_le, rfl⟩
    next elsewhere =>
      rcases List.suffix_cons_iff.mp suffix with same | later
      · exact absurd (List.isPrefixOf_iff_prefix.mpr (same ▸ List.prefix_refl _)) elsewhere
      · obtain ⟨n, bound, found⟩ := ih later
        exact ⟨n + 1, Nat.succ_le_succ bound, by simp [found]⟩

/-- The text up to the end of the first occurrence is ended by it. -/
theorem endOfFirst_take {pattern text : Bytes} {n : Nat} (found : endOfFirst pattern text = some n) :
    endOfFirst pattern (text.take n) = some (text.take n).length := by
  obtain ⟨bound, suffix⟩ := endOfFirst_suffix found
  obtain ⟨m, -, first⟩ := endOfFirst_of_suffix suffix
  have again := endOfFirst_append first (text.drop n)
  rw [List.take_append_drop, found] at again
  rw [first, ← Option.some.inj again, List.length_take_of_le bound]

/-- A number in decimal digits. -/
def decimal (n : Nat) : Bytes := (Nat.toDigits 10 n).map (fun digit => UInt8.ofNat digit.toNat)

theorem decimal_of_lt {n : Nat} (small : n < 10) : decimal n = [UInt8.ofNat (48 + n)] := by
  simp [decimal, Nat.toDigits_of_lt_base small, Nat.toNat_digitChar_of_lt_ten small]

theorem decimal_of_le {n : Nat} (large : 10 ≤ n) : decimal n = decimal (n / 10) ++ [UInt8.ofNat (48 + n % 10)] := by
  have small : n % 10 < 10 := Nat.mod_lt n (by decide)
  simp [decimal, Nat.toDigits_of_base_le (by decide) large, Nat.toNat_digitChar_of_lt_ten small]

/-- The digits of a number, the last one split off. -/
theorem decimal_induction {P : Nat → Bytes → Prop} (single : ∀ d < 10, P d [UInt8.ofNat (48 + d)])
    (snoc : ∀ n, ∀ d < 10, P n (decimal n) → P (n * 10 + d) (decimal n ++ [UInt8.ofNat (48 + d)])) (n : Nat) :
    P n (decimal n) := by
  induction n using Nat.strongRecOn with
  | _ n ih =>
    rcases Nat.lt_or_ge n 10 with small | large
    · exact decimal_of_lt small ▸ single n small
    · have next := snoc (n / 10) (n % 10) (Nat.mod_lt n (by decide)) (ih (n / 10) (by omega))
      rwa [Nat.mul_comm, Nat.div_add_mod, ← decimal_of_le large] at next

theorem decimal_length_le {n k : Nat} (fits : n < 10 ^ (k + 1)) : (decimal n).length ≤ k + 1 := by
  induction k generalizing n with
  | zero =>
    rw [decimal_of_lt (by simpa using fits)]
    exact le_rfl
  | succ k ih =>
    rcases Nat.lt_or_ge n 10 with small | large
    · rw [decimal_of_lt small, List.length_singleton]
      omega
    · rw [decimal_of_le large, List.length_append, List.length_singleton]
      have shorter : n / 10 < 10 ^ (k + 1) := Nat.div_lt_of_lt_mul (by rwa [Nat.mul_comm, ← Nat.pow_succ])
      exact Nat.add_le_add_right (ih shorter) 1

theorem decimal_ne_nil (n : Nat) : decimal n ≠ [] := by simp [decimal]

theorem decimal_digits (n : Nat) : ∀ byte ∈ decimal n, 48 ≤ byte.toNat ∧ byte.toNat ≤ 57 := by
  have digit : ∀ d < 10, 48 ≤ (UInt8.ofNat (48 + d)).toNat ∧ (UInt8.ofNat (48 + d)).toNat ≤ 57 := by decide
  apply decimal_induction (P := fun _ text => ∀ byte ∈ text, 48 ≤ byte.toNat ∧ byte.toNat ≤ 57)
  · intro d small
    simpa using digit d small
  · intro n d small ih byte member
    rcases List.mem_append.mp member with inside | last
    · exact ih byte inside
    · exact List.mem_singleton.mp last ▸ digit d small

theorem ascii_toString (n : Nat) : ascii (toString n) = decimal n := by
  rw [Nat.toString_eq_repr, ascii, Nat.toList_repr, decimal]

/-- The first word of a text. -/
theorem takeWhile_ne_append {stop : UInt8} {word : Bytes} (absent : stop ∉ word) (rest : Bytes) :
    (word ++ stop :: rest).takeWhile (· ≠ stop) = word := by
  have whole : ∀ byte ∈ word, decide (byte ≠ stop) = true := by
    intro byte member
    apply decide_eq_true
    rintro rfl
    exact absent member
  rw [List.takeWhile_append_of_pos whole]
  simp

def contains (pattern text : Bytes) : Bool := (endOfFirst pattern text).isSome

theorem mem_of_contains {pattern text : Bytes} (found : contains pattern text = true) {byte : UInt8} (member : byte ∈ pattern) :
    byte ∈ text := by
  obtain ⟨n, first⟩ := Option.isSome_iff_exists.mp found
  obtain ⟨-, suffix⟩ := endOfFirst_suffix first
  exact List.mem_of_mem_take (suffix.subset member)

theorem contains_append {pattern text : Bytes} (found : contains pattern text = true) (rest : Bytes) :
    contains pattern (text ++ rest) = true := by
  obtain ⟨n, first⟩ := Option.isSome_iff_exists.mp found
  rw [contains, endOfFirst_append first rest]
  rfl

/-- Replaces every match of one of the literals, from left to right. Inside a
match `skip` counts the bytes that are still part of it. -/
def replaceFrom (alternatives : List Bytes) (replacement : Bytes) : Nat → Bytes → Bytes
  | _, [] => []
  | skip + 1, _ :: rest => replaceFrom alternatives replacement skip rest
  | 0, byte :: rest =>
    match alternatives.find? (fun literal => literal.isPrefixOf (byte :: rest)) with
    | some literal => replacement ++ replaceFrom alternatives replacement (literal.length - 1) rest
    | none => byte :: replaceFrom alternatives replacement 0 rest

def replaceAll (alternatives : List Bytes) (replacement text : Bytes) : Bytes :=
  replaceFrom alternatives replacement 0 text

end Library
