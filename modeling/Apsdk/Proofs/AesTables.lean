import Apsdk.AesCore

/-! What the tables of the AES core hold: words made of the columns into which a single
byte is mixed. -/

namespace Apsdk.AesCore
open Library Rijndael

/-- A byte as a word. -/
def wide (byte : UInt8) : U32 := BitVec.ofNat 64 byte.toNat

/-- A column as a word, its first byte the highest. -/
def load (column : Column) : U32 :=
  (wide column.b0 <<< 24) ^^^ (wide column.b1 <<< 16) ^^^ (wide column.b2 <<< 8) ^^^ wide column.b3

section Bits

theorem testBit_above (byte : UInt8) {i : Nat} (high : 8 ≤ i) : byte.toNat.testBit i = false := by
  apply Nat.testBit_lt_two_pow
  calc byte.toNat < 2 ^ 8 := byte.toNat_lt
    _ ≤ 2 ^ i := Nat.pow_le_pow_right (by decide) high

@[simp] theorem getLsbD_wide (byte : UInt8) (i : Nat) : (wide byte).getLsbD i = byte.toNat.testBit i := by
  rw [wide, BitVec.getLsbD_ofNat]
  by_cases low : i < 64
  · simp [low]
  · simp [low, testBit_above byte (show 8 ≤ i by omega)]

@[simp] theorem toNat_wide (byte : UInt8) : (wide byte).toNat = byte.toNat := by
  have small := byte.toNat_lt
  rw [wide, BitVec.toNat_ofNat, Nat.mod_eq_of_lt (by omega)]

theorem wide_xor (first second : UInt8) : wide (first ^^^ second) = wide first ^^^ wide second := by
  apply BitVec.eq_of_getLsbD_eq
  intro i _
  rw [BitVec.getLsbD_xor, getLsbD_wide, getLsbD_wide, getLsbD_wide, UInt8.toNat_xor, Nat.testBit_xor]

theorem load_add (first second : Column) : load (first.add second) = load first ^^^ load second := by
  have shifted : ∀ (left right : UInt8) (n : Nat),
      wide (left ^^^ right) <<< n = (wide left <<< n) ^^^ (wide right <<< n) := by
    intro left right n
    rw [wide_xor, BitVec.shiftLeft_xor_distrib]
  have regrouped : ∀ a b c d a' b' c' d' : U32,
      (a ^^^ a') ^^^ (b ^^^ b') ^^^ (c ^^^ c') ^^^ (d ^^^ d') = (a ^^^ b ^^^ c ^^^ d) ^^^ (a' ^^^ b' ^^^ c' ^^^ d') := by
    intro a b c d a' b' c' d'
    ac_rfl
  rw [load, load, load, Column.add, shifted, shifted, shifted, wide_xor]
  exact regrouped _ _ _ _ _ _ _ _

/-- The bits of a word are those of its bytes. -/
theorem getLsbD_load (column : Column) (i : Nat) :
    (load column).getLsbD i =
      if i < 8 then column.b3.toNat.testBit i else if i < 16 then column.b2.toNat.testBit (i - 8)
      else if i < 24 then column.b1.toNat.testBit (i - 16) else column.b0.toNat.testBit (i - 24) := by
  simp only [load, BitVec.getLsbD_xor, BitVec.getLsbD_shiftLeft, getLsbD_wide]
  rcases lt_or_ge i 8 with low | high8
  · simp [low, show i < 16 by omega, show i < 24 by omega]
  rw [if_neg (by omega), testBit_above column.b3 high8]
  rcases lt_or_ge i 16 with low | high16
  · simp [low, show i < 24 by omega, show i < 64 by omega, show ¬ i < 8 by omega]
  rw [if_neg (by omega), testBit_above column.b2 (show 8 ≤ i - 8 by omega)]
  rcases lt_or_ge i 24 with low | high24
  · simp [low, show i < 64 by omega, show ¬ i < 16 by omega]
  rw [if_neg (by omega), testBit_above column.b1 (show 8 ≤ i - 16 by omega)]
  by_cases low : i < 64
  · simp [low, show ¬ i < 24 by omega]
  · simp [low, testBit_above column.b0 (show 8 ≤ i - 24 by omega)]

theorem load_byte0 (column : Column) : load column >>> 24 = wide column.b0 := by
  apply BitVec.eq_of_getLsbD_eq
  intro i _
  rw [BitVec.getLsbD_ushiftRight, getLsbD_load, if_neg (by omega), if_neg (by omega), if_neg (by omega), getLsbD_wide,
    Nat.add_sub_cancel_left]

/-- The lowest byte of a word. -/
theorem getLsbD_low (word : U32) (i : Nat) : (word &&& 0xff).getLsbD i = (word.getLsbD i && decide (i < 8)) := by
  rw [BitVec.getLsbD_and]
  congr 1
  have mask : (0xff : U32) = BitVec.ofNat 64 (2 ^ 8 - 1) := rfl
  rw [mask, BitVec.getLsbD_ofNat, Nat.testBit_two_pow_sub_one]
  by_cases low : i < 8
  · simp [low, show i < 64 by omega]
  · simp [low]

theorem low_eq_wide {word : U32} {byte : UInt8}
    (bits : ∀ i, i < 8 → word.getLsbD i = byte.toNat.testBit i) : word &&& 0xff = wide byte := by
  apply BitVec.eq_of_getLsbD_eq
  intro i _
  rw [getLsbD_low, getLsbD_wide]
  by_cases low : i < 8
  · rw [bits i low, decide_eq_true low, Bool.and_true]
  · rw [decide_eq_false low, Bool.and_false, testBit_above byte (by omega)]

theorem load_byte1 (column : Column) : (load column >>> 16) &&& 0xff = wide column.b1 := by
  apply low_eq_wide
  intro i low
  rw [BitVec.getLsbD_ushiftRight, getLsbD_load, if_neg (by omega), if_neg (by omega), if_pos (by omega),
    Nat.add_sub_cancel_left]

theorem load_byte2 (column : Column) : (load column >>> 8) &&& 0xff = wide column.b2 := by
  apply low_eq_wide
  intro i low
  rw [BitVec.getLsbD_ushiftRight, getLsbD_load, if_neg (by omega), if_pos (by omega), Nat.add_sub_cancel_left]

theorem load_byte3 (column : Column) : load column &&& 0xff = wide column.b3 := by
  apply low_eq_wide
  intro i low
  rw [getLsbD_load, if_pos low]

/-- The bits of a word under a mask that is one of its bytes. -/
theorem getLsbD_masked (word : U32) (shift : Nat) (fits : shift + 8 ≤ 64) (i : Nat) :
    (word &&& ((0xff : U32) <<< shift)).getLsbD i = (word.getLsbD i && decide (shift ≤ i ∧ i < shift + 8)) := by
  have mask : (0xff : U32) = BitVec.ofNat 64 (2 ^ 8 - 1) := rfl
  rw [BitVec.getLsbD_and, BitVec.getLsbD_shiftLeft, mask, BitVec.getLsbD_ofNat, Nat.testBit_two_pow_sub_one]
  congr 1
  by_cases inside : shift ≤ i ∧ i < shift + 8
  · simp [inside, show i < 64 by omega, show ¬ i < shift by omega, show i - shift < 64 by omega, show i - shift < 8 by omega]
  · by_cases below : i < shift
    · simp [below, show ¬ shift ≤ i by omega]
    · simp [inside, show ¬ i - shift < 8 by omega]

/-- The masks take a byte of each of four columns. -/
theorem load_masked (a b c d : Column) :
    (load a &&& 0xff000000) ^^^ (load b &&& 0x00ff0000) ^^^ (load c &&& 0x0000ff00) ^^^ (load d &&& 0x000000ff) =
      load ⟨a.b0, b.b1, c.b2, d.b3⟩ := by
  have masks : (0xff000000 : U32) = (0xff : U32) <<< 24 ∧ (0x00ff0000 : U32) = (0xff : U32) <<< 16 ∧
      (0x0000ff00 : U32) = (0xff : U32) <<< 8 := ⟨rfl, rfl, rfl⟩
  apply BitVec.eq_of_getLsbD_eq
  intro i _
  rw [masks.1, masks.2.1, masks.2.2, BitVec.getLsbD_xor, BitVec.getLsbD_xor, BitVec.getLsbD_xor,
    getLsbD_masked _ 24 (by omega), getLsbD_masked _ 16 (by omega), getLsbD_masked _ 8 (by omega), getLsbD_low,
    getLsbD_load, getLsbD_load, getLsbD_load, getLsbD_load, getLsbD_load]
  rcases lt_or_ge i 8 with low | high8
  · simp [low, show ¬ 24 ≤ i by omega, show ¬ 16 ≤ i by omega, show ¬ 8 ≤ i by omega]
  rcases lt_or_ge i 16 with low | high16
  · simp [low, high8, show ¬ 24 ≤ i by omega, show ¬ 16 ≤ i by omega, show ¬ i < 8 by omega]
  rcases lt_or_ge i 24 with low | high24
  · simp [low, high16, show ¬ 24 ≤ i by omega, show ¬ i < 16 by omega, show ¬ i < 8 by omega]
  by_cases low : i < 32
  · simp [low, high24, show ¬ i < 24 by omega, show ¬ i < 16 by omega, show ¬ i < 8 by omega]
  · simp [low, testBit_above a.b0 (show 8 ≤ i - 24 by omega), show ¬ i < 24 by omega, show ¬ i < 16 by omega,
      show ¬ i < 8 by omega]

end Bits

section Tables

/-- The word of a byte that is mixed from its place in a column. -/
def mixedWord (place : Fin 4) (n : Nat) : Nat := (load (Column.mixed place (UInt8.ofNat n))).toNat

def unmixedWord (place : Fin 4) (n : Nat) : Nat := (load (Column.unmixed place (UInt8.ofNat n))).toNat

theorem Te_eq : Te0 = sBoxTable.map (mixedWord 0) ∧ Te1 = sBoxTable.map (mixedWord 1) ∧ Te2 = sBoxTable.map (mixedWord 2) ∧
    Te3 = sBoxTable.map (mixedWord 3) := by
  decide +kernel

theorem Td_eq : Td0 = invSBoxTable.map (unmixedWord 0) ∧ Td1 = invSBoxTable.map (unmixedWord 1) ∧
    Td2 = invSBoxTable.map (unmixedWord 2) ∧ Td3 = invSBoxTable.map (unmixedWord 3) := by
  decide +kernel

theorem Td4_eq : Td4 = invSBoxTable := rfl

theorem lookup_mixed {table : List Nat} {place : Fin 4} (entries : table = sBoxTable.map (mixedWord place)) (byte : UInt8) :
    lookup table (wide byte) = some (load (Column.single place (sBox byte)).mix) := by
  rw [lookup, toNat_wide, entries, List.getElem?_map, getElem_sBoxTable, Option.map_some, Option.map_some, mixedWord,
    UInt8.ofNat_toNat, BitVec.ofNat_toNat, BitVec.setWidth_eq, Column.mix_single]

theorem lookup_unmixed {table : List Nat} {place : Fin 4} (entries : table = invSBoxTable.map (unmixedWord place))
    (byte : UInt8) : lookup table (wide byte) = some (load (Column.single place (invSBox byte)).unmix) := by
  rw [lookup, toNat_wide, entries, List.getElem?_map, getElem_invSBoxTable, Option.map_some, Option.map_some, unmixedWord,
    UInt8.ofNat_toNat, BitVec.ofNat_toNat, BitVec.setWidth_eq, Column.unmix_single]

/-- Four words of the tables make a column mixed. -/
theorem xor_mixed (column : Column) :
    load (Column.single 0 column.b0).mix ^^^ load (Column.single 1 column.b1).mix ^^^ load (Column.single 2 column.b2).mix ^^^
      load (Column.single 3 column.b3).mix = load column.mix := by
  rw [← load_add, ← load_add, ← load_add, ← Column.mix_add, ← Column.mix_add, ← Column.mix_add, ← Column.eq_singles]

theorem xor_unmixed (column : Column) :
    load (Column.single 0 column.b0).unmix ^^^ load (Column.single 1 column.b1).unmix ^^^
      load (Column.single 2 column.b2).unmix ^^^ load (Column.single 3 column.b3).unmix = load column.unmix := by
  rw [← load_add, ← load_add, ← load_add, ← Column.unmix_add, ← Column.unmix_add, ← Column.unmix_add, ← Column.eq_singles]

/-- The tables for the encryption are the S-box too, at the places where the mixing keeps a byte. -/
theorem substituted_wide (b0 b1 b2 b3 : UInt8) :
    substituted (wide b0) (wide b1) (wide b2) (wide b3) = some (load ⟨sBox b0, sBox b1, sBox b2, sBox b3⟩) := by
  rw [substituted, lookup_mixed Te_eq.2.2.1, lookup_mixed Te_eq.2.2.2, lookup_mixed Te_eq.1, lookup_mixed Te_eq.2.1]
  simp only [Option.pure_def, Option.bind_eq_bind, Option.bind_some, load_masked, Column.mix_single, Column.mixed]

end Tables

section Bytes

theorem getU32_load {data : Bytes} {offset : Nat} {column : Column} (b0 : data[offset]? = some column.b0)
    (b1 : data[offset + 1]? = some column.b1) (b2 : data[offset + 2]? = some column.b2)
    (b3 : data[offset + 3]? = some column.b3) : getU32 data offset = some (load column) := by
  simp [getU32, b0, b1, b2, b3, load, wide]

theorem u8_eq {word : U32} {byte : UInt8} (bits : ∀ i, i < 8 → word.getLsbD i = byte.toNat.testBit i) : u8 word = byte := by
  have low : (word &&& 0xff).toNat = word.toNat % 2 ^ 8 := by
    rw [BitVec.toNat_and]
    exact Nat.and_two_pow_sub_one_eq_mod word.toNat 8
  rw [low_eq_wide bits, toNat_wide] at low
  apply UInt8.toNat_inj.mp
  rw [u8, UInt8.toNat_ofNat', ← low]

/-- What a word is stored as depends on its bits that are in the column. -/
theorem putU32_eq {word : U32} {column : Column} (bits : ∀ i, i < 32 → word.getLsbD i = (load column).getLsbD i) :
    putU32 word = [column.b0, column.b1, column.b2, column.b3] := by
  have at0 : u8 (word >>> 24) = column.b0 := by
    apply u8_eq
    intro i low
    rw [BitVec.getLsbD_ushiftRight, bits _ (by omega), getLsbD_load, if_neg (by omega), if_neg (by omega), if_neg (by omega),
      Nat.add_sub_cancel_left]
  have at1 : u8 (word >>> 16) = column.b1 := by
    apply u8_eq
    intro i low
    rw [BitVec.getLsbD_ushiftRight, bits _ (by omega), getLsbD_load, if_neg (by omega), if_neg (by omega), if_pos (by omega),
      Nat.add_sub_cancel_left]
  have at2 : u8 (word >>> 8) = column.b2 := by
    apply u8_eq
    intro i low
    rw [BitVec.getLsbD_ushiftRight, bits _ (by omega), getLsbD_load, if_neg (by omega), if_pos (by omega),
      Nat.add_sub_cancel_left]
  have at3 : u8 word = column.b3 := by
    apply u8_eq
    intro i low
    rw [bits _ (by omega), getLsbD_load, if_pos low]
  rw [putU32, at0, at1, at2, at3]

end Bytes

end Apsdk.AesCore
