import Apsdk.Library.ByteOrder
import Apsdk.Library.SubstitutionNetwork

/-! The Advanced Encryption Standard as it is specified: bytes are polynomials over the
field of two elements, four of them a column, four columns a block. -/

namespace Library.Rijndael

/-- The product with `x` modulo `x^8 + x^4 + x^3 + x + 1`. -/
def xtime (byte : UInt8) : UInt8 := (byte <<< 1) ^^^ (if 128 ≤ byte.toNat then 0x1b else 0)

def mulFrom : Nat → Nat → UInt8 → UInt8
  | 0, _, _ => 0
  | bits + 1, factor, byte => (if factor % 2 = 1 then byte else 0) ^^^ mulFrom bits (factor / 2) (xtime byte)

/-- The product of two bytes. -/
def mul (factor : Nat) (byte : UInt8) : UInt8 := mulFrom 8 factor byte

theorem xtime_xor (first second : UInt8) : xtime (first ^^^ second) = xtime first ^^^ xtime second := by
  have high : ∀ byte : UInt8, 128 ≤ byte.toNat ↔ byte.toBitVec.msb = true := by
    intro byte
    rw [BitVec.msb_eq_decide, decide_eq_true_iff]
    rfl
  have split : (first ^^^ second) <<< 1 = first <<< 1 ^^^ second <<< 1 := by
    apply UInt8.toBitVec_inj.mp
    simp [BitVec.shiftLeft_xor_distrib]
  have both : (first ^^^ second).toBitVec.msb = (first.toBitVec.msb ^^ second.toBitVec.msb) := by simp
  simp only [xtime, high, both, split]
  cases first.toBitVec.msb <;> cases second.toBitVec.msb
  · simp
  · simp [UInt8.xor_assoc]
  · simp only [Bool.bne_false, if_true, Bool.false_eq_true, if_false, UInt8.xor_zero]
    ac_rfl
  · have twice : (0x1b : UInt8) ^^^ 0x1b = 0 := UInt8.xor_self
    simp only [Bool.bne_true, Bool.not_true, Bool.false_eq_true, if_true, if_false]
    calc first <<< 1 ^^^ second <<< 1 ^^^ (0 : UInt8)
        = first <<< 1 ^^^ second <<< 1 ^^^ ((0x1b : UInt8) ^^^ (0x1b : UInt8)) := by rw [twice]
      _ = first <<< 1 ^^^ (0x1b : UInt8) ^^^ (second <<< 1 ^^^ (0x1b : UInt8)) := by ac_rfl

theorem mulFrom_xor (bits factor : Nat) (first second : UInt8) :
    mulFrom bits factor (first ^^^ second) = mulFrom bits factor first ^^^ mulFrom bits factor second := by
  induction bits generalizing factor first second with
  | zero => exact UInt8.xor_self.symm
  | succ bits ih =>
    rw [mulFrom, mulFrom, mulFrom, xtime_xor, ih]
    split
    · ac_rfl
    · simp only [UInt8.zero_xor]

theorem mul_xor (factor : Nat) (first second : UInt8) :
    mul factor (first ^^^ second) = mul factor first ^^^ mul factor second := mulFrom_xor 8 factor first second

@[simp] theorem mul_zero (factor : Nat) : mul factor 0 = 0 := by
  have same := mul_xor factor 0 0
  rwa [UInt8.xor_self, UInt8.xor_self] at same

/-- The factors of the mixing as powers of `x`. -/
theorem mul_powers (byte : UInt8) :
    mul 2 byte = xtime byte ∧ mul 3 byte = byte ^^^ xtime byte ∧
    mul 9 byte = byte ^^^ xtime (xtime (xtime byte)) ∧
    mul 11 byte = byte ^^^ (xtime byte ^^^ xtime (xtime (xtime byte))) ∧
    mul 13 byte = byte ^^^ (xtime (xtime byte) ^^^ xtime (xtime (xtime byte))) ∧
    mul 14 byte = xtime byte ^^^ (xtime (xtime byte) ^^^ xtime (xtime (xtime byte))) := by
  simp [mul, mulFrom]

/-- The substitution of bytes. -/
def sBoxTable : List Nat :=
  [0x63, 0x7c, 0x77, 0x7b, 0xf2, 0x6b, 0x6f, 0xc5, 0x30, 0x01, 0x67, 0x2b, 0xfe, 0xd7, 0xab, 0x76,
   0xca, 0x82, 0xc9, 0x7d, 0xfa, 0x59, 0x47, 0xf0, 0xad, 0xd4, 0xa2, 0xaf, 0x9c, 0xa4, 0x72, 0xc0,
   0xb7, 0xfd, 0x93, 0x26, 0x36, 0x3f, 0xf7, 0xcc, 0x34, 0xa5, 0xe5, 0xf1, 0x71, 0xd8, 0x31, 0x15,
   0x04, 0xc7, 0x23, 0xc3, 0x18, 0x96, 0x05, 0x9a, 0x07, 0x12, 0x80, 0xe2, 0xeb, 0x27, 0xb2, 0x75,
   0x09, 0x83, 0x2c, 0x1a, 0x1b, 0x6e, 0x5a, 0xa0, 0x52, 0x3b, 0xd6, 0xb3, 0x29, 0xe3, 0x2f, 0x84,
   0x53, 0xd1, 0x00, 0xed, 0x20, 0xfc, 0xb1, 0x5b, 0x6a, 0xcb, 0xbe, 0x39, 0x4a, 0x4c, 0x58, 0xcf,
   0xd0, 0xef, 0xaa, 0xfb, 0x43, 0x4d, 0x33, 0x85, 0x45, 0xf9, 0x02, 0x7f, 0x50, 0x3c, 0x9f, 0xa8,
   0x51, 0xa3, 0x40, 0x8f, 0x92, 0x9d, 0x38, 0xf5, 0xbc, 0xb6, 0xda, 0x21, 0x10, 0xff, 0xf3, 0xd2,
   0xcd, 0x0c, 0x13, 0xec, 0x5f, 0x97, 0x44, 0x17, 0xc4, 0xa7, 0x7e, 0x3d, 0x64, 0x5d, 0x19, 0x73,
   0x60, 0x81, 0x4f, 0xdc, 0x22, 0x2a, 0x90, 0x88, 0x46, 0xee, 0xb8, 0x14, 0xde, 0x5e, 0x0b, 0xdb,
   0xe0, 0x32, 0x3a, 0x0a, 0x49, 0x06, 0x24, 0x5c, 0xc2, 0xd3, 0xac, 0x62, 0x91, 0x95, 0xe4, 0x79,
   0xe7, 0xc8, 0x37, 0x6d, 0x8d, 0xd5, 0x4e, 0xa9, 0x6c, 0x56, 0xf4, 0xea, 0x65, 0x7a, 0xae, 0x08,
   0xba, 0x78, 0x25, 0x2e, 0x1c, 0xa6, 0xb4, 0xc6, 0xe8, 0xdd, 0x74, 0x1f, 0x4b, 0xbd, 0x8b, 0x8a,
   0x70, 0x3e, 0xb5, 0x66, 0x48, 0x03, 0xf6, 0x0e, 0x61, 0x35, 0x57, 0xb9, 0x86, 0xc1, 0x1d, 0x9e,
   0xe1, 0xf8, 0x98, 0x11, 0x69, 0xd9, 0x8e, 0x94, 0x9b, 0x1e, 0x87, 0xe9, 0xce, 0x55, 0x28, 0xdf,
   0x8c, 0xa1, 0x89, 0x0d, 0xbf, 0xe6, 0x42, 0x68, 0x41, 0x99, 0x2d, 0x0f, 0xb0, 0x54, 0xbb, 0x16]

def invSBoxTable : List Nat :=
  [0x52, 0x09, 0x6a, 0xd5, 0x30, 0x36, 0xa5, 0x38, 0xbf, 0x40, 0xa3, 0x9e, 0x81, 0xf3, 0xd7, 0xfb,
   0x7c, 0xe3, 0x39, 0x82, 0x9b, 0x2f, 0xff, 0x87, 0x34, 0x8e, 0x43, 0x44, 0xc4, 0xde, 0xe9, 0xcb,
   0x54, 0x7b, 0x94, 0x32, 0xa6, 0xc2, 0x23, 0x3d, 0xee, 0x4c, 0x95, 0x0b, 0x42, 0xfa, 0xc3, 0x4e,
   0x08, 0x2e, 0xa1, 0x66, 0x28, 0xd9, 0x24, 0xb2, 0x76, 0x5b, 0xa2, 0x49, 0x6d, 0x8b, 0xd1, 0x25,
   0x72, 0xf8, 0xf6, 0x64, 0x86, 0x68, 0x98, 0x16, 0xd4, 0xa4, 0x5c, 0xcc, 0x5d, 0x65, 0xb6, 0x92,
   0x6c, 0x70, 0x48, 0x50, 0xfd, 0xed, 0xb9, 0xda, 0x5e, 0x15, 0x46, 0x57, 0xa7, 0x8d, 0x9d, 0x84,
   0x90, 0xd8, 0xab, 0x00, 0x8c, 0xbc, 0xd3, 0x0a, 0xf7, 0xe4, 0x58, 0x05, 0xb8, 0xb3, 0x45, 0x06,
   0xd0, 0x2c, 0x1e, 0x8f, 0xca, 0x3f, 0x0f, 0x02, 0xc1, 0xaf, 0xbd, 0x03, 0x01, 0x13, 0x8a, 0x6b,
   0x3a, 0x91, 0x11, 0x41, 0x4f, 0x67, 0xdc, 0xea, 0x97, 0xf2, 0xcf, 0xce, 0xf0, 0xb4, 0xe6, 0x73,
   0x96, 0xac, 0x74, 0x22, 0xe7, 0xad, 0x35, 0x85, 0xe2, 0xf9, 0x37, 0xe8, 0x1c, 0x75, 0xdf, 0x6e,
   0x47, 0xf1, 0x1a, 0x71, 0x1d, 0x29, 0xc5, 0x89, 0x6f, 0xb7, 0x62, 0x0e, 0xaa, 0x18, 0xbe, 0x1b,
   0xfc, 0x56, 0x3e, 0x4b, 0xc6, 0xd2, 0x79, 0x20, 0x9a, 0xdb, 0xc0, 0xfe, 0x78, 0xcd, 0x5a, 0xf4,
   0x1f, 0xdd, 0xa8, 0x33, 0x88, 0x07, 0xc7, 0x31, 0xb1, 0x12, 0x10, 0x59, 0x27, 0x80, 0xec, 0x5f,
   0x60, 0x51, 0x7f, 0xa9, 0x19, 0xb5, 0x4a, 0x0d, 0x2d, 0xe5, 0x7a, 0x9f, 0x93, 0xc9, 0x9c, 0xef,
   0xa0, 0xe0, 0x3b, 0x4d, 0xae, 0x2a, 0xf5, 0xb0, 0xc8, 0xeb, 0xbb, 0x3c, 0x83, 0x53, 0x99, 0x61,
   0x17, 0x2b, 0x04, 0x7e, 0xba, 0x77, 0xd6, 0x26, 0xe1, 0x69, 0x14, 0x63, 0x55, 0x21, 0x0c, 0x7d]

def sBox (byte : UInt8) : UInt8 := UInt8.ofNat (sBoxTable.getD byte.toNat 0)

def invSBox (byte : UInt8) : UInt8 := UInt8.ofNat (invSBoxTable.getD byte.toNat 0)

/-- Both tables are whole, and the second one undoes the first. -/
theorem tables_complete :
    (sBoxTable.length = 256 ∧ ∀ entry ∈ sBoxTable, entry < 256) ∧ (invSBoxTable.length = 256 ∧ ∀ entry ∈ invSBoxTable, entry < 256) ∧
      sBoxTable.map (invSBoxTable.getD · 0) = List.range 256 := by
  decide +kernel

theorem getElem_sBoxTable (byte : UInt8) : sBoxTable[byte.toNat]? = some (sBox byte).toNat := by
  obtain ⟨length, bound⟩ := tables_complete.1
  have inside : byte.toNat < sBoxTable.length := length ▸ byte.toNat_lt
  have small : sBoxTable[byte.toNat] < 256 := bound _ (List.getElem_mem inside)
  rw [sBox, UInt8.toNat_ofNat', List.getD_eq_getElem?_getD, List.getElem?_eq_getElem inside, Option.getD_some,
    Nat.mod_eq_of_lt small]

theorem getElem_invSBoxTable (byte : UInt8) : invSBoxTable[byte.toNat]? = some (invSBox byte).toNat := by
  obtain ⟨length, bound⟩ := tables_complete.2.1
  have inside : byte.toNat < invSBoxTable.length := length ▸ byte.toNat_lt
  have small : invSBoxTable[byte.toNat] < 256 := bound _ (List.getElem_mem inside)
  rw [invSBox, UInt8.toNat_ofNat', List.getD_eq_getElem?_getD, List.getElem?_eq_getElem inside, Option.getD_some,
    Nat.mod_eq_of_lt small]

theorem invSBox_sBox (byte : UInt8) : invSBox (sBox byte) = byte := by
  have undone : invSBoxTable[(sBox byte).toNat]? = some byte.toNat := by
    have mapped := congrArg (·[byte.toNat]?) tables_complete.2.2
    simp only [List.getElem?_map, getElem_sBoxTable, Option.map_some, getElem_invSBoxTable, List.getD_eq_getElem?_getD,
      Option.getD_some, List.getElem?_range byte.toNat_lt] at mapped
    rw [getElem_invSBoxTable, mapped]
  rw [getElem_invSBoxTable, Option.some.injEq] at undone
  exact UInt8.toNat_inj.mp undone

@[ext] structure Column where
  b0 : UInt8
  b1 : UInt8
  b2 : UInt8
  b3 : UInt8
deriving DecidableEq, Repr

namespace Column

def add (first second : Column) : Column :=
  ⟨first.b0 ^^^ second.b0, first.b1 ^^^ second.b1, first.b2 ^^^ second.b2, first.b3 ^^^ second.b3⟩

def map (function : UInt8 → UInt8) (column : Column) : Column :=
  ⟨function column.b0, function column.b1, function column.b2, function column.b3⟩

/-- `MixColumns` on one column. -/
def mix (column : Column) : Column :=
  ⟨mul 2 column.b0 ^^^ mul 3 column.b1 ^^^ column.b2 ^^^ column.b3,
    column.b0 ^^^ mul 2 column.b1 ^^^ mul 3 column.b2 ^^^ column.b3,
    column.b0 ^^^ column.b1 ^^^ mul 2 column.b2 ^^^ mul 3 column.b3,
    mul 3 column.b0 ^^^ column.b1 ^^^ column.b2 ^^^ mul 2 column.b3⟩

/-- `InvMixColumns` on one column. -/
def unmix (column : Column) : Column :=
  ⟨mul 14 column.b0 ^^^ mul 11 column.b1 ^^^ mul 13 column.b2 ^^^ mul 9 column.b3,
    mul 9 column.b0 ^^^ mul 14 column.b1 ^^^ mul 11 column.b2 ^^^ mul 13 column.b3,
    mul 13 column.b0 ^^^ mul 9 column.b1 ^^^ mul 14 column.b2 ^^^ mul 11 column.b3,
    mul 11 column.b0 ^^^ mul 13 column.b1 ^^^ mul 9 column.b2 ^^^ mul 14 column.b3⟩

theorem add_cancel (column key : Column) : (column.add key).add key = column := by
  apply Column.ext <;> simp only [add, UInt8.xor_assoc, UInt8.xor_self, UInt8.xor_zero]

theorem mix_add (first second : Column) : (first.add second).mix = first.mix.add second.mix := by
  apply Column.ext <;> simp only [add, mix, mul_xor] <;> ac_rfl

theorem unmix_add (first second : Column) : (first.add second).unmix = first.unmix.add second.unmix := by
  apply Column.ext <;> simp only [add, unmix, mul_xor] <;> ac_rfl

/-- A column with a single byte, at each of its places. -/
def single (place : Fin 4) (byte : UInt8) : Column :=
  match place with
  | 0 => ⟨byte, 0, 0, 0⟩
  | 1 => ⟨0, byte, 0, 0⟩
  | 2 => ⟨0, 0, byte, 0⟩
  | 3 => ⟨0, 0, 0, byte⟩

/-- What the mixing makes of a single byte. -/
def mixed (place : Fin 4) (byte : UInt8) : Column :=
  match place with
  | 0 => ⟨xtime byte, byte, byte, byte ^^^ xtime byte⟩
  | 1 => ⟨byte ^^^ xtime byte, xtime byte, byte, byte⟩
  | 2 => ⟨byte, byte ^^^ xtime byte, xtime byte, byte⟩
  | 3 => ⟨byte, byte, byte ^^^ xtime byte, xtime byte⟩

theorem mix_single (place : Fin 4) (byte : UInt8) : (single place byte).mix = mixed place byte := by
  match place with
  | 0 | 1 | 2 | 3 => simp [single, mix, mixed, mul_powers]

def unmixed (place : Fin 4) (byte : UInt8) : Column :=
  let byte2 := xtime byte
  let byte4 := xtime byte2
  let byte8 := xtime byte4
  let e := byte2 ^^^ (byte4 ^^^ byte8)
  let b := byte ^^^ (byte2 ^^^ byte8)
  let d := byte ^^^ (byte4 ^^^ byte8)
  let n := byte ^^^ byte8
  match place with
  | 0 => ⟨e, n, d, b⟩
  | 1 => ⟨b, e, n, d⟩
  | 2 => ⟨d, b, e, n⟩
  | 3 => ⟨n, d, b, e⟩

theorem unmix_single (place : Fin 4) (byte : UInt8) : (single place byte).unmix = unmixed place byte := by
  match place with
  | 0 | 1 | 2 | 3 => simp [single, unmix, unmixed, mul_powers]

theorem unmix_mix_single (place : Fin 4) (byte : UInt8) : (single place byte).mix.unmix = single place byte := by
  have again : ∀ first second : UInt8, first ^^^ (first ^^^ second) = second := fun first second => by
    rw [← UInt8.xor_assoc, UInt8.xor_self, UInt8.zero_xor]
  have swap : ∀ first second third : UInt8, first ^^^ (second ^^^ third) = second ^^^ (first ^^^ third) :=
    fun first second third => by ac_rfl
  -- Every byte of the result is a sum of powers of `x` times the byte, each of them there twice or not at all.
  match place with
  | 0 | 1 | 2 | 3 =>
    apply Column.ext <;> simp only [single, mix, unmix, mul_powers, mul_zero, xtime_xor, UInt8.xor_zero, UInt8.zero_xor, UInt8.xor_assoc,
      UInt8.xor_comm, swap, UInt8.xor_self, again]

theorem eq_singles (column : Column) :
    column = (((single 0 column.b0).add (single 1 column.b1)).add (single 2 column.b2)).add (single 3 column.b3) := by
  apply Column.ext <;> simp [single, add]

/-- Both maps are additive, so that a byte at each place is enough. -/
theorem unmix_mix (column : Column) : column.mix.unmix = column := by
  conv_lhs => rw [eq_singles column]
  rw [mix_add, mix_add, mix_add, unmix_add, unmix_add, unmix_add, unmix_mix_single, unmix_mix_single,
    unmix_mix_single, unmix_mix_single]
  exact (eq_singles column).symm

end Column

@[ext] structure Block where
  c0 : Column
  c1 : Column
  c2 : Column
  c3 : Column
deriving DecidableEq, Repr

namespace Block

def add (first second : Block) : Block :=
  ⟨first.c0.add second.c0, first.c1.add second.c1, first.c2.add second.c2, first.c3.add second.c3⟩

def map (function : Column → Column) (block : Block) : Block :=
  ⟨function block.c0, function block.c1, function block.c2, function block.c3⟩

/-- `ShiftRows`: row `i` moves by `i` columns. -/
def shiftRows (block : Block) : Block :=
  ⟨⟨block.c0.b0, block.c1.b1, block.c2.b2, block.c3.b3⟩, ⟨block.c1.b0, block.c2.b1, block.c3.b2, block.c0.b3⟩,
    ⟨block.c2.b0, block.c3.b1, block.c0.b2, block.c1.b3⟩, ⟨block.c3.b0, block.c0.b1, block.c1.b2, block.c2.b3⟩⟩

def unshiftRows (block : Block) : Block :=
  ⟨⟨block.c0.b0, block.c3.b1, block.c2.b2, block.c1.b3⟩, ⟨block.c1.b0, block.c0.b1, block.c3.b2, block.c2.b3⟩,
    ⟨block.c2.b0, block.c1.b1, block.c0.b2, block.c3.b3⟩, ⟨block.c3.b0, block.c2.b1, block.c1.b2, block.c0.b3⟩⟩

end Block

def layers : RoundLayers Block where
  add := Block.add
  substitute := Block.map (Column.map sBox)
  unsubstitute := Block.map (Column.map invSBox)
  shift := Block.shiftRows
  unshift := Block.unshiftRows
  mix := Block.map Column.mix
  unmix := Block.map Column.unmix
  add_cancel := fun block key => by simp only [Block.add, Column.add_cancel]
  unsubstitute_substitute := fun block => by simp only [Block.map, Column.map, invSBox_sBox]
  unshift_shift := fun block => rfl
  unmix_mix := fun block => by simp only [Block.map, Column.unmix_mix]
  unmix_add := fun first second => by simp only [Block.map, Block.add, Column.unmix_add]

/-- The constants of the rounds, powers of `x`. -/
def roundConstant : Nat → UInt8
  | 0 => 1
  | n + 1 => xtime (roundConstant n)

def Column.rotate (column : Column) : Column := ⟨column.b1, column.b2, column.b3, column.b0⟩

/-- What is added to a column of the schedule: the length of the key, its number, and the column before. -/
def scheduleCore (length number : Nat) (previous : Column) : Column :=
  if number % length = 0 then
    (previous.rotate.map sBox).add ⟨roundConstant (number / length - 1), 0, 0, 0⟩
  else if 6 < length ∧ number % length = 4 then previous.map sBox
  else previous

def zeroColumn : Column := ⟨0, 0, 0, 0⟩

def nextColumn (length : Nat) (columns : List Column) : Column :=
  (columns.getD (columns.length - length) zeroColumn).add
    (scheduleCore length columns.length (columns.getLastD zeroColumn))

/-- `KeyExpansion`, by so many columns. -/
def expand (length : Nat) : Nat → List Column → List Column
  | 0, columns => columns
  | more + 1, columns => expand length more (columns ++ [nextColumn length columns])

def blockAt (columns : List Column) (number : Nat) : Block :=
  ⟨columns.getD (4 * number) zeroColumn, columns.getD (4 * number + 1) zeroColumn,
    columns.getD (4 * number + 2) zeroColumn, columns.getD (4 * number + 3) zeroColumn⟩

/-- The keys of so many rounds. -/
def roundKeys (rounds : Nat) (columns : List Column) : RoundKeys Block :=
  ⟨blockAt columns 0, (List.range (rounds - 1)).map fun round => blockAt columns (round + 1), blockAt columns rounds⟩

/-- The schedule of a key of 4, 6 or 8 columns. -/
def keySchedule (key : List Column) : RoundKeys Block :=
  let rounds := key.length + 6
  roundKeys rounds (expand key.length (4 * (rounds + 1) - key.length) key)

section Bytes

def Column.bytes (column : Column) : List UInt8 := [column.b0, column.b1, column.b2, column.b3]

def Block.bytes (block : Block) : List UInt8 := block.c0.bytes ++ block.c1.bytes ++ block.c2.bytes ++ block.c3.bytes

/-- The columns of data whose length is a multiple of four. -/
def columns : List UInt8 → List Column
  | b0 :: b1 :: b2 :: b3 :: rest => ⟨b0, b1, b2, b3⟩ :: columns rest
  | _ => []

def toBlock (data : List UInt8) : Block := blockAt (columns data) 0

/-- The cipher, on 16 bytes under a key of 16, 24 or 32. -/
def cipher (key data : List UInt8) : List UInt8 := (layers.encrypt (keySchedule (columns key)) (toBlock data)).bytes

end Bytes

section Schedule
variable {length : Nat}

theorem nextColumn_append (before : List Column) (oldest : Column) (window : List Column) :
    nextColumn (window.length + 1) (before ++ oldest :: window) = oldest.add
      (scheduleCore (window.length + 1) (before.length + (window.length + 1)) ((oldest :: window).getLastD zeroColumn)) := by
  have number : (before ++ oldest :: window).length = before.length + (window.length + 1) := by simp
  have front : (before ++ oldest :: window).getD before.length zeroColumn = oldest := by simp
  have last : (before ++ oldest :: window).getLastD zeroColumn = (oldest :: window).getLastD zeroColumn := by
    rw [List.getLastD_eq_getLast?, List.getLastD_eq_getLast?, List.getLast?_append_of_ne_nil _ (List.cons_ne_nil _ _)]
  rw [nextColumn, number, Nat.add_sub_cancel, front, last]

/-- The window of the expansion moves by one column. -/
theorem expand_append (more : Nat) (before : List Column) (oldest : Column) (window : List Column) {newest added : Column}
    (fits : window.length + 1 = length) (last : (oldest :: window).getLastD zeroColumn = newest)
    (core : scheduleCore length (before.length + length) newest = added) :
    expand length (more + 1) (before ++ oldest :: window) =
      expand length more ((before ++ [oldest]) ++ (window ++ [oldest.add added])) := by
  subst fits last core
  rw [expand, nextColumn_append]
  simp only [List.append_assoc, List.cons_append, List.nil_append]

theorem scheduleCore_first {number round : Nat} (positive : 0 < length) (first : number = length * (round + 1))
    (previous : Column) :
    scheduleCore length number previous = (previous.rotate.map sBox).add ⟨roundConstant round, 0, 0, 0⟩ := by
  have whole : number % length = 0 := first ▸ Nat.mul_mod_right length _
  have quotient : number / length = round + 1 := by rw [first, Nat.mul_div_cancel_left _ positive]
  rw [scheduleCore, if_pos whole, quotient, Nat.add_sub_cancel]

theorem scheduleCore_other {number : Nat} (inside : number % length ≠ 0) (plain : ¬ (6 < length ∧ number % length = 4))
    (previous : Column) : scheduleCore length number previous = previous := by
  rw [scheduleCore, if_neg inside, if_neg plain]

theorem scheduleCore_fourth {number : Nat} (long : 6 < length) (fourth : number % length = 4) (previous : Column) :
    scheduleCore length number previous = previous.map sBox := by
  rw [scheduleCore, if_neg (by omega), if_pos ⟨long, fourth⟩]

theorem length_expand (more : Nat) (columns : List Column) : (expand length more columns).length = columns.length + more := by
  induction more generalizing columns with
  | zero => rfl
  | succ more ih =>
    rw [expand, ih, List.length_append, List.length_singleton]
    omega

theorem length_columns (data : List UInt8) : (columns data).length = data.length / 4 := by
  induction data using columns.induct with
  | case1 b0 b1 b2 b3 rest ih =>
    simp only [columns, List.length_cons, ih]
    omega
  | case2 data short =>
    match data, short with
    | [], _ | [_], _ | [_, _], _ | [_, _, _], _ => simp [columns]
    | b0 :: b1 :: b2 :: b3 :: rest, short => exact absurd rfl (short b0 b1 b2 b3 rest)

theorem blockAt_drop (columns : List Column) (number : Nat) : blockAt (columns.drop 4) number = blockAt columns (number + 1) := by
  have moved : ∀ i, (columns.drop 4).getD (4 * number + i) zeroColumn = columns.getD (4 * (number + 1) + i) zeroColumn := by
    intro i
    rw [List.getD_eq_getElem?_getD, List.getD_eq_getElem?_getD, List.getElem?_drop, Nat.mul_succ, ← Nat.add_assoc,
      Nat.add_comm 4]
  exact Block.ext (moved 0) (moved 1) (moved 2) (moved 3)

end Schedule

end Library.Rijndael
