import Apsdk.Library.ByteOrder

/-! Hash functions that absorb one block after the other. Data can be absorbed in parts,
as long as the parts before the last one are whole blocks. -/

namespace Library.BlockHash

variable {State : Type*} (compress : State → Bytes → State) (size : Nat)

def absorbBlocks : Nat → State → Bytes → State
  | 0, state, _ => state
  | n + 1, state, data => absorbBlocks n (compress state (data.take size)) (data.drop size)

/-- All whole blocks of the data. -/
def absorb (state : State) (data : Bytes) : State := absorbBlocks compress size (data.length / size) state data

variable {size}

theorem absorbBlocks_append (n m : Nat) (state : State) {first : Bytes} (second : Bytes) (whole : first.length = n * size) :
    absorbBlocks compress size (n + m) state (first ++ second) =
      absorbBlocks compress size m (absorbBlocks compress size n state first) second := by
  induction n generalizing state first with
  | zero =>
    obtain rfl : first = [] := List.length_eq_zero_iff.mp (whole.trans (Nat.zero_mul size))
    rw [Nat.zero_add, List.nil_append, absorbBlocks]
  | succ n ih =>
    rw [Nat.succ_mul] at whole
    have shorter : (first.drop size).length = n * size := by
      rw [List.length_drop, whole, Nat.add_sub_cancel]
    rw [Nat.succ_add, absorbBlocks, absorbBlocks, List.take_append_of_le_length (by omega),
      List.drop_append_of_le_length (by omega), ih _ shorter]

variable (positive : 0 < size)
include positive

theorem absorb_append (state : State) {first : Bytes} (second : Bytes) (whole : first.length % size = 0) :
    absorb compress size state (first ++ second) = absorb compress size (absorb compress size state first) second := by
  have blocks : first.length = first.length / size * size := (Nat.div_mul_cancel (Nat.dvd_of_mod_eq_zero whole)).symm
  have count : (first ++ second).length / size = first.length / size + second.length / size := by
    rw [List.length_append]
    conv_lhs => rw [blocks]
    rw [Nat.add_comm, Nat.add_mul_div_right _ _ positive, Nat.add_comm]
  rw [absorb, count, absorbBlocks_append compress _ _ state second blocks]
  rfl

theorem absorb_block (state : State) {block : Bytes} (full : block.length = size) :
    absorb compress size state block = compress state block := by
  rw [absorb, full, Nat.div_self positive, absorbBlocks, absorbBlocks, ← full, List.take_length]

omit positive in
theorem absorb_short (state : State) {data : Bytes} (short : data.length < size) : absorb compress size state data = state := by
  rw [absorb, Nat.div_eq_of_lt short, absorbBlocks]

end Library.BlockHash
