import Apsdk.AesModes
import Apsdk.Library.BlockChaining
import Apsdk.Proofs.AesCipher

/-! CBC mode. What is written is the chain of the blocks, the last of them filled up with
zeros, and it is decrypted to the data again, in place or not. -/

namespace Apsdk.AesModes
open Library Rijndael AesCore AudioReceiver

/-- The cipher of a key, with its inverse. -/
def codec (userKey : Bytes) : BlockCodec Block where
  add := layers.add
  encrypt := layers.encrypt (keySchedule (columns userKey))
  decrypt := layers.decrypt (layers.invert (keySchedule (columns userKey)))
  add_cancel := layers.add_cancel
  decrypt_encrypt := layers.decrypt_encrypt _

section Blocks

/-- The first so many blocks of data. -/
def blocksOf : Nat → Bytes → List Block
  | 0, _ => []
  | n + 1, data => toBlock (data.take 16) :: blocksOf n (data.drop 16)

def padded (data : Bytes) : Bytes := data ++ List.replicate ((16 - data.length % 16) % 16) 0

/-- CBC mode as it is specified. -/
def cbc (userKey iv data : Bytes) : Bytes :=
  ((codec userKey).chain (toBlock iv) (blocksOf ((padded data).length / 16) (padded data))).flatMap Block.bytes

theorem length_padded (data : Bytes) : (padded data).length % 16 = 0 ∧ data.length ≤ (padded data).length := by
  rw [padded, List.length_append, List.length_replicate]
  omega

theorem length_blocksOf (n : Nat) (data : Bytes) : (blocksOf n data).length = n := by
  induction n generalizing data with
  | zero => rfl
  | succ n ih => exact congrArg Nat.succ (ih _)

theorem bytes_blocksOf {n : Nat} {data : Bytes} (enough : 16 * n ≤ data.length) :
    (blocksOf n data).flatMap Block.bytes = data.take (16 * n) := by
  induction n generalizing data with
  | zero => rfl
  | succ n ih =>
    have rest : 16 * n ≤ (data.drop 16).length := by
      rw [List.length_drop]
      omega
    have first : (data.take 16).length = 16 := List.length_take_of_le (by omega)
    rw [blocksOf, List.flatMap_cons, bytes_toBlock first, ih rest, Nat.mul_succ, Nat.add_comm, List.take_add]

theorem length_flatMap_bytes (blocks : List Block) : (blocks.flatMap Block.bytes).length = 16 * blocks.length := by
  rw [List.length_flatMap]
  simp [length_bytes, Nat.mul_comm]

/-- The sum of two blocks, byte by byte. -/
theorem xorBytes_bytes (first second : Block) : xorBytes first.bytes second.bytes = (layers.add first second).bytes := rfl

theorem readFront_bytes (block : Block) (rest : Bytes) : readFront 16 (block.bytes ++ rest) = some block.bytes := by
  have enough : 16 ≤ (block.bytes ++ rest).length := by
    rw [List.length_append, length_bytes]
    omega
  rw [readFront, if_pos enough, List.take_left' (length_bytes block)]

end Blocks

section Loops
variable {userKey : Bytes} (sized : userKey.length = 16 ∨ userKey.length = 24 ∨ userKey.length = 32) (before : Key)
include sized

theorem encryptBlocks_chain (blocks : List Block) (iv : Block) (rest : Bytes) :
    encryptBlocks (written userKey before) blocks.length iv.bytes (blocks.flatMap Block.bytes ++ rest) =
      some (((codec userKey).chain iv blocks).flatMap Block.bytes,
        (BlockCodec.carried iv ((codec userKey).chain iv blocks)).bytes) := by
  induction blocks generalizing iv with
  | nil => rfl
  | cons block later ih =>
    have out := aesEncrypt_written before (layers.add block iv) sized
    have tail : (block.bytes ++ (later.flatMap Block.bytes ++ rest)).drop 16 = later.flatMap Block.bytes ++ rest :=
      List.drop_left' (length_bytes block)
    rw [List.flatMap_cons, List.append_assoc, List.length_cons, encryptBlocks, readFront_bytes, tail]
    simp only [Option.bind_eq_bind, Option.bind_some, xorBytes_bytes, out, ih]
    rw [BlockCodec.chain, BlockCodec.carried_cons]
    rfl

theorem decryptBlocksInPlace_unchain (blocks : List Block) (iv : Block) (rest : Bytes) :
    decryptBlocksInPlace (inverted userKey before) blocks.length iv.bytes (blocks.flatMap Block.bytes ++ rest) =
      some (((codec userKey).unchain iv blocks).flatMap Block.bytes ++ rest, (BlockCodec.carried iv blocks).bytes) := by
  induction blocks generalizing iv with
  | nil => rfl
  | cons block later ih =>
    have out := aesDecrypt_inverted before block sized
    have tail : (block.bytes ++ (later.flatMap Block.bytes ++ rest)).drop 16 = later.flatMap Block.bytes ++ rest :=
      List.drop_left' (length_bytes block)
    rw [List.flatMap_cons, List.append_assoc, List.length_cons, decryptBlocksInPlace, readFront_bytes, tail]
    simp only [Option.bind_eq_bind, Option.bind_some, xorBytes_bytes, out, ih]
    rw [BlockCodec.unchain, BlockCodec.carried_cons, List.flatMap_cons, List.append_assoc]
    rfl

end Loops

section Padding

theorem blocksOf_append (n m : Nat) {front : Bytes} (back : Bytes) (whole : front.length = 16 * n) :
    blocksOf (n + m) (front ++ back) = blocksOf n front ++ blocksOf m back := by
  induction n generalizing front with
  | zero => rw [List.length_eq_zero_iff.mp whole, List.nil_append, Nat.zero_add]; rfl
  | succ n ih =>
    have shorter : (front.drop 16).length = 16 * n := by
      rw [List.length_drop]
      omega
    rw [Nat.succ_add, blocksOf, blocksOf, List.take_append_of_le_length (by omega), List.drop_append_of_le_length (by omega),
      ih shorter, List.cons_append]

theorem xorBytes_padded (rest iv : Bytes) {count : Nat} (fits : rest.length + count = iv.length) :
    xorBytes (rest ++ List.replicate count 0) iv = xorBytes rest iv ++ iv.drop rest.length := by
  induction rest generalizing iv with
  | nil =>
    have zeros : ∀ later : Bytes, List.zipWith (· ^^^ ·) (List.replicate later.length (0 : UInt8)) later = later := by
      intro later
      induction later with
      | nil => rfl
      | cons byte later ih =>
        rw [List.length_cons, List.replicate_succ, List.zipWith_cons_cons, ih, UInt8.zero_xor]
    obtain rfl : count = iv.length := by simpa using fits
    exact zeros iv
  | cons byte rest ih =>
    cases iv with
    | nil =>
      simp only [List.length_cons, List.length_nil] at fits
      omega
    | cons first iv =>
      have shorter : rest.length + count = iv.length := by
        simp only [List.length_cons] at fits
        omega
      exact congrArg ((byte ^^^ first) :: ·) (ih iv shorter)

/-- Data as whole blocks and what is behind them. -/
theorem blocks_rest (data : Bytes) :
    data = (blocksOf (data.length / 16) data).flatMap Block.bytes ++ data.drop (data.length / 16 * 16) := by
  rw [bytes_blocksOf (by omega), Nat.mul_comm 16, List.take_append_drop]

theorem padded_of_whole {data : Bytes} (whole : data.length % 16 = 0) : padded data = data := by
  rw [padded, whole]
  exact List.append_nil data

/-- The block that is filled up. -/
def lastBlock (data : Bytes) : Block :=
  toBlock (data.drop (data.length / 16 * 16) ++ List.replicate (16 - data.length % 16) 0)

theorem bytes_lastBlock (data : Bytes) :
    (lastBlock data).bytes = data.drop (data.length / 16 * 16) ++ List.replicate (16 - data.length % 16) 0 := by
  apply bytes_toBlock
  rw [List.length_append, List.length_drop, List.length_replicate]
  omega

theorem blocksOf_padded {data : Bytes} (cut : data.length % 16 ≠ 0) :
    blocksOf ((padded data).length / 16) (padded data) = blocksOf (data.length / 16) data ++ [lastBlock data] := by
  have few : (16 - data.length % 16) % 16 = 16 - data.length % 16 := Nat.mod_eq_of_lt (by omega)
  have count : (padded data).length / 16 = data.length / 16 + 1 := by
    rw [padded, List.length_append, List.length_replicate, few]
    omega
  have front : (data.take (16 * (data.length / 16))).length = 16 * (data.length / 16) := List.length_take_of_le (by omega)
  have same : blocksOf (data.length / 16) (data.take (16 * (data.length / 16))) = blocksOf (data.length / 16) data := by
    have split := blocksOf_append (data.length / 16) 0 (data.drop (16 * (data.length / 16))) front
    rw [List.take_append_drop, Nat.add_zero, blocksOf, List.append_nil] at split
    exact split.symm
  have parts : padded data = data.take (16 * (data.length / 16)) ++
      (data.drop (data.length / 16 * 16) ++ List.replicate (16 - data.length % 16) 0) := by
    rw [padded, few, ← List.append_assoc, Nat.mul_comm (data.length / 16), List.take_append_drop]
  have last : ((data.drop (data.length / 16 * 16) ++ List.replicate (16 - data.length % 16) 0).take 16) =
      data.drop (data.length / 16 * 16) ++ List.replicate (16 - data.length % 16) 0 := by
    apply List.take_of_length_le
    rw [List.length_append, List.length_drop, List.length_replicate]
    omega
  rw [count, parts, blocksOf_append _ 1 _ front, same, blocksOf, last]
  rfl

end Padding

section Whole
variable {userKey : Bytes} (sized : userKey.length = 16 ∨ userKey.length = 24 ∨ userKey.length = 32) (before : Key)

theorem cbc_of_whole (iv : Block) {data : Bytes} (whole : data.length % 16 = 0) :
    cbc userKey iv.bytes data = ((codec userKey).chain iv (blocksOf (data.length / 16) data)).flatMap Block.bytes := by
  rw [cbc, toBlock_bytes, padded_of_whole whole]

theorem cbc_of_cut (iv : Block) {data : Bytes} (cut : data.length % 16 ≠ 0) :
    cbc userKey iv.bytes data =
      ((codec userKey).chain iv (blocksOf (data.length / 16) data)).flatMap Block.bytes ++
        ((codec userKey).encrypt (layers.add (lastBlock data)
          (BlockCodec.carried iv ((codec userKey).chain iv (blocksOf (data.length / 16) data))))).bytes := by
  rw [cbc, toBlock_bytes, blocksOf_padded cut, BlockCodec.chain_append, List.flatMap_append]
  simp only [BlockCodec.chain, List.flatMap_cons, List.flatMap_nil, List.append_nil]
  rfl

theorem length_cbc (iv : Block) (data : Bytes) : (cbc userKey iv.bytes data).length = (padded data).length := by
  have whole := length_padded data
  rw [cbc, length_flatMap_bytes, BlockCodec.length_chain, length_blocksOf]
  omega

include sized

theorem cbcEncrypt_written (iv : Block) (data : Bytes) :
    ∃ iv', cbcEncrypt (written userKey before) iv.bytes data = some (cbc userKey iv.bytes data, iv') := by
  have blocks := encryptBlocks_chain sized before (blocksOf (data.length / 16) data) iv (data.drop (data.length / 16 * 16))
  rw [length_blocksOf, ← blocks_rest] at blocks
  rw [cbcEncrypt, blocks]
  simp only [Option.bind_eq_bind, Option.bind_some]
  by_cases whole : data.length % 16 = 0
  · have none_left : data.drop (data.length / 16 * 16) = [] := List.drop_eq_nil_of_le (by omega)
    rw [if_pos none_left, cbc_of_whole iv whole]
    exact ⟨_, rfl⟩
  · have rest : (data.drop (data.length / 16 * 16)).length = data.length % 16 := by
      rw [List.length_drop]
      omega
    have some_left : data.drop (data.length / 16 * 16) ≠ [] := by
      intro nothing
      rw [nothing] at rest
      exact whole rest.symm
    generalize chained : (codec userKey).chain iv (blocksOf (data.length / 16) data) = cs
    have filled : xorBytes (data.drop (data.length / 16 * 16)) (BlockCodec.carried iv cs).bytes ++
        (BlockCodec.carried iv cs).bytes.drop (data.drop (data.length / 16 * 16)).length =
        (layers.add (lastBlock data) (BlockCodec.carried iv cs)).bytes := by
      have fits : (data.drop (data.length / 16 * 16)).length + (16 - data.length % 16) = (BlockCodec.carried iv cs).bytes.length := by
        rw [rest, length_bytes]
        omega
      rw [← xorBytes_padded _ _ fits, ← bytes_lastBlock data, xorBytes_bytes]
    rw [if_neg some_left, filled, aesEncrypt_written before _ sized, cbc_of_cut iv whole, chained]
    exact ⟨_, rfl⟩

theorem cbcDecryptInPlace_inverted (iv : Block) (data : Bytes) :
    ∃ iv', cbcDecryptInPlace (inverted userKey before) iv.bytes (cbc userKey iv.bytes data) data.length =
      some (data ++ (cbc userKey iv.bytes data).drop data.length, iv') := by
  generalize chained : (codec userKey).chain iv (blocksOf (data.length / 16) data) = cs
  have count : cs.length = data.length / 16 := by rw [← chained, BlockCodec.length_chain, length_blocksOf]
  have undone : (codec userKey).unchain iv cs = blocksOf (data.length / 16) data := by
    rw [← chained, BlockCodec.unchain_chain]
  by_cases whole : data.length % 16 = 0
  · have blocks := decryptBlocksInPlace_unchain sized before cs iv []
    have bytes : (blocksOf (data.length / 16) data).flatMap Block.bytes = data := by
      rw [bytes_blocksOf (by omega), List.take_of_length_le (by omega)]
    have nothing : (cs.flatMap Block.bytes).drop data.length = [] := by
      apply List.drop_eq_nil_of_le
      rw [length_flatMap_bytes]
      omega
    rw [List.append_nil, List.append_nil, count, undone, bytes] at blocks
    rw [cbc_of_whole iv whole, chained, nothing, List.append_nil, cbcDecryptInPlace, blocks]
    simp only [Option.bind_eq_bind, Option.bind_some, if_pos whole]
    exact ⟨_, rfl⟩
  · generalize sealed : (codec userKey).encrypt (layers.add (lastBlock data) (BlockCodec.carried iv cs)) = last
    have opened : layers.add ((codec userKey).decrypt last) (BlockCodec.carried iv cs) = lastBlock data := by
      rw [← sealed, (codec userKey).decrypt_encrypt, layers.add_cancel]
    have blocks := decryptBlocksInPlace_unchain sized before cs iv last.bytes
    rw [count, undone] at blocks
    have width : ((blocksOf (data.length / 16) data).flatMap Block.bytes).length = data.length / 16 * 16 := by
      rw [length_flatMap_bytes, length_blocksOf, Nat.mul_comm]
    have width' : (cs.flatMap Block.bytes).length = data.length / 16 * 16 := by
      rw [length_flatMap_bytes, count, Nat.mul_comm]
    have read := readFront_bytes last []
    rw [List.append_nil] at read
    have part : (lastBlock data).bytes.take (data.length % 16) = data.drop (data.length / 16 * 16) := by
      rw [bytes_lastBlock data]
      apply List.take_left'
      rw [List.length_drop]
      omega
    have behind : (cs.flatMap Block.bytes ++ last.bytes).drop data.length = last.bytes.drop (data.length % 16) := by
      rw [List.drop_append, List.drop_eq_nil_of_le (by omega), List.nil_append, width']
      congr 1
      omega
    rw [cbc_of_cut iv whole, chained, sealed, behind, cbcDecryptInPlace, blocks]
    simp only [Option.bind_eq_bind, Option.bind_some, if_neg whole]
    rw [List.drop_left' width, List.take_left' width, read]
    simp only [Option.bind_some, aesDecrypt_inverted before _ sized]
    refine ⟨last.bytes, ?_⟩
    have opened' : xorBytes (layers.decrypt (layers.invert (keySchedule (columns userKey))) last).bytes
        (BlockCodec.carried iv cs).bytes = (lastBlock data).bytes := congrArg Block.bytes opened
    have no_more : last.bytes.drop 16 = [] := rfl
    rw [opened', part, no_more, List.append_nil, ← blocks_rest]
    rfl

end Whole

/-- Data of any length comes back from CBC mode, under the schedules of a key and in place; where the
last block is cut off, its bytes behind the data stay encrypted. -/
theorem cbc_round_trip (userKey iv data : Bytes) (before before' : Key)
    (sized : userKey.length = 16 ∨ userKey.length = 24 ∨ userKey.length = 32) (block : iv.length = 16) :
    ∃ key key' ivec ivec', aesSetEncryptKey userKey (8 * userKey.length) before = some (0, key) ∧
      aesSetDecryptKey userKey (8 * userKey.length) before' = some (0, key') ∧
      cbcEncrypt key iv data = some (cbc userKey iv data, ivec) ∧
      cbcDecryptInPlace key' iv (cbc userKey iv data) data.length =
        some (data ++ (cbc userKey iv data).drop data.length, ivec') := by
  obtain ⟨ivec, encrypted⟩ := cbcEncrypt_written sized before (toBlock iv) data
  obtain ⟨ivec', decrypted⟩ := cbcDecryptInPlace_inverted sized before' (toBlock iv) data
  rw [bytes_toBlock block] at encrypted decrypted
  exact ⟨_, _, ivec, ivec', aesSetEncryptKey_eq userKey before sized, aesSetDecryptKey_eq userKey before' sized, encrypted,
    decrypted⟩

theorem cbc_round_trip_short : ∃ key key' ivec ivec',
    aesSetEncryptKey (List.replicate 16 7) 128 .blank = some (0, key) ∧
      aesSetDecryptKey (List.replicate 16 7) 128 .blank = some (0, key') ∧
      cbcEncrypt key (List.replicate 16 1) [5, 6, 7] =
        some (cbc (List.replicate 16 7) (List.replicate 16 1) [5, 6, 7], ivec) ∧
      cbcDecryptInPlace key' (List.replicate 16 1) (cbc (List.replicate 16 7) (List.replicate 16 1) [5, 6, 7]) 3 =
        some ([5, 6, 7] ++ (cbc (List.replicate 16 7) (List.replicate 16 1) [5, 6, 7]).drop 3, ivec') :=
  cbc_round_trip (List.replicate 16 7) (List.replicate 16 1) [5, 6, 7] .blank .blank (.inl rfl) rfl

section Apart
variable (key : Key)

theorem decryptBlocksInPlace_eq (n : Nat) (ivec buffer : Bytes) (enough : 16 * n ≤ buffer.length) :
    decryptBlocksInPlace key n ivec buffer =
      (decryptBlocks key n ivec buffer).map fun (written, iv) => (written ++ buffer.drop (16 * n), iv) := by
  induction n generalizing ivec buffer with
  | zero => rfl
  | succ n ih =>
    have shorter : 16 * n ≤ (buffer.drop 16).length := by
      rw [List.length_drop]
      omega
    rw [decryptBlocksInPlace, decryptBlocks]
    cases readFront 16 buffer with
    | none => rfl
    | some block =>
      simp only [Option.bind_eq_bind, Option.bind_some]
      cases aesDecrypt block key with
      | none => rfl
      | some out =>
        simp only [Option.bind_some, ih block (buffer.drop 16) shorter]
        cases decryptBlocks key n block (buffer.drop 16) with
        | none => rfl
        | some later =>
          simp only [Option.map_some, Option.bind_some, Option.pure_def, List.append_assoc, List.drop_drop]
          rw [Nat.mul_succ, Nat.add_comm 16]

theorem length_decryptBlocks (n : Nat) {ivec input written iv : Bytes} (sized : ivec.length = 16)
    (decrypted : decryptBlocks key n ivec input = some (written, iv)) : written.length = 16 * n ∧ iv.length = 16 := by
  induction n generalizing ivec input written iv with
  | zero =>
    cases Option.some.inj decrypted
    exact ⟨rfl, sized⟩
  | succ n ih =>
    obtain ⟨block, read, decrypted⟩ := Option.bind_eq_some_iff.mp decrypted
    obtain ⟨out, opened, decrypted⟩ := Option.bind_eq_some_iff.mp decrypted
    obtain ⟨⟨later, final⟩, rest, decrypted⟩ := Option.bind_eq_some_iff.mp decrypted
    cases Option.some.inj decrypted
    obtain ⟨enough, rfl⟩ := readFront_eq_some read
    obtain ⟨count, final_sized⟩ := ih (List.length_take_of_le enough) rest
    refine ⟨?_, final_sized⟩
    rw [List.length_append, length_xorBytes, length_aesDecrypt opened, sized, count]
    omega

/-- In place or not, the same is decrypted; in place, the buffer behind the length stays as it was. -/
theorem cbcDecryptInPlace_apart (ivec buffer : Bytes) (length : Nat) (sized : ivec.length = 16) (inside : length ≤ buffer.length) :
    cbcDecryptInPlace key ivec buffer length =
      (cbcDecryptApart key ivec buffer length).map fun (written, iv) => (written ++ buffer.drop length, iv) := by
  rw [cbcDecryptInPlace, cbcDecryptApart, decryptBlocksInPlace_eq key _ _ _ (by omega)]
  cases blocks : decryptBlocks key (length / 16) ivec buffer with
  | none => rfl
  | some result =>
    obtain ⟨written, iv⟩ := result
    obtain ⟨count, iv_sized⟩ := length_decryptBlocks key _ sized blocks
    simp only [Option.map_some, Option.bind_eq_bind, Option.bind_some, Option.pure_def]
    by_cases whole : length % 16 = 0
    · have same : 16 * (length / 16) = length := by omega
      rw [if_pos whole, if_pos whole, Option.map_some, same]
    · rw [Nat.mul_comm (length / 16), if_neg whole, if_neg whole, List.drop_left' count, List.take_left' count]
      cases read : readFront 16 (buffer.drop (16 * (length / 16))) with
      | none => rfl
      | some block =>
        simp only [Option.bind_some]
        cases opened : aesDecrypt block key with
        | none => rfl
        | some out =>
          obtain ⟨enough, rfl⟩ := readFront_eq_some read
          have behind : buffer.drop length = ((buffer.drop (16 * (length / 16))).drop (length % 16)) := by
            rw [List.drop_drop, Nat.div_add_mod]
          have tail := List.take_append_drop 16 ((buffer.drop (16 * (length / 16))))
          have split : (buffer.drop (16 * (length / 16))).drop (length % 16) =
              ((buffer.drop (16 * (length / 16))).take 16).drop (length % 16) ++ (buffer.drop (16 * (length / 16))).drop 16 := by
            conv_lhs => rw [← tail]
            exact List.drop_append_of_le_length (by rw [List.length_take]; omega)
          simp only [Option.bind_some, Option.map_some, behind, split, List.append_assoc]

/-- Two whole blocks and a cut one, under the schedule of a key. -/
theorem cbcDecryptInPlace_apart_cut : ∃ key iv,
    aesSetDecryptKey (List.replicate 16 7) 128 .blank = some (0, key) ∧
      cbcDecryptApart key (List.replicate 16 1) (cbc (List.replicate 16 7) (List.replicate 16 1) (List.replicate 40 5)) 40 =
        some (List.replicate 40 5, iv) ∧
      cbcDecryptInPlace key (List.replicate 16 1) (cbc (List.replicate 16 7) (List.replicate 16 1) (List.replicate 40 5)) 40 =
        some (List.replicate 40 5 ++
          (cbc (List.replicate 16 7) (List.replicate 16 1) (List.replicate 40 5)).drop 40, iv) := by
  obtain ⟨iv, inPlace⟩ := cbcDecryptInPlace_inverted (.inl rfl : (List.replicate 16 (7 : UInt8)).length = 16 ∨ _) .blank
    (toBlock (List.replicate 16 1)) (List.replicate 40 5)
  rw [bytes_toBlock rfl] at inPlace
  have inside : 40 ≤ (cbc (List.replicate 16 7) (List.replicate 16 1) (List.replicate 40 5)).length := by
    rw [← bytes_toBlock (rfl : (List.replicate 16 (1 : UInt8)).length = 16), length_cbc]
    exact (length_padded (List.replicate 40 5)).2
  have agree := cbcDecryptInPlace_apart (inverted (List.replicate 16 7) .blank) (List.replicate 16 1) _ 40 rfl inside
  rw [List.length_replicate] at inPlace
  obtain ⟨⟨written, iv'⟩, apart, same⟩ := Option.map_eq_some_iff.mp (agree.symm.trans inPlace)
  obtain ⟨front, rfl⟩ := Prod.mk.inj same
  rw [List.append_cancel_right front] at apart
  exact ⟨_, _, aesSetDecryptKey_eq (List.replicate 16 7) .blank (.inl rfl), apart, inPlace⟩

end Apart

end Apsdk.AesModes
