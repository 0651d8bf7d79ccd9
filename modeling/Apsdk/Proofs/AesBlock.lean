import Apsdk.Proofs.AesTables

/-! A block is encrypted and decrypted as the cipher is specified, whatever the schedule
holds behind its last round key. -/

namespace Apsdk.AesCore
open Library Rijndael

/-- A block as the state of the cipher. -/
def loads (block : Block) : Words := ⟨load block.c0, load block.c1, load block.c2, load block.c3⟩

/-- A round key in the schedule. -/
def words (key : Block) : List U32 := [load key.c0, load key.c1, load key.c2, load key.c3]

/-- The keys in the order in which they are used. -/
def scheduled (keys : RoundKeys Block) : List Block := keys.first :: keys.middle ++ [keys.last]

theorem stored_words {rk : List U32} {at0 : Nat} {key : Block} (stored : (rk.drop at0).take 4 = words key) :
    rk[at0]? = some (load key.c0) ∧ rk[at0 + 1]? = some (load key.c1) ∧ rk[at0 + 2]? = some (load key.c2) ∧
      rk[at0 + 3]? = some (load key.c3) := by
  have entry : ∀ i, i < 4 → rk[at0 + i]? = (words key)[i]? := by
    intro i small
    rw [← stored, List.getElem?_take_of_lt small, List.getElem?_drop]
  exact ⟨entry 0 (by decide), entry 1 (by decide), entry 2 (by decide), entry 3 (by decide)⟩

section Encrypt

theorem encryptWord_load (a b c d key : Column) :
    encryptWord (load a) (load b) (load c) (load d) (load key) =
      some (load ((Column.mix ⟨sBox a.b0, sBox b.b1, sBox c.b2, sBox d.b3⟩).add key)) := by
  have mixed := xor_mixed ⟨sBox a.b0, sBox b.b1, sBox c.b2, sBox d.b3⟩
  rw [encryptWord, load_byte0, load_byte1, load_byte2, load_byte3, lookup_mixed Te_eq.1, lookup_mixed Te_eq.2.1,
    lookup_mixed Te_eq.2.2.1, lookup_mixed Te_eq.2.2.2, load_add, ← mixed]
  rfl

theorem lastWord_load (a b c d key : Column) :
    lastWord (load a) (load b) (load c) (load d) (load key) =
      some (load (Column.add ⟨sBox a.b0, sBox b.b1, sBox c.b2, sBox d.b3⟩ key)) := by
  rw [lastWord, load_byte0, load_byte1, load_byte2, load_byte3, substituted_wide, load_add]
  rfl

theorem initialWords_loads (block key : Block) (later : List U32) :
    initialWords block.bytes (words key ++ later) = some (loads (layers.add block key)) := by
  have load0 : getU32 block.bytes 0 = some (load block.c0) := getU32_load rfl rfl rfl rfl
  have load1 : getU32 block.bytes 4 = some (load block.c1) := getU32_load rfl rfl rfl rfl
  have load2 : getU32 block.bytes 8 = some (load block.c2) := getU32_load rfl rfl rfl rfl
  have load3 : getU32 block.bytes 12 = some (load block.c3) := getU32_load rfl rfl rfl rfl
  simp [initialWords, load0, load1, load2, load3, words, loads, layers, Block.add, load_add]

theorem encryptRound_loads {rk : List U32} {at0 : Nat} (s key : Block) (stored : (rk.drop at0).take 4 = words key) :
    encryptRound (loads s) rk at0 =
      some (loads (layers.add (layers.mix (layers.shift (layers.substitute s))) key)) := by
  obtain ⟨key0, key1, key2, key3⟩ := stored_words stored
  rw [encryptRound, key0, key1, key2, key3]
  simp only [loads, Option.pure_def, Option.bind_eq_bind, Option.bind_some, encryptWord_load]
  rfl

/-- The loop takes its round keys in pairs, the first of which belongs to no full round of it. -/
theorem encryptRounds_loads (r : Nat) (keys : List Block) (odd : keys.length = 2 * r + 1) (s head : Block) (later : List U32) :
    encryptRounds (r + 1) (loads s) (words head ++ keys.flatMap words ++ later) = some (loads (layers.rounds keys s), later) := by
  induction r generalizing keys s head with
  | zero =>
    obtain ⟨key, rfl⟩ := List.length_eq_one_iff.mp odd
    rw [encryptRounds, encryptRound_loads s key rfl]
    rfl
  | succ r ih =>
    match keys, odd with
    | first :: second :: rest, odd =>
      have rest_odd : rest.length = 2 * r + 1 := by
        simp only [List.length_cons] at odd
        omega
      have again := ih rest rest_odd (layers.add (layers.mix (layers.shift (layers.substitute
        (layers.add (layers.mix (layers.shift (layers.substitute s))) first)))) second) second
      have tail : (words head ++ (first :: second :: rest).flatMap words ++ later).drop 8 =
          words second ++ rest.flatMap words ++ later := rfl
      rw [encryptRounds, encryptRound_loads s first rfl]
      simp only [Option.bind_eq_bind, Option.bind_some, tail, Nat.add_one_ne_zero, if_false]
      rw [encryptRound_loads _ second rfl]
      exact again

theorem lastRound_loads (rk : List U32) (t key : Block) (stored : (rk.drop 0).take 4 = words key) :
    lastRound (loads t) rk = some (loads (layers.add (layers.shift (layers.substitute t)) key)) := by
  obtain ⟨key0, key1, key2, key3⟩ := stored_words stored
  rw [Nat.zero_add] at key1 key2 key3
  rw [lastRound, key0, key1, key2, key3]
  simp only [loads, Option.pure_def, Option.bind_eq_bind, Option.bind_some, lastWord_load]
  rfl

theorem bytes_loads (block : Block) : (loads block).bytes = block.bytes := by
  have stored : ∀ column : Column, putU32 (load column) = column.bytes := fun column => putU32_eq fun i _ => rfl
  simp only [Words.bytes, loads, stored, Block.bytes]

/-- `AES_encrypt` runs the cipher. -/
theorem aesEncrypt_eq (keys : RoundKeys Block) (rounds : Nat) (even : rounds % 2 = 0)
    (count : keys.middle.length + 1 = rounds) (behind : List U32) (block : Block) :
    aesEncrypt block.bytes ⟨(scheduled keys).flatMap words ++ behind, rounds⟩ = some (layers.encrypt keys block).bytes := by
  obtain ⟨r, pairs⟩ : ∃ r, rounds / 2 = r + 1 := ⟨rounds / 2 - 1, by omega⟩
  have odd : keys.middle.length = 2 * r + 1 := by omega
  have shape : (scheduled keys).flatMap words ++ behind =
      words keys.first ++ (keys.middle.flatMap words ++ (words keys.last ++ behind)) := by
    simp [scheduled]
  have start := initialWords_loads block keys.first (keys.middle.flatMap words ++ (words keys.last ++ behind))
  have loop := encryptRounds_loads r keys.middle odd (layers.add block keys.first) keys.first (words keys.last ++ behind)
  have final := lastRound_loads (words keys.last ++ behind) (layers.rounds keys.middle (layers.add block keys.first))
    keys.last rfl
  rw [List.append_assoc] at loop
  rw [aesEncrypt, shape, start]
  simp only [Option.bind_eq_bind, Option.bind_some, pairs, loop, final, Option.pure_def, bytes_loads]
  rfl

end Encrypt

section Decrypt

theorem decryptWord_load (a b c d key : Column) :
    decryptWord (load a) (load b) (load c) (load d) (load key) =
      some (load ((Column.unmix ⟨invSBox a.b0, invSBox b.b1, invSBox c.b2, invSBox d.b3⟩).add key)) := by
  have unmixed := xor_unmixed ⟨invSBox a.b0, invSBox b.b1, invSBox c.b2, invSBox d.b3⟩
  rw [decryptWord, load_byte0, load_byte1, load_byte2, load_byte3, lookup_unmixed Td_eq.1, lookup_unmixed Td_eq.2.1,
    lookup_unmixed Td_eq.2.2.1, lookup_unmixed Td_eq.2.2.2, load_add, ← unmixed]
  rfl

theorem decryptRound_loads {rk : List U32} {at0 : Nat} (s key : Block) (stored : (rk.drop at0).take 4 = words key) :
    decryptRound (loads s) rk at0 =
      some (loads (layers.add (layers.unmix (layers.unsubstitute (layers.unshift s))) key)) := by
  obtain ⟨key0, key1, key2, key3⟩ := stored_words stored
  rw [decryptRound, key0, key1, key2, key3]
  simp only [loads, Option.pure_def, Option.bind_eq_bind, Option.bind_some, decryptWord_load]
  rfl

theorem decryptRounds_loads (r : Nat) (keys : List Block) (odd : keys.length = 2 * r + 1) (s head : Block) (later : List U32) :
    decryptRounds (r + 1) (loads s) (words head ++ keys.flatMap words ++ later) =
      some (loads (layers.unrounds keys s), later) := by
  induction r generalizing keys s head with
  | zero =>
    obtain ⟨key, rfl⟩ := List.length_eq_one_iff.mp odd
    rw [decryptRounds, decryptRound_loads s key rfl]
    rfl
  | succ r ih =>
    match keys, odd with
    | first :: second :: rest, odd =>
      have rest_odd : rest.length = 2 * r + 1 := by
        simp only [List.length_cons] at odd
        omega
      have again := ih rest rest_odd (layers.add (layers.unmix (layers.unsubstitute (layers.unshift
        (layers.add (layers.unmix (layers.unsubstitute (layers.unshift s))) first)))) second) second
      have tail : (words head ++ (first :: second :: rest).flatMap words ++ later).drop 8 =
          words second ++ rest.flatMap words ++ later := rfl
      rw [decryptRounds, decryptRound_loads s first rfl]
      simp only [Option.bind_eq_bind, Option.bind_some, tail, Nat.add_one_ne_zero, if_false]
      rw [decryptRound_loads _ second rfl]
      exact again

/-- The sign of the word that is undone is spread over bits that are not stored. -/
theorem undoneWord_load (a b c d key : Column) :
    ∃ word, undoneWord (load a) (load b) (load c) (load d) (load key) = some word ∧
      putU32 word = (Column.add ⟨invSBox a.b0, invSBox b.b1, invSBox c.b2, invSBox d.b3⟩ key).bytes := by
  have entry : ∀ byte : UInt8, Td4[(wide byte).toNat]? = some (invSBox byte).toNat := by
    intro byte
    rw [toNat_wide, Td4_eq, getElem_invSBoxTable]
  rw [undoneWord, load_byte0, load_byte1, load_byte2, load_byte3]
  simp only [entry, Option.map_some, Option.bind_eq_bind, Option.bind_some, Option.pure_def]
  refine ⟨_, rfl, putU32_eq fun i low => ?_⟩
  have narrow : ∀ (byte : UInt8) (j : Nat), j < 32 → (BitVec.ofNat 32 byte.toNat).getLsbD j = byte.toNat.testBit j := by
    intro byte j small
    rw [BitVec.getLsbD_ofNat, decide_eq_true small, Bool.true_and]
  rw [load_add, BitVec.getLsbD_xor, BitVec.getLsbD_xor, BitVec.getLsbD_signExtend, if_pos low]
  congr 1
  simp only [load, BitVec.getLsbD_xor, BitVec.getLsbD_shiftLeft, getLsbD_wide, narrow _ _ low,
    narrow _ _ (show i - 24 < 32 by omega), narrow _ _ (show i - 16 < 32 by omega), narrow _ _ (show i - 8 < 32 by omega),
    decide_eq_true low, decide_eq_true (show i < 64 by omega), Bool.true_and]

theorem undoneRound_loads (rk : List U32) (t key : Block) (stored : (rk.drop 0).take 4 = words key) :
    ∃ s, undoneRound (loads t) rk = some s ∧
      s.bytes = (layers.add (layers.unsubstitute (layers.unshift t)) key).bytes := by
  obtain ⟨key0, key1, key2, key3⟩ := stored_words stored
  rw [Nat.zero_add] at key1 key2 key3
  obtain ⟨s0, word0, bytes0⟩ := undoneWord_load t.c0 t.c3 t.c2 t.c1 key.c0
  obtain ⟨s1, word1, bytes1⟩ := undoneWord_load t.c1 t.c0 t.c3 t.c2 key.c1
  obtain ⟨s2, word2, bytes2⟩ := undoneWord_load t.c2 t.c1 t.c0 t.c3 key.c2
  obtain ⟨s3, word3, bytes3⟩ := undoneWord_load t.c3 t.c2 t.c1 t.c0 key.c3
  refine ⟨⟨s0, s1, s2, s3⟩, ?_, ?_⟩
  · rw [undoneRound, key0, key1, key2, key3]
    simp only [loads, Option.pure_def, Option.bind_eq_bind, Option.bind_some, word0, word1, word2, word3]
  · rw [Words.bytes, bytes0, bytes1, bytes2, bytes3]
    rfl

/-- `AES_decrypt` runs the inverse of the cipher, by rounds of the same shape. -/
theorem aesDecrypt_eq (keys : RoundKeys Block) (rounds : Nat) (even : rounds % 2 = 0)
    (count : keys.middle.length + 1 = rounds) (behind : List U32) (block : Block) :
    aesDecrypt block.bytes ⟨(scheduled keys).flatMap words ++ behind, rounds⟩ = some (layers.decrypt keys block).bytes := by
  obtain ⟨r, pairs⟩ : ∃ r, rounds / 2 = r + 1 := ⟨rounds / 2 - 1, by omega⟩
  have odd : keys.middle.length = 2 * r + 1 := by omega
  have shape : (scheduled keys).flatMap words ++ behind =
      words keys.first ++ (keys.middle.flatMap words ++ (words keys.last ++ behind)) := by
    simp [scheduled]
  have start := initialWords_loads block keys.first (keys.middle.flatMap words ++ (words keys.last ++ behind))
  have loop := decryptRounds_loads r keys.middle odd (layers.add block keys.first) keys.first (words keys.last ++ behind)
  obtain ⟨s, final, bytes⟩ := undoneRound_loads (words keys.last ++ behind)
    (layers.unrounds keys.middle (layers.add block keys.first)) keys.last rfl
  rw [List.append_assoc] at loop
  rw [aesDecrypt, shape, start]
  simp only [Option.bind_eq_bind, Option.bind_some, pairs, loop, final, Option.pure_def, bytes]
  rfl

end Decrypt

end Apsdk.AesCore
