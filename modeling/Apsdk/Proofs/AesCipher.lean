import Apsdk.Proofs.AesSchedule

/-! The AES core as a whole: from the bytes of a key and of a block it computes the
cipher that is specified, and its inverse, without reading behind a table. -/

namespace Apsdk.AesCore
open Library Rijndael

section Blocks

theorem bytes_toBlock {data : Bytes} (sized : data.length = 16) : (toBlock data).bytes = data := by
  match data, sized with
  | [_, _, _, _, _, _, _, _, _, _, _, _, _, _, _, _], _ => rfl

theorem length_bytes (block : Block) : block.bytes.length = 16 := rfl

theorem toBlock_bytes (block : Block) : toBlock block.bytes = block := rfl

theorem schedule_count {userKey : Bytes} (sized : userKey.length = 16 ∨ userKey.length = 24 ∨ userKey.length = 32) :
    (userKey.length / 4 + 6) % 2 = 0 ∧ (keySchedule (columns userKey)).middle.length + 1 = userKey.length / 4 + 6 := by
  rw [keySchedule, roundKeys, List.length_map, List.length_range, length_columns]
  omega

end Blocks

/-- The bytes that `AES_set_encrypt_key` and `AES_encrypt` make of a key, a block and whatever the
schedule held before. -/
def encrypted (userKey block : Bytes) (before : Key) : Option Bytes := do
  let (_, key) ← aesSetEncryptKey userKey (8 * userKey.length) before
  aesEncrypt block key

def decrypted (userKey block : Bytes) (before : Key) : Option Bytes := do
  let (_, key) ← aesSetDecryptKey userKey (8 * userKey.length) before
  aesDecrypt block key

theorem aesEncrypt_written {userKey : Bytes} (before : Key) (block : Block)
    (sized : userKey.length = 16 ∨ userKey.length = 24 ∨ userKey.length = 32) :
    aesEncrypt block.bytes (written userKey before) = some (layers.encrypt (keySchedule (columns userKey)) block).bytes :=
  aesEncrypt_eq _ _ (schedule_count sized).1 (schedule_count sized).2 _ block

theorem aesDecrypt_inverted {userKey : Bytes} (before : Key) (block : Block)
    (sized : userKey.length = 16 ∨ userKey.length = 24 ∨ userKey.length = 32) :
    aesDecrypt block.bytes (inverted userKey before) =
      some (layers.decrypt (layers.invert (keySchedule (columns userKey))) block).bytes := by
  have count : (layers.invert (keySchedule (columns userKey))).middle.length + 1 = userKey.length / 4 + 6 := by
    rw [← (schedule_count sized).2, RoundLayers.invert, List.length_reverse, List.length_map]
  exact aesDecrypt_eq _ _ (schedule_count sized).1 count _ block

/-- For every key and block the core computes the cipher. -/
theorem encrypted_eq_cipher (userKey block : Bytes) (before : Key)
    (sized : userKey.length = 16 ∨ userKey.length = 24 ∨ userKey.length = 32) (full : block.length = 16) :
    encrypted userKey block before = some (cipher userKey block) := by
  have computed := aesEncrypt_written before (toBlock block) sized
  rw [bytes_toBlock full] at computed
  rw [encrypted, aesSetEncryptKey_eq userKey before sized]
  exact computed

theorem encrypted_eq_cipher_zeros :
    encrypted (List.replicate 16 0) (List.replicate 16 0) .blank =
      some (cipher (List.replicate 16 0) (List.replicate 16 0)) :=
  encrypted_eq_cipher _ _ _ (Or.inl rfl) rfl

/-- The inverse is computed by another schedule, over other tables. -/
theorem decrypted_encrypted (userKey block : Bytes) (before before' : Key)
    (sized : userKey.length = 16 ∨ userKey.length = 24 ∨ userKey.length = 32) (full : block.length = 16) :
    (encrypted userKey block before).bind (decrypted userKey · before') = some block := by
  have forth := aesEncrypt_written before (toBlock block) sized
  have back := aesDecrypt_inverted before' (layers.encrypt (keySchedule (columns userKey)) (toBlock block)) sized
  rw [bytes_toBlock full] at forth
  rw [layers.decrypt_encrypt, bytes_toBlock full] at back
  have undone : decrypted userKey (layers.encrypt (keySchedule (columns userKey)) (toBlock block)).bytes before' = some block := by
    rw [decrypted, aesSetDecryptKey_eq userKey before' sized]
    exact back
  rw [encrypted, aesSetEncryptKey_eq userKey before sized]
  exact (congrArg (Option.bind · (decrypted userKey · before')) forth).trans undone

theorem decrypted_encrypted_zeros :
    (encrypted (List.replicate 32 0) (List.replicate 16 0) .blank).bind (decrypted (List.replicate 32 0) · .blank) =
      some (List.replicate 16 0) :=
  decrypted_encrypted _ _ _ _ (Or.inr (Or.inr rfl)) rfl

end Apsdk.AesCore
