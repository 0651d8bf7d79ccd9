import Apsdk.AesCore
import Apsdk.AudioReceiver

/-! CBC mode in `third-party/opensslaes` over the AES core, and the ciphers of `ap_aes` that
are made of the two. -/

namespace Apsdk.AesModes
open Library AesCore AudioReceiver

def xorBytes (first second : Bytes) : Bytes := List.zipWith (· ^^^ ·) first second

/-- The loop of `AES_cbc_encrypt` that encrypts so many blocks: what it writes, and the IV for what is behind. -/
def encryptBlocks (key : Key) : Nat → Bytes → Bytes → Option (Bytes × Bytes)
  | 0, iv, _ => some ([], iv)
  | n + 1, iv, input => do
    let out ← aesEncrypt (xorBytes (← readFront 16 input) iv) key
    let (later, iv') ← encryptBlocks key n out (input.drop 16)
    return (out ++ later, iv')

/-- `AES_cbc_encrypt` to encrypt, in place or not: what it writes, and what it leaves in the IV. A
block that is not full is filled up from the IV. -/
def cbcEncrypt (key : Key) (ivec input : Bytes) : Option (Bytes × Bytes) := do
  let (blocks, iv) ← encryptBlocks key (input.length / 16) ivec input
  let rest := input.drop (input.length / 16 * 16)
  if rest = [] then return (blocks, iv)
  let out ← aesEncrypt (xorBytes rest iv ++ iv.drop rest.length) key
  return (blocks ++ out, out)

/-- The loop that decrypts into other memory. -/
def decryptBlocks (key : Key) : Nat → Bytes → Bytes → Option (Bytes × Bytes)
  | 0, iv, _ => some ([], iv)
  | n + 1, iv, input => do
    let block ← readFront 16 input
    let out ← aesDecrypt block key
    let (later, iv') ← decryptBlocks key n block (input.drop 16)
    return (xorBytes out iv ++ later, iv')

/-- `AES_cbc_encrypt` to decrypt, with `in` and `out` apart. `input` is what can be read from `in` on; the
last block is read whole. -/
def cbcDecryptApart (key : Key) (ivec input : Bytes) (length : Nat) : Option (Bytes × Bytes) := do
  let (blocks, iv) ← decryptBlocks key (length / 16) ivec input
  let len := length % 16
  if len = 0 then return (blocks, iv)
  let block ← readFront 16 (input.drop (length / 16 * 16))
  let tmp ← aesDecrypt block key
  return (blocks ++ (xorBytes tmp iv).take len, block)

/-- The loop that decrypts in place: the buffer from the cursor on, and the IV. -/
def decryptBlocksInPlace (key : Key) : Nat → Bytes → Bytes → Option (Bytes × Bytes)
  | 0, ivec, buffer => some (buffer, ivec)
  | n + 1, ivec, buffer => do
    let tmp ← readFront 16 buffer
    let out ← aesDecrypt tmp key
    let (later, ivec') ← decryptBlocksInPlace key n tmp (buffer.drop 16)
    return (xorBytes out ivec ++ later, ivec')

/-- `AES_cbc_encrypt` to decrypt in place: the buffer afterwards. What is behind the length in the last
block is written as it was. -/
def cbcDecryptInPlace (key : Key) (ivec buffer : Bytes) (length : Nat) : Option (Bytes × Bytes) := do
  let (buffer, ivec) ← decryptBlocksInPlace key (length / 16) ivec buffer
  let len := length % 16
  if len = 0 then return (buffer, ivec)
  let before := buffer.take (length / 16 * 16)
  let rest := buffer.drop (length / 16 * 16)
  let tmp ← readFront 16 rest
  let out ← aesDecrypt tmp key
  return (before ++ (xorBytes out ivec).take len ++ tmp.drop len ++ rest.drop 16, tmp)

/-- `AES_set_encrypt_key` and `AES_encrypt` as the ciphers of the connection use them. -/
def opensslAes : BlockCipher where
  Key := Key
  blank := .blank
  setEncryptKey := fun userKey => ((aesSetEncryptKey userKey 128 .blank).map Prod.snd).getD .blank
  encrypt := fun key block => (aesEncrypt block key).getD []

section Length

theorem length_aesDecrypt {block out : Bytes} {key : Key} (decrypted : aesDecrypt block key = some out) : out.length = 16 := by
  obtain ⟨s, -, decrypted⟩ := Option.bind_eq_some_iff.mp decrypted
  obtain ⟨⟨t, rk⟩, -, decrypted⟩ := Option.bind_eq_some_iff.mp decrypted
  obtain ⟨s, -, decrypted⟩ := Option.bind_eq_some_iff.mp decrypted
  obtain rfl : s.bytes = out := Option.some.inj decrypted
  rfl

theorem readFront_eq_some {count : Nat} {bytes front : Bytes} (read : readFront count bytes = some front) :
    count ≤ bytes.length ∧ front = bytes.take count := by
  rw [readFront] at read
  split at read
  · exact ⟨‹_›, (Option.some.inj read).symm⟩
  · cases read

theorem length_xorBytes (first second : Bytes) : (xorBytes first second).length = min first.length second.length :=
  List.length_zipWith

theorem length_decryptBlocksInPlace {key : Key} (n : Nat) {ivec buffer after ivec' : Bytes} (sized : ivec.length = 16)
    (decrypted : decryptBlocksInPlace key n ivec buffer = some (after, ivec')) :
    after.length = buffer.length ∧ ivec'.length = 16 := by
  induction n generalizing ivec buffer after ivec' with
  | zero =>
    cases Option.some.inj decrypted
    exact ⟨rfl, sized⟩
  | succ n ih =>
    obtain ⟨tmp, read, decrypted⟩ := Option.bind_eq_some_iff.mp decrypted
    obtain ⟨out, block, decrypted⟩ := Option.bind_eq_some_iff.mp decrypted
    obtain ⟨⟨later, final⟩, rest, decrypted⟩ := Option.bind_eq_some_iff.mp decrypted
    cases Option.some.inj decrypted
    obtain ⟨enough, rfl⟩ := readFront_eq_some read
    have tmp_sized : (buffer.take 16).length = 16 := List.length_take_of_le enough
    obtain ⟨same, final_sized⟩ := ih tmp_sized rest
    refine ⟨?_, final_sized⟩
    rw [List.length_append, length_xorBytes, length_aesDecrypt block, sized, same, List.length_drop]
    omega

theorem length_cbcDecryptInPlace {key : Key} {ivec buffer after ivec' : Bytes} {length : Nat} (sized : ivec.length = 16)
    (decrypted : cbcDecryptInPlace key ivec buffer length = some (after, ivec')) : after.length = buffer.length := by
  obtain ⟨⟨middle, last⟩, blocks, decrypted⟩ := Option.bind_eq_some_iff.mp decrypted
  obtain ⟨same, last_sized⟩ := length_decryptBlocksInPlace _ sized blocks
  dsimp only at decrypted
  split at decrypted
  · cases Option.some.inj decrypted
    exact same
  · obtain ⟨tmp, read, decrypted⟩ := Option.bind_eq_some_iff.mp decrypted
    obtain ⟨out, block, decrypted⟩ := Option.bind_eq_some_iff.mp decrypted
    obtain ⟨enough, rfl⟩ := readFront_eq_some read
    cases Option.some.inj decrypted
    have last_block := length_aesDecrypt block
    rw [List.length_drop] at enough
    simp only [List.length_append, List.length_take, List.length_drop, length_xorBytes, last_block, last_sized]
    omega

end Length

/-- The half of `AES_cbc_encrypt` that `ap_aes_cbc128` decrypts with; its IV is an array of 16 bytes. -/
def opensslCbc : CbcCipher where
  Key := Key
  blank := .blank
  setDecryptKey := fun userKey key => ((aesSetDecryptKey userKey 128 key).map Prod.snd).getD key
  cbcEncrypt := fun key iv data => if iv.length = 16 then (cbcDecryptInPlace key iv data data.length).getD (data, iv) else (data, iv)
  length_cbcEncrypt := fun key iv data => by
    split
    · cases decrypted : cbcDecryptInPlace key iv data data.length with
      | none => rfl
      | some result => exact length_cbcDecryptInPlace ‹_› decrypted
    · rfl

end Apsdk.AesModes
