import Apsdk.ApCrypto

/-! Counter mode. The four words of the counter, each incremented when the one
below overflows, count as one number, and the cipher stands at a position of the
keystream that the position alone determines. -/

namespace Apsdk
open Library

/-- A counter of four words, the highest first. -/
def counterOf (a b c d : Nat) : Bytes := beBytes 4 a ++ beBytes 4 b ++ beBytes 4 c ++ beBytes 4 d

theorem getU32_word (before after : Bytes) {offset value : Nat} (stands : before.length = offset) :
    getU32 (before ++ beBytes 4 value ++ after) offset = value % 2 ^ 32 := by
  have same : (before ++ beBytes 4 value ++ after).drop offset = beBytes 4 value ++ after := by
    rw [List.append_assoc, ← stands, List.drop_left]
  have full : (beBytes 4 value ++ after).take 4 = beBytes 4 value :=
    List.take_left' (length_beBytes 4 value)
  rw [getU32, same, full, beValue_beBytes]
  rfl

theorem putU32_word (before after : Bytes) {offset old value : Nat} (stands : before.length = offset) :
    putU32 (before ++ beBytes 4 old ++ after) offset value = before ++ beBytes 4 value ++ after := by
  have kept : (before ++ beBytes 4 old ++ after).take offset = before := by
    rw [List.append_assoc, ← stands, List.take_left]
  have rest : (before ++ beBytes 4 old ++ after).drop (offset + 4) = after := by
    apply List.drop_left'
    rw [List.length_append, length_beBytes, stands]
  rw [putU32, kept, rest]

section Words
variable (a b c d value : Nat)

/-- The words of a counter are where `GETU32` and `PUTU32` look for them. -/
theorem getU32_counterOf :
    getU32 (counterOf a b c d) 12 = d % 2 ^ 32 ∧ getU32 (counterOf a b c d) 8 = c % 2 ^ 32 ∧
    getU32 (counterOf a b c d) 4 = b % 2 ^ 32 ∧ getU32 (counterOf a b c d) 0 = a % 2 ^ 32 := by
  refine ⟨?_, ?_, ?_, ?_⟩
  · have word := @getU32_word (beBytes 4 a ++ beBytes 4 b ++ beBytes 4 c) [] 12 d
      (by simp only [List.length_append, length_beBytes])
    rwa [List.append_nil] at word
  · exact getU32_word (beBytes 4 a ++ beBytes 4 b) (beBytes 4 d) (by simp only [List.length_append, length_beBytes])
  · have word := @getU32_word (beBytes 4 a) (beBytes 4 c ++ beBytes 4 d) 4 b (length_beBytes 4 a)
    simpa only [counterOf, List.append_assoc] using word
  · have word := @getU32_word [] (beBytes 4 b ++ beBytes 4 c ++ beBytes 4 d) 0 a rfl
    simpa only [counterOf, List.append_assoc, List.nil_append] using word

theorem putU32_counterOf :
    putU32 (counterOf a b c d) 12 value = counterOf a b c value ∧
    putU32 (counterOf a b c d) 8 value = counterOf a b value d ∧
    putU32 (counterOf a b c d) 4 value = counterOf a value c d ∧
    putU32 (counterOf a b c d) 0 value = counterOf value b c d := by
  refine ⟨?_, ?_, ?_, ?_⟩
  · have put := @putU32_word (beBytes 4 a ++ beBytes 4 b ++ beBytes 4 c) [] 12 d value
      (by simp only [List.length_append, length_beBytes])
    rwa [List.append_nil, List.append_nil] at put
  · exact putU32_word (beBytes 4 a ++ beBytes 4 b) (beBytes 4 d) (by simp only [List.length_append, length_beBytes])
  · have put := @putU32_word (beBytes 4 a) (beBytes 4 c ++ beBytes 4 d) 4 b value (length_beBytes 4 a)
    simpa only [counterOf, List.append_assoc] using put
  · have put := @putU32_word [] (beBytes 4 b ++ beBytes 4 c ++ beBytes 4 d) 0 a value rfl
    simpa only [counterOf, List.append_assoc, List.nil_append] using put

theorem aesCtr128Inc_counterOf :
    aesCtr128Inc (counterOf a b c d) =
      if (d % 2 ^ 32 + 1) % 2 ^ 32 ≠ 0 then counterOf a b c ((d % 2 ^ 32 + 1) % 2 ^ 32)
      else if (c % 2 ^ 32 + 1) % 2 ^ 32 ≠ 0 then counterOf a b ((c % 2 ^ 32 + 1) % 2 ^ 32) ((d % 2 ^ 32 + 1) % 2 ^ 32)
      else if (b % 2 ^ 32 + 1) % 2 ^ 32 ≠ 0 then
        counterOf a ((b % 2 ^ 32 + 1) % 2 ^ 32) ((c % 2 ^ 32 + 1) % 2 ^ 32) ((d % 2 ^ 32 + 1) % 2 ^ 32)
      else
        counterOf ((a % 2 ^ 32 + 1) % 2 ^ 32) ((b % 2 ^ 32 + 1) % 2 ^ 32) ((c % 2 ^ 32 + 1) % 2 ^ 32)
          ((d % 2 ^ 32 + 1) % 2 ^ 32) := by
  simp only [aesCtr128Inc, getU32_counterOf, putU32_counterOf]

end Words

theorem counterOf_congr {a b c d a' b' c' d' : Nat} (first : a % 2 ^ 32 = a' % 2 ^ 32) (second : b % 2 ^ 32 = b' % 2 ^ 32)
    (third : c % 2 ^ 32 = c' % 2 ^ 32) (fourth : d % 2 ^ 32 = d' % 2 ^ 32) : counterOf a b c d = counterOf a' b' c' d' := by
  have word : ∀ {x y : Nat}, x % 2 ^ 32 = y % 2 ^ 32 → beBytes 4 x = beBytes 4 y  :=
    fun same => @beBytes_congr 4 _ _ same
  rw [counterOf, counterOf, word first, word second, word third, word fourth]

theorem beBytes_16 (value : Nat) :
    beBytes 16 value = counterOf (value / 2 ^ 32 / 2 ^ 32 / 2 ^ 32) (value / 2 ^ 32 / 2 ^ 32) (value / 2 ^ 32) value := by
  rw [counterOf, beBytes_append 12 4, beBytes_append 8 4, beBytes_append 4 4]
  rfl

/-- The increment counts: the whole counter is one number modulo `2^128`. -/
theorem aesCtr128Inc_beBytes (value : Nat) : aesCtr128Inc (beBytes 16 value) = beBytes 16 (value + 1) := by
  rw [beBytes_16, beBytes_16, aesCtr128Inc_counterOf]
  split_ifs with fourth third second
  all_goals
    apply counterOf_congr <;> omega

namespace AesCtr128
variable {aes : BlockCipher} (key : aes.Key) (iv : Bytes)

/-- The keystream of a key and an IV: byte by byte, the encryption of the counter that starts from the IV. -/
def keystream (position : Nat) : UInt8 :=
  (aes.encrypt key (beBytes 16 (beValue iv + position / AES_BLOCK_SIZE))).getD (position % AES_BLOCK_SIZE) 0

/-- The cipher stands at a position of the keystream: the counter is one block
ahead of a block that has been begun, and that block is in `ec_`. -/
structure At (ctr : AesCtr128 aes) (position : Nat) : Prop where
  ctx : ctr.ctx = key
  number : ctr.number = position % AES_BLOCK_SIZE
  counter : ctr.iv = beBytes 16 (beValue iv + (position + 15) / AES_BLOCK_SIZE)
  block : ctr.number ≠ 0 → ctr.ec = aes.encrypt key (beBytes 16 (beValue iv + position / AES_BLOCK_SIZE))

variable {key iv}

theorem next_of_begun {ctr : AesCtr128 aes} (begun : ctr.number ≠ 0) :
    ctr.next = ({ ctr with number := (ctr.number + 1) % AES_BLOCK_SIZE }, ctr.ec.getD ctr.number 0) := by
  simp only [next, if_neg begun]

theorem next_of_fresh {ctr : AesCtr128 aes} (fresh : ctr.number = 0) :
    ctr.next = (⟨ctr.ctx, 1, aesCtr128Inc ctr.iv, aes.encrypt ctr.ctx ctr.iv⟩,
      (aes.encrypt ctr.ctx ctr.iv).getD 0 0) := by
  simp only [next, fresh]
  rfl

theorem At.counter_of_fresh {ctr : AesCtr128 aes} {position : Nat} (stands : At key iv ctr position)
    (fresh : ctr.number = 0) : ctr.iv = beBytes 16 (beValue iv + position / AES_BLOCK_SIZE) := by
  have start := stands.number.symm.trans fresh
  have block : (position + 15) / AES_BLOCK_SIZE = position / AES_BLOCK_SIZE := by
    simp only [AES_BLOCK_SIZE] at start ⊢
    omega
  rw [stands.counter, block]

theorem At.next_byte {ctr : AesCtr128 aes} {position : Nat} (stands : At key iv ctr position) :
    ctr.next.2 = keystream key iv position := by
  by_cases fresh : ctr.number = 0
  · have start := stands.number.symm.trans fresh
    rw [next_of_fresh fresh, stands.counter_of_fresh fresh, stands.ctx, keystream, start]
  · rw [next_of_begun fresh, keystream, stands.block fresh, stands.number]

theorem At.advance {ctr : AesCtr128 aes} {position : Nat} (stands : At key iv ctr position) :
    At key iv ctr.next.1 (position + 1) := by
  by_cases fresh : ctr.number = 0
  · have start := stands.number.symm.trans fresh
    rw [next_of_fresh fresh, stands.counter_of_fresh fresh, stands.ctx, aesCtr128Inc_beBytes]
    simp only [AES_BLOCK_SIZE] at start
    refine ⟨rfl, ?_, ?_, fun _ => ?_⟩
    · simp only [AES_BLOCK_SIZE]
      omega
    · have block : (position + 1 + 15) / AES_BLOCK_SIZE = position / AES_BLOCK_SIZE + 1 := by
        simp only [AES_BLOCK_SIZE]
        omega
      rw [block, Nat.add_assoc]
    · have block : (position + 1) / AES_BLOCK_SIZE = position / AES_BLOCK_SIZE := by
        simp only [AES_BLOCK_SIZE]
        omega
      rw [block]
  · have inside : position % AES_BLOCK_SIZE ≠ 0 := stands.number ▸ fresh
    rw [next_of_begun fresh]
    simp only [AES_BLOCK_SIZE] at inside
    refine ⟨stands.ctx, ?_, ?_, fun begun => ?_⟩
    · rw [stands.number, Nat.mod_add_mod]
    · have block : (position + 1 + 15) / AES_BLOCK_SIZE = (position + 15) / AES_BLOCK_SIZE := by
        simp only [AES_BLOCK_SIZE]
        omega
      rw [block]
      exact stands.counter
    · rw [stands.number] at begun
      have block : (position + 1) / AES_BLOCK_SIZE = position / AES_BLOCK_SIZE := by
        simp only [AES_BLOCK_SIZE] at begun ⊢
        omega
      rw [block]
      exact stands.block fresh

theorem next_follows (key : aes.Key) (iv : Bytes) : Follows next (keystream key iv) (At key iv) :=
  ⟨At.next_byte, At.advance⟩

theorem setKeyIv_at (key iv : Bytes) (full : iv.length = 16) :
    At (aes.setEncryptKey key) iv (setKeyIv key iv : AesCtr128 aes) 0 := by
  refine ⟨rfl, rfl, ?_, fun begun => absurd rfl begun⟩
  have restored := beBytes_beValue iv
  rw [full] at restored
  have start : (0 + 15) / AES_BLOCK_SIZE = 0 := rfl
  simp only [setKeyIv, start, Nat.add_zero, restored]
  exact List.take_of_length_le (Nat.le_of_eq full)

/-- A buffer is combined with the keystream from the position on, whatever was encrypted before. -/
theorem At.xcryptBuffer {ctr : AesCtr128 aes} {position : Nat} {key : aes.Key} {iv : Bytes}
    (stands : At key iv ctr position) (buffer : Bytes) :
    (ctr.xcryptBuffer buffer).2 = xorStream (keystream key iv) position buffer ∧
    At key iv (ctr.xcryptBuffer buffer).1 (position + buffer.length) :=
  (next_follows key iv).xcrypt stands buffer

end AesCtr128

end Apsdk
