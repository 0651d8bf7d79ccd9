import Apsdk.Sha512

/-! The digest does not depend on the portions in which data comes, and is the one that is
specified for all of it, as long as its length in bits has 64 bits. -/

namespace Apsdk.Sha512
open Library Library.Sha512 BlockHash

section Functions

theorem ch_eq (x y z : U64) : Apsdk.Sha512.ch x y z = Library.Sha512.ch x y z := by
  apply BitVec.eq_of_getLsbD_eq
  intro i low
  simp only [Apsdk.Sha512.ch, Library.Sha512.ch, BitVec.getLsbD_xor, BitVec.getLsbD_and, BitVec.getLsbD_not, low, decide_true,
    Bool.true_and]
  cases x.getLsbD i <;> cases y.getLsbD i <;> cases z.getLsbD i <;> rfl

theorem maj_eq (x y z : U64) : Apsdk.Sha512.maj x y z = Library.Sha512.maj x y z := by
  apply BitVec.eq_of_getLsbD_eq
  intro i _
  simp only [Apsdk.Sha512.maj, Library.Sha512.maj, BitVec.getLsbD_xor, BitVec.getLsbD_and, BitVec.getLsbD_or]
  cases x.getLsbD i <;> cases y.getLsbD i <;> cases z.getLsbD i <;> rfl

theorem ror64c_eq (x : U64) {y : Nat} (small : y < 64) : ror64c x y = x.rotateRight y := by
  rw [ror64c, Nat.mod_eq_of_lt small, BitVec.rotateRight_eq_rotateRightAux_of_lt small]
  rfl

theorem sigma0_eq (x : U64) : sigma0 x = bigSigma0 x := by
  rw [sigma0, ror64c_eq x (by decide), ror64c_eq x (by decide), ror64c_eq x (by decide), bigSigma0]

theorem sigma1_eq (x : U64) : sigma1 x = bigSigma1 x := by
  rw [sigma1, ror64c_eq x (by decide), ror64c_eq x (by decide), ror64c_eq x (by decide), bigSigma1]

theorem gamma0_eq (x : U64) : gamma0 x = smallSigma0 x := by
  rw [gamma0, ror64c_eq x (by decide), ror64c_eq x (by decide), smallSigma0]

theorem gamma1_eq (x : U64) : gamma1 x = smallSigma1 x := by
  rw [gamma1, ror64c_eq x (by decide), ror64c_eq x (by decide), smallSigma1]

end Functions

section Words

theorem toNat_low (word : U64) : (word &&& 255).toNat = word.toNat % 256 := by
  rw [BitVec.toNat_and]
  exact Nat.and_two_pow_sub_one_eq_mod word.toNat 8

theorem u8_low (x : U64) (n : Nat) : u8 ((x >>> n) &&& 255) = UInt8.ofNat (x.toNat / 2 ^ n) := by
  rw [u8, toNat_low, BitVec.toNat_ushiftRight, Nat.shiftRight_eq_div_pow]
  apply UInt8.toNat_inj.mp
  simp only [UInt8.toNat_ofNat']
  omega

theorem store64h_eq (x : U64) : store64h x = beBytes 8 x.toNat := by
  have last : u8 (x &&& 255) = UInt8.ofNat x.toNat := by
    simpa using u8_low x 0
  simp only [store64h, u8_low, last, beBytes, leBytes, List.reverse_cons, List.reverse_nil, List.nil_append, List.cons_append,
    Nat.div_div_eq_div_mul]
  norm_num

/-- A byte is put below those that are there. -/
theorem toNat_or_byte (x : U64) (byte : UInt8) {k a : Nat} (held : x.toNat = 2 ^ (k + 8) * a) (fits : k ≤ 56) :
    (x ||| ((BitVec.ofNat 64 byte.toNat &&& 255) <<< k)).toNat = 2 ^ k * (256 * a + byte.toNat) := by
  have small := byte.toNat_lt
  have low : (BitVec.ofNat 64 byte.toNat &&& 255).toNat = byte.toNat := by
    rw [toNat_low, BitVec.toNat_ofNat]
    omega
  have shifted : byte.toNat * 2 ^ k < 2 ^ (k + 8) := by
    rw [Nat.pow_add, Nat.mul_comm]
    exact Nat.mul_lt_mul_of_pos_left small (Nat.two_pow_pos k)
  have bound : byte.toNat * 2 ^ k < 2 ^ 64 := shifted.trans_le (Nat.pow_le_pow_right (by decide) (by omega))
  rw [BitVec.toNat_or, BitVec.toNat_shiftLeft, low, held, Nat.shiftLeft_eq, Nat.mod_eq_of_lt bound,
    ← Nat.two_pow_add_eq_or_of_lt shifted]
  ring

theorem take_drop_eq_map (bytes : Bytes) (offset n : Nat) (inside : offset + n ≤ bytes.length) :
    (bytes.drop offset).take n = (List.range n).map fun i => bytes.getD (offset + i) 0 := by
  apply List.ext_getElem
  · simp
    omega
  · intro i low _
    simp only [List.length_take, List.length_drop] at low
    simp [List.getElem?_eq_getElem (show offset + i < bytes.length by omega)]

theorem load64h_eq (buf : Bytes) (offset : Nat) (inside : offset + 8 ≤ buf.length) :
    load64h buf offset = BitVec.ofNat 64 (beValue ((buf.drop offset).take 8)) := by
  have first : ((BitVec.ofNat 64 (buf.getD (offset + 0) 0).toNat &&& 255) <<< 56 : U64).toNat =
      2 ^ (48 + 8) * (buf.getD (offset + 0) 0).toNat := by
    have alone := toNat_or_byte 0 (buf.getD (offset + 0) 0) (k := 56) (a := 0) rfl (by decide)
    simpa using alone
  have second := toNat_or_byte _ (buf.getD (offset + 1) 0) first (by decide)
  have third := toNat_or_byte _ (buf.getD (offset + 2) 0) (k := 40) second (by decide)
  have fourth := toNat_or_byte _ (buf.getD (offset + 3) 0) (k := 32) third (by decide)
  have fifth := toNat_or_byte _ (buf.getD (offset + 4) 0) (k := 24) fourth (by decide)
  have sixth := toNat_or_byte _ (buf.getD (offset + 5) 0) (k := 16) fifth (by decide)
  have seventh := toNat_or_byte _ (buf.getD (offset + 6) 0) (k := 8) sixth (by decide)
  have eighth := toNat_or_byte _ (buf.getD (offset + 7) 0) (k := 0) seventh (by decide)
  rw [BitVec.shiftLeft_zero] at eighth
  have value : (load64h buf offset).toNat = beValue ((buf.drop offset).take 8) := by
    rw [take_drop_eq_map buf offset 8 inside, load64h]
    refine eighth.trans ?_
    simp [beValue, leValue, List.range_succ]
    ring
  rw [← value, BitVec.ofNat_toNat, BitVec.setWidth_eq]

end Words
section Rounds

def State.registers (s : State) : Registers := ⟨s.s0, s.s1, s.s2, s.s3, s.s4, s.s5, s.s6, s.s7⟩

theorem rounds_append (r : Registers) (first second : List (Word × Word)) :
    rounds r (first ++ second) = rounds (rounds r first) second := by
  induction first generalizing r with
  | nil => rfl
  | cons pair first ih => exact ih _

/-- After eight rounds every register has its own part again. -/
theorem eightRounds_eq (s : State) (k w : Nat → U64) :
    (eightRounds s k w).registers = rounds s.registers ((List.range 8).map fun j => (k j, w j)) := by
  simp only [eightRounds, rnd, ch_eq, maj_eq, sigma0_eq, sigma1_eq]
  rfl

theorem compressLoop_eq (w : List U64) (n i : Nat) (s : State) :
    (compressLoop w n i s).registers =
      rounds s.registers ((List.range' i (8 * n)).map fun j => (BitVec.ofNat 64 (K.getD j 0), w.getD j 0)) := by
  induction n generalizing i s with
  | zero => rfl
  | succ n ih =>
    have eight : List.range' i (8 * (n + 1)) = (List.range 8).map (i + ·) ++ List.range' (i + 8) (8 * n) := by
      rw [← List.range'_eq_map_range, Nat.mul_succ, Nat.add_comm, ← List.range'_append_1]
    rw [compressLoop, ih, eightRounds_eq, eight, List.map_append, rounds_append, List.map_map]
    rfl

theorem fillW_eq (n : Nat) (w : List U64) : fillW n w = schedule n w := by
  induction n generalizing w with
  | zero => rfl
  | succ n ih =>
    rw [fillW, ih, schedule, nextWord]
    simp only [gamma0_eq, gamma1_eq]

theorem length_schedule (n : Nat) (w : List U64) : (schedule n w).length = w.length + n := by
  induction n generalizing w with
  | zero => rfl
  | succ n ih =>
    rw [schedule, ih, List.length_append, List.length_singleton]
    omega

theorem zip_eq_map {α β : Type} (a : α) (b : β) (first : List α) (second : List β) (same : first.length = second.length) :
    first.zip second = (List.range' 0 first.length).map fun j => (first.getD j a, second.getD j b) := by
  apply List.ext_getElem
  · simp [same]
  · intro i low _
    rw [List.length_zip] at low
    simp [List.getD_eq_getElem?_getD, List.getElem?_eq_getElem (show i < first.length by omega),
      List.getElem?_eq_getElem (show i < second.length by omega)]

end Rounds

section Compress

theorem K_eq : K.map (BitVec.ofNat 64) = roundConstants := by decide +kernel

theorem words_eq (n : Nat) (data : Bytes) (enough : 8 * n ≤ data.length) :
    words n data = (List.range n).map fun i => load64h data (8 * i) := by
  have later : ∀ (n i : Nat), 8 * (i + n) ≤ data.length →
      words n (data.drop (8 * i)) = (List.range' i n).map fun i => load64h data (8 * i) := by
    intro n
    induction n with
    | zero => intro i _; rfl
    | succ n ih =>
      intro i inside
      have next := ih (i + 1) (by omega)
      rw [words, List.range'_succ, List.map_cons, load64h_eq data (8 * i) (by omega), List.drop_drop]
      congr 1
  simpa [List.range_eq_range'] using later n 0 (by omega)

theorem sha512Compress_eq (state : State) {buf : Bytes} (full : buf.length = 128) :
    (sha512Compress state buf).registers = compress state.registers buf := by
  have filled : fillW 64 ((List.range 16).map fun i => load64h buf (8 * i)) = schedule 64 (words 16 buf) := by
    rw [fillW_eq, words_eq 16 buf (by omega)]
  have length : (schedule 64 (words 16 buf)).length = 80 := by
    rw [length_schedule, words_eq 16 buf (by omega), List.length_map, List.length_range]
  have paired : ((List.range' 0 80).map fun j => (BitVec.ofNat 64 (K.getD j 0), (schedule 64 (words 16 buf)).getD j 0)) =
      roundConstants.zip (schedule 64 (words 16 buf)) := by
    have constants : roundConstants.length = 80 := by rw [← K_eq, List.length_map]; rfl
    rw [zip_eq_map 0 0 roundConstants _ (constants.trans length.symm), constants, ← K_eq]
    apply List.map_congr_left
    intro j _
    simp only [List.getD_eq_getElem?_getD, List.getElem?_map]
    cases K[j]? <;> rfl
  have looped := compressLoop_eq (schedule 64 (words 16 buf)) 10 0 state
  rw [paired] at looped
  rw [sha512Compress, filled, compress, ← looped]
  rfl

theorem sha512Init_eq (md : Context) : (sha512Init md).state.registers = initial := by
  have constants : (⟨0x6a09e667f3bcc908, 0xbb67ae8584caa73b, 0x3c6ef372fe94f82b, 0xa54ff53a5f1d36f1, 0x510e527fade682d1,
      0x9b05688c2b3e6c1f, 0x1f83d9abfb41bd6b, 0x5be0cd19137e2179⟩ : Registers) = initial := by
    decide +kernel
  exact constants

end Compress
section Portions

theorem length_fillBuf {buf : Bytes} {offset : Nat} {bytes : Bytes} (inside : offset + bytes.length ≤ buf.length) :
    (fillBuf buf offset bytes).length = buf.length := by
  simp only [fillBuf, List.length_append, List.length_take, List.length_drop]
  omega

theorem take_fillBuf (buf : Bytes) {offset : Nat} (bytes : Bytes) (inside : offset ≤ buf.length) :
    (fillBuf buf offset bytes).take (offset + bytes.length) = buf.take offset ++ bytes := by
  have length : (buf.take offset ++ bytes).length = offset + bytes.length := by
    rw [List.length_append, List.length_take, Nat.min_eq_left inside]
  rw [fillBuf, ← length, List.take_left]

/-- A context after data of which some blocks are compressed and the rest waits. -/
structure Absorbed (md : Context) (whole rest : Bytes) : Prop where
  blocks : whole.length % 128 = 0
  short : rest.length < 128
  registers : md.state.registers = absorb compress 128 initial whole
  curlen : md.curlen = rest.length
  held : md.buf.take rest.length = rest
  buffer : md.buf.length = 128
  length : md.length = BitVec.ofNat 64 (8 * whole.length)

theorem sha512Init_absorbed (md : Context) (buffer : md.buf.length = 128) : Absorbed (sha512Init md) [] [] where
  blocks := rfl
  short := by decide
  registers := (sha512Init_eq md).trans (absorb_short compress initial (by decide)).symm
  curlen := rfl
  held := rfl
  buffer := buffer
  length := rfl

variable {md : Context} {whole rest : Bytes}

/-- A whole block is compressed, and counted. -/
theorem Absorbed.compressed (absorbed : Absorbed md whole rest) (block : Bytes) (full : block.length = 128) :
    (sha512Compress md.state block).registers = absorb compress 128 initial (whole ++ block) ∧
      md.length + 128 * 8 = BitVec.ofNat 64 (8 * (whole ++ block).length) := by
  constructor
  · rw [sha512Compress_eq _ full, absorbed.registers, absorb_append compress (by decide) _ _ absorbed.blocks,
      absorb_block compress (by decide) _ full]
  · rw [absorbed.length, List.length_append, full, Nat.mul_add, BitVec.ofNat_add]
    rfl

/-- What is put into the buffer stands behind what is there. -/
theorem Absorbed.filled (absorbed : Absorbed md whole rest) (bytes : Bytes) (inside : rest.length + bytes.length ≤ 128) :
    (fillBuf md.buf md.curlen bytes).take (rest ++ bytes).length = rest ++ bytes ∧
      (fillBuf md.buf md.curlen bytes).length = 128 := by
  have buffer := absorbed.buffer
  rw [absorbed.curlen]
  constructor
  · rw [List.length_append, take_fillBuf _ bytes (by omega), absorbed.held]
  · rw [length_fillBuf (by omega), buffer]

theorem updateLoop_absorbed (fuel : Nat) (input : Bytes) (absorbed : Absorbed md whole rest) (enough : input.length < fuel) :
    ∃ whole' rest', whole' ++ rest' = whole ++ rest ++ input ∧ Absorbed (updateLoop fuel md input) whole' rest' := by
  induction fuel generalizing md whole rest input with
  | zero => omega
  | succ fuel ih =>
    have blocks := absorbed.blocks
    have short := absorbed.short
    rw [updateLoop]
    by_cases none : input = []
    · rw [if_pos none, none]
      exact ⟨whole, rest, by rw [List.append_nil], absorbed⟩
    rw [if_neg none]
    have some : 0 < input.length := List.length_pos_iff.mpr none
    by_cases direct : md.curlen = 0 ∧ 128 ≤ input.length
    · rw [if_pos direct]
      obtain ⟨empty, enough'⟩ := direct
      obtain rfl : rest = [] := List.length_eq_zero_iff.mp (absorbed.curlen.symm.trans empty)
      have full : (input.take 128).length = 128 := by rw [List.length_take]; omega
      obtain ⟨registers, length⟩ := absorbed.compressed _ full
      have next : Absorbed { md with state := sha512Compress md.state (input.take 128), length := md.length + 128 * 8 }
          (whole ++ input.take 128) [] :=
        { absorbed with
          blocks := by rw [List.length_append, full]; omega
          registers := registers
          length := length }
      obtain ⟨whole', rest', all, done⟩ := ih (input.drop 128) next (by rw [List.length_drop]; omega)
      refine ⟨whole', rest', all.trans ?_, done⟩
      simp
    rw [if_neg direct]
    have room : min input.length (128 - md.curlen) = min input.length (128 - rest.length) := by rw [absorbed.curlen]
    generalize count : min input.length (128 - md.curlen) = n at room
    have taken : (input.take n).length = n := by rw [List.length_take]; omega
    obtain ⟨held, buffer⟩ := absorbed.filled (input.take n) (by omega)
    have curlen : md.curlen + n = (rest ++ input.take n).length := by
      rw [List.length_append, taken, absorbed.curlen]
    by_cases full : md.curlen + n = 128
    · simp only [if_pos full]
      have block : fillBuf md.buf md.curlen (input.take n) = rest ++ input.take n := by
        rw [← curlen, full, ← buffer, List.take_length] at held
        exact held
      obtain ⟨registers, length⟩ := absorbed.compressed (rest ++ input.take n) (by rw [← curlen, full])
      have next : Absorbed
          { md with
            buf := fillBuf md.buf md.curlen (input.take n)
            state := sha512Compress md.state (fillBuf md.buf md.curlen (input.take n))
            length := md.length + 8 * 128
            curlen := 0 } (whole ++ (rest ++ input.take n)) [] :=
        { blocks := by rw [List.length_append, ← curlen, full]; omega
          short := by decide
          registers := by rw [block]; exact registers
          curlen := rfl
          held := rfl
          buffer := buffer
          length := length }
      obtain ⟨whole', rest', all, done⟩ := ih (input.drop n) next (by rw [List.length_drop]; omega)
      refine ⟨whole', rest', all.trans ?_, done⟩
      simp
    · simp only [if_neg full]
      have next : Absorbed { md with buf := fillBuf md.buf md.curlen (input.take n), curlen := md.curlen + n }
          whole (rest ++ input.take n) :=
        { absorbed with
          short := by rw [← curlen]; omega
          curlen := curlen
          held := held
          buffer := buffer }
      obtain ⟨whole', rest', all, done⟩ := ih (input.drop n) next (by rw [List.length_drop]; omega)
      refine ⟨whole', rest', all.trans ?_, done⟩
      simp

end Portions

section Digest

variable {md : Context} {whole rest : Bytes}

theorem sha512Update_absorbed (input : Bytes) (absorbed : Absorbed md whole rest) :
    ∃ md' whole' rest', sha512Update md input = (0, md') ∧ whole' ++ rest' = whole ++ rest ++ input ∧
      Absorbed md' whole' rest' := by
  have short := absorbed.short
  have curlen := absorbed.curlen
  obtain ⟨whole', rest', all, done⟩ := updateLoop_absorbed (input.length + 1) input absorbed (Nat.lt_succ_self _)
  exact ⟨_, whole', rest', by rw [sha512Update, if_neg (by omega)], all, done⟩

theorem updates_absorbed (portions : List Bytes) (absorbed : Absorbed md whole rest) :
    ∃ md' whole' rest', updates md portions = (0, md') ∧ whole' ++ rest' = whole ++ rest ++ portions.flatten ∧
      Absorbed md' whole' rest' := by
  induction portions generalizing md whole rest with
  | nil => exact ⟨md, whole, rest, rfl, by simp, absorbed⟩
  | cons input later ih =>
    obtain ⟨md', whole', rest', updated, all, absorbed'⟩ := sha512Update_absorbed input absorbed
    obtain ⟨md'', whole'', rest'', updated', all', absorbed''⟩ := ih absorbed'
    refine ⟨md'', whole'', rest'', ?_, ?_, absorbed''⟩
    · rw [updates, updated]
      exact updated'
    · rw [all', all, List.flatten_cons, List.append_assoc]

theorem fillBuf_rest {buf held : Bytes} (bytes : Bytes) (starts : buf.take held.length = held)
    (same : buf.length = held.length + bytes.length) :
    fillBuf buf held.length bytes = held ++ bytes := by
  rw [fillBuf, starts, ← same, List.drop_length, List.append_nil]

/-- The last block: what is held, zeros, and the length in its last eight bytes. -/
theorem last_block {buf held : Bytes} (starts : buf.take held.length = held) (buffer : buf.length = 128)
    (short : held.length ≤ 120) (length : U64) :
    fillBuf (fillBuf buf held.length (List.replicate (120 - held.length) 0)) 120 (store64h length) =
      held ++ List.replicate (120 - held.length) 0 ++ store64h length := by
  have zeros : (List.replicate (120 - held.length) (0 : UInt8)).length = 120 - held.length := List.length_replicate
  have filled := take_fillBuf buf (List.replicate (120 - held.length) 0) (show held.length ≤ buf.length by omega)
  have buffer' : (fillBuf buf held.length (List.replicate (120 - held.length) 0)).length = 128 := by
    rw [length_fillBuf (by rw [zeros]; omega), buffer]
  have full : (held ++ List.replicate (120 - held.length) (0 : UInt8)).length = 120 := by
    rw [List.length_append, zeros]
    omega
  rw [starts, ← List.length_append] at filled
  have whole := fillBuf_rest (store64h length) filled (by rw [buffer', full]; rfl)
  rwa [full] at whole

theorem bytes_registers (s : State) :
    [s.s0, s.s1, s.s2, s.s3, s.s4, s.s5, s.s6, s.s7].flatMap store64h = s.registers.bytes := by
  simp only [Registers.bytes, State.registers, ← store64h_eq]

/-- How the specification fills up what waits, in one block or in two. -/
theorem pad_eq (message : Bytes) (whole rest : Bytes) (all : whole ++ rest = message) (blocks : whole.length % 128 = 0)
    (short : rest.length < 128) (fits : 8 * message.length < 2 ^ 64) :
    pad message = whole ++ (rest ++ [0x80] ++
      List.replicate (if rest.length < 112 then 119 - rest.length else 247 - rest.length) 0 ++
      beBytes 8 (8 * message.length)) := by
  have count : message.length = whole.length + rest.length := by rw [← all, List.length_append]
  have high : beBytes 16 (8 * message.length) = List.replicate 8 0 ++ beBytes 8 (8 * message.length) := by
    rw [beBytes_append 8 8, Nat.div_eq_of_lt (show 8 * message.length < 256 ^ 8 from fits)]
    rfl
  have zeros : (128 - (message.length + 17) % 128) % 128 + 8 =
      if rest.length < 112 then 119 - rest.length else 247 - rest.length := by
    split <;> omega
  rw [pad, high, ← zeros, ← List.replicate_append_replicate, ← all]
  simp only [List.append_assoc]

theorem sha512Final_absorbed (absorbed : Absorbed md whole rest) (fits : 8 * (whole ++ rest).length < 2 ^ 64) :
    sha512Final md = (0, digest (whole ++ rest)) := by
  have short := absorbed.short
  have curlen := absorbed.curlen
  have length : md.length + BitVec.ofNat 64 md.curlen * 8 = BitVec.ofNat 64 (8 * (whole ++ rest).length) := by
    rw [absorbed.length, curlen, List.length_append, Nat.mul_add, BitVec.ofNat_add, Nat.mul_comm 8 rest.length,
      BitVec.ofNat_mul (x := rest.length)]
    rfl
  have tail : store64h (BitVec.ofNat 64 (8 * (whole ++ rest).length)) = beBytes 8 (8 * (whole ++ rest).length) := by
    rw [store64h_eq, BitVec.toNat_ofNat, Nat.mod_eq_of_lt fits]
  obtain ⟨held, buffer⟩ := absorbed.filled [0x80] (by rw [List.length_singleton]; omega)
  have marked : (rest ++ [(0x80 : UInt8)]).length = rest.length + 1 := by rw [List.length_append, List.length_singleton]
  have padded := pad_eq _ whole rest rfl absorbed.blocks short fits
  rw [sha512Final, if_neg (by omega), digest, padded, absorb_append compress (by decide) _ _ absorbed.blocks,
    ← absorbed.registers]
  simp only [bytes_registers, length]
  rw [curlen] at held buffer ⊢
  by_cases one : rest.length < 112
  · simp only [if_neg (show ¬ 112 < rest.length + 1 by omega), if_pos one]
    have block := last_block held buffer (by omega) (BitVec.ofNat 64 (8 * (whole ++ rest).length))
    rw [marked, tail] at block
    rw [tail, block, show 119 - rest.length = 120 - (rest.length + 1) by omega,
      absorb_block compress (by decide) _ (by simp; omega), sha512Compress_eq _ (by simp; omega)]
  · simp only [if_pos (show 112 < rest.length + 1 by omega), if_neg one]
    have first := fillBuf_rest (List.replicate (128 - (rest.length + 1)) 0) held
      (by rw [buffer, marked, List.length_replicate]; omega)
    have full : (rest ++ [0x80] ++ List.replicate (128 - (rest.length + 1)) (0 : UInt8)).length = 128 := by
      simp
      omega
    have block := @last_block _ [] rfl full (by simp) (BitVec.ofNat 64 (8 * (whole ++ rest).length))
    rw [marked] at first
    rw [tail, List.nil_append, List.length_nil] at block
    have parts : rest ++ [0x80] ++ List.replicate (247 - rest.length) 0 ++ beBytes 8 (8 * (whole ++ rest).length) =
        (rest ++ [0x80] ++ List.replicate (128 - (rest.length + 1)) 0) ++
          (List.replicate (120 - 0) 0 ++ beBytes 8 (8 * (whole ++ rest).length)) := by
      rw [show 247 - rest.length = (128 - (rest.length + 1)) + (120 - 0) by omega, ← List.replicate_append_replicate]
      simp only [List.append_assoc]
    rw [tail, first, block, parts, absorb_append compress (by decide) _ _ (by rw [full]),
      absorb_block compress (by decide) _ full, absorb_block compress (by decide) _ (by simp), sha512Compress_eq _ (by simp),
      sha512Compress_eq _ full]

/-- However the data is cut into portions, and whatever the context has held, the digest is that of all the data. -/
theorem sha512Final_updates (md : Context) (portions : List Bytes) (buffer : md.buf.length = 128)
    (fits : 8 * portions.flatten.length < 2 ^ 64) :
    ∃ md', updates (sha512Init md) portions = (0, md') ∧ sha512Final md' = (0, digest portions.flatten) := by
  obtain ⟨md', whole, rest, updated, all, absorbed⟩ := updates_absorbed portions (sha512Init_absorbed md buffer)
  rw [List.nil_append, List.nil_append] at all
  have final := sha512Final_absorbed absorbed (by rw [all]; exact fits)
  rw [all] at final
  exact ⟨md', updated, final⟩

theorem sha512Final_updates_abc :
    ∃ md', updates (sha512Init ⟨0, ⟨0, 0, 0, 0, 0, 0, 0, 0⟩, 0, List.replicate 128 0⟩) [[97], [], [98, 99]] = (0, md') ∧
      sha512Final md' = (0, digest [97, 98, 99]) :=
  sha512Final_updates _ [[97], [], [98, 99]] (List.length_replicate) (by decide)

theorem sha512_eq (ctx : Context) (message : Bytes) (buffer : ctx.buf.length = 128) (fits : 8 * message.length < 2 ^ 64) :
    sha512 ctx message = (0, digest message) := by
  obtain ⟨md, whole, rest, updated, all, absorbed⟩ := sha512Update_absorbed message (sha512Init_absorbed ctx buffer)
  rw [List.nil_append, List.nil_append] at all
  have final := sha512Final_absorbed absorbed (by rw [all]; exact fits)
  rw [all] at final
  simpa only [sha512, updated, ne_eq, not_true_eq_false, if_false] using final

end Digest

end Apsdk.Sha512
