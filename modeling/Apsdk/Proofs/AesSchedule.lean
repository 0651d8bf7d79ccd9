import Apsdk.Proofs.AesBlock

/-! The key schedules that the AES core writes, for keys of each length. -/

namespace Apsdk.AesCore
open Library Rijndael

section Expansion

theorem rcon_eq {i : Nat} (small : i < 10) :
    (rcon[i]?).map (BitVec.ofNat 64) = some (load ⟨roundConstant i, 0, 0, 0⟩) := by
  have every : ∀ i < 10, (rcon[i]?).map (BitVec.ofNat 64) = some (load ⟨roundConstant i, 0, 0, 0⟩) := by decide +kernel
  exact every i small

theorem rotated_load (column : Column) {i : Nat} (small : i < 10) :
    rotated (load column) i = some (load ((column.rotate.map sBox).add ⟨roundConstant i, 0, 0, 0⟩)) := by
  obtain ⟨constant, entry, value⟩ := Option.map_eq_some_iff.mp (rcon_eq small)
  rw [rotated, load_byte0, load_byte1, load_byte2, load_byte3, substituted_wide, entry, load_add, ← value]
  rfl

theorem substituted_load (column : Column) :
    substituted (load column >>> 24) ((load column >>> 16) &&& 0xff) ((load column >>> 8) &&& 0xff) (load column &&& 0xff) =
      some (load (column.map sBox)) := by
  rw [load_byte0, load_byte1, load_byte2, load_byte3, substituted_wide]
  rfl

/-- The words to which `rk` refers, the last ones that were written. -/
theorem drop_window (before window : List Column) (count : Nat) (fits : window.length = count) :
    ((before ++ window).map load).drop (((before ++ window).map load).length - count) = window.map load := by
  have skipped : ((before ++ window).map load).length - count = (before.map load).length := by
    simp [fits]
  rw [skipped, List.map_append, List.drop_left]

section Rounds
variable {length : Nat}

theorem number_mod {count i j : Nat} (at0 : count = length * i + j) (small : j < length) : (count + length) % length = j := by
  rw [at0, Nat.add_mod_right, Nat.mul_add_mod, Nat.mod_eq_of_lt small]

/-- A step of the expansion that adds the column before to the oldest of the window. -/
theorem expand_plain (more i j : Nat) (before : List Column) {oldest next added : Column} (window : List Column)
    (at0 : before.length = length * i + j) (small : j < length) (inside : j ≠ 0) (other : ¬ (6 < length ∧ j = 4))
    (fits : window.length + 2 = length) (sum : oldest.add added = next) :
    expand length (more + 1) (before ++ oldest :: (window ++ [added])) =
      expand length more ((before ++ [oldest]) ++ (window ++ [added, next])) := by
  have position := number_mod at0 small
  have core : scheduleCore length (before.length + length) added = added :=
    scheduleCore_other (by omega) (by omega) added
  have step := expand_append more before oldest (window ++ [added])
    (by rw [List.length_append, List.length_singleton]; exact fits) (by rw [← List.cons_append, List.getLastD_concat]) core
  rwa [sum, List.append_assoc window] at step

/-- The four columns with which each round begins. -/
theorem expand_four (length more i : Nat) (before rest : List Column) (fits : rest.length + 4 = length) (newest : Column)
    {w0 w1 w2 w3 n0 n1 n2 n3 : Column}
    (count : before.length = length * i)
    (last : (w0 :: w1 :: w2 :: w3 :: rest).getLastD zeroColumn = newest)
    (next0 : w0.add ((newest.rotate.map sBox).add ⟨roundConstant i, 0, 0, 0⟩) = n0) (next1 : w1.add n0 = n1)
    (next2 : w2.add n1 = n2) (next3 : w3.add n2 = n3) :
    expand length (more + 4) (before ++ w0 :: w1 :: w2 :: w3 :: rest) =
      expand length more ((before ++ [w0, w1, w2, w3]) ++ (rest ++ [n0, n1, n2, n3])) := by
  have longer : ∀ front : List Column, (before ++ front).length = length * i + front.length := by
    intro front
    rw [List.length_append, count]
  have core : scheduleCore length (before.length + length) newest =
      (newest.rotate.map sBox).add ⟨roundConstant i, 0, 0, 0⟩ :=
    scheduleCore_first (by omega) (by rw [count, Nat.mul_succ]) newest
  have step0 := expand_append (more + 3) before w0 (w1 :: w2 :: w3 :: rest) fits last core
  have step1 := expand_plain (more + 2) i 1 (before ++ [w0]) (w2 :: w3 :: rest) (longer [w0]) (by omega)
    (by omega) (by omega) fits next1
  have step2 := expand_plain (more + 1) i 2 (before ++ [w0, w1]) (w3 :: (rest ++ [n0])) (longer [w0, w1])
    (by omega) (by omega) (by omega) (by simp; omega) next2
  have step3 := expand_plain more i 3 (before ++ [w0, w1, w2]) (rest ++ [n0, n1]) (longer [w0, w1, w2])
    (by omega) (by omega) (by omega) (by simp; omega) next3
  simp only [List.append_assoc, List.cons_append, List.nil_append, next0] at step0 step1 step2 step3 ⊢
  exact step0.trans (step1.trans (step2.trans step3))

theorem length_before {before : List Column} {i : Nat} (count : before.length = length * i) (front : List Column) :
    (before ++ front).length = length * i + front.length := by
  rw [List.length_append, count]

theorem expand_six (more i : Nat) (before : List Column) (count : before.length = 6 * i)
    {w0 w1 w2 w3 w4 w5 n0 n1 n2 n3 n4 n5 : Column}
    (next0 : w0.add ((w5.rotate.map sBox).add ⟨roundConstant i, 0, 0, 0⟩) = n0) (next1 : w1.add n0 = n1)
    (next2 : w2.add n1 = n2) (next3 : w3.add n2 = n3) (next4 : w4.add n3 = n4) (next5 : w5.add n4 = n5) :
    expand 6 (more + 6) (before ++ [w0, w1, w2, w3, w4, w5]) =
      expand 6 more ((before ++ [w0, w1, w2, w3, w4, w5]) ++ [n0, n1, n2, n3, n4, n5]) := by
  have front := expand_four 6 (more + 2) i before [w4, w5] rfl w5 count rfl next0 next1 next2 next3
  have step4 := expand_plain (more + 1) i 4 (before ++ [w0, w1, w2, w3]) [w5, n0, n1, n2] (length_before count _)
    (by decide) (by decide) (by omega) rfl next4
  have step5 := expand_plain more i 5 (before ++ [w0, w1, w2, w3, w4]) [n0, n1, n2, n3] (length_before count _)
    (by decide) (by decide) (by omega) rfl next5
  simp only [List.append_assoc, List.cons_append, List.nil_append] at front step4 step5 ⊢
  exact front.trans (step4.trans step5)

/-- In the middle of a key of eight columns the substitution is made once more. -/
theorem expand_eight (more i : Nat) (before : List Column) (count : before.length = 8 * i)
    {w0 w1 w2 w3 w4 w5 w6 w7 n0 n1 n2 n3 n4 n5 n6 n7 : Column}
    (next0 : w0.add ((w7.rotate.map sBox).add ⟨roundConstant i, 0, 0, 0⟩) = n0) (next1 : w1.add n0 = n1)
    (next2 : w2.add n1 = n2) (next3 : w3.add n2 = n3) (next4 : w4.add (n3.map sBox) = n4) (next5 : w5.add n4 = n5)
    (next6 : w6.add n5 = n6) (next7 : w7.add n6 = n7) :
    expand 8 (more + 8) (before ++ [w0, w1, w2, w3, w4, w5, w6, w7]) =
      expand 8 more ((before ++ [w0, w1, w2, w3, w4, w5, w6, w7]) ++ [n0, n1, n2, n3, n4, n5, n6, n7]) := by
  have middle := number_mod (length_before count [w0, w1, w2, w3]) (show 4 < 8 by decide)
  have front := expand_four 8 (more + 4) i before [w4, w5, w6, w7] rfl w7 count rfl next0 next1 next2 next3
  have step4 := expand_append (more + 3) (before ++ [w0, w1, w2, w3]) w4 [w5, w6, w7, n0, n1, n2, n3] rfl rfl
    (scheduleCore_fourth (by decide) middle n3)
  have step5 := expand_plain (more + 2) i 5 (before ++ [w0, w1, w2, w3, w4]) [w6, w7, n0, n1, n2, n3]
    (length_before count _) (by decide) (by decide) (by omega) rfl next5
  have step6 := expand_plain (more + 1) i 6 (before ++ [w0, w1, w2, w3, w4, w5]) [w7, n0, n1, n2, n3, n4]
    (length_before count _) (by decide) (by decide) (by omega) rfl next6
  have step7 := expand_plain more i 7 (before ++ [w0, w1, w2, w3, w4, w5, w6]) [n0, n1, n2, n3, n4, n5]
    (length_before count _) (by decide) (by decide) (by omega) rfl next7
  simp only [List.append_assoc, List.cons_append, List.nil_append, next4] at front step4 step5 step6 step7 ⊢
  exact front.trans (step4.trans (step5.trans (step6.trans step7)))

end Rounds

theorem expand128_load (left i : Nat) (total : left + i = 10) (before : List Column) (w0 w1 w2 w3 : Column)
    (count : before.length = 4 * i) :
    expand128 left i ((before ++ [w0, w1, w2, w3]).map load) =
      some ((expand 4 (4 * left) (before ++ [w0, w1, w2, w3])).map load) := by
  induction left generalizing i before w0 w1 w2 w3 with
  | zero => rfl
  | succ left ih =>
    have window := drop_window before [w0, w1, w2, w3] 4 rfl
    rw [Nat.mul_succ, expand_four 4 (4 * left) i before [] rfl w3 count rfl rfl rfl rfl rfl, List.nil_append,
      ← ih (i + 1) (by omega) _ _ _ _ _ (length_before count _), expand128, window]
    simp only [List.map_cons, List.map_nil, List.getElem?_cons_zero, List.getElem?_cons_succ, Option.bind_eq_bind,
      Option.bind_some, rotated_load _ (show i < 10 by omega), ← load_add, List.map_append]

theorem expand192_load (left i : Nat) (total : left + 1 + i = 8) (before : List Column) (w0 w1 w2 w3 w4 w5 : Column)
    (count : before.length = 6 * i) :
    expand192 (left + 1) i ((before ++ [w0, w1, w2, w3, w4, w5]).map load) =
      some ((expand 6 (6 * left + 4) (before ++ [w0, w1, w2, w3, w4, w5])).map load) := by
  have window := drop_window before [w0, w1, w2, w3, w4, w5] 6 rfl
  induction left generalizing i before w0 w1 w2 w3 w4 w5 with
  | zero =>
    rw [expand_four 6 (6 * 0) i before [w4, w5] rfl w5 count rfl rfl rfl rfl rfl, expand192, window]
    simp only [List.map_cons, List.map_nil, List.getElem?_cons_zero, List.getElem?_cons_succ, Option.bind_eq_bind,
      Option.bind_some, if_true, rotated_load _ (show i < 10 by omega), ← load_add, Option.pure_def, expand]
    simp only [List.map_append, List.map_cons, List.map_nil, List.append_assoc, List.cons_append, List.nil_append]
  | succ left ih =>
    rw [show 6 * (left + 1) + 4 = (6 * left + 4) + 6 by omega, expand_six (6 * left + 4) i before count rfl rfl rfl rfl rfl rfl,
      ← ih (i + 1) (by omega) _ _ _ _ _ _ _ (length_before count _) (drop_window _ _ 6 rfl), expand192, window]
    simp only [List.map_cons, List.map_nil, List.getElem?_cons_zero, List.getElem?_cons_succ, Option.bind_eq_bind,
      Option.bind_some, rotated_load _ (show i < 10 by omega), ← load_add, List.map_append, Nat.add_one_ne_zero, if_false]

theorem expand256_load (left i : Nat) (total : left + 1 + i = 7) (before : List Column) (w0 w1 w2 w3 w4 w5 w6 w7 : Column)
    (count : before.length = 8 * i) :
    expand256 (left + 1) i ((before ++ [w0, w1, w2, w3, w4, w5, w6, w7]).map load) =
      some ((expand 8 (8 * left + 4) (before ++ [w0, w1, w2, w3, w4, w5, w6, w7])).map load) := by
  have window := drop_window before [w0, w1, w2, w3, w4, w5, w6, w7] 8 rfl
  induction left generalizing i before w0 w1 w2 w3 w4 w5 w6 w7 with
  | zero =>
    rw [expand_four 8 (8 * 0) i before [w4, w5, w6, w7] rfl w7 count rfl rfl rfl rfl rfl, expand256, window]
    simp only [List.map_cons, List.map_nil, List.getElem?_cons_zero, List.getElem?_cons_succ, Option.bind_eq_bind,
      Option.bind_some, if_true, rotated_load _ (show i < 10 by omega), ← load_add, Option.pure_def, expand]
    simp only [List.map_append, List.map_cons, List.map_nil, List.append_assoc, List.cons_append, List.nil_append]
  | succ left ih =>
    rw [show 8 * (left + 1) + 4 = (8 * left + 4) + 8 by omega,
      expand_eight (8 * left + 4) i before count rfl rfl rfl rfl rfl rfl rfl rfl,
      ← ih (i + 1) (by omega) _ _ _ _ _ _ _ _ _ (length_before count _) (drop_window _ _ 8 rfl), expand256, window]
    simp only [List.map_cons, List.map_nil, List.getElem?_cons_zero, List.getElem?_cons_succ, Option.bind_eq_bind,
      Option.bind_some, rotated_load _ (show i < 10 by omega), ← load_add, List.map_append, Nat.add_one_ne_zero, if_false,
      substituted_load]

end Expansion

section EncryptKey

theorem getU32_columns (data : Bytes) (i : Nat) (column : Column) (entry : (columns data)[i]? = some column) :
    getU32 data (4 * i) = some (load column) := by
  induction data using columns.induct generalizing i with
  | case1 b0 b1 b2 b3 rest ih =>
    cases i with
    | zero =>
      obtain rfl : ⟨b0, b1, b2, b3⟩ = column := by simpa [columns] using entry
      exact getU32_load rfl rfl rfl rfl
    | succ i =>
      have later : getU32 rest (4 * i) = some (load column) := ih i (by simpa [columns] using entry)
      rw [← later]
      simp only [getU32, Nat.mul_succ, Nat.add_right_comm _ 4]
      rfl
  | case2 data short => simp [columns] at entry

theorem length_words (keys : List Block) : (keys.flatMap words).length = 4 * keys.length := by
  rw [List.length_flatMap]
  simp [words, Nat.mul_comm]

theorem words_blockAt (count : Nat) (columns : List Column) (whole : columns.length = 4 * count) :
    ((List.range count).map (blockAt columns)).flatMap words = columns.map load := by
  induction count generalizing columns with
  | zero => rw [List.length_eq_zero_iff.mp whole]; rfl
  | succ count ih =>
    match columns, whole with
    | c0 :: c1 :: c2 :: c3 :: rest, whole =>
      have shorter : rest.length = 4 * count := by
        simp only [List.length_cons] at whole
        omega
      have shifted : (blockAt (c0 :: c1 :: c2 :: c3 :: rest)) ∘ Nat.succ = blockAt rest :=
        funext fun number => (blockAt_drop (c0 :: c1 :: c2 :: c3 :: rest) number).symm
      rw [List.range_succ_eq_map, List.map_cons, List.map_map, shifted, List.flatMap_cons, ih rest shorter]
      rfl

/-- The round keys are the columns of the expansion in their order. -/
theorem scheduled_roundKeys (rounds : Nat) (columns : List Column) (whole : columns.length = 4 * (rounds + 2)) :
    (scheduled (roundKeys (rounds + 1) columns)).flatMap words = columns.map load := by
  have order : scheduled (roundKeys (rounds + 1) columns) = (List.range (rounds + 2)).map (blockAt columns) := by
    rw [List.range_succ, List.range_succ_eq_map, List.map_append, List.map_cons, List.map_map]
    rfl
  rw [order, words_blockAt _ _ whole]

/-- The schedule that `AES_set_encrypt_key` leaves for a key, over what the array held. -/
def written (userKey : Bytes) (key : Key) : Key :=
  ⟨(scheduled (keySchedule (columns userKey))).flatMap words ++ key.rdKey.drop (4 * (userKey.length / 4 + 7)),
    userKey.length / 4 + 6⟩

theorem written_eq {userKey : Bytes} {key : Key} {length rounds : Nat} (count : (columns userKey).length = length)
    (sum : length + 6 = rounds) :
    written userKey key =
      ⟨overwrite ((expand length (4 * (rounds + 1) - length) (columns userKey)).map load) key.rdKey, rounds⟩ := by
  subst sum
  have whole : (expand length (4 * (length + 6 + 1) - length) (columns userKey)).length = 4 * (length + 7) := by
    rw [length_expand, count]
    omega
  have keys := scheduled_roundKeys (length + 5) _ whole
  rw [written, overwrite, List.length_map, whole, ← keys, ← length_columns, count, keySchedule, count]

theorem aesSetEncryptKey_eq (userKey : Bytes) (key : Key)
    (sized : userKey.length = 16 ∨ userKey.length = 24 ∨ userKey.length = 32) :
    aesSetEncryptKey userKey (8 * userKey.length) key = some (0, written userKey key) := by
  have count := length_columns userKey
  have reads := getU32_columns userKey
  rcases sized with sized | sized | sized
  · rw [sized] at count
    obtain ⟨w0, w1, w2, w3, parts⟩ : ∃ w0 w1 w2 w3, columns userKey = [w0, w1, w2, w3] := by
      match columns userKey, count with
      | [w0, w1, w2, w3], _ => exact ⟨w0, w1, w2, w3, rfl⟩
    have expansion : expand128 10 0 [load w0, load w1, load w2, load w3] =
        some ((expand 4 40 [w0, w1, w2, w3]).map load) := expand128_load 10 0 rfl [] w0 w1 w2 w3 rfl
    rw [parts] at reads
    rw [written_eq count rfl, parts, aesSetEncryptKey, sized]
    simp [reads 0 w0 rfl, reads 1 w1 rfl, reads 2 w2 rfl, reads 3 w3 rfl, expansion]
  · rw [sized] at count
    obtain ⟨w0, w1, w2, w3, w4, w5, parts⟩ : ∃ w0 w1 w2 w3 w4 w5, columns userKey = [w0, w1, w2, w3, w4, w5] := by
      match columns userKey, count with
      | [w0, w1, w2, w3, w4, w5], _ => exact ⟨w0, w1, w2, w3, w4, w5, rfl⟩
    have expansion : expand192 8 0 [load w0, load w1, load w2, load w3, load w4, load w5] =
        some ((expand 6 46 [w0, w1, w2, w3, w4, w5]).map load) := expand192_load 7 0 rfl [] w0 w1 w2 w3 w4 w5 rfl
    rw [parts] at reads
    rw [written_eq count rfl, parts, aesSetEncryptKey, sized]
    simp [reads 0 w0 rfl, reads 1 w1 rfl, reads 2 w2 rfl, reads 3 w3 rfl, reads 4 w4 rfl, reads 5 w5 rfl, expansion]
  · rw [sized] at count
    obtain ⟨w0, w1, w2, w3, w4, w5, w6, w7, parts⟩ :
        ∃ w0 w1 w2 w3 w4 w5 w6 w7, columns userKey = [w0, w1, w2, w3, w4, w5, w6, w7] := by
      match columns userKey, count with
      | [w0, w1, w2, w3, w4, w5, w6, w7], _ => exact ⟨w0, w1, w2, w3, w4, w5, w6, w7, rfl⟩
    have expansion : expand256 7 0 [load w0, load w1, load w2, load w3, load w4, load w5, load w6, load w7] =
        some ((expand 8 52 [w0, w1, w2, w3, w4, w5, w6, w7]).map load) :=
      expand256_load 6 0 rfl [] w0 w1 w2 w3 w4 w5 w6 w7 rfl
    rw [parts] at reads
    rw [written_eq count rfl, parts, aesSetEncryptKey, sized]
    simp [reads 0 w0 rfl, reads 1 w1 rfl, reads 2 w2 rfl, reads 3 w3 rfl, reads 4 w4 rfl, reads 5 w5 rfl, reads 6 w6 rfl,
      reads 7 w7 rfl, expansion]

end EncryptKey

section DecryptKey

theorem swap_append (before between behind : List U32) (x y : U32) {i j : Nat} (start : before.length = i)
    (apart : i + (between.length + 1) = j) :
    swap (before ++ x :: (between ++ y :: behind)) i j = some (before ++ y :: (between ++ x :: behind)) := by
  subst start apart
  have second : (before ++ x :: (between ++ y :: behind))[before.length + (between.length + 1)]? = some y := by
    rw [List.getElem?_append_right (Nat.le_add_right _ _), Nat.add_sub_cancel_left, List.getElem?_cons_succ,
      List.getElem?_append_right (Nat.le_refl _), Nat.sub_self, List.getElem?_cons_zero]
  have first : (before ++ x :: (between ++ y :: behind))[before.length]? = some x := by
    rw [List.getElem?_append_right (Nat.le_refl _), Nat.sub_self, List.getElem?_cons_zero]
  rw [swap, first, second]
  simp only [Option.bind_eq_bind, Option.bind_some, Option.pure_def, Option.some.injEq]
  rw [List.set_append_right _ _ (Nat.le_refl _), Nat.sub_self, List.set_cons_zero,
    List.set_append_right _ _ (Nat.le_add_right _ _), Nat.add_sub_cancel_left, List.set_cons_succ,
    List.set_append_right _ _ (Nat.le_refl _), Nat.sub_self, List.set_cons_zero]

/-- One time round the loop, the words at both ends change places. -/
theorem invertOrder_ends (n : Nat) (before between behind : List U32) (x0 x1 x2 x3 y0 y1 y2 y3 : U32) {i j : Nat}
    (start : before.length = i) (apart : i + 4 + between.length = j) :
    invertOrder (n + 1) i j (before ++ x0 :: x1 :: x2 :: x3 :: (between ++ y0 :: y1 :: y2 :: y3 :: behind)) =
      invertOrder n (i + 4) (j - 4)
        (before ++ y0 :: y1 :: y2 :: y3 :: (between ++ x0 :: x1 :: x2 :: x3 :: behind)) := by
  have ends : i < j := by omega
  have swap0 := swap_append before (x1 :: x2 :: x3 :: between) (y1 :: y2 :: y3 :: behind) x0 y0 start
    (show i + (between.length + 3 + 1) = j by omega)
  have swap1 := swap_append (before ++ [y0]) (x2 :: x3 :: (between ++ [x0])) (y2 :: y3 :: behind) x1 y1
    (show _ = i + 1 by simp [start]) (show _ = j + 1 by simp; omega)
  have swap2 := swap_append (before ++ [y0, y1]) (x3 :: (between ++ [x0, x1])) (y3 :: behind) x2 y2
    (show _ = i + 2 by simp [start]) (show _ = j + 2 by simp; omega)
  have swap3 := swap_append (before ++ [y0, y1, y2]) (between ++ [x0, x1, x2]) behind x3 y3
    (show _ = i + 3 by simp [start]) (show _ = j + 3 by simp; omega)
  simp only [List.append_assoc, List.cons_append, List.nil_append] at swap0 swap1 swap2 swap3
  simp only [invertOrder, if_pos ends, swap0, swap1, swap2, swap3, Option.bind_eq_bind, Option.bind_some]

/-- The loop reverses an odd number of round keys. -/
theorem invertOrder_words (half n : Nat) (enough : half ≤ n) (keys : List Block) (odd : keys.length = 2 * half + 1)
    (before behind : List U32) {i j : Nat} (start : before.length = i) (finish : i + 8 * half = j) :
    invertOrder n i j (before ++ (keys.flatMap words ++ behind)) =
      some (before ++ (keys.reverse.flatMap words ++ behind)) := by
  induction half generalizing n keys before behind i j with
  | zero =>
    obtain ⟨key, rfl⟩ := List.length_eq_one_iff.mp odd
    obtain rfl : i = j := by omega
    cases n with
    | zero => rfl
    | succ n => rw [invertOrder, if_neg (Nat.lt_irrefl i)]; rfl
  | succ half ih =>
    obtain ⟨n, rfl⟩ : ∃ m, n = m + 1 := ⟨n - 1, by omega⟩
    match keys, odd with
    | first :: rest, odd =>
      obtain ⟨middle, last, rfl⟩ : ∃ middle last, rest = middle ++ [last] := by
        refine (List.eq_nil_or_concat' rest).elim (fun empty => ?_) id
        rw [empty] at odd
        simp only [List.length_cons, List.length_nil] at odd
        omega
      have shorter : middle.length = 2 * half + 1 := by
        simp only [List.length_cons, List.length_append, List.length_nil] at odd
        omega
      have width := length_words middle
      have ends := invertOrder_ends n before (middle.flatMap words) behind (load first.c0) (load first.c1) (load first.c2)
        (load first.c3) (load last.c0) (load last.c1) (load last.c2) (load last.c3) start (show _ = j by omega)
      have inner := ih n (by omega) middle shorter (before ++ words last) (words first ++ behind)
        (show _ = i + 4 by simp [words, start]) (show _ = j - 4 by omega)
      simp only [List.append_assoc] at inner
      have before_eq : (first :: (middle ++ [last])).flatMap words ++ behind =
          words first ++ (middle.flatMap words ++ (words last ++ behind)) := by simp
      have after_eq : (first :: (middle ++ [last])).reverse.flatMap words ++ behind =
          words last ++ (middle.reverse.flatMap words ++ (words first ++ behind)) := by simp
      rw [before_eq, after_eq]
      exact ends.trans inner

theorem unmixed_load (column : Column) : unmixed (load column) = some (load column.unmix) := by
  have sub : ∀ byte : UInt8, ((lookup Te1 (wide byte)).bind fun word => some (word &&& 0xff)) = some (wide (sBox byte)) := by
    intro byte
    rw [lookup_mixed Te_eq.2.1, Option.bind_some, load_byte3, Column.mix_single]
    rfl
  have undone := xor_unmixed column
  simp only [unmixed, load_byte0, load_byte1, load_byte2, load_byte3, Option.pure_def, Option.bind_eq_bind, sub, Option.bind_some,
    lookup_unmixed Td_eq.1, lookup_unmixed Td_eq.2.1, lookup_unmixed Td_eq.2.2.1, lookup_unmixed Td_eq.2.2.2, invSBox_sBox, undone]

theorem mapM_unmixed (keys : List Block) :
    (keys.flatMap words).mapM unmixed = some ((keys.map layers.unmix).flatMap words) := by
  induction keys with
  | nil => rfl
  | cons key keys ih =>
    simp [words, unmixed_load, ih, layers, Block.map]

/-- The schedule that `AES_set_decrypt_key` leaves. -/
def inverted (userKey : Bytes) (key : Key) : Key :=
  ⟨(scheduled (layers.invert (keySchedule (columns userKey)))).flatMap words ++ key.rdKey.drop (4 * (userKey.length / 4 + 7)),
    userKey.length / 4 + 6⟩

theorem aesSetDecryptKey_eq (userKey : Bytes) (key : Key)
    (sized : userKey.length = 16 ∨ userKey.length = 24 ∨ userKey.length = 32) :
    aesSetDecryptKey userKey (8 * userKey.length) key = some (0, inverted userKey key) := by
  obtain ⟨half, even⟩ : ∃ half, userKey.length / 4 + 6 = 2 * half := ⟨userKey.length / 8 + 3, by omega⟩
  have count : (keySchedule (columns userKey)).middle.length + 1 = 2 * half := by
    rw [keySchedule, roundKeys, List.length_map, List.length_range, length_columns]
    omega
  rw [aesSetDecryptKey, aesSetEncryptKey_eq userKey key sized, written, inverted, even]
  generalize keySchedule (columns userKey) = keys at count ⊢
  generalize key.rdKey.drop (4 * (userKey.length / 4 + 7)) = behind
  have reversed := invertOrder_words half (2 * half) (by omega) (scheduled keys) (by simp [scheduled]; omega) [] behind
    List.length_nil
    (show 0 + 8 * half = 4 * (2 * half) by omega)
  have order : (scheduled keys).reverse.flatMap words ++ behind =
      words keys.last ++ (keys.middle.reverse.flatMap words ++ (words keys.first ++ behind)) := by
    simp [scheduled]
  have width : (keys.middle.reverse.flatMap words).length = 4 * (2 * half - 1) := by
    rw [length_words, List.length_reverse]
    omega
  have unmixed_middle : ((keys.middle.reverse.flatMap words ++ (words keys.first ++ behind)).take
      (4 * (2 * half - 1))).mapM unmixed = some ((keys.middle.map layers.unmix).reverse.flatMap words) := by
    rw [List.take_left' width, mapM_unmixed, List.map_reverse]
  have tail : (words keys.last ++ (keys.middle.reverse.flatMap words ++ (words keys.first ++ behind))).drop (4 * (2 * half)) =
      words keys.first ++ behind := by
    rw [← List.append_assoc]
    exact List.drop_left' (by rw [List.length_append, width]; simp [words]; omega)
  have head : (words keys.last ++ (keys.middle.reverse.flatMap words ++ (words keys.first ++ behind))).take 4 = words keys.last :=
    List.take_left' rfl
  have rest : (words keys.last ++ (keys.middle.reverse.flatMap words ++ (words keys.first ++ behind))).drop 4 =
      keys.middle.reverse.flatMap words ++ (words keys.first ++ behind) := List.drop_left' rfl
  rw [List.nil_append, List.nil_append, order] at reversed
  have positive : ¬ ((0 : Int) < 0) := by decide
  simp only [Option.bind_eq_bind, Option.bind_some, if_neg positive, reversed, unmixed_middle, tail, head, rest,
    Option.pure_def]
  simp [scheduled, RoundLayers.invert]

end DecryptKey

end Apsdk.AesCore
