import Apsdk.Proofs.HlsReading

/-! Where the parser for playlists stays inside its text: a document that ends in a newline, with
something behind every name, is read to its end. -/

namespace Apsdk.HlsParser
open Library

/-- Reading a value in front of the last newline goes to the end at most. -/
def Enclosed {α : Type} (value : Value α) (line : Bytes) : Prop :=
  ∀ dest, ∃ dest' left, left <:+ line ++ [10] ∧ value dest (line ++ [10]) = some (dest', left)

theorem Reads.enclosed {α : Type} {value : Value α} {line : Bytes} (reads : Reads value line) : Enclosed value line := by
  intro dest
  obtain ⟨dest', left, inside, read⟩ := reads dest
  exact ⟨dest', left ++ [10], List.suffix_append_self_iff.mpr inside, read []⟩

section Start

/-- `parse_start` ends at the end of its line, since a colon never stands there. -/
theorem parseStart_reads {line : Bytes} (followed : Followed line) (dest : Start) :
    ∃ dest' left, left <:+ line ∧ ∀ fuel tail, line.length < fuel →
      parseStart fuel dest (line ++ 10 :: tail) = some (dest', left ++ 10 :: tail) := by
  induction length : line.length using Nat.strong_induction_on generalizing line dest with
  | _ n ih =>
    subst length
    by_cases ends : isEnd (peek (line ++ [10]))
    · refine ⟨dest, line, List.suffix_refl line, fun fuel tail enough => ?_⟩
      obtain ⟨fuel, rfl⟩ := Nat.exists_eq_add_one_of_ne_zero (Nat.ne_zero_of_lt enough)
      rw [parseStart, peek_line, if_pos ends]
    obtain ⟨byte, rest, here, inside, passed⟩ : ∃ byte rest, byte :: rest <:+ line ∧ (byte :: rest).length ≤ line.length ∧
        ∀ tail, (if peek (line ++ 10 :: tail) = 58 then (line ++ 10 :: tail).drop 1 else line ++ 10 :: tail) =
          byte :: rest ++ 10 :: tail := by
      cases line with
      | nil => exact absurd rfl ends
      | cons first line =>
        by_cases colon : first = 58
        · cases line with
          | nil =>
            rw [colon] at followed
            exact absurd (List.suffix_refl _) (followed.named [58] (by decide))
          | cons byte rest =>
            refine ⟨byte, rest, List.suffix_cons .., Nat.le_succ _, fun tail => ?_⟩
            rw [colon]
            rfl
        · exact ⟨first, line, List.suffix_refl _, le_refl _, fun tail => if_neg colon⟩
    have same : ∀ tail, (startTags.find? fun tag => tag.name.isPrefixOf (byte :: rest ++ 10 :: tail)) =
        startTags.find? fun tag => tag.name.isPrefixOf (byte :: rest) :=
      find_line Attribute.name (fun tag member => (startTags_sound tag member).2.1) (byte :: rest)
    cases found : startTags.find? fun tag => tag.name.isPrefixOf (byte :: rest) with
    | none =>
      have shorter : rest.length < line.length := inside
      have inner : rest <:+ line := (List.suffix_cons ..).trans here
      obtain ⟨dest', left, inside', read⟩ := ih _ shorter (followed.suffix inner) dest rfl
      refine ⟨dest', left, inside'.trans inner, fun fuel tail enough => ?_⟩
      obtain ⟨fuel, rfl⟩ := Nat.exists_eq_add_one_of_ne_zero (Nat.ne_zero_of_lt enough)
      rw [parseStart, peek_line, if_neg ends]
      simp only [← peek_line line tail, passed, same, found]
      exact read fuel tail (by omega)
    | some tag =>
      obtain ⟨whole, filled, reads⟩ := find_tag startTags_sound found
      obtain ⟨dest₂, left₂, inside₂, read₂⟩ := reads (followed.suffix here) dest
      have behind : left₂.length < line.length := by
        have total := congrArg List.length whole
        have first := List.length_pos_iff.mpr filled
        have second := inside₂.length_le
        rw [List.length_append] at total
        omega
      have inside₂' : left₂ <:+ line := (inside₂.trans (List.drop_suffix ..)).trans here
      obtain ⟨dest', left, inside', read⟩ := ih _ behind (followed.suffix inside₂') dest₂ rfl
      refine ⟨dest', left, inside'.trans inside₂', fun fuel tail enough => ?_⟩
      obtain ⟨fuel, rfl⟩ := Nat.exists_eq_add_one_of_ne_zero (Nat.ne_zero_of_lt enough)
      have starts : tag.name.isPrefixOf (byte :: rest) = true := by
        simpa using List.find?_some found
      rw [parseStart, peek_line, if_neg ends]
      simp only [← peek_line line tail, passed, same, found, drop_line starts, read₂, Option.bind_eq_bind, Option.bind_some]
      exact read fuel tail (by omega)

end Start

section Master

theorem nextLine_suffix (pt : Bytes) (p : UInt8 → Bool) :
    (if peek (pt.dropWhile p) ≠ 0 then (pt.dropWhile p).drop 1 else pt.dropWhile p) <:+ pt := by
  split
  · exact (List.drop_suffix ..).trans (List.dropWhile_suffix p)
  · exact List.dropWhile_suffix p

theorem parseStream_enclosed {line : Bytes} (followed : Followed line) : Enclosed parseStream line := by
  intro dest
  obtain ⟨streamInf, left, inside, read⟩ := parseLine_reads streamInfTags_sound followed {}
  have whole : left ++ [10] <:+ line ++ [10] := List.suffix_append_self_iff.mpr inside
  simp only [parseStream, read, Option.bind_eq_bind, Option.bind_some, Option.pure_def]
  exact ⟨_, _, (List.drop_suffix ..).trans ((nextLine_suffix ..).trans whole), rfl⟩

/-- Behind the sign that follows the name of a tag. -/
theorem next_reads {α : Type} {value : Value α} {line : Bytes} (some : line ≠ [])
    (reads : ∀ rest, rest <:+ line → Reads value rest) :
    Reads (fun dest pt => do
      let pt ← next pt
      value dest pt) line := by
  intro dest
  cases line with
  | nil => exact absurd rfl some
  | cons sign line =>
    obtain ⟨dest', left, inside, read⟩ := reads line (List.suffix_cons ..) dest
    exact ⟨dest', left, inside.trans (List.suffix_cons ..), read⟩

/-- Every tag but the one for a stream is read within its line. -/
theorem masterTags_reads : ∀ tag ∈ masterTags, 10 ∉ tag.name ∧
    (tag.name = ascii "EXT-X-STREAM-INF" ∧ tag.value = parseStream ∨ ∀ line, Followed (tag.name ++ line) → Reads tag.value line) := by
  have behind : ∀ {name line : Bytes}, Followed (name ++ line) → Followed line :=
    fun followed => followed.suffix (List.suffix_append ..)
  have lines : ∀ {α : Type} {tags : List (Attribute α)} (init : α) (set : Master → α → Master) {name line : Bytes},
      Sound tags → Followed (name ++ line) →
        Reads (fun dest pt => (parseLine tags init pt).bind fun read => some (set dest read.1, read.2)) line := by
    intro α tags init set name line sound followed dest
    obtain ⟨object, left, inside, read⟩ := parseLine_reads sound (behind followed) init
    exact ⟨set dest object, left, inside, fun tail => by simp only [read, Option.bind_some]⟩
  simp only [masterTags, List.forall_mem_cons]
  refine ⟨⟨by decide, .inr ?_⟩, ⟨by decide, .inr ?_⟩, ⟨by decide, .inr ?_⟩, ⟨by decide, .inr ?_⟩, ⟨by decide, .inl ⟨trivial, trivial⟩⟩,
    ⟨by decide, .inr ?_⟩, ⟨by decide, .inr ?_⟩, ⟨by decide, .inr ?_⟩, ⟨by decide, .inr ?_⟩, List.forall_mem_nil _⟩
  · exact fun line _ dest => ⟨_, line, List.suffix_refl _, fun _ => rfl⟩
  · exact fun line => lines {} (fun dest media => { dest with media := dest.media ++ [media] }) mediaTags_sound
  · exact fun line followed => assigned_reads parseStrToInt_local _ (followed.ne_nil (by decide))
  · exact fun line _ dest => ⟨_, line, List.suffix_refl _, fun _ => rfl⟩
  · exact fun line => lines {} (fun dest streamInf => { dest with iframeStreamInfs := dest.iframeStreamInfs ++ [streamInf] })
      iframeStreamInfTags_sound
  · exact fun line => lines {} (fun dest sessionData => { dest with sessionData := dest.sessionData ++ [sessionData] })
      sessionDataTags_sound
  · intro line followed
    apply next_reads (followed.ne_nil (by decide))
    intro rest inside dest
    obtain ⟨start, left, inside', read⟩ := parseStart_reads ((behind followed).suffix inside) dest.start
    refine ⟨{ dest with start }, left, inside', fun tail => ?_⟩
    have enough : rest.length < (rest ++ 10 :: tail).length + 1 := by
      rw [List.length_append]
      omega
    simp only [read _ tail enough, Option.bind_eq_bind, Option.bind_some, Option.pure_def]
  · intro line followed
    apply next_reads (followed.ne_nil (by decide))
    intro rest inside dest
    obtain ⟨key, left, inside', read⟩ := parseLine_reads keyTags_sound ((behind followed).suffix inside) {}
    refine ⟨{ dest with sessionKeys := dest.sessionKeys ++ [key], nbSessionKeys := dest.nbSessionKeys + 1 }, left, inside',
      fun tail => ?_⟩
    simp only [read, Option.bind_eq_bind, Option.bind_some, Option.pure_def]

theorem masterTag_enclosed {tag : Attribute Master} (member : tag ∈ masterTags) {line : Bytes} (followed : Followed (tag.name ++ line)) :
    Enclosed tag.value line := by
  rcases (masterTags_reads tag member).2 with ⟨-, stream⟩ | reads
  · rw [stream]
    exact parseStream_enclosed (followed.suffix (List.suffix_append ..))
  · exact (reads line followed).enclosed

theorem parseMasterTag_enclosed {line : Bytes} (followed : Followed line) : Enclosed parseMasterTag line := by
  intro dest
  have same := find_line Attribute.name (fun tag member => (masterTags_reads tag member).1) line []
  rw [parseMasterTag, same]
  cases found : masterTags.find? fun tag => tag.name.isPrefixOf line with
  | none => exact ⟨_, _, List.drop_suffix .., rfl⟩
  | some tag =>
    have starts : tag.name.isPrefixOf line = true := by
      simpa using List.find?_some found
    have whole : tag.name ++ line.drop tag.name.length = line :=
      List.prefix_iff_eq_append.mp (List.isPrefixOf_iff_prefix.mp starts)
    obtain ⟨dest', left, inside, read⟩ := masterTag_enclosed (List.mem_of_find?_eq_some found) (whole.symm ▸ followed) dest
    simp only [drop_line starts]
    exact ⟨dest', left, inside.trans (List.suffix_append_self_iff.mpr (List.drop_suffix ..)), read⟩

/-- The loop ends at a zero or with the text. -/
theorem masterLoop_ends {line : Bytes} (followed : Followed line) (fuel : Nat) {pt : Bytes} (inside : pt <:+ line ++ [10])
    (short : pt.length < 2 ^ 31) (enough : pt.length < fuel) (dest : Master) :
    ∃ dest' left, masterLoop fuel dest pt = some (dest', left) ∧ left <:+ pt ∧ peek left = 0 := by
  induction fuel generalizing pt dest with
  | zero => omega
  | succ fuel ih =>
    cases pt with
    | nil => exact ⟨dest, [], rfl, List.suffix_refl [], rfl⟩
    | cons byte rest =>
      have inside' : rest <:+ line ++ [10] := (List.suffix_cons ..).trans inside
      rw [List.length_cons] at short enough
      rw [masterLoop]
      by_cases zero : byte = 0
      · exact ⟨dest, byte :: rest, if_pos zero, List.suffix_refl _, zero⟩
      rw [if_neg zero]
      by_cases tag : byte = 35
      · rw [if_pos tag]
        obtain rest_nil | ⟨text, rfl, text_inside⟩ := List.suffix_concat_iff.mp inside'
        · obtain ⟨front, whole⟩ := inside
          rw [rest_nil] at whole
          have last := (List.append_inj_right' whole rfl)
          rw [tag] at last
          exact absurd last (by decide)
        · obtain ⟨dest', left, left_inside, read⟩ := parseMasterTag_enclosed (followed.suffix text_inside) dest
          have less := left_inside.length_le
          obtain ⟨final, left', looped, inside'', zero'⟩ := ih (left_inside.trans inside') (by omega) (by omega) dest'
          refine ⟨final, left', ?_, (inside''.trans left_inside).trans (List.suffix_cons ..), zero'⟩
          rw [read, Option.bind_eq_bind, Option.bind_some]
          dsimp only
          rw [if_pos (by omega), looped]
      · rw [if_neg tag]
        obtain ⟨final, left, looped, inside'', zero'⟩ := ih inside' (by omega) (by omega) dest
        exact ⟨final, left, looped, inside''.trans (List.suffix_cons ..), zero'⟩

end Master

/-- Behind a name at the end the pointer passes the zero. -/
example : hlsparseMaster (ascii "#EXTM3U\n#EXT-X-VERSION") = none := by decide +kernel

end Apsdk.HlsParser
