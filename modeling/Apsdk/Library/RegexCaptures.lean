import Apsdk.Library.Regex

/-! What the groups of an expression capture: a byte that nothing inside of a group accepts
is not in its text. -/

namespace Library.Regex

/-- The expression consumes no such byte. -/
def rejects (byte : UInt8) : Regex → Bool
  | .set members => !members byte
  | .backreference _ => false
  | .group _ body => body.rejects byte
  | .sequence first second => first.rejects byte && second.rejects byte
  | .either first second => first.rejects byte && second.rejects byte
  | .repeated body _ _ _ _ _ => body.rejects byte
  | _ => true

/-- No group of the expression consumes such a byte. -/
def groupsReject (byte : UInt8) : Regex → Bool
  | .group _ body => body.rejects byte && body.groupsReject byte
  | .look _ body => body.groupsReject byte
  | .sequence first second => first.groupsReject byte && second.groupsReject byte
  | .either first second => first.groupsReject byte && second.groupsReject byte
  | .repeated body _ _ _ _ _ => body.groupsReject byte
  | _ => true

def State.Free (state : State) (text : Bytes) (byte : UInt8) : Prop :=
  ∀ group first last, state.captures group = some (first, last) → byte ∉ slice text first last

/-- A matcher that advances, keeps the captures free of a byte, and consumes none where it is `clean`. -/
def Keeps (text : Bytes) (byte : UInt8) (clean : Bool) (matcher : Matcher) : Prop :=
  ∀ state next result, state.Free text byte → matcher state next = some result →
    ∃ later, later.Free text byte ∧ state.position ≤ later.position ∧
      (clean = true → byte ∉ slice text state.position later.position) ∧ next later = some result

section Slices
variable {text : Bytes} {first middle last : Nat} {byte : UInt8}

theorem not_mem_slice_self : byte ∉ slice text first first := by
  rw [slice, Nat.sub_self, List.take_zero]
  exact List.not_mem_nil

theorem not_mem_slice_append (ordered : first ≤ middle) (ordered' : middle ≤ last) (left : byte ∉ slice text first middle)
    (right : byte ∉ slice text middle last) : byte ∉ slice text first last := by
  have split : last - first = (middle - first) + (last - middle) := by omega
  have there : (text.drop first).drop (middle - first) = text.drop middle := by
    rw [List.drop_drop, Nat.add_sub_cancel' ordered]
  rw [slice, split, List.take_add, there, List.mem_append]
  exact not_or.mpr ⟨left, right⟩

end Slices

section Matchers
variable {text : Bytes} {byte : UInt8} {clean : Bool} {matcher : Matcher} {state : State}

theorem State.Free.clear (free : state.Free text byte) (first count : Nat) : (state.clear first count).Free text byte := by
  intro group start stop captured
  simp only [State.clear] at captured
  split at captured
  · cases captured
  · exact free group start stop captured

theorem State.Free.capture (free : state.Free text byte) {index start : Nat} (inside : byte ∉ slice text start state.position) :
    (state.capture index start).Free text byte := by
  intro group first last captured
  simp only [State.capture] at captured
  split at captured
  · obtain ⟨rfl, rfl⟩ := Prod.mk.inj (Option.some.inj captured)
    exact inside
  · exact free group first last captured

theorem Keeps.weaken (keeps : Keeps text byte clean matcher) {strict : Bool} (implies : strict = true → clean = true) :
    Keeps text byte strict matcher := by
  intro state next result free done
  obtain ⟨later, freed, advanced, inside, rest⟩ := keeps state next result free done
  exact ⟨later, freed, advanced, fun holds => inside (implies holds), rest⟩

/-- What leaves the state alone, where it goes on. -/
theorem keeps_of_same (same : ∀ state next result, matcher state next = some result → next state = some result) :
    Keeps text byte clean matcher := by
  intro state next result free done
  exact ⟨state, free, le_rfl, fun _ => not_mem_slice_self, same state next result done⟩

theorem Keeps.sequence {second : Matcher} (keeps : Keeps text byte clean matcher) (keeps' : Keeps text byte clean second) :
    Keeps text byte clean fun state next => matcher state fun later => second later next := by
  intro state next result free done
  obtain ⟨middle, freed, advanced, inside, rest⟩ := keeps state _ result free done
  obtain ⟨later, freed', advanced', inside', rest'⟩ := keeps' middle next result freed rest
  refine ⟨later, freed', advanced.trans advanced', fun holds => ?_, rest'⟩
  exact not_mem_slice_append advanced advanced' (inside holds) (inside' holds)

theorem Keeps.either {second : Matcher} (keeps : Keeps text byte clean matcher) (keeps' : Keeps text byte clean second) :
    Keeps text byte clean fun state next => (matcher state next).or (second state next) := by
  intro state next result free done
  rcases Option.or_eq_some_iff.mp done with first | ⟨-, second⟩
  · exact keeps state next result free first
  · exact keeps' state next result free second

theorem keeps_iterate (keeps : Keeps text byte clean matcher) (first count : Nat) (greedy : Bool) (fuel least : Nat)
    (most : Option Nat) :
    Keeps text byte clean (iterate matcher (fun state => state.clear first count) greedy fuel least most) := by
  induction fuel generalizing least most with
  | zero => exact fun state next result free done => nomatch done
  | succ fuel ih =>
    have again : Keeps text byte clean fun state next => matcher (state.clear first count) fun later =>
        if least = 0 ∧ later.position = state.position then none
        else iterate matcher (fun state => state.clear first count) greedy fuel (least - 1) (most.map (· - 1)) later next := by
      intro state next result free done
      obtain ⟨middle, freed, advanced, inside, rest⟩ := keeps _ _ result (free.clear first count) done
      split at rest
      · cases rest
      · obtain ⟨later, freed', advanced', inside', rest'⟩ := ih (least - 1) (most.map (· - 1)) middle next result freed rest
        refine ⟨later, freed', advanced.trans advanced', fun holds => ?_, rest'⟩
        exact not_mem_slice_append advanced advanced' (inside holds) (inside' holds)
    have stop : Keeps text byte clean fun state next => next state := keeps_of_same fun _ _ _ => id
    intro state next result free done
    rw [iterate] at done
    split at done
    · exact stop state next result free done
    · dsimp only at done
      split at done
      · exact again state next result free done
      · split at done
        · exact again.either stop state next result free done
        · exact stop.either again state next result free done

/-- Captures stay free of a byte that no group consumes. -/
theorem run_keeps (regex : Regex) (grouped : regex.groupsReject byte = true) :
    Keeps text byte (regex.rejects byte) (run text regex) := by
  induction regex with
  | empty => exact keeps_of_same fun _ _ _ => id
  | set members =>
    intro state next result free done
    rw [run] at done
    dsimp only at done
    split at done
    · rename_i accepted
      refine ⟨{ state with position := state.position + 1 }, free, Nat.le_succ _, fun rejected member => ?_, done⟩
      obtain ⟨other, here, holds⟩ := (Option.any_eq_true _ _).mp accepted
      obtain ⟨below, rfl⟩ := List.getElem?_eq_some_iff.mp here
      rw [slice, Nat.add_sub_cancel_left, List.drop_eq_getElem_cons below, List.take_succ_cons, List.take_zero,
        List.mem_singleton] at member
      rw [rejects, member, holds] at rejected
      cases rejected
    · cases done
  | backreference index =>
    intro state next result free done
    rw [run] at done
    dsimp only at done
    split at done
    · exact ⟨state, free, le_rfl, fun absurd_ => (nomatch absurd_), done⟩
    · split at done
      · rename_i first last _ _
        exact ⟨{ state with position := state.position + (last - first) }, free, Nat.le_add_right _ _,
          fun absurd_ => (nomatch absurd_), done⟩
      · cases done
  | start =>
    apply keeps_of_same
    intro state next result done
    rw [run] at done
    exact (Option.ite_none_right_eq_some.mp done).2
  | finish =>
    apply keeps_of_same
    intro state next result done
    rw [run] at done
    exact (Option.ite_none_right_eq_some.mp done).2
  | boundary expected =>
    apply keeps_of_same
    intro state next result done
    rw [run] at done
    exact (Option.ite_none_right_eq_some.mp done).2
  | look expected body ih =>
    intro state next result free done
    rw [run] at done
    dsimp only at done
    split at done
    · rename_i later found
      obtain ⟨other, freed, -, -, same⟩ := ih grouped state some later free found
      obtain rfl : other = later := Option.some.inj same
      split at done
      · exact ⟨{ other with position := state.position }, freed, Nat.le_refl _, fun _ => not_mem_slice_self, done⟩
      · cases done
    · split at done
      · cases done
      · exact ⟨state, free, le_rfl, fun _ => not_mem_slice_self, done⟩
  | group index body ih =>
    obtain ⟨inner, grouped⟩ := Bool.and_eq_true_iff.mp grouped
    intro state next result free done
    rw [run] at done
    obtain ⟨later, freed, advanced, inside, rest⟩ := ih grouped state _ result free done
    exact ⟨_, freed.capture (inside inner), advanced, inside, rest⟩
  | sequence first second ih ih' =>
    obtain ⟨grouped, grouped'⟩ := Bool.and_eq_true_iff.mp grouped
    exact ((ih grouped).weaken fun both => (Bool.and_eq_true_iff.mp both).1).sequence
      ((ih' grouped').weaken fun both => (Bool.and_eq_true_iff.mp both).2)
  | either first second ih ih' =>
    obtain ⟨grouped, grouped'⟩ := Bool.and_eq_true_iff.mp grouped
    exact ((ih grouped).weaken fun both => (Bool.and_eq_true_iff.mp both).1).either
      ((ih' grouped').weaken fun both => (Bool.and_eq_true_iff.mp both).2)
  | repeated body least most greedy first count ih => exact keeps_iterate (ih grouped) first count greedy _ least most

theorem matchAt_free {regex : Regex} (grouped : regex.groupsReject byte = true) {filled : Bool} {position : Nat} {found : Match}
    (matched : matchAt regex text filled position = some found) {group : Nat} (inner : group ≠ 0) : byte ∉ found.str text group := by
  obtain ⟨state, ran, rfl⟩ := Option.map_eq_some_iff.mp matched
  have empty : (⟨position, fun _ => none⟩ : State).Free text byte := fun _ _ _ captured => nomatch captured
  obtain ⟨later, freed, -, -, accepted⟩ := run_keeps regex grouped _ _ state empty ran
  split at accepted
  · cases accepted
  · obtain rfl := Option.some.inj accepted
    rw [Match.str, if_neg inner]
    dsimp only
    cases captured : later.captures group with
    | none => exact List.not_mem_nil
    | some bounds => exact freed group bounds.1 bounds.2 captured

theorem search_free {regex : Regex} (grouped : regex.groupsReject byte = true) {found : Match}
    (matched : regex.search text = some found) {group : Nat} (inner : group ≠ 0) : byte ∉ found.str text group := by
  have all : ∀ count position, searchFrom regex text count position = some found → byte ∉ found.str text group := by
    intro count
    induction count with
    | zero => exact fun position matched => nomatch matched
    | succ count ih =>
      intro position matched
      rcases Option.or_eq_some_iff.mp matched with here | ⟨-, later⟩
      · exact matchAt_free grouped here inner
      · exact ih (position + 1) later
  exact all _ _ matched

end Matchers

end Library.Regex
