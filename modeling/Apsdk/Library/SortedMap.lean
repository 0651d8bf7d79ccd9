import Mathlib.Order.Lattice
import Mathlib.Data.List.Basic

/-! Finite maps as lists of entries with strictly increasing keys, so that equal
maps are equal lists and a traversal meets the keys in order. -/

namespace Library

variable {κ ν : Type*} [LinearOrder κ]

structure SortedMap (κ ν : Type*) [LinearOrder κ] where
  entries : List (κ × ν)
  sorted : entries.Pairwise (fun first second => first.1 < second.1)

namespace SortedMap

instance [DecidableEq ν] : DecidableEq (SortedMap κ ν) := fun first second =>
  decidable_of_iff (first.entries = second.entries)
    ⟨fun same => by cases first; cases second; cases same; rfl, congrArg entries⟩

def empty : SortedMap κ ν := ⟨[], .nil⟩

instance : Inhabited (SortedMap κ ν) := ⟨empty⟩

def insertEntry (key : κ) (value : ν) : List (κ × ν) → List (κ × ν)
  | [] => [(key, value)]
  | entry :: rest =>
    if key < entry.1 then (key, value) :: entry :: rest
    else if key = entry.1 then (key, value) :: rest
    else entry :: insertEntry key value rest

theorem mem_insertEntry {key : κ} {value : ν} {entry : κ × ν} {entries : List (κ × ν)}
    (member : entry ∈ insertEntry key value entries) : entry = (key, value) ∨ entry ∈ entries := by
  induction entries with
  | nil => exact Or.inl (List.mem_singleton.mp member)
  | cons first rest ih =>
    simp only [insertEntry] at member
    split_ifs at member
    · exact List.mem_cons.mp member
    · exact (List.mem_cons.mp member).imp_right (List.mem_cons_of_mem _)
    · rcases List.mem_cons.mp member with rfl | inside
      · exact Or.inr (List.mem_cons_self ..)
      · exact (ih inside).imp_right (List.mem_cons_of_mem _)

theorem insertEntry_sorted (key : κ) (value : ν) {entries : List (κ × ν)}
    (sorted : entries.Pairwise (fun first second => first.1 < second.1)) :
    (insertEntry key value entries).Pairwise (fun first second => first.1 < second.1) := by
  induction entries with
  | nil => exact List.pairwise_singleton _ _
  | cons first rest ih =>
    obtain ⟨smallest, tail⟩ := List.pairwise_cons.mp sorted
    simp only [insertEntry]
    split_ifs with below same
    · refine List.pairwise_cons.mpr ⟨fun entry member => ?_, sorted⟩
      rcases List.mem_cons.mp member with rfl | inside
      · exact below
      · exact lt_trans below (smallest entry inside)
    · exact List.pairwise_cons.mpr ⟨fun entry member => same ▸ smallest entry member, tail⟩
    · refine List.pairwise_cons.mpr ⟨fun entry member => ?_, ih tail⟩
      rcases mem_insertEntry member with rfl | inside
      · exact lt_of_le_of_ne (not_lt.mp below) (Ne.symm same)
      · exact smallest entry inside

def insert (map : SortedMap κ ν) (key : κ) (value : ν) : SortedMap κ ν :=
  ⟨insertEntry key value map.entries, insertEntry_sorted key value map.sorted⟩

def find? (map : SortedMap κ ν) (key : κ) : Option ν := (map.entries.find? (fun entry => entry.1 = key)).map Prod.snd

theorem mem_iff_find? {key : κ} {value : ν} {entries : List (κ × ν)}
    (sorted : entries.Pairwise (fun first second => first.1 < second.1)) :
    (key, value) ∈ entries ↔ (entries.find? (fun entry => entry.1 = key)).map Prod.snd = some value := by
  induction entries with
  | nil => simp
  | cons entry rest ih =>
    obtain ⟨smallest, tail⟩ := List.pairwise_cons.mp sorted
    by_cases here : entry.1 = key
    · subst here
      have absent : (entry.1, value) ∉ rest := fun member => lt_irrefl entry.1 (smallest (entry.1, value) member)
      simp [Prod.ext_iff, absent, eq_comm]
    · simp [here, ih tail, Prod.ext_iff, eq_comm (a := key)]

theorem mem_entries_iff (map : SortedMap κ ν) (key : κ) (value : ν) :
    (key, value) ∈ map.entries ↔ map.find? key = some value := mem_iff_find? map.sorted

theorem ext_find? {first second : SortedMap κ ν} (same : ∀ key, first.find? key = second.find? key) :
    first = second := by
  have alike : first.entries.Perm second.entries := by
    apply (List.perm_ext_iff_of_nodup _ _).mpr
    · intro entry
      rw [mem_entries_iff, mem_entries_iff, same]
    · exact first.sorted.imp (fun below equal => absurd (congrArg Prod.fst equal) (ne_of_lt below))
    · exact second.sorted.imp (fun below equal => absurd (congrArg Prod.fst equal) (ne_of_lt below))
  have equal := alike.eq_of_pairwise (fun _ _ _ _ below above => absurd below (lt_asymm above)) first.sorted second.sorted
  cases first
  cases second
  cases equal
  rfl

@[simp] theorem find?_empty (key : κ) : (empty : SortedMap κ ν).find? key = none := rfl

theorem find?_insertEntry (key other : κ) (value : ν) (entries : List (κ × ν)) :
    ((insertEntry key value entries).find? (fun entry => entry.1 = other)).map Prod.snd =
      if key = other then some value else (entries.find? (fun entry => entry.1 = other)).map Prod.snd := by
  induction entries with
  | nil => by_cases same : key = other <;> simp [insertEntry, same]
  | cons entry rest ih =>
    simp only [insertEntry]
    by_cases below : key < entry.1
    · rw [if_pos below]
      by_cases same : key = other <;> simp [same]
    · rw [if_neg below]
      by_cases equal : key = entry.1
      · rw [if_pos equal]
        by_cases same : key = other
        · simp [same]
        · simp [same, ← equal]
      · rw [if_neg equal]
        by_cases here : entry.1 = other
        · have apart : key ≠ other := fun same => equal (same.trans here.symm)
          simp [here, apart]
        · simpa [here] using ih

@[simp] theorem find?_insert (map : SortedMap κ ν) (key other : κ) (value : ν) :
    (map.insert key value).find? other = if key = other then some value else map.find? other :=
  find?_insertEntry key other value map.entries

def erase (map : SortedMap κ ν) (key : κ) : SortedMap κ ν :=
  ⟨map.entries.filter (fun entry => entry.1 ≠ key), map.sorted.filter _⟩

@[simp] theorem find?_erase (map : SortedMap κ ν) (key other : κ) :
    (map.erase key).find? other = if key = other then none else map.find? other := by
  simp only [find?, erase, List.find?_filter]
  by_cases same : key = other
  · simp [same]
  · rw [if_neg same]
    congr 2
    funext entry
    by_cases here : entry.1 = other
    · simp [here, Ne.symm same]
    · simp [here]

/-- The value that the last of the entries with the key gives it. -/
def lastValue (key : κ) : List (κ × ν) → Option ν
  | [] => none
  | entry :: later => (lastValue key later).or (if entry.1 = key then some entry.2 else none)

theorem lastValue_append (key : κ) (first second : List (κ × ν)) :
    lastValue key (first ++ second) = (lastValue key second).or (lastValue key first) := by
  induction first with
  | nil => simp [lastValue]
  | cons entry first ih => simp [lastValue, ih, Option.or_assoc]

theorem lastValue_eq_none_iff (key : κ) (entries : List (κ × ν)) :
    lastValue key entries = none ↔ ∀ entry ∈ entries, entry.1 ≠ key := by
  induction entries with
  | nil => simp [lastValue]
  | cons entry later ih =>
    rw [lastValue, Option.or_eq_none_iff, ih, List.forall_mem_cons]
    by_cases same : entry.1 = key <;> simp [same]

theorem mem_of_lastValue {key : κ} {value : ν} {entries : List (κ × ν)} (found : lastValue key entries = some value) :
    (key, value) ∈ entries := by
  induction entries with
  | nil => cases found
  | cons entry later ih =>
    rcases Option.or_eq_some_iff.mp found with further | ⟨-, here⟩
    · exact List.mem_cons_of_mem _ (ih further)
    · split_ifs at here with same
      obtain rfl := Option.some.inj here
      exact same ▸ List.mem_cons_self ..

theorem lastValue_entries (map : SortedMap κ ν) (key : κ) : lastValue key map.entries = map.find? key := by
  cases found : lastValue key map.entries with
  | some value => exact ((mem_entries_iff map key value).mp (mem_of_lastValue found)).symm
  | none =>
    have absent := (lastValue_eq_none_iff key map.entries).mp found
    cases held : map.find? key with
    | none => rfl
    | some value => exact absurd rfl (absent _ ((mem_entries_iff map key value).mpr held))

def insertAll (map : SortedMap κ ν) (entries : List (κ × ν)) : SortedMap κ ν :=
  entries.foldl (fun map entry => map.insert entry.1 entry.2) map

@[simp] theorem find?_insertAll (map : SortedMap κ ν) (entries : List (κ × ν)) (key : κ) :
    (map.insertAll entries).find? key = (lastValue key entries).or (map.find? key) := by
  induction entries generalizing map with
  | nil => rfl
  | cons entry later ih =>
    have next : (map.insertAll (entry :: later)).find? key = ((map.insert entry.1 entry.2).insertAll later).find? key := rfl
    rw [next, ih, find?_insert, lastValue]
    by_cases same : entry.1 = key <;> simp [same]

end SortedMap
end Library
