import Mathlib.Data.List.Sort

/-! Priority queues by contract. An implementation is any container that keeps
its contents, serves a least key first, and decides only by comparing keys. The
order among equal keys is left to the implementation, as a heap leaves it. -/

namespace Library

/-- Relabelling by `f` does not change the outcome of any comparison of keys. -/
def SameOrder (key : α → Nat) (key' : β → Nat) (f : α → β) (items : List α) : Prop :=
  ∀ x ∈ items, ∀ y ∈ items, key' (f x) < key' (f y) ↔ key x < key y

theorem SameOrder.subset {key : α → Nat} {key' : β → Nat} {f : α → β} {items fewer : List α}
    (same : SameOrder key key' f items) (inside : ∀ x ∈ fewer, x ∈ items) : SameOrder key key' f fewer :=
  fun x first y second => same x (inside x first) y (inside y second)

/-- `Ordered` is the implementation's own invariant (a heap's shape, say); every
queue built from `empty` has it. The `map` laws say that an implementation only
looks at comparisons: a queue relabelled without changing any comparison serves
the relabelled elements in the same order. -/
structure PriorityQueue where
  Q : Type → Type
  empty : Q α
  push : (α → Nat) → α → Q α → Q α
  pop : (α → Nat) → Q α → Option (α × Q α)
  map : (α → β) → Q α → Q β
  contents : Q α → List α
  Ordered : (α → Nat) → Q α → Prop
  contents_empty : contents (empty : Q α) = []
  contents_push : ∀ (key : α → Nat) a q, (contents (push key a q)).Perm (a :: contents q)
  contents_map : ∀ (f : α → β) q, contents (map f q) = (contents q).map f
  pop_none : ∀ (key : α → Nat) q, pop key q = none ↔ contents q = []
  contents_pop : ∀ {key : α → Nat} {q a rest}, pop key q = some (a, rest) →
    (contents q).Perm (a :: contents rest)
  ordered_empty : ∀ (key : α → Nat), Ordered key empty
  ordered_push : ∀ {key : α → Nat} {a q}, Ordered key q → Ordered key (push key a q)
  ordered_pop : ∀ {key : α → Nat} {q a rest}, Ordered key q → pop key q = some (a, rest) → Ordered key rest
  pop_least : ∀ {key : α → Nat} {q a rest}, Ordered key q → pop key q = some (a, rest) →
    ∀ b ∈ contents rest, key a ≤ key b
  map_empty : ∀ (f : α → β), map f empty = empty
  map_push : ∀ {key : α → Nat} {key' : β → Nat} {f : α → β} {a q},
    SameOrder key key' f (a :: contents q) → push key' (f a) (map f q) = map f (push key a q)
  map_pop : ∀ {key : α → Nat} {key' : β → Nat} {f : α → β} {q},
    SameOrder key key' f (contents q) → pop key' (map f q) = (pop key q).map (Prod.map f (map f))

namespace PriorityQueue
variable (queue : PriorityQueue) {α : Type}

def size (q : queue.Q α) : Nat := (queue.contents q).length

@[simp] theorem size_empty : queue.size (queue.empty : queue.Q α) = 0 := by
  simp [size, queue.contents_empty]

@[simp] theorem size_map {β : Type} (f : α → β) (q : queue.Q α) : queue.size (queue.map f q) = queue.size q := by
  simp [size, queue.contents_map]

theorem size_pop {key : α → Nat} {q rest : queue.Q α} {a : α} (popped : queue.pop key q = some (a, rest)) :
    queue.size q = queue.size rest + 1 :=
  (queue.contents_pop popped).length_eq

theorem pop_mem {key : α → Nat} {q rest : queue.Q α} {a : α} (popped : queue.pop key q = some (a, rest)) :
    a ∈ queue.contents q :=
  (queue.contents_pop popped).mem_iff.mpr (List.mem_cons_self ..)

theorem rest_mem {key : α → Nat} {q rest : queue.Q α} {a b : α} (popped : queue.pop key q = some (a, rest))
    (member : b ∈ queue.contents rest) : b ∈ queue.contents q :=
  (queue.contents_pop popped).mem_iff.mpr (List.mem_cons_of_mem _ member)

end PriorityQueue

namespace SortedList

/-- The order in which a sorted list keeps its elements. -/
abbrev NoLater (key : α → Nat) (a b : α) : Prop := key a ≤ key b

instance (key : α → Nat) : Std.Total (NoLater key) := ⟨fun a b => Nat.le_total (key a) (key b)⟩
instance (key : α → Nat) : IsTrans α (NoLater key) := ⟨fun _ _ _ first second => Nat.le_trans first second⟩

theorem map_insert {key : α → Nat} {key' : β → Nat} {f : α → β} {a : α} {items : List α}
    (same : SameOrder key key' f (a :: items)) :
    (items.map f).orderedInsert (NoLater key') (f a) = (items.orderedInsert (NoLater key) a).map f := by
  symm
  apply List.map_orderedInsert
  all_goals
    intro b member
    simp only [NoLater, ← Nat.not_lt, same _ (List.mem_cons_of_mem _ member) _ (List.mem_cons_self ..),
      same _ (List.mem_cons_self ..) _ (List.mem_cons_of_mem _ member)]

def pop : List α → Option (α × List α)
  | [] => none
  | a :: rest => some (a, rest)

theorem pop_eq {items rest : List α} {a : α} (popped : pop items = some (a, rest)) : items = a :: rest := by
  cases items with
  | nil => cases popped
  | cons b later => cases popped; rfl

end SortedList

/-- A sorted list is a priority queue. -/
def sortedList : PriorityQueue where
  Q := List
  empty := []
  push key := List.orderedInsert (SortedList.NoLater key)
  pop _ := SortedList.pop
  map := List.map
  contents := id
  Ordered key items := items.Pairwise (SortedList.NoLater key)
  contents_empty := rfl
  contents_push _ := List.perm_orderedInsert _
  contents_map _ _ := rfl
  pop_none _ q := by cases q <;> simp [SortedList.pop]
  contents_pop popped := List.Perm.of_eq (SortedList.pop_eq popped)
  ordered_empty _ := List.Pairwise.nil
  ordered_push sorted := sorted.orderedInsert _ _
  ordered_pop sorted popped := (List.pairwise_cons.mp (SortedList.pop_eq popped ▸ sorted)).2
  pop_least sorted popped := (List.pairwise_cons.mp (SortedList.pop_eq popped ▸ sorted)).1
  map_empty _ := rfl
  map_push := SortedList.map_insert
  map_pop {_ _ _ _ _ q} _ := by cases q <;> rfl

end Library
