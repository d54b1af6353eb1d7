/-
  Slots — numbered places that hold items until they are freed.

  Every item gets the next number, counted from `0`; a freed place stays empty
  and its number is never given out again.  The numbers are typed by a tag
  (`Id tag`), so that the ids of two tables cannot be confused.

  * `alloc` stores an item at `nextId`, `get?` reads it, `modify` changes it in
    place, `free` takes it out; `toList` lists what is left by rising id;
  * the number of items is counted along (`live`), and the count is part of
    the type: it is the number of places that hold an item (`live_eq`);
  * `get?_alloc`, `get?_modify`, `get?_free` say what each operation does to
    the view `get?`.

  Numbers have no bound here.  Written as 32 bits they are cut off (`Id.ofNat`), which
  makes no difference below `Id.capacity`.
-/

namespace DesignGraph

/-- A number given out by the table with the given tag. -/
structure Id {τ : Type} (tag : τ) where
  index : Nat

instance {τ : Type} {tag : τ} : DecidableEq (Id tag) := fun i j =>
  decidable_of_iff (i.index = j.index) (by cases i; cases j; simp)

namespace Id

variable {τ : Type} {tag : τ}

/-- The number of ids there are: an id is written as 32 bits. -/
def capacity : Nat := 0x100000000

/-- The id with the last 32 bits of a number. -/
def ofNat (n : Nat) : Id tag := ⟨n % capacity⟩

theorem ofNat_of_lt {n : Nat} (h : n < capacity) : (ofNat n : Id tag) = ⟨n⟩ := by
  rw [ofNat, Nat.mod_eq_of_lt h]

end Id

/-- A table of places, each holding an item or empty since its item was freed. -/
structure Slots {τ : Type} (tag : τ) (α : Type) where
  /-- The places by rising id. -/
  cells : Array (Option α)
  live : Nat
  /-- The number of items is counted right. -/
  live_eq : live = cells.countP Option.isSome

namespace Slots

variable {τ : Type} {tag : τ} {α : Type}

/-- Tables with the same places are the same. -/
@[ext] theorem ext {s t : Slots tag α} (h : s.cells = t.cells) : s = t := by
  obtain ⟨cs, n, hn⟩ := s
  obtain ⟨ds, m, hm⟩ := t
  cases h
  cases hn
  cases hm
  rfl

/-! ## Operations -/

/-- The table that gave out no number yet. -/
def empty : Slots tag α := ⟨#[], 0, by simp⟩

instance : Inhabited (Slots tag α) := ⟨empty⟩

/-- The number the next item gets. -/
def nextId (s : Slots tag α) : Id tag := ⟨s.cells.size⟩

/-- The number of items. -/
def size (s : Slots tag α) : Nat := s.live

/-- Whether the table holds no item. -/
def isEmpty (s : Slots tag α) : Bool := s.live == 0

/-- The item at a place, if there is one. -/
def get? (s : Slots tag α) (i : Id tag) : Option α := s.cells[i.index]?.join

/-- Whether there is an item at a place. -/
def contains (s : Slots tag α) (i : Id tag) : Bool := (s.get? i).isSome

/-- Stores an item at the next place. -/
def alloc (s : Slots tag α) (a : α) : Id tag × Slots tag α :=
  (s.nextId, ⟨s.cells.push (some a), s.live + 1, by simp [s.live_eq]⟩)

theorem countP_modify (xs : Array (Option α)) (i : Nat) (f : α → α) :
    (xs.modify i (Option.map f)).countP Option.isSome = xs.countP Option.isSome := by
  simp only [← Array.countP_toList, Array.toList_modify]
  induction xs.toList generalizing i with
  | nil => simp
  | cons x xs ih => cases i <;> simp [List.countP_cons, ih]

/-- Changes the item at a place; an empty place stays empty. -/
def modify (s : Slots tag α) (i : Id tag) (f : α → α) : Slots tag α :=
  ⟨s.cells.modify i.index (Option.map f), s.live, by rw [countP_modify, s.live_eq]⟩

theorem countP_clear {xs : Array (Option α)} {i : Nat} {a : α} (h : xs[i]?.join = some a) :
    (xs.setIfInBounds i none).countP Option.isSome = xs.countP Option.isSome - 1 := by
  obtain ⟨hi, hx⟩ := Array.getElem?_eq_some_iff.1 (Option.join_eq_some_iff.1 h)
  simp [Array.setIfInBounds_def, hi, Array.countP_set, hx]

/-- Takes out the item at a place and leaves the place empty for good. -/
def free (s : Slots tag α) (i : Id tag) : Option α × Slots tag α :=
  match h : s.get? i with
  | none => (none, s)
  | some a =>
    (some a, ⟨s.cells.setIfInBounds i.index none, s.live - 1, by rw [countP_clear h, s.live_eq]⟩)

/-- The items with their ids, by rising id. -/
def toList (s : Slots tag α) : List (Id tag × α) :=
  s.cells.toList.zipIdx.filterMap fun (cell, i) => cell.map (⟨i⟩, ·)

/-! ## The view `get?` -/

@[simp] theorem get?_empty (i : Id tag) : (empty : Slots tag α).get? i = none := by
  simp [get?, empty]

theorem nextId_alloc (s : Slots tag α) (a : α) :
    (s.alloc a).2.nextId = ⟨s.nextId.index + 1⟩ := by
  simp [alloc, nextId]

theorem get?_nextId (s : Slots tag α) : s.get? s.nextId = none := by
  simp [get?, nextId]

/-- Ids that hold an item were given out. -/
theorem index_lt_of_get? {s : Slots tag α} {i : Id tag} {a : α} (h : s.get? i = some a) :
    i.index < s.nextId.index :=
  (Array.getElem?_eq_some_iff.1 (Option.join_eq_some_iff.1 h)).1

theorem get?_alloc (s : Slots tag α) (a : α) (i : Id tag) :
    (s.alloc a).2.get? i = if i = s.nextId then some a else s.get? i := by
  obtain ⟨n⟩ := i
  simp only [alloc, get?, nextId, Array.getElem?_push, Id.mk.injEq]
  split <;> simp_all

theorem get?_modify (s : Slots tag α) (i j : Id tag) (f : α → α) :
    (s.modify i f).get? j = if j = i then (s.get? j).map f else s.get? j := by
  obtain ⟨n⟩ := i
  obtain ⟨m⟩ := j
  simp only [modify, get?, Array.getElem?_modify, Id.mk.injEq, eq_comm (a := n)]
  split
  · cases s.cells[m]? <;> rfl
  · rfl

theorem nextId_modify (s : Slots tag α) (i : Id tag) (f : α → α) :
    (s.modify i f).nextId = s.nextId := by
  simp [modify, nextId]

theorem free_of_get?_none {s : Slots tag α} {i : Id tag} (h : s.get? i = none) :
    s.free i = (none, s) := by
  unfold free
  split <;> simp_all

theorem free_fst (s : Slots tag α) (i : Id tag) : (s.free i).1 = s.get? i := by
  unfold free
  split <;> simp_all

theorem get?_free (s : Slots tag α) (i j : Id tag) :
    (s.free i).2.get? j = if j = i then none else s.get? j := by
  obtain ⟨m⟩ := j
  unfold free
  split
  · next h => split <;> simp_all
  · next a h =>
    obtain ⟨n⟩ := i
    simp only [get?, Array.getElem?_setIfInBounds, Id.mk.injEq, eq_comm (a := n)]
    split
    · split <;> rfl
    · rfl

theorem nextId_free (s : Slots tag α) (i : Id tag) : (s.free i).2.nextId = s.nextId := by
  unfold free
  split <;> simp [nextId]

end Slots

end DesignGraph
