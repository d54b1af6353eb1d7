/-
  Lifetimes — what a table holds under its numbers after any calls.

  The items that are stored get the numbers `0`, `1`, … in turn.  A number stands for its item,
  as it was changed since, until it is freed; then it stands for nothing any more.  Whatever the
  table counts and lists is about the numbers that stand for an item.

  * `SlotCall` is a call on a table, `Slots.after` what calls make of an empty one, and
    `Slots.stored` the number of items that they store;
  * `Slots.Begins cs i a ds`: by the calls `cs` the item `a` got the number `i`, and `ds` are
    the calls since; `Live` and `Holds` say what has become of it;
  * `holds_concat` is the step, `get?_after` the run: the table holds just these items;
  * `slots_map_ids_until_freed` is what follows for tables.
-/
import DesignGraph.Proofs.Slots
import Mathlib.Data.List.Induction

namespace DesignGraph

/-! ## Calls on a table -/

/-- A call on a table. -/
inductive SlotCall {τ : Type} (tag : τ) (α : Type) where
  | alloc (a : α)
  | modify (i : Id tag) (f : α → α)
  | free (i : Id tag)

namespace Slots

variable {τ : Type} {tag : τ} {α : Type} {cs : List (SlotCall tag α)} {c : SlotCall tag α}
  {i : Id tag} {a b : α}

/-- Carries out a call. -/
def perform (s : Slots tag α) : SlotCall tag α → Slots tag α
  | .alloc a => (s.alloc a).2
  | .modify i f => s.modify i f
  | .free i => (s.free i).2

/-- What calls make of an empty table. -/
def after (cs : List (SlotCall tag α)) : Slots tag α := cs.foldl perform empty

theorem after_append (cs ds : List (SlotCall tag α)) :
    after (cs ++ ds) = ds.foldl perform (after cs) := List.foldl_append

theorem after_concat (cs : List (SlotCall tag α)) (c : SlotCall tag α) :
    after (cs ++ [c]) = (after cs).perform c := after_append cs [c]

/-! ## Numbers -/

/-- Whether a call stores an item. -/
def stores : SlotCall tag α → Bool
  | .alloc _ => true
  | .modify .. | .free _ => false

/-- The number of items that calls store. -/
def stored (cs : List (SlotCall tag α)) : Nat := cs.countP stores

theorem nextId_perform (s : Slots tag α) (c : SlotCall tag α) :
    (s.perform c).nextId = ⟨s.nextId.index + if stores c then 1 else 0⟩ := by
  cases c with
  | alloc a => exact nextId_alloc s a
  | modify i f => exact nextId_modify s i f
  | free i => exact nextId_free s i

/-- **The next number is the number of items that were stored.** -/
theorem nextId_after (cs : List (SlotCall tag α)) : (after cs).nextId = ⟨stored cs⟩ := by
  induction cs using List.reverseRecOn with
  | nil => rfl
  | append_singleton cs c ih =>
    rw [after_concat, nextId_perform, ih, stored, stored, List.countP_append, List.countP_singleton]

theorem issued_after_iff : (after cs).Issued i ↔ i.index < stored cs := by
  rw [Issued, nextId_after]

/-! ## Items -/

/-- By the calls `cs` the item `a` got the number `i`, and `ds` are the calls since. -/
def Begins (cs : List (SlotCall tag α)) (i : Id tag) (a : α) (ds : List (SlotCall tag α)) : Prop :=
  ∃ before, cs = before ++ .alloc a :: ds ∧ stored before = i.index

/-- What a call makes of the item under the number `i`. -/
def update (i : Id tag) (a : α) : SlotCall tag α → α
  | .modify j f => if j = i then f a else a
  | .alloc _ | .free _ => a

/-- The number stands for an item: it was given out, and not freed since. -/
def Live (cs : List (SlotCall tag α)) (i : Id tag) : Prop :=
  ∃ a ds, Begins cs i a ds ∧ .free i ∉ ds

/-- The number stands for the item `b`: this is what the calls since made of the item that got
    the number. -/
def Holds (cs : List (SlotCall tag α)) (i : Id tag) (b : α) : Prop :=
  ∃ a ds, Begins cs i a ds ∧ .free i ∉ ds ∧ ds.foldl (update i) a = b

theorem live_iff_exists_holds : Live cs i ↔ ∃ b, Holds cs i b := by
  constructor
  · rintro ⟨a, ds, hbegins, hfree⟩
    exact ⟨_, a, ds, hbegins, hfree, rfl⟩
  · rintro ⟨b, a, ds, hbegins, hfree, -⟩
    exact ⟨a, ds, hbegins, hfree⟩

theorem begins_concat {ds : List (SlotCall tag α)} : Begins (cs ++ [c]) i a ds ↔
    (∃ es, Begins cs i a es ∧ ds = es ++ [c]) ∨ c = .alloc a ∧ ds = [] ∧ stored cs = i.index := by
  constructor
  · rintro ⟨before, heq, hcount⟩
    rcases ds.eq_nil_or_concat with rfl | ⟨es, d, rfl⟩
    · obtain ⟨rfl, hc⟩ := List.append_inj' heq rfl
      exact Or.inr ⟨List.singleton_inj.1 hc, rfl, hcount⟩
    · rw [List.concat_eq_append, ← List.cons_append, ← List.append_assoc] at heq
      obtain ⟨hcs, hc⟩ := List.append_inj' heq rfl
      rw [List.singleton_inj.1 hc]
      exact Or.inl ⟨es, ⟨before, hcs, hcount⟩, List.concat_eq_append⟩
  · rintro (⟨es, ⟨before, rfl, hcount⟩, rfl⟩ | ⟨rfl, rfl, hcount⟩)
    · exact ⟨before, by simp, hcount⟩
    · exact ⟨cs, rfl, hcount⟩

/-- One more call changes or frees the item of a number, or gives the number out. -/
theorem holds_concat : Holds (cs ++ [c]) i b ↔
    (∃ x, Holds cs i x ∧ c ≠ .free i ∧ update i x c = b) ∨
      c = .alloc b ∧ stored cs = i.index := by
  constructor
  · rintro ⟨a, ds, hbegins, hfree, hb⟩
    rcases begins_concat.1 hbegins with ⟨es, hes, rfl⟩ | ⟨rfl, rfl, hcount⟩
    · rw [List.mem_append, List.mem_singleton, not_or] at hfree
      rw [List.foldl_append] at hb
      exact Or.inl ⟨_, ⟨a, es, hes, hfree.1, rfl⟩, Ne.symm hfree.2, hb⟩
    · exact Or.inr ⟨congrArg SlotCall.alloc hb, hcount⟩
  · rintro (⟨x, ⟨a, es, hes, hfree, rfl⟩, hc, rfl⟩ | ⟨rfl, hcount⟩)
    · refine ⟨a, es ++ [c], begins_concat.2 (Or.inl ⟨es, hes, rfl⟩), ?_, ?_⟩
      · rw [List.mem_append, List.mem_singleton, not_or]
        exact ⟨hfree, Ne.symm hc⟩
      · rw [List.foldl_append]
        rfl
    · exact ⟨b, [], begins_concat.2 (Or.inr ⟨rfl, rfl, hcount⟩), List.not_mem_nil, rfl⟩

/-- So it is with the table. -/
theorem get?_perform_eq_some_iff {s : Slots tag α} : (s.perform c).get? i = some b ↔
    (∃ x, s.get? i = some x ∧ c ≠ .free i ∧ update i x c = b) ∨
      c = .alloc b ∧ s.nextId = i := by
  cases c with
  | alloc a =>
    rw [perform, get?_alloc]
    by_cases hi : i = s.nextId
    · simp [hi, get?_nextId, update]
    · simp [hi, Ne.symm hi, update]
  | modify j f =>
    rw [perform, get?_modify]
    by_cases hi : i = j
    · simp [hi, update]
    · simp [hi, Ne.symm hi, update]
  | free j =>
    rw [perform, get?_free]
    by_cases hi : i = j
    · simp [hi]
    · simp [hi, Ne.symm hi, update]

theorem not_holds_nil : ¬ Holds ([] : List (SlotCall tag α)) i b := by
  rintro ⟨a, ds, ⟨before, heq, -⟩, -⟩
  simp at heq

/-- **After any calls a table holds the items that its numbers stand for.** -/
theorem get?_after (cs : List (SlotCall tag α)) (i : Id tag) (b : α) :
    (after cs).get? i = some b ↔ Holds cs i b := by
  induction cs using List.reverseRecOn generalizing b with
  | nil => simp [after, not_holds_nil]
  | append_singleton cs c ih =>
    have hnext : (after cs).nextId = i ↔ stored cs = i.index := by
      rw [nextId_after]
      cases i
      simp
    rw [after_concat, get?_perform_eq_some_iff, holds_concat, hnext]
    simp only [ih]

theorem contains_after (cs : List (SlotCall tag α)) (i : Id tag) :
    (after cs).contains i = true ↔ Live cs i := by
  rw [contains, Option.isSome_iff_exists, live_iff_exists_holds]
  simp only [get?_after]

theorem get?_after_eq_none (h : ¬ Live cs i) : (after cs).get? i = none := by
  rwa [← contains_after, contains, Option.not_isSome_iff_eq_none] at h

theorem exists_get?_after (h : Live cs i) : ∃ b, (after cs).get? i = some b := by
  rwa [← contains_after, contains, Option.isSome_iff_exists] at h

/-! ## Freed numbers -/

theorem later_perform (s : Slots tag α) (c : SlotCall tag α) :
    s.Later (fun _ _ => True) (s.perform c) := by
  cases c with
  | alloc a => exact .alloc (fun _ => trivial) s a
  | modify i f => exact .modify (fun _ => trivial) s i fun _ _ => trivial
  | free i => exact .free (fun _ => trivial) s i

theorem later_after (cs ds : List (SlotCall tag α)) :
    (after cs).Later (fun _ _ => True) (after (cs ++ ds)) := by
  rw [after_append]
  refine List.foldlRecOn ds perform (.refl (fun _ => trivial) _) fun s hs c _ => ?_
  exact hs.trans (fun _ _ => trivial) (later_perform s c)

/-- **A number that was freed stands for nothing in any later state.** -/
theorem get?_after_free (hi : i.index < stored cs) (ds : List (SlotCall tag α)) :
    (after (cs ++ .free i :: ds)).get? i = none := by
  have hissued : (after (cs ++ [.free i])).Issued i := by
    rw [after_concat]
    exact issued_free.2 (issued_after_iff.2 hi)
  have hnone : (after (cs ++ [.free i])).get? i = none := by
    rw [after_concat, perform, get?_free, if_pos rfl]
  have hlater := later_after (cs ++ [SlotCall.free i]) ds
  rw [List.append_cons]
  exact hlater.get?_eq_none hissued hnone

/-! ## Counting -/

/-- A table that gives an item away counts one item less, and had one. -/
theorem size_free {s : Slots tag α} (h : s.get? i = some a) : (s.free i).2.size + 1 = s.size := by
  have hpos : 0 < s.size := by
    rw [← length_toList]
    exact List.length_pos_of_mem (mem_toList.2 h)
  have hsize : (s.free i).2.size = s.size - 1 := by
    unfold free
    split
    · next hnone => rw [h] at hnone; cases hnone
    · rfl
  omega

/-! ## Tables after any calls -/

/-- What the table that was empty before the calls `cs` holds and answers. -/
structure Lifetimes (cs : List (SlotCall tag α)) : Prop where
  /-- Numbers are given out in turn. -/
  next : (after cs).nextId = ⟨stored cs⟩
  given : ∀ a, ((after cs).alloc a).1 = ⟨stored cs⟩
  get : ∀ i b, (after cs).get? i = some b ↔ Holds cs i b
  contains : ∀ i, (after cs).contains i = true ↔ Live cs i
  gone : ∀ i ds, i.index < stored cs → (after (cs ++ .free i :: ds)).get? i = none ∧
    (after (cs ++ .free i :: ds)).contains i = false
  /-- The item is given away once. -/
  freed : ∀ i, ((after cs).free i).1 = (after cs).get? i
  again : ∀ i ds, i.index < stored cs →
    (after (cs ++ .free i :: ds)).free i = (none, after (cs ++ .free i :: ds))
  idle : ∀ i, ¬ Live cs i → (after cs).free i = (none, after cs)
  /-- Nothing else changes when a number is freed. -/
  rest : ∀ i, (after (cs ++ [.free i])).nextId = (after cs).nextId ∧
    ∀ j ≠ i, (after (cs ++ [.free i])).get? j = (after cs).get? j
  size : ∃ ids : List (Id tag), ids.Nodup ∧ (∀ i, i ∈ ids ↔ Live cs i) ∧
    (after cs).size = ids.length
  /-- What is counted down was counted before. -/
  down : ∀ i, Live cs i → (after (cs ++ [.free i])).size + 1 = (after cs).size
  isEmpty : (after cs).isEmpty = true ↔ (after cs).size = 0
  listed : ∀ i b, (i, b) ∈ (after cs).toList ↔ (after cs).get? i = some b
  rising : (after cs).toList.Pairwise fun x y => x.1.index < y.1.index
  /-- As long as fewer items are stored than there are ids, 32 bits cut nothing off. -/
  narrow : stored cs < Id.capacity → (after cs).nextId = .ofNat (stored cs) ∧
    ∀ i b, (after cs).get? i = some b → i = .ofNat i.index

end Slots

/-- **A number of a table stands for one item, from when this is stored until it is freed.** -/
theorem slots_map_ids_until_freed {τ : Type} {tag : τ} {α : Type} (cs : List (SlotCall tag α)) :
    Slots.Lifetimes cs := by
  refine ⟨?_, ?_, ?_, ?_, ?_, ?_, ?_, ?_, ?_, ?_, ?_, ?_, ?_, ?_, ?_⟩
  · exact Slots.nextId_after cs
  · intro a
    exact Slots.nextId_after cs
  · exact Slots.get?_after cs
  · exact Slots.contains_after cs
  · intro i ds hi
    have hnone := Slots.get?_after_free hi ds
    exact ⟨hnone, by rw [Slots.contains, hnone]; rfl⟩
  · exact Slots.free_fst _
  · intro i ds hi
    exact Slots.free_of_get?_none (Slots.get?_after_free hi ds)
  · intro i hi
    exact Slots.free_of_get?_none (Slots.get?_after_eq_none hi)
  · intro i
    rw [Slots.after_concat]
    refine ⟨Slots.nextId_free _ i, fun j hj => ?_⟩
    rw [Slots.perform, Slots.get?_free, if_neg hj]
  · refine ⟨(Slots.after cs).toList.map Prod.fst, Slots.nodup_toList_ids _, fun i => ?_, ?_⟩
    · rw [Slots.live_iff_exists_holds]
      simp [Slots.mem_toList, Slots.get?_after]
    · rw [List.length_map, Slots.length_toList]
  · intro i hi
    obtain ⟨b, hb⟩ := Slots.exists_get?_after hi
    rw [Slots.after_concat]
    exact Slots.size_free hb
  · rw [Slots.isEmpty, Slots.size, beq_iff_eq]
  · intro i b
    exact Slots.mem_toList
  · exact Slots.pairwise_toList _
  · intro hcapacity
    refine ⟨by rw [Slots.nextId_after, Id.ofNat_of_lt hcapacity], fun i b hb => ?_⟩
    have hlt := Slots.index_lt_of_get? hb
    rw [Slots.nextId_after] at hlt
    exact (Id.ofNat_of_lt (Nat.lt_trans hlt hcapacity)).symm

/-- A number that is freed before it is given out is as good as new for the item that gets it. -/
example : let s : Slots () String := Slots.after [.free ⟨1⟩, .alloc "clk", .alloc "rst",
      .modify ⟨1⟩ (· ++ "_n"), .free ⟨0⟩, .free ⟨0⟩]
    s.toList = [(⟨1⟩, "rst_n")] ∧ s.size = 1 ∧ s.nextId = ⟨2⟩ := by
  decide +kernel

end DesignGraph
