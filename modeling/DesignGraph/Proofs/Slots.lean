/-
  Slots over time, and slots as a list.

  * `Slots.Later R s t`: the table `t` is a later state of the table `s`.  No
    number is given out twice, so an item that `t` holds under a number that `s`
    had given out was held by `s` already, and `R` says how it may have changed
    since; `Later.get?_eq_none` is what becomes of an emptied place;
  * `free_comm`: places can be emptied in any order;
  * `toList` lists every item once (`mem_toList`, `nodup_toList_ids`), and there
    are `size` of them (`length_toList`).
-/
import DesignGraph.Slots

namespace DesignGraph

namespace Slots

variable {τ : Type} {tag : τ} {α : Type}

/-! ## Later states of a table -/

/-- The table gave out the number. -/
def Issued (s : Slots tag α) (i : Id tag) : Prop := i.index < s.nextId.index

/-- `t` is a later state of `s`, in which items have changed as `R` allows. -/
structure Later (R : α → α → Prop) (s t : Slots tag α) : Prop where
  issued : ∀ i, s.Issued i → t.Issued i
  held : ∀ i b, s.Issued i → t.get? i = some b → ∃ a, s.get? i = some a ∧ R a b

theorem issued_of_get? {s : Slots tag α} {i : Id tag} {a : α} (h : s.get? i = some a) :
    s.Issued i := index_lt_of_get? h

theorem not_issued_nextId (s : Slots tag α) : ¬ s.Issued s.nextId := Nat.lt_irrefl _

theorem ne_nextId {s : Slots tag α} {i : Id tag} (h : s.Issued i) : i ≠ s.nextId := by
  rintro rfl
  exact s.not_issued_nextId h

theorem issued_alloc {s : Slots tag α} {a : α} {i : Id tag} :
    (s.alloc a).2.Issued i ↔ s.Issued i ∨ i = s.nextId := by
  obtain ⟨n⟩ := i
  simp only [Issued, nextId_alloc]
  rw [show ((⟨n⟩ : Id tag) = s.nextId ↔ n = s.nextId.index) by cases s.nextId; simp]
  omega

theorem issued_modify {s : Slots tag α} {i j : Id tag} {f : α → α} :
    (s.modify i f).Issued j ↔ s.Issued j := by rw [Issued, nextId_modify]; rfl

theorem issued_free {s : Slots tag α} {i j : Id tag} : (s.free i).2.Issued j ↔ s.Issued j := by
  rw [Issued, nextId_free]; rfl

/-- What was given out says which number is next. -/
theorem nextId_congr {s t : Slots tag α} (h : ∀ i, s.Issued i ↔ t.Issued i) :
    s.nextId = t.nextId := by
  have hs : ¬ t.Issued s.nextId := mt (h _).2 s.not_issued_nextId
  have ht : ¬ s.Issued t.nextId := mt (h _).1 t.not_issued_nextId
  exact congrArg Id.mk (Nat.le_antisymm (Nat.le_of_not_lt ht) (Nat.le_of_not_lt hs))

/-- An item that was just stored can be changed before it is stored. -/
theorem modify_alloc (s : Slots tag α) (a : α) (f : α → α) :
    (s.alloc a).2.modify s.nextId f = (s.alloc (f a)).2 := by
  ext1
  simp only [alloc, modify, nextId]
  apply Array.ext_getElem?
  intro i
  rw [Array.getElem?_modify, Array.getElem?_push, Array.getElem?_push]
  by_cases h : i = s.cells.size
  · simp [h]
  · simp [h, Ne.symm h]

theorem modify_modify (s : Slots tag α) (i : Id tag) (f f' : α → α) :
    (s.modify i f).modify i f' = s.modify i (f' ∘ f) := by
  ext1
  simp only [modify]
  apply Array.ext_getElem?
  intro j
  rw [Array.getElem?_modify, Array.getElem?_modify, Array.getElem?_modify]
  split <;> simp

namespace Later

variable {R : α → α → Prop}

theorem refl (hR : ∀ a, R a a) (s : Slots tag α) : s.Later R s :=
  ⟨fun _ h => h, fun _ b _ hb => ⟨b, hb, hR b⟩⟩

theorem trans (hR : ∀ {a b c}, R a b → R b c → R a c) {s t u : Slots tag α} (h : s.Later R t)
    (h' : t.Later R u) : s.Later R u := by
  refine ⟨fun i hi => h'.issued i (h.issued i hi), fun i c hi hc => ?_⟩
  obtain ⟨b, hb, hbc⟩ := h'.held i c (h.issued i hi) hc
  obtain ⟨a, ha, hab⟩ := h.held i b hi hb
  exact ⟨a, ha, hR hab hbc⟩

theorem alloc (hR : ∀ a, R a a) (s : Slots tag α) (a : α) : s.Later R (s.alloc a).2 := by
  refine ⟨fun i hi => issued_alloc.2 (Or.inl hi), fun i b hi hb => ⟨b, ?_, hR b⟩⟩
  rwa [get?_alloc, if_neg (ne_nextId hi)] at hb

theorem modify (hR : ∀ a, R a a) (s : Slots tag α) (i : Id tag) {f : α → α}
    (hf : ∀ a, s.get? i = some a → R a (f a)) : s.Later R (s.modify i f) := by
  refine ⟨fun j hj => issued_modify.2 hj, fun j b _ hb => ?_⟩
  rw [get?_modify] at hb
  split at hb
  · next hj =>
    obtain ⟨a, ha, rfl⟩ := Option.map_eq_some_iff.1 hb
    exact ⟨a, ha, hf a (hj ▸ ha)⟩
  · exact ⟨b, hb, hR b⟩

theorem free (hR : ∀ a, R a a) (s : Slots tag α) (i : Id tag) : s.Later R (s.free i).2 := by
  refine ⟨fun j hj => issued_free.2 hj, fun j b _ hb => ?_⟩
  rw [get?_free] at hb
  split at hb
  · cases hb
  · exact ⟨b, hb, hR b⟩

/-- A place that is empty stays empty. -/
theorem get?_eq_none {s t : Slots tag α} (h : s.Later R t) {i : Id tag} (hi : s.Issued i)
    (hs : s.get? i = none) : t.get? i = none := by
  rcases ht : t.get? i with _ | b
  · rfl
  · obtain ⟨a, ha, -⟩ := h.held i b hi ht
    rw [hs] at ha
    cases ha

end Later

/-! ## Emptying several places -/

theorem cells_free (s : Slots tag α) (i : Id tag) :
    (s.free i).2.cells = s.cells.setIfInBounds i.index none := by
  unfold free
  split
  · next h =>
    rw [get?, Option.join_eq_none_iff] at h
    apply Array.ext_getElem?
    intro n
    rw [Array.getElem?_setIfInBounds]
    split
    · next hn =>
      subst hn
      rcases h with h | h <;> grind
    · rfl
  · rfl

/-- The order in which places are emptied does not show. -/
theorem free_comm (s : Slots tag α) (i j : Id tag) :
    ((s.free i).2.free j).2 = ((s.free j).2.free i).2 := by
  ext1
  simp only [cells_free]
  by_cases h : i.index = j.index
  · rw [h]
  · exact Array.setIfInBounds_comm none none h

/-! ## The list of items -/

theorem mem_toList {s : Slots tag α} {i : Id tag} {a : α} :
    (i, a) ∈ s.toList ↔ s.get? i = some a := by
  obtain ⟨n⟩ := i
  simp only [toList, List.mem_filterMap, Prod.exists, Option.map_eq_some_iff, Prod.mk.injEq,
    List.mem_zipIdx_iff_getElem?, Array.getElem?_toList, get?, Option.join_eq_some_iff, Id.mk.injEq]
  constructor
  · rintro ⟨cell, k, hk, x, rfl, rfl, rfl⟩
    exact hk
  · intro h
    exact ⟨some a, n, h, a, rfl, rfl, rfl⟩

/-- The ids of a list of items rise. -/
theorem pairwise_toList (s : Slots tag α) :
    s.toList.Pairwise fun x y => x.1.index < y.1.index := by
  have hidx : s.cells.toList.zipIdx.Pairwise fun x y => x.2 < y.2 := by
    have h := List.pairwise_lt_range' (s := 0) (n := s.cells.toList.length)
    rw [← List.zipIdx_map_snd, List.pairwise_map] at h
    exact h
  rw [toList, List.pairwise_filterMap]
  refine hidx.imp fun {x y} hxy a ha b hb => ?_
  obtain ⟨_, _, rfl⟩ := Option.map_eq_some_iff.1 ha
  obtain ⟨_, _, rfl⟩ := Option.map_eq_some_iff.1 hb
  exact hxy

theorem nodup_toList_ids (s : Slots tag α) : (s.toList.map Prod.fst).Nodup := by
  rw [List.Nodup, List.pairwise_map]
  refine s.pairwise_toList.imp fun {x y} h e => ?_
  rw [e] at h
  exact Nat.lt_irrefl _ h

theorem length_toList (s : Slots tag α) : s.toList.length = s.size := by
  have hcells : s.cells.countP Option.isSome =
      (s.cells.toList.zipIdx.map Prod.fst).countP Option.isSome := by
    rw [List.zipIdx_map_fst, Array.countP_toList]
  rw [toList, List.length_filterMap_eq_countP, size, s.live_eq, hcells, List.countP_map]
  exact List.countP_congr fun x _ => by simp

end Slots

end DesignGraph
