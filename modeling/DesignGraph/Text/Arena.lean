/-
  Text arenas — texts stored once and named by small handles.

  An arena keeps distinct texts in the order of their first insertion, and a
  handle (`Sym`) is a position in that order.  Nothing is ever removed, so a
  handle that resolves keeps resolving to the same text.

  * `TextArena.insert` returns the handle of a text, adding the text at the
    end if it is new; `lookup` finds a handle without adding, `resolve` reads
    the text of a handle;
  * `TextArena.insert?` does so as long as there are handles, of which there are
    `Sym.capacity`; until then it is the same (`insert?_eq_some`);
  * `lookup_eq_some_iff`: `lookup` and `resolve` are inverse to each other;
  * `resolve_insert_self` and `resolve_insert_of_resolve`: what an insertion does to
    the texts of handles.
-/

namespace DesignGraph

/-! ## Handles -/

/-- A handle of a text: its position in the arena that issued it. -/
structure Sym where
  index : Nat
deriving DecidableEq, Inhabited

/-- The number of handles there are: a handle is written as 32 bits. -/
def Sym.capacity : Nat := 0x100000000

/-- The handle at position `n`, if a handle can hold that position. -/
def Sym.ofNat? (n : Nat) : Option Sym :=
  if n < Sym.capacity then some ⟨n⟩ else none

theorem Sym.ofNat?_eq_some_iff {n : Nat} {s : Sym} :
    Sym.ofNat? n = some s ↔ n < Sym.capacity ∧ s = ⟨n⟩ := by
  grind [Sym.ofNat?]

theorem Sym.getD_ofNat? (n : Nat) : (Sym.ofNat? n).getD ⟨n⟩ = ⟨n⟩ := by
  grind [Sym.ofNat?]

/-! ## Arenas -/

/-- Distinct texts, oldest first. -/
structure TextArena where
  /-- The texts; the handle `⟨i⟩` names `texts[i]`. -/
  texts : Array String
  /-- Every text is stored once. -/
  nodup : texts.toList.Nodup

namespace TextArena

/-- The arena that holds no text. -/
def empty : TextArena := ⟨#[], by simp⟩

instance : Inhabited TextArena := ⟨empty⟩

/-- The number of texts. -/
def size (a : TextArena) : Nat := a.texts.size

/-- Whether the arena holds no text. -/
def isEmpty (a : TextArena) : Bool := a.texts.isEmpty

/-- The text of a handle. -/
def resolve (a : TextArena) (s : Sym) : Option String := a.texts[s.index]?

/-- The handle of a text, if the arena holds it. -/
def lookup (a : TextArena) (t : String) : Option Sym :=
  (a.texts.findIdx? (· == t)).map Sym.mk

theorem lookup_eq_some_iff {a : TextArena} {t : String} {s : Sym} :
    a.lookup t = some s ↔ a.resolve s = some t := by
  unfold lookup resolve
  rw [Option.map_eq_some_iff]
  constructor
  · rintro ⟨i, hi, rfl⟩
    obtain ⟨hlt, heq, _⟩ := Array.findIdx?_eq_some_iff_getElem.1 hi
    simp_all
  · intro h
    obtain ⟨hlt, heq⟩ := Array.getElem?_eq_some_iff.1 h
    refine ⟨s.index, Array.findIdx?_eq_some_iff_getElem.2 ⟨hlt, by simp [heq], ?_⟩, rfl⟩
    intro j hj
    have hne := (List.pairwise_iff_getElem.1 a.nodup) j s.index (by simp; omega) (by simpa) hj
    simp_all

theorem isSome_resolve_iff {a : TextArena} {s : Sym} :
    (a.resolve s).isSome ↔ s.index < a.size := by
  rw [resolve, isSome_getElem?, size]

theorem lookup_eq_none_iff {a : TextArena} {t : String} : a.lookup t = none ↔ t ∉ a.texts := by
  simp only [lookup, Option.map_eq_none_iff, Array.findIdx?_eq_none_iff, beq_eq_false_iff_ne]
  exact ⟨fun h ht => h t ht rfl, fun h x hx e => h (e ▸ hx)⟩

theorem nodup_push {a : TextArena} {t : String} (h : a.lookup t = none) :
    (a.texts.push t).toList.Nodup := by
  have := lookup_eq_none_iff.1 h
  rw [Array.toList_push, List.nodup_append]
  refine ⟨a.nodup, by simp, fun x hx y hy e => this ?_⟩
  rw [← List.mem_singleton.1 hy, ← e]
  exact Array.mem_toList_iff.1 hx

/-- The handle of a text, and the arena that holds it: a known text keeps its
    handle, a new one is stored at the end, if there is a handle left. -/
def insert? (a : TextArena) (t : String) : Option (Sym × TextArena) :=
  match h : a.lookup t with
  | some s => some (s, a)
  | none => (Sym.ofNat? a.size).map fun s => (s, ⟨a.texts.push t, nodup_push h⟩)

/-- The same, going on to count when no handle is left. -/
def insert (a : TextArena) (t : String) : Sym × TextArena :=
  match h : a.lookup t with
  | some s => (s, a)
  | none => ((Sym.ofNat? a.size).getD ⟨a.size⟩, ⟨a.texts.push t, nodup_push h⟩)

/-! ## What an insertion does -/

theorem insert_of_lookup {a : TextArena} {t : String} {s : Sym} (h : a.lookup t = some s) :
    a.insert t = (s, a) := by
  unfold insert
  split <;> simp_all

theorem insert_of_lookup_none {a : TextArena} {t : String} (h : a.lookup t = none) :
    a.insert t = (⟨a.size⟩, ⟨a.texts.push t, nodup_push h⟩) := by
  unfold insert
  split <;> simp_all [Sym.getD_ofNat?]

/-- The handle that a text gets is the one it has, or the next one. -/
theorem insert_fst (a : TextArena) (t : String) : (a.insert t).1 = (a.lookup t).getD ⟨a.size⟩ := by
  cases ht : a.lookup t with
  | some s => rw [insert_of_lookup ht]; rfl
  | none => rw [insert_of_lookup_none ht]; rfl

theorem insert?_of_lookup {a : TextArena} {t : String} {s : Sym} (h : a.lookup t = some s) :
    a.insert? t = some (s, a) := by
  unfold insert?
  split <;> simp_all

theorem insert?_of_lookup_none {a : TextArena} {t : String} (h : a.lookup t = none) :
    a.insert? t =
      (Sym.ofNat? a.size).map fun s => (s, ⟨a.texts.push t, nodup_push h⟩) := by
  unfold insert?
  split <;> simp_all

/-- As long as there are handles, it makes no difference that they could run out. -/
theorem insert?_eq_some {a : TextArena} (h : a.size < Sym.capacity) (t : String) :
    a.insert? t = some (a.insert t) := by
  cases ht : a.lookup t with
  | some s => rw [insert?_of_lookup ht, insert_of_lookup ht]
  | none =>
    rw [insert?_of_lookup_none ht, insert_of_lookup_none ht, Sym.ofNat?_eq_some_iff.2 ⟨h, rfl⟩]
    rfl

/-- The handle that `insert` returns resolves to the text. -/
theorem resolve_insert_self (a : TextArena) (t : String) :
    (a.insert t).2.resolve (a.insert t).1 = some t := by
  cases h : a.lookup t with
  | some s => rw [insert_of_lookup h]; exact lookup_eq_some_iff.1 h
  | none => rw [insert_of_lookup_none h]; simp [resolve, size]

/-- Handles are stable: an insertion changes the text of no handle. -/
theorem resolve_insert_of_resolve {a : TextArena} {s : Sym} {u : String} (t : String)
    (h : a.resolve s = some u) : (a.insert t).2.resolve s = some u := by
  cases ht : a.lookup t with
  | some r => rw [insert_of_lookup ht]; exact h
  | none =>
    rw [insert_of_lookup_none ht]
    obtain ⟨hlt, hu⟩ := Array.getElem?_eq_some_iff.1 h
    simp [resolve, Array.getElem?_push_lt hlt, hu]

end TextArena

end DesignGraph
