/-
  Interning — the handles of the texts that were put into a store.

  A text gets the number of different texts that were put in before it came for the first
  time.  So the numbers count up from `0` without gaps, and texts and handles are in bijection,
  however often and in whatever order texts are put in and looked up.  This is so with every
  lawful interner, as long as there are handles.

  * `TextCall` is a call on a store, `TextStore.after?` what calls make of an empty one, and
    `TextStore.given` are the texts that they put in;
  * `firstPlace`: the number of different texts before the first occurrence of one;
  * `TextStore.Numbers ts a`: the store `a` has the texts `ts` under their first places;
    `Numbers.insert` is the step, `exists_after?` the run;
  * `handles_number_texts` is what follows for stores; arenas are lawful interners.
-/
import Mathlib.Data.Finset.Card
import Mathlib.Data.List.Induction
import DesignGraph.Text.Interner
import DesignGraph.Proofs.Delimiters

namespace DesignGraph

/-! ## First places -/

/-- The number of different texts in a list before the first occurrence of a text. -/
def firstPlace (ts : List String) (t : String) : Nat := (ts.takeWhile (· != t)).toFinset.card

section
variable {ts us : List String} {t : String}

theorem firstPlace_append_cons (ht : t ∉ ts) : firstPlace (ts ++ t :: us) t = ts.toFinset.card := by
  rw [firstPlace, takeWhile_append_cons ht]

/-- Texts behind the first occurrence do not count. -/
theorem firstPlace_append (ht : t ∈ ts) : firstPlace (ts ++ us) t = firstPlace ts t := by
  obtain ⟨before, behind, rfl, hbefore⟩ := List.eq_append_cons_of_mem ht
  rw [List.append_assoc, List.cons_append, firstPlace_append_cons hbefore,
    firstPlace_append_cons hbefore]

theorem firstPlace_lt (ht : t ∈ ts) : firstPlace ts t < ts.toFinset.card := by
  obtain ⟨before, behind, rfl, hbefore⟩ := List.eq_append_cons_of_mem ht
  rw [firstPlace_append_cons hbefore]
  refine Finset.card_lt_card (Finset.ssubset_iff.2 ⟨t, by simpa using hbefore, ?_⟩)
  intro u hu
  simp only [Finset.mem_insert, List.mem_toFinset] at hu
  simp only [List.mem_toFinset, List.mem_append, List.mem_cons]
  exact hu.elim (fun h => Or.inr (Or.inl h)) Or.inl

theorem card_toFinset_concat (ts : List String) (t : String) :
    (ts ++ [t]).toFinset.card = if t ∈ ts then ts.toFinset.card else ts.toFinset.card + 1 := by
  have hinsert : (ts ++ [t]).toFinset = insert t ts.toFinset := by
    ext u
    simp
  rw [hinsert, Finset.card_insert_eq_ite]
  simp only [List.mem_toFinset]

theorem card_toFinset_le_append (ts us : List String) :
    ts.toFinset.card ≤ (ts ++ us).toFinset.card :=
  Finset.card_le_card (by rw [List.toFinset_append]; exact Finset.subset_union_left)

end

/-! ## Calls on a store -/

/-- A call on a store of texts. -/
inductive TextCall where
  | insert (t : String)
  | lookup (t : String)
deriving DecidableEq

namespace TextStore

section
variable {ρ : Type} [Interner ρ Sym]

/-- Carries out a call.  A look-up has no store for its result. -/
def perform? (a : TextStore ρ) : TextCall → Option (TextStore ρ)
  | .insert t => (a.insert? t).map Prod.snd
  | .lookup _ => some a

/-- What calls make of an empty store, if there are handles enough. -/
def after? (cs : List TextCall) : Option (TextStore ρ) := cs.foldlM perform? empty

/-- The text that a call puts in. -/
def given? : TextCall → Option String
  | .insert t => some t
  | .lookup _ => none

/-- The texts that calls put in, in order, known or not. -/
def given (cs : List TextCall) : List String := cs.filterMap given?

/-- Whether there are handles for all texts of a list. -/
def Fits (ts : List String) : Prop := ts.toFinset.card ≤ Sym.capacity

instance (ts : List String) : Decidable (Fits ts) := inferInstanceAs (Decidable (_ ≤ _))

theorem Fits.of_append {ts us : List String} (h : Fits (ts ++ us)) : Fits ts :=
  (card_toFinset_le_append ts us).trans h

theorem after?_concat (cs : List TextCall) (c : TextCall) :
    (after? (cs ++ [c]) : Option (TextStore ρ)) = (after? cs).bind (·.perform? c) := by
  rw [after?, List.foldlM_append, after?, Option.bind_eq_bind]
  simp only [List.foldlM_cons, List.foldlM_nil, bind_pure]

theorem given_append (cs ds : List TextCall) : given (cs ++ ds) = given cs ++ given ds :=
  List.filterMap_append

/-! ## Handles as numbers -/

/-- Two stores answer alike. -/
structure Same (a b : TextStore ρ) : Prop where
  lookup : ∀ t, a.lookup t = b.lookup t
  resolve : ∀ s, a.resolve s = b.resolve s
  size : a.size = b.size
  isEmpty : a.isEmpty = b.isEmpty

/-- The store has the texts of the list, under their first places. -/
structure Numbers (ts : List String) (a : TextStore ρ) : Prop where
  length : (Interner.entries a.texts).length = ts.toFinset.card
  mem : ∀ (s : Sym) t, (s, t) ∈ Interner.entries a.texts ↔ t ∈ ts ∧ s = ⟨firstPlace ts t⟩
  /-- A text stands at the place that its handle names. -/
  place : ∀ i (s : Sym) t, (Interner.entries a.texts)[i]? = some (s, t) → s.index = i

/-- The store has the same texts if a known one is put in. -/
theorem Numbers.of_entries {a b : TextStore ρ} {ts : List String} {t : String} (h : Numbers ts a)
    (hb : Interner.entries b.texts = Interner.entries a.texts) (ht : t ∈ ts) :
    Numbers (ts ++ [t]) b := by
  refine ⟨?_, fun s u => ?_, fun i s u hi => h.place i s u (hb ▸ hi)⟩
  · rw [hb, h.length, card_toFinset_concat, if_pos ht]
  · have hmem : u ∈ ts ++ [t] ↔ u ∈ ts := by
      simp only [List.mem_append, List.mem_singleton, or_iff_left_iff_imp]
      rintro rfl
      exact ht
    rw [hb, h.mem, hmem]
    exact and_congr_right fun hu => by rw [firstPlace_append hu]

variable [LawfulInterner ρ] {a b : TextStore ρ} {ts : List String} {t : String} {s : Sym}

theorem lookup_eq_some_iff : a.lookup t = some s ↔ (s, t) ∈ Interner.entries a.texts :=
  LawfulInterner.find?_eq_some_iff a.texts t s

/-- What a store answers depends on its entries. -/
theorem same_of_entries (h : Interner.entries a.texts = Interner.entries b.texts) : Same a b where
  lookup t := by
    ext s
    rw [lookup_eq_some_iff, lookup_eq_some_iff, h]
  resolve s := by
    rw [resolve, resolve, LawfulInterner.text?_eq, LawfulInterner.text?_eq, h]
  size := by rw [size, size, LawfulInterner.size_eq, LawfulInterner.size_eq, h]
  isEmpty := by rw [isEmpty, isEmpty, LawfulInterner.isEmpty_eq, LawfulInterner.isEmpty_eq, h]

namespace Numbers

theorem empty : Numbers [] (TextStore.empty : TextStore ρ) := by
  have hnone : Interner.entries (TextStore.empty : TextStore ρ).texts = [] :=
    LawfulInterner.entries_empty
  refine ⟨by rw [hnone]; rfl, fun s t => ?_, fun i s t h => ?_⟩
  · simp [hnone]
  · simp [hnone] at h

theorem lookup_iff (h : Numbers ts a) :
    a.lookup t = some s ↔ t ∈ ts ∧ s = ⟨firstPlace ts t⟩ := lookup_eq_some_iff.trans (h.mem s t)

/-- A handle is read as the place of its text. -/
theorem resolve_iff (h : Numbers ts a) : a.resolve s = some t ↔ t ∈ ts ∧ s = ⟨firstPlace ts t⟩ := by
  rw [← h.mem, resolve, LawfulInterner.text?_eq, Option.map_eq_some_iff]
  constructor
  · rintro ⟨⟨k, u⟩, hk, rfl⟩
    have hindex : k.index = s.index := h.place _ k u hk
    obtain rfl : k = s := congrArg Sym.mk hindex
    exact List.mem_of_getElem? hk
  · intro hmem
    obtain ⟨i, hi⟩ := List.mem_iff_getElem?.1 hmem
    refine ⟨(s, t), ?_, rfl⟩
    rwa [show Key.toNat s = i from h.place i s t hi]

theorem resolve_eq_none_iff (h : Numbers ts a) :
    a.resolve s = none ↔ ts.toFinset.card ≤ s.index := by
  rw [resolve, LawfulInterner.text?_eq, Option.map_eq_none_iff, List.getElem?_eq_none_iff, h.length]
  rfl

theorem size_eq (h : Numbers ts a) : a.size = ts.toFinset.card := by
  rw [size, LawfulInterner.size_eq, h.length]

/-- A known text keeps its handle, and the store answers as before. -/
theorem insert_of_mem (h : Numbers ts a) (ht : t ∈ ts) : ∃ b : TextStore ρ,
    a.insert? t = some (⟨firstPlace (ts ++ [t]) t⟩, b) ∧ Numbers (ts ++ [t]) b ∧ Same a b := by
  have hfind : Interner.find? a.texts t = some ⟨firstPlace ts t⟩ := h.lookup_iff.2 ⟨ht, rfl⟩
  obtain ⟨r, hr, hentries⟩ := LawfulInterner.intern?_of_find? a.texts t _ hfind
  refine ⟨⟨r⟩, ?_, h.of_entries hentries ht, same_of_entries hentries.symm⟩
  rw [insert?, hr, firstPlace_append ht]
  rfl

/-- A new text gets the next handle, if there is one. -/
theorem insert_of_notMem (h : Numbers ts a) (ht : t ∉ ts) (hfits : Fits (ts ++ [t])) :
    ∃ b : TextStore ρ, a.insert? t = some (⟨firstPlace (ts ++ [t]) t⟩, b) ∧
      Numbers (ts ++ [t]) b := by
  rw [Fits, card_toFinset_concat, if_neg ht] at hfits
  have hfind : Interner.find? a.texts t = none := by
    refine Option.eq_none_iff_forall_ne_some.2 fun s hs => ht ?_
    exact (h.lookup_iff.1 hs).1
  have hkey : Key.ofNat? (Interner.entries a.texts).length =
      some (⟨firstPlace (ts ++ [t]) t⟩ : Sym) := by
    rw [h.length, firstPlace_append_cons ht]
    exact Sym.exists_ofNat? hfits
  obtain ⟨r, hr, hentries⟩ := LawfulInterner.intern?_of_new a.texts t _ hfind hkey
  refine ⟨⟨r⟩, by rw [insert?, hr]; rfl, ?_, fun s u => ?_, fun i s u hi => ?_⟩
  · rw [hentries, List.length_append, h.length, card_toFinset_concat, if_neg ht]
    rfl
  · rw [hentries, List.mem_append, h.mem, List.mem_singleton, Prod.mk.injEq, List.mem_append,
      List.mem_singleton]
    by_cases hu : u = t
    · subst hu
      simp [ht]
    · rw [or_iff_left (fun hs => hu hs.2), or_iff_left hu]
      exact and_congr_right fun hmem => by rw [firstPlace_append hmem]
  · rw [hentries, List.getElem?_append] at hi
    split at hi
    · exact h.place i s u hi
    · next hlt =>
      obtain ⟨hi, hs⟩ := List.getElem?_eq_some_iff.1 hi
      rw [List.length_singleton, Nat.lt_one_iff] at hi
      simp only [hi, List.getElem_cons_zero, Prod.mk.injEq] at hs
      obtain ⟨rfl, -⟩ := hs
      show firstPlace (ts ++ [t]) t = i
      rw [firstPlace_append_cons ht, ← h.length]
      omega

/-- **A text gets the number of different texts before it, also if it is new.** -/
theorem insert (h : Numbers ts a) (t : String) (hfits : Fits (ts ++ [t])) : ∃ b : TextStore ρ,
    a.insert? t = some (⟨firstPlace (ts ++ [t]) t⟩, b) ∧ Numbers (ts ++ [t]) b := by
  by_cases ht : t ∈ ts
  · obtain ⟨b, hb, hnumbers, -⟩ := h.insert_of_mem ht
    exact ⟨b, hb, hnumbers⟩
  · exact h.insert_of_notMem ht hfits

end Numbers

/-- **After any calls, handles are the first places of the texts that were put in.** -/
theorem exists_after? (cs : List TextCall) (hfits : Fits (given cs)) :
    ∃ a : TextStore ρ, after? cs = some a ∧ Numbers (given cs) a := by
  induction cs using List.reverseRecOn with
  | nil => exact ⟨_, rfl, .empty⟩
  | append_singleton cs c ih =>
    rw [given_append] at hfits
    obtain ⟨a, ha, hnumbers⟩ := ih hfits.of_append
    rw [after?_concat, ha, given_append]
    cases c with
    | insert t =>
      obtain ⟨b, hb, hnumbers⟩ := hnumbers.insert t hfits
      exact ⟨b, by rw [Option.bind_some, perform?, hb]; rfl, hnumbers⟩
    | lookup t =>
      refine ⟨a, rfl, ?_⟩
      rwa [show given [.lookup t] = [] from rfl, List.append_nil]

/-! ## The handles of a store -/

/-- What the store `a` answers and holds that was empty before the calls `cs`. -/
structure Numbering (cs : List TextCall) (a : TextStore ρ) : Prop where
  inserted : ∀ t, Fits (given cs ++ [t]) → ∃ b, after? (cs ++ [.insert t]) = some b ∧
    a.insert? t = some (⟨firstPlace (given cs ++ [t]) t⟩, b)
  /-- Texts and handles find each other. -/
  found : ∀ t s, a.lookup t = some s ↔ a.resolve s = some t
  known : ∀ t s, a.resolve s = some t ↔ t ∈ given cs ∧ s = ⟨firstPlace (given cs) t⟩
  absent : ∀ s, a.resolve s = none ↔ a.size ≤ s.index
  size : a.size = (given cs).toFinset.card
  isEmpty : a.isEmpty = true ↔ a.size = 0
  /-- A known text keeps its handle, and nothing else becomes of it. -/
  again : ∀ t ∈ given cs, ∃ b, after? (cs ++ [.insert t]) = some b ∧
    a.insert? t = some (⟨firstPlace (given cs) t⟩, b) ∧ Same a b
  looked : ∀ t, after? (cs ++ [.lookup t]) = some a
  /-- No later call changes the text of a handle. -/
  lasting : ∀ ds, Fits (given (cs ++ ds)) → ∃ b : TextStore ρ, after? (cs ++ ds) = some b ∧
    ∀ s t, a.resolve s = some t → b.resolve s = some t
  /-- Each number is held by a key and read back from it. -/
  keys : ∀ t ∈ given cs, ∃ s : Sym, Key.ofNat? (firstPlace (given cs) t) = some s ∧
    a.lookup t = some s ∧ Key.toNat s = firstPlace (given cs) t

end

end TextStore

/-- **Handles number the texts of a store in the order in which they came first.** -/
theorem handles_number_texts {ρ : Type} [Interner ρ Sym] [LawfulInterner ρ] (cs : List TextCall)
    (hfits : TextStore.Fits (TextStore.given cs)) :
    ∃ a : TextStore ρ, TextStore.after? cs = some a ∧ TextStore.Numbering cs a := by
  obtain ⟨a, ha, hnumbers⟩ : ∃ a : TextStore ρ, _ := TextStore.exists_after? cs hfits
  have hafter {t : String} {s : Sym} {b : TextStore ρ} (hb : a.insert? t = some (s, b)) :
      TextStore.after? (cs ++ [.insert t]) = some b := by
    rw [TextStore.after?_concat, ha, Option.bind_some, TextStore.perform?, hb]
    rfl
  refine ⟨a, ha, ?_, ?_, ?_, ?_, ?_, ?_, ?_, ?_, ?_, ?_⟩
  · intro t hfits
    obtain ⟨b, hb, -⟩ := hnumbers.insert t hfits
    exact ⟨b, hafter hb, hb⟩
  · intro t s
    rw [hnumbers.lookup_iff, hnumbers.resolve_iff]
  · intro t s
    exact hnumbers.resolve_iff
  · intro s
    rw [hnumbers.resolve_eq_none_iff, hnumbers.size_eq]
  · exact hnumbers.size_eq
  · rw [TextStore.isEmpty, TextStore.size, LawfulInterner.isEmpty_eq, LawfulInterner.size_eq,
      List.isEmpty_iff, List.length_eq_zero_iff]
  · intro t ht
    obtain ⟨b, hb, -, hsame⟩ := hnumbers.insert_of_mem ht
    exact ⟨b, hafter hb, by rwa [firstPlace_append ht] at hb, hsame⟩
  · intro t
    rw [TextStore.after?_concat, ha]
    rfl
  · intro ds hfits
    obtain ⟨b, hb, hnumbers'⟩ : ∃ b : TextStore ρ, _ := TextStore.exists_after? (cs ++ ds) hfits
    refine ⟨b, hb, fun s t hs => ?_⟩
    obtain ⟨ht, rfl⟩ := hnumbers.resolve_iff.1 hs
    refine hnumbers'.resolve_iff.2 ?_
    rw [TextStore.given_append]
    exact ⟨List.mem_append_left _ ht, by rw [firstPlace_append ht]⟩
  · intro t ht
    have hplace := (firstPlace_lt ht).trans_le hfits
    exact ⟨_, Sym.exists_ofNat? hplace, hnumbers.lookup_iff.2 ⟨ht, rfl⟩, rfl⟩

/-! ## Arenas -/

namespace TextArena

theorem mem_entries {a : TextArena} {s : Sym} {t : String} :
    (s, t) ∈ Interner.entries a ↔ a.resolve s = some t := by
  simp only [Interner.entries, List.mem_map, Prod.mk.injEq, Prod.exists,
    List.mem_zipIdx_iff_getElem?, Array.getElem?_toList]
  constructor
  · rintro ⟨u, i, hi, rfl, rfl⟩
    exact hi
  · intro h
    exact ⟨t, s.index, h, rfl, rfl⟩

theorem length_entries (a : TextArena) : (Interner.entries a).length = a.size := by
  simp [Interner.entries, size]

instance : LawfulInterner TextArena where
  entries_empty := rfl
  find?_eq_some_iff a t s := by
    rw [mem_entries]
    exact a.lookup_eq_some_iff
  intern?_of_find? a t s h := ⟨a, insert?_of_lookup h, rfl⟩
  intern?_of_new a t s h hs := by
    rw [length_entries] at hs
    obtain rfl := Sym.eq_of_ofNat? hs
    refine ⟨⟨a.texts.push t, nodup_push h⟩, ?_, ?_⟩
    · show a.insert? t = _
      rw [insert?_of_lookup_none h, show Sym.ofNat? a.size = _ from hs]
      rfl
    · simp [Interner.entries, List.zipIdx_append, size]
  text?_eq a s := by
    show a.resolve s = _
    simp [Interner.entries, resolve, Key.toNat, List.getElem?_zipIdx, Function.comp_def]
  size_eq a := (length_entries a).symm
  isEmpty_eq a := by
    show a.isEmpty = _
    rw [Bool.eq_iff_iff, List.isEmpty_iff, ← List.length_eq_zero_iff, length_entries]
    simp [isEmpty, size]

end TextArena

/-- The empty text and the one of a zero character are texts as any other, and are numbered by
    an arena in the order in which they come. -/
theorem arenas_number_texts :
    TextStore.Fits (TextStore.given
      [.insert "clk", .insert "", .lookup "rst", .insert "clk", .insert "\x00"]) ∧
    ∃ a : TextStore TextArena, TextStore.after?
        [.insert "clk", .insert "", .lookup "rst", .insert "clk", .insert "\x00"] = some a ∧
      TextStore.Numbering
        [.insert "clk", .insert "", .lookup "rst", .insert "clk", .insert "\x00"] a :=
  ⟨by decide +kernel, handles_number_texts _ (by decide +kernel)⟩

end DesignGraph
