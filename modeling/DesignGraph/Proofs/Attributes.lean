/-
  Attributes as a map from names to texts.

  A store keeps handles only, and its arena grows by the texts of other stores
  too.  What is read by name depends on neither: handles that resolve keep their
  texts (`TextArena.Extends`), and no entry of a store hangs on a handle that its
  arena does not know (`Attributes.Rooted`), so a name that enters the arena
  later finds no entry.

  * `Write` is a write to a store, `lastWrite` the last one to a name;
  * `Attributes.Reflects a arena ws`: read by name, the store `a` is what the
    writes `ws` say.  The empty store reflects no writes, `set` and `sealAll` add
    theirs, and growth of the arena changes nothing (`reflects_empty`,
    `Reflects.set`, `Reflects.sealAll`, `Reflects.mono`);
  * `lookup_set_of_constant`, `lookup_sealAll_of_constant`: no write changes the
    entry of a constant; `Reflects.lookup_constant`: it is found, with its value.
-/
import DesignGraph.Attributes
import Mathlib.Data.Finset.Card

namespace DesignGraph

/-! ## Growth of arenas -/

namespace TextArena

/-- The arena `b` has the texts of `a` under the same handles. -/
def Extends (a b : TextArena) : Prop := ∀ s t, a.resolve s = some t → b.resolve s = some t

theorem Extends.refl (a : TextArena) : a.Extends a := fun _ _ h => h

theorem Extends.trans {a b c : TextArena} (h : a.Extends b) (h' : b.Extends c) : a.Extends c :=
  fun s t hs => h' s t (h s t hs)

theorem Extends.index_lt {a b : TextArena} {s : Sym} (h : a.Extends b) (hs : s.index < a.size) :
    s.index < b.size := by
  obtain ⟨t, ht⟩ := Option.isSome_iff_exists.1 (isSome_resolve_iff.2 hs)
  rw [← isSome_resolve_iff, h s t ht]
  rfl

theorem extends_insert (a : TextArena) (t : String) : a.Extends (a.insert t).2 :=
  fun _ _ hs => resolve_insert_of_resolve t hs

/-- No text is known by two handles. -/
theorem eq_of_resolve {a : TextArena} {r s : Sym} {t : String} (hr : a.resolve r = some t)
    (hs : a.resolve s = some t) : r = s := by
  rw [← lookup_eq_some_iff] at hr hs
  rw [hr] at hs
  exact Option.some.inj hs

end TextArena

/-! ## Writes -/

/-- A write of an attribute. -/
structure Write where
  name : String
  value : String
  constant : Bool
deriving DecidableEq

/-- The write that makes a constant. -/
def Write.ofConstant (c : String × String) : Write := ⟨c.1, c.2, true⟩

/-- The last write to a name. -/
def lastWrite (ws : List Write) (name : String) : Option Write :=
  ws.reverse.find? (·.name = name)

theorem lastWrite_append (ws vs : List Write) (name : String) :
    lastWrite (ws ++ vs) name = (lastWrite vs name).or (lastWrite ws name) := by
  rw [lastWrite, List.reverse_append, List.find?_append]; rfl

theorem lastWrite_concat (ws : List Write) (w : Write) (name : String) :
    lastWrite (ws ++ [w]) name = if name = w.name then some w else lastWrite ws name := by
  rw [lastWrite_append]
  by_cases h : name = w.name
  · simp [lastWrite, h]
  · simp [lastWrite, h, Ne.symm h]

/-- Where no name is written twice, every write is the last one. -/
theorem lastWrite_of_mem {ws : List Write} (hws : (ws.map (·.name)).Nodup) {w : Write}
    (hw : w ∈ ws) : lastWrite ws w.name = some w := by
  induction ws using List.reverseRecOn with
  | nil => cases hw
  | append_singleton ws v ih =>
    rw [List.map_append, List.nodup_append] at hws
    obtain ⟨hnodup, -, hne⟩ := hws
    rw [lastWrite_concat]
    rcases List.mem_append.1 hw with hw | hw
    · rw [if_neg (hne _ (List.mem_map_of_mem hw) _ (List.mem_singleton.2 rfl)), ih hnodup hw]
    · rw [List.mem_singleton.1 hw, if_pos rfl]

theorem isSome_lastWrite {ws : List Write} {name : String} :
    (lastWrite ws name).isSome ↔ name ∈ (ws.map (·.name)).toFinset := by
  simp [lastWrite]

namespace Attributes

/-! ## Reading by name -/

/-- The value text of an attribute, and whether it is constant. -/
def cell? (a : Attributes) (arena : TextArena) (name : String) : Option (String × Bool) :=
  (a.lookup arena name).bind fun x => (arena.resolve x.value).map (·, x.constant)

/-- Every handle of the store resolves in the arena. -/
def Rooted (a : Attributes) (arena : TextArena) : Prop :=
  ∀ k x, a.find? k = some x → (arena.resolve k).isSome ∧ (arena.resolve x.value).isSome

variable {a a' : Attributes} {arena arena' : TextArena} {name value : String} {c : Bool}

theorem lookup_eq_some_iff {x : Attribute} :
    a.lookup arena name = some x ↔ ∃ k, arena.resolve k = some name ∧ a.find? k = some x := by
  simp only [lookup, Option.bind_eq_some_iff, TextArena.lookup_eq_some_iff]

theorem lookup_of_resolve {k : Sym} (h : arena.resolve k = some name) :
    a.lookup arena name = a.find? k := by
  rw [lookup, TextArena.lookup_eq_some_iff.2 h]; rfl

theorem Rooted.mono (h : a.Rooted arena) (hx : arena.Extends arena') : a.Rooted arena' := by
  intro k x hk
  obtain ⟨h1, h2⟩ := h k x hk
  obtain ⟨t, ht⟩ := Option.isSome_iff_exists.1 h1
  obtain ⟨u, hu⟩ := Option.isSome_iff_exists.1 h2
  rw [hx k t ht, hx x.value u hu]
  exact ⟨rfl, rfl⟩

/-- An attribute that is found stays found when the arena grows. -/
theorem lookup_mono {x : Attribute} (hx : arena.Extends arena')
    (h : a.lookup arena name = some x) : a.lookup arena' name = some x := by
  obtain ⟨k, hk, hf⟩ := lookup_eq_some_iff.1 h
  exact lookup_eq_some_iff.2 ⟨k, hx k name hk, hf⟩

/-- A name that is new in the arena finds no entry of a rooted store. -/
theorem Rooted.lookup_extends (h : a.Rooted arena) (hx : arena.Extends arena') :
    a.lookup arena' name = a.lookup arena name := by
  refine Option.ext fun x => ⟨fun hm => ?_, lookup_mono hx⟩
  obtain ⟨k, hk, hf⟩ := lookup_eq_some_iff.1 hm
  obtain ⟨t, ht⟩ := Option.isSome_iff_exists.1 (h k x hf).1
  have : t = name := Option.some.inj ((hx k t ht).symm.trans hk)
  exact lookup_eq_some_iff.2 ⟨k, this ▸ ht, hf⟩

/-- The value of an attribute that is found is a text. -/
theorem Rooted.resolve_value (h : a.Rooted arena) {x : Attribute}
    (hl : a.lookup arena name = some x) : ∃ t, arena.resolve x.value = some t := by
  obtain ⟨k, -, hf⟩ := lookup_eq_some_iff.1 hl
  exact Option.isSome_iff_exists.1 (h k x hf).2

theorem Rooted.cell?_extends (h : a.Rooted arena) (hx : arena.Extends arena') :
    a.cell? arena' name = a.cell? arena name := by
  rw [cell?, cell?, h.lookup_extends hx]
  rcases hl : a.lookup arena name with _ | x
  · rfl
  · obtain ⟨t, ht⟩ := h.resolve_value hl
    simp only [Option.bind_some, ht, hx x.value t ht]

theorem get_eq_cell? : a.get arena name = (a.cell? arena name).map Prod.fst := by
  rw [get, cell?, Option.map_bind]
  refine congrArg _ (funext fun x => ?_)
  rw [Function.comp_apply, Option.map_map]
  exact Option.map_id'.symm

theorem Rooted.isConstant_eq_cell? (h : a.Rooted arena) :
    a.isConstant arena name = (a.cell? arena name).any Prod.snd := by
  rw [isConstant, cell?]
  rcases hl : a.lookup arena name with _ | x
  · rfl
  · obtain ⟨t, ht⟩ := h.resolve_value hl
    simp [ht]

/-! ## What a write does -/

/-- An accepted write: the name was not constant, and the entry under the handle
    of the name holds the handle of the value. -/
theorem set_eq_some (h : a.set arena name value c = some (a', arena')) :
    a.isConstant arena name = false ∧ arena.Extends arena' ∧ ∃ k s, arena'.resolve k = some name ∧
      arena'.resolve s = some value ∧ a' = a.put k ⟨s, c⟩ := by
  unfold set at h
  split at h
  · cases h
  · next hc =>
    obtain ⟨rfl, rfl⟩ := Prod.mk.inj (Option.some.inj h)
    exact ⟨by simpa using hc, (arena.extends_insert name).trans (TextArena.extends_insert _ value),
      _, _, TextArena.resolve_insert_of_resolve value (arena.resolve_insert_self name),
      TextArena.resolve_insert_self _ value, rfl⟩

theorem extends_set (h : a.set arena name value c = some (a', arena')) : arena.Extends arena' :=
  (set_eq_some h).2.1

theorem lookup_put {k : Sym} {x : Attribute} {m : String}
    (hk : arena.resolve k = some name) :
    (a.put k x).lookup arena m = if m = name then some x else a.lookup arena m := by
  refine Option.ext fun y => ?_
  simp only [lookup_eq_some_iff, find?_put]
  constructor
  · rintro ⟨j, hj, hf⟩
    by_cases hjk : j = k
    · subst hjk
      rw [if_pos rfl] at hf
      rw [if_pos (Option.some.inj (hj.symm.trans hk))]
      exact hf
    · have hm : m ≠ name := by rintro rfl; exact hjk (TextArena.eq_of_resolve hj hk)
      rw [if_neg hjk] at hf
      rw [if_neg hm]
      exact lookup_eq_some_iff.2 ⟨j, hj, hf⟩
  · intro h
    by_cases hm : m = name
    · rw [if_pos hm] at h
      exact ⟨k, hm ▸ hk, by rw [if_pos rfl]; exact h⟩
    · rw [if_neg hm] at h
      obtain ⟨j, hj, hf⟩ := lookup_eq_some_iff.1 h
      have hjk : j ≠ k := by rintro rfl; exact hm (Option.some.inj (hj.symm.trans hk))
      exact ⟨j, hj, by rw [if_neg hjk]; exact hf⟩

theorem Rooted.set (hr : a.Rooted arena) (h : a.set arena name value c = some (a', arena')) :
    a'.Rooted arena' := by
  obtain ⟨-, hx, k, s, hk, hs, rfl⟩ := set_eq_some h
  intro j y hj
  rw [find?_put] at hj
  split at hj
  · next hjk =>
    cases hj
    rw [hjk, hk, hs]
    exact ⟨rfl, rfl⟩
  · exact hr.mono hx j y hj

theorem Rooted.cell?_set (hr : a.Rooted arena) (h : a.set arena name value c = some (a', arena'))
    (m : String) : a'.cell? arena' m = if m = name then some (value, c) else a.cell? arena m := by
  obtain ⟨-, hx, k, s, hk, hs, rfl⟩ := set_eq_some h
  rw [cell?, lookup_put hk]
  split
  · simp [hs]
  · exact hr.cell?_extends hx

theorem Rooted.size_set (hr : a.Rooted arena) (h : a.set arena name value c = some (a', arena')) :
    a'.size = if (a.lookup arena name).isSome then a.size else a.size + 1 := by
  obtain ⟨-, hx, k, s, hk, -, rfl⟩ := set_eq_some h
  rw [size_put, ← lookup_of_resolve hk, hr.lookup_extends hx]

/-- No write changes the entry of a constant. -/
theorem lookup_set_of_constant (h : a.set arena name value c = some (a', arena')) {m : String}
    {s : Sym} (hm : a.lookup arena m = some ⟨s, true⟩) : a'.lookup arena' m = some ⟨s, true⟩ := by
  obtain ⟨hc, hx, k, t, hk, -, rfl⟩ := set_eq_some h
  have hne : m ≠ name := by
    rintro rfl
    rw [isConstant, hm] at hc
    cases hc
  rw [lookup_put hk, if_neg hne]
  exact lookup_mono hx hm

theorem lookup_set_self (h : a.set arena name value c = some (a', arena')) :
    ∃ s, a'.lookup arena' name = some ⟨s, c⟩ := by
  obtain ⟨-, -, k, s, hk, -, rfl⟩ := set_eq_some h
  exact ⟨s, by rw [lookup_put hk, if_pos rfl]⟩

theorem sealAll_cons_eq_ok {cs : List (String × String)} {r : Attributes × TextArena} :
    a.sealAll arena ((name, value) :: cs) = .ok r ↔
      ∃ b mid, a.set arena name value true = some (b, mid) ∧ b.sealAll mid cs = .ok r := by
  rw [sealAll]
  rcases a.set arena name value true with _ | ⟨b, mid⟩ <;> simp

theorem sealAll_append_eq_ok {cs ds : List (String × String)} {r : Attributes × TextArena} :
    a.sealAll arena (cs ++ ds) = .ok r ↔
      ∃ b mid, a.sealAll arena cs = .ok (b, mid) ∧ b.sealAll mid ds = .ok r := by
  induction cs generalizing a arena with
  | nil => simp [sealAll]
  | cons nv cs ih =>
    obtain ⟨n, v⟩ := nv
    simp only [List.cons_append, sealAll_cons_eq_ok, ih]
    constructor
    · rintro ⟨b, mid, hb, b', mid', hb', h⟩
      exact ⟨b', mid', ⟨b, mid, hb, hb'⟩, h⟩
    · rintro ⟨b', mid', ⟨b, mid, hb, hb'⟩, h⟩
      exact ⟨b, mid, hb, b', mid', hb', h⟩

theorem lookup_sealAll_of_constant {cs : List (String × String)}
    (h : a.sealAll arena cs = .ok (a', arena')) {n : String} {s : Sym}
    (hn : a.lookup arena n = some ⟨s, true⟩) : a'.lookup arena' n = some ⟨s, true⟩ := by
  induction cs generalizing a arena with
  | nil => cases h; exact hn
  | cons nv cs ih =>
    obtain ⟨b, mid, hb, h⟩ := sealAll_cons_eq_ok.1 h
    exact ih h (lookup_set_of_constant hb hn)

/-! ## Stores and the writes made to them -/

/-- Read by name, the store is what the writes say. -/
structure Reflects (a : Attributes) (arena : TextArena) (ws : List Write) : Prop where
  rooted : a.Rooted arena
  cell : ∀ n, a.cell? arena n = (lastWrite ws n).map fun w => (w.value, w.constant)
  size : a.size = (ws.map (·.name)).toFinset.card

theorem reflects_empty (arena : TextArena) : empty.Reflects arena [] where
  rooted := by intro k x h; cases h
  cell n := by
    have : empty.lookup arena n = none := by
      rw [lookup]; cases arena.lookup n <;> rfl
    rw [cell?, this]; rfl
  size := rfl

namespace Reflects

variable {ws : List Write}

theorem mono (h : a.Reflects arena ws) (hx : arena.Extends arena') : a.Reflects arena' ws :=
  ⟨h.rooted.mono hx, fun n => by rw [h.rooted.cell?_extends hx, h.cell n], h.size⟩

theorem isSome_lookup (h : a.Reflects arena ws) (name : String) :
    (a.lookup arena name).isSome ↔ name ∈ (ws.map (·.name)).toFinset := by
  rw [← isSome_lastWrite, ← Option.isSome_map (f := fun w : Write => (w.value, w.constant)),
    ← h.cell name, cell?]
  rcases hl : a.lookup arena name with _ | x
  · rfl
  · obtain ⟨t, ht⟩ := h.rooted.resolve_value hl
    simp [ht]

theorem set (h : a.Reflects arena ws) (hs : a.set arena name value c = some (a', arena')) :
    a'.Reflects arena' (ws ++ [⟨name, value, c⟩]) := by
  refine ⟨h.rooted.set hs, fun n => ?_, ?_⟩
  · rw [h.rooted.cell?_set hs, lastWrite_concat, h.cell n]
    split <;> rfl
  · rw [h.rooted.size_set hs, h.size, List.map_append, List.toFinset_append, List.map_singleton,
      List.toFinset_cons, List.toFinset_nil, insert_empty_eq, Finset.union_comm,
      ← Finset.insert_eq]
    by_cases hn : name ∈ (ws.map (·.name)).toFinset
    · rw [if_pos ((h.isSome_lookup name).2 hn), Finset.insert_eq_of_mem hn]
    · rw [if_neg (hn ∘ (h.isSome_lookup name).1), Finset.card_insert_of_notMem hn]

theorem sealAll {cs : List (String × String)} (h : a.Reflects arena ws)
    (hs : a.sealAll arena cs = .ok (a', arena')) :
    a'.Reflects arena' (ws ++ cs.map Write.ofConstant) ∧ arena.Extends arena' := by
  induction cs generalizing a arena ws with
  | nil =>
    cases hs
    exact ⟨by simpa using h, TextArena.Extends.refl _⟩
  | cons nv cs ih =>
    obtain ⟨b, mid, hb, hs⟩ := sealAll_cons_eq_ok.1 hs
    obtain ⟨hr, hx⟩ := ih (h.set hb) hs
    exact ⟨by simpa [Write.ofConstant] using hr, (extends_set hb).trans hx⟩

theorem attr_eq (h : a.Reflects arena ws) :
    a.get arena name = (lastWrite ws name).map (·.value) := by
  rw [get_eq_cell?, h.cell, Option.map_map]; rfl

theorem isConstant_eq (h : a.Reflects arena ws) :
    a.isConstant arena name = (lastWrite ws name).any (·.constant) := by
  rw [h.rooted.isConstant_eq_cell?, h.cell]
  cases lastWrite ws name <;> rfl

/-- Constants can be written under names that were not written to. -/
theorem exists_sealAll {cs : List (String × String)} (h : a.Reflects arena ws)
    (hws : ∀ n ∈ cs.map Prod.fst, n ∉ (ws.map (·.name)).toFinset) (hcs : (cs.map Prod.fst).Nodup) :
    ∃ r, a.sealAll arena cs = .ok r := by
  induction cs generalizing a arena ws with
  | nil => exact ⟨_, rfl⟩
  | cons nv cs ih =>
    obtain ⟨n, v⟩ := nv
    rw [List.map_cons, List.nodup_cons] at hcs
    obtain ⟨b, mid, hb⟩ : ∃ b mid, a.set arena n v true = some (b, mid) := by
      rcases hs : a.set arena n v true with _ | ⟨b, mid⟩
      · have hconst := set_eq_none_iff.1 hs
        have hnone : lastWrite ws n = none := by
          rw [← Option.not_isSome_iff_eq_none, isSome_lastWrite]
          exact hws n (List.mem_cons_self ..)
        rw [h.isConstant_eq, hnone] at hconst
        cases hconst
      · exact ⟨b, mid, rfl⟩
    obtain ⟨r, hr⟩ := ih (h.set hb) (fun m hm => by
      have hmn : m ≠ n := by rintro rfl; exact hcs.1 hm
      simpa [hmn] using hws m (List.mem_cons_of_mem _ hm)) hcs.2
    exact ⟨r, sealAll_cons_eq_ok.2 ⟨b, mid, hb, hr⟩⟩

/-- A constant that was written once is found, with its value. -/
theorem lookup_constant {cs : List (String × String)}
    (h : a.Reflects arena (cs.map Write.ofConstant)) (hcs : (cs.map Prod.fst).Nodup)
    {n v : String} (hnv : (n, v) ∈ cs) :
    ∃ s, a.lookup arena n = some ⟨s, true⟩ ∧ arena.resolve s = some v := by
  have hnodup : ((cs.map Write.ofConstant).map (·.name)).Nodup := by
    rw [List.map_map]
    exact hcs
  have hlast : lastWrite (cs.map Write.ofConstant) n = some ⟨n, v, true⟩ :=
    lastWrite_of_mem hnodup (List.mem_map_of_mem (f := Write.ofConstant) hnv)
  have hcell : a.cell? arena n = some (v, true) := by rw [h.cell n, hlast]; rfl
  obtain ⟨⟨s, c⟩, hl, hx⟩ := Option.bind_eq_some_iff.1 hcell
  obtain ⟨t, ht, hpair⟩ := Option.map_eq_some_iff.1 hx
  cases hpair
  exact ⟨s, hl, ht⟩

end Reflects

end Attributes

end DesignGraph
