/-
  Protection — when a constant of a store keeps its entry.

  A store keeps handles only, and takes the arena it is given for the one that they are from.
  Before a write it looks at the handle that the name has already; it writes to the handle that
  the name has afterwards.  These differ if the name is new: then the entry goes to the next
  handle of the arena, and if the arena is not the one of the store, this may be the handle of a
  constant.  In no other way does a write get past a constant.

  * `Attributes.PutsUnder`: a write is accepted and puts its entry under a handle;
    `putsUnder_iff_of_constant` says when this is the handle of a constant;
  * `StoreCall` is a write to a store with one of some arenas, or an insertion into one of them
    by others, and `StoreAmong.after` what calls make of the store and the arenas;
  * `StoreAmong.Breaks`: a call replaces the entry under a handle; `find?_perform_of_constant`
    is the step, `find?_after_of_constant` the run: constants change by such calls only;
  * `Attributes.NamesBelow`: the arena has as many texts as it takes to have no such call;
    `namesBelow_after`: it has them as long as it is the only one;
  * `constants_fall_to_new_names_only` is what follows for stores.
-/
import DesignGraph.Proofs.Attributes

namespace DesignGraph

namespace Attributes

variable {a a' : Attributes} {arena arena' : TextArena} {name value : String} {c : Bool}
  {k v : Sym}

/-! ## Where a write goes -/

/-- A write is accepted, and puts its entry under the handle `k`. -/
def PutsUnder (a : Attributes) (arena : TextArena) (name value : String) (c : Bool) (k : Sym) :
    Prop :=
  ∃ a' arena' s, a.set arena name value c = some (a', arena') ∧ arena'.resolve k = some name ∧
    arena'.resolve s = some value ∧ a' = a.put k ⟨s, c⟩

theorem set_of_not_isConstant (h : a.isConstant arena name = false) :
    a.set arena name value c =
      some (a.put (arena.insert name).1 ⟨((arena.insert name).2.insert value).1, c⟩,
        ((arena.insert name).2.insert value).2) := by
  rw [set, h]
  rfl

/-- A write that is accepted goes to the handle that its name gets. -/
theorem putsUnder_iff : a.PutsUnder arena name value c k ↔
    a.isConstant arena name = false ∧ (arena.insert name).1 = k := by
  have hname : ((arena.insert name).2.insert value).2.resolve (arena.insert name).1 = some name :=
    TextArena.resolve_insert_of_resolve value (arena.resolve_insert_self name)
  constructor
  · rintro ⟨a', arena', s, hset, hk, -, -⟩
    have hconst := (set_eq_some hset).1
    rw [set_of_not_isConstant hconst] at hset
    cases hset
    exact ⟨hconst, TextArena.eq_of_resolve hname hk⟩
  · rintro ⟨hconst, rfl⟩
    exact ⟨_, _, _, set_of_not_isConstant hconst, hname, TextArena.resolve_insert_self _ value, rfl⟩

/-- **A write goes to the handle of a constant iff its name is new in the arena and this is the
    next handle.** -/
theorem putsUnder_iff_of_constant (hk : a.find? k = some ⟨v, true⟩) :
    a.PutsUnder arena name value c k ↔ arena.lookup name = none ∧ arena.size = k.index := by
  rw [putsUnder_iff, TextArena.insert_fst]
  rcases hname : arena.lookup name with _ | j
  · obtain ⟨n⟩ := k
    simp [isConstant, lookup, hname]
  · -- the entry under the handle of a known name has been looked at
    simp only [reduceCtorEq, false_and, iff_false, not_and, Option.getD_some]
    rintro hconst rfl
    rw [isConstant, lookup, hname, Option.bind_some, hk] at hconst
    cases hconst

/-- The entries under all other handles stay. -/
theorem find?_set_of_not_putsUnder (h : a.set arena name value c = some (a', arena'))
    (hk : ¬ a.PutsUnder arena name value c k) : a'.find? k = a.find? k := by
  obtain ⟨-, -, j, s, hj, hs, rfl⟩ := set_eq_some h
  rw [find?_put, if_neg]
  rintro rfl
  exact hk ⟨_, _, s, h, hj, hs, rfl⟩

/-! ## Handles below a bound -/

/-- The handles of the names of a store are below `n`. -/
def NamesBelow (a : Attributes) (n : Nat) : Prop := ∀ k x, a.find? k = some x → k.index < n

/-- All handles of a store are below `n`, those of the names and those of the values. -/
def HandlesBelow (a : Attributes) (n : Nat) : Prop :=
  ∀ k x, a.find? k = some x → k.index < n ∧ x.value.index < n

theorem handlesBelow_iff : a.HandlesBelow arena.size ↔ a.Rooted arena := by
  simp only [HandlesBelow, Rooted, TextArena.isSome_resolve_iff]

theorem NamesBelow.mono (h : a.NamesBelow arena.size) (hx : arena.Extends arena') :
    a.NamesBelow arena'.size := fun k x hk => hx.index_lt (h k x hk)

theorem NamesBelow.set (h : a.NamesBelow arena.size)
    (hset : a.set arena name value c = some (a', arena')) : a'.NamesBelow arena'.size := by
  obtain ⟨-, hx, j, s, hj, -, rfl⟩ := set_eq_some hset
  intro k x hk
  rw [find?_put] at hk
  split at hk
  · next hkj =>
    rw [hkj, ← TextArena.isSome_resolve_iff, hj]
    rfl
  · exact h.mono hx k x hk

end Attributes

/-! ## A store among several arenas -/

/-- A write to a store with one of some arenas, or an insertion into one of these by others. -/
inductive StoreCall (ι : Type) where
  | set (i : ι) (name value : String) (constant : Bool)
  | insert (i : ι) (t : String)

/-- The arena that a write is given. -/
def StoreCall.arena? {ι : Type} : StoreCall ι → Option ι
  | set i .. => some i
  | insert .. => none

/-- A store, and arenas that it may be used with. -/
structure StoreAmong (ι : Type) where
  store : Attributes
  arenas : ι → TextArena

namespace StoreAmong

variable {ι : Type} [DecidableEq ι] {w : StoreAmong ι} {cs : List (StoreCall ι)} {k v : Sym}

/-- Carries out a call.  A write that is refused has no result. -/
def perform (w : StoreAmong ι) : StoreCall ι → StoreAmong ι
  | .set i name value constant =>
    match w.store.set (w.arenas i) name value constant with
    | some (store, arena) => ⟨store, Function.update w.arenas i arena⟩
    | none => w
  | .insert i t => { w with arenas := Function.update w.arenas i ((w.arenas i).insert t).2 }

/-- What calls make of a store and its arenas. -/
def after (w : StoreAmong ι) (cs : List (StoreCall ι)) : StoreAmong ι := cs.foldl perform w

theorem after_concat (w : StoreAmong ι) (cs : List (StoreCall ι)) (c : StoreCall ι) :
    w.after (cs ++ [c]) = (w.after cs).perform c := List.foldl_append

section
variable {i : ι} {name value : String} {b : Bool}

theorem perform_set_of_none (h : w.store.set (w.arenas i) name value b = none) :
    w.perform (.set i name value b) = w := by
  rw [perform, h]

theorem perform_set_of_some {a : Attributes} {arena : TextArena}
    (h : w.store.set (w.arenas i) name value b = some (a, arena)) :
    w.perform (.set i name value b) = ⟨a, Function.update w.arenas i arena⟩ := by
  rw [perform, h]

/-- A write that goes to an entry leaves its own value and flag there. -/
theorem find?_perform_of_putsUnder (h : w.store.PutsUnder (w.arenas i) name value b k) :
    ∃ s, ((w.perform (.set i name value b)).arenas i).resolve s = some value ∧
      (w.perform (.set i name value b)).store.find? k = some ⟨s, b⟩ := by
  obtain ⟨a, arena, s, hset, -, hs, rfl⟩ := h
  rw [perform_set_of_some hset]
  refine ⟨s, ?_, ?_⟩
  · simpa only [Function.update_self] using hs
  · rw [Attributes.find?_put, if_pos rfl]

/-- An entry to which a write does not go stays. -/
theorem find?_perform_set (h : ¬ w.store.PutsUnder (w.arenas i) name value b k) :
    (w.perform (.set i name value b)).store.find? k = w.store.find? k := by
  rcases hset : w.store.set (w.arenas i) name value b with _ | ⟨a, arena⟩
  · rw [perform_set_of_none hset]
  · rw [perform_set_of_some hset]
    exact Attributes.find?_set_of_not_putsUnder hset h

end

theorem extends_update {f : ι → TextArena} {i : ι} {arena : TextArena} (h : (f i).Extends arena)
    (j : ι) : (f j).Extends (Function.update f i arena j) := by
  by_cases hj : j = i
  · subst hj
    rwa [Function.update_self]
  · rw [Function.update_of_ne hj]
    exact .refl _

theorem extends_perform (w : StoreAmong ι) (c : StoreCall ι) (j : ι) :
    (w.arenas j).Extends ((w.perform c).arenas j) := by
  cases c with
  | set i name value b =>
    rcases hset : w.store.set (w.arenas i) name value b with _ | ⟨a, arena⟩
    · rw [perform_set_of_none hset]
      exact .refl _
    · rw [perform_set_of_some hset]
      exact extends_update (Attributes.extends_set hset) j
  | insert i t => exact extends_update ((w.arenas i).extends_insert t) j

theorem extends_after (w : StoreAmong ι) (cs : List (StoreCall ι)) (j : ι) :
    (w.arenas j).Extends ((w.after cs).arenas j) :=
  List.foldlRecOn (motive := fun v => (w.arenas j).Extends (v.arenas j)) cs perform (.refl _)
    fun v hv c _ => hv.trans (extends_perform v c j)

/-! ## Constants -/

/-- A write gets past the constant under the handle `k`: its name is new in the arena it is
    given, and `k` is the next handle of this arena. -/
def Breaks (w : StoreAmong ι) (k : Sym) : StoreCall ι → Prop
  | .set i name _ _ => (w.arenas i).lookup name = none ∧ (w.arenas i).size = k.index
  | .insert .. => False

theorem find?_perform_of_constant {c : StoreCall ι} (hk : w.store.find? k = some ⟨v, true⟩)
    (hc : ¬ w.Breaks k c) : (w.perform c).store.find? k = some ⟨v, true⟩ := by
  cases c with
  | set i name value b =>
    rw [find?_perform_set, hk]
    rwa [Attributes.putsUnder_iff_of_constant hk]
  | insert i t => exact hk

/-- **A constant keeps its entry until a write gets past it.** -/
theorem find?_after_of_constant (hk : w.store.find? k = some ⟨v, true⟩) (cs : List (StoreCall ι)) :
    (w.after cs).store.find? k = some ⟨v, true⟩ ∨
      ∃ before c behind, cs = before ++ c :: behind ∧
        (w.after before).store.find? k = some ⟨v, true⟩ ∧ (w.after before).Breaks k c := by
  induction cs using List.reverseRecOn with
  | nil => exact Or.inl hk
  | append_singleton cs c ih =>
    rcases ih with hkept | ⟨before, d, behind, rfl, hbefore, hd⟩
    · by_cases hc : (w.after cs).Breaks k c
      · exact Or.inr ⟨cs, c, [], rfl, hkept, hc⟩
      · rw [after_concat]
        exact Or.inl (find?_perform_of_constant hkept hc)
    · exact Or.inr ⟨before, d, behind ++ [c], by simp, hbefore, hd⟩

/-- A constant that is found by a name stays the one that is found. -/
theorem lookup_after_of_find? {j : ι} {name : String} {x : Attribute}
    (hname : (w.arenas j).lookup name = some k) (hk : (w.after cs).store.find? k = some x) :
    (w.after cs).store.lookup ((w.after cs).arenas j) name = some x := by
  rw [TextArena.lookup_eq_some_iff] at hname
  rw [Attributes.lookup_of_resolve (extends_after w cs j k name hname), hk]

/-! ## Arenas with enough texts -/

/-- Every arena that a write is given has more texts than the handles of the names in the store
    count up to. -/
def Fits (w : StoreAmong ι) (cs : List (StoreCall ι)) : Prop :=
  ∀ before c behind, cs = before ++ c :: behind → ∀ i ∈ c.arena?,
    (w.after before).store.NamesBelow ((w.after before).arenas i).size

/-- Then no write gets past a constant. -/
theorem Fits.find?_after (h : w.Fits cs) (hk : w.store.find? k = some ⟨v, true⟩) :
    (w.after cs).store.find? k = some ⟨v, true⟩ := by
  rcases find?_after_of_constant hk cs with hkept | ⟨before, c, behind, hcs, hbefore, hc⟩
  · exact hkept
  · exfalso
    cases c with
    | set i name value b =>
      have hbelow := h before (.set i name value b) behind hcs i rfl
      exact Nat.ne_of_gt (hbelow k _ hbefore) hc.2
    | insert i t => exact hc

/-- All writes are given the arena `i`. -/
def Alone (i : ι) (cs : List (StoreCall ι)) : Prop := ∀ c ∈ cs, ∀ j ∈ c.arena?, j = i

/-- What holds of a store and its only arena after a write and after a growth of the arena, holds
    after any calls. -/
theorem kept_after {P : Attributes → TextArena → Prop} {i : ι}
    (hgrow : ∀ {a arena arena'}, P a arena → arena.Extends arena' → P a arena')
    (hset : ∀ {a arena a' arena' name value b}, P a arena →
      a.set arena name value b = some (a', arena') → P a' arena')
    (hcs : Alone i cs) (h : P w.store (w.arenas i)) :
    P (w.after cs).store ((w.after cs).arenas i) := by
  refine List.foldlRecOn (motive := fun v => P v.store (v.arenas i)) cs perform h ?_
  intro v hv c hc
  cases c with
  | set j name value b =>
    obtain rfl : j = i := hcs _ hc j rfl
    rcases hw : v.store.set (v.arenas j) name value b with _ | ⟨a, arena⟩
    · rwa [perform_set_of_none hw]
    · simp only [perform_set_of_some hw, Function.update_self]
      exact hset hv hw
  | insert j t => exact hgrow hv (extends_perform v (.insert j t) i)

/-- **An arena that is the only one has texts enough if it had them at first.** -/
theorem namesBelow_after {i : ι} (hcs : Alone i cs)
    (h : w.store.NamesBelow (w.arenas i).size) :
    (w.after cs).store.NamesBelow ((w.after cs).arenas i).size :=
  kept_after (P := fun a arena => a.NamesBelow arena.size) .mono .set hcs h

theorem fits_of_alone {i : ι} (hcs : Alone i cs) (h : w.store.NamesBelow (w.arenas i).size) :
    w.Fits cs := by
  rintro before c behind rfl j hj
  obtain rfl : j = i := hcs c (by simp) j hj
  exact namesBelow_after (fun d hd => hcs d (List.mem_append_left _ hd)) h

/-- So it is with the handles of the values. -/
theorem handlesBelow_after {i : ι} (hcs : Alone i cs)
    (h : w.store.HandlesBelow (w.arenas i).size) :
    (w.after cs).store.HandlesBelow ((w.after cs).arenas i).size := by
  rw [Attributes.handlesBelow_iff] at h ⊢
  exact kept_after .mono .set hcs h

/-! ## The protection of constants -/

/-- What the protection of constants rests on, after the calls `cs`. -/
structure Protection (w : StoreAmong ι) (cs : List (StoreCall ι)) : Prop where
  refused : ∀ i name value b,
    (w.after cs).store.set ((w.after cs).arenas i) name value b = none →
    w.after (cs ++ [.set i name value b]) = w.after cs
  /-- A write replaces a constant iff its name is new and takes the handle of the constant. -/
  replaced : ∀ i name value b k v, (w.after cs).store.find? k = some ⟨v, true⟩ →
    ((w.after cs).store.PutsUnder ((w.after cs).arenas i) name value b k ↔
      ((w.after cs).arenas i).lookup name = none ∧ ((w.after cs).arenas i).size = k.index)
  /-- To replace an entry is to leave another one there. -/
  written : ∀ i name value b k,
    (w.after cs).store.PutsUnder ((w.after cs).arenas i) name value b k →
    ∃ s, ((w.after (cs ++ [.set i name value b])).arenas i).resolve s = some value ∧
      (w.after (cs ++ [.set i name value b])).store.find? k = some ⟨s, b⟩
  stays : ∀ i name value b k,
    ¬ (w.after cs).store.PutsUnder ((w.after cs).arenas i) name value b k →
    (w.after (cs ++ [.set i name value b])).store.find? k = (w.after cs).store.find? k
  /-- In no other way is a constant lost. -/
  lost : ∀ k v, w.store.find? k = some ⟨v, true⟩ →
    (w.after cs).store.find? k ≠ some ⟨v, true⟩ →
    ∃ before i name value b behind, cs = before ++ .set i name value b :: behind ∧
      (w.after before).store.find? k = some ⟨v, true⟩ ∧
      ((w.after before).arenas i).lookup name = none ∧
      ((w.after before).arenas i).size = k.index
  /-- None is lost if no arena that a write is given has too few texts. -/
  kept : w.Fits cs → ∀ k v, w.store.find? k = some ⟨v, true⟩ →
    (w.after cs).store.find? k = some ⟨v, true⟩ ∧
    ∀ j name, (w.arenas j).lookup name = some k →
      (w.after cs).store.lookup ((w.after cs).arenas j) name = some ⟨v, true⟩ ∧
      (w.after cs).store.isConstant ((w.after cs).arenas j) name = true
  /-- An arena never has too few if it is the only one and had enough. -/
  alone : ∀ i, Alone i cs → w.store.NamesBelow (w.arenas i).size →
    w.Fits cs ∧ (w.after cs).store.NamesBelow ((w.after cs).arenas i).size
  handles : ∀ i, Alone i cs → w.store.HandlesBelow (w.arenas i).size →
    w.Fits cs ∧ (w.after cs).store.HandlesBelow ((w.after cs).arenas i).size

end StoreAmong

/-- **A constant of a store is lost only to a name that is new in a foreign arena.** -/
theorem constants_fall_to_new_names_only {ι : Type} [DecidableEq ι] (w : StoreAmong ι)
    (cs : List (StoreCall ι)) : StoreAmong.Protection w cs := by
  refine ⟨?_, ?_, ?_, ?_, ?_, ?_, ?_, ?_⟩
  · intro i name value b h
    rw [StoreAmong.after_concat, StoreAmong.perform_set_of_none h]
  · intro i name value b k v hk
    exact Attributes.putsUnder_iff_of_constant hk
  · intro i name value b k h
    rw [StoreAmong.after_concat]
    exact StoreAmong.find?_perform_of_putsUnder h
  · intro i name value b k h
    rw [StoreAmong.after_concat, StoreAmong.find?_perform_set h]
  · intro k v hk hlost
    rcases StoreAmong.find?_after_of_constant hk cs with
      hkept | ⟨before, c, behind, hcs, hbefore, hc⟩
    · exact absurd hkept hlost
    · cases c with
      | set i name value b => exact ⟨before, i, name, value, b, behind, hcs, hbefore, hc⟩
      | insert i t => exact hc.elim
  · intro hfits k v hk
    have hkept := hfits.find?_after hk
    refine ⟨hkept, fun j name hname => ?_⟩
    have hlookup := StoreAmong.lookup_after_of_find? hname hkept
    exact ⟨hlookup, by rw [Attributes.isConstant, hlookup]; rfl⟩
  · intro i hcs h
    exact ⟨StoreAmong.fits_of_alone hcs h, StoreAmong.namesBelow_after hcs h⟩
  · intro i hcs h
    exact ⟨StoreAmong.fits_of_alone hcs fun k x hk => (h k x hk).1,
      StoreAmong.handlesBelow_after hcs h⟩

/-- A new name in an arena without texts takes the place of the first one in another arena. -/
example : let w : StoreAmong Bool := ⟨.empty, fun _ => .empty⟩
    let w := w.after [.set false "width" "8" true, .set false "width" "9" false,
      .set true "depth" "16" false, .set false "width" "10" false]
    w.store.get (w.arenas false) "width" = some "10" := by
  decide +kernel

end DesignGraph
