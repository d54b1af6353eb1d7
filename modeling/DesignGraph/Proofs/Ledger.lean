/-
  The ledger — attributes are what was last written.

  Objects keep handles instead of texts, and may share the arena that the handles
  are of.  Read by name, an object is nevertheless a plain map from names to
  texts and flags: what the writes to it say, each one overriding those before.

  * `Recorded h g`: the objects of `g` reflect the writes among the events `h`;
    each step keeps it (`Step.recorded`);
  * `setAttr?_eq_none_iff`: a write is refused if the object cannot be read or the
    attribute is constant;
  * `attributes_are_last_writes` is what follows for designs.
-/
import DesignGraph.Proofs.Origins

namespace DesignGraph

/-! ## Objects and the writes to them -/

/-- The objects that can be read are what the writes to them say. -/
structure Recorded (h : List Event) (g : Graph) : Prop where
  issued : ∀ ev ∈ h, g.objects.Issued ev.object
  reflects : ∀ o x a, g.open? o = some (x, a) → x.attributes.Reflects a (writesTo h o)

variable {g g' : Graph} {h es : List Event} {o : ObjectId}

/-- Nothing was written to an object that is yet to be made. -/
theorem Recorded.writesTo_nextId (hc : Recorded h g) : writesTo h g.objects.nextId = [] := by
  rw [writesTo, List.flatMap_eq_nil_iff]
  intro ev hev
  exact if_neg (Slots.ne_nextId (hc.issued ev hev))

theorem Growth.issued_events (hs : Growth g es g') : ∀ ev ∈ es, g'.objects.Issued ev.object := by
  intro ev hev
  cases hs with
  | build gr =>
    obtain rfl := List.mem_singleton.1 hev
    rw [Graph.objects_install]
    exact Slots.issued_alloc.2 (Or.inr rfl)
  | appoint m i => cases hev
  | write hw =>
    obtain rfl := List.mem_singleton.1 hev
    obtain ⟨ef⟩ := Graph.writeEffect hw
    exact ef.issued_objects.2 (Slots.issued_of_get? ef.object_eq)

theorem Step.issued_events (hs : Step g es g') : ∀ ev ∈ es, g'.objects.Issued ev.object := by
  cases hs with
  | grow hs => exact hs.issued_events
  | free id => exact fun ev hev => by cases hev

theorem Step.recorded (hs : Step g es g') (hr : Registered h g) (hc : Recorded h g) :
    Recorded (h ++ es) g' := by
  constructor
  · intro ev hev
    rcases List.mem_append.1 hev with hev | hev
    · exact hs.later.objects.issued _ (hc.issued ev hev)
    · exact hs.issued_events ev hev
  · intro o x' a' hopen
    rw [writesTo_append]
    cases hs.origin hr hopen with
    | made b hb hnew hreflects =>
      rw [hnew, hc.writesTo_nextId, ← hnew, ← hb, writesTo_birth]
      exact hreflects
    | written hxa _ hset =>
      rw [writesTo_write]
      exact (hc.reflects o _ _ hxa).set hset
    | left hxa hext hquiet =>
      rw [hquiet, List.append_nil]
      exact (hc.reflects o _ _ hxa).mono hext

theorem recorded_empty : Recorded [] Graph.empty where
  issued ev hev := by cases hev
  reflects o x a hopen := by simp [Graph.open?, Graph.empty] at hopen

theorem Reached.recorded (hg : Reached h g) : Recorded h g := by
  induction hg with
  | refl => exact recorded_empty
  | step hs hstep ih => exact hstep.recorded (Reached.registered hs) ih

/-! ## Reading -/

namespace Graph

variable {n : String}

theorem attr?_of_open? {x : Object} {a : TextArena} (hopen : g.open? o = some (x, a)) :
    g.attr? o n = x.attributes.get a n := by rw [attr?, hopen]; rfl

theorem isConstant_of_open? {x : Object} {a : TextArena} (hopen : g.open? o = some (x, a)) :
    g.isConstant o n = x.attributes.isConstant a n := by rw [isConstant, hopen]; rfl

/-- A constant is found under a handle. -/
theorem lookup_of_isConstant (hn : g.isConstant o n = true) :
    ∃ x a s, g.open? o = some (x, a) ∧ x.attributes.lookup a n = some ⟨s, true⟩ := by
  rcases hopen : g.open? o with _ | ⟨x, a⟩
  · rw [isConstant, hopen] at hn
    cases hn
  · rw [isConstant_of_open? hopen, Attributes.isConstant] at hn
    rcases hl : x.attributes.lookup a n with _ | ⟨s, c⟩
    · rw [hl] at hn
      cases hn
    · rw [hl] at hn
      obtain rfl : c = true := hn
      exact ⟨x, a, s, rfl, hl⟩

/-- **A write is refused if the object cannot be read, or the attribute is constant.** -/
theorem setAttr?_eq_none_iff {v : String} {c : Bool} :
    g.setAttr? o n v c = none ↔ g.open? o = none ∨ g.isConstant o n = true := by
  rcases hopen : g.open? o with _ | ⟨x, a⟩
  · simp [setAttr?, hopen]
  · rw [isConstant_of_open? hopen]
    rcases hs : x.attributes.set a n v c with _ | ⟨x', a'⟩
    · simp [setAttr?, hopen, hs, Attributes.set_eq_none_iff.1 hs]
    · simp [setAttr?, hopen, hs, (Attributes.set_eq_some hs).1]

theorem perform_setAttr_result (g : Graph) (o : ObjectId) (n v : String) (c : Bool) :
    (g.perform (.setAttr o n v c)).result =
      .written ((g.open? o).isSome && !g.isConstant o n) := by
  simp only [perform]
  rcases hs : g.setAttr? o n v c with _ | g'
  · rcases setAttr?_eq_none_iff.1 hs with hopen | hn
    · simp [hopen]
    · simp [hn]
  · have hne : ¬ (g.open? o = none ∨ g.isConstant o n = true) := by
      intro h
      rw [setAttr?_eq_none_iff.2 h] at hs
      cases hs
    rw [not_or, Bool.not_eq_true] at hne
    rw [Option.isSome_iff_ne_none.2 hne.1, hne.2]
    rfl

end Graph

/-- A constant that can still be read has kept its value. -/
theorem Recorded.constant_kept {k : List Event} (hc : Recorded h g) (hg : Reached h g)
    (hs : Steps Step g k g') {n : String} (hn : g.isConstant o n = true)
    (hopen : (g'.open? o).isSome) : g'.attr? o n = g.attr? o n ∧ g'.isConstant o n = true := by
  obtain ⟨⟨x', a'⟩, hxa'⟩ := Option.isSome_iff_exists.1 hopen
  obtain ⟨x, a, s, hxa, hl⟩ := Graph.lookup_of_isConstant hn
  have hi := Slots.issued_of_get? (Graph.open?_eq_some_iff.1 hxa).1
  obtain ⟨y, b, hyb, hsealed⟩ := Steps.sealed hg hs hi hxa'
  rw [hxa] at hyb
  cases hyb
  have hl' := hsealed.constant n s hl
  obtain ⟨t, ht⟩ := (hc.reflects o x a hxa).rooted.resolve_value hl
  rw [Graph.attr?_of_open? hxa, Graph.attr?_of_open? hxa', Graph.isConstant_of_open? hxa']
  constructor
  · rw [Attributes.get, Attributes.get, hl, hl', Option.bind_some, Option.bind_some, ht,
      hsealed.arena s t ht]
  · rw [Attributes.isConstant, hl']; rfl

/-! ## The attributes of designs -/

/-- The attributes of a design after some calls, in terms of the writes that were
    accepted, those of the constructors among them. -/
structure Design.Ledger (l : Logger) (cs : List Call) : Prop where
  value : ∀ o, ((after l cs).graph.open? o).isSome → ∀ n,
    (after l cs).graph.attr? o n = (lastWrite (writesTo (history cs) o) n).map (·.value)
  constant : ∀ o, ((after l cs).graph.open? o).isSome → ∀ n,
    (after l cs).graph.isConstant o n = (lastWrite (writesTo (history cs) o) n).any (·.constant)
  /-- There are as many attributes as names that were written. -/
  size : ∀ o x a, (after l cs).graph.open? o = some (x, a) →
    x.attributes.size = ((writesTo (history cs) o).map (·.name)).toFinset.card
  absent : ∀ o, (after l cs).graph.open? o = none → ∀ n,
    (after l cs).graph.attr? o n = none ∧ (after l cs).graph.isConstant o n = false
  /-- An object that can no longer be read will never be read again. -/
  gone : ∀ p o, p <+: cs → ((after l p).graph.open? o).isSome → (after l cs).graph.open? o = none →
    ∀ ds, (after l (cs ++ ds)).graph.open? o = none
  answer : ∀ o n v c, ((after l cs).graph.perform (.setAttr o n v c)).result =
    .written (((after l cs).graph.open? o).isSome &&
      !(lastWrite (writesTo (history cs) o) n).any (·.constant))
  /-- A write that is refused changes nothing. -/
  refused : ∀ o n v c, ((after l cs).graph.perform (.setAttr o n v c)).result = .written false →
    ((after l cs).graph.perform (.setAttr o n v c)).graph = (after l cs).graph
  /-- A constant keeps its value while it can be read. -/
  kept : ∀ o n, (after l cs).graph.isConstant o n = true → ∀ ds,
    ((after l (cs ++ ds)).graph.open? o).isSome →
      (after l (cs ++ ds)).graph.attr? o n = (after l cs).graph.attr? o n ∧
        (after l (cs ++ ds)).graph.isConstant o n = true

/-- **Whatever the calls, the attributes of an object are what was last written.** -/
theorem attributes_are_last_writes (l : Logger) (cs : List Call) : Design.Ledger l cs := by
  have hg := reached_after l cs
  have hc := hg.recorded
  have hconstant : ∀ o, ((Design.after l cs).graph.open? o).isSome → ∀ n,
      (Design.after l cs).graph.isConstant o n =
        (lastWrite (writesTo (history cs) o) n).any (·.constant) := by
    intro o hopen n
    obtain ⟨⟨x, a⟩, hxa⟩ := Option.isSome_iff_exists.1 hopen
    rw [Graph.isConstant_of_open? hxa, (hc.reflects o x a hxa).isConstant_eq]
  refine ⟨?_, hconstant, ?_, ?_, ?_, ?_, ?_, ?_⟩
  · intro o hopen n
    obtain ⟨⟨x, a⟩, hxa⟩ := Option.isSome_iff_exists.1 hopen
    rw [Graph.attr?_of_open? hxa, (hc.reflects o x a hxa).attr_eq]
  · intro o x a hxa
    exact (hc.reflects o x a hxa).size
  · intro o hopen n
    rw [Graph.attr?, Graph.isConstant, hopen]
    exact ⟨rfl, rfl⟩
  · intro p o hp hopen hgone ds
    obtain ⟨es, rfl⟩ := hp
    obtain ⟨⟨x, a⟩, hxa⟩ := Option.isSome_iff_exists.1 hopen
    have hi := (steps_after_append l p es).later.objects.issued o
      (Slots.issued_of_get? (Graph.open?_eq_some_iff.1 hxa).1)
    rcases hlater : (Design.after l ((p ++ es) ++ ds)).graph.open? o with _ | ⟨x', a'⟩
    · rfl
    · obtain ⟨y, b, hyb, -⟩ := Steps.sealed hg (steps_after_append l _ ds) hi hlater
      rw [hgone] at hyb
      cases hyb
  · intro o n v c
    rw [Graph.perform_setAttr_result]
    by_cases hopen : ((Design.after l cs).graph.open? o).isSome
    · rw [hconstant o hopen]
    · rw [Bool.not_eq_true] at hopen
      rw [hopen, Bool.false_and, Bool.false_and]
  · intro o n v c hrefused
    simp only [Graph.perform] at hrefused ⊢
    rcases hs : (Design.after l cs).graph.setAttr? o n v c with _ | g'
    · rfl
    · rw [hs] at hrefused
      cases hrefused
  · intro o n hn ds hopen
    exact hc.constant_kept hg (steps_after_append l cs ds) hn hopen

/-- Two modules share an arena, and hence the handle of a name; the constant of one
    is not one of the other. -/
example : let g := Graph.empty.after [.create (.module "cpu" false true) none,
      .create (.module "ram" false true) (some ⟨0⟩), .setAttr ⟨0⟩ "owner" "core" true,
      .setAttr ⟨1⟩ "owner" "memory" false, .setAttr ⟨0⟩ "owner" "memory" false]
    g.attr? ⟨0⟩ "owner" = some "core" ∧ g.attr? ⟨1⟩ "owner" = some "memory" := by
  decide +kernel

end DesignGraph
