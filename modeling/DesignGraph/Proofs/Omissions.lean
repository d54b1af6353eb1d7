/-
  Omissions — what a constructor leaves out can be filled in by writes, and by nothing
  else.

  A declaration without a default assignment has no constant `assign`, and what has no
  structural parent has no constant `parent`.  No such name is set aside: a later write may
  use it as it may use any other that is not constant.  What is read under the name is then
  what was written, and the fields of the entity do not take part in it.

  * `lateWrites` are the writes to an object after it was made; `Call.Asks` says which
    calls ask for them; `Reached.writesTo_eq`: first come the constants of the birth, then
    these;
  * `Reached.late_name`: none of them has the name of a constant;
  * `Reached.attr_of_omitted`: under all other names they are what is read;
  * `omissions_are_filled_by_writes` is what follows for designs, and
    `omissions_can_be_filled` shows a design in which it has happened.
-/
import DesignGraph.Proofs.Fields

namespace DesignGraph

/-! ## Writes after the birth -/

/-- The writes to an object after it was made, in order. -/
def lateWrites (h : List Event) (o : ObjectId) : List Write :=
  h.flatMap fun
    | .birth _ => []
    | .write p w => if p = o then [w] else []

/-- The call asks for a write. -/
def Call.Asks (o : ObjectId) (w : Write) : Call → Prop
  | setAttr p name value constant => p = o ∧ w = ⟨name, value, constant⟩
  | setAttrs p list =>
    p = o ∧ ∃ pairs, Graph.pairs? list = some pairs ∧ (w.name, w.value) ∈ pairs ∧ w.constant = false
  | create .. | free _ => False

section
variable {g g' : Graph} {h es : List Event} {o : ObjectId} {w : Write} {b : Birth}

theorem lateWrites_append (h k : List Event) (o : ObjectId) :
    lateWrites (h ++ k) o = lateWrites h o ++ lateWrites k o := List.flatMap_append

theorem mem_lateWrites : w ∈ lateWrites h o ↔ Event.write o w ∈ h := by
  rw [lateWrites, List.mem_flatMap]
  constructor
  · rintro ⟨ev, hev, hw⟩
    cases ev with
    | birth b => cases hw
    | write p v =>
      simp only at hw
      split at hw
      · next hp =>
        obtain rfl := List.mem_singleton.1 hw
        exact hp ▸ hev
      · cases hw
  · intro hw
    exact ⟨_, hw, by simp⟩

/-- Where the object was not made, all writes to it are late. -/
theorem writesTo_eq_lateWrites (ho : ∀ b ∈ births h, b.object ≠ o) :
    writesTo h o = lateWrites h o := by
  rw [writesTo, lateWrites]
  refine List.flatMap_congr fun ev hev => ?_
  cases ev with
  | birth b => exact if_neg (ho b (mem_births.2 hev))
  | write p v => rfl

theorem Graph.mem_pairEvents {g : Graph} {p : ObjectId} {pairs : List (String × String)}
    (hw : Event.write o w ∈ g.pairEvents p pairs) :
    p = o ∧ (w.name, w.value) ∈ pairs ∧ w.constant = false := by
  induction pairs generalizing g with
  | nil => cases hw
  | cons nv rest ih =>
    obtain ⟨name, value⟩ := nv
    rw [pairEvents] at hw
    split at hw
    · rcases List.mem_cons.1 hw with hw | hw
      · cases hw
        exact ⟨rfl, List.mem_cons_self .., rfl⟩
      · obtain ⟨hp, hmem, hconstant⟩ := ih hw
        exact ⟨hp, List.mem_cons_of_mem _ hmem, hconstant⟩
    · obtain ⟨hp, hmem, hconstant⟩ := ih hw
      exact ⟨hp, List.mem_cons_of_mem _ hmem, hconstant⟩

theorem Graph.not_mem_buildEvents {kind : Kind} {request : Request kind}
    {storage : Option TextsId} : Event.write o w ∉ g.buildEvents request storage := by
  unfold buildEvents
  split <;> simp

/-- A write is an event of the calls only that ask for it. -/
theorem Graph.asks_of_events {c : Call} (hw : Event.write o w ∈ g.events c) : c.Asks o w := by
  cases c with
  | create request storage =>
    refine absurd hw ?_
    cases request with
    | module name ilm resource =>
      cases resource with
      | true => exact not_mem_buildEvents
      | false =>
        simp only [events, createEvents, List.mem_append, not_or]
        refine ⟨not_mem_buildEvents, ?_⟩
        split
        · exact List.not_mem_nil
        · exact not_mem_buildEvents
    | _ => exact not_mem_buildEvents
  | free id => cases hw
  | setAttr p name value constant =>
    rw [events] at hw
    split at hw
    · cases List.mem_singleton.1 hw
      exact ⟨rfl, rfl⟩
    · cases hw
  | setAttrs p list =>
    rw [events] at hw
    split at hw
    · next pairs _ hpairs =>
      obtain ⟨hp, hmem⟩ := mem_pairEvents hw
      exact ⟨hp, _, hpairs, hmem⟩
    · cases hw

/-! ## Steps and late writes -/

theorem Step.eq_birth (hs : Step g es g') (hb : b ∈ births es) : es = [.birth b] := by
  cases hs with
  | free id => cases hb
  | grow hs =>
    cases hs with
    | build gr => rw [List.mem_singleton.1 hb]
    | appoint m i => cases hb
    | write hw => cases hb

/-- A late write was accepted. -/
theorem Step.accepted_of_late (hs : Step g es g') (hw : w ∈ lateWrites es o) :
    ∃ g', g.setAttr? o w.name w.value w.constant = some g' := by
  cases hs with
  | free id => cases hw
  | grow hs =>
    cases hs with
    | build gr => cases hw
    | appoint m i => cases hw
    | write haccepted =>
      cases List.mem_singleton.1 (mem_lateWrites.1 hw)
      exact ⟨_, haccepted⟩

/-- Before it was made, nothing was written to an object. -/
theorem Reached.writesTo_eq_nil (hg : Reached h g) (hs : Step g es g') (hb : b ∈ births es) :
    writesTo h b.object = [] ∧ lateWrites h b.object = [] := by
  obtain ⟨kind, request, storage, gr, rfl, -⟩ := hs.grant_of_birth hb
  have hnil : writesTo h g.objects.nextId = [] := hg.recorded.writesTo_nextId
  refine ⟨hnil, ?_⟩
  rw [← writesTo_eq_lateWrites]
  · exact hnil
  · exact fun c hc => (hg.registered.fresh request storage hc).1

/-- **The constants of a birth come first, and then the late writes.** -/
theorem Reached.writesTo_eq (hg : Reached h g) (hb : b ∈ births h) :
    writesTo h b.object = b.constants.map Write.ofConstant ++ lateWrites h b.object := by
  induction hg with
  | refl => cases hb
  | step hs hstep ih =>
    rw [births_append, List.mem_append] at hb
    rw [writesTo_append, lateWrites_append]
    rcases hb with hb | hb
    · have hissued := (Reached.registered hs).object_issued b hb
      have hlate := writesTo_eq_lateWrites fun c hc hobject =>
        hstep.not_issued_birth hc (hobject ▸ hissued)
      rw [ih hb, hlate, List.append_assoc]
    · obtain ⟨hnil, hlate⟩ := Reached.writesTo_eq_nil hs hstep hb
      rw [hnil, hlate, hstep.eq_birth hb, writesTo_birth]
      exact (List.append_nil _).symm

/-- **No late write has the name of a constant of the birth.** -/
theorem Reached.late_name (hg : Reached h g) (hb : b ∈ births h)
    (hw : w ∈ lateWrites h b.object) : w.name ∉ b.constants.map Prod.fst := by
  induction hg with
  | refl => cases hb
  | step hs hstep ih =>
    rw [births_append, List.mem_append] at hb
    rw [lateWrites_append, List.mem_append] at hw
    rcases hb with hb | hb
    · rcases hw with hw | hw
      · exact ih hb hw
      · -- the write was accepted, but a constant of the birth would have been found
        intro hname
        obtain ⟨⟨n, v⟩, hnv, rfl⟩ := List.mem_map.1 hname
        obtain ⟨g₂, haccepted⟩ := hstep.accepted_of_late hw
        obtain ⟨ef⟩ := Graph.writeEffect haccepted
        have hread := (Reached.identified hs).object b hb _ _ ef.open?_eq
        obtain ⟨s, hl, -⟩ := hread.constant _ v hnv
        have hvariable := (Attributes.set_eq_some ef.set_eq).1
        rw [Attributes.isConstant, hl] at hvariable
        cases hvariable
    · obtain ⟨-, hnone⟩ := Reached.writesTo_eq_nil hs hstep hb
      rw [hnone, hstep.eq_birth hb] at hw
      rcases hw with hw | hw <;> cases hw

/-! ## Reading what was left out -/

/-- **A name that the constants of the birth do not use has the value of the last late write.** -/
theorem Reached.attr_of_omitted (hg : Reached h g) (hb : b ∈ births h) {e : Entity b.kind}
    (he : g.entity? b.id = some e) (hopen : (g.open? e.object).isSome) {n : String}
    (hn : n ∉ b.constants.map Prod.fst) :
    g.attr? e.object n = (lastWrite (lateWrites h e.object) n).map (·.value) := by
  obtain ⟨⟨x, a⟩, hxa⟩ := Option.isSome_iff_exists.1 hopen
  have hconstants : lastWrite (b.constants.map Write.ofConstant) n = none := by
    rw [← Option.not_isSome_iff_eq_none, isSome_lastWrite]
    simpa [Write.ofConstant] using hn
  rw [Graph.attr?_of_open? hxa, (hg.recorded.reflects _ x a hxa).attr_eq,
    hg.object_of_birth hb he, hg.writesTo_eq hb, lastWrite_append, hconstants,
    Option.or_none]

/-- **A name is left out by the constants of the birth if and only if it is not read, or was
    written late.** -/
theorem Reached.omitted_iff (hg : Reached h g) (hb : b ∈ births h) {e : Entity b.kind}
    (he : g.entity? b.id = some e) (hopen : (g.open? e.object).isSome) (n : String) :
    n ∉ b.constants.map Prod.fst ↔
      g.attr? e.object n = none ∨ ∃ w ∈ lateWrites h e.object, w.name = n := by
  obtain ⟨⟨x, a⟩, hxa⟩ := Option.isSome_iff_exists.1 hopen
  constructor
  · intro hn
    rcases hlast : lastWrite (lateWrites h e.object) n with _ | w
    · left
      rw [hg.attr_of_omitted hb he hopen hn, hlast]
      rfl
    · right
      have hname := List.find?_some hlast
      exact ⟨w, List.mem_reverse.1 (List.mem_of_find?_eq_some hlast), of_decide_eq_true hname⟩
  · intro hlate hn
    rcases hlate with hnone | ⟨w, hw, rfl⟩
    · obtain ⟨⟨n, v⟩, hnv, rfl⟩ := List.mem_map.1 hn
      obtain ⟨s, -, -, hattr, -⟩ := hg.constant_of_birth hb he hxa hnv
      rw [hattr] at hnone
      cases hnone
    · exact hg.late_name hb (hg.object_of_birth hb he ▸ hw) hn

end

/-! ## Names that are left out -/

/-- The default assignment that a declaration is asked to have. -/
def Request.assignment? : {kind : Kind} → Request kind → Option String
  | _, .decl _ assignment _ _ => assignment
  | _, _ => none

/-- The default assignment of a declaration. -/
def Data.assignment? : {kind : Kind} → Data kind → Option Sym
  | .decl, d => d.assignment
  | _, _ => none

theorem Request.Fits.isSome_assignment? {kind : Kind} {request : Request kind} {d : Data kind}
    {text : Sym → Option String} (h : request.Fits text d) :
    (Data.assignment? d).isSome = request.assignment?.isSome := by
  cases request with
  | decl =>
    have hsome := congrArg Option.isSome h.1
    rw [Option.isSome_map, Option.isSome_map] at hsome
    exact hsome
  | _ => rfl

namespace Birth

variable (b : Birth)

/-- The attribute `assign` is there from the birth if there was a default assignment. -/
theorem assign_mem_iff : "assign" ∈ b.constants.map Prod.fst ↔ b.request.assignment?.isSome := by
  obtain ⟨request, _, _, _, _, parent, targetId⟩ := b
  have hcommon : ∀ kind name,
      "assign" ∉ (Graph.commonConstants kind name parent).map Prod.fst := by
    intro kind name
    cases parent <;> simp [Graph.commonConstants]
  rw [constants, List.map_append, List.mem_append, or_iff_right (hcommon _ _)]
  cases request with
  | inst => cases targetId <;> simp [Request.ownConstants, Request.assignment?]
  | decl _ assignment =>
    cases assignment <;> simp [Request.ownConstants, Request.assignment?]
  | _ => simp [Request.ownConstants, Request.assignment?]

/-- The attribute `parent` is there from the birth if there was a structural parent. -/
theorem parent_mem_iff : "parent" ∈ b.constants.map Prod.fst ↔ b.parent.isSome := by
  obtain ⟨request, _, _, _, _, parent, targetId⟩ := b
  have hown : "parent" ∉ (request.ownConstants targetId).map Prod.fst := by
    cases request with
    | inst => cases targetId <;> simp [Request.ownConstants]
    | decl _ assignment => cases assignment <;> simp [Request.ownConstants]
    | _ => simp [Request.ownConstants]
  rw [constants, List.map_append, List.mem_append, or_iff_left hown]
  cases parent <;> simp [Graph.commonConstants]

end Birth

section
variable {g : Graph} {h : List Event} {b : Birth} {e : Entity b.kind}

/-- A declaration has no default assignment if and only if none was asked for. -/
theorem Reached.assignment?_eq_none_iff (hg : Reached h g) (hb : b ∈ births h)
    (he : g.entity? b.id = some e) (hopen : (g.open? e.object).isSome) :
    Data.assignment? e.data = none ↔ "assign" ∉ b.constants.map Prod.fst := by
  obtain ⟨⟨x, a⟩, hxa⟩ := Option.isSome_iff_exists.1 hopen
  have hfits := hg.fits_of_birth hb he hxa
  rw [b.assign_mem_iff, ← hfits.isSome_assignment?, Option.not_isSome_iff_eq_none]

/-- An entity has no structural parent if and only if none was asked for. -/
theorem Reached.holder_eq_none_iff (hg : Reached h g) (hb : b ∈ births h)
    (he : g.entity? b.id = some e) :
    e.data.holder = none ↔ "parent" ∉ b.constants.map Prod.fst := by
  have hholder := (hg.identified.entity b hb e.bare (Graph.bare?_of_entity? he)).2
  have hbare : e.data.holder = b.request.holder := (Data.holder_bare e.data).symm.trans hholder
  rw [b.parent_mem_iff, hg.identified.parent b hb, hbare, Option.not_isSome_iff_eq_none]

end

/-! ## The omissions of designs -/

/-- What is read under names that constructors left out, in a design after some calls. -/
structure Design.Omissions (l : Logger) (cs : List Call) : Prop where
  /-- Late writes are those that calls asked for. -/
  asked : ∀ o w, w ∈ lateWrites (history cs) o → ∃ p c, p ++ [c] <+: cs ∧ c.Asks o w
  /-- None of them has the name of a constant that the constructor wrote, -/
  sealed : ∀ b ∈ births (history cs), ∀ w ∈ lateWrites (history cs) b.object,
    w.name ∉ b.constants.map Prod.fst
  /-- and under all other names they are what is read. -/
  omitted : ∀ b ∈ births (history cs), ∀ e, (after l cs).graph.entity? b.id = some e →
    ((after l cs).graph.open? e.object).isSome → ∀ n, n ∉ b.constants.map Prod.fst →
      (after l cs).graph.attr? e.object n =
        (lastWrite (lateWrites (history cs) e.object) n).map (·.value)
  /-- A declaration has no default assignment if and only if the attribute `assign` is absent
      or was written late. -/
  assignment : ∀ (id : EntityId .decl) e, (after l cs).graph.entity? id = some e →
    ((after l cs).graph.open? e.object).isSome →
      (e.data.assignment = none ↔ (after l cs).graph.attr? e.object "assign" = none ∨
        ∃ w ∈ lateWrites (history cs) e.object, w.name = "assign")
  /-- An entity has no structural parent if and only if the attribute `parent` is absent or was
      written late.  Modules, register files and instances that are placed nowhere have none. -/
  parent : ∀ (r : EntityRef) e, (after l cs).graph.entity? r.id = some e →
    ((after l cs).graph.open? e.object).isSome →
      (e.data.holder = none ↔ (after l cs).graph.attr? e.object "parent" = none ∨
        ∃ w ∈ lateWrites (history cs) e.object, w.name = "parent")

/-- **Whatever the calls, what a constructor left out is what was written since.** -/
theorem omissions_are_filled_by_writes (l : Logger) (cs : List Call) : Design.Omissions l cs := by
  have hg := reached_after l cs
  refine ⟨?_, fun b hb w => hg.late_name hb, ?_, ?_, ?_⟩
  · intro o w hw
    obtain ⟨p, c, hp, hevent⟩ := exists_call l (mem_lateWrites.1 hw)
    exact ⟨p, c, hp, Graph.asks_of_events hevent⟩
  · intro b hb e he hopen n hn
    exact hg.attr_of_omitted hb he hopen hn
  · have hassign : ∀ (r : EntityRef) e, (Design.after l cs).graph.entity? r.id = some e →
        ((Design.after l cs).graph.open? e.object).isSome →
        (Data.assignment? e.data = none ↔ (Design.after l cs).graph.attr? e.object "assign" = none ∨
          ∃ w ∈ lateWrites (history cs) e.object, w.name = "assign") := by
      intro r e he hopen
      obtain ⟨b, hb, rfl⟩ := hg.exists_birth he
      exact (hg.assignment?_eq_none_iff hb he hopen).trans (hg.omitted_iff hb he hopen _)
    intro id e he hopen
    exact hassign ⟨.decl, id⟩ e he hopen
  · intro r e he hopen
    obtain ⟨b, hb, rfl⟩ := hg.exists_birth he
    exact (hg.holder_eq_none_iff hb he).trans (hg.omitted_iff hb he hopen _)

/-- A declaration without a default assignment can have the attribute of one, and a module that
    of a parent: names that were left out are free. -/
theorem omissions_can_be_filled :
    let g := (Design.after {} [.create (.module "top" false false) none,
      .create (.decl "tmp" none false ⟨0⟩) none, .setAttr ⟨2⟩ "assign" "a + b" false,
      .setAttrs ⟨0⟩ ["parent", "module::soc"]]).graph
    (g.entity? (⟨0⟩ : EntityId .decl)).map (fun e =>
      (e.data.assignment, g.attr? e.object "assign")) = some (none, some "a + b") ∧
    (g.entity? (⟨0⟩ : EntityId .module)).map (fun e => g.attr? e.object "parent") =
      some (some "module::soc") := by
  decide +kernel

end DesignGraph
