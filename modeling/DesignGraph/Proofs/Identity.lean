/-
  Identity — an entity keeps the id, the name, the kind and the parent it was
  made with.

  * `Birth.ReadIn b x a`: the object `x` with the arena `a` has the constants of
    the birth `b`; its handles of id and name are those of the attributes;
  * `Identified h g`: so it is for all that was born among the events `h` and can
    still be read in `g`; each step keeps it (`Step.identified`);
  * `Graph.Bears` says at which call, and in which graph, a birth took place;
  * `identity_is_kept` is what follows for designs.
-/
import DesignGraph.Proofs.Ledger

namespace DesignGraph

/-! ## The constants of a birth -/

/-- The constants of a birth, as they are found in an object. -/
structure Birth.ReadIn (b : Birth) (x : Object) (a : TextArena) : Prop where
  id : x.attributes.lookup a "id" = some ⟨x.id, true⟩
  name : x.attributes.lookup a "name" = some ⟨x.name, true⟩
  constant : ∀ n v, (n, v) ∈ b.constants →
    ∃ s, x.attributes.lookup a n = some ⟨s, true⟩ ∧ a.resolve s = some v

namespace Birth.ReadIn

variable {b : Birth} {x x' : Object} {a a' : TextArena}

theorem ofReflects (hr : x.attributes.Reflects a (b.constants.map Write.ofConstant))
    (hid : x.attributes.lookup a "id" = some ⟨x.id, true⟩)
    (hname : x.attributes.lookup a "name" = some ⟨x.name, true⟩) : b.ReadIn x a :=
  ⟨hid, hname, fun _ _ => hr.lookup_constant b.nodup_constants⟩

theorem carry (h : b.ReadIn x a) (hs : Sealed x a x' a') : b.ReadIn x' a' where
  id := by rw [hs.constant _ _ h.id, hs.same.id]
  name := by rw [hs.constant _ _ h.name, hs.same.name]
  constant n v hnv := by
    obtain ⟨s, hl, ht⟩ := h.constant n v hnv
    exact ⟨s, hs.constant n s hl, hs.arena s v ht⟩

/-- A handle of the object that is found under a constant is the handle of its text. -/
theorem resolve_of_lookup (h : b.ReadIn x a) {n v : String} {s : Sym} (hnv : (n, v) ∈ b.constants)
    (hl : x.attributes.lookup a n = some ⟨s, true⟩) : a.resolve s = some v := by
  obtain ⟨t, hl', ht⟩ := h.constant n v hnv
  rw [hl] at hl'
  cases hl'
  exact ht

end Birth.ReadIn

namespace Birth

variable (b : Birth)

theorem mem_constants_type : ("type", b.kind.label) ∈ b.constants := by
  simp [constants, Graph.commonConstants]

theorem mem_constants_id : ("id", b.composedId) ∈ b.constants := by
  simp [constants, Graph.commonConstants, composedId]

theorem mem_constants_name : ("name", b.name) ∈ b.constants := by
  simp [constants, Graph.commonConstants]

theorem mem_constants_parent {p : Graph.Lineage} (hp : b.parent = some p) :
    ("parent", p.id) ∈ b.constants := by
  simp [constants, Graph.commonConstants, hp]

end Birth

/-! ## What is left of a birth -/

/-- All that was born is what it was at its birth, as far as it is there. -/
structure Identified (h : List Event) (g : Graph) : Prop where
  entity : ∀ b ∈ births h, ∀ e, g.bare? b.id = some e →
    e.object = b.object ∧ e.data.holder = b.request.holder
  object : ∀ b ∈ births h, ∀ x a, g.open? b.object = some (x, a) → b.ReadIn x a
  parent : ∀ b ∈ births h, b.parent.isSome = b.request.holder.isSome

variable {g g' : Graph} {h es : List Event}

/-- What a step has made. -/
theorem Step.birth_entity (hs : Step g es g') {b : Birth} (hb : b ∈ births es) :
    (∃ e, g'.bare? b.id = some e ∧ e.object = b.object ∧ e.data.holder = b.request.holder) ∧
      b.parent.isSome = b.request.holder.isSome := by
  obtain ⟨kind, request, storage, gr, rfl, rfl⟩ := hs.grant_of_birth hb
  constructor
  · refine ⟨_, Graph.bare?_install_self gr.draft, rfl, ?_⟩
    exact (Data.holder_bare gr.draft.data).trans gr.holder_data
  · show (g.birth request storage).parent.isSome = request.holder.isSome
    rw [← gr.parent_eq]
    rcases gr.parent_cases with ⟨hr, hp⟩ | ⟨r, l, hr, -, hp⟩
    · rw [hp, hr]; rfl
    · rw [hp, hr]; rfl

theorem Step.not_issued_birth (hs : Step g es g') {b : Birth} (hb : b ∈ births es) :
    ¬ g.objects.Issued b.object := by
  obtain ⟨kind, request, storage, gr, rfl, -⟩ := hs.grant_of_birth hb
  exact g.objects.not_issued_nextId

/-- An object that a step has made has the constants of its birth. -/
theorem Origin.readIn {o : ObjectId} {x : Object} {a : TextArena} (ho : Origin g o x a es)
    {b : Birth} (hb : b ∈ births es) (hnew : ¬ g.objects.Issued o) : b.ReadIn x a := by
  cases ho with
  | made c _ _ hreflects hid hname =>
    obtain rfl := List.mem_singleton.1 hb
    exact .ofReflects hreflects hid hname
  | written => cases hb
  | left hopen =>
    exact absurd (Slots.issued_of_get? (Graph.open?_eq_some_iff.1 hopen).1) hnew

theorem Step.identified (hs : Step g es g') (hr : Registered h g) (hi : Identified h g) :
    Identified (h ++ es) g' := by
  refine ⟨?_, ?_, ?_⟩
  · intro b hb e he
    rw [births_append, List.mem_append] at hb
    rcases hb with hb | hb
    · exact hi.entity b hb e (hs.later.entities b.id e (hr.ref_issued b hb) he)
    · obtain ⟨⟨f, hf, hobject, hholder⟩, -⟩ := hs.birth_entity hb
      rw [he] at hf
      cases hf
      exact ⟨hobject, hholder⟩
  · intro b hb x a hopen
    have horigin := hs.origin hr hopen
    rw [births_append, List.mem_append] at hb
    rcases hb with hb | hb
    · obtain ⟨y, c, hyc, hsealed⟩ := horigin.sealed (hr.object_issued b hb)
      exact (hi.object b hb y c hyc).carry hsealed
    · exact horigin.readIn hb (hs.not_issued_birth hb)
  · intro b hb
    rw [births_append, List.mem_append] at hb
    rcases hb with hb | hb
    · exact hi.parent b hb
    · exact (hs.birth_entity hb).2

theorem identified_empty : Identified [] Graph.empty where
  entity b hb := by cases hb
  object b hb := by cases hb
  parent b hb := by cases hb

theorem Reached.identified (hg : Reached h g) : Identified h g := by
  induction hg with
  | refl => exact identified_empty
  | step hs hstep ih => exact hstep.identified (Reached.registered hs) ih

/-! ## The call of a birth -/

namespace Graph

/-- What a call bears when it is carried out on a graph: the entity asked for, and
    the default instance along with a generative module. -/
inductive Bears (g : Graph) : Call → Birth → Prop
  | asked {kind : Kind} (request : Request kind) (storage : Option TextsId) :
    Bears g (.create request storage) (g.birth request storage)
  | along (name : String) (ilm : Bool) (storage : Option TextsId) (id : EntityId .module) :
    Bears g (.create (.module name ilm false) storage)
      ((g.build (.module name ilm false) storage).graph.birth (.inst name id none) storage)

theorem eq_birth_of_buildEvents {kind : Kind} {request : Request kind} {storage : Option TextsId}
    {b : Birth} (hb : b ∈ births (g.buildEvents request storage)) :
    b = g.birth request storage := by
  unfold buildEvents at hb
  split at hb
  · cases hb
  · exact List.mem_singleton.1 hb

theorem births_pairEvents (g : Graph) (o : ObjectId) (pairs : List (String × String)) :
    births (g.pairEvents o pairs) = [] := by
  induction pairs generalizing g with
  | nil => rfl
  | cons nv rest ih =>
    obtain ⟨n, v⟩ := nv
    rw [pairEvents]
    split
    · exact ih _
    · exact ih _

theorem bears_of_events {c : Call} {b : Birth} (hb : b ∈ births (g.events c)) : g.Bears c b := by
  cases c with
  | create request storage =>
    cases request with
    | module name ilm resource =>
      cases resource with
      | true => exact eq_birth_of_buildEvents hb ▸ .asked _ storage
      | false =>
        simp only [events, createEvents, births_append, List.mem_append] at hb
        rcases hb with hb | hb
        · exact eq_birth_of_buildEvents hb ▸ .asked _ storage
        · split at hb
          · cases hb
          · exact eq_birth_of_buildEvents hb ▸ .along name ilm storage _
    | _ => exact eq_birth_of_buildEvents hb ▸ .asked _ storage
  | free id => cases hb
  | setAttr o n v c =>
    rw [events] at hb
    split at hb <;> cases hb
  | setAttrs o list =>
    rw [events] at hb
    split at hb
    · rw [births_pairEvents] at hb
      cases hb
    · cases hb

end Graph

theorem exists_call_of_birth (l : Logger) {cs : List Call} {b : Birth}
    (hb : b ∈ births (history cs)) :
    ∃ p c, p ++ [c] <+: cs ∧ (Design.after l p).graph.Bears c b := by
  obtain ⟨p, c, hp, hev⟩ := exists_call l (mem_births.1 hb)
  exact ⟨p, c, hp, Graph.bears_of_events (mem_births.2 hev)⟩

/-! ## The identity of entities -/

/-- What a graph answers about an entity is what its birth says. -/
structure Graph.Tells (g : Graph) (b : Birth) (e : Entity b.kind) : Prop where
  id : g.idOf e = some b.composedId ∧ g.objectId e.object = some b.composedId ∧
    g.attr? e.object "id" = some b.composedId
  name : g.nameOf e = some b.name ∧ g.objectName e.object = some b.name ∧
    g.attr? e.object "name" = some b.name
  type : g.attr? e.object "type" = some b.kind.label
  parent : ∀ p, b.parent = some p →
    g.attr? e.object "parent" = some p.id ∧ g.isConstant e.object "parent" = true
  constant : ∀ n ∈ ["type", "id", "name"], g.isConstant e.object n = true
  /-- The object keeps the handles of the values. -/
  handles : ∀ x a, g.open? e.object = some (x, a) →
    x.attributes.lookup a "id" = some ⟨x.id, true⟩ ∧
      x.attributes.lookup a "name" = some ⟨x.name, true⟩

theorem Graph.Aligned.tells (ha : g.Aligned) {b : Birth} {e : Entity b.kind}
    (he : g.entity? b.id = some e) {x : Object} {a : TextArena}
    (hopen : g.open? e.object = some (x, a)) (hb : b.ReadIn x a) : g.Tells b e := by
  obtain ⟨y, hy, -, hname⟩ := ha.object b.id e.bare (Graph.bare?_of_entity? he)
  have hx : y = x := Option.some.inj (hy.symm.trans (Graph.open?_eq_some_iff.1 hopen).1)
  have hattr : ∀ n v, (n, v) ∈ b.constants →
      g.attr? e.object n = some v ∧ g.isConstant e.object n = true := by
    intro n v hnv
    obtain ⟨s, hl, ht⟩ := hb.constant n v hnv
    rw [Graph.attr?_of_open? hopen, Graph.isConstant_of_open? hopen, Attributes.get,
      Attributes.isConstant, hl]
    exact ⟨ht, rfl⟩
  have hid : g.objectId e.object = some b.composedId := by
    rw [Graph.objectId, hopen]
    exact hb.resolve_of_lookup b.mem_constants_id hb.id
  have htext : a.resolve x.name = some b.name := hb.resolve_of_lookup b.mem_constants_name hb.name
  refine ⟨⟨hid, hid, (hattr _ _ b.mem_constants_id).1⟩,
    ⟨?_, ?_, (hattr _ _ b.mem_constants_name).1⟩, (hattr _ _ b.mem_constants_type).1, ?_, ?_, ?_⟩
  · rw [Graph.nameOf, Graph.resolve, hopen]
    show a.resolve e.name = _
    rw [← htext, ← hx, hname]; rfl
  · rw [Graph.objectName, hopen]
    exact htext
  · intro p hp
    exact hattr _ _ (b.mem_constants_parent hp)
  · intro n hn
    simp only [List.mem_cons, List.not_mem_nil, or_false] at hn
    rcases hn with rfl | rfl | rfl
    · exact (hattr _ _ b.mem_constants_type).2
    · exact (hattr _ _ b.mem_constants_id).2
    · exact (hattr _ _ b.mem_constants_name).2
  · intro x' a' hopen'
    rw [hopen] at hopen'
    cases hopen'
    exact ⟨hb.id, hb.name⟩

/-- The identity of the entities of a design after some calls, in terms of their
    births. -/
structure Design.Identity (l : Logger) (cs : List Call) : Prop where
  born : ∀ (r : EntityRef) e, (after l cs).graph.entity? r.id = some e →
    ∃! b, b ∈ births (history cs) ∧ b.ref = r
  /-- A birth takes its texts from the graph that the call found. -/
  made : ∀ b ∈ births (history cs), ∃ p c, p ++ [c] <+: cs ∧ (after l p).graph.Bears c b
  holder : ∀ b ∈ births (history cs), ∀ e, (after l cs).graph.entity? b.id = some e →
    e.data.holder = b.request.holder ∧ b.parent.isSome = b.request.holder.isSome
  tells : ∀ b ∈ births (history cs), ∀ e, (after l cs).graph.entity? b.id = some e →
    ((after l cs).graph.open? e.object).isSome → (after l cs).graph.Tells b e
  /-- A parent that can still be read has kept its name and its id. -/
  parent : ∀ b ∈ births (history cs), ∀ r, b.request.holder = some r →
    ∀ q, (after l cs).graph.entity? r.id = some q → ((after l cs).graph.open? q.object).isSome →
      ∃ p, b.parent = some p ∧ (after l cs).graph.nameOf q = some p.name ∧
        (after l cs).graph.idOf q = some p.id

/-- What was born and can still be read is what its birth says. -/
theorem Reached.tells (hg : Reached h g) {b : Birth} (hb : b ∈ births h) {e : Entity b.kind}
    (he : g.entity? b.id = some e) (hopen : (g.open? e.object).isSome) : g.Tells b e := by
  obtain ⟨⟨x, a⟩, hxa⟩ := Option.isSome_iff_exists.1 hopen
  have hobject := (hg.identified.entity b hb e.bare (Graph.bare?_of_entity? he)).1
  exact hg.aligned.tells he hxa (hg.identified.object b hb x a (hobject ▸ hxa))

/-- What is there was born. -/
theorem Reached.exists_birth (hg : Reached h g) {r : EntityRef} {e : Entity r.kind}
    (he : g.entity? r.id = some e) : ∃ b ∈ births h, b.ref = r := by
  obtain ⟨x, hx, hpayload, -⟩ := hg.aligned.object r.id e.bare (Graph.bare?_of_entity? he)
  obtain ⟨b, hb, -, href, -⟩ := hg.registered.born _ x hx
  exact ⟨b, hb, href.trans hpayload⟩

theorem tells_of_birth (l : Logger) {cs : List Call} {b : Birth} (hb : b ∈ births (history cs))
    {e : Entity b.kind} (he : (Design.after l cs).graph.entity? b.id = some e)
    (hopen : ((Design.after l cs).graph.open? e.object).isSome) :
    (Design.after l cs).graph.Tells b e := (reached_after l cs).tells hb he hopen

theorem exists_birth (l : Logger) {cs : List Call} {r : EntityRef} {e : Entity r.kind}
    (he : (Design.after l cs).graph.entity? r.id = some e) :
    ∃ b ∈ births (history cs), b.ref = r := (reached_after l cs).exists_birth he

theorem lineageOf_of_birth (l : Logger) {cs : List Call} {b : Birth} (hb : b ∈ births (history cs))
    {q : Graph.Lineage} (hq : (Design.after l cs).graph.lineageOf b.ref = some q) :
    q = ⟨b.name, b.composedId⟩ := by
  simp only [Graph.lineageOf, Option.bind_eq_some_iff, Option.map_eq_some_iff] at hq
  obtain ⟨e, he, n, hn, i, hi, rfl⟩ := hq
  have hopen : ((Design.after l cs).graph.open? e.object).isSome := by
    obtain ⟨xa, hxa, -⟩ := Option.bind_eq_some_iff.1 hn
    rw [hxa]; rfl
  have htells := tells_of_birth l hb he hopen
  rw [htells.name.2.1] at hn
  rw [htells.id.2.1] at hi
  cases hn
  cases hi
  rfl

/-- A parent still has the texts that its child took from it. -/
theorem parent_of_birth (l : Logger) {cs : List Call} {b : Birth} (hb : b ∈ births (history cs))
    {r : EntityRef} (hr : b.request.holder = some r) {q : Entity r.kind}
    (hq : (Design.after l cs).graph.entity? r.id = some q)
    (hopen : ((Design.after l cs).graph.open? q.object).isSome) :
    ∃ p, b.parent = some p ∧ (Design.after l cs).graph.nameOf q = some p.name ∧
      (Design.after l cs).graph.idOf q = some p.id := by
  have hg := reached_after l cs
  have hparent := hg.identified.parent b hb
  obtain ⟨c, hc, rfl⟩ := exists_birth l hq
  have htells := tells_of_birth l hc hq hopen
  refine ⟨⟨c.name, c.composedId⟩, ?_, htells.name.1, htells.id.1⟩
  obtain ⟨p, call, hp, hbears⟩ := exists_call_of_birth l hb
  have hcs : p <+: cs := (List.prefix_append p [call]).trans hp
  cases hbears with
  | along => cases hr
  | asked request storage =>
    -- the lineage was read in the graph before the call, where the parent was just as it is now
    have hholder : request.holder = some c.ref := hr
    have hlineage : ((Design.after l p).graph.birth request storage).parent =
        (Design.after l p).graph.lineageOf c.ref := by rw [Graph.birth, hholder]; rfl
    rw [hlineage, hr] at hparent
    obtain ⟨q', hq'⟩ := Option.isSome_iff_exists.1 hparent
    obtain ⟨f, hf, -⟩ := Option.bind_eq_some_iff.1 hq'
    obtain ⟨c', hc', href⟩ := exists_birth l hf
    obtain rfl : c' = c := hg.registered.ref_inj c' (births_mono (history_mono hcs) hc') c hc href
    rw [hlineage, hq', lineageOf_of_birth l hc' hq']

/-- **Whatever the calls, entities keep the identity they were made with.** -/
theorem identity_is_kept (l : Logger) (cs : List Call) : Design.Identity l cs := by
  have hg := reached_after l cs
  refine ⟨?_, ?_, ?_, ?_, ?_⟩
  · intro r e he
    obtain ⟨b, hb, href⟩ := exists_birth l he
    refine ⟨b, ⟨hb, href⟩, ?_⟩
    rintro c ⟨hc, hcref⟩
    exact hg.registered.ref_inj c hc b hb (hcref.trans href.symm)
  · intro b hb
    exact exists_call_of_birth l hb
  · intro b hb e he
    have hholder := (hg.identified.entity b hb e.bare (Graph.bare?_of_entity? he)).2
    exact ⟨(Data.holder_bare e.data).symm.trans hholder, hg.identified.parent b hb⟩
  · intro b hb e he hopen
    exact tells_of_birth l hb he hopen
  · intro b hb r hr q hq hopen
    exact parent_of_birth l hb hr hq hopen

/-- A port is named after its module, even after the module is gone. -/
example : (Graph.empty.after [.create (.module "cpu" false true) none,
    .create (.port "clk" .input ⟨0⟩) none,
    .free (some (⟨0⟩ : EntityId .module))]).objectId ⟨1⟩ = some "port::cpu.clk" := by
  decide +kernel

end DesignGraph
