/-
  Ownership — every arena of texts has exactly one owner.

  * `Graph.Keeps`: a step that takes nothing out leaves every object and every
    arena where it is, so what a call has born is there after it
    (`Growth.born`), and the owner of an arena that is lent can be shown at the
    end of some earlier call (`exists_after_birth`);
  * `Graph.entities` lists what is there, `ownArena` the arena that an entity
    owns; each arena occurs once (`perm_ownArena`);
  * `one_owner_per_arena` is what follows for designs.
-/
import Mathlib.Data.List.Nodup
import DesignGraph.Proofs.Registry

namespace DesignGraph

namespace Graph

/-! ## What stays -/

/-- All objects and all arenas of a graph are in the other one, too. -/
structure Keeps (g g' : Graph) : Prop where
  object : ∀ o x, g.objects.get? o = some x → ∃ y, g'.objects.get? o = some y ∧ x.Same y
  arena : ∀ s, (g.texts.get? s).isSome → (g'.texts.get? s).isSome

namespace Keeps

variable {g g' g'' : Graph}

theorem refl (g : Graph) : g.Keeps g := ⟨fun _ x hx => ⟨x, hx, rfl⟩, fun _ hs => hs⟩

theorem trans (h : g.Keeps g') (h' : g'.Keeps g'') : g.Keeps g'' := by
  constructor
  · intro o x hx
    obtain ⟨y, hy, hxy⟩ := h.object o x hx
    obtain ⟨z, hz, hyz⟩ := h'.object o y hy
    exact ⟨z, hz, hxy.trans hyz⟩
  · intro s hs
    exact h'.arena s (h.arena s hs)

end Keeps

variable {g g' : Graph} {kind : Kind}

theorem Grant.keeps {request : Request kind} {storage : Option TextsId}
    (gr : g.Grant request storage) : g.Keeps (g.install gr.draft).2 where
  object o x hx := by
    refine ⟨x, ?_, rfl⟩
    rw [get?_objects_install, if_neg (Slots.ne_nextId (Slots.issued_of_get? hx)), hx]
  arena s hs := by
    rw [gr.get?_texts]
    split
    · rfl
    · exact hs

theorem WriteEffect.keeps {o : ObjectId} {w : Write} (ef : g.WriteEffect o w g') :
    g.Keeps g' where
  object p x hx := by
    rw [ef.get?_objects]
    split
    · next hp =>
      rw [hp, ef.object_eq] at hx
      cases hx
      exact ⟨_, rfl, rfl⟩
    · exact ⟨x, hx, rfl⟩
  arena s hs := by
    rw [ef.get?_texts]
    split
    · rfl
    · exact hs

end Graph

variable {g g' : Graph} {h es : List Event}

theorem Growth.keeps (hs : Growth g es g') : g.Keeps g' := by
  cases hs with
  | build gr => exact gr.keeps
  | appoint m i => exact ⟨fun _ x hx => ⟨x, hx, rfl⟩, fun _ hs => hs⟩
  | write hw => obtain ⟨ef⟩ := Graph.writeEffect hw; exact ef.keeps

/-- What was made is there, with the arena it was made with. -/
theorem Growth.born (hs : Growth g es g') {b : Birth} (hb : b ∈ births es) :
    ∃ x, g'.objects.get? b.object = some x ∧ x.storage = b.storage := by
  obtain ⟨kind, request, storage, gr, rfl, rfl⟩ := (Step.grow hs).grant_of_birth hb
  refine ⟨gr.draft.object, ?_, gr.storage_eq⟩
  rw [Graph.get?_objects_install]
  exact if_pos rfl

theorem Steps.keeps (hs : Steps Growth g h g') : g.Keeps g' := by
  induction hs with
  | refl => exact .refl g
  | step _ hstep ih => exact ih.trans hstep.keeps

theorem Steps.born (hs : Steps Growth g h g') {b : Birth} (hb : b ∈ births h) :
    ∃ x, g'.objects.get? b.object = some x ∧ x.storage = b.storage := by
  induction hs with
  | refl => cases hb
  | step _ hstep ih =>
    rw [births_append, List.mem_append] at hb
    rcases hb with hb | hb
    · obtain ⟨x, hx, hs⟩ := ih hb
      obtain ⟨y, hy, hxy⟩ := hstep.keeps.object _ x hx
      exact ⟨y, hy, hxy.storage.symm.trans hs⟩
    · exact hstep.born hb

/-! ## Owners and borrowers -/

namespace Graph

/-- The object is there and the arena is its own. -/
def Owns (g : Graph) (o : ObjectId) (s : TextsId) : Prop :=
  ∃ x, g.objects.get? o = some x ∧ x.storage = .owned s

/-- The object is there and the arena is not its own. -/
def Borrows (g : Graph) (o : ObjectId) (s : TextsId) : Prop :=
  ∃ x, g.objects.get? o = some x ∧ x.storage = .borrowed s

/-- What was made during a call is there at its end. -/
theorem born_of_events {c : Call} {b : Birth} (hb : b ∈ births (g.events c)) :
    ∃ x, (g.perform c).graph.objects.get? b.object = some x ∧ x.storage = b.storage := by
  refine (g.growth_perform c ?_).born hb
  rintro kind id rfl
  cases hb

/-- An arena goes only with an entity whose object owns it. -/
theorem freed_by_owner {c : Call} {s : TextsId} (hs : (g.texts.get? s).isSome) (ha : g.Aligned)
    (hc : (g.perform c).graph.texts.get? s = none) : ∃ kind, ∃ id : EntityId kind,
      c = .free (some id) ∧ ∃ e, g.entity? id = some e ∧ g.Owns e.object s := by
  by_cases hfree : ∃ kind, ∃ id : EntityId kind, c = .free (some id)
  · obtain ⟨kind, id, rfl⟩ := hfree
    refine ⟨kind, id, rfl, ?_⟩
    rcases he : g.entity? id with _ | e
    · rw [perform, free_of_none he] at hc
      rw [hc] at hs
      cases hs
    · obtain ⟨x, hx, -⟩ := ha.object id e.bare (bare?_of_entity? he)
      refine ⟨e, rfl, x, hx, ?_⟩
      by_cases hxs : x.storage = .owned s
      · exact hxs
      · rw [perform, get?_texts_free he hx, if_neg hxs] at hc
        rw [hc] at hs
        cases hs
  · have hk := (g.growth_perform c fun kind id h => hfree ⟨kind, id, h⟩).keeps.arena s hs
    rw [hc] at hk
    cases hk

end Graph

/-- Whatever was made was there at the end of some call. -/
theorem exists_after_birth (l : Logger) {cs : List Call} {b : Birth}
    (hb : b ∈ births (history cs)) : ∃ p, p <+: cs ∧
      ∃ x, (Design.after l p).graph.objects.get? b.object = some x ∧ x.storage = b.storage := by
  obtain ⟨p, c, hp, hev⟩ := exists_call l (mem_births.1 hb)
  refine ⟨p ++ [c], hp, ?_⟩
  rw [Design.graph_after, Graph.after_append, ← Design.graph_after l]
  exact Graph.born_of_events (mem_births.2 hev)

/-! ## Counting -/

namespace Graph

variable {g : Graph}

/-- All entities that are there. -/
def entities (g : Graph) : List EntityRef :=
  Kind.all.flatMap fun kind => ((g.tables.get kind).toList.map Prod.fst).map (EntityRef.mk kind)

/-- The arena that an entity owns through its object. -/
def ownArena (g : Graph) (r : EntityRef) : Option TextsId :=
  (g.entity? r.id).bind fun e => (g.objects.get? e.object).bind fun x =>
    match x.storage with
    | .owned s => some s
    | .borrowed _ => none

theorem mem_entities {r : EntityRef} : r ∈ g.entities ↔ (g.entity? r.id).isSome := by
  obtain ⟨kind, id⟩ := r
  simp only [entities, List.mem_flatMap, List.mem_map, Prod.exists, Slots.mem_toList,
    Option.isSome_iff_exists]
  constructor
  · rintro ⟨k, -, i, ⟨j, e, he, rfl⟩, hr⟩
    cases hr
    exact ⟨e, he⟩
  · rintro ⟨e, he⟩
    refine ⟨kind, ?_, id, ⟨id, e, he, rfl⟩, rfl⟩
    cases kind <;> decide

theorem nodup_entities (g : Graph) : g.entities.Nodup := by
  rw [entities, List.nodup_flatMap]
  constructor
  · intro kind _
    exact (Slots.nodup_toList_ids _).map fun i j hij => by cases hij; rfl
  · have hkinds : Kind.all.Nodup := by decide
    refine hkinds.imp fun {k k'} hne r hr hr' => ?_
    obtain ⟨i, -, rfl⟩ := List.mem_map.1 hr
    obtain ⟨j, -, hj⟩ := List.mem_map.1 hr'
    exact hne (congrArg EntityRef.kind hj).symm

theorem ownArena_eq_some {r : EntityRef} {s : TextsId} :
    g.ownArena r = some s ↔ ∃ e, g.entity? r.id = some e ∧ g.Owns e.object s := by
  simp only [ownArena, Option.bind_eq_some_iff, Owns]
  refine exists_congr fun e => and_congr_right fun _ => exists_congr fun x =>
    and_congr_right fun _ => ?_
  rcases x.storage with t | t <;> simp

end Graph

/-- The arenas that entities own are the arenas that are there, each once. -/
theorem Registered.perm_ownArena (hr : Registered h g) (ha : g.Aligned) :
    (g.entities.filterMap g.ownArena).Perm (g.texts.toList.map Prod.fst) := by
  have hnodup : (g.entities.filterMap g.ownArena).Nodup := by
    refine g.nodup_entities.filterMap fun r r' s hs hs' => ?_
    obtain ⟨e, he, x, hx, hxs⟩ := Graph.ownArena_eq_some.1 hs
    obtain ⟨e', he', y, hy, hys⟩ := Graph.ownArena_eq_some.1 hs'
    exact ha.ref_unique (Graph.bare?_of_entity? he) (Graph.bare?_of_entity? he')
      (hr.owner_unique hx hy hxs hys)
  refine (List.perm_ext_iff_of_nodup hnodup (Slots.nodup_toList_ids _)).2 fun s => ?_
  simp only [List.mem_filterMap, List.mem_map, Prod.exists, Slots.mem_toList]
  constructor
  · rintro ⟨r, -, hs⟩
    obtain ⟨e, -, x, hx, hxs⟩ := Graph.ownArena_eq_some.1 hs
    obtain ⟨a, hsa⟩ := Option.isSome_iff_exists.1 (hr.arena _ x s hx hxs)
    exact ⟨s, a, hsa, rfl⟩
  · rintro ⟨_, a, hsa, rfl⟩
    obtain ⟨o, x, hx, hxs⟩ := hr.owner _ a hsa
    obtain ⟨e, he, rfl⟩ := ha.entity o x hx
    obtain ⟨f, hf, rfl⟩ := Option.map_eq_some_iff.1 he
    exact ⟨x.payload, Graph.mem_entities.2 (hf ▸ rfl),
      Graph.ownArena_eq_some.2 ⟨f, hf, x, hx, hxs⟩⟩

theorem Registered.storageCount_eq (hr : Registered h g) (ha : g.Aligned) :
    g.storageCount = (g.entities.filter fun r => (g.ownArena r).isSome).length := by
  rw [Graph.storageCount, ← Slots.length_toList, ← List.length_map Prod.fst,
    ← (hr.perm_ownArena ha).length_eq, List.length_filterMap_eq_countP,
    List.countP_eq_length_filter]

/-! ## The ownership of designs -/

namespace Graph

variable {g : Graph}

theorem graph_build_of_none {kind : Kind} {request : Request kind} {storage : Option TextsId}
    (h : (g.build request storage).result = none) : (g.build request storage).graph = g := by
  rcases g.build_cases request storage with ⟨-, hg⟩ | ⟨gr, hr, -⟩
  · exact hg
  · rw [h] at hr
    cases hr

/-- A request that is refused leaves no trace in the graph. -/
theorem graph_create_of_none {kind : Kind} {request : Request kind} {storage : Option TextsId}
    (h : (g.create request storage).result = none) : (g.create request storage).graph = g := by
  cases request with
  | module name ilm resource =>
    cases resource with
    | true => exact graph_build_of_none h
    | false =>
      simp only [create, createGenerative] at h ⊢
      rcases hr : (g.build (.module name ilm false) storage).result with _ | id
      · exact graph_build_of_none hr
      · rw [hr] at h
        cases h
  | _ => exact graph_build_of_none h

theorem graph_perform_of_refused {c : Call} (h : (g.perform c).result = .created none) :
    (g.perform c).graph = g := by
  cases c with
  | create request storage =>
    exact graph_create_of_none (Option.map_eq_none_iff.1 (Reply.created.inj h))
  | free id => rcases id with _ | id <;> cases h
  | setAttr o name value constant =>
    simp only [perform] at h
    rcases hw : g.setAttr? o name value constant with _ | g' <;> rw [hw] at h <;> cases h
  | setAttrs o list => cases h

end Graph

/-- Who owns the arenas of a design after some calls, and who did on the way. -/
structure Design.Ownership (l : Logger) (cs : List Call) : Prop where
  /-- An arena has one owner, which is there. -/
  owner : ∀ s, ((after l cs).graph.texts.get? s).isSome → ∃! o, (after l cs).graph.Owns o s
  arena : ∀ o s, (after l cs).graph.Owns o s → ((after l cs).graph.texts.get? s).isSome
  /-- It never has another one. -/
  once : ∀ p q, p <+: cs → q <+: cs → ∀ o o' s,
    (after l p).graph.Owns o s → (after l q).graph.Owns o' s → o = o'
  /-- A borrowed arena has, or had, an owner, which is older than the borrower. -/
  lent : ∀ o s, (after l cs).graph.Borrows o s →
    ∃ p, p <+: cs ∧ ∃ o', o'.index < o.index ∧ (after l p).graph.Owns o' s
  count : (after l cs).graph.storageCount =
    ((after l cs).graph.entities.filter fun r => ((after l cs).graph.ownArena r).isSome).length
  refused : ∀ c, ((after l cs).graph.perform c).result = .created none →
    ((after l cs).graph.perform c).graph = (after l cs).graph
  /-- No request is refused once its arena is found. -/
  granted : ∀ {kind : Kind} (request : Request kind) (storage : Option TextsId) plan parent site,
    (after l cs).graph.plan request = .ok plan →
    (after l cs).graph.lineage plan.parent = some parent →
    (after l cs).graph.site storage = some site →
    ((after l cs).graph.build request storage).result.isSome
  /-- An arena goes only with the entity whose object owns it, -/
  freed : ∀ c s, ((after l cs).graph.texts.get? s).isSome →
    ((after l cs).graph.perform c).graph.texts.get? s = none →
    ∃ kind, ∃ id : EntityId kind, c = .free (some id) ∧
      ∃ e, (after l cs).graph.entity? id = some e ∧ (after l cs).graph.Owns e.object s
  /-- and then it is gone for good. -/
  gone : ∀ ds s, (after l cs).graph.texts.Issued s → (after l cs).graph.texts.get? s = none →
    (after l (cs ++ ds)).graph.texts.get? s = none

/-- **Whatever the calls, each arena has exactly one owner, and none is left behind.** -/
theorem one_owner_per_arena (l : Logger) (cs : List Call) : Design.Ownership l cs := by
  have ha := (reached_after l cs).aligned
  have hr := (reached_after l cs).registered
  refine ⟨?_, ?_, ?_, ?_, hr.storageCount_eq ha, ?_, ?_, ?_, ?_⟩
  · intro s hs
    obtain ⟨a, hsa⟩ := Option.isSome_iff_exists.1 hs
    obtain ⟨o, x, hx, hxs⟩ := hr.owner s a hsa
    refine ⟨o, ⟨x, hx, hxs⟩, ?_⟩
    rintro o' ⟨y, hy, hys⟩
    exact hr.owner_unique hy hx hys hxs
  · rintro o s ⟨x, hx, hxs⟩
    exact hr.arena o x s hx hxs
  · rintro p q hp hq o o' s ⟨x, hx, hxs⟩ ⟨y, hy, hys⟩
    obtain ⟨b, hb, rfl, -, hbs⟩ := (reached_after l p).registered.born o x hx
    obtain ⟨c, hc, rfl, -, hcs⟩ := (reached_after l q).registered.born o' y hy
    have hb := births_mono (history_mono hp) hb
    have hc := births_mono (history_mono hq) hc
    rw [hr.owned_inj b hb c hc s (hbs.trans hxs) (hcs.trans hys)]
  · rintro o s ⟨x, hx, hxs⟩
    obtain ⟨b, hb, rfl, -, hbs⟩ := hr.born o x hx
    obtain ⟨c, hc, hcs, hlt⟩ := hr.lent b hb s (hbs.trans hxs)
    obtain ⟨p, hp, y, hy, hys⟩ := exists_after_birth l hc
    exact ⟨p, hp, c.object, hlt, y, hy, hys.trans hcs⟩
  · intro c
    exact Graph.graph_perform_of_refused
  · intro kind request storage plan parent site hp hl hs
    rw [Graph.build_of_site hp hl hs]
    rfl
  · intro c s hs
    exact Graph.freed_by_owner hs ha
  · intro ds s hi hs
    exact (steps_after_append l cs ds).later.texts.get?_eq_none hi hs

end DesignGraph
