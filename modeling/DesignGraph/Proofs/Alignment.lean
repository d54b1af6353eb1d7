/-
  Entities and objects — every entity has an object of its own, and every object
  an entity.

  The two are kept in tables of their own, and the id of the entity is written
  into the object before the entity exists.  `Graph.Aligned` says that the tables
  match nevertheless; each step keeps it (`Step.aligned`), so it holds in every
  graph that is reached (`Reached.aligned`).

  `entities_objects_bijective` is what follows for designs: the two are in
  bijection, and taking out an entity cannot hit the object of another one.
-/
import DesignGraph.Proofs.Later

namespace DesignGraph

namespace Graph

/-- Entities and objects refer to each other, and share their names. -/
structure Aligned (g : Graph) : Prop where
  object : ∀ {kind : Kind} (id : EntityId kind) (e : Entity kind), g.bare? id = some e →
    ∃ x, g.objects.get? e.object = some x ∧ x.payload = ⟨kind, id⟩ ∧ x.name = e.name
  entity : ∀ o x, g.objects.get? o = some x → ∃ e, g.bare? x.payload.id = some e ∧ e.object = o

variable {g : Graph} {kind k : Kind}

theorem bare?_of_entity? {id : EntityId kind} {e : Entity kind} (h : g.entity? id = some e) :
    g.bare? id = some e.bare := by rw [bare?, h]; rfl

theorem bare?_of_tables {g' : Graph} (h : g'.tables = g.tables) (id : EntityId kind) :
    g'.bare? id = g.bare? id := by rw [bare?, entity?, h]; rfl

theorem issued_of_bare? {id : EntityId kind} {e : Entity kind} (h : g.bare? id = some e) :
    g.Issued ⟨kind, id⟩ := by
  obtain ⟨e', he, -⟩ := Option.map_eq_some_iff.1 h
  exact issued_of_entity? he

/-- The next id of a kind is not the id of an entity. -/
theorem ne_next_of_bare? {id : EntityId k} {e : Entity k} (h : g.bare? id = some e) :
    (⟨k, id⟩ : EntityRef) ≠ ⟨kind, (g.tables.get kind).nextId⟩ := by
  intro heq
  have hi := issued_of_bare? h
  rw [heq] at hi
  exact Slots.not_issued_nextId _ hi

namespace Aligned

/-- Entities with one object are one entity. -/
theorem ref_unique (h : g.Aligned) {i : EntityId kind} {j : EntityId k} {e : Entity kind}
    {f : Entity k} (hi : g.bare? i = some e) (hj : g.bare? j = some f) (ho : e.object = f.object) :
    (⟨kind, i⟩ : EntityRef) = ⟨k, j⟩ := by
  obtain ⟨x, hx, hp, -⟩ := h.object i e hi
  obtain ⟨y, hy, hq, -⟩ := h.object j f hj
  rw [ho, hy] at hx
  cases hx
  exact hp.symm.trans hq

/-- The object of an entity is the one that refers to it. -/
theorem object_unique (h : g.Aligned) {o : ObjectId} {x : Object} {i : EntityId kind}
    {e : Entity kind} (hx : g.objects.get? o = some x) (hp : x.payload = ⟨kind, i⟩)
    (he : g.bare? i = some e) : e.object = o := by
  obtain ⟨f, hf, ho⟩ := h.entity o x hx
  obtain ⟨_, _, _, _, payload⟩ := x
  cases hp
  rw [he] at hf
  cases hf
  exact ho

theorem install {request : Request kind} {storage : Option TextsId} (h : g.Aligned)
    (gr : g.Grant request storage) : (g.install gr.draft).2.Aligned where
  object {k} id e he := by
    by_cases hid : (⟨k, id⟩ : EntityRef) = ⟨kind, (g.tables.get kind).nextId⟩
    · cases hid
      rw [bare?_install_self] at he
      cases he
      exact ⟨gr.draft.object, by rw [get?_objects_install, if_pos rfl], gr.drafts.payload, rfl⟩
    · rw [bare?_install_of_ne _ hid] at he
      obtain ⟨x, hx, hp, hn⟩ := h.object id e he
      refine ⟨x, ?_, hp, hn⟩
      rw [get?_objects_install, if_neg (Slots.ne_nextId (Slots.issued_of_get? hx)), hx]
  entity o x hx := by
    rw [get?_objects_install] at hx
    split at hx
    · next ho =>
      cases hx
      rw [gr.drafts.payload]
      exact ⟨_, bare?_install_self gr.draft, ho.symm⟩
    · obtain ⟨e, he, ho⟩ := h.entity o x hx
      exact ⟨e, by rw [bare?_install_of_ne _ (ne_next_of_bare? he), he], ho⟩

theorem write {o : ObjectId} {w : Write} {g' : Graph} (h : g.Aligned) (ef : g.WriteEffect o w g') :
    g'.Aligned where
  object id e he := by
    rw [bare?_of_tables ef.tables_eq] at he
    obtain ⟨x, hx, hp, hn⟩ := h.object id e he
    rw [ef.get?_objects]
    split
    · next ho =>
      rw [ho, ef.object_eq] at hx
      cases hx
      exact ⟨_, rfl, hp, hn⟩
    · exact ⟨x, hx, hp, hn⟩
  entity p x hx := by
    rw [ef.get?_objects] at hx
    rw [bare?_of_tables ef.tables_eq]
    split at hx
    · next hp =>
      cases hx
      exact h.entity p ef.object (hp ▸ ef.object_eq)
    · exact h.entity p x hx

theorem appoint (h : g.Aligned) (m : EntityId .module) (i : Option (EntityId .inst)) :
    (g.modifyData m (·.appoint i)).Aligned where
  object id e he := by
    rw [bare?_modifyData m (Module.bare_appoint · i)] at he
    exact h.object id e he
  entity o x hx := by
    rw [bare?_modifyData m (Module.bare_appoint · i)]
    exact h.entity o x hx

theorem free (h : g.Aligned) (id : EntityId kind) : (g.free id).Aligned := by
  rcases he : g.entity? id with _ | e
  · rwa [free_of_none he]
  have hb := bare?_of_entity? he
  constructor
  · intro k j f hf
    by_cases hj : (⟨k, j⟩ : EntityRef) = ⟨kind, id⟩
    · cases hj
      rw [bare?_free_self] at hf
      cases hf
    · rw [bare?_free_of_ne hj] at hf
      obtain ⟨x, hx, hp, hn⟩ := h.object j f hf
      refine ⟨x, ?_, hp, hn⟩
      have hne : f.object ≠ e.object := fun ho => hj (h.ref_unique hf hb ho)
      rw [get?_objects_free he, if_neg hne, hx]
  · intro o x hx
    rw [get?_objects_free he] at hx
    split at hx
    · cases hx
    · next hne =>
      obtain ⟨f, hf, ho⟩ := h.entity o x hx
      refine ⟨f, ?_, ho⟩
      rw [bare?_free_of_ne, hf]
      intro hr
      exact hne (h.object_unique hx hr hb).symm

end Aligned

end Graph

theorem Growth.aligned {g g' : Graph} {h : List Event} (hs : Growth g h g') (ha : g.Aligned) :
    g'.Aligned := by
  cases hs with
  | build gr => exact ha.install gr
  | appoint m i => exact ha.appoint m i
  | write hw => obtain ⟨ef⟩ := Graph.writeEffect hw; exact ha.write ef

theorem Step.aligned {g g' : Graph} {h : List Event} (hs : Step g h g') (ha : g.Aligned) :
    g'.Aligned := by
  cases hs with
  | grow hs => exact hs.aligned ha
  | free id => exact ha.free id

theorem Graph.aligned_empty : Graph.empty.Aligned where
  object {kind} id e he := by
    cases kind <;> simp [Graph.bare?, Graph.entity?, Graph.empty, Tables.get] at he
  entity o x hx := by simp [Graph.empty] at hx

theorem Reached.aligned {g : Graph} {h : List Event} (hr : Reached h g) : g.Aligned := by
  induction hr with
  | refl => exact Graph.aligned_empty
  | step _ hstep ih => exact hstep.aligned ih

/-- What the tables of entities and the table of objects have to do with each
    other. -/
structure Graph.Bijective (g : Graph) : Prop where
  object_of_entity : ∀ {kind : Kind} (id : EntityId kind) (e : Entity kind), g.entity? id = some e →
    ∃ x, g.objects.get? e.object = some x ∧ x.payload = ⟨kind, id⟩ ∧ x.name = e.name
  entity_of_object : ∀ o x, g.objects.get? o = some x →
    ∃ e, g.entity? x.payload.id = some e ∧ e.object = o
  /-- No two entities share an object. -/
  injective : ∀ (r r' : EntityRef) (e : Entity r.kind) (e' : Entity r'.kind),
    g.entity? r.id = some e → g.entity? r'.id = some e' → e.object = e'.object → r = r'
  /-- Taking out an entity takes out its object, and no other. -/
  released : ∀ (r : EntityRef) (e : Entity r.kind), g.entity? r.id = some e →
    ∀ o, (g.free r.id).objects.get? o = if o = e.object then none else g.objects.get? o
  /-- The objects of all other entities stay. -/
  spared : ∀ (r r' : EntityRef) (e : Entity r.kind) (e' : Entity r'.kind),
    g.entity? r.id = some e → g.entity? r'.id = some e' → r ≠ r' →
      (g.free r.id).objects.get? e'.object = g.objects.get? e'.object

/-- **Entities and objects are in bijection, whatever the calls.** -/
theorem entities_objects_bijective (l : Logger) (cs : List Call) :
    (Design.after l cs).graph.Bijective := by
  have h := (reached_after l cs).aligned
  have hinj : ∀ (r r' : EntityRef) (e : Entity r.kind) (e' : Entity r'.kind),
      (Design.after l cs).graph.entity? r.id = some e →
      (Design.after l cs).graph.entity? r'.id = some e' → e.object = e'.object → r = r' := by
    intro r r' e e' he he' ho
    exact h.ref_unique (Graph.bare?_of_entity? he) (Graph.bare?_of_entity? he') ho
  refine ⟨?_, ?_, hinj, ?_, ?_⟩
  · intro kind id e he
    exact h.object id e.bare (Graph.bare?_of_entity? he)
  · intro o x hx
    obtain ⟨e, he, ho⟩ := h.entity o x hx
    obtain ⟨f, hf, rfl⟩ := Option.map_eq_some_iff.1 he
    exact ⟨f, hf, ho⟩
  · intro r e he
    exact Graph.get?_objects_free he
  · intro r r' e e' he he' hne
    rw [Graph.get?_objects_free he, if_neg]
    intro ho
    exact hne (hinj r r' e e' he he' ho.symm)

end DesignGraph
