/-
  The registry — the births of a design and what is left of them.

  Objects, entities and text arenas are only ever made by a birth.
  `Registered h g` ties the graph `g` to the births among the events `h`: what is
  there was born, with the storage it has; births share no object, no entity and
  no arena that they own; an arena that is borrowed was owned by an earlier
  object; and the arenas that are there are those of the owners that are there.

  Each step keeps it (`Step.registered`), so it holds in every graph that is
  reached (`Reached.registered`).  What is there has the data that its request was
  given (`Reached.exists_data`).
-/
import DesignGraph.Proofs.Alignment

namespace DesignGraph

/-! ## Births among events -/

theorem mem_births {h : List Event} {b : Birth} : b ∈ births h ↔ Event.birth b ∈ h := by
  rw [births, List.mem_filterMap]
  constructor
  · rintro ⟨ev, hev, hb⟩
    cases ev with
    | birth c => cases hb; exact hev
    | write => cases hb
  · intro hb
    exact ⟨_, hb, rfl⟩

theorem births_mono {h k : List Event} (hp : h <+: k) {b : Birth} (hb : b ∈ births h) :
    b ∈ births k := mem_births.2 (hp.mem (mem_births.1 hb))

theorem births_append (h k : List Event) : births (h ++ k) = births h ++ births k :=
  List.filterMap_append

theorem mem_births_concat {h : List Event} {b c : Birth} :
    b ∈ births (h ++ [.birth c]) ↔ b ∈ births h ∨ b = c := by
  rw [births_append, List.mem_append]
  exact or_congr_right (Iff.trans Iff.rfl List.mem_singleton)

theorem births_write (h : List Event) (o : ObjectId) (w : Write) :
    births (h ++ [.write o w]) = births h := by
  rw [births_append]
  exact List.append_nil _

/-- A relation that joins no two births does not join a new one to an old one
    either, if the new one is related to no old one. -/
theorem births_inj_concat {h : List Event} {n : Birth} {R : Birth → Birth → Prop}
    (hold : ∀ b ∈ births h, ∀ c ∈ births h, R b c → b = c)
    (hnew : ∀ b ∈ births h, ¬ R b n ∧ ¬ R n b) :
    ∀ b ∈ births (h ++ [.birth n]), ∀ c ∈ births (h ++ [.birth n]), R b c → b = c := by
  intro b hb c hc hR
  rcases mem_births_concat.1 hb with hb' | hb' <;> rcases mem_births_concat.1 hc with hc' | hc'
  · exact hold b hb' c hc' hR
  · exact absurd (hc' ▸ hR) (hnew b hb').1
  · exact absurd (hb' ▸ hR) (hnew c hc').2
  · rw [hb', hc']

/-- Only a granted request bears anything. -/
theorem Step.grant_of_birth {g g' : Graph} {es : List Event} (hs : Step g es g') {b : Birth}
    (hb : b ∈ births es) :
    ∃ kind, ∃ (request : Request kind) (storage : Option TextsId) (gr : g.Grant request storage),
      b = g.birth request storage ∧ g' = (g.install gr.draft).2 := by
  cases hs with
  | free id => cases hb
  | grow hs =>
    cases hs with
    | build gr => exact ⟨_, _, _, gr, List.mem_singleton.1 hb, rfl⟩
    | appoint m i => cases hb
    | write hw => cases hb

/-! ## The registry -/

/-- The graph is what the births among the events left. -/
structure Registered (h : List Event) (g : Graph) : Prop where
  object_issued : ∀ b ∈ births h, g.objects.Issued b.object
  ref_issued : ∀ b ∈ births h, g.Issued b.ref
  storage_issued : ∀ b ∈ births h, g.texts.Issued b.storage.id
  object_inj : ∀ b ∈ births h, ∀ c ∈ births h, b.object = c.object → b = c
  ref_inj : ∀ b ∈ births h, ∀ c ∈ births h, b.ref = c.ref → b = c
  owned_inj : ∀ b ∈ births h, ∀ c ∈ births h, ∀ s,
    b.storage = .owned s → c.storage = .owned s → b = c
  lent : ∀ b ∈ births h, ∀ s, b.storage = .borrowed s →
    ∃ c ∈ births h, c.storage = .owned s ∧ c.object.index < b.object.index
  born : ∀ o x, g.objects.get? o = some x →
    ∃ b ∈ births h, b.object = o ∧ b.ref = x.payload ∧ b.storage = x.storage
  owner : ∀ s a, g.texts.get? s = some a → ∃ o x, g.objects.get? o = some x ∧ x.storage = .owned s
  arena : ∀ o x s, g.objects.get? o = some x → x.storage = .owned s → (g.texts.get? s).isSome

namespace Registered

variable {h : List Event} {g : Graph} {kind : Kind}

/-- The arena of an object was given out. -/
theorem issued_storage (hr : Registered h g) {o : ObjectId} {x : Object}
    (hx : g.objects.get? o = some x) : g.texts.Issued x.storage.id := by
  obtain ⟨b, hb, -, -, hs⟩ := hr.born o x hx
  exact hs ▸ hr.storage_issued b hb

/-- No two objects own an arena. -/
theorem owner_unique (hr : Registered h g) {o p : ObjectId} {x y : Object} {s : TextsId}
    (hx : g.objects.get? o = some x) (hy : g.objects.get? p = some y) (hxs : x.storage = .owned s)
    (hys : y.storage = .owned s) : o = p := by
  obtain ⟨b, hb, rfl, -, hbs⟩ := hr.born o x hx
  obtain ⟨c, hc, rfl, -, hcs⟩ := hr.born p y hy
  rw [hr.owned_inj b hb c hc s (hbs.trans hxs) (hcs.trans hys)]

/-- What a birth adds was not there before. -/
theorem fresh (hr : Registered h g) (request : Request kind) (storage : Option TextsId)
    {b : Birth} (hb : b ∈ births h) : b.object ≠ (g.birth request storage).object ∧
      b.ref ≠ (g.birth request storage).ref ∧
      ∀ s, (g.birth request storage).storage = .owned s → b.storage.id ≠ s := by
  refine ⟨Slots.ne_nextId (hr.object_issued b hb), ?_, ?_⟩
  · intro he
    have hi := hr.ref_issued b hb
    rw [he] at hi
    exact Slots.not_issued_nextId _ hi
  · intro s hs
    rcases storage with _ | t
    · cases hs
      exact Slots.ne_nextId (hr.storage_issued b hb)
    · cases hs

variable {request : Request kind} {storage : Option TextsId}

/-- The arena that a new entity borrows has an owner. -/
theorem owner_of_site (hr : Registered h g) (gr : g.Grant request storage) {s : TextsId}
    (hs : (g.birth request storage).storage = .borrowed s) :
    ∃ c ∈ births h, c.storage = .owned s ∧ c.object.index < g.objects.nextId.index := by
  rcases storage with _ | t
  · cases hs
  · obtain rfl : t = s := StorageHandle.borrowed.inj hs
    obtain ⟨a, ha, -⟩ := Option.map_eq_some_iff.1 gr.site_eq
    obtain ⟨o, x, hx, hxs⟩ := hr.owner t a ha
    obtain ⟨c, hc, rfl, -, hcs⟩ := hr.born o x hx
    exact ⟨c, hc, hcs.trans hxs, hr.object_issued c hc⟩

theorem owner_install (hr : Registered h g) (gr : g.Grant request storage) {s : TextsId}
    {a : TextArena} (ha : (g.install gr.draft).2.texts.get? s = some a) :
    ∃ o x, (g.install gr.draft).2.objects.get? o = some x ∧ x.storage = .owned s := by
  have hold : (∃ a, g.texts.get? s = some a) →
      ∃ o x, (g.install gr.draft).2.objects.get? o = some x ∧ x.storage = .owned s := by
    rintro ⟨a, ha⟩
    obtain ⟨o, x, hx, hxs⟩ := hr.owner s a ha
    refine ⟨o, x, ?_, hxs⟩
    rw [Graph.get?_objects_install, if_neg (Slots.ne_nextId (Slots.issued_of_get? hx)), hx]
  rw [gr.get?_texts] at ha
  split at ha
  · next hs =>
    rcases storage with _ | t
    · refine ⟨g.objects.nextId, gr.draft.object, ?_, ?_⟩
      · rw [Graph.get?_objects_install, if_pos rfl]
      · rw [gr.storage_eq, hs]; rfl
    · obtain ⟨a, ht, -⟩ := Option.map_eq_some_iff.1 gr.site_eq
      exact hold ⟨a, hs ▸ ht⟩
  · exact hold ⟨a, ha⟩

theorem install (hr : Registered h g) (gr : g.Grant request storage) :
    Registered (h ++ [.birth (g.birth request storage)]) (g.install gr.draft).2 where
  object_issued b hb := by
    rw [Graph.objects_install, Slots.issued_alloc]
    exact (mem_births_concat.1 hb).imp (hr.object_issued b) fun hb => by rw [hb]; rfl
  ref_issued b hb := by
    rw [Graph.issued_install]
    exact (mem_births_concat.1 hb).imp (hr.ref_issued b) fun hb => by rw [hb]; rfl
  storage_issued b hb := by
    rw [gr.issued_texts]
    exact (mem_births_concat.1 hb).imp (hr.storage_issued b) fun hb => by rw [hb]
  object_inj := births_inj_concat hr.object_inj fun b hb =>
    ⟨(hr.fresh request storage hb).1, fun h => (hr.fresh request storage hb).1 h.symm⟩
  ref_inj := births_inj_concat hr.ref_inj fun b hb =>
    ⟨(hr.fresh request storage hb).2.1, fun h => (hr.fresh request storage hb).2.1 h.symm⟩
  owned_inj b hb c hc s hbs hcs := by
    have hnew : ∀ b ∈ births h,
        ¬ (b.storage = .owned s ∧ (g.birth request storage).storage = .owned s) := by
      rintro b hb ⟨hbs, hs⟩
      exact (hr.fresh request storage hb).2.2 s hs (congrArg StorageHandle.id hbs)
    exact births_inj_concat (R := fun b c => b.storage = .owned s ∧ c.storage = .owned s)
      (fun b hb c hc h => hr.owned_inj b hb c hc s h.1 h.2)
      (fun b hb => ⟨hnew b hb, fun h => hnew b hb h.symm⟩) b hb c hc ⟨hbs, hcs⟩
  lent b hb s hs := by
    rcases mem_births_concat.1 hb with hb | rfl
    · obtain ⟨c, hc, hcs, hlt⟩ := hr.lent b hb s hs
      exact ⟨c, mem_births_concat.2 (Or.inl hc), hcs, hlt⟩
    · obtain ⟨c, hc, hcs, hlt⟩ := hr.owner_of_site gr hs
      exact ⟨c, mem_births_concat.2 (Or.inl hc), hcs, hlt⟩
  born o x hx := by
    rw [Graph.get?_objects_install] at hx
    split at hx
    · next ho =>
      cases hx
      exact ⟨_, mem_births_concat.2 (Or.inr rfl), ho.symm, gr.drafts.payload.symm,
        gr.storage_eq.symm⟩
    · obtain ⟨b, hb, h1, h2, h3⟩ := hr.born o x hx
      exact ⟨b, mem_births_concat.2 (Or.inl hb), h1, h2, h3⟩
  owner s a ha := hr.owner_install gr ha
  arena o x s hx hxs := by
    rw [Graph.get?_objects_install] at hx
    rw [gr.get?_texts]
    split at hx
    · cases hx
      rw [if_pos (by rw [← gr.storage_eq, hxs]; rfl)]
      rfl
    · split
      · rfl
      · exact hr.arena o x s hx hxs

/-- Without a birth, only what becomes of objects and arenas has to be looked at. -/
theorem carry {h' : List Event} {g' : Graph} (hr : Registered h g) (hb : births h' = births h)
    (hl : g.Later g')
    (hobj : ∀ o x, g'.objects.get? o = some x → ∃ y, g.objects.get? o = some y ∧ y.Same x)
    (howner : ∀ s a, g'.texts.get? s = some a →
      ∃ o x, g'.objects.get? o = some x ∧ x.storage = .owned s)
    (harena : ∀ o x s, g'.objects.get? o = some x → x.storage = .owned s →
      (g'.texts.get? s).isSome) : Registered h' g' := by
  refine ⟨?_, ?_, ?_, ?_, ?_, ?_, ?_, ?_, howner, harena⟩ <;> rw [hb]
  · intro b hb
    exact hl.objects.issued _ (hr.object_issued b hb)
  · intro b hb
    exact hl.issued _ (hr.ref_issued b hb)
  · intro b hb
    exact hl.texts.issued _ (hr.storage_issued b hb)
  · exact hr.object_inj
  · exact hr.ref_inj
  · exact hr.owned_inj
  · exact hr.lent
  · intro o x hx
    obtain ⟨y, hy, hs⟩ := hobj o x hx
    obtain ⟨b, hb, ho, hp, hst⟩ := hr.born o y hy
    exact ⟨b, hb, ho, hp.trans hs.payload, hst.trans hs.storage⟩

theorem write {o : ObjectId} {w : Write} {g' : Graph} (hr : Registered h g)
    (ef : g.WriteEffect o w g') : Registered (h ++ [.write o w]) g' := by
  have hobj : ∀ p x, g'.objects.get? p = some x → ∃ y, g.objects.get? p = some y ∧ y.Same x := by
    intro p x hx
    rw [ef.get?_objects] at hx
    split at hx
    · next hp => cases hx; exact ⟨ef.object, hp ▸ ef.object_eq, rfl⟩
    · exact ⟨x, hx, rfl⟩
  have hmod : ∀ p y, g.objects.get? p = some y → ∃ x, g'.objects.get? p = some x ∧ y.Same x := by
    intro p y hy
    rw [ef.get?_objects]
    split
    · next hp =>
      rw [hp, ef.object_eq] at hy
      cases hy
      exact ⟨_, rfl, rfl⟩
    · exact ⟨y, hy, rfl⟩
  have htexts : ∀ s, (g'.texts.get? s).isSome ↔ (g.texts.get? s).isSome := by
    intro s
    rw [ef.get?_texts]
    split
    · next hs => rw [hs, ef.before_eq]; exact Iff.rfl
    · rfl
  refine hr.carry (births_write h o w) ef.later hobj ?_ ?_
  · intro s a ha
    obtain ⟨b, hb⟩ := Option.isSome_iff_exists.1 ((htexts s).1 (ha ▸ rfl))
    obtain ⟨p, y, hy, hys⟩ := hr.owner s b hb
    obtain ⟨x, hx, hsame⟩ := hmod p y hy
    exact ⟨p, x, hx, hsame.storage.symm.trans hys⟩
  · intro p x s hx hxs
    obtain ⟨y, hy, hsame⟩ := hobj p x hx
    exact (htexts s).2 (hr.arena p y s hy (hsame.storage.trans hxs))

theorem appoint (hr : Registered h g) (m : EntityId .module) (i : Option (EntityId .inst)) :
    Registered h (g.modifyData m (·.appoint i)) :=
  hr.carry rfl (Graph.later_appoint m i) (fun _ x hx => ⟨x, hx, rfl⟩) hr.owner hr.arena

/-- An entity takes its arena along if its object owns it; no other object does. -/
theorem free (hr : Registered h g) (ha : g.Aligned) (id : EntityId kind) :
    Registered h (g.free id) := by
  rcases he : g.entity? id with _ | e
  · rwa [Graph.free_of_none he]
  obtain ⟨x, hx, -⟩ : ∃ x, g.objects.get? e.object = some x ∧ _ :=
    ha.object id e.bare (Graph.bare?_of_entity? he)
  have hobj := Graph.get?_objects_free he
  have htexts := Graph.get?_texts_free he hx
  refine hr.carry rfl (Graph.later_free id) ?_ ?_ ?_
  · intro o y hy
    rw [hobj] at hy
    split at hy
    · cases hy
    · exact ⟨y, hy, rfl⟩
  · intro s a hs
    rw [htexts] at hs
    split at hs
    · cases hs
    · next hne =>
      obtain ⟨o, y, hy, hys⟩ := hr.owner s a hs
      refine ⟨o, y, ?_, hys⟩
      rw [hobj, if_neg, hy]
      rintro rfl
      rw [hx] at hy
      cases hy
      exact hne hys
  · intro o y s hy hys
    rw [hobj] at hy
    split at hy
    · cases hy
    · next hne =>
      rw [htexts, if_neg]
      · exact hr.arena o y s hy hys
      · exact fun hxs => hne (hr.owner_unique hy hx hys hxs)

end Registered

theorem Growth.registered {h es : List Event} {g g' : Graph} (hs : Growth g es g')
    (hr : Registered h g) : Registered (h ++ es) g' := by
  cases hs with
  | build gr => exact hr.install gr
  | appoint m i => rw [List.append_nil]; exact hr.appoint m i
  | write hw => obtain ⟨ef⟩ := Graph.writeEffect hw; exact hr.write ef

theorem Step.registered {h es : List Event} {g g' : Graph} (hs : Step g es g') (ha : g.Aligned)
    (hr : Registered h g) : Registered (h ++ es) g' := by
  cases hs with
  | grow hs => exact hs.registered hr
  | free id => rw [List.append_nil]; exact hr.free ha id

theorem registered_empty : Registered [] Graph.empty where
  object_issued b hb := by cases hb
  ref_issued b hb := by cases hb
  storage_issued b hb := by cases hb
  object_inj b hb := by cases hb
  ref_inj b hb := by cases hb
  owned_inj b hb := by cases hb
  lent b hb := by cases hb
  born o x hx := by simp [Graph.empty] at hx
  owner s a ha := by simp [Graph.empty] at ha
  arena o x s hx := by simp [Graph.empty] at hx

theorem Reached.registered {h : List Event} {g : Graph} (hr : Reached h g) : Registered h g := by
  induction hr with
  | refl => exact registered_empty
  | step hs hstep ih => exact hstep.registered (Reached.aligned hs) ih

/-- What was born has the data that its request was given, the collections apart. -/
theorem Reached.exists_data {h : List Event} {g : Graph} (hg : Reached h g) {b : Birth}
    (hb : b ∈ births h) {e : Entity b.kind} (he : g.bare? b.id = some e) :
    ∃ handle d, b.request.data handle = .ok d ∧ e.data = d.bare := by
  induction hg with
  | refl => cases hb
  | step hs hstep ih =>
    rw [births_append, List.mem_append] at hb
    rcases hb with hb | hb
    · exact ih hb (hstep.later.entities b.id e ((Reached.registered hs).ref_issued b hb) he)
    · obtain ⟨kind, request, storage, gr, rfl, rfl⟩ := hstep.grant_of_birth hb
      cases (Graph.bare?_install_self gr.draft).symm.trans he
      exact ⟨_, _, gr.drafts.data, rfl⟩

end DesignGraph
