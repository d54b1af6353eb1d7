/-
  Collections — the lists of an owner are its children in the order of their
  births.

  Entities are listed with their owners when they are made, and nothing else ever
  touches the lists: an entity that is taken out stays listed, and a request that
  is refused lists nothing.

  * `children h l o` are the entities that were born for the list `l` of the owner
    `o`, in the order of their births among the events `h`;
  * `Enrolled h g`: the lists of `g` are these; each step keeps it
    (`Step.enrolled`), so it holds in every graph that is reached
    (`Reached.enrolled`);
  * `collections_are_children` is what follows for designs.
-/
import DesignGraph.Proofs.Admission
import DesignGraph.Proofs.Membership

namespace DesignGraph

/-! ## Children -/

/-- The children that an owner was given for a list, in the order of their births. -/
def children (h : List Event) {owner member : Kind} (l : Link owner member) (o : EntityId owner) :
    List (EntityId member) := (births h).filterMap (·.child? l o)

section
variable {owner member : Kind} {l : Link owner member} {o : EntityId owner} {i : EntityId member}

theorem Birth.child?_eq_some_iff {b : Birth} :
    b.child? l o = some i ↔ ∃ h : b.kind = member, l.askedOf (h ▸ b.request) = some o ∧
      h ▸ b.id = i := by
  unfold child?
  constructor
  · intro hi
    split at hi
    · next h =>
      split at hi
      · next ho => exact ⟨h, ho, Option.some.inj hi⟩
      · cases hi
    · cases hi
  · rintro ⟨h, ho, rfl⟩
    rw [dif_pos h, if_pos ho]

theorem Birth.ref_of_child? {b : Birth} (h : b.child? l o = some i) : b.ref = ⟨member, i⟩ := by
  obtain ⟨hk, -, hi⟩ := child?_eq_some_iff.1 h
  obtain ⟨request, id, _, _, _, _, _⟩ := b
  cases hk
  cases hi
  rfl

theorem mem_children {h : List Event} :
    i ∈ children h l o ↔ ∃ b ∈ births h, b.child? l o = some i := List.mem_filterMap

theorem children_append (h k : List Event) :
    children (h ++ k) l o = children h l o ++ children k l o := by
  rw [children, births_append, List.filterMap_append]; rfl

theorem children_birth (b : Birth) : children [.birth b] l o = (b.child? l o).toList := by
  show [b].filterMap (·.child? l o) = _
  rcases hc : b.child? l o with _ | i <;> simp [hc]

end

/-! ## The lists of a graph -/

/-- What is listed with an owner is what was born for it. -/
structure Enrolled (h : List Event) (g : Graph) : Prop where
  owner : ∀ b ∈ births h, ∀ {owner : Kind} (l : Link owner b.kind) (o : EntityId owner),
    l.askedOf b.request = some o → g.Issued ⟨owner, o⟩
  rising : (births h).Pairwise fun b c => b.kind = c.kind → b.id.index < c.id.index
  listed : ∀ {owner member : Kind} (l : Link owner member) (o : EntityId owner),
    (g.entity? o).isSome → (g.listing l o).elim [] (·.toList) = children h l o

namespace Enrolled

variable {h : List Event} {g : Graph} {kind owner member : Kind}

theorem issued_of_child? (he : Enrolled h g) {b : Birth} (hb : b ∈ births h)
    {l : Link owner member} {o : EntityId owner} {i : EntityId member}
    (hi : b.child? l o = some i) : g.Issued ⟨owner, o⟩ := by
  obtain ⟨hk, ho, -⟩ := Birth.child?_eq_some_iff.1 hi
  obtain ⟨request, _, _, _, _, _, _⟩ := b
  cases hk
  exact he.owner _ hb l o ho

/-- Owners that are yet to be made have no children. -/
theorem children_eq_nil (he : Enrolled h g) {l : Link owner member} {o : EntityId owner}
    (ho : ¬ g.Issued ⟨owner, o⟩) : children h l o = [] := by
  rw [children, List.filterMap_eq_nil_iff]
  intro b hb
  rcases hc : b.child? l o with _ | i
  · rfl
  · exact absurd (he.issued_of_child? hb hc) ho

theorem install {request : Request kind} {storage : Option TextsId} (he : Enrolled h g)
    (hr : Registered h g) (gr : g.Grant request storage) :
    Enrolled (h ++ [.birth (g.birth request storage)]) (g.install gr.draft).2 where
  owner b hb {owner} l o ho := by
    refine gr.later.issued ⟨owner, o⟩ ?_
    rcases mem_births_concat.1 hb with hb | rfl
    · exact he.owner b hb l o ho
    · exact gr.issued_of_asked ho
  rising := by
    rw [births_append, List.pairwise_append]
    refine ⟨he.rising, List.pairwise_singleton _ _, fun b hb c hc hk => ?_⟩
    obtain rfl : c = g.birth request storage := List.mem_singleton.1 hc
    have hi := hr.ref_issued b hb
    obtain ⟨request', _, _, _, _, _, _⟩ := b
    cases hk
    exact hi
  listed {owner member} l o ho := by
    rw [children_append, children_birth]
    by_cases hnew : (⟨owner, o⟩ : EntityRef) = ⟨kind, (g.tables.get kind).nextId⟩
    · cases hnew
      have hni : ¬ g.Issued ⟨kind, (g.tables.get kind).nextId⟩ := Slots.not_issued_nextId _
      have hnone : (g.birth request storage).child? l (g.tables.get kind).nextId = none := by
        rcases hc : (g.birth request storage).child? l (g.tables.get kind).nextId with _ | i
        · rfl
        · obtain ⟨hk, hask, -⟩ := Birth.child?_eq_some_iff.1 hc
          cases hk
          exact absurd (gr.issued_of_asked hask) hni
      rw [he.children_eq_nil hni, hnone]
      rcases hl : (g.install gr.draft).2.listing l (g.tables.get kind).nextId with _ | xs
      · rfl
      · rw [gr.listing_install_self hl]; rfl
    · obtain ⟨e, hoe⟩ := Option.isSome_iff_exists.1 ho
      have hbare := Graph.bare?_of_entity? hoe
      rw [Graph.bare?_install_of_ne _ hnew] at hbare
      obtain ⟨f, hf, -⟩ := Option.map_eq_some_iff.1 hbare
      rw [gr.listing_install (Graph.issued_of_entity? hf), ← he.listed l o (hf ▸ rfl)]
      by_cases hk : member = kind
      · subst hk
        rw [Graph.child?_birth]
        split
        · next hask =>
          obtain ⟨xs, hxs⟩ := gr.exists_listing hask
          simp [hxs]
        · simp
      · rw [Graph.child?_birth_of_ne hk]
        simp

/-- Without a birth, only the lists have to be looked at. -/
theorem carry {h' : List Event} {g' : Graph} (he : Enrolled h g)
    (hb : births h' = births h) (hl : g.Later g')
    (hlist : ∀ {owner member : Kind} (l : Link owner member) (o : EntityId owner),
      (g'.entity? o).isSome → (g.entity? o).isSome ∧ g'.listing l o = g.listing l o) :
    Enrolled h' g' := by
  refine ⟨?_, ?_, ?_⟩ <;> try rw [hb]
  · intro b hb owner l o ho
    exact hl.issued ⟨owner, o⟩ (he.owner b hb l o ho)
  · exact he.rising
  · intro owner member l o ho
    obtain ⟨ho', heq⟩ := hlist l o ho
    rw [heq, he.listed l o ho', children, children, hb]

end Enrolled

theorem Growth.enrolled {h es : List Event} {g g' : Graph} (hs : Growth g es g')
    (hr : Registered h g) (he : Enrolled h g) : Enrolled (h ++ es) g' := by
  cases hs with
  | build gr => exact he.install hr gr
  | appoint m i =>
    rw [List.append_nil]
    refine he.carry rfl (Graph.later_appoint m i) fun l o ho => ⟨?_, ?_⟩
    · obtain ⟨e, hoe⟩ := Option.isSome_iff_exists.1 ho
      have hbare := Graph.bare?_of_entity? hoe
      rw [Graph.bare?_modifyData m (Module.bare_appoint · i)] at hbare
      obtain ⟨f, hf, -⟩ := Option.map_eq_some_iff.1 hbare
      exact hf ▸ rfl
    · exact Graph.listing_appoint m i l o
  | write hw =>
    obtain ⟨ef⟩ := Graph.writeEffect hw
    refine he.carry (births_write h _ _) ef.later fun l o ho => ⟨?_, ef.listing l o⟩
    rwa [Graph.entity?, ef.tables_eq] at ho

theorem Step.enrolled {h es : List Event} {g g' : Graph} (hs : Step g es g')
    (hr : Registered h g) (he : Enrolled h g) : Enrolled (h ++ es) g' := by
  cases hs with
  | grow hs => exact hs.enrolled hr he
  | @free kind id =>
    rw [List.append_nil]
    refine he.carry rfl (Graph.later_free id) fun {owner _} l o ho => ?_
    have hne : (⟨owner, o⟩ : EntityRef) ≠ ⟨kind, id⟩ := by
      intro heq
      cases heq
      obtain ⟨e, hoe⟩ := Option.isSome_iff_exists.1 ho
      have hbare := Graph.bare?_of_entity? hoe
      rw [Graph.bare?_free_self] at hbare
      cases hbare
    rw [Graph.entity?_free_of_ne hne] at ho
    exact ⟨ho, Graph.listing_free_of_ne hne⟩

theorem enrolled_empty : Enrolled [] Graph.empty where
  owner b hb := by cases hb
  rising := List.Pairwise.nil
  listed {owner _} l o ho := by
    have hnone : Graph.empty.entity? o = none := by
      cases owner <;> simp [Graph.entity?, Graph.empty, Tables.get]
    rw [hnone] at ho
    cases ho

theorem Reached.enrolled {h : List Event} {g : Graph} (hg : Reached h g) : Enrolled h g := by
  induction hg with
  | refl => exact enrolled_empty
  | step hs hstep ih => exact hstep.enrolled (Reached.registered hs) ih

/-! ## The calls that add children -/

namespace Graph

/-- A call gives an owner a child: what is asked for, if it is granted, or the default
    instance along with a generative module. -/
inductive Adds (g : Graph) : Call → {owner member : Kind} → Link owner member → EntityId owner →
    EntityId member → Prop
  | asked {owner member : Kind} {l : Link owner member} {o : EntityId owner}
    {i : EntityId member} (request : Request member) (storage : Option TextsId)
    (hask : l.askedOf request = some o)
    (hr : (g.perform (.create request storage)).result = .created (some ⟨member, i⟩)) :
    Adds g (.create request storage) l o i
  | along (name : String) (ilm : Bool) (storage : Option TextsId) {m : EntityId .module}
    (hr : (g.perform (.create (.module name ilm false) storage)).result =
      .created (some ⟨.module, m⟩)) :
    Adds g (.create (.module name ilm false) storage) .uses m (g.tables.get .inst).nextId

variable {g : Graph} {h : List Event} {kind owner member : Kind}

theorem perform_create_eq {request : Request kind} {storage : Option TextsId} {i : EntityId kind} :
    (g.perform (.create request storage)).result = .created (some ⟨kind, i⟩) ↔
      (g.create request storage).result = some i := by
  simp only [perform, Reply.created.injEq, Option.map_eq_some_iff]
  constructor
  · rintro ⟨j, hj, hr⟩
    cases hr
    exact hj
  · intro hr
    exact ⟨i, hr, rfl⟩

theorem mem_children_buildEvents {request : Request kind} {storage : Option TextsId}
    {l : Link owner member} {o : EntityId owner} {i : EntityId member} :
    i ∈ children (g.buildEvents request storage) l o ↔
      (g.build request storage).result.isSome ∧ (g.birth request storage).child? l o = some i := by
  unfold buildEvents
  rcases (g.build request storage).result with _ | id
  · simp [children, births]
  · rw [children_birth]
    simp

/-- What a request alone adds is what it asks for. -/
theorem adds_of_buildEvents {request : Request kind} {storage : Option TextsId}
    {l : Link owner member} {o : EntityId owner} {i : EntityId member}
    (hi : i ∈ children (g.buildEvents request storage) l o) :
    g.Adds (.create request storage) l o i := by
  obtain ⟨hr, hc⟩ := mem_children_buildEvents.1 hi
  obtain ⟨hk, hask, rfl⟩ := Birth.child?_eq_some_iff.1 hc
  cases hk
  refine .asked request storage hask (perform_create_eq.2 ?_)
  rw [← create_result] at hr
  rcases g.create_cases request storage with ⟨hnone, -⟩ | ⟨-, hr, -⟩
  · rw [hnone] at hr
    cases hr
  · exact hr

theorem adds_of_createEvents (hg : Reached h g) {request : Request kind}
    {storage : Option TextsId} {l : Link owner member} {o : EntityId owner} {i : EntityId member}
    (hi : i ∈ children (g.createEvents request storage) l o) :
    g.Adds (.create request storage) l o i := by
  cases request with
  | module name ilm resource =>
    cases resource with
    | true => exact adds_of_buildEvents hi
    | false =>
      rcases g.build_cases (.module name ilm false) storage with ⟨hr, -⟩ | ⟨gr, -, -⟩
      · simp [createEvents, buildEvents, hr, children, births] at hi
      · rw [hg.createEvents_generative gr] at hi
        obtain ⟨b, hb, hc⟩ := mem_children.1 hi
        obtain ⟨hk, hask, rfl⟩ := Birth.child?_eq_some_iff.1 hc
        -- a module is listed nowhere, and its default instance with the module only
        rcases List.mem_cons.1 hb with rfl | hb
        · cases hk
          cases l
        · obtain rfl := List.mem_singleton.1 hb
          cases hk
          cases l with
          | contents => cases hask
          | uses =>
            cases hask
            show g.Adds _ _ _ ((g.install gr.draft).2.tables.get .inst).nextId
            rw [gr.instances_install]
            exact .along name ilm storage
              (perform_create_eq.2 ((g.create_result _ storage).trans gr.build_result))
  | _ => exact adds_of_buildEvents hi

theorem mem_children_of_adds (hg : Reached h g) {c : Call} {l : Link owner member}
    {o : EntityId owner} {i : EntityId member} (ha : g.Adds c l o i) :
    i ∈ children (g.events c) l o := by
  cases ha with
  | asked request storage hask hr =>
    rcases g.create_cases request storage with ⟨hnone, -⟩ | ⟨gr, hsome, k, hev, -⟩
    · rw [perform_create_eq, hnone] at hr
      cases hr
    · rw [perform_create_eq, hsome] at hr
      cases hr
      rw [mem_children, events, hev]
      exact ⟨_, mem_births.2 (List.mem_cons_self ..), by rw [child?_birth, if_pos hask]⟩
  | along name ilm storage hr =>
    rw [perform_create_eq, create_result] at hr
    rcases g.build_cases (.module name ilm false) storage with ⟨hnone, -⟩ | ⟨gr, hsome, -⟩
    · rw [hnone] at hr
      cases hr
    · rw [hsome] at hr
      cases hr
      rw [mem_children, events, hg.createEvents_generative gr]
      refine ⟨_, mem_births.2 (List.mem_cons_of_mem _ (List.mem_singleton.2 rfl)), ?_⟩
      rw [child?_birth, gr.instances_install]
      exact if_pos rfl

/-- The children that the events of a call add are those that the call gives. -/
theorem mem_children_events (hg : Reached h g) {c : Call} {l : Link owner member}
    {o : EntityId owner} {i : EntityId member} :
    i ∈ children (g.events c) l o ↔ g.Adds c l o i := by
  refine ⟨fun hi => ?_, mem_children_of_adds hg⟩
  cases c with
  | create request storage => exact adds_of_createEvents hg hi
  | free | setAttr | setAttrs =>
    obtain ⟨b, hb, -⟩ := mem_children.1 hi
    cases bears_of_events hb

end Graph

theorem mem_children_history (l : Logger) {cs : List Call} {owner member : Kind}
    {k : Link owner member} {o : EntityId owner} {i : EntityId member} :
    i ∈ children (history cs) k o ↔
      ∃ p c, p ++ [c] <+: cs ∧ (Design.after l p).graph.Adds c k o i := by
  constructor
  · intro hi
    obtain ⟨b, hb, hc⟩ := mem_children.1 hi
    obtain ⟨p, c, hp, hev⟩ := exists_call l (mem_births.1 hb)
    exact ⟨p, c, hp, (Graph.mem_children_events (reached_after l p)).1
      (mem_children.2 ⟨b, mem_births.2 hev, hc⟩)⟩
  · rintro ⟨p, c, hp, ha⟩
    obtain ⟨b, hb, hc⟩ := mem_children.1 (Graph.mem_children_of_adds (reached_after l p) ha)
    refine mem_children.2 ⟨b, births_mono (history_mono hp) ?_, hc⟩
    rw [history_concat l, births_append]
    exact List.mem_append_right _ hb

/-! ## The collections of designs -/

namespace Enrolled

variable {h : List Event} {g : Graph} {owner member : Kind} {k : Link owner member}
  {o : EntityId owner} {e : Entity owner} {i : EntityId member}

theorem members_eq (he : Enrolled h g) (ho : g.entity? o = some e) :
    (k.members e.data).elim [] (·.toList) = children h k o := by
  rw [← he.listed k o (ho ▸ rfl), Graph.listing_of_entity? ho]

/-- Children are listed with rising ids. -/
theorem pairwise_children (he : Enrolled h g) :
    (children h k o).Pairwise fun i j => i.index < j.index := by
  rw [children, List.pairwise_filterMap]
  refine he.rising.imp fun {b c} hbc i hi j hj => ?_
  obtain ⟨hb, -, rfl⟩ := Birth.child?_eq_some_iff.1 hi
  obtain ⟨hc, -, rfl⟩ := Birth.child?_eq_some_iff.1 hj
  obtain ⟨_, _, _, _, _, _, _⟩ := b
  obtain ⟨_, _, _, _, _, _, _⟩ := c
  cases hb
  cases hc
  exact hbc rfl

theorem nodup_children (he : Enrolled h g) : (children h k o).Nodup := by
  refine he.pairwise_children.imp fun {i j} hij => ?_
  rintro rfl
  exact Nat.lt_irrefl _ hij

end Enrolled

/-- What was born names the owners that were asked for. -/
theorem Reached.ownerOf_of_birth {h : List Event} {g : Graph} (hg : Reached h g) {b : Birth}
    (hb : b ∈ births h) {e : Entity b.kind} (he : g.entity? b.id = some e) {owner : Kind}
    (k : Link owner b.kind) : k.ownerOf e.data = k.askedOf b.request := by
  obtain ⟨handle, d, hd, hbare⟩ := hg.exists_data hb (Graph.bare?_of_entity? he)
  rw [← k.ownerOf_bare, show e.data.bare = d.bare from hbare, k.ownerOf_bare,
    Graph.ownerOf_data hd]

section
variable {h : List Event} {g : Graph} {owner member : Kind} {k : Link owner member}
  {o : EntityId owner} {i : EntityId member} {f : Entity member}

/-- A child that is there names its owner. -/
theorem Reached.ownerOf_of_mem (hg : Reached h g) (hi : i ∈ children h k o)
    (hf : g.entity? i = some f) : k.ownerOf f.data = some o := by
  obtain ⟨b, hb, hc⟩ := mem_children.1 hi
  obtain ⟨hk, hask, rfl⟩ := Birth.child?_eq_some_iff.1 hc
  obtain ⟨_, _, _, _, _, _, _⟩ := b
  cases hk
  rw [← hask]
  exact hg.ownerOf_of_birth hb hf k

/-- What is there is a child of the owner that it names. -/
theorem Reached.mem_of_ownerOf (hg : Reached h g) (hf : g.entity? i = some f)
    (ho : k.ownerOf f.data = some o) : i ∈ children h k o := by
  obtain ⟨b, hb, href⟩ := hg.exists_birth (r := ⟨member, i⟩) hf
  refine mem_children.2 ⟨b, hb, Birth.child?_eq_some_iff.2 ?_⟩
  obtain ⟨_, _, _, _, _, _, _⟩ := b
  cases href
  exact ⟨rfl, (hg.ownerOf_of_birth hb hf k).symm.trans ho, rfl⟩

end

/-- The collections of the entities of a design after some calls. -/
structure Design.Collections (l : Logger) (cs : List Call) : Prop where
  /-- A list is the children of the owner, in the order of their births; children that
      were taken out are still listed. -/
  listed : ∀ {owner member : Kind} (k : Link owner member) (o : EntityId owner) e xs,
    (after l cs).graph.entity? o = some e → k.members e.data = some xs →
      xs.toList = children (history cs) k o
  /-- An owner without the list never got a child for it. -/
  absent : ∀ {owner member : Kind} (k : Link owner member) (o : EntityId owner) e,
    (after l cs).graph.entity? o = some e → k.members e.data = none →
      children (history cs) k o = []
  /-- The children are what the calls were granted. -/
  given : ∀ {owner member : Kind} (k : Link owner member) (o : EntityId owner) i,
    i ∈ children (history cs) k o ↔ ∃ p c, p ++ [c] <+: cs ∧ (after l p).graph.Adds c k o i
  rising : ∀ {owner member : Kind} (k : Link owner member) (o : EntityId owner),
    (children (history cs) k o).Pairwise fun i j => i.index < j.index
  nodup : ∀ {owner member : Kind} (k : Link owner member) (o : EntityId owner),
    (children (history cs) k o).Nodup
  /-- What is listed and is there names the owner. -/
  named : ∀ {owner member : Kind} (k : Link owner member) (o : EntityId owner),
    ∀ i ∈ children (history cs) k o, ∀ f, (after l cs).graph.entity? i = some f →
      k.ownerOf f.data = some o
  /-- What is there is listed once with an owner that is there. -/
  once : ∀ {owner member : Kind} (k : Link owner member) (o : EntityId owner) e i f,
    (after l cs).graph.entity? o = some e → (after l cs).graph.entity? i = some f →
      k.ownerOf f.data = some o →
      ∃ xs, k.members e.data = some xs ∧ xs.toList.count i = 1
  /-- An instance that is placed in the module it is an instance of is listed once for
      either reason. -/
  twice : ∀ (m : EntityId .module) e, (after l cs).graph.entity? m = some e →
    ∀ i ∈ children (history cs) .uses m, i ∈ children (history cs) .contents m →
      e.data.uses.toList.count i = 1 ∧
        ∃ b, e.data.body = some b ∧ b.contents.toList.count i = 1

/-- **Whatever the calls, the lists of an owner are the children it was given.** -/
theorem collections_are_children (l : Logger) (cs : List Call) : Design.Collections l cs := by
  have hg := reached_after l cs
  have he := hg.enrolled
  -- a list that a child is in is there, and has it once
  have honce : ∀ {owner member : Kind} (k : Link owner member) (o : EntityId owner) e i,
      (Design.after l cs).graph.entity? o = some e → i ∈ children (history cs) k o →
      ∃ xs, k.members e.data = some xs ∧ xs.toList.count i = 1 := by
    intro owner member k o e i ho hi
    have hlist := he.members_eq (k := k) ho
    rcases hk : k.members e.data with _ | xs
    · rw [← hlist, hk] at hi
      cases hi
    · rw [hk] at hlist
      refine ⟨xs, rfl, ?_⟩
      rw [show xs.toList = _ from hlist]
      exact List.count_eq_one_of_mem he.nodup_children hi
  refine ⟨?_, ?_, ?_, ?_, ?_, ?_, ?_, ?_⟩
  · intro owner member k o e xs ho hk
    have hlist := he.members_eq (k := k) ho
    rwa [hk] at hlist
  · intro owner member k o e ho hk
    rw [← he.members_eq ho, hk]
    rfl
  · intro owner member k o i
    exact mem_children_history l
  · intro owner member k o
    exact he.pairwise_children
  · intro owner member k o
    exact he.nodup_children
  · intro owner member k o i hi f hf
    exact hg.ownerOf_of_mem hi hf
  · intro owner member k o e i f ho hf hk
    exact honce k o e i ho (hg.mem_of_ownerOf hf hk)
  · intro m e hm i huses hcontents
    obtain ⟨xs, hxs, hcount⟩ := honce .uses m e i hm huses
    cases hxs
    obtain ⟨ys, hys, hcount'⟩ := honce .contents m e i hm hcontents
    obtain ⟨b, hb, rfl⟩ := Option.map_eq_some_iff.1 hys
    exact ⟨hcount, b, hb, hcount'⟩

end DesignGraph
