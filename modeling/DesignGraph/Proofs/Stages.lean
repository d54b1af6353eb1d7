/-
  Stages — why a request that is carried out in stages never stops half-way.

  Each stage is compared with what `Graph.install` does at once.  `Graph.place` is the
  graph with a new object and nothing else; writing a constant of the new object gives
  the graph in which the object was placed with that constant (`constants_place`), so
  the stages add up to `Graph.install`.

  * `Work.object_eq`, `ownConstants_place`, `listWith_eq`: what the stages do.  The
    work may end at the parent or at the arena, before anything is changed; from then
    on every stage succeeds;
  * `Work.build_eq`, `Work.create_eq`: in stages or at once, a request comes to the
    same.  This is so because nothing has to be undone: an object that is taken out
    again would leave its number behind;
  * `refused_requests_change_nothing` is what follows for designs.
-/
import DesignGraph.Graph.Stages
import DesignGraph.Proofs.Membership
import DesignGraph.Proofs.Ownership

namespace DesignGraph

/-! ## A new object -/

namespace Graph

variable {g : Graph} {kind : Kind} {given : Option TextsId} {site : StorageHandle × TextArena}

/-- The graph with a new object and its arena. -/
def place (g : Graph) (x : Object) (arena : TextArena) : Graph :=
  { g.keepTexts x.storage arena with objects := (g.objects.alloc x).2 }

/-- The graph in which an arena is there for a new object. -/
def reserve (g : Graph) (given : Option TextsId) : Graph :=
  match given with
  | none => { g with texts := (g.texts.alloc .empty).2 }
  | some _ => g

theorem storage_eq (g : Graph) (given : Option TextsId) : Work.storage given g =
    ⟨(g.site given).map (·.1), if (g.site given).isSome then g.reserve given else g, []⟩ := by
  rcases given with _ | s
  · rfl
  · rcases hs : g.texts.get? s with _ | a <;>
      simp [Work.storage, Work.read, site, reserve, Slots.contains, hs]

theorem objects_reserve (g : Graph) (given : Option TextsId) :
    (g.reserve given).objects = g.objects := by cases given <;> rfl

theorem tables_reserve (g : Graph) (given : Option TextsId) :
    (g.reserve given).tables = g.tables := by cases given <;> rfl

theorem get?_reserve (hs : g.site given = some site) :
    (g.reserve given).texts.get? site.1.id = some site.2 := by
  rcases given with _ | s
  · cases hs
    rw [reserve, StorageHandle.id, Slots.get?_alloc, if_pos rfl]
  · obtain ⟨a, ha, rfl⟩ := Option.map_eq_some_iff.1 hs
    exact ha

theorem modify_reserve (hs : g.site given = some site) (arena : TextArena) :
    ((g.reserve given).texts.modify site.1.id fun _ => arena) =
      (g.keepTexts site.1 arena).texts := by
  rcases given with _ | s
  · cases hs
    exact g.texts.modify_alloc _ _
  · obtain ⟨a, -, rfl⟩ := Option.map_eq_some_iff.1 hs
    rfl

theorem get?_keepTexts (hs : g.site given = some site) (arena : TextArena) :
    (g.keepTexts site.1 arena).texts.get? site.1.id = some arena := by
  rw [← modify_reserve hs, Slots.get?_modify, if_pos rfl, get?_reserve hs]
  rfl

theorem modify_keepTexts (hs : g.site given = some site) (arena arena' : TextArena) :
    ((g.keepTexts site.1 arena).texts.modify site.1.id fun _ => arena') =
      (g.keepTexts site.1 arena').texts := by
  rw [← modify_reserve hs, ← modify_reserve hs, Slots.modify_modify]
  rfl

variable {x : Object} {arena : TextArena}

theorem open?_place (hs : g.site given = some site) (hx : x.storage = site.1) :
    (g.place x arena).open? g.objects.nextId = some (x, arena) := by
  rw [open?_eq_some_iff]
  constructor
  · rw [place, Slots.get?_alloc, if_pos rfl]
  · rw [place, hx]
    exact get?_keepTexts hs arena

/-- A constant can be written to a new object before it is placed. -/
theorem setAttr?_place (hs : g.site given = some site) (hx : x.storage = site.1)
    {name value : String} {c : Bool} {attributes : Attributes} {arena' : TextArena}
    (hset : x.attributes.set arena name value c = some (attributes, arena')) :
    (g.place x arena).setAttr? g.objects.nextId name value c =
      some (g.place { x with attributes } arena') := by
  rw [setAttr?, open?_place hs hx]
  simp only [Option.bind_eq_bind, Option.bind_some, hset]
  have htexts := modify_keepTexts hs arena arena'
  rw [← hx] at htexts
  simp only [place, htexts, g.objects.modify_alloc x, tables_keepTexts]

end Graph

/-! ## Its constants -/

namespace Work

variable {g : Graph} {kind : Kind} {given : Option TextsId} {site : StorageHandle × TextArena}
  {x : Object} {arena arena' : TextArena} {attributes : Attributes}

theorem constant_place (hs : g.site given = some site) (hx : x.storage = site.1)
    {name value : String}
    (hset : x.attributes.set arena name value true = some (attributes, arena')) :
    ∃ s, constant g.objects.nextId name value (g.place x arena) =
        ⟨some s, g.place { x with attributes } arena', []⟩ ∧
      attributes.lookup arena' name = some ⟨s, true⟩ := by
  obtain ⟨s, hl⟩ := Attributes.lookup_set_self hset
  refine ⟨s, ?_, hl⟩
  have hopen : (g.place { x with attributes } arena').open? g.objects.nextId =
      some ({ x with attributes }, arena') := Graph.open?_place hs hx
  simp only [constant, Graph.setAttr?_place hs hx hset, hopen, Option.bind_some, hl]

/-- Under the names, the handles are those of the attributes. -/
def Handles (handles : List (String × Sym)) (attributes : Attributes) (arena : TextArena)
    (names : List String) : Prop :=
  ∀ n ∈ names, handleIn handles n = Graph.handleOf attributes arena n

/-- **Constants that can be written at all can be written one after the other, in
    whichever way.** -/
theorem constants_place (hs : g.site given = some site) {cs : List (String × String)}
    (hx : x.storage = site.1) (hc : x.attributes.sealAll arena cs = .ok (attributes, arena')) :
    ∃ handles, Handles handles attributes arena' (cs.map Prod.fst) ∧
      constants g.objects.nextId cs (g.place x arena) =
        ⟨some handles, g.place { x with attributes } arena', []⟩ ∧
      everyConstant g.objects.nextId cs (g.place x arena) =
        ⟨some handles, g.place { x with attributes } arena', []⟩ ∧
      flags g.objects.nextId cs (g.place x arena) =
        ⟨some (), g.place { x with attributes } arena', []⟩ := by
  induction cs generalizing x arena with
  | nil =>
    cases hc
    refine ⟨[], ?_, rfl, rfl, rfl⟩
    intro n hn
    cases hn
  | cons nv cs ih =>
    obtain ⟨name, value⟩ := nv
    obtain ⟨b, mid, hset, hrest⟩ := Attributes.sealAll_cons_eq_ok.1 hc
    obtain ⟨s, hs', hl⟩ := constant_place hs hx hset
    obtain ⟨handles, hh, h₁, h₂, h₃⟩ := ih (x := { x with attributes := b }) hx hrest
    have hkept := Attributes.lookup_sealAll_of_constant hrest hl
    refine ⟨(name, s) :: handles, ?_, ?_, ?_, ?_⟩
    · intro n hn
      by_cases hname : n = name
      · rw [hname, handleIn, Graph.handleOf, hkept, List.lookup_cons_self]
      · have hmem : n ∈ cs.map Prod.fst := by simpa [hname] using hn
        rw [← hh n hmem, handleIn, handleIn, List.lookup_cons, beq_false_of_ne hname]
    · rw [constants, bind_eq_of_quiet hs', bind_eq_of_quiet h₁]
      rfl
    · rw [everyConstant, bind_eq_of_quiet (attempt_eq hs'), bind_eq_of_quiet (attempt_eq h₂)]
      rfl
    · have hflag : change (fun g' => ((), (g'.setAttr? g.objects.nextId name value true).getD g'))
          (g.place x arena) = ⟨some (), g.place { x with attributes := b } mid, []⟩ := by
        rw [change, Graph.setAttr?_place hs hx hset]
        rfl
      rw [flags, bind_eq_of_quiet hflag, h₃]

/-- The handles that an entity records are those of the constants of its kind. -/
theorem data_congr {request : Request kind} (targetId : Option String)
    {handle handle' : String → Except String Sym}
    (h : ∀ n ∈ (request.ownConstants targetId).map Prod.fst, handle n = handle' n) :
    request.data handle = request.data handle' := by
  cases request with
  | decl name assignment =>
    rcases assignment with _ | t
    · rfl
    · rw [Request.data, Request.data, h "assign" (by simp [Request.ownConstants])]
  | param | adjustment =>
    rw [Request.data, Request.data, h "value" (by simp [Request.ownConstants])]
  | code => rw [Request.data, Request.data, h "code" (by simp [Request.ownConstants])]
  | pin => rw [Request.data, Request.data, h "connection" (by simp [Request.ownConstants])]
  | _ => rfl

/-- The constants of a kind can be written to a new object, and its data are found. -/
theorem ownConstants_place (hs : g.site given = some site) (hx : x.storage = site.1)
    {request : Request kind} {targetId : Option String}
    (hc : x.attributes.sealAll arena (request.ownConstants targetId) = .ok (attributes, arena')) :
    ∃ handles, ownConstants g.objects.nextId request (request.ownConstants targetId)
        (g.place x arena) = ⟨some handles, g.place { x with attributes } arena', []⟩ ∧
      request.data (handleIn handles) = request.data (Graph.handleOf attributes arena') := by
  obtain ⟨handles, hh, hone, hevery, hflags⟩ := constants_place hs hx hc
  have hdata := data_congr targetId hh
  cases request with
  | module => exact ⟨[], by rw [ownConstants, bind_eq_of_quiet hflags]; rfl, rfl⟩
  | param => exact ⟨handles, hevery, hdata⟩
  | _ => exact ⟨handles, hone, hdata⟩

/-! ## The object is made -/

variable {ref : EntityRef} {name : String} {parent : Option Graph.Lineage} {po : Option ObjectId}

theorem writeConstants_eq {a : Attributes} {cs : List (String × String)}
    {r : Attributes × TextArena} (h : a.sealAll arena cs = .ok r) :
    writeConstants a arena cs = r := by
  induction cs generalizing a arena with
  | nil => cases h; rfl
  | cons nv cs ih =>
    obtain ⟨n, v⟩ := nv
    obtain ⟨b, mid, hb, h⟩ := Attributes.sealAll_cons_eq_ok.1 h
    rw [writeConstants, hb]
    exact ih h

/-- The constants that every object has can be written, and the object keeps the
    handles of its id and its name. -/
theorem plainObject_eq (ref : EntityRef) (storage : StorageHandle)
    (hc : Attributes.empty.sealAll arena (Graph.commonConstants ref.kind name parent) =
      .ok (attributes, arena')) :
    ∃ id sym, plainObject ref name parent storage arena =
        ({ id, name := sym, attributes, storage, payload := ref }, arena') ∧
      attributes.lookup arena' "id" = some ⟨id, true⟩ ∧
      attributes.lookup arena' "name" = some ⟨sym, true⟩ := by
  have hreflects := ((Attributes.reflects_empty arena).sealAll hc).1
  have hnodup : ((Graph.commonConstants ref.kind name parent).map Prod.fst).Nodup := by
    cases parent <;> simp [Graph.commonConstants]
  obtain ⟨id, hid, hidText⟩ := hreflects.lookup_constant hnodup
    (n := "id") (v := composeId ref.kind (parent.map (·.name)) name)
    (by simp [Graph.commonConstants])
  obtain ⟨sym, hsym, hsymText⟩ := hreflects.lookup_constant hnodup
    (n := "name") (v := name) (by simp [Graph.commonConstants])
  refine ⟨id, sym, ?_, hid, hsym⟩
  -- both texts are in the arena already, as values of the constants
  simp only [plainObject, writeConstants_eq hc,
    TextArena.insert_of_lookup (TextArena.lookup_eq_some_iff.2 hidText),
    TextArena.insert_of_lookup (TextArena.lookup_eq_some_iff.2 hsymText)]

theorem object_eq_of_lineage (h : g.lineage po = none) :
    object ref name po given g = ⟨none, g, []⟩ := by
  rw [object, bind_eq_of_none (by rw [read, h])]

theorem object_eq_of_site (hl : g.lineage po = some parent) (hs : g.site given = none) :
    object ref name po given g =
      ⟨none, g, [.creatingObject ref.kind name (parent.map (·.id))]⟩ := by
  have hstorage := g.storage_eq given
  simp only [hs, Option.map_none, Option.isSome_none] at hstorage
  rw [object, bind_eq_of_quiet (by rw [read, hl]), bind_eq rfl, bind_eq_of_none hstorage]
  rfl

theorem object_eq (hl : g.lineage po = some parent) (hs : g.site given = some site)
    (hp : plainObject ref name parent site.1 site.2 = (x, arena)) (hx : x.storage = site.1) :
    object ref name po given g = ⟨some g.objects.nextId, g.place x arena,
      [.creatingObject ref.kind name (parent.map (·.id))]⟩ := by
  have hstorage := g.storage_eq given
  simp only [hs, Option.map_some, Option.isSome_some, if_true] at hstorage
  rw [object, bind_eq_of_quiet (by rw [read, hl]), bind_eq rfl, bind_eq_of_quiet hstorage,
    bind_eq_of_quiet (by rw [read, Graph.get?_reserve hs])]
  simp only [hp, change, Graph.objects_reserve, Graph.tables_reserve, Graph.modify_reserve hs,
    Graph.place, Graph.tables_keepTexts, hx]
  rfl

/-! ## The entity is listed -/

variable {owner : Kind} {id : EntityId kind} {ms : List (Membership kind)}

/-- A list that is there stays there while others are extended. -/
theorem isSome_listing_enlist {g : Graph} {m m' : Membership kind}
    (h : (g.listing m.link m.id).isSome) : ((g.enlist id m').listing m.link m.id).isSome := by
  by_cases hm : m = m'
  · subst hm
    rw [Graph.listing_enlist_self, Option.isSome_map]
    exact h
  · rwa [Graph.listing_enlist_of_ne]
    rintro ⟨⟩
    exact hm rfl

/-- Owners that have the lists take the entity in. -/
theorem listWith_eq (h : ∀ m ∈ ms, (g.listing m.link m.id).isSome) :
    listWith id ms g = ⟨some (), ms.foldl (Graph.enlist · id) g, []⟩ := by
  induction ms generalizing g with
  | nil => rfl
  | cons m ms ih =>
    obtain ⟨xs, hxs⟩ := Option.isSome_iff_exists.1 (h m (List.mem_cons_self ..))
    rw [Graph.listing] at hxs
    have hread : read (fun g => (g.entity? m.id).bind fun e => m.link.members e.data) g =
        ⟨some xs, g, []⟩ := by rw [read, hxs]
    rw [listWith, bind_eq_of_quiet hread, bind_eq_of_quiet rfl, ih]
    · rfl
    · intro m' hm'
      exact isSome_listing_enlist (h m' (List.mem_cons_of_mem _ hm'))

theorem listing_eq {data : Data kind}
    (h : ∀ m ∈ Data.links data, (g.listing m.link m.id).isSome) :
    listing id data g = ⟨some (), (Data.links data).foldl (Graph.enlist · id) g, []⟩ := by
  cases kind with
  | inst => rfl
  | _ => exact listWith_eq h

/-! ## Requests in stages -/

theorem entity_eq (g : Graph) (d : Graph.Draft kind) :
    entity g.objects.nextId d.data (g.place d.object d.arena) = ⟨some (g.tables.get kind).nextId,
      { g.place d.object d.arena with
        tables := g.tables.set ((g.tables.get kind).alloc
          { object := g.objects.nextId, name := d.object.name, data := d.data }).2 }, []⟩ := by
  have htables : (g.place d.object d.arena).tables = g.tables := g.tables_keepTexts _ _
  have hname : read (fun g' => (g'.objects.get? g.objects.nextId).map (·.name))
      (g.place d.object d.arena) = ⟨some d.object.name, g.place d.object d.arena, []⟩ := by
    rw [read, Graph.place, Slots.get?_alloc, if_pos rfl]
    rfl
  rw [entity, bind_eq_of_quiet hname, change, htables]

/-- The object of a granted request is the plain one with the constants of its kind. -/
theorem exists_plainObject {request : Request kind} (gr : g.Grant request given) :
    ∃ x mid, plainObject ⟨kind, (g.tables.get kind).nextId⟩ gr.plan.name gr.parent gr.site.1
        gr.site.2 = (x, mid) ∧ x.storage = gr.site.1 ∧
      x.attributes.sealAll mid gr.plan.constants =
        .ok (gr.draft.object.attributes, gr.draft.arena) ∧
      { x with attributes := gr.draft.object.attributes } = gr.draft.object := by
  obtain ⟨b, mid, hcommon, hown⟩ := Attributes.sealAll_append_eq_ok.1 gr.drafts.sealed
  obtain ⟨id, sym, hplain, hid, hname⟩ :=
    plainObject_eq ⟨kind, (g.tables.get kind).nextId⟩ gr.site.1 hcommon
  refine ⟨_, mid, hplain, rfl, hown, ?_⟩
  -- the handles were read before the constants of the kind were written, and are kept
  have hid' := Attributes.lookup_sealAll_of_constant hown hid
  have hname' := Attributes.lookup_sealAll_of_constant hown hname
  rw [gr.lookup_id, Option.some.injEq, Attribute.mk.injEq] at hid'
  rw [gr.lookup_name, Option.some.injEq, Attribute.mk.injEq] at hname'
  rw [← hid'.1, ← hname'.1, ← gr.drafts.storage, ← gr.drafts.payload]

/-- Once the parent and the arena are found, the object is made and takes all its constants. -/
theorem exists_constants {request : Request kind} (gr : g.Grant request given) :
    ∃ x mid handles, object ⟨kind, (g.tables.get kind).nextId⟩ gr.plan.name gr.plan.parent given g =
        ⟨some g.objects.nextId, g.place x mid,
          [.creatingObject kind gr.plan.name (gr.parent.map (·.id))]⟩ ∧
      ownConstants g.objects.nextId request gr.plan.constants (g.place x mid) =
        ⟨some handles, g.place gr.draft.object gr.draft.arena, []⟩ ∧
      request.data (handleIn handles) = .ok gr.draft.data := by
  obtain ⟨x, mid, hplain, hx, hown, hdraft⟩ := exists_plainObject gr
  obtain ⟨handles, hconstants, hdata⟩ :=
    ownConstants_place gr.site_eq hx (gr.plans.constants ▸ hown)
  rw [hdraft, ← gr.plans.constants] at hconstants
  rw [gr.drafts.data] at hdata
  exact ⟨x, mid, handles, object_eq gr.lineage_eq gr.site_eq hplain hx, hconstants, hdata⟩

/-- **No stage fails once the parent and the arena are found, and together the stages
    put the new entity into the graph.** -/
theorem fulfil_eq {request : Request kind} (gr : g.Grant request given) :
    fulfil request given gr.plan g = ⟨some (g.tables.get kind).nextId, (g.install gr.draft).2,
      [.creatingObject kind gr.plan.name (gr.parent.map (·.id))]⟩ := by
  obtain ⟨x, mid, handles, hobject, hconstants, hdata⟩ := exists_constants gr
  have hlists : ∀ m ∈ Data.links gr.draft.data, (({ g.place gr.draft.object gr.draft.arena with
      tables := g.tables.set ((g.tables.get kind).alloc
        { object := g.objects.nextId, name := gr.draft.object.name, data := gr.draft.data }).2 }
      : Graph).listing m.link m.id).isSome := by
    intro m hm
    have hask := gr.mem_links.1 hm
    obtain ⟨xs, hxs⟩ := gr.exists_listing hask
    rw [Graph.listing_alloc (gr.issued_of_asked hask) rfl, hxs]
    rfl
  rw [fulfil, bind_eq_of_quiet rfl, bind_eq hobject, bind_eq_of_quiet (orUndo_eq hconstants),
    bind_eq_of_quiet (by rw [read, hdata]; rfl), bind_eq_of_quiet (entity_eq g gr.draft),
    bind_eq_of_quiet (listing_eq hlists), Graph.install_eq]
  rfl

theorem planned_eq {request : Request kind} {plan : Plan} (h : g.plan request = .ok plan) :
    planned request g = ⟨some plan, g, plan.announced⟩ := by
  simp only [planned, h]

theorem fulfil_eq_of_object {request : Request kind} {plan : Plan} {g' : Graph}
    {notes : List Note}
    (h : object ⟨kind, (g.tables.get kind).nextId⟩ plan.name plan.parent given g =
      ⟨none, g', notes⟩) : fulfil request given plan g = ⟨none, g', notes⟩ := by
  rw [fulfil, bind_eq_of_quiet rfl, bind_eq_of_none h]

/-- **A request comes to the same, in stages or at once.** -/
theorem build_eq (g : Graph) (request : Request kind) (given : Option TextsId) :
    build request given g = g.build request given := by
  rw [build, Graph.build]
  rcases hplan : g.plan request with obstacle | plan
  · exact bind_eq_of_none (by simp only [planned, hplan])
  rw [bind_eq (planned_eq hplan)]
  rcases hl : g.lineage plan.parent with _ | parent
  · rw [fulfil_eq_of_object (object_eq_of_lineage hl), List.append_nil]
    simp only [hl]
  rcases hs : g.site given with _ | site
  · rw [fulfil_eq_of_object (object_eq_of_site hl hs)]
    simp only [hl]
  · obtain ⟨d, hd⟩ := Graph.exists_draft (Graph.plans_of_plan hplan) hl site
    rw [fulfil_eq ⟨plan, parent, site, d, hplan, hl, hs, hd⟩]
    simp only [hl, hd, Graph.install_eq]

/-- **With all that comes with it, a request comes to the same, in stages or at once.** -/
theorem create_eq (g : Graph) (request : Request kind) (given : Option TextsId) :
    create request given g = g.create request given := by
  cases request with
  | module name ilm resource =>
    cases resource with
    | true => exact build_eq g _ given
    | false =>
      have houter := build_eq g (.module name ilm false) given
      rw [create, Graph.create, Graph.createGenerative]
      rcases hbuilt : g.build (.module name ilm false) given with ⟨_ | id, g', notes⟩
      · exact bind_eq_of_none (houter.trans hbuilt)
      · rcases hinst : g'.build (.inst name id none) given with ⟨inst, g'', notes'⟩
        have hinner := attempt_eq ((build_eq g' (.inst name id none) given).trans hinst)
        rw [bind_eq (houter.trans hbuilt), bind_eq hinner, bind_eq_of_quiet rfl]
        simp only [Graph.addDefaultInstance, hinst, pure, List.append_nil]
  | _ => exact build_eq g _ given

end Work

/-! ## Refused requests -/

/-- What is left of a request that is refused after some calls. -/
structure Design.Atomic (l : Logger) (cs : List Call) : Prop where
  /-- Carried out in stages, a request has the same answer, graph and notes. -/
  staged : ∀ {kind : Kind} (request : Request kind) (given : Option TextsId),
    Work.create request given (after l cs).graph = (after l cs).graph.create request given
  /-- If it is refused, all of the graph is as it was, -/
  refused : ∀ {kind : Kind} (request : Request kind) (given : Option TextsId),
    ((after l cs).perform (.create request given)).1 = .created none →
      ((after l cs).perform (.create request given)).2.graph = (after l cs).graph
  /-- also after work that has ended at some stage. -/
  ended : ∀ {kind : Kind} (request : Request kind) (given : Option TextsId),
    (Work.create request given (after l cs).graph).result = none →
      (Work.create request given (after l cs).graph).graph = (after l cs).graph
  /-- Later calls find nothing of it. -/
  dropped : ∀ {kind : Kind} (request : Request kind) (given : Option TextsId) (ds : List Call),
    ((after l cs).perform (.create request given)).1 = .created none →
      (after l (cs ++ .create request given :: ds)).graph = (after l (cs ++ ds)).graph

/-- **Whatever the calls, a refused request leaves nothing behind.** -/
theorem refused_requests_change_nothing (l : Logger) (cs : List Call) : Design.Atomic l cs := by
  have hrefused : ∀ c, ((Design.after l cs).graph.perform c).result = .created none →
      ((Design.after l cs).graph.perform c).graph = (Design.after l cs).graph :=
    fun c => Graph.graph_perform_of_refused
  refine ⟨?_, ?_, ?_, ?_⟩
  · intro kind request given
    exact Work.create_eq _ request given
  · intro kind request given h
    exact hrefused _ h
  · intro kind request given h
    rw [Work.create_eq] at h ⊢
    exact Graph.graph_create_of_none h
  · intro kind request given ds h
    have hgraph := hrefused _ h
    rw [Design.graph_after] at hgraph
    rw [Design.graph_after, Design.graph_after, Graph.after_append, Graph.after_append,
      Graph.after, hgraph]

/-- A request that is refused for its arena has been announced all the same. -/
example : let g := Graph.empty.after [.create (.module "top" false true) none]
    (Work.create (.port "clk" .input ⟨0⟩) (some ⟨7⟩) g).result = none ∧
      (Work.create (.port "clk" .input ⟨0⟩) (some ⟨7⟩) g).notes =
        [.creatingObject .port "clk" (some "module::top")] := by
  decide +kernel

end DesignGraph
