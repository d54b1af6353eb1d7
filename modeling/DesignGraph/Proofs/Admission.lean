/-
  Admission — which requests are granted, and what a granted request makes.

  A request depends on the entities that it names and on the arena that it asks
  for.  Whether it can be granted is decided before anything changes
  (`Graph.usable`, `Graph.storable`), and what happens afterwards cannot fail.

  * `Graph.readable`, `generative`, `storable` say what can be had of an entity, of
    a module and of an arena; `usable` what a request needs of those it names;
  * `Reached.legible`: an entity whose arena is there has a name and an id, so
    `exists_plan_iff` and `Reached.create_result` hold in every graph that is
    reached: a request is granted if and only if it is usable and storable;
  * `Request.Fits` says which data a request asks for; what was born has them
    (`Reached.fitting`), and is there when it was just born
    (`Reached.shows_of_created`);
  * `requests_are_granted_iff_usable` is what follows for designs.
-/
import DesignGraph.Proofs.Identity
import DesignGraph.Proofs.Ownership

namespace DesignGraph

/-! ## What a request needs -/

namespace Graph

/-- Whether an entity is there, and its texts are. -/
def readable (g : Graph) {kind : Kind} (id : EntityId kind) : Bool :=
  (g.entity? id).any fun e => (g.open? e.object).isSome

/-- Whether a module is there and is no resource. -/
def generative (g : Graph) (id : EntityId .module) : Bool :=
  (g.entity? id).any fun m => !m.data.isResource

/-- Whether an arena can be had: one of its own always, a given one while it is
    there. -/
def storable (g : Graph) (storage : Option TextsId) : Bool :=
  storage.all fun s => (g.texts.get? s).isSome

/-- Whether the entities that a request names can be used in it.  The parent of a
    register file lends it neither name nor id, and need not be readable. -/
def usable (g : Graph) : {kind : Kind} → Request kind → Bool
  | _, .module .. => true
  | _, .inst _ target parent =>
    g.readable target && parent.all fun p => g.readable p && g.generative p
  | _, .port _ _ parent => g.readable parent
  | _, .param _ _ _ parent => g.readable parent
  | _, .decl _ _ _ parent => g.readable parent && g.generative parent
  | _, .code _ _ parent => g.readable parent && g.generative parent
  | _, .pin _ _ parent => g.readable parent
  | _, .adjustment _ _ parent => g.readable parent
  | _, .regfile _ parent => g.generative parent
  | _, .entry _ parent => g.readable parent
  | _, .register _ parent => g.readable parent

/-- What can be opened has a name and an id. -/
def Legible (g : Graph) : Prop :=
  ∀ (r : EntityRef) (e : Entity r.kind), g.entity? r.id = some e → (g.open? e.object).isSome →
    ∃ name text, g.objectName e.object = some name ∧ g.objectId e.object = some text

variable {g : Graph} {kind k : Kind}

theorem readable_iff {id : EntityId kind} :
    g.readable id = true ↔ ∃ e, g.entity? id = some e ∧ (g.open? e.object).isSome := by
  unfold readable
  rcases g.entity? id with _ | e <;> simp

/-- A module is no resource if it has a list that resources lack. -/
theorem generative_iff {member : Kind} {id : EntityId .module} {l : Link .module member}
    (hl : l.inBody) :
    g.generative id = true ↔ ∃ m xs, g.entity? id = some m ∧ l.members m.data = some xs := by
  unfold generative
  rcases g.entity? id with _ | m
  · simp
  · have hsome := l.isSome_members hl m.data
    simp [← hsome, Option.isSome_iff_exists]

/-- A text of an object is there only while the object can be opened. -/
theorem open?_of_objectId {o : ObjectId} {t : String} (h : g.objectId o = some t) :
    (g.open? o).isSome := by
  obtain ⟨xa, hxa, -⟩ := Option.bind_eq_some_iff.1 h
  exact hxa ▸ rfl

namespace Legible

/-- The texts of a structural parent are found if they are there. -/
theorem exists_lineage (hg : g.Legible) {id : EntityId kind} {e : Entity kind}
    (he : g.entity? id = some e) :
    (∃ parent, g.lineage (some e.object) = some parent) ↔ (g.open? e.object).isSome := by
  constructor
  · rintro ⟨parent, hl⟩
    obtain ⟨name, -, hid⟩ := Option.bind_eq_some_iff.1 hl
    obtain ⟨t, ht, -⟩ := Option.map_eq_some_iff.1 hid
    exact open?_of_objectId ht
  · intro hopen
    obtain ⟨name, t, hn, ht⟩ := hg ⟨_, id⟩ e he hopen
    exact ⟨some ⟨name, t⟩, by rw [lineage, hn, ht]; rfl⟩

theorem exists_parentObject (hg : g.Legible) {id : EntityId kind} :
    (∃ o parent, g.parentObject id = .ok o ∧ g.lineage o = some parent) ↔
      g.readable id = true := by
  rw [readable_iff]
  constructor
  · rintro ⟨o, parent, ho, hl⟩
    obtain ⟨e, he, rfl⟩ := parentObject_eq_ok.1 ho
    exact ⟨e, he, (hg.exists_lineage he).1 ⟨parent, hl⟩⟩
  · rintro ⟨e, he, hopen⟩
    obtain ⟨parent, hl⟩ := (hg.exists_lineage he).2 hopen
    exact ⟨some e.object, parent, parentObject_eq_ok.2 ⟨e, he, rfl⟩, hl⟩

theorem exists_needList (hg : g.Legible) {member : Kind} {l : Link .module member} (hl : l.inBody)
    (refusal : Entity .module → Note) {id : EntityId .module} :
    (∃ m xs parent, g.needList id l refusal = .ok (m, xs) ∧
      g.lineage (some m.object) = some parent) ↔ (g.readable id && g.generative id) = true := by
  rw [Bool.and_eq_true, readable_iff, generative_iff hl]
  constructor
  · rintro ⟨m, xs, parent, hm, hparent⟩
    obtain ⟨hm, hxs⟩ := needList_eq_ok.1 hm
    exact ⟨⟨m, hm, (hg.exists_lineage hm).1 ⟨parent, hparent⟩⟩, m, xs, hm, hxs⟩
  · rintro ⟨⟨m, hm, hopen⟩, m', xs, hm', hxs⟩
    rw [hm] at hm'
    cases hm'
    obtain ⟨parent, hparent⟩ := (hg.exists_lineage hm).2 hopen
    exact ⟨m, xs, parent, needList_eq_ok.2 ⟨hm, hxs⟩, hparent⟩

/-- A plan that only a missing list can stand in the way of. -/
theorem exists_plan_of_needList {member : Kind} {id : EntityId .module} {l : Link .module member}
    {refusal : Entity .module → Note}
    {f : Entity .module × Array (EntityId member) → Except Obstacle Plan}
    (hf : ∀ mxs, ∃ plan, f mxs = .ok plan ∧ plan.parent = some mxs.1.object) :
    (∃ plan parent, (g.needList id l refusal >>= f) = .ok plan ∧
      g.lineage plan.parent = some parent) ↔
    ∃ m xs parent, g.needList id l refusal = .ok (m, xs) ∧
      g.lineage (some m.object) = some parent := by
  simp only [bind_eq_ok]
  constructor
  · rintro ⟨plan, parent, ⟨⟨m, xs⟩, hm, hp⟩, hl⟩
    obtain ⟨plan', hplan, hparent⟩ := hf (m, xs)
    cases hplan.symm.trans hp
    exact ⟨m, xs, parent, hm, hparent ▸ hl⟩
  · rintro ⟨m, xs, parent, hm, hl⟩
    obtain ⟨plan, hplan, hparent⟩ := hf (m, xs)
    exact ⟨plan, parent, ⟨(m, xs), hm, hplan⟩, hparent ▸ hl⟩

theorem exists_targetId (hg : g.Legible) {id : EntityId .module} :
    (∃ t, g.targetId id = .ok t) ↔ g.readable id = true := by
  simp only [targetId_eq_ok, Option.bind_eq_some_iff, readable_iff]
  constructor
  · rintro ⟨t, m, hm, ht⟩
    exact ⟨m, hm, open?_of_objectId ht⟩
  · rintro ⟨m, hm, hopen⟩
    obtain ⟨-, t, -, ht⟩ := hg ⟨_, id⟩ m hm hopen
    exact ⟨t, m, hm, ht⟩

theorem exists_placeOf (hg : g.Legible) (name : String) {place : Option (EntityId .module)} :
    (∃ o parent, g.placeOf name place = .ok o ∧ g.lineage o = some parent) ↔
      (place.all fun p => g.readable p && g.generative p) = true := by
  rcases place with _ | p
  · exact ⟨fun _ => rfl, fun _ => ⟨none, none, rfl, rfl⟩⟩
  · rw [Option.all_some, ← hg.exists_needList (l := .contents) rfl fun m =>
      .instanceInResource name (g.nameOf m)]
    constructor
    · rintro ⟨o, parent, ho, hl⟩
      obtain ⟨⟨m, xs⟩, hm, rfl⟩ := map_eq_ok.1 ho
      exact ⟨m, xs, parent, hm, hl⟩
    · rintro ⟨m, xs, parent, hm, hl⟩
      exact ⟨some m.object, parent, map_eq_ok.2 ⟨(m, xs), hm, rfl⟩, hl⟩

/-- **A request is planned, and its parent can be read, if and only if those that it
    names can be used.** -/
theorem exists_plan_iff (hg : g.Legible) {request : Request kind} :
    (∃ plan parent, g.plan request = .ok plan ∧ g.lineage plan.parent = some parent) ↔
      g.usable request = true := by
  cases request with
  | module name ilm resource => exact ⟨fun _ => rfl, fun _ => ⟨_, none, rfl, rfl⟩⟩
  | inst name target place =>
    rw [usable, Bool.and_eq_true, ← hg.exists_targetId, ← hg.exists_placeOf name]
    simp only [plan, bind_eq_ok]
    constructor
    · rintro ⟨plan, parent, ⟨t, ht, o, ho, hp⟩, hl⟩
      cases hp
      exact ⟨⟨t, ht⟩, o, parent, ho, hl⟩
    · rintro ⟨⟨t, ht⟩, o, parent, ho, hl⟩
      exact ⟨_, parent, ⟨t, ht, o, ho, rfl⟩, hl⟩
  | decl =>
    rw [usable, ← hg.exists_needList (l := .decls) rfl]
    exact exists_plan_of_needList fun _ => ⟨_, rfl, rfl⟩
  | code =>
    rw [usable, ← hg.exists_needList (l := .code) rfl]
    exact exists_plan_of_needList fun _ => ⟨_, rfl, rfl⟩
  | regfile name id =>
    rw [usable, generative_iff (l := .regfiles) rfl]
    simp only [plan, bind_eq_ok]
    constructor
    · rintro ⟨plan, parent, ⟨⟨m, xs⟩, hm, -⟩, -⟩
      exact ⟨m, xs, needList_eq_ok.1 hm⟩
    · rintro ⟨m, xs, hm⟩
      exact ⟨_, none, ⟨(m, xs), needList_eq_ok.2 hm, rfl⟩, rfl⟩
  | port | param | pin | adjustment | entry | register =>
    rw [usable, ← hg.exists_parentObject]
    simp only [plan, bind_eq_ok]
    constructor
    · rintro ⟨plan, parent, ⟨o, ho, hp⟩, hl⟩
      cases hp
      exact ⟨o, parent, ho, hl⟩
    · rintro ⟨o, parent, ho, hl⟩
      exact ⟨_, parent, ⟨o, ho, rfl⟩, hl⟩

end Legible

theorem exists_site_iff {storage : Option TextsId} :
    (∃ site, g.site storage = some site) ↔ g.storable storage = true := by
  rcases storage with _ | s
  · exact ⟨fun _ => rfl, fun _ => ⟨_, rfl⟩⟩
  · simp [site, storable, Option.isSome_iff_exists]

/-- **A request that is carried out alone is granted if and only if it is usable and its
    arena can be had.** -/
theorem Legible.build_result (hg : g.Legible) (request : Request kind)
    (storage : Option TextsId) : (g.build request storage).result =
      if g.usable request && g.storable storage then some (g.tables.get kind).nextId else none := by
  split
  · next h =>
    rw [Bool.and_eq_true] at h
    obtain ⟨plan, parent, hp, hl⟩ := hg.exists_plan_iff.2 h.1
    obtain ⟨site, hs⟩ := exists_site_iff.2 h.2
    exact build_of_site hp hl hs
  · next h =>
    rcases g.build_cases request storage with ⟨hr, -⟩ | ⟨gr, -, -⟩
    · exact hr
    · refine absurd ?_ h
      rw [Bool.and_eq_true, ← hg.exists_plan_iff, ← exists_site_iff]
      exact ⟨⟨gr.plan, gr.parent, gr.plan_eq, gr.lineage_eq⟩, gr.site, gr.site_eq⟩

theorem create_result (g : Graph) (request : Request kind) (storage : Option TextsId) :
    (g.create request storage).result = (g.build request storage).result := by
  cases request with
  | module name ilm resource =>
    cases resource with
    | true => rfl
    | false =>
      simp only [create, createGenerative]
      rcases hr : (g.build (.module name ilm false) storage).result with _ | id
      · exact hr
      · rfl
  | _ => rfl

theorem graph_create_generative {name : String} {ilm : Bool} {storage : Option TextsId}
    {id : EntityId .module} {g₁ : Graph}
    (hr : (g.build (.module name ilm false) storage).result = some id)
    (hg : (g.build (.module name ilm false) storage).graph = g₁) :
    (g.create (.module name ilm false) storage).graph =
      (g₁.build (.inst name id none) storage).graph.modifyData id
        (·.appoint (g₁.build (.inst name id none) storage).result) := by
  simp only [create, createGenerative, hr, hg]; rfl

/-- A request is granted, perhaps with more to follow, or the graph stays as it is. -/
theorem create_cases (g : Graph) (request : Request kind) (storage : Option TextsId) :
    ((g.create request storage).result = none ∧ (g.create request storage).graph = g) ∨
    ∃ gr : g.Grant request storage,
      (g.create request storage).result = some (g.tables.get kind).nextId ∧
      ∃ k, g.createEvents request storage = .birth (g.birth request storage) :: k ∧
        Steps Growth (g.install gr.draft).2 k (g.create request storage).graph := by
  rcases g.build_cases request storage with ⟨hr, -⟩ | ⟨gr, hr, hg⟩
  · rw [← create_result] at hr
    exact Or.inl ⟨hr, graph_create_of_none hr⟩
  · refine Or.inr ⟨gr, (g.create_result request storage).trans hr, ?_⟩
    cases request with
    | module name ilm resource =>
      cases resource with
      | true => exact ⟨[], by simp [createEvents, buildEvents, hr], hg ▸ .refl⟩
      | false =>
        have hi := (g.install gr.draft).2.growth_build
          (.inst name (g.tables.get .module).nextId none) storage
        refine ⟨_, ?_, graph_create_generative hr hg ▸ hi.quiet (.appoint _ _)⟩
        simp only [createEvents, buildEvents, hr, hg]; rfl
    | _ => exact ⟨[], by simp [createEvents, buildEvents, hr], hg ▸ .refl⟩

end Graph

/-! ## Data that were asked for -/

/-- Whether data are what was asked for; handles are read by `text`. -/
def Request.Fits (text : Sym → Option String) : {kind : Kind} → Request kind → Data kind → Prop
  | _, .module _ ilm resource, m => m.ilm = ilm ∧ m.isResource = resource
  | _, .inst _ target parent, i => i.target = target ∧ i.parent = parent
  | _, .port _ direction parent, p => p.direction = direction ∧ p.parent = parent
  | _, .param _ value isLocal parent, p =>
    text p.value = some value ∧ p.isLocal = isLocal ∧ p.parent = parent
  | _, .decl _ assignment defaultType parent, d =>
    d.assignment.map text = assignment.map some ∧ d.defaultType = defaultType ∧ d.parent = parent
  | _, .code _ source parent, c => text c.code = some source ∧ c.parent = parent
  | _, .pin _ connection parent, p => text p.connection = some connection ∧ p.parent = parent
  | _, .adjustment _ value parent, a => text a.value = some value ∧ a.parent = parent
  | _, .regfile _ parent, r => r.parent = parent
  | _, .entry _ parent, e => e.parent = parent
  | _, .register _ parent, r => r.parent = parent

namespace Request

variable {kind : Kind} {request : Request kind} {text text' : Sym → Option String} {d : Data kind}

theorem fits_bare : request.Fits text d.bare ↔ request.Fits text d := by
  cases request with
  | module => simp [Fits, Data.bare, Module.isResource]
  | _ => rfl

theorem Fits.mono (hf : request.Fits text d)
    (hx : ∀ s t, text s = some t → text' s = some t) : request.Fits text' d := by
  cases request with
  | decl _ assignment =>
    obtain ⟨recorded, _, _⟩ := d
    obtain ⟨hd, hrest⟩ := hf
    refine ⟨?_, hrest⟩
    rcases recorded with _ | s <;> rcases assignment with _ | t
    · rfl
    · cases hd
    · cases hd
    · exact congrArg some (hx s t (Option.some.inj hd))
  | param | code | pin | adjustment => exact ⟨hx _ _ hf.1, hf.2⟩
  | _ => exact hf

/-- The handles that an entity records are those of what was asked for. -/
theorem fits_data (targetId : Option String) {handle : String → Except String Sym}
    (h : request.data handle = .ok d)
    (hh : ∀ n v, (n, v) ∈ request.ownConstants targetId → ∀ s, handle n = .ok s →
      text s = some v) : request.Fits text d := by
  cases request with
  | module name ilm resource => cases h; cases resource <;> exact ⟨rfl, rfl⟩
  | decl _ assignment =>
    rcases assignment with _ | t
    · cases h; exact ⟨rfl, rfl, rfl⟩
    · obtain ⟨s, hs, rfl⟩ := Graph.map_eq_ok.1 h
      exact ⟨congrArg some (hh "assign" t (by simp [ownConstants]) s hs), rfl, rfl⟩
  | param _ value =>
    obtain ⟨s, hs, rfl⟩ := Graph.map_eq_ok.1 h
    exact ⟨hh "value" value (by simp [ownConstants]) s hs, rfl, rfl⟩
  | code _ text =>
    obtain ⟨s, hs, rfl⟩ := Graph.map_eq_ok.1 h
    exact ⟨hh "code" text (by simp [ownConstants]) s hs, rfl⟩
  | pin _ connection =>
    obtain ⟨s, hs, rfl⟩ := Graph.map_eq_ok.1 h
    exact ⟨hh "connection" connection (by simp [ownConstants]) s hs, rfl⟩
  | adjustment _ value =>
    obtain ⟨s, hs, rfl⟩ := Graph.map_eq_ok.1 h
    exact ⟨hh "value" value (by simp [ownConstants]) s hs, rfl⟩
  | inst | port => cases h; exact ⟨rfl, rfl⟩
  | regfile | entry | register => cases h; exact rfl

end Request

namespace Graph.Grant

variable {g : Graph} {kind : Kind} {request : Request kind} {storage : Option TextsId}

theorem readIn (gr : g.Grant request storage) :
    (g.birth request storage).ReadIn gr.draft.object gr.draft.arena :=
  .ofReflects gr.reflects gr.lookup_id gr.lookup_name

theorem fits (gr : g.Grant request storage) :
    request.Fits gr.draft.arena.resolve gr.draft.data := by
  refine Request.fits_data (g.birth request storage).targetId gr.drafts.data ?_
  intro n v hnv s hs
  exact gr.readIn.resolve_of_lookup (List.mem_append_right _ hnv) (gr.lookup_of_handleOf hs)

theorem open?_install (gr : g.Grant request storage) :
    (g.install gr.draft).2.open? g.objects.nextId = some (gr.draft.object, gr.draft.arena) := by
  rw [open?_eq_some_iff, get?_objects_install, if_pos rfl, gr.get?_texts, if_pos]
  · exact ⟨rfl, rfl⟩
  · rw [gr.storage_eq]

end Graph.Grant

/-- What was born has the data that were asked for, as far as it can be read. -/
def Fitting (h : List Event) (g : Graph) : Prop :=
  ∀ b ∈ births h, ∀ e, g.bare? b.id = some e → ∀ x a, g.open? b.object = some (x, a) →
    b.request.Fits a.resolve e.data

variable {g g' : Graph} {h es : List Event}

theorem Step.fitting (hs : Step g es g') (hr : Registered h g) (hf : Fitting h g) :
    Fitting (h ++ es) g' := by
  intro b hb e he x a hopen
  rw [births_append, List.mem_append] at hb
  rcases hb with hb | hb
  · have he' := hs.later.entities b.id e (hr.ref_issued b hb) he
    obtain ⟨y, c, hyc, -, hext⟩ := hr.open?_of_later hs.later (hr.object_issued b hb) hopen
    exact (hf b hb e he' y c hyc).mono hext
  · obtain ⟨kind, request, storage, gr, rfl, rfl⟩ := hs.grant_of_birth hb
    cases (Graph.bare?_install_self gr.draft).symm.trans he
    cases gr.open?_install.symm.trans hopen
    exact Request.fits_bare.2 gr.fits

theorem Reached.fitting (hg : Reached h g) : Fitting h g := by
  induction hg with
  | refl => intro b hb; cases hb
  | step hs hstep ih => exact hstep.fitting (Reached.registered hs) ih

/-! ## What a granted request makes -/

theorem Reached.legible (hg : Reached h g) : g.Legible := by
  intro r e he hopen
  obtain ⟨b, hb, rfl⟩ := hg.exists_birth he
  have htells := hg.tells hb he hopen
  exact ⟨_, _, htells.name.2.1, htells.id.2.1⟩

/-- **A request is granted if and only if it is usable and its arena can be had.** -/
theorem Reached.create_result (hg : Reached h g) {kind : Kind} (request : Request kind)
    (storage : Option TextsId) : (g.create request storage).result =
      if g.usable request && g.storable storage then some (g.tables.get kind).nextId else none := by
  rw [Graph.create_result, hg.legible.build_result]

/-- An entity that is there, and is what its birth says. -/
structure Graph.Shows (g : Graph) (b : Birth) (e : Entity b.kind) : Prop where
  entity : g.entity? b.id = some e
  object : e.object = b.object
  storage : (g.objects.get? e.object).map (·.storage) = some b.storage
  name : g.nameOf e = some b.name
  id : g.idOf e = some b.composedId
  fits : b.request.Fits (g.resolve e) e.data

theorem Reached.exists_shows (hg : Reached h g) {b : Birth} (hb : b ∈ births h)
    (hopen : (g.open? b.object).isSome) : ∃ e, g.Shows b e := by
  obtain ⟨⟨x, a⟩, hxa⟩ := Option.isSome_iff_exists.1 hopen
  have hx := (Graph.open?_eq_some_iff.1 hxa).1
  obtain ⟨f, hf, ho⟩ := hg.aligned.entity _ x hx
  obtain ⟨c, hc, hobj, href, hst⟩ := hg.registered.born _ x hx
  obtain rfl := hg.registered.object_inj c hc b hb hobj
  obtain ⟨e, he, hfe⟩ : ∃ e, g.entity? c.id = some e ∧ e.object = c.object := by
    obtain ⟨xid, xname, xattributes, xstorage, xpayload⟩ := x
    cases href
    obtain ⟨e, he, rfl⟩ := Option.map_eq_some_iff.1 hf
    exact ⟨e, he, ho⟩
  have htells := hg.tells hb he (hfe ▸ hopen)
  refine ⟨e, he, hfe, ?_, htells.name.1, htells.id.1, ?_⟩
  · rw [hfe, hx, hst]; rfl
  · have hfits := hg.fitting c hb e.bare (Graph.bare?_of_entity? he) x a hxa
    refine (Request.fits_bare.1 hfits).mono fun s t hs => ?_
    rw [Graph.resolve, hfe, hxa]
    exact hs

/-- What was just made can be read. -/
theorem Graph.Grant.isSome_open? {kind : Kind} {request : Request kind}
    {storage : Option TextsId} (gr : g.Grant request storage) {k : List Event}
    (hs : Steps Growth (g.install gr.draft).2 k g') :
    (g'.open? (g.birth request storage).object).isSome := by
  obtain ⟨hx, ha⟩ := Graph.open?_eq_some_iff.1 gr.open?_install
  obtain ⟨y, hy, hxy⟩ := hs.keeps.object _ _ hx
  have hb := hs.keeps.arena gr.draft.object.storage.id (by rw [ha]; rfl)
  rw [hxy.storage] at hb
  obtain ⟨b, hb⟩ := Option.isSome_iff_exists.1 hb
  rw [show (g.birth request storage).object = g.objects.nextId from rfl,
    Graph.open?_eq_some_iff.2 ⟨hy, hb⟩]
  rfl

/-- **An entity that was just made is what was asked for.** -/
theorem Reached.shows_of_created (hg : Reached h g) {kind : Kind} {request : Request kind}
    {storage : Option TextsId} (hr : (g.create request storage).result.isSome) :
    ∃ e, (g.create request storage).graph.Shows (g.birth request storage) e := by
  rcases g.create_cases request storage with ⟨hnone, -⟩ | ⟨gr, -, k, hev, hs⟩
  · rw [hnone] at hr
    cases hr
  · have hg' := Steps.trans hg (g.growth_create request storage).ofGrowth
    refine Reached.exists_shows hg' ?_ (gr.isSome_open? hs)
    rw [mem_births, hev]
    exact List.mem_append_right _ (List.mem_cons_self ..)

/-- What was just made can be named in the next request. -/
theorem Graph.Grant.readable_install {kind : Kind} {request : Request kind}
    {storage : Option TextsId} (gr : g.Grant request storage) :
    (g.install gr.draft).2.readable (g.tables.get kind).nextId = true := by
  obtain ⟨e, he, hbare⟩ := Option.map_eq_some_iff.1 (Graph.bare?_install_self gr.draft)
  have hobject : e.object = g.objects.nextId := congrArg Entity.object hbare
  exact readable_iff.2 ⟨e, he, hobject ▸ gr.isSome_open? .refl⟩

theorem Graph.Grant.storable_install {kind : Kind} {request : Request kind}
    {storage : Option TextsId} (gr : g.Grant request storage) :
    (g.install gr.draft).2.storable storage = true := by
  have hs := exists_site_iff.1 ⟨_, gr.site_eq⟩
  rcases storage with _ | s
  · rfl
  · exact gr.keeps.arena s hs

theorem Graph.Grant.build_result {kind : Kind} {request : Request kind}
    {storage : Option TextsId} (gr : g.Grant request storage) :
    (g.build request storage).result = some (g.tables.get kind).nextId :=
  build_of_site gr.plan_eq gr.lineage_eq gr.site_eq

theorem Graph.Grant.build_graph {kind : Kind} {request : Request kind}
    {storage : Option TextsId} (gr : g.Grant request storage) :
    (g.build request storage).graph = (g.install gr.draft).2 := by
  rw [build, gr.plan_eq]
  simp only [gr.lineage_eq, gr.site_eq, gr.draft_eq]

section
variable {name : String} {ilm resource : Bool} {storage : Option TextsId}

/-- A new module is listed nowhere, so instances are as they were. -/
theorem Graph.Grant.instances_install (gr : g.Grant (.module name ilm resource) storage) :
    (g.install gr.draft).2.tables.get .inst = g.tables.get .inst := by
  rw [Graph.install_eq]
  exact Tables.get_set_of_ne _ _ (show Kind.inst ≠ Kind.module by decide)

/-- **A generative module always gets its default instance.** -/
theorem Reached.default_result (hg : Reached h g) (gr : g.Grant (.module name ilm false) storage) :
    ((g.install gr.draft).2.build (.inst name (g.tables.get .module).nextId none) storage).result =
      some (g.tables.get .inst).nextId := by
  have hg' : Reached _ (g.install gr.draft).2 := hg.step (.grow (.build gr))
  rw [hg'.legible.build_result, Graph.usable, gr.readable_install, gr.storable_install,
    gr.instances_install]
  rfl

theorem Reached.createEvents_generative (hg : Reached h g)
    (gr : g.Grant (.module name ilm false) storage) :
    g.createEvents (.module name ilm false) storage =
      [.birth (g.birth (.module name ilm false) storage),
        .birth ((g.install gr.draft).2.birth (.inst name (g.tables.get .module).nextId none)
          storage)] := by
  simp only [Graph.createEvents, Graph.buildEvents, gr.build_result, gr.build_graph]
  rw [hg.default_result gr]
  rfl

end

/-! ## The requests of designs -/

/-- What becomes of a request after some calls. -/
structure Design.Admission (l : Logger) (cs : List Call) : Prop where
  /-- It is granted if and only if those that it names can be used, and its arena can
      be had; the answer is the next id of its kind. -/
  answer : ∀ {kind : Kind} (request : Request kind) (storage : Option TextsId),
    ((after l cs).graph.perform (.create request storage)).result = .created
      (if (after l cs).graph.usable request && (after l cs).graph.storable storage then
        some ⟨kind, ((after l cs).graph.tables.get kind).nextId⟩ else none)
  /-- If it is granted, the entity is there with all that was asked for. -/
  made : ∀ {kind : Kind} (request : Request kind) (storage : Option TextsId),
    (after l cs).graph.usable request → (after l cs).graph.storable storage →
    ∃ e, ((after l cs).graph.perform (.create request storage)).graph.Shows
      ((after l cs).graph.birth request storage) e

/-- **Whatever the calls, the next request is granted if and only if it is usable.** -/
theorem requests_are_granted_iff_usable (l : Logger) (cs : List Call) :
    Design.Admission l cs := by
  have hg := reached_after l cs
  constructor
  · intro kind request storage
    rw [Graph.perform, hg.create_result request storage]
    split <;> rfl
  · intro kind request storage hu hs
    refine hg.shows_of_created ?_
    rw [hg.create_result request storage, hu, hs]
    rfl

/-- A module that has lost its texts still takes a register file, but no port. -/
example : let g := Graph.empty.after [.create (.module "top" false false) none,
      .create (.module "sub" false false) (some ⟨0⟩), .free (some (⟨0⟩ : EntityId .module))]
    (g.create (.regfile "regs" ⟨1⟩) none).result = some ⟨0⟩ ∧
      (g.create (.port "clk" .input ⟨1⟩) none).result = none := by
  decide +kernel

end DesignGraph
