/-
  Births — what a granted request makes.

  `Birth` is what is known of an entity from the moment it is made: what was
  asked for, its id and object, and the texts of that moment (`name`, `parent`,
  `targetId`).  It is read off the request and the graph before the request
  (`Graph.birth`), without the plan that answers it.

  * `Graph.Plans` and `Graph.Drafts` say what a plan and a draft are made of, and
    `exists_draft` that a plan can always be drafted;
  * `Graph.Grant` is a granted request with all that the answer is made of;
    `build_cases`: a request is granted, or the graph stays as it is;
  * `Grant.parent_eq`, `Grant.constants_eq`, `Grant.storage_eq`, `Grant.holder_data`:
    the new entity is what the birth says;
  * `Grant.reflects`: the object of the new entity has the constants of the birth
    and nothing else; `Grant.lookup_id` and `Grant.lookup_name`: the handles
    that the object keeps are those of its constants.
-/
import DesignGraph.Proofs.Views

namespace DesignGraph

open DesignGraph.Graph (Lineage Draft)

/-! ## What a request names -/

/-- The structural parent.  A register file has none, though it is kept by a
    module. -/
def Request.holder : {kind : Kind} → Request kind → Option EntityRef
  | _, .module .. => none
  | _, .inst _ _ parent => parent.map fun id => ⟨.module, id⟩
  | _, .port _ _ parent => some ⟨.module, parent⟩
  | _, .param _ _ _ parent => some ⟨.module, parent⟩
  | _, .decl _ _ _ parent => some ⟨.module, parent⟩
  | _, .code _ _ parent => some ⟨.module, parent⟩
  | _, .pin _ _ parent => some ⟨.inst, parent⟩
  | _, .adjustment _ _ parent => some ⟨.inst, parent⟩
  | _, .regfile .. => none
  | _, .entry _ parent => some ⟨.regfile, parent⟩
  | _, .register _ parent => some ⟨.entry, parent⟩

/-- The structural parent of an entity, from its data. -/
def Data.holder : {kind : Kind} → Data kind → Option EntityRef
  | .port, p => some ⟨.module, p.parent⟩
  | .pin, p => some ⟨.inst, p.parent⟩
  | .param, p => some ⟨.module, p.parent⟩
  | .adjustment, a => some ⟨.inst, a.parent⟩
  | .decl, d => some ⟨.module, d.parent⟩
  | .code, c => some ⟨.module, c.parent⟩
  | .module, _ => none
  | .inst, i => i.parent.map fun id => ⟨.module, id⟩
  | .register, r => some ⟨.entry, r.parent⟩
  | .entry, e => some ⟨.regfile, e.parent⟩
  | .regfile, _ => none

theorem Data.holder_bare {kind : Kind} (d : Data kind) : d.bare.holder = d.holder := by
  cases kind <;> rfl

/-- The module that an instance is asked of. -/
def Request.target? : {kind : Kind} → Request kind → Option (EntityId .module)
  | _, .inst _ target _ => some target
  | _, _ => none

/-- The constants of a kind, besides those of every object.  The composed id is
    that of the module in `target?`. -/
def Request.ownConstants (targetId : Option String) : {kind : Kind} → Request kind →
    List (String × String)
  | _, .module _ ilm resource => [("ilm", flagText ilm), ("resource", flagText resource)]
  | _, .inst .. => targetId.toList.map ("module", ·)
  | _, .port _ direction _ => [("direction", direction.text)]
  | _, .param _ value isLocal _ => [("value", value), ("local", flagText isLocal)]
  | _, .decl _ assignment defaultType _ =>
    ("default_type", flagText defaultType) :: assignment.toList.map ("assign", ·)
  | _, .code _ text _ => [("code", text)]
  | _, .pin _ connection _ => [("connection", connection)]
  | _, .adjustment _ value _ => [("value", value)]
  | _, .regfile .. | _, .entry .. | _, .register .. => []

/-! ## Births -/

/-- An entity at the moment it was made.  `parent` and `targetId` are the texts
    that its structural parent and the module it is an instance of had then. -/
structure Birth where
  {kind : Kind}
  request : Request kind
  id : EntityId kind
  object : ObjectId
  storage : StorageHandle
  name : String
  parent : Option Lineage
  targetId : Option String

namespace Birth

/-- The new entity. -/
def ref (b : Birth) : EntityRef := ⟨b.kind, b.id⟩

/-- The composed id it was given. -/
def composedId (b : Birth) : String := composeId b.kind (b.parent.map (·.name)) b.name

/-- The constants it was given. -/
def constants (b : Birth) : List (String × String) :=
  Graph.commonConstants b.kind b.name b.parent ++ b.request.ownConstants b.targetId

/-- No two of them have the same name. -/
theorem nodup_constants (b : Birth) : (b.constants.map Prod.fst).Nodup := by
  obtain ⟨request, _, _, _, _, parent, targetId⟩ := b
  cases request with
  | inst =>
    cases parent <;> cases targetId <;>
      simp [constants, Graph.commonConstants, Request.ownConstants]
  | decl _ assignment =>
    cases parent <;> cases assignment <;>
      simp [constants, Graph.commonConstants, Request.ownConstants]
  | _ => cases parent <;> simp [constants, Graph.commonConstants, Request.ownConstants]

end Birth

namespace Graph

/-- The name that a request leads to: the given one, or the synthesized one of a
    block of code. -/
def nameFor (g : Graph) : {kind : Kind} → Request kind → String
  | _, .module name _ _ | _, .inst name _ _ | _, .port name _ _ | _, .param name _ _ _
  | _, .decl name _ _ _ | _, .pin name _ _ | _, .adjustment name _ _ | _, .regfile name _
  | _, .entry name _ | _, .register name _ => name
  | _, .code (some name) _ _ => name
  | _, .code none _ parent =>
    "_cs_" ++ toString (((g.entity? parent).bind fun m => Link.code.members m.data).elim 0 (·.size))

/-- The name and the id of an entity, while it and its texts are there. -/
def lineageOf (g : Graph) (r : EntityRef) : Option Lineage :=
  (g.entity? r.id).bind fun e => (g.objectName e.object).bind fun name =>
    (g.objectId e.object).map fun id => ⟨name, id⟩

/-- The entity that a request is about to become. -/
def birth (g : Graph) {kind : Kind} (request : Request kind) (storage : Option TextsId) :
    Birth where
  request
  id := (g.tables.get kind).nextId
  object := g.objects.nextId
  storage := storage.elim (.owned g.texts.nextId) .borrowed
  name := g.nameFor request
  parent := request.holder.bind g.lineageOf
  targetId := request.target?.bind fun id => (g.entity? id).bind g.idOf

theorem birth_storage_none (g : Graph) {kind : Kind} (request : Request kind) :
    (g.birth request none).storage = .owned g.texts.nextId := rfl

theorem birth_storage_some (g : Graph) {kind : Kind} (request : Request kind) (s : TextsId) :
    (g.birth request (some s)).storage = .borrowed s := rfl

/-! ## What stands in the way of a request -/

variable {g : Graph} {kind : Kind}

theorem bind_eq_ok {ε α β : Type} {x : Except ε α} {f : α → Except ε β} {b : β} :
    (x >>= f) = .ok b ↔ ∃ a, x = .ok a ∧ f a = .ok b := by
  constructor
  · intro h
    rcases x with e | a
    · cases h
    · exact ⟨a, rfl, h⟩
  · rintro ⟨a, rfl, h⟩
    exact h

theorem map_eq_ok {ε α β : Type} {x : Except ε α} {f : α → β} {b : β} :
    x.map f = .ok b ↔ ∃ a, x = .ok a ∧ f a = b := by
  rcases x with e | a <;> simp [Except.map]

theorem need_eq_ok {id : EntityId kind} {e : Entity kind} :
    g.need id = .ok e ↔ g.entity? id = some e := by
  unfold need
  rcases g.entity? id with _ | e' <;> simp

theorem parentObject_eq_ok {id : EntityId kind} {o : Option ObjectId} :
    g.parentObject id = .ok o ↔ ∃ e, g.entity? id = some e ∧ some e.object = o := by
  simp only [parentObject, map_eq_ok, need_eq_ok]

theorem needList_eq_ok {member : Kind} {id : EntityId .module} {l : Link .module member}
    {refusal : Entity .module → Note} {m : Entity .module} {xs : Array (EntityId member)} :
    g.needList id l refusal = .ok (m, xs) ↔ g.entity? id = some m ∧ l.members m.data = some xs := by
  unfold needList
  rw [bind_eq_ok]
  simp only [need_eq_ok]
  constructor
  · rintro ⟨e, he, h⟩
    rcases hl : l.members e.data with _ | ys
    · simp only [hl] at h; cases h
    · simp only [hl] at h
      cases h
      exact ⟨he, hl⟩
  · rintro ⟨hm, hl⟩
    exact ⟨m, hm, by rw [hl]⟩

theorem targetId_eq_ok {id : EntityId .module} {t : String} :
    g.targetId id = .ok t ↔ (g.entity? id).bind g.idOf = some t := by
  unfold targetId
  rw [bind_eq_ok, Option.bind_eq_some_iff]
  simp only [need_eq_ok]
  refine exists_congr fun m => and_congr_right fun _ => ?_
  rcases g.idOf m with _ | t' <;> simp

theorem placeOf_eq_ok {name : String} {id : EntityId .module} {o : Option ObjectId} :
    g.placeOf name (some id) = .ok o ↔
      ∃ m xs, g.entity? id = some m ∧ Link.contents.members m.data = some xs ∧
        some m.object = o := by
  simp only [placeOf, map_eq_ok, Prod.exists, needList_eq_ok, and_assoc]

/-! ## Plans -/

/-- A plan is what the request and the graph say. -/
structure Plans (g : Graph) {kind : Kind} (request : Request kind) (plan : Plan) : Prop where
  name : plan.name = g.nameFor request
  constants : plan.constants =
    request.ownConstants (request.target?.bind fun id => (g.entity? id).bind g.idOf)
  orphan : request.holder = none → plan.parent = none
  held : ∀ r, request.holder = some r → ∃ e, g.entity? r.id = some e ∧ plan.parent = some e.object

/-- A plan for an entity under a parent that only has to be there. -/
theorem plans_of_parentObject {request : Request kind} {owner : Kind} {id : EntityId owner}
    {o : Option ObjectId} {name : String} {constants : List (String × String)}
    (ho : g.parentObject id = .ok o) (hr : request.holder = some ⟨owner, id⟩)
    (hn : name = g.nameFor request) (hc : constants = request.ownConstants
      (request.target?.bind fun id => (g.entity? id).bind g.idOf)) :
    g.Plans request { name, parent := o, constants } := by
  obtain ⟨e, he, rfl⟩ := parentObject_eq_ok.1 ho
  refine ⟨hn, hc, fun h => ?_, fun r h => ?_⟩
  · rw [hr] at h; cases h
  · rw [hr] at h
    cases h
    exact ⟨e, he, rfl⟩

theorem plans_of_plan {request : Request kind} {plan : Plan} (h : g.plan request = .ok plan) :
    g.Plans request plan := by
  cases request with
  | module name ilm resource =>
    cases h
    exact ⟨rfl, rfl, fun _ => rfl, fun r hr => by cases hr⟩
  | inst name target parent =>
    simp only [Graph.plan, bind_eq_ok] at h
    obtain ⟨t, ht, o, ho, h⟩ := h
    cases h
    refine ⟨rfl, ?_, fun hr => ?_, fun r hr => ?_⟩
    · rw [Request.target?, Option.bind_some, targetId_eq_ok.1 ht]; rfl
    · rcases parent with _ | p
      · cases ho; rfl
      · cases hr
    · rcases parent with _ | p
      · cases hr
      · cases hr
        obtain ⟨m, -, hm, -, rfl⟩ := placeOf_eq_ok.1 ho
        exact ⟨m, hm, rfl⟩
  | decl name assignment defaultType parent =>
    simp only [Graph.plan, bind_eq_ok] at h
    obtain ⟨⟨m, b⟩, hm, h⟩ := h
    cases h
    refine ⟨rfl, rfl, fun hr => (by cases hr), fun r hr => ?_⟩
    cases hr
    exact ⟨m, (needList_eq_ok.1 hm).1, rfl⟩
  | code name text parent =>
    simp only [Graph.plan, bind_eq_ok] at h
    obtain ⟨⟨m, sections⟩, hm, h⟩ := h
    cases h
    obtain ⟨hm, hl⟩ := needList_eq_ok.1 hm
    refine ⟨?_, rfl, fun hr => (by cases hr), fun r hr => ?_⟩
    · rcases name with _ | name
      · simp only [nameFor, hm, Option.bind_some, hl, Option.elim, Option.getD_none, codeName]
      · rfl
    · cases hr
      exact ⟨m, hm, rfl⟩
  | regfile name parent =>
    simp only [Graph.plan, bind_eq_ok] at h
    obtain ⟨⟨m, b⟩, hm, h⟩ := h
    cases h
    exact ⟨rfl, rfl, fun _ => rfl, fun r hr => by cases hr⟩
  | port | param | pin | adjustment | entry | register =>
    simp only [Graph.plan, bind_eq_ok] at h
    obtain ⟨o, ho, h⟩ := h
    cases h
    exact plans_of_parentObject ho rfl rfl rfl

namespace Plans

variable {request : Request kind} {plan : Plan} {parent : Option Lineage}

/-- The texts of the structural parent, if there is one, could be read. -/
theorem parent_cases (hp : g.Plans request plan) (hl : g.lineage plan.parent = some parent) :
    (request.holder = none ∧ parent = none) ∨
      ∃ r l, request.holder = some r ∧ g.lineageOf r = some l ∧ parent = some l := by
  rcases hr : request.holder with _ | r
  · rw [hp.orphan hr] at hl
    exact Or.inl ⟨rfl, (Option.some.inj hl).symm⟩
  · obtain ⟨e, he, hpar⟩ := hp.held r hr
    rw [hpar] at hl
    simp only [lineage, Option.bind_eq_some_iff, Option.map_eq_some_iff] at hl
    obtain ⟨name, hn, id, hi, hl⟩ := hl
    exact Or.inr ⟨r, ⟨name, id⟩, rfl, by simp [lineageOf, he, hn, hi], hl.symm⟩

theorem parent_eq (hp : g.Plans request plan) (hl : g.lineage plan.parent = some parent)
    (storage : Option TextsId) : parent = (g.birth request storage).parent := by
  rcases hp.parent_cases hl with ⟨hr, hp⟩ | ⟨r, l, hr, hl, hp⟩
  · simp [birth, hr, hp]
  · simp [birth, hr, hp, hl]

theorem constants_eq (hp : g.Plans request plan) (hl : g.lineage plan.parent = some parent)
    (storage : Option TextsId) : commonConstants kind plan.name parent ++ plan.constants =
      (g.birth request storage).constants := by
  rw [hp.constants, hp.name, hp.parent_eq hl storage]; rfl

end Plans

/-! ## Drafts -/

/-- What a draft is made of: the constants are written to an empty store, and the
    handles are read back from it. -/
structure Drafts (g : Graph) {kind : Kind} (request : Request kind) (plan : Plan)
    (parent : Option Lineage) (site : StorageHandle × TextArena) (d : Draft kind) : Prop where
  sealed : Attributes.empty.sealAll site.2
    (commonConstants kind plan.name parent ++ plan.constants) = .ok (d.object.attributes, d.arena)
  id : handleOf d.object.attributes d.arena "id" = .ok d.object.id
  name : handleOf d.object.attributes d.arena "name" = .ok d.object.name
  storage : d.object.storage = site.1
  payload : d.object.payload = ⟨kind, (g.tables.get kind).nextId⟩
  data : request.data (handleOf d.object.attributes d.arena) = .ok d.data

theorem drafts_of_draft {request : Request kind} {plan : Plan} {parent : Option Lineage}
    {site : StorageHandle × TextArena} {d : Draft kind}
    (h : g.draft request plan parent site = .ok d) : g.Drafts request plan parent site d := by
  simp only [draft, bind_eq_ok] at h
  obtain ⟨⟨attributes, arena⟩, hs, id, hid, name, hname, data, hdata, h⟩ := h
  cases h
  exact ⟨hs, hid, hname, rfl, rfl, hdata⟩

theorem handleOf_eq_ok {a : Attributes} {arena : TextArena} {name : String} {s : Sym} :
    handleOf a arena name = .ok s ↔ ∃ c, a.lookup arena name = some ⟨s, c⟩ := by
  unfold handleOf
  rcases a.lookup arena name with _ | ⟨v, c⟩ <;> simp

/-- The handles that an entity records are those of its own constants. -/
theorem exists_data {request : Request kind} {targetId : Option String}
    {handle : String → Except String Sym}
    (hh : ∀ n ∈ (request.ownConstants targetId).map Prod.fst, ∃ s, handle n = .ok s) :
    ∃ d, request.data handle = .ok d := by
  cases request with
  | decl _ assignment =>
    rcases assignment with _ | t
    · exact ⟨_, rfl⟩
    · obtain ⟨s, hs⟩ := hh "assign" (by simp [Request.ownConstants])
      exact ⟨_, map_eq_ok.2 ⟨s, hs, rfl⟩⟩
  | param | adjustment =>
    obtain ⟨s, hs⟩ := hh "value" (by simp [Request.ownConstants])
    exact ⟨_, map_eq_ok.2 ⟨s, hs, rfl⟩⟩
  | code =>
    obtain ⟨s, hs⟩ := hh "code" (by simp [Request.ownConstants])
    exact ⟨_, map_eq_ok.2 ⟨s, hs, rfl⟩⟩
  | pin =>
    obtain ⟨s, hs⟩ := hh "connection" (by simp [Request.ownConstants])
    exact ⟨_, map_eq_ok.2 ⟨s, hs, rfl⟩⟩
  | _ => exact ⟨_, rfl⟩

/-- Writing the object of a planned entity cannot fail: its constants are new, and
    so are there to be referred to. -/
theorem exists_draft {request : Request kind} {plan : Plan} {parent : Option Lineage}
    (hp : g.Plans request plan) (hl : g.lineage plan.parent = some parent)
    (site : StorageHandle × TextArena) : ∃ d, g.draft request plan parent site = .ok d := by
  have hc := hp.constants_eq hl none
  have hempty := Attributes.reflects_empty site.2
  obtain ⟨⟨attributes, arena⟩, hs⟩ := hempty.exists_sealAll
    (fun n _ hn => by simp at hn) (g.birth request none).nodup_constants
  have hreflects := (hempty.sealAll hs).1
  have hhandle : ∀ n ∈ (g.birth request none).constants.map Prod.fst,
      ∃ s, handleOf attributes arena n = .ok s := by
    intro n hn
    have hl := (hreflects.isSome_lookup n).2 (by simpa [Write.ofConstant] using hn)
    obtain ⟨⟨s, c⟩, hx⟩ := Option.isSome_iff_exists.1 hl
    exact ⟨s, handleOf_eq_ok.2 ⟨c, hx⟩⟩
  obtain ⟨id, hid⟩ := hhandle "id" (by simp [Birth.constants, commonConstants])
  obtain ⟨name, hname⟩ := hhandle "name" (by simp [Birth.constants, commonConstants])
  obtain ⟨data, hdata⟩ : ∃ d, request.data (handleOf attributes arena) = .ok d :=
    exists_data fun n hn =>
      hhandle n (by rw [Birth.constants, List.map_append]; exact List.mem_append_right _ hn)
  refine ⟨⟨⟨id, name, attributes, site.1, ⟨kind, (g.tables.get kind).nextId⟩⟩, arena, data⟩, ?_⟩
  rw [draft, hc, hs]
  refine bind_eq_ok.2 ⟨_, rfl, ?_⟩
  refine bind_eq_ok.2 ⟨id, hid, ?_⟩
  refine bind_eq_ok.2 ⟨name, hname, ?_⟩
  exact bind_eq_ok.2 ⟨data, hdata, rfl⟩

/-- The data of a new entity names the parent that was asked for. -/
theorem holder_data {request : Request kind} {handle : String → Except String Sym}
    {d : Data kind} (h : request.data handle = .ok d) : d.holder = request.holder := by
  cases request with
  | decl _ assignment =>
    rcases assignment with _ | t
    · cases h; rfl
    · obtain ⟨s, -, rfl⟩ := map_eq_ok.1 h; rfl
  | param | code | pin | adjustment => obtain ⟨s, -, rfl⟩ := map_eq_ok.1 h; rfl
  | _ => cases h; rfl

/-! ## Grants -/

/-- A request that is granted, with all that the answer is made of. -/
structure Grant (g : Graph) {kind : Kind} (request : Request kind) (storage : Option TextsId) where
  plan : Plan
  parent : Option Lineage
  site : StorageHandle × TextArena
  draft : Draft kind
  plan_eq : g.plan request = .ok plan
  lineage_eq : g.lineage plan.parent = some parent
  site_eq : g.site storage = some site
  draft_eq : g.draft request plan parent site = .ok draft

/-- A request is granted, or the graph stays as it is. -/
theorem build_cases (g : Graph) {kind : Kind} (request : Request kind) (storage : Option TextsId) :
    ((g.build request storage).result = none ∧ (g.build request storage).graph = g) ∨
    ∃ gr : g.Grant request storage,
      (g.build request storage).result = some (g.tables.get kind).nextId ∧
      (g.build request storage).graph = (g.install gr.draft).2 := by
  unfold build
  rcases hp : g.plan request with obstacle | plan
  · exact Or.inl ⟨rfl, rfl⟩
  rcases hl : g.lineage plan.parent with _ | parent
  · simp only [hl]; exact Or.inl ⟨trivial, trivial⟩
  rcases hs : g.site storage with _ | site
  · simp only [hl]; exact Or.inl ⟨trivial, trivial⟩
  rcases hd : g.draft request plan parent site with name | d
  · simp only [hl, hd]; exact Or.inl ⟨trivial, trivial⟩
  · refine Or.inr ⟨⟨plan, parent, site, d, hp, hl, hs, hd⟩, ?_, ?_⟩
    · simp only [hl, hd, install_eq]
    · simp only [hl, hd]

/-- **A request that is planned is granted, if the texts of the parent and the arena
    are there.** -/
theorem build_of_site {request : Request kind} {storage : Option TextsId} {plan : Plan}
    {parent : Option Lineage} {site : StorageHandle × TextArena} (hp : g.plan request = .ok plan)
    (hl : g.lineage plan.parent = some parent) (hs : g.site storage = some site) :
    (g.build request storage).result = some (g.tables.get kind).nextId := by
  obtain ⟨d, hd⟩ := exists_draft (plans_of_plan hp) hl site
  rw [build, hp]
  simp only [hl, hs, hd, install_eq]

namespace Grant

variable {request : Request kind} {storage : Option TextsId} (gr : g.Grant request storage)

theorem plans : g.Plans request gr.plan := plans_of_plan gr.plan_eq

theorem drafts : g.Drafts request gr.plan gr.parent gr.site gr.draft := drafts_of_draft gr.draft_eq

theorem parent_eq : gr.parent = (g.birth request storage).parent :=
  gr.plans.parent_eq gr.lineage_eq storage

theorem parent_cases : (request.holder = none ∧ gr.parent = none) ∨
    ∃ r l, request.holder = some r ∧ g.lineageOf r = some l ∧ gr.parent = some l :=
  gr.plans.parent_cases gr.lineage_eq

theorem constants_eq : commonConstants kind gr.plan.name gr.parent ++ gr.plan.constants =
    (g.birth request storage).constants := gr.plans.constants_eq gr.lineage_eq storage

theorem holder_data : gr.draft.data.holder = request.holder := Graph.holder_data gr.drafts.data

/-! ### The arena of the new object -/

theorem storage_eq : gr.draft.object.storage = (g.birth request storage).storage := by
  rw [gr.drafts.storage]
  have hs := gr.site_eq
  rcases storage with _ | s
  · rw [← Option.some.inj hs]; rfl
  · obtain ⟨a, -, h⟩ := Option.map_eq_some_iff.1 hs
    rw [← h]; rfl

/-- The arena that a new object borrows holds the texts of others, and keeps them. -/
theorem extends_draft {a : TextArena}
    (ha : g.texts.get? (g.birth request storage).storage.id = some a) :
    a.Extends gr.draft.arena := by
  have hx := ((Attributes.reflects_empty gr.site.2).sealAll gr.drafts.sealed).2
  have hs := gr.site_eq
  rcases storage with _ | s
  · rw [birth_storage_none, StorageHandle.id, Slots.get?_nextId] at ha
    cases ha
  · obtain ⟨b, hb, h⟩ := Option.map_eq_some_iff.1 hs
    rw [← h] at hx
    rw [birth_storage_some, StorageHandle.id, hb] at ha
    exact Option.some.inj ha ▸ hx

theorem get?_texts (s : TextsId) : (g.install gr.draft).2.texts.get? s =
    if s = (g.birth request storage).storage.id then some gr.draft.arena else g.texts.get? s := by
  rw [texts_install, gr.storage_eq]
  have hs := gr.site_eq
  rcases storage with _ | t
  · exact Slots.get?_alloc _ _ _
  · obtain ⟨b, hb, -⟩ := Option.map_eq_some_iff.1 hs
    rw [birth_storage_some, StorageHandle.id, keepTexts, Slots.get?_modify]
    by_cases h : s = t
    · rw [if_pos h, if_pos h, h, hb]; rfl
    · rw [if_neg h, if_neg h]

theorem issued_texts {s : TextsId} : (g.install gr.draft).2.texts.Issued s ↔
    g.texts.Issued s ∨ s = (g.birth request storage).storage.id := by
  rw [texts_install, gr.storage_eq]
  have hs := gr.site_eq
  rcases storage with _ | t
  · exact Slots.issued_alloc
  · obtain ⟨b, hb, -⟩ := Option.map_eq_some_iff.1 hs
    refine Slots.issued_modify.trans ⟨Or.inl, fun h => h.elim id fun h => ?_⟩
    rw [h]
    exact Slots.issued_of_get? hb

/-! ### The attributes of the new object -/

theorem reflects : gr.draft.object.attributes.Reflects gr.draft.arena
    ((g.birth request storage).constants.map Write.ofConstant) := by
  rw [← gr.constants_eq]
  exact ((Attributes.reflects_empty _).sealAll gr.drafts.sealed).1

/-- A handle that a new object keeps is the handle of a constant. -/
theorem lookup_of_handleOf {name : String} {s : Sym}
    (h : handleOf gr.draft.object.attributes gr.draft.arena name = .ok s) :
    gr.draft.object.attributes.lookup gr.draft.arena name = some ⟨s, true⟩ := by
  obtain ⟨c, hc⟩ := handleOf_eq_ok.1 h
  have hconst : gr.draft.object.attributes.isConstant gr.draft.arena name = c := by
    rw [Attributes.isConstant, hc]; rfl
  rw [gr.reflects.isConstant_eq] at hconst
  rcases hw : lastWrite ((g.birth request storage).constants.map Write.ofConstant) name with _ | w
  · have := gr.reflects.isSome_lookup name
    rw [← isSome_lastWrite, hw, hc] at this
    cases this.1 rfl
  · obtain ⟨x, -, rfl⟩ := List.mem_map.1 (List.mem_reverse.1 (List.mem_of_find?_eq_some hw))
    rw [hw] at hconst
    rw [hc, ← hconst]
    rfl

theorem lookup_id : gr.draft.object.attributes.lookup gr.draft.arena "id" =
    some ⟨gr.draft.object.id, true⟩ := gr.lookup_of_handleOf gr.drafts.id

theorem lookup_name : gr.draft.object.attributes.lookup gr.draft.arena "name" =
    some ⟨gr.draft.object.name, true⟩ := gr.lookup_of_handleOf gr.drafts.name

end Grant

end Graph

end DesignGraph
