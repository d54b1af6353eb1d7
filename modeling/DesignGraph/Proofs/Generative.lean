/-
  Generative modules — what tells them from resources, and who stands for them.

  A module is made as a resource or as a generative module and stays what it is.
  The lists of its body are all there or all absent, and with them an instance that
  stands for the module: the first one made of it, which is placed nowhere.

  * `Graph.standIn` reads the instance that a generative module has appointed; a
    call changes it for the module it makes only (`Reached.standIn_perform`);
  * `Represents h m i`: among the births of `h`, the instance `i` is the first of
    the module `m`, has its name, and is placed nowhere; whoever a module has
    appointed represents it (`represents_after`);
  * `modules_stay_resource_or_generative` is what follows for designs.
-/
import DesignGraph.Proofs.Collections

namespace DesignGraph

open DesignGraph.Graph (Draft)

/-! ## The parts of a module -/

/-- The instance that stands for a module. -/
def Module.defaultInstance (m : Module) : Option (EntityId .inst) :=
  m.body.bind (·.defaultInstance)

theorem Module.defaultInstance_of_isResource {m : Module} (h : m.isResource = true) :
    m.defaultInstance = none := by
  have hbody : m.body = none := by simpa [isResource] using h
  rw [defaultInstance, hbody]
  rfl

/-- Whether a module is asked to be a resource. -/
def Request.resource? : {kind : Kind} → Request kind → Option Bool
  | _, .module _ _ resource => some resource
  | _, _ => none

/-- Whether a module is a resource. -/
def Data.resource? : {kind : Kind} → Data kind → Option Bool
  | .module, m => some m.isResource
  | _, _ => none

theorem Data.resource?_bare {kind : Kind} (d : Data kind) :
    Data.resource? d.bare = Data.resource? d := by
  cases kind <;> simp [Data.resource?, Data.bare, Module.isResource]

namespace Graph

variable {g g' : Graph} {kind : Kind} {m : EntityId .module} {d : Option (EntityId .inst)}

/-- The instance that a generative module has appointed, while the module is there. -/
def standIn (g : Graph) (m : EntityId .module) : Option (Option (EntityId .inst)) :=
  (g.entity? m).bind fun e => e.data.body.map (·.defaultInstance)

theorem standIn_eq_some_iff : g.standIn m = some d ↔
    ∃ e b, g.entity? m = some e ∧ e.data.body = some b ∧ b.defaultInstance = d := by
  simp only [standIn, Option.bind_eq_some_iff, Option.map_eq_some_iff]
  constructor
  · rintro ⟨e, he, b, hb, hd⟩
    exact ⟨e, b, he, hb, hd⟩
  · rintro ⟨e, b, he, hb, hd⟩
    exact ⟨e, he, b, hb, hd⟩

theorem standIn_of_tables (h : g'.tables = g.tables) : g'.standIn m = g.standIn m := by
  rw [standIn, entity?, h]; rfl

theorem tables_setPairs (o : ObjectId) (pairs : List (String × String)) (g : Graph) :
    (g.setPairs o pairs).graph.tables = g.tables := by
  induction pairs generalizing g with
  | nil => rfl
  | cons nv rest ih =>
    obtain ⟨name, value⟩ := nv
    rw [setPairs]
    rcases hw : g.setAttr? o name value false with _ | g'
    · exact ih g
    · obtain ⟨ef⟩ := writeEffect hw
      exact (ih g').trans ef.tables_eq

theorem tables_setAttrs (g : Graph) (o : ObjectId) (list : List String) :
    (g.setAttrs o list).graph.tables = g.tables := by
  unfold setAttrs
  split
  · rfl
  · rfl
  · exact tables_setPairs o _ g

theorem standIn_appoint {i : Option (EntityId .inst)}
    (hm : (g.modifyData m (·.appoint i)).standIn m = some d) : d = i := by
  obtain ⟨e, b, he, hb, rfl⟩ := standIn_eq_some_iff.1 hm
  rw [entity?_modifyData_self, Option.map_eq_some_iff] at he
  obtain ⟨f, -, rfl⟩ := he
  obtain ⟨c, -, rfl⟩ := Option.map_eq_some_iff.1 hb
  rfl

theorem standIn_of_free {id : EntityId kind} (hm : (g.free id).standIn m = some d) :
    g.standIn m = some d := by
  by_cases h : (⟨.module, m⟩ : EntityRef) = ⟨kind, id⟩
  · cases h
    obtain ⟨e, -, he, -⟩ := standIn_eq_some_iff.1 hm
    have hbare := bare?_of_entity? he
    rw [bare?_free_self] at hbare
    cases hbare
  · rwa [standIn, entity?_free_of_ne h] at hm

theorem standIn_eq_join (g : Graph) (m : EntityId .module) : g.standIn m =
    ((g.entity? m).map fun e => e.data.body.map (·.defaultInstance)).join := by
  rw [standIn]
  rcases g.entity? m with _ | e <;> rfl

theorem standIn_install_of_ne (n : Draft kind)
    (h : (⟨.module, m⟩ : EntityRef) ≠ ⟨kind, (g.tables.get kind).nextId⟩) :
    (g.install n).2.standIn m = g.standIn m := by
  rw [standIn_eq_join, standIn_eq_join, map_entity?_install_of_ne n _ h]
  intro member l x e
  cases l <;> simp only [Link.add, Option.map_map, Function.comp_def]

theorem standIn_build_of_ne {request : Request kind} {storage : Option TextsId}
    (h : (⟨.module, m⟩ : EntityRef) ≠ ⟨kind, (g.tables.get kind).nextId⟩) :
    (g.build request storage).graph.standIn m = g.standIn m := by
  rcases g.build_cases request storage with ⟨-, hg⟩ | ⟨gr, -, hg⟩
  · rw [hg]
  · rw [hg, standIn_install_of_ne _ h]

theorem resource?_data {request : Request kind} {handle : String → Except String Sym}
    {d : Data kind} (h : request.data handle = .ok d) : Data.resource? d = request.resource? := by
  cases request with
  | module name ilm resource => cases h; cases resource <;> rfl
  | _ => rfl

end Graph

variable {g : Graph} {h : List Event}

/-- A module is a resource if it was asked to be one. -/
theorem Reached.resource?_of_birth (hg : Reached h g) {b : Birth} (hb : b ∈ births h)
    {e : Entity b.kind} (he : g.entity? b.id = some e) :
    Data.resource? e.data = b.request.resource? := by
  obtain ⟨handle, d, hd, hbare⟩ := hg.exists_data hb (Graph.bare?_of_entity? he)
  rw [← Data.resource?_bare, show e.data.bare = d.bare from hbare, Data.resource?_bare,
    Graph.resource?_data hd]

/-! ## Representatives -/

theorem Birth.holder_of_contents {b : Birth} {n : EntityId .module} {i : EntityId .inst}
    (h : b.child? .contents n = some i) : b.request.holder = some ⟨.module, n⟩ := by
  obtain ⟨hk, hask, -⟩ := child?_eq_some_iff.1 h
  obtain ⟨request, _, _, _, _, _, _⟩ := b
  cases hk
  cases request with
  | inst name target parent =>
    obtain rfl : parent = some n := hask
    rfl

theorem Reached.texts_of_ref (hg : Reached h g) {b : Birth} (hb : b ∈ births h) {r : EntityRef}
    (hr : b.ref = r) {e : Entity r.kind} (he : g.entity? r.id = some e)
    (hopen : (g.open? e.object).isSome) :
    g.nameOf e = some b.name ∧ g.idOf e = some b.composedId := by
  subst hr
  have htells := hg.tells hb he hopen
  exact ⟨htells.name.1, htells.id.1⟩

/-- The instance is the first one of the module, and is born with its name and placed
    nowhere. -/
structure Represents (h : List Event) (m : EntityId .module) (i : EntityId .inst) : Prop where
  first : (children h .uses m).head? = some i
  born : ∃ b ∈ births h, ∃ c ∈ births h, b.ref = ⟨.module, m⟩ ∧ c.ref = ⟨.inst, i⟩ ∧
    c.name = b.name ∧ c.request.holder = none

namespace Represents

variable {m : EntityId .module} {i : EntityId .inst}

/-- Later instances do not take its place. -/
theorem append (hr : Represents h m i) (k : List Event) : Represents (h ++ k) m i := by
  obtain ⟨b, hb, c, hc, hborn⟩ := hr.born
  have hp : h <+: h ++ k := List.prefix_append h k
  refine ⟨?_, b, births_mono hp hb, c, births_mono hp hc, hborn⟩
  rw [children_append, List.head?_append, hr.first]; rfl

end Represents

namespace Reached

variable {m : EntityId .module} {d : Option (EntityId .inst)} {name : String} {ilm : Bool}
  {storage : Option TextsId}

theorem standIn_build_resource (hg : Reached h g)
    (hm : (g.build (.module name ilm true) storage).graph.standIn m = some d) :
    g.standIn m = some d := by
  by_cases hnew : m = (g.tables.get .module).nextId
  · rcases g.build_cases (.module name ilm true) storage with ⟨-, hgraph⟩ | ⟨gr, -, hgraph⟩
    · rwa [hgraph] at hm
    · rw [hgraph, hnew] at hm
      obtain ⟨e, b, he, hb, -⟩ := Graph.standIn_eq_some_iff.1 hm
      have hg' : Reached _ (g.install gr.draft).2 := hg.step (.grow (.build gr))
      have hflag := hg'.resource?_of_birth (mem_births_concat.2 (Or.inr rfl)) he
      simp [Data.resource?, Module.isResource, hb, Graph.birth, Request.resource?] at hflag
  · rwa [Graph.standIn_build_of_ne (by rintro ⟨⟩; exact hnew rfl)] at hm

/-- The instance that is made along with a generative module represents it. -/
theorem represents_generative (hg : Reached h g) (gr : g.Grant (.module name ilm false) storage) :
    Represents (h ++ g.createEvents (.module name ilm false) storage)
      (g.tables.get .module).nextId (g.tables.get .inst).nextId := by
  rw [hg.createEvents_generative gr]
  have hnone : children h .uses (g.tables.get .module).nextId = [] :=
    hg.enrolled.children_eq_nil (Slots.not_issued_nextId _)
  have hmem : ∀ {b : Birth} {es : List Event}, .birth b ∈ es → b ∈ births (h ++ es) := by
    intro b es hb
    exact mem_births.2 (List.mem_append_right h hb)
  refine ⟨?_, _, hmem (List.mem_cons_self ..), _,
    hmem (List.mem_cons_of_mem _ (List.mem_singleton.2 rfl)), rfl, ?_, rfl, rfl⟩
  · rw [children_append, hnone, List.nil_append, ← List.singleton_append, children_append,
      children_birth, children_birth, Graph.child?_birth_of_ne (by decide), Graph.child?_birth,
      if_pos (by rfl), gr.instances_install]
    rfl
  · rw [← gr.instances_install]
    rfl

/-- A new generative module appoints the instance that is made along with it. -/
theorem standIn_create_generative (hg : Reached h g)
    (hm : (g.create (.module name ilm false) storage).graph.standIn m = some d) :
    g.standIn m = some d ∨
      ∃ i, d = some i ∧ Represents (h ++ g.createEvents (.module name ilm false) storage) m i := by
  rcases g.create_cases (.module name ilm false) storage with ⟨-, hgraph⟩ | ⟨gr, -⟩
  · exact Or.inl (hgraph ▸ hm)
  rw [Graph.graph_create_generative gr.build_result gr.build_graph, hg.default_result gr] at hm
  by_cases hnew : m = (g.tables.get .module).nextId
  · subst hnew
    exact Or.inr ⟨_, Graph.standIn_appoint hm, hg.represents_generative gr⟩
  · have hne : (⟨.module, m⟩ : EntityRef) ≠ ⟨.module, (g.tables.get .module).nextId⟩ := by
      rintro ⟨⟩
      exact hnew rfl
    rw [Graph.standIn, Graph.entity?_modifyData_of_ne hne, ← Graph.standIn,
      Graph.standIn_build_of_ne (by rintro ⟨⟩), Graph.standIn_install_of_ne gr.draft hne] at hm
    exact Or.inl hm

/-- A call appoints nobody but the representatives of the module that it makes. -/
theorem standIn_perform (hg : Reached h g) {c : Call}
    (hm : (g.perform c).graph.standIn m = some d) :
    g.standIn m = some d ∨ ∃ i, d = some i ∧ Represents (h ++ g.events c) m i := by
  cases c with
  | create request storage =>
    cases request with
    | module name ilm resource =>
      cases resource with
      | true => exact Or.inl (hg.standIn_build_resource hm)
      | false => exact hg.standIn_create_generative hm
    | _ => exact Or.inl ((Graph.standIn_build_of_ne (by rintro ⟨⟩)).symm.trans hm)
  | free id =>
    rcases id with _ | id
    · exact Or.inl hm
    · exact Or.inl (Graph.standIn_of_free hm)
  | setAttr o name value constant =>
    rw [Graph.perform] at hm
    rcases hw : g.setAttr? o name value constant with _ | g'
    · rw [hw] at hm
      exact Or.inl hm
    · rw [hw] at hm
      obtain ⟨ef⟩ := Graph.writeEffect hw
      exact Or.inl ((Graph.standIn_of_tables ef.tables_eq).symm.trans hm)
  | setAttrs o list =>
    exact Or.inl ((Graph.standIn_of_tables (g.tables_setAttrs o list)).symm.trans hm)

end Reached

/-- **Whoever a module has appointed represents it.** -/
theorem represents_after (l : Logger) (cs : List Call) {m : EntityId .module}
    {d : Option (EntityId .inst)} (hm : (Design.after l cs).graph.standIn m = some d) :
    ∃ i, d = some i ∧ Represents (history cs) m i := by
  induction cs using List.reverseRecOn with
  | nil =>
    obtain ⟨e, -, he, -⟩ := Graph.standIn_eq_some_iff.1 hm
    cases he
  | append_singleton cs c ih =>
    rw [Design.graph_after_concat] at hm
    rw [history_concat l]
    rcases (reached_after l cs).standIn_perform hm with hm | hnew
    · obtain ⟨i, hd, hi⟩ := ih hm
      exact ⟨i, hd, hi.append _⟩
    · exact hnew

/-- Every generative module has a representative. -/
theorem exists_represents (l : Logger) {cs : List Call} {m : EntityId .module} {e : Entity .module}
    (he : (Design.after l cs).graph.entity? m = some e) (hgen : e.data.isResource = false) :
    ∃ i, e.data.defaultInstance = some i ∧ Represents (history cs) m i := by
  obtain ⟨b, hb⟩ : ∃ b, e.data.body = some b := by
    simpa [Module.isResource, Option.isSome_iff_exists] using hgen
  obtain ⟨i, hd, hi⟩ := represents_after l cs (Graph.standIn_eq_some_iff.2 ⟨e, b, he, hb, rfl⟩)
  exact ⟨i, by rw [Module.defaultInstance, hb]; exact hd, hi⟩

/-- What is there of a module is there for good. -/
theorem isResource_after_append (l : Logger) {cs ds : List Call} {m : EntityId .module}
    {e e' : Entity .module} (he : (Design.after l cs).graph.entity? m = some e)
    (he' : (Design.after l (cs ++ ds)).graph.entity? m = some e') :
    e'.data.isResource = e.data.isResource := by
  have hlater := (steps_after_append l cs ds).later
  have hbare := hlater.entities m e'.bare (Graph.issued_of_entity? he) (Graph.bare?_of_entity? he')
  rw [Graph.bare?_of_entity? he, Option.some.injEq] at hbare
  have hdata := congrArg (fun f : Entity .module => Data.resource? f.data) hbare
  simp only [Entity.bare, Data.resource?_bare] at hdata
  exact (Option.some.inj hdata).symm

/-! ## The modules of designs -/

/-- An instance that stands for a module of a design after some calls. -/
structure Design.StandsFor (l : Logger) (cs : List Call) (i : EntityId .inst)
    (m : EntityId .module) (e : Entity .module) : Prop where
  first : e.data.uses[0]? = some i
  /-- It was made of the module, and was placed nowhere. -/
  made : ∃ b ∈ births (history cs), b.child? .uses m = some i ∧ b.request.holder = none
  unplaced : ∀ (n : EntityId .module) f b, (after l cs).graph.entity? n = some f →
    f.data.body = some b → i ∉ b.contents
  data : ∀ f, (after l cs).graph.entity? i = some f → f.data.target = m ∧ f.data.parent = none
  /-- It has the name of the module, and the id of an instance without a parent. -/
  texts : ∀ f, (after l cs).graph.entity? i = some f →
    ((after l cs).graph.open? e.object).isSome → ((after l cs).graph.open? f.object).isSome →
    ∃ name, (after l cs).graph.nameOf e = some name ∧ (after l cs).graph.nameOf f = some name ∧
      (after l cs).graph.idOf f = some (composeId .inst none name)

/-- Whoever represents a module stands for it. -/
theorem standsFor_of_represents (l : Logger) {cs : List Call} {i : EntityId .inst}
    {m : EntityId .module} {e : Entity .module}
    (he : (Design.after l cs).graph.entity? m = some e) (hi : Represents (history cs) m i) :
    Design.StandsFor l cs i m e := by
  have hg := reached_after l cs
  obtain ⟨b, hb, c, hc, hbref, hcref, hname, hholder⟩ := hi.born
  have hmem : i ∈ children (history cs) .uses m := List.mem_of_head? hi.first
  -- there is no other birth of the instance
  have hsame : ∀ {k : Link .module .inst} {n : EntityId .module},
      i ∈ children (history cs) k n → c.child? k n = some i := by
    intro k n hin
    obtain ⟨c', hc', hchild⟩ := mem_children.1 hin
    have href : c.ref = c'.ref := hcref.trans (Birth.ref_of_child? hchild).symm
    rwa [hg.registered.ref_inj c hc c' hc' href]
  have hunplaced : ∀ n : EntityId .module, i ∉ children (history cs) .contents n := by
    intro n hin
    have hplaced := Birth.holder_of_contents (hsame hin)
    rw [hholder] at hplaced
    cases hplaced
  refine ⟨?_, ⟨c, hc, hsame hmem, hholder⟩, ?_, ?_, ?_⟩
  · have hlist := hg.enrolled.members_eq (k := .uses) he
    rw [← Array.getElem?_toList, ← List.head?_eq_getElem?, ← hi.first, ← hlist]
    rfl
  · intro n f body hf hbody hin
    have hlist := hg.enrolled.members_eq (k := .contents) hf
    rw [Link.members, hbody] at hlist
    refine hunplaced n ?_
    rw [← hlist]
    exact Array.mem_toList_iff.2 hin
  · intro f hf
    refine ⟨Option.some.inj (hg.ownerOf_of_mem hmem hf), ?_⟩
    rcases hp : f.data.parent with _ | n
    · rfl
    · exact absurd (hg.mem_of_ownerOf (k := .contents) hf hp) (hunplaced n)
  · intro f hf hopen hopen'
    have hparent : c.parent = none := by
      have hsome := hg.identified.parent c hc
      rw [hholder] at hsome
      simpa using hsome
    have hid : c.composedId = composeId .inst none b.name := by
      rw [Birth.composedId, hparent, hname, show c.kind = .inst from congrArg EntityRef.kind hcref]
      rfl
    obtain ⟨hbname, -⟩ := hg.texts_of_ref hb hbref he hopen
    obtain ⟨hcname, hcid⟩ := hg.texts_of_ref hc hcref hf hopen'
    exact ⟨b.name, hbname, hname ▸ hcname, hid ▸ hcid⟩

/-- What the modules of a design are after some calls. -/
structure Design.Dichotomy (l : Logger) (cs : List Call) : Prop where
  /-- A module is what it was asked to be. -/
  flag : ∀ (m : EntityId .module) e, (after l cs).graph.entity? m = some e →
    ∃ b ∈ births (history cs), b.ref = ⟨.module, m⟩ ∧ b.request.resource? = some e.data.isResource
  /-- A resource has none of the parts of a body, and nothing belongs in them. -/
  resource : ∀ (m : EntityId .module) e, (after l cs).graph.entity? m = some e →
    e.data.isResource = true →
    e.data.defaultInstance = none ∧ ∀ {member : Kind} (k : Link .module member), k.inBody →
      k.members e.data = none ∧
        ∀ i f, (after l cs).graph.entity? i = some f → k.ownerOf f.data ≠ some m
  /-- A generative module has them all, and an instance stands for it. -/
  generative : ∀ (m : EntityId .module) e, (after l cs).graph.entity? m = some e →
    e.data.isResource = false →
    (∃ i, e.data.defaultInstance = some i ∧ StandsFor l cs i m e) ∧
      ∀ {member : Kind} (k : Link .module member), k.inBody → (k.members e.data).isSome
  /-- Written out, its flag agrees with each of the five parts. -/
  written : ∀ (m : EntityId .module) e, (after l cs).graph.entity? m = some e →
    e.data.record.Agrees ∧ e.data.record.defaultInstance.isSome = !e.data.record.resource
  /-- Later calls change nothing about it. -/
  lasting : ∀ ds (m : EntityId .module) e e', (after l cs).graph.entity? m = some e →
    (after l (cs ++ ds)).graph.entity? m = some e' →
    e'.data.isResource = e.data.isResource ∧ e'.data.defaultInstance = e.data.defaultInstance ∧
      ∀ {member : Kind} (k : Link .module member), k.inBody →
        (k.members e'.data).isSome = (k.members e.data).isSome

/-- **Whatever the calls, a module is a resource or generative for good, and a generative
    one has an instance that stands for it.** -/
theorem modules_stay_resource_or_generative (l : Logger) (cs : List Call) :
    Design.Dichotomy l cs := by
  have hg := reached_after l cs
  refine ⟨?_, ?_, ?_, ?_, ?_⟩
  · intro m e he
    obtain ⟨b, hb, href⟩ := hg.exists_birth (r := ⟨.module, m⟩) he
    refine ⟨b, hb, href, ?_⟩
    obtain ⟨_, _, _, _, _, _, _⟩ := b
    cases href
    exact (hg.resource?_of_birth hb he).symm
  · intro m e he hres
    refine ⟨Module.defaultInstance_of_isResource hres, fun k hk => ?_⟩
    have hnone : k.members e.data = none := by
      have hsome := Link.isSome_members hk e.data
      simpa [hres] using hsome
    refine ⟨hnone, fun i f hf hk => ?_⟩
    have hlist := hg.enrolled.members_eq (k := k) he
    rw [hnone] at hlist
    have hmem := hg.mem_of_ownerOf hf hk
    rw [← hlist] at hmem
    cases hmem
  · intro m e he hgen
    obtain ⟨i, hd, hi⟩ := exists_represents l he hgen
    refine ⟨⟨i, hd, standsFor_of_represents l he hi⟩, fun k hk => ?_⟩
    rw [Link.isSome_members hk, hgen]
    rfl
  · intro m e he
    refine ⟨e.data.agrees_record, ?_⟩
    show e.data.defaultInstance.isSome = !e.data.isResource
    rcases hres : e.data.isResource with _ | _
    · obtain ⟨i, hd, -⟩ := exists_represents l he hres
      rw [hd]
      rfl
    · rw [Module.defaultInstance_of_isResource hres]
      rfl
  · intro ds m e e' he he'
    have hflag := isResource_after_append l he he'
    refine ⟨hflag, ?_, fun k hk => ?_⟩
    · rcases hres : e.data.isResource with _ | _
      · obtain ⟨i, hd, hi⟩ := exists_represents l he hres
        obtain ⟨i', hd', hi'⟩ := exists_represents l he' (hflag.trans hres)
        obtain ⟨k, hk⟩ := history_mono (List.prefix_append cs ds)
        have hfirst := (hi.append k).first
        rw [hk, hi'.first] at hfirst
        rw [hd, hd', hfirst]
      · rw [Module.defaultInstance_of_isResource hres,
          Module.defaultInstance_of_isResource (hflag.trans hres)]
    · rw [Link.isSome_members hk, Link.isSome_members hk, hflag]

/-- An instance that stands for a module is not replaced when it is taken out. -/
example : ((Graph.empty.after [.create (.module "top" false false) none,
    .free (some (⟨0⟩ : EntityId .inst)), .create (.inst "other" ⟨0⟩ none) none]).entity?
      (⟨0⟩ : EntityId .module)).map (fun m => (m.data.defaultInstance, m.data.uses.toList)) =
    some (some ⟨0⟩, [⟨0⟩, ⟨1⟩]) := by
  decide +kernel

end DesignGraph
