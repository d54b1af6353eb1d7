/-
  Fields — what an entity records of its own is what its constants say.

  The data of a kind are kept twice: as fields of the entity and as constants of its
  object, under other names and in an arena that may be shared.  A flag or a direction is
  spelled in its attribute; a text is kept as a handle, and the field is the handle of the
  attribute.

  * `Data.fields` lists the fields that are attributes as well, with the names of these;
    `Request.Fits.fields_eq`: they are what was asked for;
  * `Graph.Mirrors`: the fields of an entity and its attributes agree, and the attributes
    are constant; `Reached.mirrors`: they do, in every graph that is reached;
  * `Reached.exists_target`: the module that an instance was asked of had, at that moment,
    the id that it was born with;
  * `fields_mirror_attributes` is what follows for designs.
-/
import DesignGraph.Proofs.Generative

namespace DesignGraph

/-! ## Fields -/

/-- How a field is an attribute, too. -/
inductive Field where
  /-- by a text that spells it -/
  | spelled (text : String)
  /-- by the handle of its text -/
  | handle (s : Sym)

/-- The text of a field; handles are read by `text`. -/
def Field.read (text : Sym → Option String) : Field → Option String
  | spelled t => some t
  | handle s => text s

/-- The fields that are attributes, too, by the names of the attributes. -/
def Data.fields : {kind : Kind} → Data kind → List (String × Field)
  | .module, m =>
    [("ilm", .spelled (flagText m.ilm)), ("resource", .spelled (flagText m.isResource))]
  | .port, p => [("direction", .spelled p.direction.text)]
  | .param, p => [("value", .handle p.value), ("local", .spelled (flagText p.isLocal))]
  | .decl, d =>
    ("default_type", .spelled (flagText d.defaultType)) ::
      d.assignment.toList.map (("assign", .handle ·))
  | .code, c => [("code", .handle c.code)]
  | .pin, p => [("connection", .handle p.connection)]
  | .adjustment, a => [("value", .handle a.value)]
  | .inst, _ | .register, _ | .entry, _ | .regfile, _ => []

namespace Request

variable {kind : Kind} {request : Request kind} {text : Sym → Option String} {d : Data kind}

/-- The fields read what was asked for. -/
theorem Fits.fields_eq (h : request.Fits text d) :
    (Data.fields d).map (fun (n, f) => (n, f.read text)) =
      (request.ownConstants none).map fun (n, v) => (n, some v) := by
  cases request with
  | decl _ assignment =>
    obtain ⟨s, _, _⟩ := d
    obtain ⟨hs, rfl, -⟩ := h
    rcases s with _ | s <;> rcases assignment with _ | t
    · rfl
    · cases hs
    · cases hs
    · have ht : text s = some t := Option.some.inj hs
      simp [Data.fields, Field.read, ownConstants, ht]
  | module =>
    obtain ⟨rfl, rfl⟩ := h
    rfl
  | param | code | pin | adjustment =>
    simp [Data.fields, Field.read, ownConstants, h.1, h.2]
  | port =>
    obtain ⟨rfl, -⟩ := h
    rfl
  | inst | regfile | entry | register => rfl

/-- The module of an instance adds to its constants and takes nothing away. -/
theorem mem_ownConstants (targetId : Option String) {nv : String × String}
    (h : nv ∈ request.ownConstants none) : nv ∈ request.ownConstants targetId := by
  cases request with
  | inst => cases h
  | _ => exact h

/-- A field has the text of a constant. -/
theorem Fits.exists_constant (h : request.Fits text d) (targetId : Option String) {n : String}
    {f : Field} (hf : (n, f) ∈ Data.fields d) :
    ∃ v, (n, v) ∈ request.ownConstants targetId ∧ f.read text = some v := by
  have hmem : (n, f.read text) ∈ (Data.fields d).map fun (n, f) => (n, f.read text) :=
    List.mem_map.2 ⟨(n, f), hf, rfl⟩
  rw [h.fields_eq] at hmem
  obtain ⟨⟨n', v⟩, hv, heq⟩ := List.mem_map.1 hmem
  obtain ⟨rfl, hread⟩ := Prod.mk.inj heq
  exact ⟨v, mem_ownConstants targetId hv, hread.symm⟩

end Request

/-! ## Fields and attributes -/

/-- An attribute of an object, with the handle of its value. -/
def Graph.attribute? (g : Graph) (o : ObjectId) (n : String) : Option Attribute :=
  (g.open? o).bind fun (x, a) => x.attributes.lookup a n

/-- A field and an attribute agree: the attribute spells the field, or the field is the
    handle of its value. -/
def Field.Agrees (g : Graph) (o : ObjectId) (n : String) : Field → Prop
  | spelled t => g.attr? o n = some t
  | handle s => (g.attribute? o n).map (·.value) = some s

/-- The fields of an entity and the attributes of its object agree, and cannot be made to
    differ. -/
structure Graph.Mirrors (g : Graph) {kind : Kind} (e : Entity kind) : Prop where
  agrees : ∀ n f, (n, f) ∈ Data.fields e.data → f.Agrees g e.object n
  constant : ∀ n f, (n, f) ∈ Data.fields e.data → g.isConstant e.object n = true

variable {g g' : Graph} {h es : List Event}

theorem Reached.object_of_birth (hg : Reached h g) {b : Birth} (hb : b ∈ births h)
    {e : Entity b.kind} (he : g.entity? b.id = some e) : e.object = b.object :=
  (hg.identified.entity b hb e.bare (Graph.bare?_of_entity? he)).1

/-- An entity that can be read has the data that were asked for. -/
theorem Reached.fits_of_birth (hg : Reached h g) {b : Birth} (hb : b ∈ births h)
    {e : Entity b.kind} (he : g.entity? b.id = some e) {x : Object} {a : TextArena}
    (hopen : g.open? e.object = some (x, a)) : b.request.Fits a.resolve e.data := by
  rw [hg.object_of_birth hb he] at hopen
  exact Request.fits_bare.1 (hg.fitting b hb e.bare (Graph.bare?_of_entity? he) x a hopen)

/-- The constants of a birth are attributes of the entity. -/
theorem Reached.constant_of_birth (hg : Reached h g) {b : Birth} (hb : b ∈ births h)
    {e : Entity b.kind} (he : g.entity? b.id = some e) {x : Object} {a : TextArena}
    (hopen : g.open? e.object = some (x, a)) {n v : String} (hnv : (n, v) ∈ b.constants) :
    ∃ s, g.attribute? e.object n = some ⟨s, true⟩ ∧ a.resolve s = some v ∧
      g.attr? e.object n = some v ∧ g.isConstant e.object n = true := by
  have hread := hg.identified.object b hb x a (hg.object_of_birth hb he ▸ hopen)
  obtain ⟨s, hl, ht⟩ := hread.constant n v hnv
  refine ⟨s, ?_, ht, ?_, ?_⟩
  · rw [Graph.attribute?, hopen]
    exact hl
  · rw [Graph.attr?_of_open? hopen, Attributes.get, hl]
    exact ht
  · rw [Graph.isConstant_of_open? hopen, Attributes.isConstant, hl]
    rfl

/-- **Fields and attributes agree, as long as they can be read.** -/
theorem Reached.mirrors (hg : Reached h g) {b : Birth} (hb : b ∈ births h) {e : Entity b.kind}
    (he : g.entity? b.id = some e) (hopen : (g.open? e.object).isSome) : g.Mirrors e := by
  obtain ⟨⟨x, a⟩, hxa⟩ := Option.isSome_iff_exists.1 hopen
  have hfits := hg.fits_of_birth hb he hxa
  constructor
  · intro n f hf
    obtain ⟨v, hv, hread⟩ := hfits.exists_constant b.targetId hf
    obtain ⟨s, hl, ht, hattr, -⟩ := hg.constant_of_birth hb he hxa (List.mem_append_right _ hv)
    cases f with
    | spelled t =>
      obtain rfl : t = v := Option.some.inj hread
      exact hattr
    | handle s' =>
      -- the arena stores a text once, so there is one handle that reads it
      obtain rfl : s' = s := TextArena.eq_of_resolve hread ht
      rw [Field.Agrees, hl]
      rfl
  · intro n f hf
    obtain ⟨v, hv, -⟩ := hfits.exists_constant b.targetId hf
    obtain ⟨s, -, -, -, hconstant⟩ := hg.constant_of_birth hb he hxa (List.mem_append_right _ hv)
    exact hconstant

/-! ## The module of an instance -/

theorem Graph.Grant.usable {kind : Kind} {request : Request kind} {storage : Option TextsId}
    (gr : g.Grant request storage) (hg : g.Legible) : g.usable request = true :=
  hg.exists_plan_iff.1 ⟨gr.plan, gr.parent, gr.plan_eq, gr.lineage_eq⟩

theorem Graph.readable_target {kind : Kind} {request : Request kind} (hu : g.usable request = true)
    {m : EntityId .module} (hm : request.target? = some m) : g.readable m = true := by
  cases request with
  | inst name target parent =>
    cases hm
    exact (Bool.and_eq_true _ _ ▸ hu).1
  | _ => cases hm

/-- **The module that an instance was asked of had the id that it was born with.** -/
theorem Reached.exists_target (hg : Reached h g) {b : Birth} (hb : b ∈ births h)
    {m : EntityId .module} (hm : b.request.target? = some m) :
    ∃ c ∈ births h, c.ref = ⟨.module, m⟩ ∧ b.targetId = some c.composedId := by
  induction hg with
  | refl => cases hb
  | step hs hstep ih =>
    rw [births_append, List.mem_append] at hb
    simp only [births_append, List.mem_append]
    rcases hb with hb | hb
    · obtain ⟨c, hc, hcm⟩ := ih hb
      exact ⟨c, Or.inl hc, hcm⟩
    · obtain ⟨kind, request, storage, gr, rfl, -⟩ := hstep.grant_of_birth hb
      have hu := gr.usable (Reached.legible hs)
      obtain ⟨e, he, hopen⟩ := Graph.readable_iff.1 (Graph.readable_target hu hm)
      obtain ⟨c, hc, href⟩ := Reached.exists_birth hs (r := ⟨.module, m⟩) he
      have hid := ((Reached.texts_of_ref hs hc href) he hopen).2
      refine ⟨c, Or.inl hc, href, ?_⟩
      rw [Graph.birth, show request.target? = some m from hm, Option.bind_some, he]
      exact hid

/-- The module of an instance is the one that it was asked of, and its id at that moment is an
    attribute. -/
theorem Reached.module_of_instance (hg : Reached h g) {b : Birth} (hb : b ∈ births h)
    {i : EntityId .inst} (href : b.ref = ⟨.inst, i⟩) {e : Entity .inst} (he : g.entity? i = some e)
    (hopen : (g.open? e.object).isSome) : b.request.target? = some e.data.target ∧
      ∀ t, b.targetId = some t →
        g.attr? e.object "module" = some t ∧ g.isConstant e.object "module" = true := by
  obtain ⟨⟨x, a⟩, hxa⟩ := Option.isSome_iff_exists.1 hopen
  obtain ⟨request, id, object, storage, name, parent, targetId⟩ := b
  cases href
  have hfits := hg.fits_of_birth hb he hxa
  cases request with
  | inst name target place =>
    refine ⟨congrArg some hfits.1.symm, ?_⟩
    rintro t rfl
    have hmem : ("module", t) ∈ Request.ownConstants (some t) (.inst name target place) :=
      List.mem_singleton.2 rfl
    obtain ⟨s, -, -, hattr⟩ := hg.constant_of_birth hb he hxa (List.mem_append_right _ hmem)
    exact hattr

/-! ## The fields of designs -/

/-- The fields of the entities of a design after some calls, in terms of their births. -/
structure Design.Fields (l : Logger) (cs : List Call) : Prop where
  /-- Whatever is there was made by a call. -/
  born : ∀ (r : EntityRef) e, (after l cs).graph.entity? r.id = some e →
    ∃ b ∈ births (history cs), b.ref = r ∧
      ∃ p c, p ++ [c] <+: cs ∧ (after l p).graph.Bears c b
  mirrors : ∀ (r : EntityRef) e, (after l cs).graph.entity? r.id = some e →
    ((after l cs).graph.open? e.object).isSome → (after l cs).graph.Mirrors e
  /-- Fields and constants are what the call asked for. -/
  passed : ∀ b ∈ births (history cs), ∀ e, (after l cs).graph.entity? b.id = some e →
    ((after l cs).graph.open? e.object).isSome →
      b.request.Fits ((after l cs).graph.resolve e) e.data ∧
      ∀ n v, (n, v) ∈ b.request.ownConstants b.targetId →
        (after l cs).graph.attr? e.object n = some v ∧
          (after l cs).graph.isConstant e.object n = true
  /-- The attribute `module` of an instance is the id that its module had when the instance was
      made, which is the id that the module was made with and has as long as it can be read. -/
  instances : ∀ (i : EntityId .inst) e, (after l cs).graph.entity? i = some e →
    ((after l cs).graph.open? e.object).isSome →
      ∃ b ∈ births (history cs), ∃ c ∈ births (history cs),
        b.ref = ⟨.inst, i⟩ ∧ c.ref = ⟨.module, e.data.target⟩ ∧ b.targetId = some c.composedId ∧
        (after l cs).graph.attr? e.object "module" = some c.composedId ∧
        (after l cs).graph.isConstant e.object "module" = true ∧
        ∀ m, (after l cs).graph.entity? e.data.target = some m →
          ((after l cs).graph.open? m.object).isSome →
            (after l cs).graph.idOf m = some c.composedId

/-- No write moves the value of a parameter away from its field. -/
example : let g := Graph.empty.after [.create (.module "cpu" false true) none,
      .create (.param "width" "8" false ⟨0⟩) (some ⟨0⟩), .setAttr ⟨1⟩ "value" "16" false,
      .setAttrs ⟨0⟩ ["value", "8"]]
    g.attr? ⟨1⟩ "value" = some "8" ∧
      (g.entity? (⟨0⟩ : EntityId .param)).bind (fun e => g.resolve e e.data.value) = some "8" := by
  decide +kernel

end DesignGraph
