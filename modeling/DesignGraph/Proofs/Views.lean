/-
  Views of a graph — what each operation does to arenas, objects and entities.

  Being listed by its members changes the collections of an entity and nothing
  else, so the rest of it is compared through `Entity.bare`, the entity without
  its collections.

  * `Graph.bare?` reads an entity without its collections; `bare?_modifyData`,
    `bare?_install_self`, `bare?_install_of_ne`, `bare?_free_of_ne` and the like
    for objects and arenas (`get?_objects_install`, `get?_texts_free`, …);
  * `map_entity?_enlist`, `map_entity?_install_of_ne`: a view of an entity that does
    not show its collections stays as it is while others are made and listed;
  * `WriteEffect` is what an accepted write changes: the attributes of one object
    and the arena they are kept in.
-/
import DesignGraph.Graph.Update
import DesignGraph.Proofs.Attributes
import DesignGraph.Proofs.Slots

namespace DesignGraph

open DesignGraph.Graph (Draft)

/-! ## Entities without their collections -/

/-- The data of an entity with empty collections. -/
def Data.bare : {kind : Kind} → Data kind → Data kind
  | .port, p => p
  | .pin, p => p
  | .param, p => p
  | .adjustment, a => a
  | .decl, d => d
  | .code, c => c
  | .module, m => { ilm := m.ilm, body := m.body.map fun _ => {} }
  | .inst, i => { target := i.target, parent := i.parent }
  | .register, r => r
  | .entry, e => { parent := e.parent }
  | .regfile, r => { parent := r.parent }

/-- An entity with empty collections. -/
def Entity.bare {kind : Kind} (e : Entity kind) : Entity kind := { e with data := e.data.bare }

/-- Being listed shows in the collections only. -/
theorem Data.bare_add {owner member : Kind} (l : Link owner member) (x : EntityId member)
    (d : Data owner) : (l.add x d).bare = d.bare := by
  cases l <;> simp only [Link.add, Data.bare, Option.map_map, Function.comp_def]

namespace Graph

variable {g : Graph} {kind k : Kind}

/-- An entity with empty collections. -/
def bare? (g : Graph) (id : EntityId kind) : Option (Entity kind) :=
  (g.entity? id).map Entity.bare

/-- The table of a kind gave out the id. -/
def Issued (g : Graph) (r : EntityRef) : Prop := (g.tables.get r.kind).Issued r.id

theorem issued_of_entity? {id : EntityId kind} {e : Entity kind} (h : g.entity? id = some e) :
    g.Issued ⟨kind, id⟩ := Slots.issued_of_get? h

/-! ## Changing data in place -/

theorem entity?_set_self (t : Table kind) (id : EntityId kind) :
    { g with tables := g.tables.set t : Graph }.entity? id = t.get? id := by
  rw [entity?, Tables.get_set_self]

theorem entity?_set_of_ne (t : Table kind) (id : EntityId k) (h : k ≠ kind) :
    { g with tables := g.tables.set t : Graph }.entity? id = g.entity? id := by
  rw [entity?, Tables.get_set_of_ne _ _ h]; rfl

theorem entity?_modifyData_self (i : EntityId kind) (f : Data kind → Data kind) :
    (g.modifyData i f).entity? i = (g.entity? i).map fun e => { e with data := f e.data } := by
  rw [modifyData, entity?_set_self, Slots.get?_modify, if_pos rfl]; rfl

theorem entity?_modifyData_of_ne {i : EntityId kind} {f : Data kind → Data kind} {j : EntityId k}
    (h : (⟨k, j⟩ : EntityRef) ≠ ⟨kind, i⟩) : (g.modifyData i f).entity? j = g.entity? j := by
  rw [modifyData]
  by_cases hk : k = kind
  · subst hk
    rw [entity?_set_self, Slots.get?_modify, if_neg (by rintro rfl; exact h rfl)]; rfl
  · rw [entity?_set_of_ne _ _ hk]

theorem bare?_modifyData (i : EntityId kind) {f : Data kind → Data kind}
    (hf : ∀ d, (f d).bare = d.bare) (j : EntityId k) : (g.modifyData i f).bare? j = g.bare? j := by
  rw [bare?, bare?]
  by_cases h : (⟨k, j⟩ : EntityRef) = ⟨kind, i⟩
  · cases h
    rw [entity?_modifyData_self, Option.map_map]
    refine congrArg (Option.map · _) (funext fun e => ?_)
    simp only [Function.comp_apply, Entity.bare, hf]
  · rw [entity?_modifyData_of_ne h]

theorem issued_modifyData (i : EntityId kind) (f : Data kind → Data kind) {r : EntityRef} :
    (g.modifyData i f).Issued r ↔ g.Issued r := by
  rw [Issued, Issued, modifyData]
  by_cases hk : r.kind = kind
  · obtain ⟨k, j⟩ := r
    subst hk
    rw [Tables.get_set_self, Slots.issued_modify]
  · rw [Tables.get_set_of_ne _ _ hk]

/-! ## Listing an entity with its owners -/

section
variable (id : EntityId kind) (ms : List (Membership kind))

theorem objects_enlist (g : Graph) : (ms.foldl (enlist · id) g).objects = g.objects := by
  induction ms generalizing g with
  | nil => rfl
  | cons m ms ih => exact ih _

theorem texts_enlist (g : Graph) : (ms.foldl (enlist · id) g).texts = g.texts := by
  induction ms generalizing g with
  | nil => rfl
  | cons m ms ih => exact ih _

/-- What does not show the collections of an entity is left alone. -/
theorem map_entity?_enlist {β : Type} {v : Entity k → β}
    (hv : ∀ {member : Kind} (l : Link k member) x e, v { e with data := l.add x e.data } = v e)
    (g : Graph) (j : EntityId k) :
    ((ms.foldl (enlist · id) g).entity? j).map v = (g.entity? j).map v := by
  induction ms generalizing g with
  | nil => rfl
  | cons m ms ih =>
    rw [List.foldl_cons, ih]
    obtain ⟨l, i⟩ := m
    by_cases h : (⟨k, j⟩ : EntityRef) = ⟨_, i⟩
    · cases h
      rw [enlist, entity?_modifyData_self, Option.map_map]
      exact congrArg (Option.map · _) (funext fun e => hv l id e)
    · rw [enlist, entity?_modifyData_of_ne h]

theorem bare?_enlist (g : Graph) (j : EntityId k) :
    (ms.foldl (enlist · id) g).bare? j = g.bare? j :=
  map_entity?_enlist id ms (fun l x e => by simp only [Entity.bare, Data.bare_add]) g j

theorem issued_enlist (g : Graph) {r : EntityRef} :
    (ms.foldl (enlist · id) g).Issued r ↔ g.Issued r := by
  induction ms generalizing g with
  | nil => rfl
  | cons m ms ih => exact (ih _).trans (issued_modifyData m.id _)

end

/-! ## The new entity -/

theorem tables_keepTexts (storage : StorageHandle) (arena : TextArena) :
    (g.keepTexts storage arena).tables = g.tables := by cases storage <;> rfl

theorem objects_keepTexts (storage : StorageHandle) (arena : TextArena) :
    (g.keepTexts storage arena).objects = g.objects := by cases storage <;> rfl

variable (d : Draft kind)

/-- The graph before the new entity is listed with its owners. -/
theorem install_eq : g.install d = ((g.tables.get kind).nextId,
    (Data.links d.data).foldl (enlist · (g.tables.get kind).nextId)
      { texts := (g.keepTexts d.object.storage d.arena).texts
        objects := (g.objects.alloc d.object).2
        tables := g.tables.set ((g.tables.get kind).alloc
          { object := g.objects.nextId, name := d.object.name, data := d.data }).2 }) := by
  rw [← g.tables_keepTexts d.object.storage d.arena, ← g.objects_keepTexts d.object.storage d.arena]
  rfl

theorem objects_install : (g.install d).2.objects = (g.objects.alloc d.object).2 := by
  rw [install_eq, objects_enlist]

theorem texts_install :
    (g.install d).2.texts = (g.keepTexts d.object.storage d.arena).texts := by
  rw [install_eq, texts_enlist]

theorem get?_objects_install (o : ObjectId) : (g.install d).2.objects.get? o =
    if o = g.objects.nextId then some d.object else g.objects.get? o := by
  rw [objects_install, Slots.get?_alloc]

theorem bare?_install_self : (g.install d).2.bare? (g.tables.get kind).nextId =
    some { object := g.objects.nextId, name := d.object.name, data := d.data.bare } := by
  rw [install_eq, bare?_enlist, bare?, entity?, Tables.get_set_self, Slots.get?_alloc, if_pos rfl]
  rfl

theorem map_entity?_install_of_ne {β : Type} {v : Entity k → β}
    (hv : ∀ {member : Kind} (l : Link k member) x e, v { e with data := l.add x e.data } = v e)
    {j : EntityId k} (h : (⟨k, j⟩ : EntityRef) ≠ ⟨kind, (g.tables.get kind).nextId⟩) :
    ((g.install d).2.entity? j).map v = (g.entity? j).map v := by
  rw [install_eq, map_entity?_enlist _ _ hv, entity?, entity?]
  by_cases hk : k = kind
  · subst hk
    rw [Tables.get_set_self, Slots.get?_alloc, if_neg (by rintro rfl; exact h rfl)]
  · rw [Tables.get_set_of_ne _ _ hk]

theorem bare?_install_of_ne {j : EntityId k}
    (h : (⟨k, j⟩ : EntityRef) ≠ ⟨kind, (g.tables.get kind).nextId⟩) :
    (g.install d).2.bare? j = g.bare? j :=
  map_entity?_install_of_ne d (fun l x e => by simp only [Entity.bare, Data.bare_add]) h

theorem issued_install {r : EntityRef} : (g.install d).2.Issued r ↔
    g.Issued r ∨ r = ⟨kind, (g.tables.get kind).nextId⟩ := by
  rw [install_eq, issued_enlist, Issued, Issued]
  obtain ⟨k, j⟩ := r
  by_cases hk : k = kind
  · subst hk
    rw [Tables.get_set_self, Slots.issued_alloc]
    simp
  · rw [Tables.get_set_of_ne _ _ hk]
    simp [hk]

/-! ## Taking out an entity -/

section
variable {id : EntityId kind} {e : Entity kind} {o : ObjectId}

theorem tables_release : (g.release o).tables = g.tables := by
  unfold release
  split
  · rfl
  · split <;> rfl

theorem objects_release : (g.release o).objects = (g.objects.free o).2 := by
  unfold release
  split
  · next t h =>
    have : g.objects.get? o = none := by rw [← Slots.free_fst, h]
    rw [Slots.free_of_get?_none this]
  · next obj t h => split <;> simp [h]

theorem texts_release : (g.release o).texts =
    match (g.objects.get? o).map (·.storage) with
      | some (.owned s) => (g.texts.free s).2
      | _ => g.texts := by
  rw [← Slots.free_fst]
  unfold release
  split
  · next t h => rw [h]; rfl
  · next obj t h =>
    rw [h, Option.map_some]
    split <;> next hs => rw [hs]

theorem free_of_none (h : g.entity? id = none) : g.free id = g := by
  unfold free
  rw [Slots.free_of_get?_none h]

theorem free_of_some (h : g.entity? id = some e) : g.free id =
    { g with tables := g.tables.set ((g.tables.get kind).free id).2 : Graph }.release e.object := by
  have hf := (g.tables.get kind).free_fst id
  unfold free
  split
  · next t ht =>
    rw [ht, show (g.tables.get kind).get? id = some e from h] at hf
    cases hf
  · next e' t ht =>
    rw [ht, show (g.tables.get kind).get? id = some e from h] at hf
    cases hf
    rw [ht]

theorem get?_objects_free (h : g.entity? id = some e) (o : ObjectId) :
    (g.free id).objects.get? o = if o = e.object then none else g.objects.get? o := by
  rw [free_of_some h, objects_release, Slots.get?_free]

/-- The arena of an entity goes if its object owns it. -/
theorem texts_free (h : g.entity? id = some e) : (g.free id).texts =
    match (g.objects.get? e.object).map (·.storage) with
      | some (.owned s) => (g.texts.free s).2
      | _ => g.texts := by
  rw [free_of_some h]
  exact texts_release

theorem get?_texts_free {x : Object} (h : g.entity? id = some e)
    (hx : g.objects.get? e.object = some x) (s : TextsId) :
    (g.free id).texts.get? s = if x.storage = .owned s then none else g.texts.get? s := by
  rw [texts_free h, hx, Option.map_some]
  rcases x.storage with t | t
  · rw [Slots.get?_free]
    by_cases hs : s = t
    · rw [if_pos hs, if_pos (by rw [hs])]
    · rw [if_neg hs, if_neg fun h => hs (StorageHandle.owned.inj h).symm]
  · rw [if_neg fun h => by cases h]

theorem bare?_free_self (id : EntityId kind) : (g.free id).bare? id = none := by
  rcases h : g.entity? id with _ | e
  · rw [free_of_none h, bare?, h]; rfl
  · rw [free_of_some h, bare?, entity?, tables_release, Tables.get_set_self, Slots.get?_free,
      if_pos rfl]
    rfl

theorem entity?_free_of_ne {j : EntityId k} (hj : (⟨k, j⟩ : EntityRef) ≠ ⟨kind, id⟩) :
    (g.free id).entity? j = g.entity? j := by
  rcases h : g.entity? id with _ | e
  · rw [free_of_none h]
  · rw [free_of_some h, entity?, entity?, tables_release]
    by_cases hk : k = kind
    · subst hk
      rw [Tables.get_set_self, Slots.get?_free, if_neg (by rintro rfl; exact hj rfl)]
    · rw [Tables.get_set_of_ne _ _ hk]

theorem bare?_free_of_ne {j : EntityId k} (hj : (⟨k, j⟩ : EntityRef) ≠ ⟨kind, id⟩) :
    (g.free id).bare? j = g.bare? j := by rw [bare?, entity?_free_of_ne hj]; rfl

theorem issued_free {r : EntityRef} : (g.free id).Issued r ↔ g.Issued r := by
  rcases h : g.entity? id with _ | e
  · rw [free_of_none h]
  · rw [free_of_some h, Issued, Issued, tables_release]
    obtain ⟨k, j⟩ := r
    by_cases hk : k = kind
    · subst hk
      rw [Tables.get_set_self, Slots.issued_free]
    · rw [Tables.get_set_of_ne _ _ hk]

end

/-! ## Writing an attribute -/

theorem open?_eq_some_iff {o : ObjectId} {obj : Object} {arena : TextArena} :
    g.open? o = some (obj, arena) ↔
      g.objects.get? o = some obj ∧ g.texts.get? obj.storage.id = some arena := by
  simp only [open?, Option.bind_eq_some_iff, Option.map_eq_some_iff, Prod.mk.injEq]
  constructor
  · rintro ⟨x, hx, a, ha, rfl, rfl⟩
    exact ⟨hx, ha⟩
  · rintro ⟨hx, ha⟩
    exact ⟨obj, hx, arena, ha, rfl, rfl⟩

/-- What an accepted write changes. -/
structure WriteEffect (g : Graph) (o : ObjectId) (w : Write) (g' : Graph) where
  object : Object
  before : TextArena
  attributes : Attributes
  arena : TextArena
  open?_eq : g.open? o = some (object, before)
  set_eq : object.attributes.set before w.name w.value w.constant = some (attributes, arena)
  graph_eq : g' = { g with
    objects := g.objects.modify o fun x => { x with attributes }
    texts := g.texts.modify object.storage.id fun _ => arena }

theorem writeEffect {o : ObjectId} {name value : String} {c : Bool} {g' : Graph}
    (h : g.setAttr? o name value c = some g') :
    Nonempty (g.WriteEffect o ⟨name, value, c⟩ g') := by
  simp only [setAttr?, Option.bind_eq_bind, Option.bind_eq_some_iff, Option.some.injEq] at h
  obtain ⟨⟨obj, arena⟩, ho, ⟨attributes, arena'⟩, hs, h⟩ := h
  exact ⟨obj, arena, attributes, arena', ho, hs, h.symm⟩

namespace WriteEffect

variable {o : ObjectId} {w : Write} {g' : Graph} (ef : g.WriteEffect o w g')
include ef

theorem object_eq : g.objects.get? o = some ef.object := (open?_eq_some_iff.1 ef.open?_eq).1

theorem before_eq : g.texts.get? ef.object.storage.id = some ef.before :=
  (open?_eq_some_iff.1 ef.open?_eq).2

theorem objects_eq : g'.objects =
    g.objects.modify o fun x => { x with attributes := ef.attributes } :=
  congrArg Graph.objects ef.graph_eq

theorem texts_eq : g'.texts = g.texts.modify ef.object.storage.id fun _ => ef.arena :=
  congrArg Graph.texts ef.graph_eq

theorem tables_eq : g'.tables = g.tables := (congrArg Graph.tables ef.graph_eq :)

theorem get?_objects (p : ObjectId) : g'.objects.get? p =
    if p = o then some { ef.object with attributes := ef.attributes } else g.objects.get? p := by
  rw [ef.objects_eq, Slots.get?_modify]
  by_cases h : p = o
  · rw [if_pos h, if_pos h, h, ef.object_eq]; rfl
  · rw [if_neg h, if_neg h]

theorem get?_texts (s : TextsId) : g'.texts.get? s =
    if s = ef.object.storage.id then some ef.arena else g.texts.get? s := by
  rw [ef.texts_eq, Slots.get?_modify]
  by_cases h : s = ef.object.storage.id
  · rw [if_pos h, if_pos h, h, ef.before_eq]; rfl
  · rw [if_neg h, if_neg h]

theorem issued_objects {p : ObjectId} : g'.objects.Issued p ↔ g.objects.Issued p := by
  rw [ef.objects_eq, Slots.issued_modify]

theorem issued_texts {s : TextsId} : g'.texts.Issued s ↔ g.texts.Issued s := by
  rw [ef.texts_eq, Slots.issued_modify]

end WriteEffect

end Graph

end DesignGraph
