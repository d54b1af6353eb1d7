/-
  Frame — taking out an entity takes its object along, and its arena if the object owns
  it, and leaves everything else as it is.

  The lists of owners and the entities that were made for the one taken out are part of
  what is left.  Texts can be lost elsewhere, though: an object that borrowed the arena
  stays, and cannot be read any more.

  * `Graph.open?_free` says which objects can still be read;
  * `SameTexts` and `NoTexts`: all that is read of an object is as it was, or absent;
  * `Graph.TakesOut` lists what becomes of a graph, `takesOut_free` shows it where
    entities and objects match;
  * `frees_take_out_one_entity` is what follows for designs.
-/
import DesignGraph.Proofs.Generative

namespace DesignGraph

/-! ## Texts that stay and texts that go -/

/-- All that is read of an object is the same in both graphs. -/
structure Graph.SameTexts (g g' : Graph) (o : ObjectId) : Prop where
  attr : ∀ n, g'.attr? o n = g.attr? o n
  constant : ∀ n, g'.isConstant o n = g.isConstant o n
  objectId : g'.objectId o = g.objectId o
  objectName : g'.objectName o = g.objectName o
  resolve : ∀ {kind : Kind} (e : Entity kind), e.object = o → ∀ s, g'.resolve e s = g.resolve e s
  nameOf : ∀ {kind : Kind} (e : Entity kind), e.object = o → g'.nameOf e = g.nameOf e
  idOf : ∀ {kind : Kind} (e : Entity kind), e.object = o → g'.idOf e = g.idOf e

/-- Nothing is read of an object. -/
structure Graph.NoTexts (g : Graph) (o : ObjectId) : Prop where
  attr : ∀ n, g.attr? o n = none
  constant : ∀ n, g.isConstant o n = false
  objectId : g.objectId o = none
  objectName : g.objectName o = none
  resolve : ∀ {kind : Kind} (e : Entity kind), e.object = o → ∀ s, g.resolve e s = none
  nameOf : ∀ {kind : Kind} (e : Entity kind), e.object = o → g.nameOf e = none
  idOf : ∀ {kind : Kind} (e : Entity kind), e.object = o → g.idOf e = none

/-- Owners and members are of different kinds. -/
theorem Link.owner_ne {owner member : Kind} (l : Link owner member) : owner ≠ member := by
  cases l <;> decide

namespace Graph

variable {g g' : Graph} {kind : Kind} {o : ObjectId}

theorem sameTexts_of_open? (h : g'.open? o = g.open? o) : g.SameTexts g' o where
  attr n := by rw [attr?, attr?, h]
  constant n := by rw [isConstant, isConstant, h]
  objectId := by rw [Graph.objectId, Graph.objectId, h]
  objectName := by rw [Graph.objectName, Graph.objectName, h]
  resolve e he s := by rw [Graph.resolve, Graph.resolve, he, h]
  nameOf e he := by rw [Graph.nameOf, Graph.nameOf, Graph.resolve, Graph.resolve, he, h]
  idOf e he := by rw [Graph.idOf, Graph.idOf, Graph.objectId, Graph.objectId, he, h]

theorem noTexts_of_open? (h : g.open? o = none) : g.NoTexts o where
  attr n := by rw [attr?, h]; rfl
  constant n := by rw [isConstant, h]; rfl
  objectId := by rw [Graph.objectId, h]; rfl
  objectName := by rw [Graph.objectName, h]; rfl
  resolve e he s := by rw [Graph.resolve, he, h]; rfl
  nameOf e he := by rw [Graph.nameOf, Graph.resolve, he, h]; rfl
  idOf e he := by rw [Graph.idOf, Graph.objectId, he, h]; rfl

/-! ## What a release reaches -/

variable {id : EntityId kind} {e : Entity kind} {x : Object}

theorem entity?_free_self (g : Graph) (id : EntityId kind) : (g.free id).entity? id = none :=
  Option.map_eq_none_iff.1 (bare?_free_self id)

/-- An object can be read as before, unless it was taken out itself or its arena went with
    the one that was. -/
theorem open?_free (h : g.entity? id = some e) (hx : g.objects.get? e.object = some x)
    (o : ObjectId) : (g.free id).open? o =
      if o = e.object ∨ (g.storageOf o).map .owned = some x.storage then none else g.open? o := by
  rw [open?, open?, get?_objects_free h, storageOf]
  by_cases ho : o = e.object
  · rw [if_pos ho, if_pos (Or.inl ho)]
    rfl
  rw [if_neg ho]
  rcases hy : g.objects.get? o with _ | y
  · simp
  · simp only [Option.bind_some, Option.map_some]
    rw [get?_texts_free h hx]
    by_cases hs : x.storage = .owned y.storage.id
    · rw [if_pos hs, if_pos (Or.inr (congrArg some hs.symm))]
      rfl
    · rw [if_neg hs, if_neg]
      rintro (h | h)
      · exact ho h
      · exact hs (Option.some.inj h).symm

/-- What becomes of a graph when an entity with its object is taken out. -/
structure TakesOut (g : Graph) (id : EntityId kind) (e : Entity kind) (x : Object) (g' : Graph) :
    Prop where
  entity : g'.entity? id = none
  object : g'.objects.get? e.object = none
  /-- All other entities stay as they are, and all other objects. -/
  entities : ∀ {k : Kind} (j : EntityId k), (⟨k, j⟩ : EntityRef) ≠ ⟨kind, id⟩ →
    g'.entity? j = g.entity? j
  objects : ∀ o, o ≠ e.object → g'.objects.get? o = g.objects.get? o
  arenas : ∀ s, g'.texts.get? s = if x.storage = .owned s then none else g.texts.get? s
  /-- No number is given back. -/
  next : g'.objects.nextId = g.objects.nextId ∧ g'.texts.nextId = g.texts.nextId ∧
    ∀ k, (g'.tables.get k).nextId = (g.tables.get k).nextId
  /-- Owners still list the entity, -/
  listed : ∀ {owner : Kind} (l : Link owner kind) (o : EntityId owner),
    g'.listing l o = g.listing l o
  /-- and those that it listed are as they were. -/
  members : ∀ {member : Kind} (l : Link kind member) xs, l.members e.data = some xs →
    ∀ i ∈ xs, g'.entity? i = g.entity? i
  /-- A borrowed arena stays, and everything can be read as before. -/
  borrowed : ∀ s, x.storage = .borrowed s → ∀ o, o ≠ e.object → g.SameTexts g' o
  /-- If the arena goes, all that is kept elsewhere can be read as before, -/
  spared : ∀ s, x.storage = .owned s → ∀ o, g.storageOf o ≠ some s → g.SameTexts g' o
  /-- and nothing that was kept in it. -/
  lost : ∀ s, x.storage = .owned s → ∀ o, g.storageOf o = some s → g'.NoTexts o

theorem nextId_objects_free (h : g.entity? id = some e) :
    (g.free id).objects.nextId = g.objects.nextId := by
  rw [free_of_some h, objects_release, Slots.nextId_free]

theorem nextId_texts_free (h : g.entity? id = some e) :
    (g.free id).texts.nextId = g.texts.nextId := by
  rw [texts_free h]
  split
  · exact Slots.nextId_free _ _
  · rfl

theorem nextId_tables_free (h : g.entity? id = some e) (k : Kind) :
    ((g.free id).tables.get k).nextId = (g.tables.get k).nextId := by
  rw [free_of_some h, tables_release]
  by_cases hk : k = kind
  · subst hk
    rw [Tables.get_set_self, Slots.nextId_free]
  · rw [Tables.get_set_of_ne _ _ hk]

/-- **What is taken out is one entity with its object, and the arena the object owns.** -/
theorem takesOut_free (h : g.entity? id = some e) (hx : g.objects.get? e.object = some x) :
    g.TakesOut id e x (g.free id) := by
  have hmember : ∀ {k : Kind} (j : EntityId k), k ≠ kind → (g.free id).entity? j = g.entity? j := by
    intro k j hk
    refine entity?_free_of_ne ?_
    rintro ⟨⟩
    exact hk rfl
  refine ⟨entity?_free_self g id, ?_, fun j => entity?_free_of_ne, ?_, get?_texts_free h hx,
    ⟨nextId_objects_free h, nextId_texts_free h, nextId_tables_free h⟩, ?_, ?_, ?_, ?_, ?_⟩
  · rw [get?_objects_free h, if_pos rfl]
  · intro o ho
    rw [get?_objects_free h, if_neg ho]
  · intro owner l o
    rw [listing, listing, hmember o l.owner_ne]
  · intro member l xs _ i _
    exact hmember i l.owner_ne.symm
  · intro s hs o ho
    refine sameTexts_of_open? ?_
    rw [open?_free h hx, if_neg]
    rintro (h | h)
    · exact ho h
    · rw [hs] at h
      simp at h
  · intro s hs o ho
    refine sameTexts_of_open? ?_
    rw [open?_free h hx, if_neg]
    rintro (rfl | h)
    · exact ho (by rw [storageOf, hx, Option.map_some, hs, StorageHandle.id])
    · rw [hs] at h
      obtain ⟨t, ht, hts⟩ := Option.map_eq_some_iff.1 h
      cases hts
      exact ho ht
  · intro s hs o ho
    refine noTexts_of_open? ?_
    rw [open?_free h hx, if_pos (Or.inr _)]
    rw [ho, hs]
    rfl

end Graph

/-! ## Taking entities out of designs -/

/-- What taking out an entity does to a design after some calls. -/
structure Design.Frame (l : Logger) (cs : List Call) : Prop where
  /-- An entity that is there goes with its object, and nothing else does. -/
  taken : ∀ {kind : Kind} (id : EntityId kind) e, (after l cs).graph.entity? id = some e →
    ∃ x, (after l cs).graph.objects.get? e.object = some x ∧
      (after l cs).graph.TakesOut id e x ((after l cs).perform (.free (some id))).2.graph
  /-- The instance that stands for a module outlives it. -/
  standIn : ∀ (m : EntityId .module) e i, (after l cs).graph.entity? m = some e →
    e.data.defaultInstance = some i →
      ((after l cs).perform (.free (some m))).2.graph.entity? i = (after l cs).graph.entity? i
  quiet : ∀ {kind : Kind} (id : Option (EntityId kind)),
    ((after l cs).perform (.free id)).1 = .done ∧
      ((after l cs).perform (.free id)).2.logger = (after l cs).logger
  /-- Nothing changes if there is no such entity, or none is named. -/
  idle : ∀ {kind : Kind} (id : Option (EntityId kind)),
    (id.bind fun i => (after l cs).graph.entity? i) = none →
      ((after l cs).perform (.free id)).2 = after l cs

/-- **Whatever the calls, taking out an entity leaves everything else as it is.** -/
theorem frees_take_out_one_entity (l : Logger) (cs : List Call) : Design.Frame l cs := by
  have ha := (reached_after l cs).aligned
  refine ⟨?_, ?_, ?_, ?_⟩
  · intro kind id e he
    obtain ⟨x, hx, -⟩ := ha.object id e.bare (Graph.bare?_of_entity? he)
    exact ⟨x, hx, Graph.takesOut_free he hx⟩
  · intro m e i _ _
    exact Graph.entity?_free_of_ne (by rintro ⟨⟩)
  · intro kind id
    cases id <;> exact ⟨rfl, rfl⟩
  · intro kind id h
    rcases id with _ | id
    · rfl
    · rw [Design.perform, Graph.perform, Graph.free_of_none h]
      rfl

/-- A port that shares the arena of its module is there without it, and has no texts. -/
example : let g := Graph.empty.after [.create (.module "cpu" false true) none,
      .create (.port "clk" .input ⟨0⟩) (some ⟨0⟩), .free (some (⟨0⟩ : EntityId .module))]
    (g.entity? (⟨0⟩ : EntityId .port)).isSome ∧ g.objectName ⟨1⟩ = none := by
  decide +kernel

end DesignGraph
