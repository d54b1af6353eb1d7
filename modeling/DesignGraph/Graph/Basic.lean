/-
  The graph — every text arena, object and entity of a design.

  Entities refer to each other and to their objects by id, and an object refers
  to its text arena by id.  Ids of what was freed stay in the lists that hold
  them and lead nowhere.

  * `Tables` holds the entities, one table for each kind; `get` and `set` reach
    the table of a kind (`get_set_self`, `get_set_of_ne`);
  * `Graph.entity?` and `Graph.open?` read an entity, and an object together
    with its texts;
  * `objectId`, `objectName`, `attr?`, `isConstant`, `resolve`, `nameOf` and
    `idOf` are the texts a design answers with; each is absent once the entity,
    the object or the arena behind it is gone.
-/
import DesignGraph.Entity.Basic

namespace DesignGraph

/-! ## Tables of entities -/

/-- The entities of one kind. -/
abbrev Table (kind : Kind) := Slots (Pool.entities kind) (Entity kind)

/-- The entities of all kinds. -/
structure Tables where
  ports : Table .port := .empty
  pins : Table .pin := .empty
  params : Table .param := .empty
  adjustments : Table .adjustment := .empty
  decls : Table .decl := .empty
  code : Table .code := .empty
  modules : Table .module := .empty
  instances : Table .inst := .empty
  registers : Table .register := .empty
  entries : Table .entry := .empty
  regfiles : Table .regfile := .empty

namespace Tables

/-- The table of a kind. -/
def get (t : Tables) : (kind : Kind) → Table kind
  | .port => t.ports
  | .pin => t.pins
  | .param => t.params
  | .adjustment => t.adjustments
  | .decl => t.decls
  | .code => t.code
  | .module => t.modules
  | .inst => t.instances
  | .register => t.registers
  | .entry => t.entries
  | .regfile => t.regfiles

/-- Replaces the table of a kind. -/
def set (t : Tables) : {kind : Kind} → Table kind → Tables
  | .port, x => { t with ports := x }
  | .pin, x => { t with pins := x }
  | .param, x => { t with params := x }
  | .adjustment, x => { t with adjustments := x }
  | .decl, x => { t with decls := x }
  | .code, x => { t with code := x }
  | .module, x => { t with modules := x }
  | .inst, x => { t with instances := x }
  | .register, x => { t with registers := x }
  | .entry, x => { t with entries := x }
  | .regfile, x => { t with regfiles := x }

@[simp] theorem get_set_self (t : Tables) {kind : Kind} (x : Table kind) :
    (t.set x).get kind = x := by
  cases kind <;> rfl

theorem get_set_of_ne (t : Tables) {kind other : Kind} (x : Table kind) (h : other ≠ kind) :
    (t.set x).get other = t.get other := by
  cases kind <;> cases other <;> first | rfl | exact absurd rfl h

end Tables

/-! ## Graphs -/

/-- All that a design holds, the logger apart. -/
structure Graph where
  texts : Slots Pool.texts TextArena := .empty
  objects : Slots Pool.objects Object := .empty
  tables : Tables := {}

namespace Graph

instance : Inhabited Graph := ⟨{}⟩

/-- The graph that holds nothing. -/
def empty : Graph := {}

/-- An entity. -/
def entity? (g : Graph) {kind : Kind} (id : EntityId kind) : Option (Entity kind) :=
  (g.tables.get kind).get? id

/-- An object and the arena of its texts, while both are there. -/
def open? (g : Graph) (o : ObjectId) : Option (Object × TextArena) :=
  (g.objects.get? o).bind fun obj => (g.texts.get? obj.storage.id).map (obj, ·)

/-- The arena of an object's texts, whether or not it is still there. -/
def storageOf (g : Graph) (o : ObjectId) : Option TextsId :=
  (g.objects.get? o).map (·.storage.id)

/-- The number of text arenas. -/
def storageCount (g : Graph) : Nat := g.texts.size

/-! ## Texts -/

/-- The composed id of an object. -/
def objectId (g : Graph) (o : ObjectId) : Option String :=
  (g.open? o).bind fun (obj, arena) => arena.resolve obj.id

/-- The name of an object. -/
def objectName (g : Graph) (o : ObjectId) : Option String :=
  (g.open? o).bind fun (obj, arena) => arena.resolve obj.name

/-- The value of an attribute of an object. -/
def attr? (g : Graph) (o : ObjectId) (name : String) : Option String :=
  (g.open? o).bind fun (obj, arena) => obj.attributes.get arena name

/-- Whether an object has an attribute of that name and it is constant. -/
def isConstant (g : Graph) (o : ObjectId) (name : String) : Bool :=
  (g.open? o).any fun (obj, arena) => obj.attributes.isConstant arena name

/-- The text of a handle in the arena of an entity. -/
def resolve (g : Graph) {kind : Kind} (e : Entity kind) (s : Sym) : Option String :=
  (g.open? e.object).bind fun (_, arena) => arena.resolve s

/-- The name of an entity. -/
def nameOf (g : Graph) {kind : Kind} (e : Entity kind) : Option String := g.resolve e e.name

/-- The composed id of an entity. -/
def idOf (g : Graph) {kind : Kind} (e : Entity kind) : Option String := g.objectId e.object

/-! ## Changing entities -/

/-- Changes the data of an entity. -/
def modifyData (g : Graph) {kind : Kind} (id : EntityId kind) (f : Data kind → Data kind) :
    Graph :=
  { g with
    tables := g.tables.set
      ((g.tables.get kind).modify id fun e => { e with data := f e.data }) }

end Graph

end DesignGraph
