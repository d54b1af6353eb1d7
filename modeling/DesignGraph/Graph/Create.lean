/-
  Creation — how a granted request becomes an entity.

  A new entity gets an object, and the object an arena: a new one that it owns,
  or a given one that it borrows.  The constants `type`, `id`, `name` and
  `parent` are written first, those of the kind after them; then the entity is
  listed with its owners.  Nothing is changed before all of this is known to
  succeed.

  * `Graph.draft` writes the object of a new entity, `Graph.install` puts it
    into the graph;
  * `Graph.build` answers a request; `Graph.create` also gives a generative
    module its default instance.
-/
import DesignGraph.Graph.Request

namespace DesignGraph

/-- What an operation answers, the graph it leaves, and what it has to say. -/
structure Outcome (α : Type) where
  result : α
  graph : Graph
  notes : List Note := []

namespace Graph

/-! ## Circumstances -/

/-- What a new object takes from its structural parent. -/
structure Lineage where
  name : String
  id : String

/-- The name and the id of a structural parent, if there is one; no answer if
    there is one and its texts are gone. -/
def lineage (g : Graph) : Option ObjectId → Option (Option Lineage)
  | none => some none
  | some o => (g.objectName o).bind fun name => (g.objectId o).map fun id => some ⟨name, id⟩

/-- The arena for a new object: the given one, or else an empty one of its own.
    No answer if the given one is gone. -/
def site (g : Graph) : Option TextsId → Option (StorageHandle × TextArena)
  | none => some (.owned g.texts.nextId, .empty)
  | some s => (g.texts.get? s).map (.borrowed s, ·)

/-! ## Objects -/

/-- A new entity that is not in the graph yet. -/
structure Draft (kind : Kind) where
  object : Object
  arena : TextArena
  data : Data kind

/-- The constants of every object. -/
def commonConstants (kind : Kind) (name : String) (parent : Option Lineage) :
    List (String × String) :=
  [("type", kind.label), ("id", composeId kind (parent.map (·.name)) name), ("name", name)] ++
    parent.toList.map ("parent", ·.id)

/-- The handle of the value of an attribute; its name is the error if there is
    no such attribute. -/
def handleOf (attributes : Attributes) (arena : TextArena) (name : String) :
    Except String Sym :=
  match attributes.lookup arena name with
  | some x => .ok x.value
  | none => .error name

/-- Writes the object of a new entity.  The error is the name of a constant that
    could not be written. -/
def draft (g : Graph) {kind : Kind} (request : Request kind) (plan : Plan)
    (parent : Option Lineage) (site : StorageHandle × TextArena) : Except String (Draft kind) := do
  let (attributes, arena) ← Attributes.empty.sealAll site.2
    (commonConstants kind plan.name parent ++ plan.constants)
  let handle := handleOf attributes arena
  let object := {
    id := ← handle "id"
    name := ← handle "name"
    attributes
    storage := site.1
    payload := ⟨kind, (g.tables.get kind).nextId⟩ }
  .ok { object, arena, data := ← request.data handle }

/-- Keeps the arena of a new object. -/
def keepTexts (g : Graph) (storage : StorageHandle) (arena : TextArena) : Graph :=
  match storage with
  | .owned _ => { g with texts := (g.texts.alloc arena).2 }
  | .borrowed s => { g with texts := g.texts.modify s fun _ => arena }

/-- Lists an entity with an owner. -/
def enlist (g : Graph) {kind : Kind} (id : EntityId kind) (m : Membership kind) : Graph :=
  g.modifyData m.id (m.link.add id)

/-- Puts a new entity into the graph and lists it with its owners. -/
def install (g : Graph) {kind : Kind} (d : Draft kind) : EntityId kind × Graph :=
  let g := g.keepTexts d.object.storage d.arena
  let (object, objects) := g.objects.alloc d.object
  let (id, table) := (g.tables.get kind).alloc { object, name := d.object.name, data := d.data }
  let g := { g with objects, tables := g.tables.set table }
  (id, (Data.links d.data).foldl (enlist · id) g)

/-! ## Requests -/

/-- Answers a request with the new entity, if it is granted.  The arena is the
    given one, or else one of the entity's own. -/
def build (g : Graph) {kind : Kind} (request : Request kind) (storage : Option TextsId) :
    Outcome (Option (EntityId kind)) :=
  match g.plan request with
  | .error obstacle => ⟨none, g, obstacle.notes⟩
  | .ok plan =>
    match g.lineage plan.parent with
    | none => ⟨none, g, plan.announced⟩
    | some parent =>
      let notes := plan.announced ++ [.creatingObject kind plan.name (parent.map (·.id))]
      match g.site storage with
      | none => ⟨none, g, notes⟩
      | some site =>
        match g.draft request plan parent site with
        | .error name => ⟨none, g, notes ++ [.constantNotStored name]⟩
        | .ok d =>
          let (id, g) := g.install d
          ⟨some id, g, notes⟩

/-- Gives a generative module the instance that stands for it: an instance of
    the module, of the same name, placed nowhere. -/
def addDefaultInstance (g : Graph) (name : String) (id : EntityId .module)
    (storage : Option TextsId) : Outcome (Option (EntityId .inst)) :=
  let built := g.build (.inst name id none) storage
  { built with
    graph := built.graph.modifyData id (·.appoint built.result) }

/-- Makes a generative module together with its default instance. -/
def createGenerative (g : Graph) (name : String) (ilm : Bool) (storage : Option TextsId) :
    Outcome (Option (EntityId .module)) :=
  let built := g.build (.module name ilm false) storage
  match built.result with
  | none => built
  | some id =>
    let inner := built.graph.addDefaultInstance name id storage
    ⟨some id, inner.graph, built.notes ++ inner.notes⟩

/-- Answers a request.  A generative module comes with its default instance. -/
def create (g : Graph) : {kind : Kind} → Request kind → Option TextsId →
    Outcome (Option (EntityId kind))
  | _, .module name ilm false, storage => g.createGenerative name ilm storage
  | _, request, storage => g.build request storage

end Graph

end DesignGraph
