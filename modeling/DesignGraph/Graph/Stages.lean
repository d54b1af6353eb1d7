/-
  Stages — a request carried out one change after the other.

  `Graph.create` changes nothing before it knows that all of a request will succeed.
  Here the same request is carried out in stages, and each stage changes the graph at
  once: an arena is made, then the object, the constants of the kind are written, the
  entity is put into its table and listed with its owners.  A stage that fails ends the
  work, and what was changed before it stays changed, unless it is undone.

  * `Work` is work on a graph that may end early; `read`, `change`, `say`, `attempt`
    and `orUndo` are its parts;
  * `Work.object`, `ownConstants`, `entity` and `listing` are the stages of a plan, and
    `Work.fulfil` puts them together; `Work.build` carries out a request, `Work.create`
    one with all that comes with it.
-/
import DesignGraph.Graph.Update

namespace DesignGraph

/-- Work on a graph.  It gives an answer or ends without one; either way the changes
    that it made until then stay. -/
def Work (α : Type) : Type := Graph → Outcome (Option α)

namespace Work

/-! ## Parts of work -/

instance : Monad Work where
  pure a := fun g => ⟨some a, g, []⟩
  bind x f := fun g =>
    let first := x g
    match first.result with
    | none => ⟨none, first.graph, first.notes⟩
    | some a =>
      let rest := f a first.graph
      ⟨rest.result, rest.graph, first.notes ++ rest.notes⟩

section
variable {α : Type}

/-- Says something. -/
def say (notes : List Note) : Work Unit := fun g => ⟨some (), g, notes⟩

/-- Reads the graph; the work ends if there is no answer. -/
def read (f : Graph → Option α) : Work α := fun g => ⟨f g, g, []⟩

/-- Changes the graph. -/
def change (f : Graph → α × Graph) : Work α := fun g => ⟨some (f g).1, (f g).2, []⟩

/-- Goes on even if the work given has ended. -/
def attempt (x : Work α) : Work (Option α) := fun g => ⟨some (x g).result, (x g).graph, (x g).notes⟩

/-- Undoes something if the work given has ended. -/
def orUndo (x : Work α) (undo : Graph → Graph) : Work α := fun g =>
  match (x g).result with
  | none => ⟨none, undo (x g).graph, (x g).notes⟩
  | some a => ⟨some a, (x g).graph, (x g).notes⟩

end

/-! ### One thing after the other -/

section
variable {α β : Type} {g g' : Graph} {x : Work α} {f : α → Work β} {a : α} {notes : List Note}

theorem bind_eq (h : x g = ⟨some a, g', notes⟩) :
    (x >>= f) g = ⟨(f a g').result, (f a g').graph, notes ++ (f a g').notes⟩ := by
  simp only [bind, h]

theorem bind_eq_of_quiet (h : x g = ⟨some a, g', []⟩) : (x >>= f) g = f a g' := bind_eq h

theorem attempt_eq {r : Option α} (h : x g = ⟨r, g', notes⟩) :
    attempt x g = ⟨some r, g', notes⟩ := by
  simp only [attempt, h]

theorem orUndo_eq {undo : Graph → Graph} (h : x g = ⟨some a, g', notes⟩) :
    x.orUndo undo g = ⟨some a, g', notes⟩ := by
  simp only [orUndo, h]

theorem bind_eq_of_none (h : x g = ⟨none, g', notes⟩) : (x >>= f) g = ⟨none, g', notes⟩ := by
  simp only [bind, h]

end

/-! ## The object -/

/-- The plan of a request. -/
def planned {kind : Kind} (request : Request kind) : Work Plan := fun g =>
  match g.plan request with
  | .error obstacle => ⟨none, g, obstacle.notes⟩
  | .ok plan => ⟨some plan, g, plan.announced⟩

/-- The arena of a new object.  A given one has to be there, one of its own is made. -/
def storage : Option TextsId → Work StorageHandle
  | some s => read fun g => if g.texts.contains s then some (.borrowed s) else none
  | none => change fun g => (.owned g.texts.nextId, { g with texts := (g.texts.alloc .empty).2 })

/-- Writes constants into a store.  What is refused is passed over. -/
def writeConstants (a : Attributes) (arena : TextArena) :
    List (String × String) → Attributes × TextArena
  | [] => (a, arena)
  | (name, value) :: rest =>
    let next := (a.set arena name value true).getD (a, arena)
    writeConstants next.1 next.2 rest

/-- A new object with the constants that every object has, and its arena. -/
def plainObject (ref : EntityRef) (name : String) (parent : Option Graph.Lineage)
    (storage : StorageHandle) (arena : TextArena) : Object × TextArena :=
  let (attributes, arena) :=
    writeConstants .empty arena (Graph.commonConstants ref.kind name parent)
  let (id, arena) := arena.insert (composeId ref.kind (parent.map (·.name)) name)
  let (name, arena) := arena.insert name
  ({ id, name, attributes, storage, payload := ref }, arena)

/-- Makes the object of a new entity. -/
def object (ref : EntityRef) (name : String) (parent : Option ObjectId) (given : Option TextsId) :
    Work ObjectId := do
  let parent ← read (·.lineage parent)
  say [.creatingObject ref.kind name (parent.map (·.id))]
  let storage ← storage given
  let arena ← read (·.texts.get? storage.id)
  let (object, arena) := plainObject ref name parent storage arena
  change fun g => (g.objects.nextId, { g with
    objects := (g.objects.alloc object).2
    texts := g.texts.modify storage.id fun _ => arena })

/-! ## Constants of the kind -/

/-- Writes a constant of an object and reads the handle of its value back. -/
def constant (o : ObjectId) (name value : String) : Work Sym := fun g =>
  match g.setAttr? o name value true with
  | none => ⟨none, g, [.constantNotStored name]⟩
  | some g =>
    match (g.open? o).bind fun (object, arena) => object.attributes.lookup arena name with
    | none => ⟨none, g, [.constantNotStored name]⟩
    | some x => ⟨some x.value, g, []⟩

/-- Writes constants up to the first that fails. -/
def constants (o : ObjectId) : List (String × String) → Work (List (String × Sym))
  | [] => pure []
  | (name, value) :: rest => do
    let handle ← constant o name value
    let handles ← constants o rest
    pure ((name, handle) :: handles)

/-- Writes all constants, and fails if one of them has failed. -/
def everyConstant (o : ObjectId) : List (String × String) → Work (List (String × Sym))
  | [] => pure []
  | (name, value) :: rest => do
    let handle ← attempt (constant o name value)
    let handles ← attempt (everyConstant o rest)
    read fun _ => handle.bind fun s => handles.map ((name, s) :: ·)

/-- Writes constants whose handles are not needed.  What is refused is passed over. -/
def flags (o : ObjectId) : List (String × String) → Work Unit
  | [] => pure ()
  | (name, value) :: rest => do
    change fun g => ((), (g.setAttr? o name value true).getD g)
    flags o rest

/-- Writes the constants of a kind.  A module does not look after its flags, and a
    parameter tries both its constants. -/
def ownConstants (o : ObjectId) : {kind : Kind} → Request kind → List (String × String) →
    Work (List (String × Sym))
  | _, .module .., constants => do
    flags o constants
    pure []
  | _, .param .., constants => everyConstant o constants
  | _, _, list => constants o list

/-- The handle under a name; the name is the error if there is none. -/
def handleIn (handles : List (String × Sym)) (name : String) : Except String Sym :=
  match handles.lookup name with
  | some s => .ok s
  | none => .error name

/-! ## The entity -/

/-- Puts a new entity into its table. -/
def entity {kind : Kind} (o : ObjectId) (data : Data kind) : Work (EntityId kind) := do
  let name ← read fun g => (g.objects.get? o).map (·.name)
  change fun g => ((g.tables.get kind).nextId, { g with
    tables := g.tables.set ((g.tables.get kind).alloc { object := o, name, data }).2 })

/-- Lists an entity with owners.  Each has to be there and to have the list. -/
def listWith {kind : Kind} (id : EntityId kind) : List (Membership kind) → Work Unit
  | [] => pure ()
  | m :: ms => do
    let _ ← read fun g => (g.entity? m.id).bind fun e => m.link.members e.data
    change fun g => ((), g.enlist id m)
    listWith id ms

/-- Lists a new entity with its owners.  An instance is passed over by those that
    cannot list it. -/
def listing : {kind : Kind} → EntityId kind → Data kind → Work Unit
  | .inst, id, data => change fun g => ((), (Data.links data).foldl (Graph.enlist · id) g)
  | _, id, data => listWith id (Data.links data)

/-! ## Requests -/

/-- Carries out a plan.  If a constant of the kind fails, the object is taken out
    again; after that nothing is undone. -/
def fulfil {kind : Kind} (request : Request kind) (given : Option TextsId) (plan : Plan) :
    Work (EntityId kind) := do
  let ref ← read fun g => some ⟨kind, (g.tables.get kind).nextId⟩
  let o ← object ref plan.name plan.parent given
  let handles ← (ownConstants o request plan.constants).orUndo (·.release o)
  let data ← read fun _ => (request.data (handleIn handles)).toOption
  let id ← entity o data
  listing id data
  pure id

/-- Carries out a request in stages. -/
def build {kind : Kind} (request : Request kind) (given : Option TextsId) :
    Work (EntityId kind) := do
  let plan ← planned request
  fulfil request given plan

/-- Carries out a request in stages.  A generative module comes with its default
    instance, if that can be made. -/
def create : {kind : Kind} → Request kind → Option TextsId → Work (EntityId kind)
  | _, .module name ilm false, given => do
    let id ← build (.module name ilm false) given
    let inst ← attempt (build (.inst name id none) given)
    change fun g => ((), g.modifyData id (·.appoint inst))
    pure id
  | _, request, given => build request given

end Work

end DesignGraph
