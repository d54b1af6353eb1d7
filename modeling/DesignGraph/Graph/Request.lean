/-
  Requests — what can be asked of a design, and when it is granted.

  A request (`Request k`) carries what an entity of kind `k` is made from.
  Before anything changes, the graph turns it into a plan: the name, the object
  of the structural parent, and the constants to write; or it names what stands
  in the way (`Obstacle`).

  * `Graph.plan` decides; a parent that is gone stops a request in silence, a
    resource module that cannot hold the entity refuses it with a note;
  * `Request.data` is what the new entity records, given the handles of its
    constants.
-/
import DesignGraph.Graph.Basic
import DesignGraph.Graph.Note

namespace DesignGraph

/-! ## Requests -/

/-- A request for an entity of the given kind. -/
inductive Request : Kind → Type where
  | module (name : String) (ilm resource : Bool) : Request .module
  | inst (name : String) (target : EntityId .module) (parent : Option (EntityId .module)) :
    Request .inst
  | port (name : String) (direction : Direction) (parent : EntityId .module) : Request .port
  | param (name value : String) (isLocal : Bool) (parent : EntityId .module) : Request .param
  | decl (name : String) (assignment : Option String) (defaultType : Bool)
    (parent : EntityId .module) : Request .decl
  | code (name : Option String) (code : String) (parent : EntityId .module) : Request .code
  | pin (name connection : String) (parent : EntityId .inst) : Request .pin
  | adjustment (name value : String) (parent : EntityId .inst) : Request .adjustment
  | regfile (name : String) (parent : EntityId .module) : Request .regfile
  | entry (name : String) (parent : EntityId .regfile) : Request .entry
  | register (name : String) (parent : EntityId .entry) : Request .register

/-- The text of a flag in an attribute. -/
def flagText : Bool → String
  | true => "true"
  | false => "false"

/-- What a new entity records, given the handles of its constants by name.  A
    handle may be missing; then its name is the error. -/
def Request.data (handle : String → Except String Sym) :
    {kind : Kind} → Request kind → Except String (Data kind)
  | _, .module _ ilm resource => .ok { ilm, body := if resource then none else some {} }
  | _, .inst _ target parent => .ok { target, parent }
  | _, .port _ direction parent => .ok { direction, parent }
  | _, .param _ _ isLocal parent =>
    (handle "value").map fun value => { value, isLocal, parent }
  | _, .decl _ none defaultType parent => .ok { assignment := none, defaultType, parent }
  | _, .decl _ (some _) defaultType parent =>
    (handle "assign").map fun assign => { assignment := some assign, defaultType, parent }
  | _, .code _ _ parent => (handle "code").map fun code => { code, parent }
  | _, .pin _ _ parent => (handle "connection").map fun connection => { connection, parent }
  | _, .adjustment _ _ parent => (handle "value").map fun value => { value, parent }
  | _, .regfile _ parent => .ok { parent }
  | _, .entry _ parent => .ok { parent }
  | _, .register _ parent => .ok { parent }

/-! ## Plans -/

/-- What a granted request comes to. -/
structure Plan where
  name : String
  parent : Option ObjectId := none
  /-- What is said before the object is made. -/
  announced : List Note := []
  /-- The constants to write besides those of every object. -/
  constants : List (String × String) := []

/-- What stands in the way of a request. -/
inductive Obstacle where
  /-- an entity it names is gone, or has lost its texts -/
  | gone
  | refused (why : Note)

/-- What is said about an obstacle: nothing about what is gone. -/
def Obstacle.notes : Obstacle → List Note
  | gone => []
  | refused why => [why]

namespace Graph

/-- An entity that a request depends on. -/
def need (g : Graph) {kind : Kind} (id : EntityId kind) : Except Obstacle (Entity kind) :=
  match g.entity? id with
  | some e => .ok e
  | none => .error .gone

/-- A module that has to have a list of its own, and the members in the list. -/
def needList (g : Graph) {member : Kind} (id : EntityId .module) (list : Link .module member)
    (refusal : Entity .module → Note) :
    Except Obstacle (Entity .module × Array (EntityId member)) := do
  let m ← g.need id
  match list.members m.data with
  | some members => .ok (m, members)
  | none => .error (.refused (refusal m))

/-- The object of an entity that is to be the structural parent. -/
def parentObject (g : Graph) {kind : Kind} (id : EntityId kind) :
    Except Obstacle (Option ObjectId) :=
  (g.need id).map (some ·.object)

/-- The object of the module that an instance is placed in, if it is placed in
    one: that module has to have contents. -/
def placeOf (g : Graph) (name : String) :
    Option (EntityId .module) → Except Obstacle (Option ObjectId)
  | none => .ok none
  | some id =>
    (g.needList id .contents fun m => .instanceInResource name (g.nameOf m)).map (some ·.1.object)

/-- The composed id of a module that is to be instantiated. -/
def targetId (g : Graph) (id : EntityId .module) : Except Obstacle String := do
  let m ← g.need id
  match g.idOf m with
  | some text => .ok text
  | none => .error .gone

/-- The name of a block of code without one of its own: the number of blocks
    the module already has. -/
def codeName (sections : Array (EntityId .code)) : String := "_cs_" ++ toString sections.size

/-- What a request comes to, or what stands in its way. -/
def plan (g : Graph) : {kind : Kind} → Request kind → Except Obstacle Plan
  | _, .module name ilm resource =>
    .ok { name, announced := [.generatingModule name],
          constants := [("ilm", flagText ilm), ("resource", flagText resource)] }
  | _, .inst name target parent => do
    let target ← g.targetId target
    let parent ← g.placeOf name parent
    .ok { name, parent, announced := [.generatingInstance name], constants := [("module", target)] }
  | _, .port name direction parent => do
    .ok { name, parent := ← g.parentObject parent, constants := [("direction", direction.text)] }
  | _, .param name value isLocal parent => do
    .ok { name, parent := ← g.parentObject parent,
          constants := [("value", value), ("local", flagText isLocal)] }
  | _, .decl name assignment defaultType parent => do
    let (m, _) ← g.needList parent .decls fun _ => .declInResource
    .ok { name, parent := some m.object,
          constants := ("default_type", flagText defaultType) ::
            assignment.toList.map ("assign", ·) }
  | _, .code name code parent => do
    let (m, sections) ← g.needList parent .code fun _ => .codeInResource
    .ok { name := name.getD (codeName sections), parent := some m.object,
          constants := [("code", code)] }
  | _, .pin name connection parent => do
    .ok { name, parent := ← g.parentObject parent, constants := [("connection", connection)] }
  | _, .adjustment name value parent => do
    .ok { name, parent := ← g.parentObject parent, constants := [("value", value)] }
  | _, .regfile name parent => do
    let _ ← g.needList parent .regfiles fun _ => .regfileInResource
    .ok { name }
  | _, .entry name parent => do .ok { name, parent := ← g.parentObject parent }
  | _, .register name parent => do .ok { name, parent := ← g.parentObject parent }

end Graph

end DesignGraph
