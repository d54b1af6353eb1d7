/-
  Kinds of entities, and the ids of all that a design holds.

  * `Kind` lists the eleven kinds with their labels; `label_inj`: labels tell
    kinds apart;
  * `composeId` is the text id of an entity, `<label>::[<parent>.]<name>`;
  * `Pool` names the tables of a design, so that `TextsId`, `ObjectId` and
    `EntityId k` are ids of different types; `EntityRef` is an entity id
    together with its kind;
  * `StorageHandle` is the text arena of an object: its own or a borrowed one.
-/
import DesignGraph.Slots

namespace DesignGraph

/-! ## Kinds -/

/-- The kind of an entity. -/
inductive Kind where
  | port
  | pin
  | param
  /-- a named override of an instance -/
  | adjustment
  | decl
  | code
  | module
  | inst
  /-- a register of a regfile entry -/
  | register
  | entry
  | regfile
deriving DecidableEq

namespace Kind

/-- All kinds. -/
def all : List Kind :=
  [port, pin, param, adjustment, decl, code, module, inst, register, entry, regfile]

/-- The name of a kind in ids and in the attribute `type`. -/
def label : Kind → String
  | port => "port"
  | pin => "pin"
  | param => "parameter"
  | adjustment => "adjustment"
  | decl => "declaration"
  | code => "codesection"
  | module => "module"
  | inst => "instance"
  | register => "register"
  | entry => "regfile-entry"
  | regfile => "regfile"

theorem label_inj {a b : Kind} : a.label = b.label ↔ a = b := by
  cases a <;> cases b <;> decide

end Kind

/-- The text id of an entity: its kind, the name of its structural parent if it
    has one, and its name. -/
def composeId (kind : Kind) (parent : Option String) (name : String) : String :=
  match parent with
  | some p => kind.label ++ "::" ++ p ++ "." ++ name
  | none => kind.label ++ "::" ++ name

/-! ## Ids -/

/-- The tables of a design. -/
inductive Pool where
  | texts
  | objects
  | entities (kind : Kind)
deriving DecidableEq

/-- The id of a text arena. -/
abbrev TextsId := Id Pool.texts
/-- The id of an object. -/
abbrev ObjectId := Id Pool.objects
/-- The id of an entity of the given kind. -/
abbrev EntityId (kind : Kind) := Id (Pool.entities kind)

/-- The id of an entity of some kind. -/
structure EntityRef where
  kind : Kind
  id : EntityId kind
deriving DecidableEq

namespace EntityRef

/-- The id as one of a module. -/
def asModule : EntityRef → Option (EntityId .module)
  | ⟨.module, id⟩ => some id
  | _ => none

/-- The id as one of an instance. -/
def asInstance : EntityRef → Option (EntityId .inst)
  | ⟨.inst, id⟩ => some id
  | _ => none

end EntityRef

/-! ## Storage -/

/-- How an object holds the arena of its texts. -/
inductive StorageHandle where
  /-- made with the object and destroyed with it -/
  | owned (id : TextsId)
  /-- handed down from another object, which may destroy it -/
  | borrowed (id : TextsId)
deriving DecidableEq

namespace StorageHandle

/-- The arena. -/
def id : StorageHandle → TextsId
  | owned i | borrowed i => i

/-- Whether the object owns the arena. -/
def isOwned : StorageHandle → Bool
  | owned _ => true
  | borrowed _ => false

end StorageHandle

end DesignGraph
