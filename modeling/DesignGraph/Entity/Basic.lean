/-
  Entities — what a design records of each module, port, instance, and so on.

  Every entity has an object, which carries its id, its attributes and its
  texts, and data of its own kind (`Data`).  A module is either a resource, a
  leaf with ports and parameters only, or generative; the collections that only
  generative modules have are one part of it (`ModuleBody`), which resources
  lack as a whole.

  * `Entity k` is an entity of kind `k`, `Object` the envelope behind it;
  * `Link owner member` names the lists in which owners keep their members;
    `Link.members` reads such a list and `Link.add` extends it;
  * `ModuleRecord` is a module written out, with a flag and each part of the body by
    itself; `Module.record_toModule`: modules are the records in which they agree;
  * `Data.links` says in which lists of which owners an entity belongs.
-/
import DesignGraph.Attributes
import DesignGraph.Entity.Kind

namespace DesignGraph

/-! ## Objects -/

/-- The envelope behind an entity.  All handles are of the object's arena. -/
structure Object where
  id : Sym
  name : Sym
  attributes : Attributes
  storage : StorageHandle
  /-- The entity that the object belongs to. -/
  payload : EntityRef

/-! ## Data by kind -/

/-- The direction in which data flows through a port. -/
inductive Direction where
  | input
  | output
  | bidirectional
deriving DecidableEq

namespace Direction

/-- All directions. -/
def all : List Direction := [input, output, bidirectional]

/-- The text of the attribute `direction`. -/
def text : Direction → String
  | input => "input"
  | output => "output"
  | bidirectional => "bidirectional"

end Direction

/-- A port. -/
structure Port where
  direction : Direction
  parent : EntityId .module

/-- A parameter. -/
structure Param where
  value : Sym
  /-- Whether it cannot be overridden. -/
  isLocal : Bool
  parent : EntityId .module

/-- A declaration. -/
structure Decl where
  /-- The default assignment, if there is one. -/
  assignment : Option Sym
  /-- Whether the signal has the default type. -/
  defaultType : Bool
  parent : EntityId .module

/-- A block of code. -/
structure CodeSection where
  code : Sym
  parent : EntityId .module

/-- A pin. -/
structure Pin where
  connection : Sym
  parent : EntityId .inst

/-- An adjustment. -/
structure Adjustment where
  value : Sym
  parent : EntityId .inst

/-- The part of a module that only generative modules have. -/
structure ModuleBody where
  decls : Array (EntityId .decl) := #[]
  code : Array (EntityId .code) := #[]
  contents : Array (EntityId .inst) := #[]
  regfiles : Array (EntityId .regfile) := #[]
  /-- The instance that stands for the module itself. -/
  defaultInstance : Option (EntityId .inst) := none

/-- A module. -/
structure Module where
  /-- Whether it is a ready-made macro. -/
  ilm : Bool
  params : Array (EntityId .param) := #[]
  ports : Array (EntityId .port) := #[]
  /-- The instances of this module, wherever they are placed. -/
  uses : Array (EntityId .inst) := #[]
  /-- What a generative module has; a resource has no body. -/
  body : Option ModuleBody

/-- Whether a module is a resource. -/
def Module.isResource (m : Module) : Bool := m.body.isNone

/-- A module with the given default instance, if it is generative. -/
def Module.appoint (m : Module) (i : Option (EntityId .inst)) : Module :=
  { m with body := m.body.map fun b => { b with defaultInstance := i } }

/-- An instance. -/
structure Instance where
  target : EntityId .module
  /-- The module it is placed in, if any. -/
  parent : Option (EntityId .module)
  adjustments : Array (EntityId .adjustment) := #[]
  pins : Array (EntityId .pin) := #[]

/-- A register file. -/
structure Regfile where
  parent : EntityId .module
  entries : Array (EntityId .entry) := #[]

/-- An entry of a register file. -/
structure RegfileEntry where
  parent : EntityId .regfile
  registers : Array (EntityId .register) := #[]

/-- A register. -/
structure Register where
  parent : EntityId .entry

/-- What is recorded of an entity besides its object and its name. -/
abbrev Data : Kind → Type
  | .port => Port
  | .pin => Pin
  | .param => Param
  | .adjustment => Adjustment
  | .decl => Decl
  | .code => CodeSection
  | .module => Module
  | .inst => Instance
  | .register => Register
  | .entry => RegfileEntry
  | .regfile => Regfile

/-- An entity. -/
structure Entity (kind : Kind) where
  object : ObjectId
  /-- The name, in the object's arena. -/
  name : Sym
  data : Data kind

/-! ## Membership -/

/-- The lists in which entities of kind `owner` keep entities of kind `member`. -/
inductive Link : (owner member : Kind) → Type where
  | params : Link .module .param
  | ports : Link .module .port
  | uses : Link .module .inst
  | decls : Link .module .decl
  | code : Link .module .code
  | contents : Link .module .inst
  | regfiles : Link .module .regfile
  | adjustments : Link .inst .adjustment
  | pins : Link .inst .pin
  | entries : Link .regfile .entry
  | registers : Link .entry .register
deriving DecidableEq

namespace Link

/-- The members in a list of an owner, oldest first; absent if the owner has no
    such list. -/
def members : {owner member : Kind} → Link owner member → Data owner →
    Option (Array (EntityId member))
  | _, _, params, m => some m.params
  | _, _, ports, m => some m.ports
  | _, _, uses, m => some m.uses
  | _, _, decls, m => m.body.map (·.decls)
  | _, _, code, m => m.body.map (·.code)
  | _, _, contents, m => m.body.map (·.contents)
  | _, _, regfiles, m => m.body.map (·.regfiles)
  | _, _, adjustments, i => some i.adjustments
  | _, _, pins, i => some i.pins
  | _, _, entries, r => some r.entries
  | _, _, registers, e => some e.registers

/-- Adds a member at the end of a list of an owner, if the owner has the list. -/
def add : {owner member : Kind} → Link owner member → EntityId member → Data owner → Data owner
  | _, _, params, x, m => { m with params := m.params.push x }
  | _, _, ports, x, m => { m with ports := m.ports.push x }
  | _, _, uses, x, m => { m with uses := m.uses.push x }
  | _, _, decls, x, m => { m with body := m.body.map fun b => { b with decls := b.decls.push x } }
  | _, _, code, x, m => { m with body := m.body.map fun b => { b with code := b.code.push x } }
  | _, _, contents, x, m =>
    { m with body := m.body.map fun b => { b with contents := b.contents.push x } }
  | _, _, regfiles, x, m =>
    { m with body := m.body.map fun b => { b with regfiles := b.regfiles.push x } }
  | _, _, adjustments, x, i => { i with adjustments := i.adjustments.push x }
  | _, _, pins, x, i => { i with pins := i.pins.push x }
  | _, _, entries, x, r => { r with entries := r.entries.push x }
  | _, _, registers, x, e => { e with registers := e.registers.push x }

theorem members_add {owner member : Kind} (l : Link owner member) (x : EntityId member)
    (d : Data owner) : l.members (l.add x d) = (l.members d).map (·.push x) := by
  cases l <;> simp only [members, add, Option.map_map, Option.map_some] <;> rfl

/-- Whether only generative modules have the list. -/
def inBody : {owner member : Kind} → Link owner member → Bool
  | _, _, decls | _, _, code | _, _, contents | _, _, regfiles => true
  | _, _, _ => false

theorem isSome_members {member : Kind} {l : Link .module member} (hl : l.inBody) (m : Module) :
    (l.members m).isSome = !m.isResource := by
  cases l <;> first
    | exact absurd hl (by decide)
    | simp [members, Module.isResource]

end Link

/-- One list of one owner in which an entity belongs. -/
structure Membership (member : Kind) where
  {owner : Kind}
  link : Link owner member
  id : EntityId owner

/-- The lists in which an entity belongs.  An instance belongs to the module it
    is placed in and to the module it is an instance of. -/
def Data.links : {kind : Kind} → Data kind → List (Membership kind)
  | .port, p => [⟨.ports, p.parent⟩]
  | .pin, p => [⟨.pins, p.parent⟩]
  | .param, p => [⟨.params, p.parent⟩]
  | .adjustment, a => [⟨.adjustments, a.parent⟩]
  | .decl, d => [⟨.decls, d.parent⟩]
  | .code, c => [⟨.code, c.parent⟩]
  | .module, _ => []
  | .inst, i => i.parent.toList.map (⟨.contents, ·⟩) ++ [⟨.uses, i.target⟩]
  | .register, r => [⟨.registers, r.parent⟩]
  | .entry, e => [⟨.entries, e.parent⟩]
  | .regfile, r => [⟨.regfiles, r.parent⟩]

/-! ## Modules written out -/

/-- A module written out: a flag, and each part of the body by itself. -/
structure ModuleRecord where
  ilm : Bool
  resource : Bool
  params : Array (EntityId .param) := #[]
  ports : Array (EntityId .port) := #[]
  uses : Array (EntityId .inst) := #[]
  decls : Option (Array (EntityId .decl)) := none
  code : Option (Array (EntityId .code)) := none
  contents : Option (Array (EntityId .inst)) := none
  regfiles : Option (Array (EntityId .regfile)) := none
  defaultInstance : Option (EntityId .inst) := none

namespace ModuleRecord

/-- The record of a new module: if it is no resource, it has all the lists. -/
def blank (ilm resource : Bool) : ModuleRecord :=
  if resource then { ilm, resource }
  else { ilm, resource, decls := some #[], code := some #[], contents := some #[],
         regfiles := some #[] }

/-- The members in a list of a record, if it has the list. -/
def members (r : ModuleRecord) : {member : Kind} → Link .module member →
    Option (Array (EntityId member))
  | _, .params => some r.params
  | _, .ports => some r.ports
  | _, .uses => some r.uses
  | _, .decls => r.decls
  | _, .code => r.code
  | _, .contents => r.contents
  | _, .regfiles => r.regfiles

/-- Adds a member at the end of a list of a record, if it has the list. -/
def add (r : ModuleRecord) : {member : Kind} → Link .module member → EntityId member → ModuleRecord
  | _, .params, x => { r with params := r.params.push x }
  | _, .ports, x => { r with ports := r.ports.push x }
  | _, .uses, x => { r with uses := r.uses.push x }
  | _, .decls, x => { r with decls := r.decls.map (·.push x) }
  | _, .code, x => { r with code := r.code.map (·.push x) }
  | _, .contents, x => { r with contents := r.contents.map (·.push x) }
  | _, .regfiles, x => { r with regfiles := r.regfiles.map (·.push x) }

/-- The flag agrees with the parts: a resource has none of them, any other module has all
    the lists. -/
structure Agrees (r : ModuleRecord) : Prop where
  lists : ∀ {member : Kind} (l : Link .module member), l.inBody → (r.members l).isSome = !r.resource
  defaultInstance : r.resource = true → r.defaultInstance = none

/-- The module of a record. -/
def toModule (r : ModuleRecord) : Module where
  ilm := r.ilm
  params := r.params
  ports := r.ports
  uses := r.uses
  body := if r.resource then none else some {
    decls := r.decls.getD #[]
    code := r.code.getD #[]
    contents := r.contents.getD #[]
    regfiles := r.regfiles.getD #[]
    defaultInstance := r.defaultInstance }

end ModuleRecord

namespace Module

/-- A module written out. -/
def record (m : Module) : ModuleRecord where
  ilm := m.ilm
  resource := m.isResource
  params := m.params
  ports := m.ports
  uses := m.uses
  decls := m.body.map (·.decls)
  code := m.body.map (·.code)
  contents := m.body.map (·.contents)
  regfiles := m.body.map (·.regfiles)
  defaultInstance := m.body.bind (·.defaultInstance)

variable {m : Module}

theorem members_record {member : Kind} (l : Link .module member) :
    m.record.members l = l.members m := by
  cases l <;> rfl

theorem agrees_record (m : Module) : m.record.Agrees where
  lists l hl := by rw [members_record, l.isSome_members hl]; rfl
  defaultInstance h := by
    rw [record, Option.isNone_iff_eq_none.1 h]
    rfl

/-- A module is read back from its record. -/
theorem toModule_record (m : Module) : m.record.toModule = m := by
  obtain ⟨ilm, params, ports, uses, body⟩ := m
  cases body <;> rfl

/-- **A record whose flag agrees with its parts is that of a module.** -/
theorem record_toModule {r : ModuleRecord} (h : r.Agrees) : r.toModule.record = r := by
  have hdecls := h.lists .decls rfl
  have hcode := h.lists .code rfl
  have hcontents := h.lists .contents rfl
  have hregfiles := h.lists .regfiles rfl
  have hinstance := h.defaultInstance
  obtain ⟨ilm, resource, params, ports, uses, decls, code, contents, regfiles, inst⟩ := r
  simp only [ModuleRecord.members] at hdecls hcode hcontents hregfiles
  cases resource with
  | true =>
    obtain rfl : inst = none := hinstance rfl
    simp_all [ModuleRecord.toModule, record, isResource]
  | false =>
    obtain ⟨ds, rfl⟩ := Option.isSome_iff_exists.1 hdecls
    obtain ⟨cs, rfl⟩ := Option.isSome_iff_exists.1 hcode
    obtain ⟨is, rfl⟩ := Option.isSome_iff_exists.1 hcontents
    obtain ⟨rs, rfl⟩ := Option.isSome_iff_exists.1 hregfiles
    rfl

/-- A new module is written out as a new record. -/
theorem record_new (ilm resource : Bool) :
    record { ilm, body := if resource then none else some {} } = .blank ilm resource := by
  cases resource <;> rfl

/-- What is added to a list of a module is added to that of its record. -/
theorem record_add {member : Kind} (l : Link .module member) (x : EntityId member) :
    record (l.add x m) = m.record.add l x := by
  obtain ⟨ilm, params, ports, uses, body⟩ := m
  cases l <;> cases body <;> rfl

/-- The default instance of a generative module is that of its record. -/
theorem record_appoint (i : Option (EntityId .inst)) (h : m.isResource = false) :
    (m.appoint i).record = { m.record with defaultInstance := i } := by
  obtain ⟨ilm, params, ports, uses, body⟩ := m
  rcases body with _ | b
  · cases h
  · rfl

end Module

end DesignGraph
