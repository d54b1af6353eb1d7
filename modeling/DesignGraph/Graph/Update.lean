/-
  Updates — attributes written later, and entities taken out.

  * `Graph.setAttr?` writes one attribute; there is no graph if it is refused,
    because the attribute is constant or the object or its arena is gone;
  * `Graph.setAttrs` writes a flat list of names and values;
  * `Graph.free` takes out an entity with its object and the arena the object
    owns.  The lists of its owners keep its id.
-/
import DesignGraph.Graph.Create

namespace DesignGraph

namespace Graph

/-! ## Attributes -/

/-- Writes an attribute of an object. -/
def setAttr? (g : Graph) (o : ObjectId) (name value : String) (constant : Bool) : Option Graph := do
  let (obj, arena) ← g.open? o
  let (attributes, arena) ← obj.attributes.set arena name value constant
  some { g with
    objects := g.objects.modify o fun x => { x with attributes }
    texts := g.texts.modify obj.storage.id fun _ => arena }

/-- A flat list of names and values as pairs; there are none if the last name
    has no value. -/
def pairs? : List String → Option (List (String × String))
  | [] => some []
  | [_] => none
  | name :: value :: rest => (pairs? rest).map ((name, value) :: ·)

/-- Writes pairs of names and values as attributes that are not constant.  A
    pair that is refused is noted and skipped. -/
def setPairs (g : Graph) (o : ObjectId) : List (String × String) → Outcome Bool
  | [] => ⟨true, g, []⟩
  | (name, value) :: rest =>
    match g.setAttr? o name value false with
    | some g => setPairs g o rest
    | none =>
      let out := setPairs g o rest
      ⟨false, out.graph, .attributeNotSet name :: out.notes⟩

/-- Writes a flat list of names and values as attributes that are not constant.
    The answer is whether all were written. -/
def setAttrs (g : Graph) (o : ObjectId) (list : List String) : Outcome Bool :=
  match g.objects.get? o, pairs? list with
  | none, _ => ⟨false, g, []⟩
  | some _, none => ⟨false, g, [.valueMissing]⟩
  | some _, some pairs => g.setPairs o pairs

/-! ## Freeing -/

/-- Takes out an object, and its arena if it owns one. -/
def release (g : Graph) (o : ObjectId) : Graph :=
  match g.objects.free o with
  | (none, _) => g
  | (some obj, objects) =>
    match obj.storage with
    | .owned s => { g with objects, texts := (g.texts.free s).2 }
    | .borrowed _ => { g with objects }

/-- Takes out an entity and its object. -/
def free (g : Graph) {kind : Kind} (id : EntityId kind) : Graph :=
  match (g.tables.get kind).free id with
  | (none, _) => g
  | (some e, table) => { g with tables := g.tables.set table }.release e.object

end Graph

/-! ## Calls -/

/-- An operation that may change a graph. -/
inductive Call where
  /-- a request, with the arena the new entity is to share, if any -/
  | create {kind : Kind} (request : Request kind) (storage : Option TextsId)
  /-- taking out an entity; without an id, nothing is taken out -/
  | free {kind : Kind} (id : Option (EntityId kind))
  | setAttr (object : ObjectId) (name value : String) (constant : Bool)
  | setAttrs (object : ObjectId) (list : List String)

/-- The answer to a call. -/
inductive Reply where
  /-- the new entity, if the request was granted -/
  | created (entity : Option EntityRef)
  | done
  /-- whether everything was written -/
  | written (all : Bool)
deriving DecidableEq

/-- Carries out a call. -/
def Graph.perform (g : Graph) : Call → Outcome Reply
  | @Call.create kind request storage =>
    let out := g.create request storage
    ⟨.created (out.result.map fun id => ⟨kind, id⟩), out.graph, out.notes⟩
  | .free none => ⟨.done, g, []⟩
  | .free (some id) => ⟨.done, g.free id, []⟩
  | .setAttr o name value constant =>
    match g.setAttr? o name value constant with
    | some g => ⟨.written true, g, []⟩
    | none => ⟨.written false, g, []⟩
  | .setAttrs o list =>
    let out := g.setAttrs o list
    ⟨.written out.result, out.graph, out.notes⟩

end DesignGraph
