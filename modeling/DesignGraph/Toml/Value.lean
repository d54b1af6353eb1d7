/-
  Values of TOML, and the tables that statements build up.

  A document is a list of statements: pairs of a dotted key and a value, and
  headers that say which table the pairs after them go to.  A table may be
  written in several places, but only in ways that do not contradict each other;
  a `Node` remembers how a table came about, and a `Value` has forgotten it.

  * `openTable` and `pushTable` are the two kinds of headers, `insertPair` is a
    pair; each fails where the document contradicts itself;
  * `tableOf?` is the table that a list of statements describes.
-/

namespace DesignGraph.Toml

/-! ## Values -/

/-- A value.  Of floats, dates and times it is only known what they are. -/
inductive Value where
  | string (s : String)
  | boolean (b : Bool)
  | integer (n : Int)
  /-- a float -/
  | float
  | dateTime
  | array (items : List Value)
  /-- values by key, each key once -/
  | table (entries : List (String × Value))

/-- A dotted key. -/
structure KeyPath where
  /-- The parts before the last. -/
  parents : List String
  last : String
deriving DecidableEq

/-- The parts of a dotted key. -/
def KeyPath.parts (k : KeyPath) : List String := k.parents ++ [k.last]

/-! ## Nodes -/

/-- How a table came about. -/
inductive Origin where
  /-- on the way to the table of a header -/
  | implied
  /-- on the way to the value of a dotted key -/
  | dotted
  /-- by a header of its own -/
  | header
deriving DecidableEq

/-- What stands under a key. -/
inductive Node where
  /-- a value, complete as it is -/
  | value (v : Value)
  | table (origin : Origin) (entries : List (String × Node))
  /-- an array of tables, built up by headers: its last table, and those before
      it, latest first -/
  | tables (last : List (String × Node)) (before : List (List (String × Node)))

/-- A table under construction. -/
abbrev Entries := List (String × Node)

mutual

/-- The value of a node. -/
def Node.toValue : Node → Value
  | .value v => v
  | .table _ es => .table (entryValues es)
  | .tables last before => .array ((tableValues before).reverse ++ [.table (entryValues last)])

/-- The values of the entries of a table. -/
def entryValues : List (String × Node) → List (String × Value)
  | [] => []
  | (k, n) :: es => (k, n.toValue) :: entryValues es

/-- The values of tables. -/
def tableValues : List (List (String × Node)) → List Value
  | [] => []
  | es :: rest => .table (entryValues es) :: tableValues rest

end

/-! ## Building tables -/

/-- Changes what stands under a key: `f` gets what is there, and answers with
    what is to be there, or fails. -/
def alter (key : String) (f : Option Node → Option Node) : Entries → Option Entries
  | [] => (f none).map fun n => [(key, n)]
  | (k, n) :: es =>
    if k = key then (f (some n)).map fun n => (k, n) :: es
    else (alter key f es).map ((k, n) :: ·)

/-- Changes the table at a path of keys.  Tables missing on the way are implied;
    of an array of tables the last one is meant; a value is no way. -/
def within (f : Entries → Option Entries) : List String → Entries → Option Entries
  | [], es => f es
  | k :: ks, es =>
    alter k (fun
      | none => (within f ks []).map (.table .implied)
      | some (.table origin es) => (within f ks es).map (.table origin)
      | some (.tables last before) => (within f ks last).map (.tables · before)
      | some (.value _) => none) es

/-- What a header `[key]` makes of what stands under the key: a table that is
    there may be opened once, and only if it was implied. -/
def openTable : Option Node → Option Node
  | none => some (.table .header [])
  | some (.table .implied es) => some (.table .header es)
  | some _ => none

/-- What a header `[[key]]` makes of what stands under the key: one more table
    of an array of tables. -/
def pushTable : Option Node → Option Node
  | none => some (.tables [] [])
  | some (.tables last before) => some (.tables [] (last :: before))
  | some _ => none

/-- Puts a value under a dotted key.  Tables missing on the way are dotted ones.
    A table with a header of its own cannot be reached, and the table of the
    value itself has to be a dotted one, unless the key has no dots; `here` says
    whether it is. -/
def insertAt (key : String) (v : Value) (here : Bool) : List String → Entries → Option Entries
  | [], es =>
    if here then alter key (fun | none => some (.value v) | some _ => none) es else none
  | k :: ks, es =>
    alter k (fun
      | none => (insertAt key v true ks []).map (.table .dotted)
      | some (.table .dotted es) => (insertAt key v true ks es).map (.table .dotted)
      | some (.table .implied es) => (insertAt key v false ks es).map (.table .implied)
      | some (.tables last before) => (insertAt key v false ks last).map (.tables · before)
      | some _ => none) es

/-- Puts a value under a dotted key of a table. -/
def insertPair (es : Entries) (key : KeyPath) (v : Value) : Option Entries :=
  insertAt key.last v true key.parents es

/-- The table that is written on one line with the given pairs. -/
def inlineTable? (pairs : List (KeyPath × Value)) : Option Value :=
  (pairs.foldlM (fun es (k, v) => insertPair es k v) []).map (.table <| entryValues ·)

/-! ## Documents -/

/-- One thing a document says. -/
inductive Statement where
  | header (key : KeyPath)
  | arrayHeader (key : KeyPath)
  /-- `key = value` -/
  | pair (key : KeyPath) (v : Value)

/-- A document on the way: its tables, and the key of the one that pairs go to. -/
structure Draft where
  root : Entries := []
  /-- The current table. -/
  current : List String := []

/-- Adds what one statement says. -/
def Draft.add (d : Draft) : Statement → Option Draft
  | .header key => (within (alter key.last openTable) key.parents d.root).map (⟨·, key.parts⟩)
  | .arrayHeader key => (within (alter key.last pushTable) key.parents d.root).map (⟨·, key.parts⟩)
  | .pair key v => (within (insertPair · key v) d.current d.root).map (⟨·, d.current⟩)

/-- The table that a list of statements describes, if they do not contradict
    each other. -/
def tableOf? (statements : List Statement) : Option (List (String × Value)) :=
  (statements.foldlM Draft.add {}).map (entryValues ·.root)

end DesignGraph.Toml
