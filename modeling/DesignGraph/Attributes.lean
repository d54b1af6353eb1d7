/-
  Attributes — named values of one object, some of them constant.

  Names and values are texts of an arena; the store itself keeps only their
  handles.  A constant attribute refuses every later write to its name, and a
  refused write changes neither the store nor the arena.

  * `Attributes` is a list of attributes by name handle, each name once
    (`nodup`); `find?` is its view by handle, `put` writes one handle
    (`find?_put`, `size_put`);
  * `lookup`, `get` and `isConstant` read an attribute by the text of its name;
  * `set` writes an attribute, `sealAll` writes a list of constants.
-/
import DesignGraph.Text.Arena

namespace DesignGraph

/-- The value of an attribute, and whether it is fixed for good. -/
structure Attribute where
  value : Sym
  constant : Bool
deriving DecidableEq

/-- The attributes of an object by the handles of their names, oldest name
    first. -/
structure Attributes where
  /-- Name handles with their attributes. -/
  entries : List (Sym × Attribute)
  /-- A name stands for one attribute. -/
  nodup : (entries.map Prod.fst).Nodup

namespace Attributes

/-! ## By handle -/

/-- No attributes. -/
def empty : Attributes := ⟨[], by simp⟩

instance : Inhabited Attributes := ⟨empty⟩

/-- The number of attributes. -/
def size (a : Attributes) : Nat := a.entries.length

/-- Whether there are no attributes. -/
def isEmpty (a : Attributes) : Bool := a.entries.isEmpty

/-- The attribute under a name handle. -/
def find? (a : Attributes) (name : Sym) : Option Attribute := a.entries.lookup name

/-- A list of entries with the attribute under one name replaced, or added at
    the end if the name is new. -/
def putEntry (name : Sym) (new : Attribute) :
    List (Sym × Attribute) → List (Sym × Attribute)
  | [] => [(name, new)]
  | (n, x) :: rest =>
    if name = n then (n, new) :: rest else (n, x) :: putEntry name new rest

theorem mem_keys_putEntry {name n : Sym} {new : Attribute} {es : List (Sym × Attribute)} :
    n ∈ (putEntry name new es).map Prod.fst ↔ n = name ∨ n ∈ es.map Prod.fst := by
  induction es with
  | nil => simp [putEntry]
  | cons e es ih => grind [putEntry]

theorem nodup_putEntry {name : Sym} {new : Attribute} {es : List (Sym × Attribute)}
    (h : (es.map Prod.fst).Nodup) : ((putEntry name new es).map Prod.fst).Nodup := by
  induction es with
  | nil => simp [putEntry]
  | cons e es ih =>
    obtain ⟨n, x⟩ := e
    have hm := @mem_keys_putEntry name n new es
    simp only [List.map_cons, List.nodup_cons] at h
    unfold putEntry
    split
    · simpa using h
    · simp only [List.map_cons, List.nodup_cons]
      grind

/-- Writes the attribute under a name handle. -/
def put (a : Attributes) (name : Sym) (new : Attribute) : Attributes :=
  ⟨putEntry name new a.entries, nodup_putEntry a.nodup⟩

theorem lookup_putEntry (name n : Sym) (new : Attribute) (es : List (Sym × Attribute)) :
    (putEntry name new es).lookup n = if n = name then some new else es.lookup n := by
  induction es with
  | nil => simp only [putEntry, List.lookup_cons, List.lookup_nil]; split <;> simp_all
  | cons e es ih =>
    obtain ⟨k, x⟩ := e
    simp only [putEntry, List.lookup_cons]
    split <;> grind

theorem length_putEntry (name : Sym) (new : Attribute) (es : List (Sym × Attribute)) :
    (putEntry name new es).length =
      if (es.lookup name).isSome then es.length else es.length + 1 := by
  induction es with
  | nil => simp [putEntry]
  | cons e es ih =>
    obtain ⟨k, x⟩ := e
    simp only [putEntry, List.lookup_cons]
    split <;> grind

theorem find?_put (a : Attributes) (name n : Sym) (new : Attribute) :
    (a.put name new).find? n = if n = name then some new else a.find? n :=
  lookup_putEntry name n new a.entries

theorem size_put (a : Attributes) (name : Sym) (new : Attribute) :
    (a.put name new).size = if (a.find? name).isSome then a.size else a.size + 1 :=
  length_putEntry name new a.entries

/-! ## By name -/

/-- The attribute of a name, if the arena knows the name and the store has an
    attribute under its handle. -/
def lookup (a : Attributes) (arena : TextArena) (name : String) : Option Attribute :=
  (arena.lookup name).bind a.find?

/-- The value of an attribute. -/
def get (a : Attributes) (arena : TextArena) (name : String) : Option String :=
  (a.lookup arena name).bind (arena.resolve ·.value)

/-- Whether there is an attribute of that name and it is constant. -/
def isConstant (a : Attributes) (arena : TextArena) (name : String) : Bool :=
  (a.lookup arena name).any (·.constant)

/-- Writes an attribute, storing its name and then its value in the arena.
    There is no result if the name is constant: the write is refused. -/
def set (a : Attributes) (arena : TextArena) (name value : String) (constant : Bool) :
    Option (Attributes × TextArena) :=
  if a.isConstant arena name then none
  else
    let (nameSym, arena) := arena.insert name
    let (valueSym, arena) := arena.insert value
    some (a.put nameSym ⟨valueSym, constant⟩, arena)

/-- Writes constants in order.  Fails with the first name that is constant
    already. -/
def sealAll (a : Attributes) (arena : TextArena) :
    List (String × String) → Except String (Attributes × TextArena)
  | [] => .ok (a, arena)
  | (name, value) :: rest =>
    match a.set arena name value true with
    | none => .error name
    | some (a, arena) => sealAll a arena rest

theorem set_eq_none_iff {a : Attributes} {arena : TextArena} {name value : String}
    {constant : Bool} : a.set arena name value constant = none ↔ a.isConstant arena name := by
  unfold set
  split <;> simp_all

end Attributes

end DesignGraph
