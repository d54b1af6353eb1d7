/-
  Outlines — what a document says to be where.

  A document is a tree of tables, and paths of keys lead to its tables and values.  It is
  written in sections: a header opens the table at a path, and the pairs under it put values
  under keys of this table.  The tables on the way to it come by themselves.

  * `Value.at? path v`: what stands at a path;
  * `Outline`: the tables and the values that a document says to be somewhere, `outlineOf`:
    those that sections say;
  * `Outline.Consistent`: they do not contradict each other, and `Outline.Describes`: a table
    has them and nothing else, in whatever order;
  * `Denotes text root`: the text is written in sections, and `root` is what they describe;
  * `Value.Alike`: the same stands everywhere in two values; `Outline.Describes.alike`: an
    outline describes one table, up to the order of keys.
-/
import Mathlib.Data.List.Perm.Basic
import DesignGraph.Proofs.Lines

namespace DesignGraph.Toml

/-! ## Lists of entries -/

section
variable {α β : Type} [BEq α] [LawfulBEq α] {es : List (α × β)} {key : α} {v : β}

theorem lookup_eq_none_iff_notMem : es.lookup key = none ↔ key ∉ es.map Prod.fst := by
  simp only [List.lookup_eq_none_iff, bne_iff_ne, List.mem_map, not_exists, not_and, ne_eq]
  exact forall₂_congr fun e _ => not_congr eq_comm

theorem mem_of_lookup (h : es.lookup key = some v) : (key, v) ∈ es := by
  obtain ⟨before, after, rfl, -⟩ := List.lookup_eq_some_iff.1 h
  exact List.mem_append_right before List.mem_cons_self

/-- If each key stands once, what is found under it is what stands there. -/
theorem lookup_eq_some_iff_mem (h : (es.map Prod.fst).Nodup) :
    es.lookup key = some v ↔ (key, v) ∈ es := by
  refine ⟨mem_of_lookup, fun hmem => ?_⟩
  obtain ⟨before, after, rfl⟩ := List.append_of_mem hmem
  refine List.lookup_eq_some_iff.2 ⟨before, after, rfl, fun e he => ?_⟩
  rw [List.map_append, List.nodup_append] at h
  exact bne_iff_ne.2 (h.2.2 e.1 (List.mem_map.2 ⟨e, he, rfl⟩) key List.mem_cons_self).symm

theorem lookup_cons_ite [DecidableEq α] (e : α × β) (es : List (α × β)) (key : α) :
    (e :: es).lookup key = if key = e.1 then some e.2 else es.lookup key := by
  by_cases h : key = e.1
  · rw [if_pos h, h, List.lookup_cons_self]
  · rw [if_neg h, List.lookup_cons, beq_eq_false_iff_ne.2 h]

end

/-! ## Paths -/

/-- What stands under a key. -/
def Value.entry? (key : String) : Value → Option Value
  | .table entries => entries.lookup key
  | _ => none

/-- What stands at a path. -/
def Value.at? : List String → Value → Option Value
  | [], v => some v
  | key :: path, v => (v.entry? key).bind (at? path)

theorem Value.at?_append (path rest : List String) (v : Value) :
    v.at? (path ++ rest) = (v.at? path).bind (at? rest) := by
  induction path generalizing v with
  | nil => rfl
  | cons key path ih =>
    rw [List.cons_append, at?, at?, Option.bind_assoc]
    exact congrArg _ (funext ih)

theorem Value.at?_singleton (key : String) (v : Value) : v.at? [key] = v.entry? key := by
  rw [at?]
  rcases v.entry? key with _ | u <;> rfl

/-- What stands under a key of a table at a path. -/
theorem Value.at?_concat_of_table {path : List String} {v : Value} {es : List (String × Value)}
    (h : v.at? path = some (.table es)) (key : String) : v.at? (path ++ [key]) = es.lookup key := by
  rw [at?_append, h, Option.bind_some, at?_singleton, entry?]

/-- Whether a value has no parts. -/
def Value.IsScalar : Value → Prop
  | .array _ | .table _ => False
  | _ => True

/-- Whether each table of a value has each key once. -/
def Value.Distinct (v : Value) : Prop :=
  ∀ path es, v.at? path = some (.table es) → (es.map Prod.fst).Nodup

/-- The tables that are opened, and the values that are put somewhere. -/
structure Outline where
  /-- The paths of the tables. -/
  tables : List (List String)
  /-- The values with their paths. -/
  values : List (List String × Value)

namespace Outline

/-- Whether a table stands at a path: one that is opened, or one on the way to it. -/
def IsTable (o : Outline) (path : List String) : Prop := ∃ table ∈ o.tables, path <+: table

/-- Tables and values do not contradict each other. -/
structure Consistent (o : Outline) : Prop where
  /-- No table is opened twice. -/
  tables : o.tables.Nodup
  /-- No two values stand at one path. -/
  values : (o.values.map Prod.fst).Nodup
  /-- No value stands where a table stands. -/
  apart : ∀ e ∈ o.values, ¬ o.IsTable e.1
  scalar : ∀ e ∈ o.values, e.2.IsScalar

/-- A table has what an outline says. -/
structure Describes (o : Outline) (root : List (String × Value)) : Prop where
  value : ∀ e ∈ o.values, (Value.table root).at? e.1 = some e.2
  table : ∀ path, o.IsTable path → ∃ es, (Value.table root).at? path = some (.table es)
  /-- There is nothing else. -/
  only : ∀ path v, (Value.table root).at? path = some v →
    (path, v) ∈ o.values ∨ o.IsTable path ∧ ∃ es, v = .table es
  distinct : (Value.table root).Distinct

section
variable {o : Outline} {path p : List String}

theorem IsTable.of_mem (h : path ∈ o.tables) : o.IsTable path := ⟨path, h, List.prefix_refl path⟩

theorem IsTable.of_prefix (h : o.IsTable path) (hp : p <+: path) : o.IsTable p := by
  obtain ⟨table, htable, hpath⟩ := h
  exact ⟨table, htable, hp.trans hpath⟩

end

end Outline

/-! ## Sections -/

/-- A header and the pairs under it. -/
structure Section where
  key : KeyPath
  pairs : List (String × Value)

/-- The statements of a section. -/
def Section.statements (s : Section) : List Statement :=
  .header s.key :: s.pairs.map fun (key, v) => .pair ⟨[], key⟩ v

/-- The values of a section. -/
def Section.values (s : Section) : List (List String × Value) :=
  s.pairs.map fun (key, v) => (s.key.parts ++ [key], v)

/-- Under different keys of a table there are different paths. -/
theorem Section.nodup_values {s : Section} (h : (s.pairs.map Prod.fst).Nodup) :
    (s.values.map Prod.fst).Nodup := by
  rw [List.Nodup, List.pairwise_map] at h
  rw [List.Nodup, values, List.map_map, List.pairwise_map]
  exact h.imp fun hne heq => hne (by simpa using heq)

/-- What sections say; the document itself is a table. -/
def outlineOf (ss : List Section) : Outline where
  tables := [] :: ss.map (·.key.parts)
  values := ss.flatMap Section.values

/-- The text is written in sections, and they describe a table. -/
def Denotes (text : String) (root : List (String × Value)) : Prop :=
  ∃ ss ls, List.Forall₂ WritesLine (ss.flatMap Section.statements) ls ∧
    text.toList = unlines ls ∧ (outlineOf ss).Consistent ∧ (outlineOf ss).Describes root

/-! ## What is described -/

namespace Outline

variable {o o' : Outline} {path : List String} {root : List (String × Value)} {v : Value}

/-- Beside the tables there are the values. -/
theorem Describes.at?_eq_some_iff (h : o.Describes root) (hpath : ¬ o.IsTable path) :
    (Value.table root).at? path = some v ↔ (path, v) ∈ o.values :=
  ⟨fun hv => (h.only path v hv).resolve_right fun htable => hpath htable.1, h.value (path, v)⟩

theorem Consistent.of_perm (h : o.Consistent) (ht : o.tables.Perm o'.tables)
    (hv : o.values.Perm o'.values) : o'.Consistent where
  tables := ht.nodup_iff.1 h.tables
  values := (hv.map Prod.fst).nodup_iff.1 h.values
  apart e he htable := by
    obtain ⟨table, hmem, hpath⟩ := htable
    exact h.apart e (hv.mem_iff.2 he) ⟨table, ht.mem_iff.2 hmem, hpath⟩
  scalar e he := h.scalar e (hv.mem_iff.2 he)

theorem Describes.of_perm (h : o.Describes root) (ht : o.tables.Perm o'.tables)
    (hv : o.values.Perm o'.values) : o'.Describes root := by
  have htable (path : List String) : o.IsTable path ↔ o'.IsTable path :=
    exists_congr fun table => and_congr_left fun _ => ht.mem_iff
  refine ⟨fun e he => h.value e (hv.mem_iff.2 he), fun path hpath => ?_, fun path v hpath => ?_,
    h.distinct⟩
  · exact h.table path ((htable path).2 hpath)
  · rw [← hv.mem_iff, ← htable]
    exact h.only path v hpath

end Outline

/-- The order of sections makes no difference. -/
theorem perm_outlineOf {ss ss' : List Section} (h : ss.Perm ss') :
    (outlineOf ss).tables.Perm (outlineOf ss').tables ∧
      (outlineOf ss).values.Perm (outlineOf ss').values :=
  ⟨(h.map _).cons [], h.flatMap_right _⟩

/-! ## Up to the order of keys -/

namespace Value

/-- Whether values are the same, or two tables. -/
def SameKind (v v' : Value) : Prop := v = v' ∨ (∃ es, v = .table es) ∧ ∃ es, v' = .table es

/-- Whether the same stands everywhere in two values, tables apart. -/
def Alike (v v' : Value) : Prop := ∀ path, Option.Rel SameKind (v.at? path) (v'.at? path)

variable {v v' : Value}

theorem Alike.sameKind (h : Alike v v') : SameKind v v' := by
  cases h [] with
  | some h => exact h

theorem Alike.eq_of_not_table (h : Alike v v') (hv : ∀ es, v ≠ .table es) : v' = v := by
  rcases h.sameKind with rfl | ⟨⟨es, hes⟩, -⟩
  · rfl
  · exact absurd hes (hv es)

theorem Alike.exists_table {es : List (String × Value)} (h : Alike (.table es) v') :
    ∃ es', v' = .table es' := by
  rcases h.sameKind with rfl | ⟨-, h⟩
  · exact ⟨es, rfl⟩
  · exact h

/-- Values that are alike have values that are alike under a key. -/
theorem Alike.entry? (h : Alike v v') (key : String) :
    Option.Rel Alike (v.entry? key) (v'.entry? key) := by
  have hkey := h [key]
  rw [at?_singleton, at?_singleton] at hkey
  have hpath (path : List String) := h (key :: path)
  simp only [at?] at hpath
  revert hkey hpath
  rcases v.entry? key with _ | u <;> rcases v'.entry? key with _ | u' <;> intro hkey hpath
  · exact .none
  · cases hkey
  · cases hkey
  · exact .some hpath

theorem Distinct.entry? (h : v.Distinct) {key : String} {u : Value} (hu : v.entry? key = some u) :
    u.Distinct := by
  intro path es hes
  refine h (key :: path) es ?_
  rw [at?, hu]
  exact hes

end Value

/-- **Sections describe one table, up to the order of keys.** -/
theorem Outline.Describes.alike {o : Outline} {root root' : List (String × Value)}
    (h : o.Describes root) (h' : o.Describes root') :
    Value.Alike (.table root) (.table root') := by
  -- What one table has somewhere, the other has.
  have hthere {r r' : List (String × Value)} (h : o.Describes r) (h' : o.Describes r')
      (path : List String) (v : Value) (hv : (Value.table r).at? path = some v) :
      ∃ v', (Value.table r').at? path = some v' ∧ v.SameKind v' := by
    rcases h.only path v hv with hmem | ⟨hpath, hes⟩
    · exact ⟨v, h'.value _ hmem, Or.inl rfl⟩
    · obtain ⟨es', hes'⟩ := h'.table path hpath
      exact ⟨_, hes', Or.inr ⟨hes, es', rfl⟩⟩
  intro path
  rcases hv : (Value.table root).at? path with _ | v
  · rcases hv' : (Value.table root').at? path with _ | v'
    · exact .none
    · obtain ⟨v, hv', -⟩ := hthere h' h path v' hv'
      rw [hv] at hv'
      cases hv'
  · obtain ⟨v', hv', hkind⟩ := hthere h h' path v hv
    rw [hv']
    exact .some hkind

end DesignGraph.Toml
