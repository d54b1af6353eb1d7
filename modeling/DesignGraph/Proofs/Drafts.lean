/-
  Drafts — documents that are put together section by section.

  * `Outline.mark? o path`: what an outline says to be at a path;
    `Consistent.mark?_withTable` and `Consistent.mark?_withValue`: what one more table, or one
    more value, makes of this;
  * `Draft.Holds o d`: the draft `d` has what the outline `o` says; `Holds.header` and
    `Holds.pair` are the steps of a document, `exists_holds` the run;
  * `exists_describes`: sections that do not contradict each other describe a table;
  * `exists_parse?_of_denotes`: a text is read as what it denotes.
-/
import Mathlib.Data.List.Induction
import DesignGraph.Proofs.Nodes

namespace DesignGraph.Toml

/-! ## Drafts -/

namespace Outline

variable {o o' : Outline} {path p : List String} {v : Value}

instance (o : Outline) (path : List String) : Decidable (o.IsTable path) :=
  inferInstanceAs (Decidable (∃ table ∈ o.tables, path <+: table))

/-- What an outline says to be at a path. -/
def mark? (o : Outline) (path : List String) : Option Mark :=
  if path ∈ o.tables then some (.table .header)
  else if o.IsTable path then some (.table .implied)
  else (o.values.lookup path).map .value

/-- A table more. -/
def withTable (o : Outline) (path : List String) : Outline :=
  { o with tables := o.tables ++ [path] }

/-- A value more. -/
def withValue (o : Outline) (path : List String) (v : Value) : Outline :=
  { o with values := o.values ++ [(path, v)] }

theorem isTable_withTable_iff : (o.withTable path).IsTable p ↔ o.IsTable p ∨ p <+: path := by
  simp only [IsTable, withTable, List.mem_append, List.mem_singleton, or_and_right, exists_or,
    exists_eq_left]

theorem Consistent.of_sublist (h : o'.Consistent) (ht : o.tables.Sublist o'.tables)
    (hv : o.values.Sublist o'.values) : o.Consistent where
  tables := ht.nodup h.tables
  values := (hv.map Prod.fst).nodup h.values
  apart e he htable := by
    obtain ⟨table, hmem, hp⟩ := htable
    exact h.apart e (hv.subset he) ⟨table, ht.subset hmem, hp⟩
  scalar e he := h.scalar e (hv.subset he)

/-- No value stands where a table stands. -/
theorem Consistent.lookup_eq_none (h : o.Consistent) (hp : o.IsTable p) :
    o.values.lookup p = none := by
  rw [lookup_eq_none_iff_notMem]
  intro hmem
  obtain ⟨e, he, rfl⟩ := List.mem_map.1 hmem
  exact h.apart e he hp

theorem mark?_of_isTable (h : o.IsTable p) : ∃ origin, o.mark? p = some (.table origin) := by
  by_cases hp : p ∈ o.tables
  · exact ⟨.header, if_pos hp⟩
  · exact ⟨.implied, by rw [mark?, if_neg hp, if_pos h]⟩

theorem mark?_of_not_isTable (h : ¬ o.IsTable p) : o.mark? p = (o.values.lookup p).map .value := by
  rw [mark?, if_neg (mt IsTable.of_mem h), if_neg h]

/-- What is said to be somewhere is a value or a table. -/
theorem cases_of_mark? {m : Mark} (h : o.mark? p = some m) :
    (∃ v, m = .value v ∧ (p, v) ∈ o.values) ∨ o.IsTable p ∧ ∃ origin, m = .table origin := by
  by_cases hp : o.IsTable p
  · obtain ⟨origin, horigin⟩ := mark?_of_isTable hp
    rw [horigin] at h
    exact Or.inr ⟨hp, origin, (Option.some.inj h).symm⟩
  · rw [mark?_of_not_isTable hp] at h
    obtain ⟨v, hv, rfl⟩ := Option.map_eq_some_iff.1 h
    exact Or.inl ⟨v, rfl, mem_of_lookup hv⟩

section
variable (h : (o.withTable path).Consistent)
include h

/-- No table is opened twice. -/
theorem Consistent.notMem_tables : path ∉ o.tables := by
  intro hmem
  have hnodup := h.tables
  rw [withTable, List.nodup_append] at hnodup
  exact hnodup.2.2 path hmem path (List.mem_singleton.2 rfl) rfl

/-- A value on the way to a table would stand where a table stands. -/
theorem Consistent.lookup_of_prefix (hp : p <+: path) : o.values.lookup p = none :=
  h.lookup_eq_none (isTable_withTable_iff.2 (Or.inr hp))

/-- A table that is opened, and those on the way to it, are there. -/
theorem Consistent.mark?_withTable (p : List String) :
    (o.withTable path).mark? p = if p = path then some (.table .header)
      else (o.mark? p).or (if p <+: path then some (.table .implied) else none) := by
  have hmem : p ∈ (o.withTable path).tables ↔ p = path ∨ p ∈ o.tables := by
    rw [withTable, List.mem_append, List.mem_singleton, or_comm]
  simp only [mark?, hmem, isTable_withTable_iff]
  by_cases hpath : p = path
  · rw [if_pos (Or.inl hpath), if_pos hpath]
  by_cases hp : p ∈ o.tables
  · rw [if_pos (Or.inr hp), if_neg hpath, if_pos hp, Option.some_or]
  rw [if_neg (not_or.2 ⟨hpath, hp⟩), if_neg hpath, if_neg hp]
  by_cases htable : o.IsTable p
  · rw [if_pos (Or.inl htable), if_pos htable, Option.some_or]
  rw [if_neg htable]
  by_cases hprefix : p <+: path
  · rw [if_pos (Or.inr hprefix), if_pos hprefix, h.lookup_of_prefix hprefix]
    rfl
  · rw [if_neg (not_or.2 ⟨htable, hprefix⟩), if_neg hprefix, Option.or_none]
    rfl

end

section
variable (h : (o.withValue path v).Consistent)
include h

theorem Consistent.of_withValue : o.Consistent :=
  h.of_sublist (List.Sublist.refl _) (List.sublist_append_left _ _)

/-- Where a value may be put, there is nothing. -/
theorem Consistent.not_isTable : ¬ o.IsTable path :=
  h.apart (path, v) (List.mem_append_right _ (List.mem_singleton.2 rfl))

theorem Consistent.lookup_self : o.values.lookup path = none := by
  have hkeys := h.values
  rw [withValue, List.map_append, List.nodup_append] at hkeys
  rw [lookup_eq_none_iff_notMem]
  exact fun hmem => hkeys.2.2 path hmem path (List.mem_singleton.2 rfl) rfl

/-- A value that is put into a table is there. -/
theorem Consistent.mark?_withValue (p : List String) :
    (o.withValue path v).mark? p = if p = path then some (.value v) else o.mark? p := by
  have hlookup : (o.withValue path v).values.lookup p =
      (o.values.lookup p).or (if p = path then some v else none) := by
    rw [withValue, List.lookup_append, lookup_cons_ite, List.lookup_nil]
  by_cases hp : p = path
  · have hno : ¬ (o.withValue path v).IsTable p := hp ▸ h.not_isTable
    rw [mark?_of_not_isTable hno, hlookup, if_pos hp, if_pos hp, hp, h.lookup_self]
    rfl
  · rw [mark?, hlookup, if_neg hp, if_neg hp, Option.or_none]
    rfl

end

end Outline

/-- What a pair makes of what stands under its key: a value may be put there if nothing is. -/
def putValue (v : Value) : Option Node → Option Node
  | none => some (.value v)
  | some _ => none

theorem Draft.add_pair (d : Draft) (key : String) (v : Value) : d.add (.pair ⟨[], key⟩ v) =
    (within (alter key (putValue v)) d.current d.root).map (⟨·, d.current⟩) := by
  have hinsert (es : Entries) : insertPair es ⟨[], key⟩ v = alter key (putValue v) es := by
    rw [insertPair, insertAt, if_pos rfl]
    exact congrArg (alter key · es) (funext fun n => by cases n <;> rfl)
  rw [Draft.add, show (insertPair · ⟨[], key⟩ v) = alter key (putValue v) from funext hinsert]

/-- The document of a draft. -/
def Draft.node (d : Draft) : Node := .table .header d.root

/-- A draft has what an outline says. -/
structure Draft.Holds (o : Outline) (d : Draft) : Prop where
  mark? : ∀ path, d.node.mark? path = o.mark? path
  distinct : d.node.Distinct

namespace Draft.Holds

variable {o : Outline} {d : Draft}

theorem mark?_of_at? {path : List String} {n : Node} (h : d.Holds o)
    (hn : d.node.at? path = some n) : o.mark? path = some n.mark := by
  rw [← h.mark?, Node.mark?, hn]
  rfl

/-- Only tables are on the way to a table. -/
theorem way {o' : Outline} {path : List String} (h : d.Holds o) (hc : o'.Consistent)
    (hvalues : o.values ⊆ o'.values) (hpath : o'.IsTable path) {p : List String} {m : Mark}
    (hp : p <+: path) (hm : d.node.mark? p = some m) :
    ∃ origin, m = .table origin := by
  rw [h.mark?] at hm
  rcases Outline.cases_of_mark? hm with ⟨v, -, hmem⟩ | ⟨-, htable⟩
  · exact absurd (hpath.of_prefix hp) (hc.apart _ (hvalues hmem))
  · exact htable

/-- What stands where a table may be opened is nothing, or a table that was implied. -/
theorem exists_openTable {path : List String} (h : d.Holds o)
    (hc : (o.withTable path).Consistent) : ∃ es,
    openTable (d.node.at? path) = some (.table .header es) ∧ (Node.table .header es).Distinct ∧
      ∀ rest, rest ≠ [] → (Node.table .header es).mark? rest = d.node.mark? (path ++ rest) := by
  rcases hn : d.node.at? path with _ | n
  · refine ⟨[], rfl, Node.distinct_of_entries rfl, fun rest hrest => ?_⟩
    rw [Node.mark?_append, hn, Node.mark?_eq_none_of_entries rfl hrest]
    rfl
  · have hmark := h.mark?_of_at? hn
    have htable : ∃ es, n = .table .implied es := by
      refine Node.eq_table_of_mark ?_
      by_cases hp : o.IsTable path
      · rw [Outline.mark?, if_neg hc.notMem_tables, if_pos hp] at hmark
        exact (Option.some.inj hmark).symm
      · rw [Outline.mark?_of_not_isTable hp, hc.lookup_of_prefix (List.prefix_refl path)] at hmark
        cases hmark
    obtain ⟨es, rfl⟩ := htable
    refine ⟨es, rfl, ?_, fun rest hrest => ?_⟩
    · exact Node.distinct_table_iff.2 (Node.distinct_table_iff.1 (h.distinct.at? hn))
    · rw [Node.mark?_append, hn, Option.bind_some, Node.mark?_table_congr .implied hrest]

/-- **A header opens its table.** -/
theorem header {key : KeyPath} (h : d.Holds o) (hc : (o.withTable key.parts).Consistent) :
    ∃ root, d.add (.header key) = some ⟨root, key.parts⟩ ∧
      Draft.Holds (o.withTable key.parts) ⟨root, key.parts⟩ := by
  have hway (p : List String) (m : Mark) (hp : p <+: key.parents) (hm : d.node.mark? p = some m) :
      ∃ origin, m = .table origin :=
    h.way hc (List.Subset.refl _) (Outline.isTable_withTable_iff.2 (Or.inr (List.prefix_refl _)))
      (hp.trans (List.prefix_append _ _)) hm
  obtain ⟨es, hes, hdistinct, hbelow⟩ := h.exists_openTable hc
  obtain ⟨root, hroot, hputs⟩ := exists_within hway hes
  refine ⟨root, by rw [Draft.add, hroot]; rfl, fun p => ?_, hputs.distinct h.distinct hdistinct⟩
  refine (hputs.mark?_eq hbelow p).trans ?_
  rw [hc.mark?_withTable, ← h.mark?]
  rfl

/-- **A pair puts its value under its key of the current table.** -/
theorem pair {key : String} {v : Value} (h : d.Holds o) (hcurrent : d.current ∈ o.tables)
    (hc : (o.withValue (d.current ++ [key]) v).Consistent) :
    ∃ root, d.add (.pair ⟨[], key⟩ v) = some ⟨root, d.current⟩ ∧
      Draft.Holds (o.withValue (d.current ++ [key]) v) ⟨root, d.current⟩ := by
  have htable : o.IsTable d.current := .of_mem hcurrent
  have hway (p : List String) (m : Mark) (hp : p <+: d.current) (hm : d.node.mark? p = some m) :
      ∃ origin, m = .table origin := h.way hc (List.subset_append_left _ _) htable hp hm
  have hnone : d.node.at? (d.current ++ [key]) = none := by
    rw [← Node.mark?_eq_none_iff, h.mark?, Outline.mark?_of_not_isTable hc.not_isTable,
      hc.lookup_self]
    rfl
  have hbelow (rest : List String) (hrest : rest ≠ []) :
      (Node.value v).mark? rest = d.node.mark? (d.current ++ [key] ++ rest) := by
    rw [Node.mark?_append, hnone, Node.mark?_eq_none_of_entries rfl hrest]
    rfl
  have hput : putValue v (d.node.at? (d.current ++ [key])) = some (.value v) := by
    rw [hnone]
    rfl
  obtain ⟨root, hroot, hputs⟩ := exists_within hway hput
  refine ⟨root, ?_, fun p => ?_, hputs.distinct h.distinct (Node.distinct_of_entries rfl)⟩
  · rw [Draft.add_pair, hroot]
    rfl
  · refine (hputs.mark?_eq hbelow p).trans ?_
    rw [hc.mark?_withValue]
    by_cases hp : p = d.current ++ [key]
    · rw [if_pos hp, if_pos hp]
      rfl
    rw [if_neg hp, if_neg hp, ← h.mark?]
    by_cases hprefix : p <+: d.current ++ [key]
    · -- The tables around the value are there already.
      have hcur : p <+: d.current := (List.prefix_concat_iff.1 hprefix).resolve_left hp
      obtain ⟨origin, horigin⟩ := Outline.mark?_of_isTable (htable.of_prefix hcur)
      rw [← h.mark?] at horigin
      rw [show (Node.table .header d.root).mark? p = _ from horigin, Option.some_or, horigin]
    · rw [if_neg hprefix, Option.or_none]
      rfl

end Draft.Holds

/-! ## Documents -/

theorem outlineOf_concat_nil (ss : List Section) (key : KeyPath) :
    outlineOf (ss ++ [⟨key, []⟩]) = (outlineOf ss).withTable key.parts := by
  simp [outlineOf, Outline.withTable, Section.values]

theorem outlineOf_concat_concat (ss : List Section) (key : KeyPath)
    (kvs : List (String × Value)) (e : String × Value) :
    outlineOf (ss ++ [⟨key, kvs ++ [e]⟩]) =
      (outlineOf (ss ++ [⟨key, kvs⟩])).withValue (key.parts ++ [e.1]) e.2 := by
  simp [outlineOf, Outline.withValue, Section.values]

/-- **A section adds its table, and its values.** -/
theorem Draft.Holds.statements {ss : List Section} {d : Draft} {key : KeyPath}
    {kvs : List (String × Value)} (h : d.Holds (outlineOf ss))
    (hc : (outlineOf (ss ++ [⟨key, kvs⟩])).Consistent) :
    ∃ root, (Section.mk key kvs).statements.foldlM Draft.add d = some ⟨root, key.parts⟩ ∧
      Draft.Holds (outlineOf (ss ++ [⟨key, kvs⟩])) ⟨root, key.parts⟩ := by
  induction kvs using List.reverseRecOn with
  | nil =>
    rw [outlineOf_concat_nil] at hc ⊢
    obtain ⟨root, hadd, hholds⟩ := h.header hc
    exact ⟨root, by rw [Section.statements, List.foldlM_cons, hadd]; rfl, hholds⟩
  | append_singleton kvs e ih =>
    rw [outlineOf_concat_concat] at hc ⊢
    obtain ⟨root, hfold, hholds⟩ := ih hc.of_withValue
    have htable : key.parts ∈ (outlineOf (ss ++ [⟨key, kvs⟩])).tables := by
      simp [outlineOf]
    obtain ⟨root', hadd, hholds'⟩ := hholds.pair htable hc
    refine ⟨root', ?_, hholds'⟩
    have hsplit : (Section.mk key (kvs ++ [e])).statements =
        (Section.mk key kvs).statements ++ [.pair ⟨[], e.1⟩ e.2] := by
      simp [Section.statements]
    rw [hsplit, List.foldlM_append, hfold, Option.bind_eq_bind, Option.bind_some,
      List.foldlM_cons, hadd]
    rfl

/-- **Sections that do not contradict each other can be put together.** -/
theorem exists_holds {ss : List Section} (hc : (outlineOf ss).Consistent) :
    ∃ d, (ss.flatMap Section.statements).foldlM Draft.add {} = some d ∧ d.Holds (outlineOf ss) := by
  induction ss using List.reverseRecOn with
  | nil =>
    refine ⟨{}, rfl, fun path => ?_, Node.distinct_of_entries rfl⟩
    rcases path with _ | ⟨key, path⟩
    · rfl
    · rw [Node.mark?_eq_none_of_entries rfl (List.cons_ne_nil key path), Outline.mark?, if_neg,
        if_neg]
      · rfl
      · simp [Outline.IsTable, outlineOf]
      · simp [outlineOf]
  | append_singleton ss s ih =>
    have hc' : (outlineOf ss).Consistent := by
      refine hc.of_sublist ?_ ?_ <;> simp [outlineOf]
    obtain ⟨d, hfold, hholds⟩ := ih hc'
    obtain ⟨root, hsection, hholds⟩ := hholds.statements hc
    refine ⟨_, ?_, hholds⟩
    rw [List.flatMap_append, List.foldlM_append, hfold, List.flatMap_singleton]
    exact hsection

theorem lookup_entryValues (es : Entries) (key : String) :
    (entryValues es).lookup key = (es.lookup key).map Node.toValue := by
  induction es with
  | nil => rfl
  | cons e es ih =>
    rw [entryValues, lookup_cons_ite, lookup_cons_ite, ih, apply_ite (Option.map Node.toValue)]
    rfl

theorem keys_entryValues (es : Entries) : (entryValues es).map Prod.fst = es.map Prod.fst := by
  induction es with
  | nil => rfl
  | cons e es ih => rw [entryValues, List.map_cons, List.map_cons, ih]

/-- What stands where in a node stands there in its value. -/
theorem at?_toValue {n : Node} (h : ∀ path v, n.at? path = some (.value v) → v.IsScalar)
    (path : List String) : n.toValue.at? path = (n.at? path).map Node.toValue := by
  induction path generalizing n with
  | nil => rfl
  | cons key path ih =>
    rw [Value.at?, Node.at?]
    cases n with
    | value v =>
      have hscalar := h [] v rfl
      cases v with
      | table | array => cases hscalar
      | _ => rfl
    | tables => rfl
    | table origin es =>
      rw [Node.toValue, Value.entry?, lookup_entryValues, Node.entries]
      rcases hn : es.lookup key with _ | n
      · rfl
      · refine ih fun path v hv => h (key :: path) v ?_
        rw [Node.at?, Node.entries, hn]
        exact hv

/-- What is put together is what the sections describe. -/
theorem Draft.Holds.describes {o : Outline} {d : Draft} (h : d.Holds o) (hc : o.Consistent) :
    o.Describes (entryValues d.root) := by
  have hscalar (path : List String) (v : Value)
      (hv : d.node.at? path = some (.value v)) : v.IsScalar := by
    rcases Outline.cases_of_mark? (h.mark?_of_at? hv) with ⟨u, hu, hmem⟩ | ⟨-, _, htable⟩
    · cases hu
      exact hc.scalar _ hmem
    · cases htable
  have hat (path : List String) : (Value.table (entryValues d.root)).at? path =
      (d.node.at? path).map Node.toValue := at?_toValue hscalar path
  refine ⟨fun e he => ?_, fun path hpath => ?_, fun path v hv => ?_, fun path es hes => ?_⟩
  · have hmark : d.node.mark? e.1 = some (.value e.2) := by
      rw [h.mark?, Outline.mark?_of_not_isTable (hc.apart e he),
        (lookup_eq_some_iff_mem hc.values).2 he]
      rfl
    obtain ⟨n, hn, hvalue⟩ := Option.map_eq_some_iff.1 hmark
    rw [hat, hn, Node.eq_value_of_mark hvalue]
    rfl
  · obtain ⟨origin, hmark⟩ := Outline.mark?_of_isTable hpath
    rw [← h.mark?] at hmark
    obtain ⟨n, hn, htable⟩ := Option.map_eq_some_iff.1 hmark
    obtain ⟨es, rfl⟩ := Node.eq_table_of_mark htable
    exact ⟨_, by rw [hat, hn]; rfl⟩
  · rw [hat] at hv
    obtain ⟨n, hn, rfl⟩ := Option.map_eq_some_iff.1 hv
    rcases Outline.cases_of_mark? (h.mark?_of_at? hn) with ⟨u, hu, hmem⟩ | ⟨hpath, origin, htable⟩
    · rw [Node.eq_value_of_mark hu]
      exact Or.inl hmem
    · obtain ⟨es, rfl⟩ := Node.eq_table_of_mark htable
      exact Or.inr ⟨hpath, _, rfl⟩
  · rw [hat] at hes
    obtain ⟨n, hn, htable⟩ := Option.map_eq_some_iff.1 hes
    have hnodup := h.distinct path n hn
    cases n with
    | table origin es' =>
      cases htable
      rw [keys_entryValues]
      exact hnodup
    | value v =>
      cases htable
      exact absurd (hscalar path _ hn) id
    | tables => cases htable

/-- **Sections that do not contradict each other describe a table.** -/
theorem exists_describes {ss : List Section} (hc : (outlineOf ss).Consistent) : ∃ root,
    tableOf? (ss.flatMap Section.statements) = some root ∧ (outlineOf ss).Describes root := by
  obtain ⟨d, hd, hholds⟩ := exists_holds hc
  exact ⟨_, by rw [tableOf?, hd]; rfl, hholds.describes hc⟩

/-- **A text is read as what it denotes, up to the order of keys.** -/
theorem exists_parse?_of_denotes {text : String} {root : List (String × Value)}
    (h : Denotes text root) : ∃ root', parse? text = some root' ∧
      Value.Alike (.table root) (.table root') ∧ (Value.table root').Distinct := by
  obtain ⟨ss, ls, hlines, htext, hc, hdescribes⟩ := h
  obtain ⟨root', htable, hdescribes'⟩ := exists_describes hc
  have hsays : List.Forall₂ Says ls (ss.flatMap Section.statements) :=
    (hlines.imp fun _ _ => says_of_writesLine).flip
  exact ⟨root', (parse?_of_lines htext hsays).trans htable, hdescribes.alike hdescribes',
    hdescribes'.distinct⟩

end DesignGraph.Toml
