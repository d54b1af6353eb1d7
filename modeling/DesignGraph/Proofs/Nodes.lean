/-
  Nodes — what a change of a draft leaves where it was.

  A draft of a document is changed at the end of a path, through the tables on the way.  What
  is neither there nor on the way stays, and a table on the way comes by itself if it is not
  there.

  * `Node.at? path n`: the node at a path, and `Node.mark? path n`: what it is;
  * `Puts path n old new`: the node `n` is put at a path;
  * `exists_alter`: a change under a key of a table, `exists_within`: a change at a path;
    `Puts.mark?_eq`: what there is where after it.
-/
import DesignGraph.Proofs.Outlines

namespace DesignGraph.Toml

/-! ## Nodes -/

/-- The entries of a node, if it is a table. -/
def Node.entries : Node → Entries
  | .table _ es => es
  | _ => []

/-- What stands at a path. -/
def Node.at? : List String → Node → Option Node
  | [], n => some n
  | key :: path, n => (n.entries.lookup key).bind (at? path)

/-- What a node is, whatever stands under it. -/
inductive Mark where
  | value (v : Value)
  | table (origin : Origin)
  | tables

/-- What a node is. -/
def Node.mark : Node → Mark
  | .value v => .value v
  | .table origin _ => .table origin
  | .tables _ _ => .tables

/-- What there is at a path. -/
def Node.mark? (path : List String) (n : Node) : Option Mark := (n.at? path).map mark

/-- Whether each table of a node has each key once. -/
def Node.Distinct (n : Node) : Prop :=
  ∀ path m, n.at? path = some m → (m.entries.map Prod.fst).Nodup

section
variable {n m old new : Node} {es : Entries} {key : String} {path : List String} {origin : Origin}

theorem Node.at?_append (path rest : List String) (n : Node) :
    n.at? (path ++ rest) = (n.at? path).bind (at? rest) := by
  induction path generalizing n with
  | nil => rfl
  | cons key path ih =>
    rw [List.cons_append, at?, at?, Option.bind_assoc]
    exact congrArg _ (funext ih)

theorem Node.mark?_append (path rest : List String) (n : Node) :
    n.mark? (path ++ rest) = (n.at? path).bind (mark? rest) := by
  rw [mark?, at?_append, Option.map_bind]
  rfl

theorem Node.mark?_cons_table :
    (Node.table origin es).mark? (key :: path) = (es.lookup key).bind (mark? path) :=
  mark?_append [key] path (.table origin es) |>.trans <| by
    rw [at?, Option.bind_assoc]
    rfl

theorem Node.distinct_table_iff : (Node.table origin es).Distinct ↔
    (es.map Prod.fst).Nodup ∧ ∀ key n, es.lookup key = some n → n.Distinct := by
  constructor
  · intro h
    refine ⟨h [] _ rfl, fun key n hn path m hm => h (key :: path) m ?_⟩
    rw [at?, entries, hn]
    exact hm
  · rintro ⟨hes, hbelow⟩ path m hm
    cases path with
    | nil =>
      cases hm
      exact hes
    | cons key path =>
      obtain ⟨n, hn, hm⟩ := Option.bind_eq_some_iff.1 hm
      exact hbelow key n hn path m hm

theorem Node.Distinct.at? (h : n.Distinct) (hm : n.at? path = some m) : m.Distinct := by
  intro rest k hk
  refine h (path ++ rest) k ?_
  rw [Node.at?_append, hm]
  exact hk

/-- A table has the same things under it, however it came about. -/
theorem Node.mark?_table_congr (origin' : Origin) (hpath : path ≠ []) :
    (Node.table origin es).mark? path = (Node.table origin' es).mark? path := by
  cases path with
  | nil => exact absurd rfl hpath
  | cons key path => rw [mark?_cons_table, mark?_cons_table]

theorem Node.mark?_eq_none_of_entries (h : n.entries = []) (hpath : path ≠ []) :
    n.mark? path = none := by
  cases path with
  | nil => exact absurd rfl hpath
  | cons key path => rw [mark?, at?, h]; rfl

theorem Node.mark?_eq_none_iff : n.mark? path = none ↔ n.at? path = none := by
  rw [mark?, Option.map_eq_none_iff]

theorem Node.eq_value_of_mark {v : Value} (h : n.mark = .value v) : n = .value v := by
  cases n <;> cases h
  rfl

theorem Node.eq_table_of_mark (h : n.mark = .table origin) : ∃ es, n = .table origin es := by
  cases n <;> cases h
  exact ⟨_, rfl⟩

theorem Node.distinct_of_entries (h : n.entries = []) : n.Distinct := by
  intro path m hm
  cases path with
  | nil =>
    cases hm
    rw [h]
    exact List.nodup_nil
  | cons key path =>
    rw [at?, h] at hm
    cases hm

end

/-! ## Changes -/

/-- What becomes of a table, and of all around it, if the node `n` is put at a path. -/
structure Puts (path : List String) (n old new : Node) : Prop where
  here : new.at? path = some n
  /-- Tables on the way come by themselves; all else stays. -/
  beside : ∀ p, ¬ path <+: p →
    new.mark? p = (old.mark? p).or (if p <+: path then some (.table .implied) else none)
  distinct : old.Distinct → n.Distinct → new.Distinct

section
variable {g : Option Node → Option Node} {n old new : Node} {es es' : Entries} {key : String}
  {path : List String} {origin : Origin}

/-- What is changed under a key is changed nowhere else. -/
theorem exists_alter (hg : g (es.lookup key) = some n) : ∃ es', alter key g es = some es' ∧
    (∀ k, es'.lookup k = if k = key then some n else es.lookup k) ∧
    ((es.map Prod.fst).Nodup → (es'.map Prod.fst).Nodup) := by
  induction es with
  | nil =>
    have halter : alter key g [] = some [(key, n)] := by
      rw [alter, show g none = some n from hg]
      rfl
    exact ⟨_, halter, lookup_cons_ite (key, n) [], fun _ => List.pairwise_singleton _ key⟩
  | cons e es ih =>
    obtain ⟨k', m⟩ := e
    rw [lookup_cons_ite] at hg
    by_cases hkey : k' = key
    · subst hkey
      rw [if_pos rfl] at hg
      refine ⟨(k', n) :: es, by rw [alter, if_pos rfl, hg]; rfl, fun k => ?_, id⟩
      rw [lookup_cons_ite, lookup_cons_ite]
      by_cases hk : k = k'
      · rw [if_pos hk, if_pos hk]
      · rw [if_neg hk, if_neg hk, if_neg hk]
    · rw [if_neg (Ne.symm hkey)] at hg
      obtain ⟨es', halter, hlookup, hnodup⟩ := ih hg
      refine ⟨(k', m) :: es', by rw [alter, if_neg hkey, halter]; rfl, fun k => ?_, fun h => ?_⟩
      · rw [lookup_cons_ite, lookup_cons_ite, hlookup]
        by_cases hk : k = k'
        · rw [if_pos hk, if_pos hk, if_neg (hk ▸ hkey)]
        · rw [if_neg hk, if_neg hk]
      · rw [List.map_cons, List.nodup_cons] at h ⊢
        refine ⟨?_, hnodup h.2⟩
        rw [← lookup_eq_none_iff_notMem, hlookup, if_neg hkey, lookup_eq_none_iff_notMem]
        exact h.1

/-- What is put into a table under a key is put into the table around it. -/
theorem Puts.cons (h : Puts path n old new)
    (hold : es.lookup key = some old ∨ es.lookup key = none ∧ old = .table .implied [])
    (hlookup : ∀ k, es'.lookup k = if k = key then some new else es.lookup k)
    (hnodup : (es.map Prod.fst).Nodup → (es'.map Prod.fst).Nodup) :
    Puts (key :: path) n (.table origin es) (.table origin es') := by
  refine ⟨?_, fun p hp => ?_, fun hes hn => ?_⟩
  · rw [Node.at?, Node.entries, hlookup, if_pos rfl]
    exact h.here
  · rcases p with _ | ⟨k, p⟩
    · rfl
    rw [Node.mark?_cons_table, Node.mark?_cons_table, hlookup]
    by_cases hk : k = key
    · subst hk
      rw [List.cons_prefix_cons, and_iff_right rfl] at hp
      rw [if_pos rfl, Option.bind_some, h.beside p hp]
      simp only [List.cons_prefix_cons, true_and]
      rcases hold with hold | ⟨hold, rfl⟩
      · rw [hold, Option.bind_some]
      · -- A table that was not there has nothing but itself.
        rw [hold, Option.bind_none]
        rcases p with _ | ⟨k', p⟩
        · simp [Node.mark?, Node.at?, Node.mark]
        · rw [Node.mark?_eq_none_of_entries rfl (List.cons_ne_nil k' p)]
    · simp [hk]
  · rw [Node.distinct_table_iff] at hes ⊢
    refine ⟨hnodup hes.1, fun k m hm => ?_⟩
    rw [hlookup] at hm
    split at hm
    · cases hm
      refine h.distinct ?_ hn
      rcases hold with hold | ⟨-, rfl⟩
      · exact hes.2 key old hold
      · exact Node.distinct_of_entries rfl
    · exact hes.2 k m hm

theorem Node.at?_singleton_table : (Node.table origin es).at? [key] = es.lookup key := by
  rw [at?, entries]
  rcases es.lookup key with _ | n <;> rfl

/-- A table that is not there is implied. -/
theorem exists_within_of_none {f : Entries → Option Entries} {es₁ : Entries}
    (hnone : es.lookup key = none) (hf : within f path [] = some es₁) :
    ∃ es', within f (key :: path) es = some es' ∧
      (∀ k, es'.lookup k = if k = key then some (.table .implied es₁) else es.lookup k) ∧
      ((es.map Prod.fst).Nodup → (es'.map Prod.fst).Nodup) := by
  unfold within
  exact exists_alter (by rw [hnone]; simp only [hf, Option.map_some])

theorem exists_within_of_table {f : Entries → Option Entries} {es₀ es₁ : Entries}
    (htable : es.lookup key = some (.table origin es₀)) (hf : within f path es₀ = some es₁) :
    ∃ es', within f (key :: path) es = some es' ∧
      (∀ k, es'.lookup k = if k = key then some (.table origin es₁) else es.lookup k) ∧
      ((es.map Prod.fst).Nodup → (es'.map Prod.fst).Nodup) := by
  unfold within
  exact exists_alter (by rw [htable]; simp only [hf, Option.map_some])

/-- **A node can be put at a path if only tables are on the way.** -/
theorem exists_within
    (hway : ∀ p m, p <+: path → (Node.table origin es).mark? p = some m → ∃ o, m = .table o)
    (hg : g ((Node.table origin es).at? (path ++ [key])) = some n) :
    ∃ es', within (alter key g) path es = some es' ∧
      Puts (path ++ [key]) n (.table origin es) (.table origin es') := by
  induction path generalizing origin es with
  | nil =>
    rw [List.nil_append, Node.at?_singleton_table] at hg
    obtain ⟨es', halter, hlookup, hnodup⟩ := exists_alter hg
    have hputs (old : Node) : Puts [] n old n :=
      ⟨rfl, fun p hp => absurd List.nil_prefix hp, fun _ hn => hn⟩
    refine ⟨es', halter, ?_⟩
    rcases hold : es.lookup key with _ | old
    · exact (hputs (.table .implied [])).cons (Or.inr ⟨hold, rfl⟩) hlookup hnodup
    · exact (hputs old).cons (Or.inl hold) hlookup hnodup
  | cons k path ih =>
    rcases hold : es.lookup k with _ | old
    · have hsame (p : List String) : (Node.table .implied []).at? (p ++ [key]) = none := by
        rw [← Node.mark?_eq_none_iff]
        exact Node.mark?_eq_none_of_entries rfl (List.concat_ne_nil key p)
      have hway' (p : List String) (m : Mark) (_ : p <+: path)
          (hm : (Node.table .implied []).mark? p = some m) : ∃ o, m = .table o := by
        rcases p with _ | ⟨k', p⟩
        · exact ⟨_, (Option.some.inj hm).symm⟩
        · rw [Node.mark?_eq_none_of_entries rfl (List.cons_ne_nil k' p)] at hm
          cases hm
      have hg' : g ((Node.table .implied []).at? (path ++ [key])) = some n := by
        rw [List.cons_append, Node.at?, Node.entries, hold] at hg
        rw [hsame]
        exact hg
      obtain ⟨es₁, hwithin, hputs⟩ := ih hway' hg'
      obtain ⟨es', hes', hlookup, hnodup⟩ := exists_within_of_none hold hwithin
      exact ⟨es', hes', hputs.cons (Or.inr ⟨hold, rfl⟩) hlookup hnodup⟩
    · have hbelow (p : List String) : (Node.table origin es).mark? (k :: p) = old.mark? p := by
        rw [Node.mark?_cons_table, hold]
        rfl
      obtain ⟨o, ho⟩ := hway [k] old.mark (List.prefix_cons_iff.2 (by simp)) (hbelow [])
      rcases old with v | ⟨origin', es₀⟩ | _
      · cases ho
      · have hway' (p : List String) (m : Mark) (hp : p <+: path)
            (hm : (Node.table origin' es₀).mark? p = some m) : ∃ o, m = .table o :=
          hway (k :: p) m (List.cons_prefix_cons.2 ⟨rfl, hp⟩) ((hbelow p).trans hm)
        have hg' : g ((Node.table origin' es₀).at? (path ++ [key])) = some n := by
          rw [List.cons_append, Node.at?, Node.entries, hold] at hg
          exact hg
        obtain ⟨es₁, hwithin, hputs⟩ := ih hway' hg'
        obtain ⟨es', hes', hlookup, hnodup⟩ := exists_within_of_table hold hwithin
        exact ⟨es', hes', hputs.cons (Or.inl hold) hlookup hnodup⟩
      · cases ho

/-- What there is where after a node is put at a path, if it has the same things under it as
    before. -/
theorem Puts.mark?_eq (h : Puts path n old new)
    (hbelow : ∀ rest, rest ≠ [] → n.mark? rest = old.mark? (path ++ rest)) (p : List String) :
    new.mark? p = if p = path then some n.mark
      else (old.mark? p).or (if p <+: path then some (.table .implied) else none) := by
  by_cases hp : path <+: p
  · obtain ⟨rest, rfl⟩ := hp
    rw [Node.mark?_append, h.here, Option.bind_some]
    rcases rest with _ | ⟨k, rest⟩
    · rw [List.append_nil, if_pos rfl]
      rfl
    · have hlength : ¬ path ++ k :: rest <+: path := fun hprefix => by
        have hle := hprefix.length_le
        rw [List.length_append, List.length_cons] at hle
        omega
      have hne : path ++ k :: rest ≠ path := fun heq => List.cons_ne_nil k rest
        (List.append_right_eq_self.1 heq)
      rw [if_neg hne, if_neg hlength, Option.or_none]
      exact hbelow _ (List.cons_ne_nil k rest)
  · have hne : p ≠ path := fun heq => hp (heq ▸ List.prefix_refl path)
    rw [if_neg hne]
    exact h.beside p hp

end

end DesignGraph.Toml
