/-
  Naming — what can be told from a composed id.

  An id starts with the label of a kind and ends with a name; between them stands the name
  of the structural parent, if there is one.  No label holds a colon, so an id always tells
  the kind.  If the name holds no dot, the last dot of the id is the one before the name, and
  the id tells the parent and the name as well, whatever the name of the parent holds.

  * `idTail`: what stands behind the label; `kind_of_composeId` and `idTail_inj` take an id
    apart;
  * `Design.Namesakes`: two entities that differ in nothing that ids are made of;
    `births_of_idOf`, `nameOf_holder`: entities with the same id are;
  * `ids_tell_entities_apart` is what follows for designs.
-/
import DesignGraph.Proofs.Admission
import DesignGraph.Proofs.Delimiters

namespace DesignGraph

/-! ## Composed ids -/

/-- What stands behind the label and the colons of an id. -/
def idTail (parent : Option String) (name : String) : List Char :=
  parent.elim [] (fun p => p.toList ++ ['.']) ++ name.toList

theorem toList_composeId (k : Kind) (p : Option String) (n : String) :
    (composeId k p n).toList = k.label.toList ++ ':' :: ':' :: idTail p n := by
  rcases p with _ | p <;> simp [composeId, idTail, String.toList_append]

variable {k k' : Kind} {p p' : Option String} {n n' : String}

/-- **An id tells the kind.** -/
theorem kind_of_composeId (h : composeId k p n = composeId k' p' n') :
    k = k' ∧ idTail p n = idTail p' n' := by
  have hlist := congrArg String.toList h
  rw [toList_composeId, toList_composeId] at hlist
  obtain ⟨hk, htail⟩ := Kind.eq_of_label hlist
  exact ⟨hk, (List.cons.inj htail).2⟩

theorem dot_mem_idTail (p n : String) : '.' ∈ idTail (some p) n := by
  simp [idTail]

/-- What stands behind the label tells the parent and the name, if the name holds no dot. -/
theorem idTail_inj (hn : '.' ∉ n.toList) (hn' : '.' ∉ n'.toList)
    (h : idTail p n = idTail p' n') : p = p' ∧ n = n' := by
  -- a name without a dot is not one behind a parent
  have hlone : ∀ {q m m' : String}, '.' ∉ m.toList → idTail none m ≠ idTail (some q) m' := by
    intro q m m' hm heq
    have hdot := dot_mem_idTail q m'
    rw [← heq] at hdot
    exact hm hdot
  rcases p with _ | p <;> rcases p' with _ | p'
  · exact ⟨rfl, String.toList_inj.1 h⟩
  · exact absurd h (hlone hn)
  · exact absurd h.symm (hlone hn')
  · simp only [idTail, Option.elim_some, List.append_assoc, List.singleton_append] at h
    obtain ⟨hp, hn⟩ := eq_of_append_cons_last hn hn' h
    exact ⟨congrArg some (String.toList_inj.1 hp), String.toList_inj.1 hn⟩

/-- **An id tells the parent and the name, if the name holds no dot.** -/
theorem eq_of_composeId (hn : '.' ∉ n.toList) (hn' : '.' ∉ n'.toList)
    (h : composeId k p n = composeId k' p' n') : k = k' ∧ p = p' ∧ n = n' := by
  obtain ⟨hk, htail⟩ := kind_of_composeId h
  exact ⟨hk, idTail_inj hn hn' htail⟩

/-- A dot in a name can pass for the one behind a parent. -/
example : composeId .pin (some "cpu") "alu.q" = composeId .pin (some "cpu.alu") "q" ∧
    composeId .module none "cpu.alu" = composeId .module (some "cpu") "alu" := by
  decide

/-! ## The ids of designs -/

/-- Two entities of a design after some calls that have the same kind, the same name, and
    structural parents of the same name or none.  The module of a register file is no
    structural parent. -/
structure Design.Namesakes (l : Logger) (cs : List Call) (r r' : EntityRef)
    (e : Entity r.kind) (e' : Entity r'.kind) : Prop where
  kind : r.kind = r'.kind
  name : (after l cs).graph.nameOf e = (after l cs).graph.nameOf e'
  /-- Their parents had the same name when the entities were made. -/
  parent : ∃ b ∈ births (history cs), ∃ b' ∈ births (history cs), b.ref = r ∧ b'.ref = r' ∧
    b.parent.map (·.name) = b'.parent.map (·.name)
  presence : e.data.holder.isSome = e'.data.holder.isSome
  /-- Parents that can still be read have the same name now. -/
  holder : ∀ q q', e.data.holder = some q → e'.data.holder = some q' →
    ∀ f f', (after l cs).graph.entity? q.id = some f → (after l cs).graph.entity? q'.id = some f' →
      ((after l cs).graph.open? f.object).isSome → ((after l cs).graph.open? f'.object).isSome →
      (after l cs).graph.nameOf f = (after l cs).graph.nameOf f'

/-- The structural parent of an entity is the one that was asked for. -/
theorem Reached.holder_of_birth {h : List Event} {g : Graph} (hg : Reached h g) {b : Birth}
    (hb : b ∈ births h) {e : Entity b.kind} (he : g.entity? b.id = some e) :
    e.data.holder = b.request.holder := by
  rw [← Data.holder_bare]
  exact (hg.identified.entity b hb e.bare (Graph.bare?_of_entity? he)).2

/-- **Entities with the same id were born alike, if their names hold no dot.** -/
theorem births_of_idOf (l : Logger) {cs : List Call} {b b' : Birth} {e : Entity b.kind}
    {e' : Entity b'.kind} (hb : b ∈ births (history cs)) (hb' : b' ∈ births (history cs))
    (he : (Design.after l cs).graph.entity? b.id = some e)
    (he' : (Design.after l cs).graph.entity? b'.id = some e') {id : String}
    (hid : (Design.after l cs).graph.idOf e = some id)
    (hid' : (Design.after l cs).graph.idOf e' = some id)
    (hn : ∀ n, (Design.after l cs).graph.nameOf e = some n → '.' ∉ n.toList)
    (hn' : ∀ n, (Design.after l cs).graph.nameOf e' = some n → '.' ∉ n.toList) :
    b.kind = b'.kind ∧ b.parent.map (·.name) = b'.parent.map (·.name) ∧
      (Design.after l cs).graph.nameOf e = (Design.after l cs).graph.nameOf e' := by
  have htells := tells_of_birth l hb he (Graph.open?_of_objectId hid)
  have htells' := tells_of_birth l hb' he' (Graph.open?_of_objectId hid')
  have hcomposed : b.composedId = b'.composedId := by
    rw [← Option.some.injEq, ← htells.id.1, hid, ← hid', htells'.id.1]
  obtain ⟨hkind, hparent, hname⟩ :=
    eq_of_composeId (hn _ htells.name.1) (hn' _ htells'.name.1) hcomposed
  exact ⟨hkind, hparent, by rw [htells.name.1, htells'.name.1, hname]⟩

/-- Parents of the same name then still have the same name, as far as they can be read. -/
theorem nameOf_holder (l : Logger) {cs : List Call} {b b' : Birth}
    (hb : b ∈ births (history cs)) (hb' : b' ∈ births (history cs))
    (hparent : b.parent.map (·.name) = b'.parent.map (·.name)) {q q' : EntityRef}
    (hq : b.request.holder = some q) (hq' : b'.request.holder = some q')
    {f : Entity q.kind} {f' : Entity q'.kind}
    (hf : (Design.after l cs).graph.entity? q.id = some f)
    (hf' : (Design.after l cs).graph.entity? q'.id = some f')
    (hopen : ((Design.after l cs).graph.open? f.object).isSome)
    (hopen' : ((Design.after l cs).graph.open? f'.object).isSome) :
    (Design.after l cs).graph.nameOf f = (Design.after l cs).graph.nameOf f' := by
  obtain ⟨t, ht, hname, -⟩ := parent_of_birth l hb hq hf hopen
  obtain ⟨t', ht', hname', -⟩ := parent_of_birth l hb' hq' hf' hopen'
  rw [ht, ht'] at hparent
  rw [hname, hname']
  exact hparent

/-- What ids tell, by themselves and in a design after some calls. -/
structure Design.Telling (l : Logger) (cs : List Call) : Prop where
  kind : ∀ k k' p p' n n', composeId k p n = composeId k' p' n' → k = k'
  /-- The name of the parent may hold dots and colons. -/
  parts : ∀ k k' p p' n n', '.' ∉ n.toList → '.' ∉ n'.toList →
    composeId k p n = composeId k' p' n' → p = p' ∧ n = n'
  entities : ∀ (r r' : EntityRef) e e', (after l cs).graph.entity? r.id = some e →
    (after l cs).graph.entity? r'.id = some e' →
    ∀ name name', (after l cs).graph.nameOf e = some name →
      (after l cs).graph.nameOf e' = some name' → '.' ∉ name.toList → '.' ∉ name'.toList →
    ∀ id, (after l cs).graph.idOf e = some id → (after l cs).graph.idOf e' = some id →
      Namesakes l cs r r' e e'

/-- **Ids tell the kinds of entities, and all that ids are made of if names hold no dot.** -/
theorem ids_tell_entities_apart (l : Logger) (cs : List Call) : Design.Telling l cs := by
  refine ⟨?_, ?_, ?_⟩
  · intro k k' p p' n n' h
    exact (kind_of_composeId h).1
  · intro k k' p p' n n' hn hn' h
    exact (eq_of_composeId hn hn' h).2
  · intro r r' e e' he he' name name' hname hname' hn hn' id hid hid'
    have hg := reached_after l cs
    obtain ⟨b, hb, rfl⟩ := exists_birth l he
    obtain ⟨b', hb', rfl⟩ := exists_birth l he'
    obtain ⟨hkind, hparent, hsame⟩ := births_of_idOf l hb hb' he he' hid hid'
      (fun n h => by cases hname.symm.trans h; exact hn)
      (fun n h => by cases hname'.symm.trans h; exact hn')
    have hholder : e.data.holder = b.request.holder := hg.holder_of_birth hb he
    have hholder' : e'.data.holder = b'.request.holder := hg.holder_of_birth hb' he'
    refine ⟨hkind, hsame, ⟨b, hb, b', hb', rfl, rfl, hparent⟩, ?_, ?_⟩
    · have hsome := congrArg Option.isSome hparent
      rw [Option.isSome_map, Option.isSome_map, hg.identified.parent b hb,
        hg.identified.parent b' hb'] at hsome
      exact (congrArg Option.isSome hholder).trans
        (hsome.trans (congrArg Option.isSome hholder').symm)
    · intro q q' hq hq' f f' hf hf' hopen hopen'
      exact nameOf_holder l hb hb' hparent (hholder.symm.trans hq) (hholder'.symm.trans hq')
        hf hf' hopen hopen'

/-- The module of a register file is not in its id: register files of the same name share it. -/
example : let g := Graph.empty.after [.create (.module "cpu" false false) none,
      .create (.module "dma" false false) none, .create (.regfile "regs" ⟨0⟩) none,
      .create (.regfile "regs" ⟨1⟩) none]
    [(⟨0⟩ : EntityId .regfile), ⟨1⟩].map (fun r => (g.entity? r).bind g.idOf) =
      [some "regfile::regs", some "regfile::regs"] := by
  decide +kernel

end DesignGraph
