/-
  Numbering — the names of blocks of code that are given none.

  A block of code without a name of its own is named after the number of blocks that its
  module was given before it.  Every block counts, named or not, taken out or not; refused
  requests and the blocks of other modules do not.  So no two names of this sort are the
  same in one module, and neither are the ids that are composed of them.

  * `sectionsGiven` counts the calls that gave a module a block of code, by the answers to
    them; `length_children_code`: they are as many as the children of the module;
  * `sectionName`: the name to a number; `sectionName_inj`, `dot_notMem_sectionName`;
  * `Design.Synthesizes`: a call makes a block of code without a name, and
    `Synthesizes.exists_named`: it is born with the name to the number so far;
  * `synthesized_names_are_numbered` is what follows for designs.
-/
import DesignGraph.Proofs.Generative
import DesignGraph.Proofs.Naming

namespace DesignGraph

/-! ## Counting -/

/-- Whether a call asks for a block of code of a module. -/
def Call.asksSection (m : EntityId .module) : Call → Bool
  | .create (.code _ _ parent) _ => parent = m
  | _ => false

/-- Whether an answer names a new entity. -/
def Reply.grants : Reply → Bool
  | created entity => entity.isSome
  | _ => false

/-- The number of blocks of code that calls on an empty design gave to a module. -/
def sectionsGiven (l : Logger) (cs : List Call) (m : EntityId .module) : Nat :=
  (cs.zip (Design.run { logger := l } cs).1).countP fun (c, reply) =>
    c.asksSection m && reply.grants

theorem Design.run_concat (d : Design) (cs : List Call) (c : Call) :
    (d.run (cs ++ [c])).1 = (d.run cs).1 ++ [((d.run cs).2.perform c).1] := by
  induction cs generalizing d with
  | nil => rfl
  | cons b cs ih => exact congrArg ((d.perform b).1 :: ·) (ih (d.perform b).2)

theorem Design.length_run (d : Design) (cs : List Call) : (d.run cs).1.length = cs.length := by
  induction cs generalizing d with
  | nil => rfl
  | cons b cs ih => exact congrArg (· + 1) (ih (d.perform b).2)

theorem sectionsGiven_concat (l : Logger) (cs : List Call) (c : Call) (m : EntityId .module) :
    sectionsGiven l (cs ++ [c]) m = sectionsGiven l cs m +
      if c.asksSection m && ((Design.after l cs).perform c).1.grants then 1 else 0 := by
  rw [sectionsGiven, Design.run_concat, List.zip_append (Design.length_run _ _).symm,
    List.countP_append]
  exact congrArg _ (List.countP_singleton ..)

namespace Graph

variable {g : Graph} {h : List Event} {m : EntityId .module}

/-- A call gives a module one block of code, if it asks for one and is granted, and else none. -/
theorem length_children_events (g : Graph) (c : Call) (m : EntityId .module) :
    (children (g.events c) .code m).length =
      if c.asksSection m && (g.perform c).result.grants then 1 else 0 := by
  -- what is no request for a block of code bears none
  have hnone : (∀ b, g.Bears c b → b.kind ≠ .code) → children (g.events c) .code m = [] := by
    intro hb
    refine List.eq_nil_iff_forall_not_mem.2 fun i hi => ?_
    obtain ⟨b, hmem, hc⟩ := mem_children.1 hi
    obtain ⟨hk, -⟩ := Birth.child?_eq_some_iff.1 hc
    exact hb b (bears_of_events hmem) hk
  cases c with
  | create request storage =>
    cases request with
    | code name text parent =>
      simp only [events, createEvents, buildEvents, perform, create, Call.asksSection,
        Reply.grants, Option.isSome_map]
      rcases (g.build (.code name text parent) storage).result with _ | i
      · simp [children, births]
      · rw [children_birth, child?_birth]
        by_cases hm : parent = m <;> simp [Link.askedOf, hm]
    | _ =>
      rw [hnone]
      · rfl
      · intro b hb
        cases hb <;> exact Kind.noConfusion
  | free | setAttr | setAttrs =>
    rw [hnone]
    · rfl
    · intro b hb
      cases hb

end Graph

/-- **The children of a module are counted by the answers.** -/
theorem length_children_code (l : Logger) (cs : List Call) (m : EntityId .module) :
    (children (history cs) .code m).length = sectionsGiven l cs m := by
  induction cs using List.reverseRecOn with
  | nil => rfl
  | append_singleton cs c ih =>
    rw [history_concat l, children_append, List.length_append, ih, Graph.length_children_events,
      sectionsGiven_concat]
    rfl

theorem sectionsGiven_mono (l : Logger) {cs ds : List Call} (h : cs <+: ds)
    (m : EntityId .module) : sectionsGiven l cs m ≤ sectionsGiven l ds m := by
  obtain ⟨k, hk⟩ := history_mono h
  rw [← length_children_code, ← length_children_code, ← hk, children_append, List.length_append]
  exact Nat.le_add_right _ _

/-! ## Names -/

/-- The name of a block of code that is given none, by its number in the module. -/
def sectionName (n : Nat) : String := "_cs_" ++ toString n

theorem sectionName_inj {m n : Nat} : sectionName m = sectionName n ↔ m = n := by
  refine ⟨fun h => ?_, congrArg sectionName⟩
  have hdigits : Nat.toDigits 10 m = Nat.toDigits 10 n := by
    have hlist := congrArg String.toList ((String.append_right_inj _).1 h)
    simpa [Nat.toString_eq_ofList_toDigits] using hlist
  rw [← Nat.ofDigitChars_ten_toDigits (n := m), hdigits, Nat.ofDigitChars_ten_toDigits]

theorem dot_notMem_sectionName (n : Nat) : '.' ∉ (sectionName n).toList := by
  rw [sectionName, Nat.toString_eq_ofList_toDigits, String.toList_append, List.mem_append,
    String.toList_ofList (l := Nat.toDigits 10 n)]
  rintro (hdot | hdot)
  · revert hdot
    decide
  · have hdigit := Nat.isDigit_of_mem_toDigits (by decide : 0 < 10) (by decide) hdot
    revert hdigit
    decide

/-! ## Blocks of code without a name -/

/-- A call that is carried out after the calls `p` gives the module `m` the block of code `i`,
    and does not name it. -/
def Design.Synthesizes (l : Logger) (p : List Call) (c : Call) (m : EntityId .module)
    (i : EntityId .code) : Prop :=
  (∃ text storage, c = .create (.code none text m) storage) ∧
    ((after l p).perform c).1 = .created (some ⟨.code, i⟩)

/-- The name that is made up next for a module is the one to the number so far. -/
theorem nameFor_code_none (l : Logger) (p : List Call) {text : String} {m : EntityId .module}
    {storage : Option TextsId} (gr : (Design.after l p).graph.Grant (.code none text m) storage) :
    (Design.after l p).graph.nameFor (.code none text m) = sectionName (sectionsGiven l p m) := by
  obtain ⟨xs, hxs⟩ := gr.exists_listing (l := .code) (o := m) rfl
  obtain ⟨e, he, -⟩ := Option.bind_eq_some_iff.1 hxs
  have hlist := (reached_after l p).enrolled.listed .code m (he ▸ rfl)
  rw [hxs, Option.elim_some] at hlist
  show "_cs_" ++ toString (((Design.after l p).graph.listing .code m).elim 0 (·.size)) = _
  rw [hxs, Option.elim_some, ← Array.length_toList, hlist, length_children_code]
  rfl

namespace Design.Synthesizes

variable {l : Logger} {p p' cs s s' : List Call} {c c' : Call} {m : EntityId .module}
  {i i' : EntityId .code} {e e' : Entity .code}

theorem sectionsGiven_eq (h : Synthesizes l p c m i) :
    sectionsGiven l (p ++ [c]) m = sectionsGiven l p m + 1 := by
  obtain ⟨⟨text, storage, rfl⟩, hr⟩ := h
  rw [sectionsGiven_concat, hr, if_pos]
  simp [Call.asksSection, Reply.grants]

/-- **A block of code without a name is born with the name to its number.** -/
theorem exists_named (h : Synthesizes l p c m i) : ∃ b ∈ births (history (p ++ [c])),
    b.ref = ⟨.code, i⟩ ∧ b.name = sectionName (sectionsGiven l p m) ∧
      ((after l (p ++ [c])).graph.open? b.object).isSome := by
  obtain ⟨⟨text, storage, rfl⟩, hr⟩ := h
  have hr : ((after l p).graph.perform (.create (.code none text m) storage)).result =
    .created (some ⟨.code, i⟩) := hr
  rw [Graph.perform_create_eq] at hr
  rcases (after l p).graph.create_cases (.code none text m) storage with
    ⟨hnone, -⟩ | ⟨gr, hsome, k, hev, hk⟩
  · rw [hnone] at hr
    cases hr
  · rw [hsome] at hr
    cases hr
    refine ⟨(after l p).graph.birth (.code none text m) storage, ?_, rfl,
      nameFor_code_none l p gr, ?_⟩
    · rw [history_concat l, births_append, Graph.events, hev]
      exact List.mem_append_right _ (List.mem_cons_self ..)
    · rw [graph_after_concat]
      exact gr.isSome_open? hk

theorem readable (h : Synthesizes l p c m i) : (after l (p ++ [c])).graph.readable i = true := by
  obtain ⟨b, hb, href, -, hopen⟩ := h.exists_named
  obtain ⟨e, he⟩ := (reached_after l (p ++ [c])).exists_shows hb hopen
  obtain ⟨kind, request, storage, id, object, parent, targetId⟩ := b
  cases href
  exact Graph.readable_iff.2 ⟨e, he.entity, he.object ▸ hopen⟩

/-- It has this name and the id that is composed of it for as long as it can be read. -/
theorem texts (h : Synthesizes l p c m i) (hp : p ++ [c] <+: cs) (hs : s <+: cs)
    (he : (after l s).graph.entity? i = some e)
    (hopen : ((after l s).graph.open? e.object).isSome) :
    (after l s).graph.nameOf e = some (sectionName (sectionsGiven l p m)) ∧
      ∃ parent, (after l s).graph.idOf e =
        some (composeId .code parent (sectionName (sectionsGiven l p m))) := by
  obtain ⟨b, hb, href, hname, -⟩ := h.exists_named
  obtain ⟨b', hb', href'⟩ := exists_birth l (r := ⟨.code, i⟩) he
  -- what is called by this id at any time is the same block
  obtain rfl : b' = b := (reached_after l cs).registered.ref_inj _
    (births_mono (history_mono hs) hb') _ (births_mono (history_mono hp) hb) (href'.trans href.symm)
  obtain ⟨hn, hi⟩ := (reached_after l s).texts_of_ref hb' href he hopen
  rw [hname] at hn
  refine ⟨hn, b'.parent.map (·.name), ?_⟩
  rw [hi, Birth.composedId, hname, show b'.kind = .code from congrArg EntityRef.kind href]

/-- A later one has a greater number. -/
theorem sectionsGiven_lt (h : Synthesizes l p c m i) (hp : p ++ [c] <+: p') :
    sectionsGiven l p m < sectionsGiven l p' m := by
  have hle := sectionsGiven_mono l hp m
  rwa [h.sectionsGiven_eq] at hle

theorem sectionsGiven_ne (h : Synthesizes l p c m i) (h' : Synthesizes l p' c' m i')
    (hp : p ++ [c] <+: cs) (hp' : p' ++ [c'] <+: cs) (hne : p ≠ p') :
    sectionsGiven l p m ≠ sectionsGiven l p' m := by
  have hq := (List.prefix_append p [c]).trans hp
  have hq' := (List.prefix_append p' [c']).trans hp'
  rcases Nat.lt_trichotomy p.length p'.length with hlt | heq | hgt
  · refine (h.sectionsGiven_lt (List.prefix_of_prefix_length_le hp hq' ?_)).ne
    rw [List.length_append]
    exact hlt
  · exact absurd ((List.prefix_of_prefix_length_le hq hq' heq.le).eq_of_length heq) hne
  · refine (h'.sectionsGiven_lt (List.prefix_of_prefix_length_le hp' hq ?_)).ne'
    rw [List.length_append]
    exact hgt

end Design.Synthesizes

/-- What becomes of the blocks of code that calls on an empty design make without a name. -/
structure Design.Numbering (l : Logger) (cs : List Call) : Prop where
  readable : ∀ p c m i, p ++ [c] <+: cs → Synthesizes l p c m i →
    (after l (p ++ [c])).graph.readable i
  /-- The name tells how many blocks the module was given before. -/
  numbered : ∀ p c m i, p ++ [c] <+: cs → Synthesizes l p c m i →
    ∀ s e, s <+: cs → (after l s).graph.entity? i = some e →
      ((after l s).graph.open? e.object).isSome →
      (after l s).graph.nameOf e = some ("_cs_" ++ toString (sectionsGiven l p m))
  /-- Two of one module have names and ids that differ at any times. -/
  distinct : ∀ p c p' c' m i i', p ++ [c] <+: cs → p' ++ [c'] <+: cs → p ≠ p' →
    Synthesizes l p c m i → Synthesizes l p' c' m i' →
    ∀ s e s' e', s <+: cs → s' <+: cs → (after l s).graph.entity? i = some e →
      (after l s').graph.entity? i' = some e' → ((after l s).graph.open? e.object).isSome →
      ((after l s').graph.open? e'.object).isSome →
      (after l s).graph.nameOf e ≠ (after l s').graph.nameOf e' ∧
        (after l s).graph.idOf e ≠ (after l s').graph.idOf e'

/-- **Blocks of code without a name are numbered in each module, and no number comes twice.** -/
theorem synthesized_names_are_numbered (l : Logger) (cs : List Call) : Design.Numbering l cs := by
  refine ⟨?_, ?_, ?_⟩
  · intro p c m i hp h
    exact h.readable
  · intro p c m i hp h s e hs he hopen
    exact (h.texts hp hs he hopen).1
  · intro p c p' c' m i i' hp hp' hne h h' s e s' e' hs hs' he he' hopen hopen'
    obtain ⟨hn, q, hi⟩ := h.texts hp hs he hopen
    obtain ⟨hn', q', hi'⟩ := h'.texts hp' hs' he' hopen'
    have hnumber := h.sectionsGiven_ne h' hp hp' hne
    rw [hn, hn', hi, hi', Ne, Option.some.injEq, Ne, Option.some.injEq]
    refine ⟨fun heq => hnumber (sectionName_inj.1 heq), fun heq => hnumber ?_⟩
    exact sectionName_inj.1
      (eq_of_composeId (dot_notMem_sectionName _) (dot_notMem_sectionName _) heq).2.2

/-- Blocks that have a name or are taken out count, those of other modules do not. -/
example : let d := Design.after {} [.create (.module "top" false false) none,
      .create (.module "sub" false false) none, .create (.code none "a" ⟨0⟩) none,
      .create (.code (some "init") "b" ⟨0⟩) none, .create (.code none "c" ⟨1⟩) none,
      .free (some (⟨0⟩ : EntityId .code)), .create (.code none "d" ⟨0⟩) none]
    (d.graph.entity? (⟨3⟩ : EntityId .code)).map d.graph.nameOf = some (some "_cs_2") := by
  decide +kernel

end DesignGraph
