/-
  Faults — the calls that are reported as errors.

  A call may break a rule: an instance, a declaration, a block of code or a register file is
  asked for in a resource module, a list of attributes lacks its last value, or a pair of
  such a list is refused.  Each time a rule is broken it is reported, at the level of an
  error, and nothing else is.  In particular no constant of a new object is ever refused,
  so that no object has to be taken out again.

  * `Graph.requestFaults`, `Graph.faults`: the rules that a request or a call breaks, read off
    the graph before it; `Graph.broken`: those of a run, call by call;
  * `Reached.graveNotes_build`, `Reached.graveNotes_perform`: of what is said these are the
    errors; `Reached.graveNotes_said` is the run lemma;
  * `Work.isSome_ownConstants`: an object that was made takes its constants;
  * `errors_are_broken_rules` is what follows for designs.
-/
import DesignGraph.Proofs.Batches
import DesignGraph.Proofs.Refusals
import DesignGraph.Proofs.Stages

namespace DesignGraph

/-! ## Rules -/

/-- Whether a note reports a failure. -/
def Note.isGrave (n : Note) : Bool := n.level.isError

/-- What is said at the level of an error or above. -/
def graveNotes (notes : List Note) : List Note := notes.filter Note.isGrave

namespace Graph

/-- Whether an entity is a module that is there and is a resource. -/
def isResource (g : Graph) (id : EntityId .module) : Bool :=
  (g.entity? id).any (·.data.isResource)

/-- The rules that a request breaks.  The module that is to be instantiated is looked for
    first; neither the arena nor the texts of the parent matter. -/
def requestFaults (g : Graph) : {kind : Kind} → Request kind → List Note
  | _, .inst name target (some parent) =>
    if g.readable target && g.isResource parent then
      [.instanceInResource name ((g.entity? parent).bind g.nameOf)]
    else []
  | _, .decl _ _ _ parent => if g.isResource parent then [.declInResource] else []
  | _, .code _ _ parent => if g.isResource parent then [.codeInResource] else []
  | _, .regfile _ parent => if g.isResource parent then [.regfileInResource] else []
  | _, _ => []

/-- The rules that a list of attributes breaks: one if it is of odd length, else one for each
    pair that is refused. -/
def listFaults (g : Graph) (o : ObjectId) (list : List String) : List Note :=
  if (g.objects.get? o).isNone then []
  else if list.length % 2 = 1 then [.valueMissing]
  else (((pairs? list).getD []).filter fun (n, _) => g.refuses o n).map fun (n, _) =>
    .attributeNotSet n

/-- The rules that a call breaks. -/
def faults (g : Graph) : Call → List Note
  | .create request _ => g.requestFaults request
  | .setAttrs o list => g.listFaults o list
  | .free _ | .setAttr .. => []

/-- The rules that calls break, in order. -/
def broken (g : Graph) : List Call → List Note
  | [] => []
  | c :: cs => g.faults c ++ (g.perform c).graph.broken cs

end Graph

theorem graveNotes_append (ns ms : List Note) :
    graveNotes (ns ++ ms) = graveNotes ns ++ graveNotes ms := List.filter_append ..

/-! ## What a request reports -/

namespace Graph

variable {g : Graph} {kind : Kind} {request : Request kind} {storage : Option TextsId}
  {ob : Obstacle} {plan : Plan}

/-- Every broken rule is an error, and none is the fault of the library. -/
theorem level_requestFaults {n : Note} (hn : n ∈ g.requestFaults request) : n.level = .error := by
  cases request with
  | inst name target parent =>
    rcases parent with _ | parent
    · cases hn
    · rw [requestFaults] at hn
      split at hn
      · obtain rfl := List.mem_singleton.1 hn
        rfl
      · cases hn
  | decl | code | regfile =>
    rw [requestFaults] at hn
    split at hn
    · obtain rfl := List.mem_singleton.1 hn
      rfl
    · cases hn
  | _ => cases hn

theorem level_listFaults {o : ObjectId} {list : List String} {n : Note}
    (hn : n ∈ g.listFaults o list) : n.level = .error := by
  unfold listFaults at hn
  split_ifs at hn
  · cases hn
  · obtain rfl := List.mem_singleton.1 hn
    rfl
  · obtain ⟨nv, -, rfl⟩ := List.mem_map.1 hn
    rfl

theorem level_faults {c : Call} {n : Note} (hn : n ∈ g.faults c) : n.level = .error := by
  cases c with
  | create request storage => exact level_requestFaults hn
  | setAttrs o list => exact level_listFaults hn
  | free | setAttr => cases hn

theorem graveNotes_of_level {ns : List Note} (h : ∀ n ∈ ns, n.level = .error) :
    graveNotes ns = ns := by
  rw [graveNotes, List.filter_eq_self]
  intro n hn
  rw [Note.isGrave, h n hn]
  rfl

theorem graveNotes_listFaults (g : Graph) (o : ObjectId) (list : List String) :
    graveNotes (g.listFaults o list) = g.listFaults o list :=
  graveNotes_of_level fun _ => level_listFaults

/-- A module that has to have a list which resources lack is gone, which is not said, or is a
    resource. -/
theorem notes_of_needList {member : Kind} {id : EntityId .module} {l : Link .module member}
    (hl : l.inBody) {refusal : Entity .module → Note} (h : g.needList id l refusal = .error ob) :
    (g.isResource id = false ∧ ob.notes = []) ∨
      ∃ m, g.entity? id = some m ∧ g.isResource id = true ∧ ob.notes = [refusal m] := by
  rcases hm : g.entity? id with _ | m
  · rw [needList, need, hm] at h
    cases h
    exact Or.inl ⟨by rw [isResource, hm]; rfl, rfl⟩
  · have hsome := l.isSome_members hl m.data
    rcases hxs : l.members m.data with _ | xs
    · simp only [needList, need, hm, bind, Except.bind, hxs] at h
      cases h
      refine Or.inr ⟨m, rfl, ?_, rfl⟩
      rw [hxs] at hsome
      rw [isResource, hm, Option.any_some]
      simpa using hsome
    · rw [needList_eq_ok.2 ⟨hm, hxs⟩] at h
      cases h

/-- A module that has a list which resources lack is no resource. -/
theorem isResource_of_needList {member : Kind} {id : EntityId .module} {l : Link .module member}
    (hl : l.inBody) {refusal : Entity .module → Note}
    {mxs : Entity .module × Array (EntityId member)} (h : g.needList id l refusal = .ok mxs) :
    g.isResource id = false := by
  obtain ⟨hm, hxs⟩ := needList_eq_ok.1 h
  have hsome := l.isSome_members hl mxs.1.data
  rw [hxs] at hsome
  rw [isResource, hm, Option.any_some]
  simpa using hsome

/-- **What stands in the way of a request is said if it is a rule that the request breaks.** -/
theorem Legible.obstacle_notes (hg : g.Legible) (hp : g.plan request = .error ob) :
    ob.notes = g.requestFaults request := by
  cases request with
  | module => cases hp
  | inst name target parent =>
    rcases bind_eq_error.1 hp with ht | ⟨t, ht, hp⟩
    · have hlost : g.readable target = false := by
        rw [← Bool.not_eq_true, ← hg.exists_targetId]
        rintro ⟨t, hok⟩
        rw [ht] at hok
        cases hok
      rw [targetId_error ht]
      cases parent <;> simp [requestFaults, hlost, Obstacle.notes]
    · rcases bind_eq_error.1 hp with ho | ⟨o, -, hp⟩
      · rcases parent with _ | p
        · cases ho
        · rw [requestFaults, hg.exists_targetId.1 ⟨t, ht⟩, Bool.true_and]
          rcases notes_of_needList rfl (map_eq_error.1 ho) with ⟨hr, hn⟩ | ⟨m, hm, hr, hn⟩
          · rw [hr, hn]
            rfl
          · rw [hr, hn, hm]
            rfl
      · cases hp
  | decl | code | regfile =>
    rcases bind_eq_error.1 hp with hm | ⟨m, -, hp⟩
    · rw [requestFaults]
      rcases notes_of_needList rfl hm with ⟨hr, hn⟩ | ⟨m, -, hr, hn⟩
      · rw [hr, hn]
        rfl
      · rw [hr, hn]
        rfl
    · cases hp
  | port | param | pin | adjustment | entry | register =>
    rcases bind_eq_error.1 hp with ho | ⟨o, -, hp⟩
    · rw [need_error (map_eq_error.1 ho)]
      rfl
    · cases hp

/-- A request that is planned breaks no rule. -/
theorem requestFaults_of_plan (hp : g.plan request = .ok plan) : g.requestFaults request = [] := by
  cases request with
  | inst name target parent =>
    rcases parent with _ | parent
    · rfl
    · simp only [Graph.plan, bind_eq_ok] at hp
      obtain ⟨t, -, o, ho, -⟩ := hp
      obtain ⟨m, hm, -⟩ := map_eq_ok.1 ho
      rw [requestFaults, isResource_of_needList rfl hm, Bool.and_false]
      rfl
  | decl | code | regfile =>
    simp only [Graph.plan, bind_eq_ok] at hp
    obtain ⟨m, hm, -⟩ := hp
    rw [requestFaults, isResource_of_needList rfl hm]
    rfl
  | _ => rfl

theorem graveNotes_announced (request : Request kind) : graveNotes request.announced = [] := by
  cases request <;> rfl

/-- A request that was planned is traced, and nothing else is said of it. -/
theorem graveNotes_of_plan (hp : g.plan request = .ok plan) :
    graveNotes (g.build request storage).notes = [] := by
  have hannounced : graveNotes plan.announced = [] := by
    rw [announced_of_plan hp]
    exact graveNotes_announced request
  have htraced : ∀ parent : Option Lineage, graveNotes (plan.announced ++
      [.creatingObject kind plan.name (parent.map (·.id))]) = [] := by
    intro parent
    rw [graveNotes_append, hannounced]
    rfl
  rcases hl : g.lineage plan.parent with _ | parent
  · simp only [build, hp, hl]
    exact hannounced
  rcases hs : g.site storage with _ | site
  · simp only [build, hp, hl, hs]
    exact htraced parent
  · obtain ⟨d, hd⟩ := exists_draft (plans_of_plan hp) hl site
    simp only [build, hp, hl, hs, hd]
    exact htraced parent

/-- **What is grave of a request carried out alone are the rules that it breaks.** -/
theorem Legible.graveNotes_build (hg : g.Legible) (request : Request kind)
    (storage : Option TextsId) :
    graveNotes (g.build request storage).notes = g.requestFaults request := by
  rcases hp : g.plan request with ob | plan
  · have hnotes : (g.build request storage).notes = ob.notes := by rw [build, hp]
    rw [hnotes, hg.obstacle_notes hp]
    exact graveNotes_of_level fun n => level_requestFaults
  · rw [graveNotes_of_plan hp, requestFaults_of_plan hp]

end Graph

/-! ## What a run reports -/

section
variable {g : Graph} {h : List Event}

/-- The default instance of a module is placed nowhere, and breaks no rule. -/
theorem Reached.graveNotes_create (hg : Reached h g) {kind : Kind} (request : Request kind)
    (storage : Option TextsId) :
    graveNotes (g.create request storage).notes = g.requestFaults request := by
  have hbuild := hg.legible.graveNotes_build request storage
  cases request with
  | module name ilm resource =>
    cases resource with
    | true => exact hbuild
    | false =>
      rw [Graph.create, Graph.createGenerative]
      rcases hr : (g.build (.module name ilm false) storage).result with _ | id
      · exact hbuild
      · have hg' := Steps.trans hg (g.growth_build (.module name ilm false) storage).ofGrowth
        rw [graveNotes_append, hbuild]
        exact (Reached.legible hg').graveNotes_build (.inst name id none) storage
  | _ => exact hbuild

theorem Reached.graveNotes_setAttrs (hg : Reached h g) (o : ObjectId) (list : List String) :
    graveNotes (g.setAttrs o list).notes = g.listFaults o list := by
  rw [← g.graveNotes_listFaults o list]
  congr 1
  unfold Graph.setAttrs Graph.listFaults
  rcases g.objects.get? o with _ | x
  · rfl
  · rw [if_neg (show ¬ (some x).isNone = true from Bool.false_ne_true)]
    rcases Graph.pairs?_cases list with ⟨hp, hodd⟩ | ⟨pairs, hp, heven, -⟩
    · rw [hp, if_pos hodd]
    · rw [hp, if_neg (show ¬ list.length % 2 = 1 by omega)]
      exact (hg.batched o pairs).notes

/-- **Of what a call says, the errors are the rules that it breaks.** -/
theorem Reached.graveNotes_perform (hg : Reached h g) (c : Call) :
    graveNotes (g.perform c).notes = g.faults c := by
  cases c with
  | create request storage => exact hg.graveNotes_create request storage
  | free id => cases id <;> rfl
  | setAttr o name value constant =>
    simp only [Graph.perform]
    split <;> rfl
  | setAttrs o list => exact hg.graveNotes_setAttrs o list

theorem Reached.graveNotes_said (hg : Reached h g) (cs : List Call) :
    graveNotes (g.said cs) = g.broken cs := by
  induction cs generalizing g h with
  | nil => rfl
  | cons c cs ih =>
    rw [Graph.said, Graph.broken, graveNotes_append, hg.graveNotes_perform]
    exact congrArg _ (ih (Steps.trans hg (g.steps_perform c)))

end

namespace Graph

theorem broken_append (g : Graph) (cs ds : List Call) :
    g.broken (cs ++ ds) = g.broken cs ++ (g.after cs).broken ds := by
  induction cs generalizing g with
  | nil => rfl
  | cons c cs ih => simp only [List.cons_append, broken, after, ih, List.append_assoc]

theorem level_broken {g : Graph} {cs : List Call} {n : Note} (hn : n ∈ g.broken cs) :
    n.level = .error := by
  induction cs generalizing g with
  | nil => cases hn
  | cons c cs ih =>
    rcases List.mem_append.1 hn with hn | hn
    · exact level_faults hn
    · exact ih hn

/-- A rule that was broken was broken by a call. -/
theorem broken_ne_nil_iff {g : Graph} {cs : List Call} :
    g.broken cs ≠ [] ↔ ∃ p c, p ++ [c] <+: cs ∧ (g.after p).faults c ≠ [] := by
  constructor
  · intro hne
    induction cs using List.reverseRecOn with
    | nil => exact absurd rfl hne
    | append_singleton cs c ih =>
      rw [broken_append, broken, broken, List.append_nil] at hne
      by_cases hcs : g.broken cs = []
      · rw [hcs, List.nil_append] at hne
        exact ⟨cs, c, List.prefix_rfl, hne⟩
      · obtain ⟨p, d, hp, hd⟩ := ih hcs
        exact ⟨p, d, hp.trans (List.prefix_append cs [c]), hd⟩
  · rintro ⟨p, c, ⟨ds, rfl⟩, hc⟩ hnil
    rw [broken_append, broken_append, List.append_eq_nil_iff, List.append_eq_nil_iff, broken,
      List.append_eq_nil_iff] at hnil
    exact hc hnil.1.2.1

end Graph

/-! ## No constant fails -/

/-- **An object that was made takes all its constants, and is not taken out again.** -/
theorem Work.isSome_ownConstants {g g' : Graph} {kind : Kind} {request : Request kind}
    {given : Option TextsId} {plan : Plan} {o : ObjectId} {notes : List Note}
    (hp : g.plan request = .ok plan)
    (ho : object ⟨kind, (g.tables.get kind).nextId⟩ plan.name plan.parent given g =
      ⟨some o, g', notes⟩) :
    (ownConstants o request plan.constants g').result.isSome ∧
      (ownConstants o request plan.constants g').notes = [] := by
  rcases hl : g.lineage plan.parent with _ | parent
  · rw [object_eq_of_lineage hl] at ho
    cases ho
  rcases hs : g.site given with _ | site
  · rw [object_eq_of_site hl hs] at ho
    cases ho
  obtain ⟨d, hd⟩ := Graph.exists_draft (Graph.plans_of_plan hp) hl site
  obtain ⟨x, mid, handles, hobject, hconstants, -⟩ :=
    exists_constants ⟨plan, parent, site, d, hp, hl, hs, hd⟩
  rw [hobject] at ho
  cases ho
  rw [hconstants]
  exact ⟨rfl, rfl⟩

/-! ## The errors of designs -/

/-- The errors of a design after some calls, if all its logger kept is what they have said. -/
structure Design.Accounting (cs : List Call) : Prop where
  /-- The errors that are kept are the rules that were broken, in order. -/
  errors : (after {} cs).logger.records.toList.filter (·.level.isError) =
    (Graph.empty.broken cs).map Note.record
  /-- They are no fault of the library. -/
  level : ∀ r ∈ (after {} cs).logger.records, r.level ≠ .internalError
  count : (after {} cs).logger.countAtLeast .error = (Graph.empty.broken cs).length
  /-- There are errors if and only if some call has broken a rule. -/
  hasErrors : (after {} cs).logger.hasErrors = true ↔
    ∃ p c, p ++ [c] <+: cs ∧ (after {} p).graph.faults c ≠ []
  /-- Carried out in stages, whatever the graph, no request comes to the stage in which a new
      object is taken out again. -/
  constants : ∀ (g : Graph) {kind : Kind} (request : Request kind) given plan o g' notes,
    g.plan request = .ok plan →
    Work.object ⟨kind, (g.tables.get kind).nextId⟩ plan.name plan.parent given g =
      ⟨some o, g', notes⟩ →
    (Work.ownConstants o request plan.constants g').result.isSome ∧
      (Work.ownConstants o request plan.constants g').notes = []

/-- The resource module `sub` has lost its texts, and refuses an instance and a declaration all
    the same; what names something that is gone is no fault. -/
example : (Graph.empty.broken [.create (.module "top" false true) none,
      .create (.module "sub" false true) (some ⟨0⟩), .create (.module "cpu" false true) none,
      .free (some (⟨0⟩ : EntityId .module)), .create (.inst "u0" ⟨2⟩ (some ⟨1⟩)) none,
      .create (.decl "tmp" none false ⟨1⟩) (some ⟨0⟩), .create (.inst "u1" ⟨1⟩ (some ⟨1⟩)) none,
      .setAttrs ⟨1⟩ ["lang", "vhdl"], .setAttrs ⟨2⟩ ["lang"], .setAttrs ⟨0⟩ ["lang"]]).map
        Note.text =
    ["Cannot add instance u0 to resource module <unknown>",
      "Cannot add declaration to resource module", "could not set attribute lang",
      "need a value for every attribute in attribute list"] := by
  decide +kernel

end DesignGraph
