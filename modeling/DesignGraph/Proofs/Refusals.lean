/-
  Refusals — what is said of an entity that was not made.

  A request that names something that is gone is refused in silence, as a rule.  But the
  notes of a request are written on the way, before all that it needs was looked at: a
  module is announced first of all, an instance before the texts of its parent are read,
  and every object before its arena is looked for.

  * `Graph.intoResource`: a request for something that a resource module does not take,
    which is refused with a note of its own;
  * `Request.announced` is what is said before the object; `Graph.announcedInVain`: an
    instance whose parent turns out to have lost its texts;
  * `Legible.notes_of_usable`, `Legible.notes_of_unusable`: what a refused request has
    said, if only its arena is missing, and if something else is;
  * `refusals_are_silent_or_traced` is what follows for designs, and
    `refusals_can_leave_traces` shows two that are not silent.
-/
import DesignGraph.Proofs.Admission
import DesignGraph.Proofs.Reports

namespace DesignGraph

open DesignGraph.Graph (Lineage)

/-! ## What is said on the way -/

/-- The module that a request needs to be generative. -/
def Request.needsBody? : {kind : Kind} → Request kind → Option (EntityId .module)
  | _, .inst _ _ parent => parent
  | _, .decl _ _ _ parent | _, .code _ _ parent | _, .regfile _ parent => some parent
  | _, _ => none

/-- What is said before the object is made. -/
def Request.announced : {kind : Kind} → Request kind → List Note
  | _, .module name _ _ => [.generatingModule name]
  | _, .inst name _ _ => [.generatingInstance name]
  | _, _ => []

namespace Graph

/-- Whether a request is for something that a module does not take because it is a resource. -/
def intoResource (g : Graph) {kind : Kind} (request : Request kind) : Bool :=
  request.needsBody?.any fun m => (g.entity? m).any (·.data.isResource)

/-- Whether an instance is announced, and then the texts of its parent are not there. -/
def announcedInVain (g : Graph) : {kind : Kind} → Request kind → Bool
  | _, .inst _ target (some parent) =>
    g.readable target && g.generative parent && !g.readable parent
  | _, _ => false

/-- What is said of the object of a new entity. -/
def traces (g : Graph) {kind : Kind} (request : Request kind) : List Note :=
  [.creatingObject kind (g.nameFor request) ((request.holder.bind g.lineageOf).map (·.id))]

/-- What a request that is not for a resource module has said when it is refused. -/
def residue (g : Graph) {kind : Kind} (request : Request kind) : List Note :=
  if g.usable request then request.announced ++ g.traces request
  else if g.announcedInVain request then request.announced
  else []

variable {g : Graph} {kind : Kind} {request : Request kind} {storage : Option TextsId}
  {plan : Plan}

theorem announced_of_plan (hp : g.plan request = .ok plan) :
    plan.announced = request.announced := by
  cases request with
  | module => cases hp; rfl
  | inst =>
    simp only [Graph.plan, bind_eq_ok] at hp
    obtain ⟨t, -, o, -, hp⟩ := hp
    cases hp
    rfl
  | decl | code | regfile | port | param | pin | adjustment | entry | register =>
    simp only [Graph.plan, bind_eq_ok] at hp
    obtain ⟨m, -, hp⟩ := hp
    cases hp
    rfl

/-! ## What stands in the way -/

theorem bind_eq_error {ε α β : Type} {x : Except ε α} {f : α → Except ε β} {e : ε} :
    (x >>= f) = .error e ↔ x = .error e ∨ ∃ a, x = .ok a ∧ f a = .error e := by
  constructor
  · intro h
    rcases x with e' | a
    · cases h
      exact Or.inl rfl
    · exact Or.inr ⟨a, rfl, h⟩
  · rintro (rfl | ⟨a, rfl, h⟩)
    · rfl
    · exact h

theorem map_eq_error {ε α β : Type} {x : Except ε α} {f : α → β} {e : ε} :
    x.map f = .error e ↔ x = .error e := by
  rcases x with e' | a <;> simp [Except.map]

variable {ob : Obstacle}

theorem need_error {id : EntityId kind} (h : g.need id = .error ob) : ob = .gone := by
  unfold need at h
  split at h
  · cases h
  · cases h
    rfl

theorem targetId_error {id : EntityId .module} (h : g.targetId id = .error ob) : ob = .gone := by
  rcases bind_eq_error.1 h with h | ⟨m, -, h⟩
  · exact need_error h
  · split at h
    · cases h
    · cases h
      rfl

/-- A module that has to have a list which resources lack is gone, or is a resource. -/
theorem needList_error {member : Kind} {id : EntityId .module} {l : Link .module member}
    (hl : l.inBody) {refusal : Entity .module → Note} (h : g.needList id l refusal = .error ob) :
    (ob = .gone ∧ g.generative id = false) ∨ (g.entity? id).any (·.data.isResource) = true := by
  rcases hm : g.entity? id with _ | m
  · left
    rw [needList, need, hm] at h
    cases h
    rw [generative, hm]
    exact ⟨rfl, rfl⟩
  · right
    have hsome := l.isSome_members hl m.data
    rcases hxs : l.members m.data with _ | xs
    · rw [hxs] at hsome
      simpa using hsome
    · rw [needList_eq_ok.2 ⟨hm, hxs⟩] at h
      cases h

/-- A request that is not for a resource module, and is not planned, names something that is
    gone. -/
theorem Legible.gone_of_error (hg : g.Legible) (hp : g.plan request = .error ob)
    (hr : g.intoResource request = false) : ob = .gone ∧ g.announcedInVain request = false := by
  cases request with
  | module => cases hp
  | inst name target parent =>
    rcases bind_eq_error.1 hp with ht | ⟨t, -, hp⟩
    · have hlost : g.readable target = false := by
        rw [← Bool.not_eq_true, ← hg.exists_targetId]
        rintro ⟨t, hok⟩
        rw [ht] at hok
        cases hok
      refine ⟨targetId_error ht, ?_⟩
      cases parent <;> simp [announcedInVain, hlost]
    · rcases bind_eq_error.1 hp with ho | ⟨o, -, hp⟩
      · rcases parent with _ | p
        · cases ho
        · rcases needList_error rfl (map_eq_error.1 ho) with ⟨hgone, hlost⟩ | hres
          · exact ⟨hgone, by simp [announcedInVain, hlost]⟩
          · rw [intoResource, Request.needsBody?, Option.any_some, hres] at hr
            cases hr
      · cases hp
  | decl | code | regfile =>
    rcases bind_eq_error.1 hp with hm | ⟨m, -, hp⟩
    · rcases needList_error rfl hm with ⟨hgone, -⟩ | hres
      · exact ⟨hgone, rfl⟩
      · rw [intoResource, Request.needsBody?, Option.any_some, hres] at hr
        cases hr
    · cases hp
  | port | param | pin | adjustment | entry | register =>
    rcases bind_eq_error.1 hp with ho | ⟨o, -, hp⟩
    · exact ⟨need_error (map_eq_error.1 ho), rfl⟩
    · cases hp

/-- A request that is planned and cannot be granted has not been announced, or in vain. -/
theorem Legible.announced_of_unusable (hg : g.Legible) (hp : g.plan request = .ok plan)
    (hu : g.usable request = false) :
    request.announced = if g.announcedInVain request then request.announced else [] := by
  cases request with
  | module => cases hu
  | inst name target parent =>
    simp only [Graph.plan, bind_eq_ok] at hp
    obtain ⟨t, ht, o, ho, -⟩ := hp
    have htarget : g.readable target = true := hg.exists_targetId.1 ⟨t, ht⟩
    rcases parent with _ | p
    · rw [usable, htarget] at hu
      cases hu
    · obtain ⟨m, xs, hm, hxs, -⟩ := placeOf_eq_ok.1 ho
      have hplace : g.generative p = true := (generative_iff rfl).2 ⟨m, xs, hm, hxs⟩
      have hlost : g.readable p = false := by
        simpa [usable, htarget, hplace] using hu
      rw [announcedInVain, htarget, hplace, hlost]
      rfl
  | _ => exact (ite_self _).symm

/-! ## What is said -/

/-- **If only its arena is missing, a request has been announced, and so has its object.** -/
theorem Legible.notes_of_usable (hg : g.Legible) (hu : g.usable request = true)
    (hs : g.storable storage = false) :
    (g.build request storage).notes = request.announced ++ g.traces request := by
  obtain ⟨plan, parent, hp, hl⟩ := hg.exists_plan_iff.2 hu
  have hsite : g.site storage = none := by
    rw [← Option.not_isSome_iff_eq_none, Option.isSome_iff_exists, exists_site_iff, hs]
    exact Bool.false_ne_true
  have hplans := plans_of_plan hp
  have hparent : parent = request.holder.bind g.lineageOf := hplans.parent_eq hl none
  rw [build, hp]
  simp only [hl, hsite]
  rw [announced_of_plan hp, hplans.name, hparent]
  rfl

/-- **If something is gone that it names, a request has said nothing, or that an instance is
    announced whose parent has lost its texts.** -/
theorem Legible.notes_of_unusable (hg : g.Legible) (hu : g.usable request = false)
    (hr : g.intoResource request = false) : (g.build request storage).notes =
      if g.announcedInVain request then request.announced else [] := by
  rcases hp : g.plan request with ob | plan
  · obtain ⟨rfl, hvain⟩ := hg.gone_of_error hp hr
    rw [build, hp, hvain]
    rfl
  · have hl : g.lineage plan.parent = none := by
      rcases hl : g.lineage plan.parent with _ | parent
      · rfl
      · rw [hg.exists_plan_iff.1 ⟨plan, parent, hp, hl⟩] at hu
        cases hu
    rw [build, hp]
    simp only [hl]
    rw [announced_of_plan hp]
    exact hg.announced_of_unusable hp hu

theorem create_result_of_refused
    (h : (g.perform (.create request storage)).result = .created none) :
    (g.create request storage).result = none := Option.map_eq_none_iff.1 (Reply.created.inj h)

theorem notes_create_of_none (h : (g.create request storage).result = none) :
    (g.create request storage).notes = (g.build request storage).notes := by
  have hnone := (g.create_result request storage).symm.trans h
  cases request with
  | module name ilm resource =>
    cases resource with
    | true => rfl
    | false =>
      rw [create, createGenerative]
      simp only [hnone]
  | _ => rfl

/-- Nothing graver than a trace is said of what was not made. -/
theorem level_residue {n : Note} (hn : n ∈ g.residue request) : n.level = .debug := by
  have hannounced : ∀ n ∈ request.announced, n.level = .debug := by
    intro n hn
    cases request with
    | module | inst =>
      obtain rfl := List.mem_singleton.1 hn
      rfl
    | _ => cases hn
  unfold residue at hn
  split at hn
  · rcases List.mem_append.1 hn with hn | hn
    · exact hannounced n hn
    · obtain rfl := List.mem_singleton.1 hn
      rfl
  · split at hn
    · exact hannounced n hn
    · cases hn

end Graph

/-- **A refused request that is not for a resource module has said what `residue` lists.** -/
theorem Reached.notes_of_refused {g : Graph} {h : List Event} (hg : Reached h g) {kind : Kind}
    {request : Request kind} {storage : Option TextsId}
    (hnone : (g.create request storage).result = none) (hr : g.intoResource request = false) :
    (g.create request storage).notes = g.residue request := by
  rw [Graph.notes_create_of_none hnone]
  rw [hg.create_result] at hnone
  rcases hu : g.usable request with _ | _
  · rw [hg.legible.notes_of_unusable hu hr, Graph.residue, hu]
    rfl
  · rcases hs : g.storable storage with _ | _
    · rw [hg.legible.notes_of_usable hu hs, Graph.residue, hu]
      rfl
    · rw [hu, hs] at hnone
      cases hnone

/-! ## The refusals of designs -/

/-- A logger keeps what passes its thresholds, in order. -/
theorem Logger.records_logAll_eq (l : Logger) (rs : List LogRecord) :
    (l.logAll rs).records.toList = l.records.toList ++ rs.filter l.passes := by
  induction rs generalizing l with
  | nil => exact (List.append_nil _).symm
  | cons r rs ih =>
    have hpasses : (l.log r).passes = l.passes := funext fun q => passes_log l r q
    have hnext := ih (l.log r)
    rw [hpasses] at hnext
    refine hnext.trans ?_
    by_cases hr : l.passes r
    · rw [records_log_of_passes hr, List.filter_cons_of_pos hr, Array.toList_push,
        List.append_assoc, List.singleton_append]
    · rw [log_of_not_passes hr, List.filter_cons_of_neg hr]

/-- What a refused request leaves behind in a design after some calls, if it was not for a
    resource module; the logger may have been set to anything by then. -/
structure Design.Refusals (l : Logger) (cs : List Call) : Prop where
  /-- The graph is as it was, and the logger was offered what `residue` lists, -/
  left : ∀ l' {kind : Kind} (request : Request kind) storage,
    ((after l cs).graph.perform (.create request storage)).result = .created none →
    (after l cs).graph.intoResource request = false →
    Design.perform ⟨(after l cs).graph, l'⟩ (.create request storage) =
      (.created none, ⟨(after l cs).graph,
        l'.logAll (((after l cs).graph.residue request).map Note.record)⟩)
  /-- which are traces. -/
  traces : ∀ {kind : Kind} (request : Request kind), ∀ n ∈ (after l cs).graph.residue request,
    n.level = .debug
  /-- The logger keeps those that pass. -/
  kept : ∀ l' {kind : Kind} (request : Request kind) storage,
    ((after l cs).graph.perform (.create request storage)).result = .created none →
    (after l cs).graph.intoResource request = false →
    (Design.perform ⟨(after l cs).graph, l'⟩ (.create request storage)).2.logger.records.toList =
      l'.records.toList ++
        (((after l cs).graph.residue request).map Note.record).filter l'.passes
  /-- If the arena is there, nothing is offered, unless an instance is announced whose parent
      has lost its texts. -/
  silent : ∀ l' {kind : Kind} (request : Request kind) storage,
    ((after l cs).graph.perform (.create request storage)).result = .created none →
    (after l cs).graph.intoResource request = false →
    (after l cs).graph.storable storage = true →
    (after l cs).graph.announcedInVain request = false →
    Design.perform ⟨(after l cs).graph, l'⟩ (.create request storage) =
      (.created none, ⟨(after l cs).graph, l'⟩)

/-- **Whatever the calls, a refusal is silent or leaves traces only, and says which.** -/
theorem refusals_are_silent_or_traced (l : Logger) (cs : List Call) : Design.Refusals l cs := by
  have hg := reached_after l cs
  have hleft : ∀ l' {kind : Kind} (request : Request kind) storage,
      ((Design.after l cs).graph.perform (.create request storage)).result = .created none →
      (Design.after l cs).graph.intoResource request = false →
      Design.perform ⟨(Design.after l cs).graph, l'⟩ (.create request storage) =
        (.created none, ⟨(Design.after l cs).graph,
          l'.logAll (((Design.after l cs).graph.residue request).map Note.record)⟩) := by
    intro l' kind request storage hrefused hr
    have hnotes := hg.notes_of_refused (Graph.create_result_of_refused hrefused) hr
    rw [Design.perform, hrefused, Graph.graph_perform_of_refused hrefused, ← hnotes]
    rfl
  refine ⟨hleft, fun request n => Graph.level_residue, ?_, ?_⟩
  · intro l' kind request storage hrefused hr
    rw [hleft l' request storage hrefused hr]
    exact l'.records_logAll_eq _
  · intro l' kind request storage hrefused hr hs hvain
    rw [hleft l' request storage hrefused hr]
    have hu : (Design.after l cs).graph.usable request = false := by
      have hnone := Graph.create_result_of_refused hrefused
      rw [hg.create_result, hs, Bool.and_true] at hnone
      rcases hu : (Design.after l cs).graph.usable request with _ | _
      · rfl
      · rw [hu] at hnone
        cases hnone
    rw [Graph.residue, hu, hvain]
    rfl

/-- A module whose arena is gone, and an instance whose parent has lost its texts, are not made,
    and yet they are announced. -/
theorem refusals_can_leave_traces :
    let d := Design.after {} [.create (.module "top" false false) none,
      .create (.module "sub" false false) (some ⟨0⟩), .create (.module "cpu" false true) none,
      .free (some (⟨0⟩ : EntityId .module))]
    let late := d.perform (.create (.module "late" false true) (some ⟨0⟩))
    let inst := d.perform (.create (.inst "u0" ⟨2⟩ (some ⟨1⟩)) none)
    (late.1 = .created none ∧ late.2.logger.records = d.logger.records ++
      #[(Note.generatingModule "late").record, (Note.creatingObject .module "late" none).record]) ∧
    (inst.1 = .created none ∧
      inst.2.logger.records = d.logger.records ++ #[(Note.generatingInstance "u0").record]) := by
  decide +kernel

end DesignGraph
