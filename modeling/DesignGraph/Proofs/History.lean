/-
  Histories — what happened in a design since it was empty.

  The calls on a design come down to four kinds of step on its graph: an entity
  is built, a module is given its default instance, an attribute is written, an
  entity is taken out.  Two of them are events worth recording: a birth, with
  what the new entity was made from, and an accepted write.

  * `Graph.events` lists the events of a call, `history` those of all calls on an
    empty design, `births` and `writesTo` what they amount to;
  * `Growth` is a step that takes nothing out, with its events, `Step` any step,
    `Steps` a sequence of them.  Every call is a sequence of steps
    (`growth_perform`, `steps_perform`), hence so is every run from the empty
    design (`reached_after`): an invariant of `Step` holds after any calls.
-/
import DesignGraph.Design
import DesignGraph.Proofs.Births

namespace DesignGraph

/-! ## Events -/

/-- Something that adds to a graph. -/
inductive Event where
  /-- an entity was made -/
  | birth (b : Birth)
  /-- a write was accepted -/
  | write (object : ObjectId) (w : Write)

namespace Event

/-- The object that was made or written to. -/
def object : Event → ObjectId
  | birth b => b.object
  | write o _ => o

/-- The writes that the event consists of. -/
def writes : Event → List Write
  | birth b => b.constants.map Write.ofConstant
  | write _ w => [w]

/-- The birth, if it is one. -/
def birth? : Event → Option Birth
  | birth b => some b
  | write .. => none

end Event

/-- The births among events, in order. -/
def births (h : List Event) : List Birth := h.filterMap Event.birth?

/-- The writes to an object, in order. -/
def writesTo (h : List Event) (o : ObjectId) : List Write :=
  h.flatMap fun ev => if ev.object = o then ev.writes else []

namespace Graph

/-- The events of a request that needs no second one. -/
def buildEvents (g : Graph) {kind : Kind} (request : Request kind) (storage : Option TextsId) :
    List Event :=
  match (g.build request storage).result with
  | none => []
  | some _ => [.birth (g.birth request storage)]

/-- The events of a request.  A generative module is followed by its default
    instance. -/
def createEvents (g : Graph) : {kind : Kind} → Request kind → Option TextsId → List Event
  | _, .module name ilm false, storage =>
    let built := g.build (.module name ilm false) storage
    g.buildEvents (.module name ilm false) storage ++ match built.result with
      | none => []
      | some id => built.graph.buildEvents (.inst name id none) storage
  | _, request, storage => g.buildEvents request storage

/-- The writes of a list of pairs that are accepted. -/
def pairEvents (g : Graph) (o : ObjectId) : List (String × String) → List Event
  | [] => []
  | (name, value) :: rest =>
    match g.setAttr? o name value false with
    | some g => .write o ⟨name, value, false⟩ :: g.pairEvents o rest
    | none => g.pairEvents o rest

/-- The events of a call. -/
def events (g : Graph) : Call → List Event
  | .create request storage => g.createEvents request storage
  | .free _ => []
  | .setAttr o name value constant =>
    match g.setAttr? o name value constant with
    | some _ => [.write o ⟨name, value, constant⟩]
    | none => []
  | .setAttrs o list =>
    match g.objects.get? o, pairs? list with
    | some _, some pairs => g.pairEvents o pairs
    | _, _ => []

/-- The graph after some calls. -/
def after (g : Graph) : List Call → Graph
  | [] => g
  | c :: cs => (g.perform c).graph.after cs

/-- The events of some calls. -/
def history (g : Graph) : List Call → List Event
  | [] => []
  | c :: cs => g.events c ++ (g.perform c).graph.history cs

theorem after_append (g : Graph) (cs ds : List Call) :
    g.after (cs ++ ds) = (g.after cs).after ds := by
  induction cs generalizing g with
  | nil => rfl
  | cons c cs ih => exact ih _

theorem history_append (g : Graph) (cs ds : List Call) :
    g.history (cs ++ ds) = g.history cs ++ (g.after cs).history ds := by
  induction cs generalizing g with
  | nil => rfl
  | cons c cs ih => simp only [List.cons_append, history, after, ih, List.append_assoc]

end Graph

/-- The design that calls make of an empty one with the given logger. -/
def Design.after (l : Logger) (cs : List Call) : Design := (Design.run { logger := l } cs).2

/-- The events of calls on an empty design. -/
def history (cs : List Call) : List Event := Graph.empty.history cs

theorem Design.graph_run (d : Design) (cs : List Call) :
    (d.run cs).2.graph = d.graph.after cs := by
  induction cs generalizing d with
  | nil => rfl
  | cons c cs ih => exact ih (d.perform c).2

/-- The logger has no say in what becomes of the graph. -/
theorem Design.graph_after (l : Logger) (cs : List Call) :
    (Design.after l cs).graph = Graph.empty.after cs := Design.graph_run _ cs

theorem Design.graph_after_concat (l : Logger) (cs : List Call) (c : Call) :
    (Design.after l (cs ++ [c])).graph = ((Design.after l cs).graph.perform c).graph := by
  rw [graph_after, graph_after, Graph.after_append]; rfl

theorem history_concat (l : Logger) (cs : List Call) (c : Call) :
    history (cs ++ [c]) = history cs ++ (Design.after l cs).graph.events c := by
  rw [history, Graph.history_append, Graph.history, Graph.history, List.append_nil,
    Design.graph_after]; rfl

theorem history_mono {cs ds : List Call} (h : cs <+: ds) : history cs <+: history ds := by
  obtain ⟨es, rfl⟩ := h
  rw [history, history, Graph.history_append]
  exact List.prefix_append _ _

/-- Every event belongs to a call. -/
theorem exists_call (l : Logger) {cs : List Call} {ev : Event} (hev : ev ∈ history cs) :
    ∃ p c, p ++ [c] <+: cs ∧ ev ∈ (Design.after l p).graph.events c := by
  induction cs using List.reverseRecOn with
  | nil => cases hev
  | append_singleton cs c ih =>
    rw [history_concat l, List.mem_append] at hev
    rcases hev with hev | hev
    · obtain ⟨p, d, hp, hev⟩ := ih hev
      exact ⟨p, d, hp.trans (List.prefix_append cs [c]), hev⟩
    · exact ⟨cs, c, List.prefix_rfl, hev⟩

/-! ## Steps -/

/-- A step that takes nothing out, and the events it consists of. -/
inductive Growth (g : Graph) : List Event → Graph → Prop
  | build {kind : Kind} {request : Request kind} {storage : Option TextsId}
    (gr : g.Grant request storage) :
    Growth g [.birth (g.birth request storage)] (g.install gr.draft).2
  | appoint (m : EntityId .module) (i : Option (EntityId .inst)) :
    Growth g [] (g.modifyData m (·.appoint i))
  | write {o : ObjectId} {name value : String} {constant : Bool} {g' : Graph}
    (h : g.setAttr? o name value constant = some g') :
    Growth g [.write o ⟨name, value, constant⟩] g'

/-- One step of a graph, and the events it consists of. -/
inductive Step (g : Graph) : List Event → Graph → Prop
  | grow {es : List Event} {g' : Graph} (hs : Growth g es g') : Step g es g'
  | free {kind : Kind} (id : EntityId kind) : Step g [] (g.free id)

/-- Steps of some sort, one after the other. -/
inductive Steps (R : Graph → List Event → Graph → Prop) (g : Graph) : List Event → Graph → Prop
  | refl : Steps R g [] g
  | step {h es : List Event} {g₁ g₂ : Graph} (hs : Steps R g h g₁) (hstep : R g₁ es g₂) :
    Steps R g (h ++ es) g₂

namespace Steps

variable {R : Graph → List Event → Graph → Prop} {g g₁ g₂ : Graph} {h k : List Event}

theorem single (hs : R g h g₁) : Steps R g h g₁ := refl.step hs

/-- A step without events. -/
theorem quiet (hs : Steps R g h g₁) (hstep : R g₁ [] g₂) : Steps R g h g₂ := by
  rw [← List.append_nil h]
  exact hs.step hstep

theorem trans (hs : Steps R g h g₁) (hs' : Steps R g₁ k g₂) : Steps R g (h ++ k) g₂ := by
  induction hs' with
  | refl => rwa [List.append_nil]
  | step _ hstep ih => rw [← List.append_assoc]; exact ih.step hstep

theorem ofGrowth (hs : Steps Growth g h g₁) : Steps Step g h g₁ := by
  induction hs with
  | refl => exact .refl
  | step _ hstep ih => exact ih.step (.grow hstep)

end Steps

/-! ## Calls as steps -/

namespace Graph

theorem growth_build (g : Graph) {kind : Kind} (request : Request kind)
    (storage : Option TextsId) :
    Steps Growth g (g.buildEvents request storage) (g.build request storage).graph := by
  rcases g.build_cases request storage with ⟨hr, hg⟩ | ⟨gr, hr, hg⟩
  · rw [buildEvents, hr, hg]; exact .refl
  · rw [buildEvents, hr, hg]; exact .single (.build gr)

theorem growth_create (g : Graph) {kind : Kind} (request : Request kind)
    (storage : Option TextsId) :
    Steps Growth g (g.createEvents request storage) (g.create request storage).graph := by
  cases request with
  | module name ilm resource =>
    cases resource with
    | true => exact g.growth_build _ storage
    | false =>
      have hb := g.growth_build (.module name ilm false) storage
      simp only [createEvents, create, createGenerative]
      rcases hr : (g.build (.module name ilm false) storage).result with _ | id
      · simpa only [List.append_nil] using hb
      · have hi := (g.build (.module name ilm false) storage).graph.growth_build
          (.inst name id none) storage
        exact (hb.trans hi).quiet (.appoint id _)
  | _ => exact g.growth_build _ storage

theorem growth_setPairs (g : Graph) (o : ObjectId) (pairs : List (String × String)) :
    Steps Growth g (g.pairEvents o pairs) (g.setPairs o pairs).graph := by
  induction pairs generalizing g with
  | nil => exact .refl
  | cons nv rest ih =>
    obtain ⟨name, value⟩ := nv
    simp only [pairEvents, setPairs]
    rcases hw : g.setAttr? o name value false with _ | g'
    · exact ih g
    · exact (Steps.single (.write hw)).trans (ih g')

/-- A call that is no release is a sequence of steps that take nothing out. -/
theorem growth_perform (g : Graph) (c : Call)
    (hc : ∀ kind (id : EntityId kind), c ≠ .free (some id)) :
    Steps Growth g (g.events c) (g.perform c).graph := by
  cases c with
  | create request storage => exact g.growth_create request storage
  | free id =>
    rcases id with _ | id
    · exact .refl
    · exact absurd rfl (hc _ id)
  | setAttr o name value constant =>
    simp only [events, perform]
    rcases hw : g.setAttr? o name value constant with _ | g'
    · exact .refl
    · exact .single (.write hw)
  | setAttrs o list =>
    simp only [events, perform, setAttrs]
    rcases ho : g.objects.get? o with _ | obj
    · exact .refl
    · rcases hp : pairs? list with _ | pairs
      · exact .refl
      · exact g.growth_setPairs o pairs

/-- Every call is a sequence of steps. -/
theorem steps_perform (g : Graph) (c : Call) : Steps Step g (g.events c) (g.perform c).graph := by
  by_cases hc : ∃ kind, ∃ id : EntityId kind, c = .free (some id)
  · obtain ⟨kind, id, rfl⟩ := hc
    exact .single (.free id)
  · exact (g.growth_perform c fun kind id h => hc ⟨kind, id, h⟩).ofGrowth

theorem steps_after (g : Graph) (cs : List Call) : Steps Step g (g.history cs) (g.after cs) := by
  induction cs generalizing g with
  | nil => exact .refl
  | cons c cs ih => exact (g.steps_perform c).trans (ih _)

end Graph

/-- A graph that steps lead to from the empty one, with the events on the way. -/
abbrev Reached (h : List Event) (g : Graph) : Prop := Steps Step Graph.empty h g

/-- **Whatever the calls, the design is reached by steps.** -/
theorem reached_after (l : Logger) (cs : List Call) :
    Reached (history cs) (Design.after l cs).graph := by
  rw [Design.graph_after]
  exact Graph.empty.steps_after cs

theorem steps_after_append (l : Logger) (cs ds : List Call) :
    Steps Step (Design.after l cs).graph ((Design.after l cs).graph.history ds)
      (Design.after l (cs ++ ds)).graph := by
  rw [Design.graph_after, Design.graph_after, Graph.after_append]
  exact Graph.steps_after _ ds

end DesignGraph
