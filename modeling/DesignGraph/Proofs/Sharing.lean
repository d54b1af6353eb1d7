/-
  Sharing — it does not show in which arenas texts are kept.

  Two runs of the same calls, up to the arenas that they give to new entities, go hand in
  hand: what one call does in either keeps the two graphs alike, and every answer and
  every message is the same.  This needs arenas that are there when they are given, and
  that outlive those who borrow them.

  * `Call.unplaced` leaves the arena out of a call; `Graph.careful` says that a call gives
    an arena that is there, and takes none from a borrower;
  * `Twins.plan_eq`, `Twins.birth_eq`: a request finds the same in both graphs;
  * `Twins.grow`, `Twins.free` are the steps, `Twins.perform` the calls and `Twins.run`
    the runs;
  * `storage_is_invisible` is what follows for designs.
-/
import DesignGraph.Proofs.Likeness
import DesignGraph.Proofs.Reports

namespace DesignGraph

/-! ## Calls without arenas -/

/-- The call with no arena given. -/
def Call.unplaced : Call → Call
  | .create request _ => .create request none
  | .free id => .free id
  | .setAttr o n v c => .setAttr o n v c
  | .setAttrs o list => .setAttrs o list

namespace Graph

/-- Whether an object borrows the arena. -/
def lent (g : Graph) (s : TextsId) : Bool :=
  g.objects.toList.any fun (_, x) => decide (x.storage = .borrowed s)

/-- Whether a call gives an arena that is there, and takes none that is borrowed. -/
def careful (g : Graph) : Call → Bool
  | .create _ storage => g.storable storage
  | @Call.free kind id => id.all fun i => (g.ownArena ⟨kind, i⟩).all fun s => !g.lent s
  | .setAttr .. | .setAttrs .. => true

/-- Whether calls are careful, each when its turn comes. -/
def carefulAll (g : Graph) : List Call → Bool
  | [] => true
  | c :: cs => g.careful c && (g.perform c).graph.carefulAll cs

variable {g : Graph}

theorem lent_iff {s : TextsId} : g.lent s = true ↔ ∃ o, g.Borrows o s := by
  simp [lent, Borrows, Slots.mem_toList]

theorem carefulAll_take {cs : List Call} (h : g.carefulAll cs) (n : Nat) :
    g.carefulAll (cs.take n) := by
  induction cs generalizing g n with
  | nil => rw [List.take_nil]; rfl
  | cons c cs ih =>
    rw [carefulAll, Bool.and_eq_true] at h
    cases n with
    | zero => rfl
    | succ n =>
      rw [List.take_succ_cons, carefulAll, Bool.and_eq_true]
      exact ⟨h.1, ih h.2 n⟩

end Graph

/-! ## Requests -/

theorem Graph.map_eq_bind {ε α β : Type} (x : Except ε α) (f : α → β) :
    x.map f = x >>= fun a => .ok (f a) := by cases x <;> rfl

namespace Twins

variable {g g' g₁ g₁' : Graph} {h h' es es' : List Event} {kind owner member : Kind}
  (tw : Twins h h' g g')
include tw

theorem listing_eq (l : Link owner member) (o : EntityId owner) :
    g.listing l o = g'.listing l o := by
  rcases tw.entity_cases o with ⟨ho, ho'⟩ | ⟨e, e', ho, ho', hkin⟩
  · rw [Graph.listing, Graph.listing, ho, ho']
  · rw [Graph.listing_of_entity? ho, Graph.listing_of_entity? ho', hkin.lists]

theorem lineage_eq (o : Option ObjectId) : g.lineage o = g'.lineage o := by
  rcases o with _ | o
  · rfl
  · rw [Graph.lineage, Graph.lineage, (tw.texts_eq o).1, (tw.texts_eq o).2]

theorem lineageOf_eq (r : EntityRef) : g.lineageOf r = g'.lineageOf r := by
  rcases tw.entity_cases r.id with ⟨he, he'⟩ | ⟨e, e', he, he', hkin⟩
  · rw [Graph.lineageOf, Graph.lineageOf, he, he']; rfl
  · rw [Graph.lineageOf, Graph.lineageOf, he, he', Option.bind_some, Option.bind_some, hkin.object,
      (tw.texts_eq _).1, (tw.texts_eq _).2]

theorem idOf_eq (id : EntityId kind) :
    (g.entity? id).bind g.idOf = (g'.entity? id).bind g'.idOf := by
  rcases tw.entity_cases id with ⟨he, he'⟩ | ⟨e, e', he, he', hkin⟩
  · rw [he, he']; rfl
  · rw [he, he']
    exact hkin.id

theorem nameFor_eq (request : Request kind) : g.nameFor request = g'.nameFor request := by
  cases request with
  | code name text parent =>
    rcases name with _ | name
    · have hlist := tw.listing_eq .code parent
      rw [Graph.listing, Graph.listing] at hlist
      rw [Graph.nameFor, Graph.nameFor, hlist]
    · rfl
  | _ => rfl

/-- The new entity is the same, up to its arena. -/
theorem birth_eq (request : Request kind) (s s' : Option TextsId) :
    (g.birth request s).unplaced = (g'.birth request s').unplaced := by
  have hparent : request.holder.bind g.lineageOf = request.holder.bind g'.lineageOf :=
    congrArg _ (funext tw.lineageOf_eq)
  have htarget : (request.target?.bind fun id => (g.entity? id).bind g.idOf) =
      request.target?.bind fun id => (g'.entity? id).bind g'.idOf := congrArg _ (funext tw.idOf_eq)
  simp only [Birth.unplaced, Birth.placedIn, Graph.birth, tw.nextId_tables, tw.nextId_objects,
    tw.nameFor_eq, hparent, htarget]

theorem parentObject_eq (id : EntityId kind) : g.parentObject id = g'.parentObject id := by
  rcases tw.entity_cases id with ⟨he, he'⟩ | ⟨e, e', he, he', hkin⟩
  · simp only [Graph.parentObject, Graph.need, he, he']
  · simp only [Graph.parentObject, Graph.need, he, he', Except.map, hkin.object]

theorem targetId_eq (id : EntityId .module) : g.targetId id = g'.targetId id := by
  rcases tw.entity_cases id with ⟨he, he'⟩ | ⟨e, e', he, he', hkin⟩
  · simp only [Graph.targetId, Graph.need, he, he']
    rfl
  · simp only [Graph.targetId, Graph.need, he, he', bind, Except.bind, hkin.id]

/-- What is done with a module that has a list depends on what the two have in common. -/
theorem needList_congr {α : Type} {member : Kind} {id : EntityId .module} {l : Link .module member}
    {refusal refusal' : Entity .module → Note}
    {f f' : Entity .module × Array (EntityId member) → Except Obstacle α}
    (hr : ∀ m m', g.Kin g' m m' → refusal m = refusal' m')
    (hf : ∀ m m' xs, g.Kin g' m m' → f (m, xs) = f' (m', xs)) :
    (g.needList id l refusal >>= f) = (g'.needList id l refusal' >>= f') := by
  rcases tw.entity_cases id with ⟨hm, hm'⟩ | ⟨m, m', hm, hm', hkin⟩
  · simp only [Graph.needList, Graph.need, hm, hm', bind, Except.bind]
  · simp only [Graph.needList, Graph.need, hm, hm', bind, Except.bind, hkin.lists l]
    rcases l.members m'.data with _ | xs
    · simp only [hr m m' hkin]
    · exact hf m m' xs hkin

theorem placeOf_eq (name : String) (id : Option (EntityId .module)) :
    g.placeOf name id = g'.placeOf name id := by
  rcases id with _ | id
  · rfl
  · rw [Graph.placeOf, Graph.placeOf, Graph.map_eq_bind, Graph.map_eq_bind]
    refine tw.needList_congr (fun m m' hkin => ?_) fun m m' xs hkin => ?_
    · rw [hkin.name]
    · rw [hkin.object]

/-- **A request comes to the same, or meets the same obstacle.** -/
theorem plan_eq (request : Request kind) : g.plan request = g'.plan request := by
  cases request with
  | module => rfl
  | inst => simp only [Graph.plan, tw.targetId_eq, tw.placeOf_eq]
  | decl =>
    refine tw.needList_congr (fun _ _ _ => rfl) fun m m' xs hkin => ?_
    simp only [hkin.object]
  | code =>
    refine tw.needList_congr (fun _ _ _ => rfl) fun m m' xs hkin => ?_
    simp only [hkin.object]
  | regfile => exact tw.needList_congr (fun _ _ _ => rfl) fun _ _ _ _ => rfl
  | port | param | pin | adjustment | entry | register =>
    simp only [Graph.plan, tw.parentObject_eq]

/-! ### What a request does -/

/-- A request has the same answer in both, and the same is said. -/
theorem build_eq (request : Request kind) {s s' : Option TextsId} (hs : g.storable s)
    (hs' : g'.storable s') : (g.build request s).result = (g'.build request s').result ∧
      (g.build request s).notes = (g'.build request s').notes := by
  have hplan := (tw.plan_eq request).symm
  rcases hp : g.plan request with obstacle | plan
  · simp only [Graph.build, hplan, hp, and_self]
  have hlineage := (tw.lineage_eq plan.parent).symm
  rcases hl : g.lineage plan.parent with _ | parent
  · simp only [Graph.build, hplan, hp, hlineage, hl, and_self]
  obtain ⟨site, hsite⟩ := Graph.exists_site_iff.2 hs
  obtain ⟨site', hsite'⟩ := Graph.exists_site_iff.2 hs'
  -- from here on nothing can fail in either
  obtain ⟨d, hd⟩ := Graph.exists_draft (Graph.plans_of_plan hp) hl site
  obtain ⟨d', hd'⟩ :=
    Graph.exists_draft (Graph.plans_of_plan (hplan.trans hp)) (hlineage.trans hl) site'
  simp only [Graph.build, hplan, hp, hlineage, hl, hsite, hsite', hd, hd', Graph.install_eq,
    tw.nextId_tables, and_self]

theorem buildEvents_eq (request : Request kind) {s s' : Option TextsId} (hs : g.storable s)
    (hs' : g'.storable s') : (g.buildEvents request s).map Event.unplaced =
      (g'.buildEvents request s').map Event.unplaced := by
  rw [Graph.buildEvents, Graph.buildEvents, (tw.build_eq request hs hs').1]
  rcases (g'.build request s').result with _ | id
  · rfl
  · exact congrArg (fun b => [Event.birth b]) (tw.birth_eq request s s')

/-! ## Steps -/

/-- **What was added alike is alike.** -/
theorem grow (hs : Steps Growth g es g₁) (hs' : Steps Growth g' es' g₁')
    (hes : es.map Event.unplaced = es'.map Event.unplaced) :
    Twins (h ++ es) (h' ++ es') g₁ g₁' where
  left := Steps.trans tw.left hs.ofGrowth
  right := Steps.trans tw.right hs'.ofGrowth
  events := by rw [List.map_append, List.map_append, tw.events, hes]
  live r := by
    have hrefs : (births es).map Birth.ref = (births es').map Birth.ref := by
      have hmap := congrArg (fun k => (births k).map Birth.ref) hes
      simp only [births_unplaced, List.map_map] at hmap
      exact hmap
    rw [hs.live_iff, hs'.live_iff, tw.live, ← List.mem_map, ← List.mem_map, hrefs]
  whole := hs.whole tw.whole
  whole' := hs'.whole tw.whole'

end Twins

/-- A careful release takes no texts from those who stay. -/
theorem Reached.whole_free {h : List Event} {g : Graph} (hg : Reached h g) (hw : g.Whole)
    {kind : Kind} {id : EntityId kind} (hc : g.careful (.free (some id))) : (g.free id).Whole := by
  rcases he : g.entity? id with _ | e
  · rwa [Graph.free_of_none he]
  obtain ⟨x, hx, -⟩ := hg.aligned.object id e.bare (Graph.bare?_of_entity? he)
  intro o y hy
  rw [Graph.get?_objects_free he] at hy
  split at hy
  · cases hy
  · next hne =>
    rw [Graph.get?_texts_free he hx, if_neg]
    · exact hw o y hy
    · intro hxs
      rcases hys : y.storage with s | s
      · exact hne (hg.registered.owner_unique hy hx hys (by rw [hxs, hys]; rfl))
      · rw [hys] at hxs
        have hown : g.ownArena ⟨kind, id⟩ = some s :=
          Graph.ownArena_eq_some.2 ⟨e, he, x, hx, hxs⟩
        have hlent := Graph.lent_iff.2 ⟨o, y, hy, hys⟩
        simp [Graph.careful, hown, hlent] at hc

namespace Twins

variable {g g' : Graph} {h h' : List Event} {kind : Kind} (tw : Twins h h' g g')
include tw

theorem free {id : EntityId kind} (hc : g.careful (.free (some id)))
    (hc' : g'.careful (.free (some id))) : Twins h h' (g.free id) (g'.free id) where
  left := Steps.quiet tw.left (.free id)
  right := Steps.quiet tw.right (.free id)
  events := tw.events
  live r := by
    by_cases hr : r = ⟨kind, id⟩
    · subst hr
      rw [← Graph.isSome_bare?, ← Graph.isSome_bare?, Graph.bare?_free_self, Graph.bare?_free_self]
    · rw [Graph.entity?_free_of_ne hr, Graph.entity?_free_of_ne hr, tw.live]
  whole := tw.left.whole_free tw.whole hc
  whole' := tw.right.whole_free tw.whole' hc'

end Twins

/-! ## Calls -/

theorem Call.unplaced_eq {c c' : Call} (h : c.unplaced = c'.unplaced) : c = c' ∨
    ∃ kind, ∃ (request : Request kind) (s s' : Option TextsId),
      c = .create request s ∧ c' = .create request s' := by
  cases c <;> cases c' <;> cases h
  · exact Or.inr ⟨_, _, _, _, rfl, rfl⟩
  all_goals exact Or.inl rfl

namespace Graph

/-- What calls on two graphs have in common: the answer, what is said, and what happens. -/
structure Agree (g g' : Graph) (c c' : Call) : Prop where
  result : (g.perform c).result = (g'.perform c').result
  notes : (g.perform c).notes = (g'.perform c').notes
  events : (g.events c).map Event.unplaced = (g'.events c').map Event.unplaced

theorem storable_build {g : Graph} {kind : Kind} (request : Request kind) {s : Option TextsId}
    (hs : g.storable s) : (g.build request s).graph.storable s := by
  rcases s with _ | s
  · rfl
  · exact (g.growth_build request (some s)).keeps.arena s hs

end Graph

namespace Twins

variable {g g' : Graph} {h h' : List Event} {kind : Kind} (tw : Twins h h' g g')
include tw

theorem create_eq (request : Request kind) {s s' : Option TextsId} (hs : g.storable s)
    (hs' : g'.storable s') : (g.create request s).result = (g'.create request s').result ∧
      (g.create request s).notes = (g'.create request s').notes ∧
      (g.createEvents request s).map Event.unplaced =
        (g'.createEvents request s').map Event.unplaced := by
  obtain ⟨hresult, hnotes⟩ := tw.build_eq request hs hs'
  have hevents := tw.buildEvents_eq request hs hs'
  cases request with
  | module name ilm resource =>
    cases resource with
    | true => exact ⟨hresult, hnotes, hevents⟩
    | false =>
      have tw₁ := tw.grow (g.growth_build _ s) (g'.growth_build _ s') hevents
      have hs₁ := Graph.storable_build (.module name ilm false) hs
      have hs₁' := Graph.storable_build (.module name ilm false) hs'
      rcases hr : (g.build (.module name ilm false) s).result with _ | id
      · have hr' := hresult.symm.trans hr
        simp only [Graph.create, Graph.createGenerative, Graph.createEvents, hr, hr', hnotes,
          List.append_nil, hevents, and_self]
      · have hr' := hresult.symm.trans hr
        simp only [Graph.create, Graph.createGenerative, Graph.addDefaultInstance,
          Graph.createEvents, hr, hr', hnotes, List.map_append, hevents,
          (tw₁.build_eq (.inst name id none) hs₁ hs₁').2,
          tw₁.buildEvents_eq (.inst name id none) hs₁ hs₁', and_self]
  | _ => exact ⟨hresult, hnotes, hevents⟩

/-- A write is accepted in both or in neither. -/
theorem setAttr?_cases (o : ObjectId) (n v : String) (c : Bool) :
    (g.setAttr? o n v c = none ∧ g'.setAttr? o n v c = none) ∨
    ∃ g₁ g₁', g.setAttr? o n v c = some g₁ ∧ g'.setAttr? o n v c = some g₁' := by
  have hrefused : g.setAttr? o n v c = none ↔ g'.setAttr? o n v c = none := by
    rw [Graph.setAttr?_eq_none_iff, Graph.setAttr?_eq_none_iff, tw.open?_eq_none_iff,
      (tw.attributes_eq o).2.1]
  rcases hw : g.setAttr? o n v c with _ | g₁ <;> rcases hw' : g'.setAttr? o n v c with _ | g₁'
  · exact Or.inl ⟨rfl, rfl⟩
  · simp [hw, hw'] at hrefused
  · simp [hw, hw'] at hrefused
  · exact Or.inr ⟨g₁, g₁', rfl, rfl⟩

theorem setPairs_eq (o : ObjectId) (pairs : List (String × String)) :
    (g.setPairs o pairs).result = (g'.setPairs o pairs).result ∧
      (g.setPairs o pairs).notes = (g'.setPairs o pairs).notes ∧
      (g.pairEvents o pairs).map Event.unplaced = (g'.pairEvents o pairs).map Event.unplaced := by
  induction pairs generalizing h h' g g' with
  | nil => exact ⟨rfl, rfl, rfl⟩
  | cons nv rest ih =>
    obtain ⟨n, v⟩ := nv
    rcases tw.setAttr?_cases o n v false with ⟨hw, hw'⟩ | ⟨g₁, g₁', hw, hw'⟩
    · obtain ⟨-, hnotes, hevents⟩ := ih tw
      simp only [Graph.setPairs, Graph.pairEvents, hw, hw', hnotes, hevents, and_self]
    · have tw₁ := tw.grow (.single (.write hw)) (.single (.write hw')) rfl
      obtain ⟨hresult, hnotes, hevents⟩ := ih tw₁
      simp only [Graph.setPairs, Graph.pairEvents, hw, hw', hresult, hnotes, List.map_cons,
        hevents, and_self]

theorem agree_create (request : Request kind) {s s' : Option TextsId} (hs : g.storable s)
    (hs' : g'.storable s') : g.Agree g' (.create request s) (.create request s') := by
  obtain ⟨hresult, hnotes, hevents⟩ := tw.create_eq request hs hs'
  exact ⟨by simp only [Graph.perform, hresult], hnotes, hevents⟩

/-- **A call agrees with itself, whatever arenas are given.** -/
theorem agree {c c' : Call} (hcc : c.unplaced = c'.unplaced) (hc : g.careful c)
    (hc' : g'.careful c') : g.Agree g' c c' := by
  rcases Call.unplaced_eq hcc with rfl | ⟨kind, request, s, s', rfl, rfl⟩
  · cases c with
    | create request s => exact tw.agree_create request hc hc'
    | free id => cases id <;> exact ⟨rfl, rfl, rfl⟩
    | setAttr o n v c =>
      rcases tw.setAttr?_cases o n v c with ⟨hw, hw'⟩ | ⟨g₁, g₁', hw, hw'⟩ <;>
        constructor <;> simp only [Graph.perform, Graph.events, hw, hw']
    | setAttrs o list =>
      rcases tw.object_cases o with ⟨ho, ho', -⟩ | ⟨_, _, _, _, _, _, -, -, -, ho, ho', -⟩
      · constructor <;> simp only [Graph.perform, Graph.setAttrs, Graph.events, ho, ho']
      · have hx := (Graph.open?_eq_some_iff.1 ho).1
        have hx' := (Graph.open?_eq_some_iff.1 ho').1
        rcases hp : Graph.pairs? list with _ | pairs
        · constructor <;> simp only [Graph.perform, Graph.setAttrs, Graph.events, hx, hx', hp]
        · obtain ⟨hresult, hnotes, hevents⟩ := tw.setPairs_eq o pairs
          constructor <;>
            simp only [Graph.perform, Graph.setAttrs, Graph.events, hx, hx', hp, hresult, hnotes,
              hevents]
  · exact tw.agree_create request hc hc'

/-- **A call keeps two graphs alike.** -/
theorem perform {c c' : Call} (hcc : c.unplaced = c'.unplaced) (hc : g.careful c)
    (hc' : g'.careful c') : Twins (h ++ g.events c) (h' ++ g'.events c') (g.perform c).graph
      (g'.perform c').graph := by
  have hevents := (tw.agree hcc hc hc').events
  rcases Call.unplaced_eq hcc with rfl | ⟨kind, request, s, s', rfl, rfl⟩
  · by_cases hfree : ∃ kind, ∃ id : EntityId kind, c = .free (some id)
    · obtain ⟨kind, id, rfl⟩ := hfree
      rw [Graph.events, Graph.events, List.append_nil, List.append_nil]
      exact tw.free hc hc'
    · have hne : ∀ kind (id : EntityId kind), c ≠ .free (some id) :=
        fun kind id h => hfree ⟨kind, id, h⟩
      exact tw.grow (g.growth_perform c hne) (g'.growth_perform c hne) hevents
  · exact tw.grow (g.growth_create request s) (g'.growth_create request s') hevents

/-- **Runs keep two graphs alike, with the same answers and the same words.** -/
theorem run {cs ds : List Call} (hcd : cs.map Call.unplaced = ds.map Call.unplaced)
    (hcs : g.carefulAll cs) (hds : g'.carefulAll ds) :
    g.replies cs = g'.replies ds ∧ g.said cs = g'.said ds ∧
      Twins (h ++ g.history cs) (h' ++ g'.history ds) (g.after cs) (g'.after ds) := by
  induction cs generalizing ds h h' g g' with
  | nil =>
    obtain rfl := List.map_eq_nil_iff.1 hcd.symm
    refine ⟨rfl, rfl, ?_⟩
    rw [Graph.history, Graph.history, List.append_nil, List.append_nil]
    exact tw
  | cons c cs ih =>
    rcases ds with _ | ⟨d, ds⟩
    · cases hcd
    obtain ⟨hcall, hcd⟩ := List.cons.inj hcd
    rw [Graph.carefulAll, Bool.and_eq_true] at hcs hds
    have hagree := tw.agree hcall hcs.1 hds.1
    obtain ⟨hreplies, hsaid, htwins⟩ := ih (tw.perform hcall hcs.1 hds.1) hcd hcs.2 hds.2
    refine ⟨?_, ?_, ?_⟩
    · rw [Graph.replies, Graph.replies, hagree.result, hreplies]
    · rw [Graph.said, Graph.said, hagree.notes, hsaid]
    · rw [Graph.history, Graph.history, ← List.append_assoc, ← List.append_assoc]
      exact htwins

end Twins

/-! ## The storage of designs -/

/-- What can be compared of entities in two graphs is the same: data as they are, handles
    by their texts. -/
structure Graph.Akin (g g' : Graph) {kind : Kind} (e e' : Entity kind) : Prop where
  object : e.object = e'.object
  name : g.nameOf e = g'.nameOf e'
  id : g.idOf e = g'.idOf e'
  data : e.data.blank = e'.data.blank
  texts : e.data.handles.map (g.resolve e) = e'.data.handles.map (g'.resolve e')

/-- Graphs that differ in arenas and handles only. -/
structure Graph.Alike (g g' : Graph) : Prop where
  live : ∀ {kind : Kind} (id : EntityId kind), (g.entity? id).isSome = (g'.entity? id).isSome
  akin : ∀ {kind : Kind} (id : EntityId kind) e e', g.entity? id = some e →
    g'.entity? id = some e' → g.Akin g' e e'
  payload : ∀ o, (g.objects.get? o).map (·.payload) = (g'.objects.get? o).map (·.payload)
  size : ∀ o, (g.objects.get? o).map (·.attributes.size) =
    (g'.objects.get? o).map (·.attributes.size)
  attr : ∀ o n, g.attr? o n = g'.attr? o n
  constant : ∀ o n, g.isConstant o n = g'.isConstant o n
  objectId : ∀ o, g.objectId o = g'.objectId o
  objectName : ∀ o, g.objectName o = g'.objectName o
  /-- So are the ids that are given out next. -/
  nextObject : g.objects.nextId = g'.objects.nextId
  nextEntity : ∀ kind, (g.tables.get kind).nextId = (g'.tables.get kind).nextId

/-- Whoever two modules have appointed is their first instance in both. -/
theorem appointed_eq (l : Logger) {cs ds : List Call}
    (tw : Twins (history cs) (history ds) (Design.after l cs).graph (Design.after l ds).graph)
    {kind : Kind} {id : EntityId kind} {e e' : Entity kind}
    (he : (Design.after l cs).graph.entity? id = some e)
    (he' : (Design.after l ds).graph.entity? id = some e') :
    Data.appointed e.data = Data.appointed e'.data := by
  cases kind with
  | module =>
    have hflag := Link.isSome_members_congr .decls (tw.kin (r := ⟨.module, id⟩) he he').bare
    rw [Link.isSome_members (by decide), Link.isSome_members (by decide), Bool.not_inj_iff] at hflag
    rcases hres : e.data.isResource with _ | _
    · obtain ⟨i, hi, hfirst⟩ := exists_represents l he hres
      obtain ⟨i', hi', hfirst'⟩ := exists_represents l he' (hflag.symm.trans hres)
      have hchildren := hfirst'.first
      rw [← tw.children_eq, hfirst.first] at hchildren
      exact hi.trans (hchildren.trans hi'.symm)
    · exact (Module.defaultInstance_of_isResource hres).trans
        (Module.defaultInstance_of_isResource (hflag.symm.trans hres)).symm
  | _ => rfl

theorem alike_of_twins (l : Logger) {cs ds : List Call}
    (tw : Twins (history cs) (history ds) (Design.after l cs).graph (Design.after l ds).graph) :
    (Design.after l cs).graph.Alike (Design.after l ds).graph where
  live id := Bool.eq_iff_iff.2 (tw.live ⟨_, id⟩)
  akin id _ _ he he' :=
    have hkin := tw.kin (r := ⟨_, id⟩) he he'
    ⟨hkin.object, hkin.name, hkin.id,
      Data.blank_congr hkin.bare hkin.lists (appointed_eq l tw he he'), hkin.texts⟩
  payload := tw.payload_eq
  size o := (tw.attributes_eq o).2.2
  attr o := (tw.attributes_eq o).1
  constant o := (tw.attributes_eq o).2.1
  objectId o := (tw.texts_eq o).2
  objectName o := (tw.texts_eq o).1
  nextObject := tw.nextId_objects
  nextEntity := tw.nextId_tables

/-- What two sequences of calls on empty designs have in common: the answers, and at any
    time the design up to its arenas, and the logger. -/
structure Design.Indistinct (l : Logger) (cs ds : List Call) : Prop where
  replies : (Design.run { logger := l } cs).1 = (Design.run { logger := l } ds).1
  logger : ∀ n, (after l (cs.take n)).logger = (after l (ds.take n)).logger
  graph : ∀ n, (after l (cs.take n)).graph.Alike (after l (ds.take n)).graph

/-- **In which arenas texts are kept does not show**, as long as those given are there, and
    none goes before those who borrow it. -/
theorem storage_is_invisible (l : Logger) (cs ds : List Call)
    (hcd : cs.map Call.unplaced = ds.map Call.unplaced) (hcs : Graph.empty.carefulAll cs)
    (hds : Graph.empty.carefulAll ds) : Design.Indistinct l cs ds := by
  have htake : ∀ n, Graph.empty.said (cs.take n) = Graph.empty.said (ds.take n) ∧
      Twins (history (cs.take n)) (history (ds.take n)) (Design.after l (cs.take n)).graph
        (Design.after l (ds.take n)).graph := by
    intro n
    have hcd' : (cs.take n).map Call.unplaced = (ds.take n).map Call.unplaced := by
      rw [List.map_take, List.map_take, hcd]
    rw [Design.graph_after, Design.graph_after]
    exact (Twins.empty.run hcd' (Graph.carefulAll_take hcs n) (Graph.carefulAll_take hds n)).2
  refine ⟨?_, ?_, ?_⟩
  · rw [Design.replies_run, Design.replies_run]
    exact (Twins.empty.run hcd hcs hds).1
  · intro n
    rw [Design.after, Design.after, Design.logger_run, Design.logger_run]
    exact congrArg _ (congrArg _ (htake n).1)
  · intro n
    exact alike_of_twins l (htake n).2

/-- A module with a port and a declaration that are given an arena; the port is taken out
    again. -/
def hierarchy (s : Option TextsId) : List Call :=
  [.create (.module "top" false false) none, .create (.port "clk" .input ⟨0⟩) s,
    .create (.decl "busy" (some "0") true ⟨0⟩) s, .setAttr ⟨3⟩ "note" "registered" false,
    .free (some (⟨0⟩ : EntityId .port))]

/-- The texts of the declaration can be kept with those of the module, or apart. -/
theorem hierarchy_storage_is_invisible :
    (Graph.empty.carefulAll (hierarchy (some ⟨0⟩)) ∧ Graph.empty.carefulAll (hierarchy none)) ∧
      (Graph.empty.after (hierarchy (some ⟨0⟩))).storageCount = 2 ∧
      (Graph.empty.after (hierarchy none)).storageCount = 3 ∧
      Design.Indistinct {} (hierarchy (some ⟨0⟩)) (hierarchy none) := by
  have hshared : Graph.empty.carefulAll (hierarchy (some ⟨0⟩)) := by decide +kernel
  have hapart : Graph.empty.carefulAll (hierarchy none) := by decide +kernel
  refine ⟨⟨hshared, hapart⟩, by decide +kernel, by decide +kernel, ?_⟩
  exact storage_is_invisible {} _ _ rfl hshared hapart

/-- It does show if an arena goes before the one that borrows it. -/
example : let calls (s : Option TextsId) : List Call := [.create (.module "top" false true) none,
      .create (.port "clk" .input ⟨0⟩) s, .free (some (⟨0⟩ : EntityId .module))]
    (Graph.empty.after (calls (some ⟨0⟩))).objectName ⟨1⟩ = none ∧
      (Graph.empty.after (calls none)).objectName ⟨1⟩ = some "clk" := by
  decide +kernel

end DesignGraph
