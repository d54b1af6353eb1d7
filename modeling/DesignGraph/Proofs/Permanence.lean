/-
  Permanence — no id is given out twice, and nothing that is gone comes back.

  Arenas, objects and the entities of each kind have tables of their own; all that
  follows is said of them at once, by the id and the table that it is of (`Place`).

  * `Graph.Given` and `Graph.holds`: an id was given out, and something is there under
    it; `Birth.takes` and `taken` are the ids that a birth, or events, give out;
  * `Step.given_iff`: a step gives out what it takes, and nothing else;
    `Step.not_given_of_taken`: that was not given out before; hence no id is taken twice
    (`Reached.nodup_taken`);
  * `Graph.Later.not_holds`: a place that is empty stays empty;
  * `Graph.sublist_replies`: what calls return is among what they take, in order;
  * `nothing_comes_back` is what follows for designs.
-/
import DesignGraph.Proofs.Frame
import DesignGraph.Proofs.Likeness
import DesignGraph.Proofs.Reports

namespace DesignGraph

/-! ## Ids of all tables -/

/-- An id and the table that it is of. -/
structure Place where
  {pool : Pool}
  id : Id pool
deriving DecidableEq

/-- The place of an entity. -/
def EntityRef.place (r : EntityRef) : Place := ⟨r.id⟩

theorem EntityRef.place_inj {r r' : EntityRef} : r.place = r'.place ↔ r = r' := by
  obtain ⟨kind, id⟩ := r
  obtain ⟨kind', id'⟩ := r'
  constructor
  · intro h
    cases h
    rfl
  · rintro ⟨⟩
    rfl

/-- The places that a birth fills. -/
def Birth.takes (b : Birth) : List Place :=
  b.ref.place :: ⟨b.object⟩ :: match b.storage with
    | .owned s => [⟨s⟩]
    | .borrowed _ => []

/-- The places that events fill, in order. -/
def taken (h : List Event) : List Place := (births h).flatMap Birth.takes

/-- The entity that a call has returned, if it has. -/
def Reply.entity? : Reply → Option EntityRef
  | created r => r
  | done | written _ => none

namespace Graph

/-- The id that a table gives out next. -/
def next (g : Graph) : (pool : Pool) → Id pool
  | .texts => g.texts.nextId
  | .objects => g.objects.nextId
  | .entities kind => (g.tables.get kind).nextId

/-- Whether there is something under an id. -/
def holds (g : Graph) : {pool : Pool} → Id pool → Bool
  | .texts, s => (g.texts.get? s).isSome
  | .objects, o => (g.objects.get? o).isSome
  | .entities _, id => (g.entity? id).isSome

/-- The table of the id has given it out. -/
def Given (g : Graph) {pool : Pool} (i : Id pool) : Prop := i.index < (g.next pool).index

variable {g g' : Graph} {pool : Pool} {i : Id pool}

theorem given_of_holds (hi : g.holds i) : g.Given i := by
  cases pool with
  | texts | objects | entities =>
    obtain ⟨a, ha⟩ := Option.isSome_iff_exists.1 hi
    exact Slots.issued_of_get? ha

end Graph

/-! ## What is given out -/

namespace Birth

variable {b : Birth}

theorem mem_takes_texts {s : TextsId} : ⟨s⟩ ∈ b.takes ↔ b.storage = .owned s := by
  unfold takes
  rcases b.storage with t | t <;> simp [EntityRef.place, eq_comm (a := s)]

theorem mem_takes_objects {o : ObjectId} : ⟨o⟩ ∈ b.takes ↔ b.object = o := by
  unfold takes
  rcases b.storage with t | t <;> simp [EntityRef.place, eq_comm (a := o)]

theorem mem_takes_entities {r : EntityRef} : r.place ∈ b.takes ↔ b.ref = r := by
  have hobject : r.place ≠ ⟨b.object⟩ := by simp [EntityRef.place]
  unfold takes
  rcases b.storage with t | t
  · have htexts : r.place ≠ ⟨t⟩ := by simp [EntityRef.place]
    simp [hobject, htexts, EntityRef.place_inj, eq_comm (a := r)]
  · simp [hobject, EntityRef.place_inj, eq_comm (a := r)]

/-- A birth fills one place of a table at most. -/
theorem nodup_takes (b : Birth) : b.takes.Nodup := by
  unfold takes
  split <;> simp [EntityRef.place]

end Birth

theorem taken_append (h k : List Event) : taken (h ++ k) = taken h ++ taken k := by
  rw [taken, births_append, List.flatMap_append]; rfl

theorem taken_birth (b : Birth) : taken [.birth b] = b.takes := List.append_nil _

namespace Graph

variable {g g' : Graph} {pool : Pool} {i : Id pool} {kind : Kind}

theorem Grant.given_iff {request : Request kind} {storage : Option TextsId}
    (gr : g.Grant request storage) : (g.install gr.draft).2.Given i ↔
      g.Given i ∨ ⟨i⟩ ∈ (g.birth request storage).takes := by
  cases pool with
  | texts =>
    rw [Birth.mem_takes_texts]
    refine Iff.trans gr.issued_texts ?_
    rcases storage with _ | s
    · exact or_congr_right (by simp [birth, StorageHandle.id, eq_comm])
    · -- a borrowed arena was given out to its owner
      obtain ⟨a, ha, -⟩ := Option.map_eq_some_iff.1 gr.site_eq
      have hgiven : g.texts.Issued s := Slots.issued_of_get? ha
      constructor
      · rintro (hi | rfl)
        · exact Or.inl hi
        · exact Or.inl hgiven
      · rintro (hi | hi)
        · exact Or.inl hi
        · cases hi
  | objects =>
    rw [Birth.mem_takes_objects, Given, next, objects_install]
    exact Slots.issued_alloc.trans (or_congr_right eq_comm)
  | entities k =>
    rw [show (⟨i⟩ : Place) = EntityRef.place ⟨k, i⟩ from rfl, Birth.mem_takes_entities]
    exact (issued_install gr.draft (r := ⟨k, i⟩)).trans (or_congr_right eq_comm)

theorem WriteEffect.given_iff {o : ObjectId} {w : Write} (ef : g.WriteEffect o w g') :
    g'.Given i ↔ g.Given i := by
  cases pool with
  | texts => exact ef.issued_texts
  | objects => exact ef.issued_objects
  | entities kind => rw [Given, next, ef.tables_eq]; rfl

theorem given_appoint (m : EntityId .module) (d : Option (EntityId .inst)) :
    (g.modifyData m (·.appoint d)).Given i ↔ g.Given i := by
  cases pool with
  | texts | objects => rfl
  | entities kind => exact issued_modifyData (r := ⟨kind, i⟩) m _

theorem given_free (id : EntityId kind) : (g.free id).Given i ↔ g.Given i := by
  rcases he : g.entity? id with _ | e
  · rw [free_of_none he]
  · cases pool with
    | texts => rw [Given, next, nextId_texts_free he]; rfl
    | objects => rw [Given, next, nextId_objects_free he]; rfl
    | entities k => rw [Given, next, nextId_tables_free he]; rfl

/-- What a birth takes is next in its tables. -/
theorem not_given_of_takes {request : Request kind} {storage : Option TextsId}
    (hi : ⟨i⟩ ∈ (g.birth request storage).takes) : ¬ g.Given i := by
  cases pool with
  | texts =>
    have hs := Birth.mem_takes_texts.1 hi
    rcases storage with _ | s
    · cases hs
      exact g.texts.not_issued_nextId
    · cases hs
  | objects =>
    obtain rfl := Birth.mem_takes_objects.1 hi
    exact g.objects.not_issued_nextId
  | entities k =>
    cases Birth.mem_takes_entities (r := ⟨k, i⟩).1 hi
    exact Slots.not_issued_nextId _

end Graph

section
variable {g g' : Graph} {h es : List Event} {pool : Pool} {i : Id pool}

/-- **A step gives out what its births take, and nothing else.** -/
theorem Step.given_iff (hs : Step g es g') : g'.Given i ↔ g.Given i ∨ ⟨i⟩ ∈ taken es := by
  have hquiet : ∀ {p : Prop}, p ↔ p ∨ (⟨i⟩ : Place) ∈ [] := by simp
  cases hs with
  | free id => exact (Graph.given_free id).trans hquiet
  | grow hs =>
    cases hs with
    | build gr =>
      rw [taken_birth]
      exact gr.given_iff
    | appoint m d => exact (Graph.given_appoint m d).trans hquiet
    | write hw =>
      obtain ⟨ef⟩ := Graph.writeEffect hw
      exact ef.given_iff.trans hquiet

/-- What a step takes was not given out before. -/
theorem Step.not_given_of_taken (hs : Step g es g') (hi : ⟨i⟩ ∈ taken es) : ¬ g.Given i := by
  obtain ⟨b, hb, hi⟩ := List.mem_flatMap.1 hi
  obtain ⟨kind, request, storage, gr, rfl, -⟩ := hs.grant_of_birth hb
  exact Graph.not_given_of_takes hi

theorem Step.nodup_taken (hs : Step g es g') : (taken es).Nodup := by
  cases hs with
  | free id => exact List.nodup_nil
  | grow hs =>
    cases hs with
    | build gr =>
      rw [taken_birth]
      exact Birth.nodup_takes _
    | appoint m d => exact List.nodup_nil
    | write hw => exact List.nodup_nil

namespace Steps

theorem given_iff (hs : Steps Step g es g') : g'.Given i ↔ g.Given i ∨ ⟨i⟩ ∈ taken es := by
  induction hs with
  | refl => simp [taken, births]
  | step _ hstep ih => rw [hstep.given_iff, ih, taken_append, List.mem_append, or_assoc]

theorem not_given_of_taken (hs : Steps Step g es g') (hi : ⟨i⟩ ∈ taken es) : ¬ g.Given i := by
  induction hs with
  | refl => cases hi
  | step hs hstep ih =>
    rw [taken_append, List.mem_append] at hi
    rcases hi with hi | hi
    · exact ih hi
    · exact fun hg => hstep.not_given_of_taken hi (hs.given_iff.2 (Or.inl hg))

/-- No id is taken twice. -/
theorem nodup_taken (hs : Steps Step g es g') : (taken es).Nodup := by
  induction hs with
  | refl => exact List.nodup_nil
  | step hs hstep ih =>
    rw [taken_append, List.nodup_append]
    refine ⟨ih, hstep.nodup_taken, ?_⟩
    rintro x hx y hy rfl
    exact hstep.not_given_of_taken hy (hs.given_iff.2 (Or.inr hx))

end Steps

/-- What was given out was taken. -/
theorem Reached.given_iff (hg : Reached h g) : g.Given i ↔ ⟨i⟩ ∈ taken h := by
  refine (Steps.given_iff hg).trans (or_iff_right ?_)
  cases pool with
  | texts | objects => exact Nat.not_lt_zero _
  | entities kind => cases kind <;> exact Nat.not_lt_zero _

/-! ## What is there -/

namespace Graph.Later

variable (hl : g.Later g')
include hl

theorem given (hi : g.Given i) : g'.Given i := by
  cases pool with
  | texts => exact hl.texts.issued i hi
  | objects => exact hl.objects.issued i hi
  | entities kind => exact hl.issued ⟨kind, i⟩ hi

/-- **A place that is empty stays empty.** -/
theorem not_holds (hi : g.Given i) (hgone : ¬ g.holds i) : ¬ g'.holds i := by
  intro hholds
  refine hgone ?_
  cases pool with
  | texts =>
    obtain ⟨b, hb⟩ := Option.isSome_iff_exists.1 hholds
    obtain ⟨a, ha, -⟩ := hl.texts.held i b hi hb
    exact Option.isSome_iff_exists.2 ⟨a, ha⟩
  | objects =>
    obtain ⟨x, hx⟩ := Option.isSome_iff_exists.1 hholds
    obtain ⟨y, hy, -⟩ := hl.objects.held i x hi hx
    exact Option.isSome_iff_exists.2 ⟨y, hy⟩
  | entities kind =>
    obtain ⟨e, he⟩ := Option.isSome_iff_exists.1 hholds
    have hbare := hl.entities i e.bare hi (bare?_of_entity? he)
    obtain ⟨f, hf, -⟩ := Option.map_eq_some_iff.1 hbare
    exact Option.isSome_iff_exists.2 ⟨f, hf⟩

end Graph.Later

/-- What was taken by steps that take nothing out is there after them. -/
theorem Reached.holds_of_taken (hg : Reached h g) (hs : Steps Growth g es g')
    (hi : ⟨i⟩ ∈ taken es) : g'.holds i := by
  obtain ⟨b, hb, hi⟩ := List.mem_flatMap.1 hi
  obtain ⟨x, hx, hstorage⟩ := hs.born hb
  cases pool with
  | texts =>
    have howned := hstorage.trans (Birth.mem_takes_texts.1 hi)
    exact (Reached.registered (Steps.trans hg hs.ofGrowth)).arena _ x i hx howned
  | objects =>
    obtain rfl := Birth.mem_takes_objects.1 hi
    exact Option.isSome_iff_exists.2 ⟨x, hx⟩
  | entities kind =>
    exact (hs.live_iff ⟨kind, i⟩).2 (Or.inr ⟨b, hb, Birth.mem_takes_entities.1 hi⟩)

end

/-! ## What calls return -/

/-- What a call has taken is there after it. -/
theorem Reached.holds_of_events {g : Graph} {h : List Event} (hg : Reached h g) {c : Call}
    {pool : Pool} {i : Id pool} (hi : ⟨i⟩ ∈ taken (g.events c)) : (g.perform c).graph.holds i := by
  refine hg.holds_of_taken (g.growth_perform c ?_) hi
  rintro kind id rfl
  cases hi

namespace Graph

theorem place_mem_taken (g : Graph) {c : Call} {r : EntityRef}
    (hr : (g.perform c).result.entity? = some r) : r.place ∈ taken (g.events c) := by
  cases c with
  | create request storage =>
    obtain ⟨id, hid, rfl⟩ := Option.map_eq_some_iff.1 hr
    rcases g.create_cases request storage with ⟨hnone, -⟩ | ⟨gr, hresult, k, hevents, -⟩
    · rw [hnone] at hid
      cases hid
    · rw [hresult] at hid
      cases hid
      rw [events, hevents, ← List.singleton_append, taken_append, taken_birth]
      exact List.mem_append_left _ (List.mem_cons_self ..)
  | free id => rcases id with _ | id <;> cases hr
  | setAttr o n v c =>
    rw [perform_setAttr_result] at hr
    cases hr
  | setAttrs o list => cases hr

/-- What calls return is among what they take, in the same order. -/
theorem sublist_replies (g : Graph) (cs : List Call) :
    (((g.replies cs).filterMap Reply.entity?).map EntityRef.place).Sublist
      (taken (g.history cs)) := by
  induction cs generalizing g with
  | nil => exact .slnil
  | cons c cs ih =>
    rw [replies, history, taken_append]
    rcases hr : (g.perform c).result.entity? with _ | r
    · rw [List.filterMap_cons_none hr]
      exact (ih _).trans (List.sublist_append_right ..)
    · rw [List.filterMap_cons_some hr, List.map_cons, ← List.singleton_append]
      exact (List.singleton_sublist.2 (g.place_mem_taken hr)).append (ih _)

end Graph

/-! ## Texts that are gone -/

section
variable {g g' : Graph} {h k : List Event} {kind : Kind} {o : ObjectId}

/-- An object that cannot be read will never be read again. -/
theorem Registered.open?_eq_none (hr : Registered h g) (hl : g.Later g')
    (ho : g.objects.Issued o) (hnone : g.open? o = none) : g'.open? o = none := by
  rcases hopen : g'.open? o with _ | ⟨x', a'⟩
  · rfl
  · obtain ⟨x, a, hxa, -⟩ := hr.open?_of_later hl ho hopen
    rw [hnone] at hxa
    cases hxa

theorem Graph.open?_eq_none_of_borrows {s : TextsId} (hs : g.Borrows o s)
    (hgone : g.texts.get? s = none) :
    g.open? o = none := by
  obtain ⟨x, hx, hstorage⟩ := hs
  rw [open?, hx, Option.bind_some, hstorage, StorageHandle.id, hgone]
  rfl

/-- Nothing is written to an object that cannot be read. -/
theorem Design.perform_setAttr_of_none {d : Design} (hnone : d.graph.open? o = none)
    (n v : String) (c : Bool) : d.perform (.setAttr o n v c) = (.written false, d) := by
  rw [perform, Graph.perform, Graph.setAttr?_eq_none_iff.2 (Or.inl hnone)]
  rfl

/-- An entity keeps its object. -/
theorem Graph.Later.object_eq (hl : g.Later g') {id : EntityId kind} {e e' : Entity kind}
    (he : g.entity? id = some e) (he' : g'.entity? id = some e') : e'.object = e.object := by
  have hbare := hl.entities id e'.bare (issued_of_entity? he) (bare?_of_entity? he')
  rw [bare?_of_entity? he] at hbare
  exact (congrArg Entity.object (Option.some.inj hbare)).symm

/-- A handle keeps its text, until the arena of the entity is gone. -/
theorem Reached.resolve_later (hg : Reached h g) (hs : Steps Step g k g') {id : EntityId kind}
    {e e' : Entity kind} (he : g.entity? id = some e) (he' : g'.entity? id = some e') {x : Object}
    (hx : g.objects.get? e.object = some x) {s : Sym} {t : String} (ht : g.resolve e s = some t) :
    g'.resolve e' s = if (g'.texts.get? x.storage.id).isSome then some t else none := by
  have hl := hs.later
  have ha := Reached.aligned (Steps.trans hg hs)
  obtain ⟨y, hy, -⟩ := ha.object id e'.bare (Graph.bare?_of_entity? he')
  have hy : g'.objects.get? e.object = some y := hl.object_eq he he' ▸ hy
  obtain ⟨x', hx', hsame⟩ := hl.objects.held _ y (Slots.issued_of_get? hx) hy
  obtain rfl : x = x' := Option.some.inj (hx.symm.trans hx')
  rw [Graph.resolve, Graph.open?, hx, Option.bind_some] at ht
  rw [Graph.resolve, hl.object_eq he he', Graph.open?, hy, Option.bind_some, ← hsame.storage]
  rcases hb : g'.texts.get? x.storage.id with _ | b
  · rfl
  · obtain ⟨a, ha, hext⟩ := hl.texts.held _ b (hg.registered.issued_storage hx) hb
    rw [ha] at ht
    exact hext s t ht

end

/-! ## The ids of designs -/

/-- What becomes of the ids and the handles of a design after some calls. -/
structure Design.Permanence (l : Logger) (cs : List Call) : Prop where
  /-- What was given out was taken by births, each id by one of them. -/
  given : ∀ {pool : Pool} (i : Id pool),
    (after l cs).graph.Given i ↔ ⟨i⟩ ∈ taken (history cs)
  once : (taken (history cs)).Nodup
  /-- What the next call takes was never there before, nor given out, and is there then. -/
  fresh : ∀ c {pool : Pool} (i : Id pool), ⟨i⟩ ∈ taken ((after l cs).graph.events c) →
    (∀ q, q <+: cs → ¬ (after l q).graph.Given i ∧ ¬ (after l q).graph.holds i) ∧
      (after l (cs ++ [c])).graph.holds i
  /-- What it returns is among what it takes, and no call returns what another one did. -/
  returned : ∀ c r, ((after l cs).perform c).1.entity? = some r →
    r.place ∈ taken ((after l cs).graph.events c)
  distinct : ((Design.run { logger := l } cs).1.filterMap Reply.entity?).Nodup
  /-- What was given out, and is not there, will never be there again. -/
  gone : ∀ q, q <+: cs → ∀ {pool : Pool} (i : Id pool), (after l q).graph.Given i →
    ¬ (after l cs).graph.holds i → ∀ ds, ¬ (after l (cs ++ ds)).graph.holds i
  /-- A borrower that has lost its arena is never read or written to again. -/
  borrower : ∀ {kind : Kind} (id : EntityId kind) e s, (after l cs).graph.entity? id = some e →
    (after l cs).graph.Borrows e.object s → (after l cs).graph.texts.get? s = none → ∀ ds,
      (after l (cs ++ ds)).graph.NoTexts e.object ∧
      (∀ e', (after l (cs ++ ds)).graph.entity? id = some e' → e'.object = e.object) ∧
      ∀ n v c, (after l (cs ++ ds)).perform (.setAttr e.object n v c) =
        (.written false, after l (cs ++ ds))
  /-- A handle names one text of its arena, whatever is stored there or elsewhere. -/
  handle : ∀ s a h t, (after l cs).graph.texts.get? s = some a → a.resolve h = some t →
    ∀ ds a', (after l (cs ++ ds)).graph.texts.get? s = some a' → a'.resolve h = some t
  /-- Read by an entity, it names the same text until the arena is gone. -/
  resolve : ∀ {kind : Kind} (id : EntityId kind) e x, (after l cs).graph.entity? id = some e →
    (after l cs).graph.objects.get? e.object = some x →
    ∀ h t, (after l cs).graph.resolve e h = some t →
      ∀ ds e', (after l (cs ++ ds)).graph.entity? id = some e' →
        (after l (cs ++ ds)).graph.resolve e' h =
          if ((after l (cs ++ ds)).graph.texts.get? x.storage.id).isSome then some t else none

/-- **Whatever the calls, no id is given out twice, and nothing that is gone comes back.** -/
theorem nothing_comes_back (l : Logger) (cs : List Call) : Design.Permanence l cs := by
  have hg := reached_after l cs
  refine ⟨fun i => hg.given_iff, Steps.nodup_taken hg, ?_, ?_, ?_, ?_, ?_, ?_, ?_⟩
  · intro c pool i hi
    constructor
    · rintro q ⟨ds, rfl⟩
      have hs := (steps_after_append l q ds).trans (Graph.steps_perform _ c)
      have hnew := hs.not_given_of_taken (by rw [taken_append]; exact List.mem_append_right _ hi)
      exact ⟨hnew, fun hholds => hnew (Graph.given_of_holds hholds)⟩
    · rw [Design.graph_after_concat]
      exact hg.holds_of_events hi
  · intro c r hr
    exact Graph.place_mem_taken _ hr
  · rw [Design.replies_run]
    refine List.Nodup.of_map EntityRef.place ?_
    exact (Graph.sublist_replies _ cs).nodup (Steps.nodup_taken hg)
  · rintro q ⟨es, rfl⟩ pool i hi hgone ds
    have hi := (steps_after_append l q es).later.given hi
    exact (steps_after_append l (q ++ es) ds).later.not_holds hi hgone
  · intro kind id e s he hs hgone ds
    have hl := (steps_after_append l cs ds).later
    have hissued : (Design.after l cs).graph.objects.Issued e.object := by
      obtain ⟨x, hx, -⟩ := hs
      exact Slots.issued_of_get? hx
    have hnone := hg.registered.open?_eq_none hl hissued (Graph.open?_eq_none_of_borrows hs hgone)
    exact ⟨Graph.noTexts_of_open? hnone, fun e' he' => hl.object_eq he he',
      Design.perform_setAttr_of_none hnone⟩
  · intro s a h t ha ht ds a' ha'
    obtain ⟨b, hb, hext⟩ :=
      (steps_after_append l cs ds).later.texts.held s a' (Slots.issued_of_get? ha) ha'
    rw [ha] at hb
    cases hb
    exact hext h t ht
  · intro kind id e x he hx h t ht ds e' he'
    exact hg.resolve_later (steps_after_append l cs ds) he he' hx ht

/-- The second module does not get the place, the object or the arena of the first. -/
example : let g := Graph.empty.after [.create (.module "cpu" false true) none,
      .free (some (⟨0⟩ : EntityId .module)), .create (.module "ram" false true) none]
    g.holds (⟨0⟩ : EntityId .module) = false ∧ g.objectName ⟨1⟩ = some "ram" ∧
      g.holds (⟨1⟩ : TextsId) = true := by
  decide +kernel

end DesignGraph
