/-
  Likeness — what two graphs have in common in which the same happened, though texts
  were kept in other arenas.

  A history says nothing of arenas but with which one each entity was born
  (`Event.unplaced` leaves that out).  Two graphs with the same history, up to that, in
  which the same is left and every object has its texts, answer alike.

  * `Data.blank` and `Data.handles` split data into what can be compared as it is and
    what has to be compared by its texts; data that fit one request agree in both
    (`Request.Fits.unique`);
  * `Graph.Whole`: every object has its texts;
  * `Reached.issued_iff`, `Growth.live_iff`: ids are given out, and places filled, by
    births;
  * `Twins h h' g g'` relates the two graphs; `Twins.entity_cases` and
    `Twins.object_cases` compare their entities and objects.
-/
import DesignGraph.Proofs.Generative

namespace DesignGraph

/-! ## Data without handles -/

/-- The handles among the data of an entity. -/
def Data.handles : {kind : Kind} → Data kind → List Sym
  | .param, p => [p.value]
  | .decl, d => d.assignment.toList
  | .code, c => [c.code]
  | .pin, p => [p.connection]
  | .adjustment, a => [a.value]
  | .port, _ | .module, _ | .inst, _ | .register, _ | .entry, _ | .regfile, _ => []

/-- The data of an entity with a blank for every handle. -/
def Data.blank : {kind : Kind} → Data kind → Data kind
  | .param, p => { p with value := default }
  | .decl, d => { d with assignment := d.assignment.map fun _ => default }
  | .code, c => { c with code := default }
  | .pin, p => { p with connection := default }
  | .adjustment, a => { a with value := default }
  | .port, p => p
  | .module, m => m
  | .inst, i => i
  | .register, r => r
  | .entry, e => e
  | .regfile, r => r

/-- The instance that a module has appointed. -/
def Data.appointed : {kind : Kind} → Data kind → Option (EntityId .inst)
  | .module, m => m.defaultInstance
  | _, _ => none

section
variable {kind member : Kind} {d d' : Data kind}

/-- What fits a request is the same up to handles, and so are the texts of the handles. -/
theorem Request.Fits.unique {request : Request kind} {text text' : Sym → Option String}
    (h : request.Fits text d) (h' : request.Fits text' d') :
    d.bare.blank = d'.bare.blank ∧ d.handles.map text = d'.handles.map text' := by
  cases request with
  | module =>
    obtain ⟨ilm, _, _, _, body⟩ := d
    obtain ⟨ilm', _, _, _, body'⟩ := d'
    obtain ⟨rfl, rfl⟩ := h
    obtain ⟨rfl, hbody⟩ := h'
    rcases body with _ | b <;> rcases body' with _ | b' <;> first
      | exact ⟨rfl, rfl⟩
      | cases hbody
  | decl =>
    obtain ⟨s, _, _⟩ := d
    obtain ⟨s', _, _⟩ := d'
    obtain ⟨hs, rfl, rfl⟩ := h
    obtain ⟨hs', rfl, rfl⟩ := h'
    have htexts := hs.trans hs'.symm
    rcases s with _ | s <;> rcases s' with _ | s'
    · exact ⟨rfl, rfl⟩
    · cases htexts
    · cases htexts
    · exact ⟨rfl, congrArg ([·]) (Option.some.inj htexts)⟩
  | _ =>
    cases d
    cases d'
    simp_all [Fits, Data.bare, Data.blank, Data.handles]

/-- Which lists there are shows without collections, too. -/
theorem Link.isSome_members_congr (l : Link kind member) (h : d.bare.blank = d'.bare.blank) :
    (l.members d).isSome = (l.members d').isSome := by
  cases l <;> first
    | rfl
    | have hbody := congrArg (fun m : Module => m.body.isSome) h
      simpa only [Data.bare, Data.blank, Option.isSome_map, members] using hbody

/-- Data are the same up to handles if their parts are. -/
theorem Data.blank_congr (h : d.bare.blank = d'.bare.blank)
    (hlists : ∀ {member : Kind} (l : Link kind member), l.members d = l.members d')
    (hi : Data.appointed d = Data.appointed d') : d.blank = d'.blank := by
  cases kind with
  | module =>
    obtain ⟨ilm, params, ports, uses, body⟩ := d
    obtain ⟨ilm', params', ports', uses', body'⟩ := d'
    obtain rfl : ilm = ilm' := congrArg Module.ilm h
    cases hlists .params
    cases hlists .ports
    cases hlists .uses
    have hsome : body.isSome = body'.isSome := by
      simpa only [Link.members, Option.isSome_map] using congrArg Option.isSome (hlists .decls)
    rcases body with _ | ⟨decls, code, contents, regfiles, i⟩ <;>
      rcases body' with _ | ⟨decls', code', contents', regfiles', i'⟩
    · rfl
    · cases hsome
    · cases hsome
    · cases hlists .decls
      cases hlists .code
      cases hlists .contents
      cases hlists .regfiles
      obtain rfl : i = i' := hi
      rfl
  | inst =>
    obtain ⟨target, parent, adjustments, pins⟩ := d
    obtain ⟨target', parent', adjustments', pins'⟩ := d'
    obtain rfl : target = target' := congrArg Instance.target h
    obtain rfl : parent = parent' := congrArg Instance.parent h
    cases hlists .adjustments
    cases hlists .pins
    rfl
  | entry =>
    obtain ⟨parent, registers⟩ := d
    obtain ⟨parent', registers'⟩ := d'
    obtain rfl : parent = parent' := congrArg RegfileEntry.parent h
    cases hlists .registers
    rfl
  | regfile =>
    obtain ⟨parent, entries⟩ := d
    obtain ⟨parent', entries'⟩ := d'
    obtain rfl : parent = parent' := congrArg Regfile.parent h
    cases hlists .entries
    rfl
  | port | pin | param | adjustment | decl | code | register => exact h

end

/-! ## Histories without arenas -/

namespace Birth

/-- The same birth, with another arena. -/
def placedIn (b : Birth) (s : StorageHandle) : Birth := { b with storage := s }

/-- The birth with a blank for the arena. -/
def unplaced (b : Birth) : Birth := b.placedIn (.owned ⟨0⟩)

theorem eq_placedIn {b c : Birth} (h : c.unplaced = b.unplaced) : c = b.placedIn c.storage :=
  congrArg (·.placedIn c.storage) h

end Birth

/-- The event with a blank for the arena. -/
def Event.unplaced : Event → Event
  | birth b => birth b.unplaced
  | write o w => write o w

theorem births_unplaced (h : List Event) :
    births (h.map Event.unplaced) = (births h).map Birth.unplaced := by
  rw [births, births, List.filterMap_map, List.map_filterMap]
  refine List.filterMap_congr fun ev _ => ?_
  cases ev <;> rfl

theorem children_unplaced (h : List Event) {owner member : Kind} (l : Link owner member)
    (o : EntityId owner) : children (h.map Event.unplaced) l o = children h l o := by
  rw [children, births_unplaced, List.filterMap_map]; rfl

theorem writesTo_unplaced (h : List Event) (o : ObjectId) :
    writesTo (h.map Event.unplaced) o = writesTo h o := by
  rw [writesTo, writesTo, List.flatMap_map]
  refine List.flatMap_congr fun ev _ => ?_
  cases ev <;> rfl

/-! ## What is left -/

/-- Every object has its texts. -/
def Graph.Whole (g : Graph) : Prop :=
  ∀ o x, g.objects.get? o = some x → (g.texts.get? x.storage.id).isSome

variable {g g' : Graph} {h h' es es' : List Event}

theorem Graph.Whole.isSome_open? (hw : g.Whole) (o : ObjectId) :
    (g.open? o).isSome = (g.objects.get? o).isSome := by
  rw [open?]
  rcases ho : g.objects.get? o with _ | x
  · rfl
  · rw [Option.bind_some, Option.isSome_map, hw o x ho]; rfl

theorem Graph.isSome_bare? {kind : Kind} (id : EntityId kind) :
    (g.bare? id).isSome = (g.entity? id).isSome := Option.isSome_map

theorem Growth.whole (hs : Growth g es g') (hw : g.Whole) : g'.Whole := by
  intro o x hx
  cases hs with
  | build gr =>
    rw [Graph.get?_objects_install] at hx
    split at hx
    · cases hx
      rw [gr.get?_texts, if_pos (congrArg StorageHandle.id gr.storage_eq)]
      rfl
    · exact gr.keeps.arena _ (hw o x hx)
  | appoint m i => exact hw o x hx
  | write hwrite =>
    obtain ⟨ef⟩ := Graph.writeEffect hwrite
    rw [ef.get?_objects] at hx
    refine ef.keeps.arena _ ?_
    split at hx
    · cases hx
      exact hw _ ef.object ef.object_eq
    · exact hw o x hx

theorem Growth.live_iff (hs : Growth g es g') (r : EntityRef) :
    (g'.entity? r.id).isSome ↔ (g.entity? r.id).isSome ∨ ∃ b ∈ births es, b.ref = r := by
  rw [← Graph.isSome_bare?, ← Graph.isSome_bare?]
  cases hs with
  | @build kind request storage gr =>
    have hborn : (∃ b ∈ births [.birth (g.birth request storage)], b.ref = r) ↔
        r = ⟨kind, (g.tables.get kind).nextId⟩ := by
      refine ⟨?_, fun hr => ⟨_, List.mem_singleton.2 rfl, hr.symm⟩⟩
      rintro ⟨b, hb, rfl⟩
      obtain rfl := List.mem_singleton.1 hb
      rfl
    rw [hborn]
    by_cases hr : r = ⟨kind, (g.tables.get kind).nextId⟩
    · subst hr
      rw [Graph.bare?_install_self]
      simp
    · rw [Graph.bare?_install_of_ne _ hr]
      simp [hr]
  | appoint m i =>
    rw [Graph.bare?_modifyData m (Module.bare_appoint · i)]
    simp [births]
  | write hw =>
    obtain ⟨ef⟩ := Graph.writeEffect hw
    rw [Graph.bare?_of_tables ef.tables_eq]
    simp [births, Event.birth?]

namespace Steps

theorem whole (hs : Steps Growth g es g') (hw : g.Whole) : g'.Whole := by
  induction hs with
  | refl => exact hw
  | step _ hstep ih => exact hstep.whole ih

theorem live_iff (hs : Steps Growth g es g') (r : EntityRef) :
    (g'.entity? r.id).isSome ↔ (g.entity? r.id).isSome ∨ ∃ b ∈ births es, b.ref = r := by
  induction hs with
  | refl => simp [births]
  | step _ hstep ih =>
    rw [hstep.live_iff, ih, or_assoc, births_append]
    simp only [List.mem_append, or_and_right, exists_or]

end Steps

/-! ## What was given out -/

/-- Only a birth takes an id. -/
theorem Step.issued_cases (hs : Step g es g') {r : EntityRef} (hr : g'.Issued r) :
    g.Issued r ∨ ∃ b ∈ births es, b.ref = r := by
  cases hs with
  | free id => exact Or.inl (Graph.issued_free.1 hr)
  | grow hs =>
    cases hs with
    | build gr =>
      exact ((Graph.issued_install _).1 hr).imp_right fun hr =>
        ⟨_, List.mem_singleton.2 rfl, hr.symm⟩
    | appoint m i => exact Or.inl ((Graph.issued_modifyData m _).1 hr)
    | write hw =>
      obtain ⟨ef⟩ := Graph.writeEffect hw
      rw [Graph.Issued, ef.tables_eq] at hr
      exact Or.inl hr

theorem Step.issued_object_cases (hs : Step g es g') {o : ObjectId} (ho : g'.objects.Issued o) :
    g.objects.Issued o ∨ ∃ b ∈ births es, b.object = o := by
  cases hs with
  | @free kind id =>
    rcases he : g.entity? id with _ | e
    · rw [Graph.free_of_none he] at ho
      exact Or.inl ho
    · rw [Graph.free_of_some he, Graph.objects_release] at ho
      exact Or.inl (Slots.issued_free.1 ho)
  | grow hs =>
    cases hs with
    | build gr =>
      rw [Graph.objects_install] at ho
      exact (Slots.issued_alloc.1 ho).imp_right fun ho => ⟨_, List.mem_singleton.2 rfl, ho.symm⟩
    | appoint m i => exact Or.inl ho
    | write hw =>
      obtain ⟨ef⟩ := Graph.writeEffect hw
      exact Or.inl (ef.issued_objects.1 ho)

namespace Reached

theorem issued_iff (hg : Reached h g) {r : EntityRef} :
    g.Issued r ↔ ∃ b ∈ births h, b.ref = r := by
  constructor
  · intro hr
    induction hg with
    | refl =>
      obtain ⟨kind, id⟩ := r
      cases kind <;> exact absurd hr (Nat.not_lt_zero _)
    | step _ hstep ih =>
      simp only [births_append, List.mem_append, or_and_right, exists_or]
      exact (hstep.issued_cases hr).imp_left ih
  · rintro ⟨b, hb, rfl⟩
    exact hg.registered.ref_issued b hb

theorem issued_object_iff (hg : Reached h g) {o : ObjectId} :
    g.objects.Issued o ↔ ∃ b ∈ births h, b.object = o := by
  constructor
  · intro ho
    induction hg with
    | refl => exact absurd ho (Nat.not_lt_zero _)
    | step _ hstep ih =>
      simp only [births_append, List.mem_append, or_and_right, exists_or]
      exact (hstep.issued_object_cases ho).imp_left ih
  · rintro ⟨b, hb, rfl⟩
    exact hg.registered.object_issued b hb

/-- An object that can be read has the texts of its birth. -/
theorem texts_of_object (hg : Reached h g) {b : Birth} (hb : b ∈ births h)
    (hopen : (g.open? b.object).isSome) :
    g.objectName b.object = some b.name ∧ g.objectId b.object = some b.composedId := by
  obtain ⟨⟨x, a⟩, hxa⟩ := Option.isSome_iff_exists.1 hopen
  have hread := hg.identified.object b hb x a hxa
  rw [Graph.objectName, Graph.objectId, hxa]
  exact ⟨hread.resolve_of_lookup b.mem_constants_name hread.name,
    hread.resolve_of_lookup b.mem_constants_id hread.id⟩

/-- An entity of a whole graph is what its birth says. -/
theorem shows_of_whole (hg : Reached h g) (hw : g.Whole) {b : Birth} (hb : b ∈ births h)
    (he : (g.entity? b.id).isSome) : ∃ e, g.Shows b e := by
  obtain ⟨e, he⟩ := Option.isSome_iff_exists.1 he
  have hbare := Graph.bare?_of_entity? he
  obtain ⟨x, hx, -⟩ := hg.aligned.object b.id e.bare hbare
  rw [(hg.identified.entity b hb e.bare hbare).1] at hx
  refine hg.exists_shows hb ?_
  rw [hw.isSome_open?, hx]
  rfl

end Reached

/-! ## Twins -/

/-- Graphs in which the same has happened, the arenas apart, and in which the same is left,
    with its texts. -/
structure Twins (h h' : List Event) (g g' : Graph) : Prop where
  left : Reached h g
  right : Reached h' g'
  events : h.map Event.unplaced = h'.map Event.unplaced
  live : ∀ r : EntityRef, (g.entity? r.id).isSome ↔ (g'.entity? r.id).isSome
  whole : g.Whole
  whole' : g'.Whole

/-- What entities of two graphs have in common that were born alike. -/
structure Graph.Kin (g g' : Graph) {kind : Kind} (e e' : Entity kind) : Prop where
  object : e.object = e'.object
  name : g.nameOf e = g'.nameOf e'
  id : g.idOf e = g'.idOf e'
  bare : e.data.bare.blank = e'.data.bare.blank
  lists : ∀ {member : Kind} (l : Link kind member), l.members e.data = l.members e'.data
  texts : e.data.handles.map (g.resolve e) = e'.data.handles.map (g'.resolve e')

namespace Twins

variable {kind owner member : Kind}

theorem symm (tw : Twins h h' g g') : Twins h' h g' g :=
  ⟨tw.right, tw.left, tw.events.symm, fun r => (tw.live r).symm, tw.whole', tw.whole⟩

theorem empty : Twins [] [] Graph.empty Graph.empty where
  left := .refl
  right := .refl
  events := rfl
  live _ := Iff.rfl
  whole o x hx := by simp [Graph.empty] at hx
  whole' o x hx := by simp [Graph.empty] at hx

variable (tw : Twins h h' g g')
include tw

/-- A birth took place in both, with whatever arena. -/
theorem exists_birth {b : Birth} (hb : b ∈ births h) : ∃ s, b.placedIn s ∈ births h' := by
  have hevents := congrArg births tw.events
  rw [births_unplaced, births_unplaced] at hevents
  obtain ⟨c, hc, heq⟩ := List.mem_map.1 (hevents ▸ List.mem_map_of_mem hb)
  exact ⟨c.storage, Birth.eq_placedIn heq ▸ hc⟩

theorem children_eq (l : Link owner member) (o : EntityId owner) :
    children h l o = children h' l o := by
  rw [← children_unplaced, tw.events, children_unplaced]

theorem writesTo_eq (o : ObjectId) : writesTo h o = writesTo h' o := by
  rw [← writesTo_unplaced, tw.events, writesTo_unplaced]

theorem issued {r : EntityRef} (hr : g.Issued r) : g'.Issued r := by
  obtain ⟨b, hb, rfl⟩ := tw.left.issued_iff.1 hr
  obtain ⟨s, hs⟩ := tw.exists_birth hb
  exact tw.right.issued_iff.2 ⟨_, hs, rfl⟩

theorem issued_object {o : ObjectId} (ho : g.objects.Issued o) : g'.objects.Issued o := by
  obtain ⟨b, hb, rfl⟩ := tw.left.issued_object_iff.1 ho
  obtain ⟨s, hs⟩ := tw.exists_birth hb
  exact tw.right.issued_object_iff.2 ⟨_, hs, rfl⟩

theorem nextId_tables (kind : Kind) :
    (g.tables.get kind).nextId = (g'.tables.get kind).nextId :=
  Slots.nextId_congr fun i => ⟨tw.issued (r := ⟨kind, i⟩), tw.symm.issued (r := ⟨kind, i⟩)⟩

theorem nextId_objects : g.objects.nextId = g'.objects.nextId :=
  Slots.nextId_congr fun _ => ⟨tw.issued_object, tw.symm.issued_object⟩

/-- What was born and is there is there in both, and is what its birth says. -/
theorem exists_shows {b : Birth} (hb : b ∈ births h) (he : (g.entity? b.id).isSome) :
    ∃ s, b.placedIn s ∈ births h' ∧ ∃ e e', g.Shows b e ∧ g'.Shows (b.placedIn s) e' := by
  obtain ⟨s, hs⟩ := tw.exists_birth hb
  obtain ⟨e, hshows⟩ := tw.left.shows_of_whole tw.whole hb he
  obtain ⟨e', hshows'⟩ := tw.right.shows_of_whole tw.whole' hs ((tw.live b.ref).1 he)
  exact ⟨s, hs, e, e', hshows, hshows'⟩

theorem kin {r : EntityRef} {e e' : Entity r.kind} (he : g.entity? r.id = some e)
    (he' : g'.entity? r.id = some e') : g.Kin g' e e' := by
  obtain ⟨b, hb, rfl⟩ := tw.left.exists_birth he
  obtain ⟨s, hs, f, f', hshows, hshows'⟩ := tw.exists_shows hb (he ▸ rfl)
  obtain rfl : f = e := Option.some.inj (hshows.entity.symm.trans he)
  obtain rfl : f' = e' := Option.some.inj (hshows'.entity.symm.trans he')
  obtain ⟨hbare, htexts⟩ := hshows.fits.unique hshows'.fits
  refine ⟨hshows.object.trans hshows'.object.symm, hshows.name.trans hshows'.name.symm,
    hshows.id.trans hshows'.id.symm, hbare, fun l => ?_, htexts⟩
  -- a list that both have is that of the children
  have hlist := tw.left.enrolled.members_eq (k := l) he
  have hlist' := tw.right.enrolled.members_eq (k := l) he'
  have hsome := l.isSome_members_congr hbare
  rw [tw.children_eq, ← hlist'] at hlist
  rcases hl : l.members f.data with _ | xs <;> rcases hl' : l.members f'.data with _ | xs' <;>
    simp_all

/-- An id leads nowhere in either, or to entities that have much in common. -/
theorem entity_cases (id : EntityId kind) : (g.entity? id = none ∧ g'.entity? id = none) ∨
    ∃ e e', g.entity? id = some e ∧ g'.entity? id = some e' ∧ g.Kin g' e e' := by
  have hlive := tw.live ⟨kind, id⟩
  rcases he : g.entity? id with _ | e <;> rcases he' : g'.entity? id with _ | e'
  · exact Or.inl ⟨rfl, rfl⟩
  · simp [he, he'] at hlive
  · simp [he, he'] at hlive
  · exact Or.inr ⟨e, e', rfl, rfl, tw.kin (r := ⟨kind, id⟩) he he'⟩

/-! ### Objects -/

theorem exists_object {o : ObjectId} {x : Object} (hx : g.objects.get? o = some x) :
    ∃ x', g'.objects.get? o = some x' ∧ x.payload = x'.payload := by
  obtain ⟨b, hb, rfl, href, -⟩ := tw.left.registered.born o x hx
  obtain ⟨e, he, -⟩ := tw.left.aligned.entity _ x hx
  have hlive : (g.entity? b.ref.id).isSome := by
    rw [href, ← Graph.isSome_bare?, he]
    rfl
  obtain ⟨s, hs, -, e', -, hshows'⟩ := tw.exists_shows hb hlive
  have hbare := Graph.bare?_of_entity? hshows'.entity
  obtain ⟨x', hx', hpayload, -⟩ := tw.right.aligned.object b.id e'.bare hbare
  rw [(tw.right.identified.entity _ hs e'.bare hbare).1] at hx'
  exact ⟨x', hx', href.symm.trans hpayload.symm⟩

/-- An object is in neither, or in both, where it was born alike and can be read. -/
theorem object_cases (o : ObjectId) :
    (g.objects.get? o = none ∧ g'.objects.get? o = none ∧ g.open? o = none ∧ g'.open? o = none) ∨
    ∃ b s x a x' a', b ∈ births h ∧ b.placedIn s ∈ births h' ∧ b.object = o ∧
      g.open? o = some (x, a) ∧ g'.open? o = some (x', a') ∧ x.payload = x'.payload := by
  rcases hx : g.objects.get? o with _ | x
  · refine Or.inl ⟨rfl, ?_⟩
    rcases hx' : g'.objects.get? o with _ | x'
    · rw [Graph.open?, Graph.open?, hx, hx']
      exact ⟨rfl, rfl, rfl⟩
    · obtain ⟨x, hx'', -⟩ := tw.symm.exists_object hx'
      rw [hx] at hx''
      cases hx''
  · obtain ⟨x', hx', hpayload⟩ := tw.exists_object hx
    obtain ⟨b, hb, hobject, -⟩ := tw.left.registered.born o x hx
    obtain ⟨s, hs⟩ := tw.exists_birth hb
    obtain ⟨a, ha⟩ := Option.isSome_iff_exists.1 (tw.whole o x hx)
    obtain ⟨a', ha'⟩ := Option.isSome_iff_exists.1 (tw.whole' o x' hx')
    exact Or.inr ⟨b, s, x, a, x', a', hb, hs, hobject, Graph.open?_eq_some_iff.2 ⟨hx, ha⟩,
      Graph.open?_eq_some_iff.2 ⟨hx', ha'⟩, hpayload⟩

theorem open?_eq_none_iff {o : ObjectId} : g.open? o = none ↔ g'.open? o = none := by
  rcases tw.object_cases o with ⟨-, -, ho, ho'⟩ | ⟨_, _, _, _, _, _, -, -, -, ho, ho', -⟩ <;>
    simp [ho, ho']

theorem payload_eq (o : ObjectId) :
    (g.objects.get? o).map (·.payload) = (g'.objects.get? o).map (·.payload) := by
  rcases tw.object_cases o with ⟨ho, ho', -⟩ | ⟨_, _, _, _, _, _, -, -, -, ho, ho', hpayload⟩
  · rw [ho, ho']
  · rw [(Graph.open?_eq_some_iff.1 ho).1, (Graph.open?_eq_some_iff.1 ho').1]
    exact congrArg some hpayload

/-- Attributes are what was written, in both. -/
theorem attributes_eq (o : ObjectId) : (∀ n, g.attr? o n = g'.attr? o n) ∧
    (∀ n, g.isConstant o n = g'.isConstant o n) ∧
    (g.objects.get? o).map (·.attributes.size) = (g'.objects.get? o).map (·.attributes.size) := by
  rcases tw.object_cases o with ⟨hx, hx', ho, ho'⟩ | ⟨_, _, x, a, x', a', -, -, -, ho, ho', -⟩
  · refine ⟨fun n => ?_, fun n => ?_, ?_⟩
    · rw [Graph.attr?, Graph.attr?, ho, ho']
    · rw [Graph.isConstant, Graph.isConstant, ho, ho']
    · rw [hx, hx']
  · have hr := tw.left.recorded.reflects o x a ho
    have hr' := tw.right.recorded.reflects o x' a' ho'
    rw [← tw.writesTo_eq] at hr'
    refine ⟨fun n => ?_, fun n => ?_, ?_⟩
    · rw [Graph.attr?_of_open? ho, Graph.attr?_of_open? ho', hr.attr_eq, hr'.attr_eq]
    · rw [Graph.isConstant_of_open? ho, Graph.isConstant_of_open? ho', hr.isConstant_eq,
        hr'.isConstant_eq]
    · rw [(Graph.open?_eq_some_iff.1 ho).1, (Graph.open?_eq_some_iff.1 ho').1]
      exact congrArg some (hr.size.trans hr'.size.symm)

theorem texts_eq (o : ObjectId) :
    g.objectName o = g'.objectName o ∧ g.objectId o = g'.objectId o := by
  rcases tw.object_cases o with ⟨-, -, ho, ho'⟩ | ⟨b, s, _, _, _, _, hb, hs, rfl, ho, ho', -⟩
  · rw [Graph.objectName, Graph.objectName, Graph.objectId, Graph.objectId, ho, ho']
    exact ⟨rfl, rfl⟩
  · obtain ⟨hn, hi⟩ := tw.left.texts_of_object hb (ho ▸ rfl)
    obtain ⟨hn', hi'⟩ :=
      tw.right.texts_of_object hs (show (g'.open? b.object).isSome from ho' ▸ rfl)
    exact ⟨hn.trans hn'.symm, hi.trans hi'.symm⟩

end Twins

end DesignGraph
