/-
  Origins — where an object that can be read comes from.

  An object can be read while it and its arena are there (`Graph.open?`).  After
  a step it was made by the step, or written to by it, or left alone; in the last
  case its arena may have grown, since it may be shared.

  * `Origin` lists the three cases and all that is known in each;
  * `Step.origin`: they are all there is;
  * `Sealed`: what was constant is still there, under the same handle
    (`Steps.sealed`).
-/
import DesignGraph.Proofs.Registry

namespace DesignGraph

/-! ## Objects that can be read later -/

/-- An object that was there, and can be read later, could be read before. -/
theorem Registered.open?_of_later {h : List Event} {g g' : Graph} (hr : Registered h g)
    (hl : g.Later g') {o : ObjectId} (ho : g.objects.Issued o) {x' : Object} {a' : TextArena}
    (hopen : g'.open? o = some (x', a')) :
    ∃ x a, g.open? o = some (x, a) ∧ x.Same x' ∧ a.Extends a' := by
  obtain ⟨hx', ha'⟩ := Graph.open?_eq_some_iff.1 hopen
  obtain ⟨x, hx, hsame⟩ := hl.objects.held o x' ho hx'
  rw [← hsame.storage] at ha'
  obtain ⟨a, ha, hext⟩ := hl.texts.held _ a' (hr.issued_storage hx) ha'
  exact ⟨x, a, Graph.open?_eq_some_iff.2 ⟨hx, ha⟩, hsame, hext⟩

theorem writesTo_append (h k : List Event) (o : ObjectId) :
    writesTo (h ++ k) o = writesTo h o ++ writesTo k o := List.flatMap_append

theorem writesTo_birth (b : Birth) :
    writesTo [.birth b] b.object = b.constants.map Write.ofConstant := by
  simp [writesTo, Event.object, Event.writes]

theorem writesTo_write (o : ObjectId) (w : Write) : writesTo [.write o w] o = [w] := by
  simp [writesTo, Event.object, Event.writes]

theorem writesTo_of_ne {ev : Event} {o : ObjectId} (h : ev.object ≠ o) : writesTo [ev] o = [] := by
  simp [writesTo, h]

/-! ## The origin of an object -/

/-- Where an object and its arena come from that can be read after a step. -/
inductive Origin (g : Graph) (o : ObjectId) (x' : Object) (a' : TextArena) : List Event → Prop
  /-- The step made it. -/
  | made (b : Birth) (hb : b.object = o) (hnew : o = g.objects.nextId)
    (hreflects : x'.attributes.Reflects a' (b.constants.map Write.ofConstant))
    (hid : x'.attributes.lookup a' "id" = some ⟨x'.id, true⟩)
    (hname : x'.attributes.lookup a' "name" = some ⟨x'.name, true⟩) : Origin g o x' a' [.birth b]
  /-- The step wrote to it. -/
  | written {x : Object} {a : TextArena} {w : Write} (hopen : g.open? o = some (x, a))
    (hsame : x.Same x')
    (hset : x.attributes.set a w.name w.value w.constant = some (x'.attributes, a')) :
    Origin g o x' a' [.write o w]
  /-- The step left it alone. -/
  | left {es : List Event} {a : TextArena} (hopen : g.open? o = some (x', a))
    (hext : a.Extends a') (hquiet : writesTo es o = []) : Origin g o x' a' es

variable {g g' : Graph} {h es : List Event} {o : ObjectId} {x' : Object} {a' : TextArena}

/-- An object that is itself as it was. -/
theorem Registered.origin_left (hr : Registered h g) (hl : g.Later g')
    (hopen : g'.open? o = some (x', a')) (hx : g.objects.get? o = some x')
    (hquiet : writesTo es o = []) : Origin g o x' a' es := by
  obtain ⟨x, a, hxa, -, hext⟩ := hr.open?_of_later hl (Slots.issued_of_get? hx) hopen
  have hx' := (Graph.open?_eq_some_iff.1 hxa).1
  rw [hx] at hx'
  cases hx'
  exact .left hxa hext hquiet

theorem Graph.Grant.origin {kind : Kind} {request : Request kind} {storage : Option TextsId}
    (gr : g.Grant request storage) (hr : Registered h g)
    (hopen : (g.install gr.draft).2.open? o = some (x', a')) :
    Origin g o x' a' [.birth (g.birth request storage)] := by
  obtain ⟨hx, ha⟩ := Graph.open?_eq_some_iff.1 hopen
  rw [get?_objects_install] at hx
  split at hx
  · next ho =>
    obtain rfl : gr.draft.object = x' := Option.some.inj hx
    rw [gr.get?_texts, if_pos (congrArg StorageHandle.id gr.storage_eq)] at ha
    obtain rfl : gr.draft.arena = a' := Option.some.inj ha
    exact .made _ ho.symm ho gr.reflects gr.lookup_id gr.lookup_name
  · next ho => exact hr.origin_left gr.later hopen hx (writesTo_of_ne fun h => ho h.symm)

theorem Graph.WriteEffect.origin {p : ObjectId} {w : Write} (ef : g.WriteEffect p w g')
    (hr : Registered h g) (hopen : g'.open? o = some (x', a')) :
    Origin g o x' a' [.write p w] := by
  obtain ⟨hx, ha⟩ := Graph.open?_eq_some_iff.1 hopen
  rw [ef.get?_objects] at hx
  split at hx
  · next ho =>
    obtain rfl : { ef.object with attributes := ef.attributes } = x' := Option.some.inj hx
    rw [ef.get?_texts, if_pos rfl] at ha
    obtain rfl : ef.arena = a' := Option.some.inj ha
    rw [ho]
    exact .written ef.open?_eq rfl ef.set_eq
  · next ho => exact hr.origin_left ef.later hopen hx (writesTo_of_ne fun h => ho h.symm)

theorem Growth.origin (hs : Growth g es g') (hr : Registered h g)
    (hopen : g'.open? o = some (x', a')) : Origin g o x' a' es := by
  cases hs with
  | build gr => exact gr.origin hr hopen
  | appoint m i => exact .left hopen (.refl a') rfl
  | write hw => obtain ⟨ef⟩ := Graph.writeEffect hw; exact ef.origin hr hopen

/-- **An object that can be read was made by the step, written to, or left alone.** -/
theorem Step.origin (hs : Step g es g') (hr : Registered h g)
    (hopen : g'.open? o = some (x', a')) : Origin g o x' a' es := by
  cases hs with
  | grow hs => exact hs.origin hr hopen
  | @free kind id =>
    refine hr.origin_left (Graph.later_free id) hopen ?_ rfl
    rcases he : g.entity? id with _ | e
    · rw [Graph.free_of_none he] at hopen
      exact (Graph.open?_eq_some_iff.1 hopen).1
    · have hx := (Graph.open?_eq_some_iff.1 hopen).1
      rw [Graph.get?_objects_free he] at hx
      split at hx
      · cases hx
      · exact hx

/-! ## Constants -/

/-- What cannot change of an object and its texts. -/
structure Sealed (x : Object) (a : TextArena) (x' : Object) (a' : TextArena) : Prop where
  same : x.Same x'
  arena : a.Extends a'
  constant : ∀ n s, x.attributes.lookup a n = some ⟨s, true⟩ →
    x'.attributes.lookup a' n = some ⟨s, true⟩

theorem Sealed.refl (x : Object) (a : TextArena) : Sealed x a x a := ⟨rfl, .refl a, fun _ _ h => h⟩

theorem Sealed.trans {x y z : Object} {a b c : TextArena} (h : Sealed x a y b)
    (h' : Sealed y b z c) : Sealed x a z c :=
  ⟨h.same.trans h'.same, h.arena.trans h'.arena, fun n s hn => h'.constant n s (h.constant n s hn)⟩

/-- An object that was there before the step has kept its constants. -/
theorem Origin.sealed (ho : Origin g o x' a' es) (hi : g.objects.Issued o) :
    ∃ x a, g.open? o = some (x, a) ∧ Sealed x a x' a' := by
  cases ho with
  | made b hb hnew =>
    rw [hnew] at hi
    exact absurd hi g.objects.not_issued_nextId
  | written hopen hsame hset =>
    exact ⟨_, _, hopen, hsame, Attributes.extends_set hset,
      fun n s => Attributes.lookup_set_of_constant hset⟩
  | left hopen hext hquiet =>
    exact ⟨_, _, hopen, rfl, hext, fun n s => Attributes.lookup_mono hext⟩

/-- **Constants stay, as long as they can be read.** -/
theorem Steps.sealed {k : List Event} (hg : Reached h g) (hs : Steps Step g k g')
    (hi : g.objects.Issued o) (hopen : g'.open? o = some (x', a')) :
    ∃ x a, g.open? o = some (x, a) ∧ Sealed x a x' a' := by
  induction hs generalizing x' a' with
  | refl => exact ⟨x', a', hopen, .refl x' a'⟩
  | step hs hstep ih =>
    have hr := Reached.registered (Steps.trans hg hs)
    obtain ⟨y, b, hyb, hsealed⟩ := (hstep.origin hr hopen).sealed (hs.later.objects.issued o hi)
    obtain ⟨x, a, hxa, hsealed'⟩ := ih hyb
    exact ⟨x, a, hxa, hsealed'.trans hsealed⟩

end DesignGraph
