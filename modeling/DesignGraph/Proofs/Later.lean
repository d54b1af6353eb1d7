/-
  Later states — nothing dead comes back, and nothing lasting changes.

  * `Graph.Later g g'`: the graph `g'` is a later state of `g`.  What `g'` holds
    under an id that `g` had given out was there in `g`: arenas have only grown,
    objects have at most other attributes, entities at most other collections;
  * `Step.later`, `Steps.later`: steps lead to later states.
-/
import DesignGraph.Proofs.History

namespace DesignGraph

/-- An object without its attributes. -/
def Object.bare (x : Object) : Object := { x with attributes := .empty }

/-- Objects that differ in their attributes at most. -/
def Object.Same (x y : Object) : Prop := x.bare = y.bare

theorem Object.Same.refl (x : Object) : x.Same x := rfl

theorem Object.Same.trans {x y z : Object} (h : x.Same y) (h' : y.Same z) : x.Same z :=
  Eq.trans h h'

theorem Object.Same.id {x y : Object} (h : x.Same y) : x.id = y.id := (Object.mk.inj h).1

theorem Object.Same.name {x y : Object} (h : x.Same y) : x.name = y.name := (Object.mk.inj h).2.1

theorem Object.Same.storage {x y : Object} (h : x.Same y) : x.storage = y.storage :=
  (Object.mk.inj h).2.2.2.1

theorem Object.Same.payload {x y : Object} (h : x.Same y) : x.payload = y.payload :=
  (Object.mk.inj h).2.2.2.2

theorem Module.bare_appoint (m : Module) (i : Option (EntityId .inst)) :
    @Data.bare .module (m.appoint i) = @Data.bare .module m := by
  simp only [Module.appoint, Data.bare, Option.map_map, Function.comp_def]

namespace Graph

/-- A later state of a graph. -/
structure Later (g g' : Graph) : Prop where
  texts : g.texts.Later TextArena.Extends g'.texts
  objects : g.objects.Later Object.Same g'.objects
  issued : ∀ r, g.Issued r → g'.Issued r
  entities : ∀ {kind : Kind} (id : EntityId kind) (e : Entity kind), g.Issued ⟨kind, id⟩ →
    g'.bare? id = some e → g.bare? id = some e

namespace Later

variable {g g' g'' : Graph}

theorem refl (g : Graph) : g.Later g where
  texts := .refl TextArena.Extends.refl _
  objects := .refl Object.Same.refl _
  issued _ h := h
  entities _ _ _ h := h

theorem trans (h : g.Later g') (h' : g'.Later g'') : g.Later g'' where
  texts := .trans (R := TextArena.Extends) TextArena.Extends.trans h.texts h'.texts
  objects := .trans (R := Object.Same) Object.Same.trans h.objects h'.objects
  issued r hr := h'.issued r (h.issued r hr)
  entities id e hi he := h.entities id e hi (h'.entities id e (h.issued _ hi) he)

end Later

variable {g : Graph} {kind : Kind}

theorem Grant.later {request : Request kind} {storage : Option TextsId}
    (gr : g.Grant request storage) : g.Later (g.install gr.draft).2 where
  texts := by
    refine ⟨fun s hs => gr.issued_texts.2 (Or.inl hs), fun s b hs hb => ?_⟩
    rw [gr.get?_texts] at hb
    split at hb
    · next h =>
      cases hb
      -- an arena that was given out and is filled now is a borrowed one
      rcases ha : g.texts.get? s with _ | a
      · have hsite := gr.site_eq
        rcases storage with _ | t
        · rw [h] at hs
          exact absurd hs g.texts.not_issued_nextId
        · obtain ⟨a, ht, -⟩ := Option.map_eq_some_iff.1 hsite
          rw [h, birth_storage_some, StorageHandle.id, ht] at ha
          cases ha
      · exact ⟨a, rfl, gr.extends_draft (h ▸ ha)⟩
    · exact ⟨b, hb, .refl b⟩
  objects := by
    rw [objects_install]
    exact .alloc Object.Same.refl _ _
  issued r hr := issued_install gr.draft |>.2 (Or.inl hr)
  entities id e hi he := by
    rwa [bare?_install_of_ne] at he
    intro h
    rw [h] at hi
    exact Slots.not_issued_nextId _ hi

theorem WriteEffect.later {o : ObjectId} {w : Write} {g' : Graph} (ef : g.WriteEffect o w g') :
    g.Later g' where
  texts := by
    rw [ef.texts_eq]
    refine .modify TextArena.Extends.refl _ _ fun a ha => ?_
    rw [ef.before_eq] at ha
    cases ha
    exact Attributes.extends_set ef.set_eq
  objects := by
    rw [ef.objects_eq]
    exact .modify Object.Same.refl _ _ fun _ _ => rfl
  issued r hr := by rwa [Issued, ef.tables_eq]
  entities id e _ he := by rwa [bare?, entity?, ef.tables_eq] at he

theorem later_free (id : EntityId kind) : g.Later (g.free id) where
  texts := by
    rcases h : g.entity? id with _ | e
    · rw [free_of_none h]
      exact .refl TextArena.Extends.refl _
    · rw [texts_free h]
      split
      · exact .free TextArena.Extends.refl _ _
      · exact .refl TextArena.Extends.refl _
  objects := by
    rcases h : g.entity? id with _ | e
    · rw [free_of_none h]
      exact .refl Object.Same.refl _
    · rw [free_of_some h, objects_release]
      exact .free Object.Same.refl _ _
  issued r hr := issued_free.2 hr
  entities {k} j e _ he := by
    by_cases hj : (⟨k, j⟩ : EntityRef) = ⟨kind, id⟩
    · cases hj
      rw [bare?_free_self] at he
      cases he
    · rwa [bare?_free_of_ne hj] at he

theorem later_appoint (m : EntityId .module) (i : Option (EntityId .inst)) :
    g.Later (g.modifyData m (·.appoint i)) where
  texts := .refl TextArena.Extends.refl _
  objects := .refl Object.Same.refl _
  issued r hr := (issued_modifyData m _).2 hr
  entities id e _ he := by rwa [bare?_modifyData m (Module.bare_appoint · i)] at he

end Graph

variable {g g' : Graph} {h : List Event}

theorem Growth.later (hs : Growth g h g') : g.Later g' := by
  cases hs with
  | build gr => exact gr.later
  | appoint m i => exact Graph.later_appoint m i
  | write hw => obtain ⟨ef⟩ := Graph.writeEffect hw; exact ef.later

theorem Step.later (hs : Step g h g') : g.Later g' := by
  cases hs with
  | grow hs => exact hs.later
  | free id => exact Graph.later_free id

theorem Steps.later (hs : Steps Step g h g') : g.Later g' := by
  induction hs with
  | refl => exact .refl g
  | step _ hstep ih => exact ih.trans hstep.later

end DesignGraph
