/-
  Teardown — entities can be taken out in any order, and nothing is left in the end.

  An entity takes its object along, and the object the arena that it owns.  The places
  that are emptied are the same whatever went before, so it shows neither in which order
  entities were taken out nor how often each of them was.

  * `Graph.freeAll` takes out the entities of a list; `free_comm` and `free_free` swap
    two of them and drop a repeated one, so the list matters as a set only
    (`freeAll_congr`);
  * `Call.isFree` are the calls of a teardown and `Call.removes` what they name
    (`Design.run_frees`);
  * `Reached.objects_gone`, `Reached.arenas_gone`: without entities there are neither
    objects nor arenas;
  * `teardown_is_orderless_and_complete` is what follows for designs.
-/
import DesignGraph.Proofs.Frame
import Mathlib.Data.List.Dedup
import Mathlib.Data.List.Perm.Basic

namespace DesignGraph

/-! ## Two entities -/

theorem Tables.set_set (t : Tables) {kind : Kind} (x y : Table kind) :
    (t.set x).set y = t.set y := by
  cases kind <;> rfl

theorem Tables.set_comm (t : Tables) {kind k : Kind} (h : k ≠ kind) (x : Table kind)
    (y : Table k) : (t.set x).set y = (t.set y).set x := by
  cases kind <;> cases k <;> first | rfl | exact absurd rfl h

namespace Graph

variable {g : Graph} {kind k : Kind}

theorem ext_parts {g g' : Graph} (ht : g.texts = g'.texts) (ho : g.objects = g'.objects)
    (hb : g.tables = g'.tables) : g = g' := by
  cases g
  cases g'
  cases ht
  cases ho
  cases hb
  rfl

/-- Tables have no part in the release of an object. -/
theorem release_tables (t : Tables) (o : ObjectId) :
    { g with tables := t : Graph }.release o = { g.release o with tables := t } := by
  rcases hf : g.objects.free o with ⟨_ | obj, objects⟩ <;> simp only [release, hf]
  cases obj.storage <;> rfl

theorem release_comm (g : Graph) (o p : ObjectId) :
    (g.release o).release p = (g.release p).release o := by
  by_cases hop : p = o
  · rw [hop]
  refine ext_parts ?_ ?_ ?_
  · simp only [texts_release, objects_release, Slots.get?_free, if_neg hop, if_neg (Ne.symm hop)]
    rcases g.objects.get? o with _ | ⟨_, _, _, s | s, _⟩ <;>
      rcases g.objects.get? p with _ | ⟨_, _, _, t | t, _⟩ <;>
      first | rfl | exact Slots.free_comm _ _ _
  · simp only [objects_release]
    exact Slots.free_comm _ _ _
  · simp only [tables_release]

/-- An entity is gone once it was taken out. -/
theorem free_free (g : Graph) (i : EntityId kind) : (g.free i).free i = g.free i :=
  free_of_none (entity?_free_self g i)

/-- The tables from which two entities were taken. -/
theorem tables_free_comm (t : Tables) (i : EntityId kind) (j : EntityId k) :
    (t.set ((t.get kind).free i).2).set (((t.set ((t.get kind).free i).2).get k).free j).2 =
      (t.set ((t.get k).free j).2).set (((t.set ((t.get k).free j).2).get kind).free i).2 := by
  by_cases hk : k = kind
  · subst hk
    rw [Tables.get_set_self, Tables.get_set_self, Tables.set_set, Tables.set_set, Slots.free_comm]
  · rw [Tables.get_set_of_ne _ _ hk, Tables.get_set_of_ne _ _ (Ne.symm hk), Tables.set_comm _ hk]

/-- **Two entities can be taken out in either order.** -/
theorem free_comm (g : Graph) (i : EntityId kind) (j : EntityId k) :
    (g.free i).free j = (g.free j).free i := by
  by_cases hij : (⟨k, j⟩ : EntityRef) = ⟨kind, i⟩
  · cases hij
    rfl
  have hi' : (g.free j).entity? i = g.entity? i := entity?_free_of_ne (Ne.symm hij)
  have hj' : (g.free i).entity? j = g.entity? j := entity?_free_of_ne hij
  rcases hi : g.entity? i with _ | e
  · rw [free_of_none hi, free_of_none (hi'.trans hi)]
  rcases hj : g.entity? j with _ | f
  · rw [free_of_none hj, free_of_none (hj'.trans hj)]
  rw [free_of_some (hj'.trans hj), free_of_some (hi'.trans hi), free_of_some hi, free_of_some hj]
  simp only [release_tables, tables_free_comm g.tables i j]
  rw [release_comm]

/-! ## Any number of entities -/

/-- Takes out the entities of a list, one after the other. -/
def freeAll (g : Graph) (rs : List EntityRef) : Graph := rs.foldl (fun g r => g.free r.id) g

theorem freeAll_perm {rs qs : List EntityRef} (h : rs.Perm qs) : g.freeAll rs = g.freeAll qs :=
  h.foldl_eq' (fun r _ q _ g => free_comm g r.id q.id) g

/-- To take out an entity beforehand makes no difference to a list that has it. -/
theorem freeAll_free {rs : List EntityRef} {r : EntityRef} (hr : r ∈ rs) :
    (g.free r.id).freeAll rs = g.freeAll rs := by
  have hp : rs.Perm (r :: rs.erase r) := List.perm_cons_erase hr
  rw [freeAll_perm hp, freeAll_perm hp]
  show freeAll ((g.free r.id).free r.id) _ = freeAll (g.free r.id) _
  rw [free_free]

theorem freeAll_dedup (g : Graph) (rs : List EntityRef) : g.freeAll rs.dedup = g.freeAll rs := by
  induction rs generalizing g with
  | nil => rfl
  | cons r rs ih =>
    by_cases hr : r ∈ rs
    · rw [List.dedup_cons_of_mem hr, ih]
      exact (freeAll_free hr).symm
    · rw [List.dedup_cons_of_notMem hr]
      exact ih _

/-- **What is left depends on which entities were taken out, and on nothing else.** -/
theorem freeAll_congr {rs qs : List EntityRef} (h : ∀ r, r ∈ rs ↔ r ∈ qs) :
    g.freeAll rs = g.freeAll qs := by
  rw [← freeAll_dedup, ← g.freeAll_dedup qs]
  refine freeAll_perm ((List.perm_ext_iff_of_nodup (List.nodup_dedup _) (List.nodup_dedup _)).2 ?_)
  intro r
  rw [List.mem_dedup, List.mem_dedup, h]

theorem entity?_free_of_none {i : EntityId kind} {j : EntityId k} (h : g.entity? j = none) :
    (g.free i).entity? j = none := by
  by_cases hij : (⟨k, j⟩ : EntityRef) = ⟨kind, i⟩
  · cases hij
    exact entity?_free_self g i
  · rw [entity?_free_of_ne hij, h]

theorem entity?_freeAll_of_none {rs : List EntityRef} {j : EntityId k} (h : g.entity? j = none) :
    (g.freeAll rs).entity? j = none := by
  induction rs generalizing g with
  | nil => exact h
  | cons r rs ih => exact ih (entity?_free_of_none h)

theorem entity?_freeAll {rs : List EntityRef} {r : EntityRef} (hr : r ∈ rs) :
    (g.freeAll rs).entity? r.id = none := by
  rw [← freeAll_free hr]
  exact entity?_freeAll_of_none (entity?_free_self g r.id)

end Graph

/-! ## What is left without entities -/

variable {g : Graph} {h : List Event}

theorem Reached.objects_gone (hg : Reached h g) (he : ∀ r : EntityRef, g.entity? r.id = none)
    (o : ObjectId) : g.objects.get? o = none := by
  rcases hx : g.objects.get? o with _ | x
  · rfl
  · obtain ⟨e, hbare, -⟩ := hg.aligned.entity o x hx
    rw [Graph.bare?, he x.payload] at hbare
    cases hbare

theorem Reached.arenas_gone (hg : Reached h g) (ho : ∀ o, g.objects.get? o = none) :
    g.storageCount = 0 := by
  rw [Graph.storageCount, ← Slots.length_toList, List.length_eq_zero_iff,
    List.eq_nil_iff_forall_not_mem]
  rintro ⟨s, a⟩ hs
  obtain ⟨o, x, hx, -⟩ := hg.registered.owner s a (Slots.mem_toList.1 hs)
  rw [ho o] at hx
  cases hx

/-! ## Calls that take out -/

/-- Whether a call takes out an entity, at most. -/
def Call.isFree : Call → Bool
  | .free _ => true
  | _ => false

/-- The entity that a call takes out, if it is there. -/
def Call.removes : Call → Option EntityRef
  | @Call.free kind id => id.map (EntityRef.mk kind)
  | _ => none

theorem Design.perform_free (d : Design) {c : Call} (hc : c.isFree) :
    (d.perform c).2 = ⟨d.graph.freeAll c.removes.toList, d.logger⟩ := by
  cases c with
  | free id => cases id <;> rfl
  | create | setAttr | setAttrs => cases hc

/-- A teardown takes out what its calls name, and says nothing. -/
theorem Design.run_frees (d : Design) {cs : List Call} (hcs : ∀ c ∈ cs, c.isFree) :
    (d.run cs).2 = ⟨d.graph.freeAll (cs.filterMap Call.removes), d.logger⟩ := by
  induction cs generalizing d with
  | nil => rfl
  | cons c cs ih =>
    obtain ⟨hc, hcs⟩ := List.forall_mem_cons.1 hcs
    show ((d.perform c).2.run cs).2 = _
    rw [ih _ hcs, d.perform_free hc]
    rcases hr : c.removes with _ | r
    · rw [List.filterMap_cons_none hr]; rfl
    · rw [List.filterMap_cons_some hr]; rfl

/-- What is left of a design after some calls when entities are taken out of it. -/
structure Design.Teardown (l : Logger) (cs : List Call) : Prop where
  /-- The order of the calls does not show, nor how often an entity is named. -/
  orderless : ∀ fs fs' : List Call, (∀ c ∈ fs, c.isFree) → (∀ c ∈ fs', c.isFree) →
    (∀ r, (∃ c ∈ fs, c.removes = some r) ↔ ∃ c ∈ fs', c.removes = some r) →
      ((after l cs).run fs).2 = ((after l cs).run fs').2
  permuted : ∀ fs fs' : List Call, (∀ c ∈ fs, c.isFree) → fs.Perm fs' →
    ((after l cs).run fs).2 = ((after l cs).run fs').2
  repeated : ∀ (fs : List Call) (c : Call), (∀ c ∈ fs, c.isFree) → c ∈ fs →
    ((after l cs).run (c :: fs)).2 = ((after l cs).run fs).2
  quiet : ∀ fs : List Call, (∀ c ∈ fs, c.isFree) →
    ((after l cs).run fs).2.logger = (after l cs).logger
  /-- If every entity is named, nothing is left. -/
  complete : ∀ fs : List Call, (∀ c ∈ fs, c.isFree) →
    (∀ (r : EntityRef) e, (after l cs).graph.entity? r.id = some e →
      ∃ c ∈ fs, c.removes = some r) →
    (∀ r : EntityRef, ((after l cs).run fs).2.graph.entity? r.id = none) ∧
      (∀ o, ((after l cs).run fs).2.graph.objects.get? o = none) ∧
      ((after l cs).run fs).2.graph.storageCount = 0

/-- **Whatever the calls, a teardown depends on the entities it names only, and leaves
    nothing if it names them all.** -/
theorem teardown_is_orderless_and_complete (l : Logger) (cs : List Call) :
    Design.Teardown l cs := by
  have horderless : ∀ fs fs' : List Call, (∀ c ∈ fs, c.isFree) → (∀ c ∈ fs', c.isFree) →
      (∀ r, (∃ c ∈ fs, c.removes = some r) ↔ ∃ c ∈ fs', c.removes = some r) →
      ((Design.after l cs).run fs).2 = ((Design.after l cs).run fs').2 := by
    intro fs fs' hfs hfs' h
    rw [Design.run_frees _ hfs, Design.run_frees _ hfs', Graph.freeAll_congr]
    intro r
    rw [List.mem_filterMap, List.mem_filterMap]
    exact h r
  refine ⟨horderless, ?_, ?_, ?_, ?_⟩
  · intro fs fs' hfs hp
    refine horderless fs fs' hfs (fun c hc => hfs c (hp.mem_iff.2 hc)) fun r => ?_
    exact exists_congr fun c => and_congr_left' hp.mem_iff
  · intro fs c hfs hc
    refine horderless (c :: fs) fs ?_ hfs fun r => ?_
    · exact List.forall_mem_cons.2 ⟨hfs c hc, hfs⟩
    · rw [List.exists_mem_cons_iff, or_iff_right_iff_imp]
      exact fun hr => ⟨c, hc, hr⟩
  · intro fs hfs
    rw [Design.run_frees _ hfs]
  · intro fs hfs hall
    have hgone : ∀ r : EntityRef, ((Design.after l cs).run fs).2.graph.entity? r.id = none := by
      intro r
      rw [Design.run_frees _ hfs]
      rcases he : (Design.after l cs).graph.entity? r.id with _ | e
      · exact Graph.entity?_freeAll_of_none he
      · exact Graph.entity?_freeAll (List.mem_filterMap.2 (hall r e he))
    -- the design that is left is reached by calls, too
    have hg := reached_after l (cs ++ fs)
    rw [Design.graph_after, Graph.after_append, ← Design.graph_after l, ← Design.graph_run] at hg
    have hobjects := hg.objects_gone hgone
    exact ⟨hgone, hobjects, hg.arenas_gone hobjects⟩

/-- The owner of a shared arena may go first. -/
example : let g := Graph.empty.after [.create (.module "top" false true) none,
      .create (.port "clk" .input ⟨0⟩) (some ⟨0⟩)]
    (g.freeAll [⟨.module, ⟨0⟩⟩, ⟨.port, ⟨0⟩⟩, ⟨.module, ⟨0⟩⟩]).storageCount = 0 := by
  decide +kernel

end DesignGraph
