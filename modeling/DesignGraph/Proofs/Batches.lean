/-
  Batches — what a flat list of names and values does to an object.

  The pairs of a list are written one after the other, and each of them is refused or
  accepted by what the object is at that moment.  Nevertheless the outcome can be told
  from the start: what is written is not constant, so no pair decides about a later one,
  and of several pairs for a name the last one stays.

  * `Graph.cell?` is all that is read under a name; `Reached.cell?_write`: an accepted
    write changes it in one place, though arenas are shared;
  * `Graph.refuses`: whether a write would be refused; `Reached.refuses_write`: writes that
    are not constant leave it as it is;
  * `Graph.Batched` is the outcome of a list of pairs, in terms of the graph before it;
    `Reached.batched` the run, by induction from these steps, and `Batched.again` its
    repetition;
  * `batches_are_decided_at_the_start` is what follows for designs.
-/
import DesignGraph.Proofs.Ledger
import DesignGraph.Proofs.Ownership

namespace DesignGraph

/-! ## Pairs -/

/-- A list is of odd length, or it is a list of pairs, flattened. -/
theorem Graph.pairs?_cases (list : List String) :
    (pairs? list = none ∧ list.length % 2 = 1) ∨
      ∃ pairs, pairs? list = some pairs ∧ list.length % 2 = 0 ∧
        list = pairs.flatMap fun (n, v) => [n, v] := by
  induction list using pairs?.induct with
  | case1 => exact Or.inr ⟨[], rfl, rfl, rfl⟩
  | case2 n => exact Or.inl ⟨rfl, rfl⟩
  | case3 n v rest ih =>
    have hlength : (n :: v :: rest).length % 2 = rest.length % 2 := by
      simp only [List.length_cons]
      omega
    rw [hlength, pairs?]
    rcases ih with ⟨hnone, hodd⟩ | ⟨pairs, hsome, heven, hflat⟩
    · exact Or.inl ⟨by rw [hnone]; rfl, hodd⟩
    · refine Or.inr ⟨(n, v) :: pairs, by rw [hsome]; rfl, heven, ?_⟩
      rw [List.flatMap_cons, ← hflat]
      rfl

/-- The value of the last pair for a name. -/
def lastValue (pairs : List (String × String)) (n : String) : Option String :=
  pairs.reverse.lookup n

theorem lastValue_cons (m v : String) (pairs : List (String × String)) (n : String) :
    lastValue ((m, v) :: pairs) n = (lastValue pairs n).or (if n = m then some v else none) := by
  rw [lastValue, List.reverse_cons, List.lookup_append, List.lookup_cons, List.lookup_nil]
  by_cases h : n = m
  · rw [if_pos h, h, beq_self_eq_true]
    rfl
  · rw [if_neg h, beq_eq_false_iff_ne.2 h]
    rfl

/-! ## Reading under a name -/

namespace Graph

variable {g g' : Graph} {o p : ObjectId} {n m v : String} {c : Bool}

/-- The value under a name of an object, and whether it is constant. -/
def cell? (g : Graph) (o : ObjectId) (n : String) : Option (String × Bool) :=
  (g.open? o).bind fun (x, a) => x.attributes.cell? a n

/-- Whether a write to an object that is there would be refused: its arena is gone, or the
    name is constant. -/
def refuses (g : Graph) (o : ObjectId) (n : String) : Bool :=
  (g.open? o).isNone || g.isConstant o n

theorem cell?_of_open? {x : Object} {a : TextArena} (hopen : g.open? o = some (x, a)) :
    g.cell? o n = x.attributes.cell? a n := by rw [cell?, hopen]; rfl

theorem attr?_eq_cell? : g.attr? o n = (g.cell? o n).map Prod.fst := by
  rw [attr?, cell?, Option.map_bind]
  exact congrArg _ (funext fun _ => Attributes.get_eq_cell?)

theorem setAttr?_eq_none_iff_refuses : g.setAttr? o n v c = none ↔ g.refuses o n = true := by
  rw [setAttr?_eq_none_iff, refuses, Bool.or_eq_true, Option.isNone_iff_eq_none]

theorem refuses_of_setAttr? (hw : g.setAttr? o n v c = some g') : g.refuses o n = false := by
  rw [← Bool.not_eq_true, ← setAttr?_eq_none_iff_refuses (v := v) (c := c), hw]
  exact fun h => by cases h

namespace WriteEffect

variable {w : Write} (ef : g.WriteEffect o w g')
include ef

theorem open?_self :
    g'.open? o = some ({ ef.object with attributes := ef.attributes }, ef.arena) := by
  rw [open?_eq_some_iff, ef.get?_objects, ef.get?_texts, if_pos rfl, if_pos rfl]
  exact ⟨rfl, rfl⟩

/-- Another object stays as it is; its arena may have grown, if it is the same. -/
theorem open?_of_ne (hp : p ≠ o) : (g.open? p = none ∧ g'.open? p = none) ∨
    ∃ x a a', g.open? p = some (x, a) ∧ g'.open? p = some (x, a') ∧ a.Extends a' := by
  have hx : g'.objects.get? p = g.objects.get? p := by rw [ef.get?_objects, if_neg hp]
  rw [open?, open?, hx]
  rcases g.objects.get? p with _ | x
  · exact Or.inl ⟨rfl, rfl⟩
  simp only [Option.bind_some]
  rw [ef.get?_texts]
  by_cases hs : x.storage.id = ef.object.storage.id
  · rw [if_pos hs, hs, ef.before_eq]
    exact Or.inr ⟨x, _, _, rfl, rfl, Attributes.extends_set ef.set_eq⟩
  · rw [if_neg hs]
    rcases g.texts.get? x.storage.id with _ | a
    · exact Or.inl ⟨rfl, rfl⟩
    · exact Or.inr ⟨x, a, a, rfl, rfl, .refl a⟩

theorem isSome_open? (p : ObjectId) : (g'.open? p).isSome = (g.open? p).isSome := by
  by_cases hp : p = o
  · rw [hp, ef.open?_self, ef.open?_eq]
    rfl
  · rcases ef.open?_of_ne hp with ⟨h, h'⟩ | ⟨x, a, a', h, h', -⟩
    · rw [h, h']
    · rw [h, h']
      rfl

end WriteEffect

end Graph

section
variable {g g' : Graph} {h : List Event} {o p : ObjectId} {n m v : String} {c : Bool}

theorem Reached.isConstant_eq_cell? (hg : Reached h g) :
    g.isConstant o n = (g.cell? o n).any Prod.snd := by
  rcases hopen : g.open? o with _ | ⟨x, a⟩
  · rw [Graph.isConstant, Graph.cell?, hopen]
    rfl
  · rw [Graph.isConstant_of_open? hopen, Graph.cell?_of_open? hopen]
    exact (hg.recorded.reflects o x a hopen).rooted.isConstant_eq_cell?

theorem Reached.write (hg : Reached h g) (hw : g.setAttr? o n v c = some g') :
    Reached (h ++ [.write o ⟨n, v, c⟩]) g' := Steps.step hg (.grow (.write hw))

/-- **An accepted write changes what is read under one name of one object.** -/
theorem Reached.cell?_write (hg : Reached h g) (hw : g.setAttr? o n v c = some g') (p : ObjectId)
    (m : String) : g'.cell? p m = if p = o ∧ m = n then some (v, c) else g.cell? p m := by
  obtain ⟨ef⟩ := Graph.writeEffect hw
  by_cases hp : p = o
  · subst hp
    have hrooted := (hg.recorded.reflects p _ _ ef.open?_eq).rooted
    rw [Graph.cell?_of_open? ef.open?_self, hrooted.cell?_set ef.set_eq,
      Graph.cell?_of_open? ef.open?_eq]
    simp only [true_and]
  · rw [if_neg fun h => hp h.1]
    rcases ef.open?_of_ne hp with ⟨hnone, hnone'⟩ | ⟨x, a, a', hxa, hxa', hext⟩
    · rw [Graph.cell?, Graph.cell?, hnone, hnone']
    · have hrooted := (hg.recorded.reflects p x a hxa).rooted
      rw [Graph.cell?_of_open? hxa, Graph.cell?_of_open? hxa', hrooted.cell?_extends hext]

/-- **A write that is not constant decides about no other.** -/
theorem Reached.refuses_write (hg : Reached h g) (hw : g.setAttr? o n v false = some g')
    (p : ObjectId) (m : String) : g'.refuses p m = g.refuses p m := by
  obtain ⟨ef⟩ := Graph.writeEffect hw
  have hopen : (g'.open? p).isNone = (g.open? p).isNone := by
    rw [← Option.not_isSome, ← Option.not_isSome, ef.isSome_open?]
  rw [Graph.refuses, Graph.refuses, hopen, (hg.write hw).isConstant_eq_cell?, hg.cell?_write hw]
  split
  · next hpm =>
    -- the write was accepted, so the name was not constant before either
    obtain ⟨rfl, rfl⟩ := hpm
    have haccepted := Graph.refuses_of_setAttr? hw
    rw [Graph.refuses] at haccepted
    rw [haccepted, (Bool.or_eq_false_iff.1 haccepted).1]
    rfl
  · rw [hg.isConstant_eq_cell?]

/-! ## Lists of pairs -/

/-- What a list of pairs comes to, in terms of the graph before it. -/
structure Graph.Batched (g : Graph) (o : ObjectId) (pairs : List (String × String))
    (out : Outcome Bool) : Prop where
  result : out.result = pairs.all fun (n, _) => !g.refuses o n
  notes : out.notes =
    (pairs.filter fun (n, _) => g.refuses o n).map fun (n, _) => .attributeNotSet n
  refuses : ∀ p n, out.graph.refuses p n = g.refuses p n
  cell : ∀ p n, out.graph.cell? p n =
    if p = o ∧ g.refuses o n = false then ((lastValue pairs n).map (·, false)).or (g.cell? p n)
    else g.cell? p n

theorem Reached.batched (hg : Reached h g) (o : ObjectId) (pairs : List (String × String)) :
    g.Batched o pairs (g.setPairs o pairs) := by
  induction pairs generalizing g h with
  | nil => exact ⟨rfl, rfl, fun _ _ => rfl, fun p n => by split <;> rfl⟩
  | cons nv rest ih =>
    obtain ⟨n, v⟩ := nv
    rcases hw : g.setAttr? o n v false with _ | g'
    · have hrefused := Graph.setAttr?_eq_none_iff_refuses.1 hw
      have hrest := ih hg
      simp only [Graph.setPairs, hw]
      refine ⟨?_, ?_, hrest.refuses, fun p m => ?_⟩
      · simp only [List.all_cons, hrefused, Bool.not_true, Bool.false_and]
      · simp only [List.filter_cons, hrefused, if_true, List.map_cons, hrest.notes]
      · rw [hrest.cell, lastValue_cons]
        by_cases hm : m = n
        · rw [hm, hrefused]
          simp
        · rw [if_neg hm, Option.or_none]
    · have haccepted := Graph.refuses_of_setAttr? hw
      have hrest := ih (hg.write hw)
      have hsame : ∀ m, g'.refuses o m = g.refuses o m := hg.refuses_write hw o
      simp only [Graph.setPairs, hw]
      refine ⟨?_, ?_, fun p m => ?_, fun p m => ?_⟩
      · rw [hrest.result]
        simp only [List.all_cons, haccepted, hsame, Bool.not_false, Bool.true_and]
      · rw [hrest.notes]
        simp only [List.filter_cons, haccepted, hsame, Bool.false_eq_true, if_false]
      · rw [hrest.refuses, hg.refuses_write hw]
      · rw [hrest.cell, hg.cell?_write hw, hsame, lastValue_cons]
        by_cases hp : p = o
        · by_cases hm : m = n
          · subst hm
            rcases lastValue rest m <;> simp [hp, haccepted]
          · simp [hp, hm]
        · simp [hp]

/-- The same list once more is decided in the same way, and changes nothing that is read. -/
theorem Graph.Batched.again {pairs : List (String × String)} {out out' : Outcome Bool}
    (hb : g.Batched o pairs out) (hb' : out.graph.Batched o pairs out') :
    out'.result = out.result ∧ out'.notes = out.notes ∧
      ∀ p n, out'.graph.cell? p n = out.graph.cell? p n := by
  refine ⟨?_, ?_, fun p n => ?_⟩
  · rw [hb'.result, hb.result]
    simp only [hb.refuses]
  · rw [hb'.notes, hb.notes]
    simp only [hb.refuses]
  · rw [hb'.cell, hb.refuses, hb.cell]
    split
    · rcases lastValue pairs n <;> rfl
    · rfl

end

/-! ## The batches of designs -/

/-- What a list of pairs for an object of `g` comes to, given the outcome of the call and that
    of the same call once more. -/
structure Graph.Decides (g : Graph) (o : ObjectId) (pairs : List (String × String))
    (once twice : Outcome Reply) : Prop where
  /-- All was written if no pair is refused, -/
  result : once.result = .written (pairs.all fun (n, _) => !g.refuses o n)
  /-- and each refused pair is reported, in order. -/
  reported : once.notes.map Note.record =
    (pairs.filter fun (n, _) => g.refuses o n).map fun (n, _) =>
      ⟨.error, LogId.setAttributes, "could not set attribute " ++ n, Note.location⟩
  /-- A name that is not refused has the value of its last pair and is not constant. -/
  written : ∀ n v, g.refuses o n = false → lastValue pairs n = some v →
    once.graph.attr? o n = some v ∧ once.graph.isConstant o n = false
  /-- All other names are as they were, and those of all other objects. -/
  kept : ∀ p n, (p = o → g.refuses o n = true ∨ lastValue pairs n = none) →
    once.graph.attr? p n = g.attr? p n ∧ once.graph.isConstant p n = g.isConstant p n
  /-- Once more, the answer and the reports are the same, -/
  again : twice.result = once.result ∧ twice.notes = once.notes
  /-- and no attribute changes. -/
  stable : ∀ p n, twice.graph.attr? p n = once.graph.attr? p n ∧
    twice.graph.isConstant p n = once.graph.isConstant p n

/-- A list of pairs for an object that is there is written pair by pair. -/
theorem Graph.perform_setAttrs {g : Graph} {o : ObjectId} {list : List String}
    {pairs : List (String × String)} (ho : (g.objects.get? o).isSome)
    (hp : pairs? list = some pairs) : g.perform (.setAttrs o list) =
      ⟨.written (g.setPairs o pairs).result, (g.setPairs o pairs).graph,
        (g.setPairs o pairs).notes⟩ := by
  obtain ⟨x, hx⟩ := Option.isSome_iff_exists.1 ho
  simp only [perform, setAttrs, hx, hp]

theorem Reached.decides {g : Graph} {h : List Event} (hg : Reached h g) {o : ObjectId}
    {list : List String} (ho : (g.objects.get? o).isSome) {pairs : List (String × String)}
    (hp : Graph.pairs? list = some pairs) : g.Decides o pairs (g.perform (.setAttrs o list))
      ((g.perform (.setAttrs o list)).graph.perform (.setAttrs o list)) := by
  have hs := g.growth_setPairs o pairs
  have hg' : Reached _ (g.setPairs o pairs).graph := Steps.trans hg hs.ofGrowth
  have ho' : ((g.setPairs o pairs).graph.objects.get? o).isSome := by
    obtain ⟨x, hx⟩ := Option.isSome_iff_exists.1 ho
    obtain ⟨y, hy, -⟩ := hs.keeps.object o x hx
    exact hy ▸ rfl
  have hg'' : Reached _ ((g.setPairs o pairs).graph.setPairs o pairs).graph :=
    Steps.trans hg' (Graph.growth_setPairs _ o pairs).ofGrowth
  have hb := hg.batched o pairs
  have hb' := hg'.batched o pairs
  obtain ⟨hresult, hnotes, hcell⟩ := hb.again hb'
  rw [Graph.perform_setAttrs ho hp, Graph.perform_setAttrs ho' hp]
  refine ⟨?_, ?_, fun n v hn hv => ?_, fun p n hpn => ?_, ⟨?_, hnotes⟩, fun p n => ?_⟩
  · rw [hb.result]
  · rw [hb.notes, List.map_map]
    rfl
  · rw [Graph.attr?_eq_cell?, hg'.isConstant_eq_cell?, hb.cell, if_pos ⟨rfl, hn⟩, hv]
    exact ⟨rfl, rfl⟩
  · have hsame : (g.setPairs o pairs).graph.cell? p n = g.cell? p n := by
      rw [hb.cell]
      split
      · next hpo =>
        rcases hpn hpo.1 with hr | hv
        · rw [hr] at hpo
          cases hpo.2
        · rw [hv]
          rfl
      · rfl
    rw [Graph.attr?_eq_cell?, Graph.attr?_eq_cell?, hg'.isConstant_eq_cell?,
      hg.isConstant_eq_cell?, hsame]
    exact ⟨rfl, rfl⟩
  · rw [hresult]
  · rw [Graph.attr?_eq_cell?, Graph.attr?_eq_cell?, hg''.isConstant_eq_cell?,
      hg'.isConstant_eq_cell?, hcell]
    exact ⟨rfl, rfl⟩

/-- What a flat list comes to in a design after some calls, with any logger. -/
structure Design.Batches (l : Logger) (cs : List Call) : Prop where
  /-- If the object is gone, nothing happens at all. -/
  gone : ∀ l' o list, (after l cs).graph.objects.get? o = none →
    Design.perform ⟨(after l cs).graph, l'⟩ (.setAttrs o list) =
      (.written false, ⟨(after l cs).graph, l'⟩)
  /-- A list of odd length is reported, and nothing else happens. -/
  odd : ∀ l' o list, ((after l cs).graph.objects.get? o).isSome → list.length % 2 = 1 →
    Design.perform ⟨(after l cs).graph, l'⟩ (.setAttrs o list) =
      (.written false, ⟨(after l cs).graph, l'.log ⟨.error, LogId.setAttributes,
        "need a value for every attribute in attribute list", Note.location⟩⟩)
  /-- Any other list is a list of pairs. -/
  even : ∀ o list, ((after l cs).graph.objects.get? o).isSome → list.length % 2 = 0 →
    ∃ pairs, list = pairs.flatMap (fun (n, v) => [n, v]) ∧
      (after l cs).graph.Decides o pairs ((after l cs).graph.perform (.setAttrs o list))
        (((after l cs).graph.perform (.setAttrs o list)).graph.perform (.setAttrs o list))

/-- **Whatever the calls, a batch of writes is decided at its start, pair by pair.** -/
theorem batches_are_decided_at_the_start (l : Logger) (cs : List Call) : Design.Batches l cs := by
  have hg := reached_after l cs
  refine ⟨?_, ?_, ?_⟩
  · intro l' o list ho
    simp only [Design.perform, Graph.perform, Graph.setAttrs, ho]
    rfl
  · intro l' o list ho hodd
    obtain ⟨x, hx⟩ := Option.isSome_iff_exists.1 ho
    rcases Graph.pairs?_cases list with ⟨hnone, -⟩ | ⟨pairs, -, heven, -⟩
    · simp only [Design.perform, Graph.perform, Graph.setAttrs, hx, hnone]
      rfl
    · omega
  · intro o list ho heven
    rcases Graph.pairs?_cases list with ⟨-, hodd⟩ | ⟨pairs, hp, -, hflat⟩
    · omega
    · exact ⟨pairs, hflat, hg.decides ho hp⟩

/-- Two pairs for a name, one for a constant: the later one stays, the constant is reported. -/
example : let d := Design.after { defaultLevel := .error } [
      .create (.module "cpu" false true) none,
      .setAttrs ⟨0⟩ ["lang", "vhdl", "name", "core", "lang", "verilog"]]
    d.graph.attr? ⟨0⟩ "lang" = some "verilog" ∧ d.graph.attr? ⟨0⟩ "name" = some "cpu" ∧
      d.logger.records.map (·.message) = #["could not set attribute name"] := by
  decide +kernel

end DesignGraph
