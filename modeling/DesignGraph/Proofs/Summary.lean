/-
  The summary of a logger — a canonical form of its thresholds.

  The summary has a line for the default level and one for each id with a level of its own,
  by rising id.  It depends on the levels alone, not on how they came about or in which order
  they are kept.  Conversely the levels can be read off it, if no id holds white space: then
  the blank behind an id ends it.

  * `Lists m es`: the levels of `m`, each once, in any order; `Lists.sortLevels_eq`: they are
    the same by rising id;
  * `Logger.defaultLine` and `Logger.overrideLine`: the lines of a summary;
    `defaultLine_inj` and `overrideLine_inj`: the level, and the id, are read off a line;
  * `summaries_are_canonical` is what follows for loggers.
-/
import DesignGraph.Proofs.Delimiters
import DesignGraph.Proofs.Journal
import DesignGraph.Proofs.Validation

namespace DesignGraph

/-! ## Lists of levels -/

/-- A list of the levels of a map, each once, in any order. -/
structure Lists (m : LevelMap) (es : List (LogId × Level)) : Prop where
  nodup : (es.map Prod.fst).Nodup
  mem : ∀ id level, (id, level) ∈ es ↔ m[id]? = some level

/-- Levels in the order of their ids. -/
def sortLevels (es : List (LogId × Level)) : List (LogId × Level) :=
  es.mergeSort fun e f => e.1 ≤ f.1

theorem pairwise_toList_lt (m : LevelMap) : m.toList.Pairwise fun e f => e.1 < f.1 := by
  rw [← List.pairwise_map (f := Prod.fst), Std.ExtTreeMap.map_fst_toList_eq_keys]
  exact Settings.pairwise_keys_lt m

namespace Lists

variable {m : LevelMap} {es : List (LogId × Level)}

theorem toList (m : LevelMap) : Lists m m.toList where
  nodup := by
    rw [List.nodup_iff_pairwise_ne, List.pairwise_map]
    exact (pairwise_toList_lt m).imp String.ne_of_lt
  mem _ _ := Std.ExtTreeMap.mem_toList_iff_getElem?_eq_some

/-- By rising id they are always in the same order. -/
theorem sortLevels_eq (h : Lists m es) : sortLevels es = m.toList := by
  have hperm : (sortLevels es).Perm m.toList := by
    refine (List.mergeSort_perm es _).trans ?_
    refine (List.perm_ext_iff_of_nodup h.nodup.of_map (toList m).nodup.of_map).2 fun e => ?_
    rw [h.mem e.1 e.2, (toList m).mem e.1 e.2]
  have hsorted : (sortLevels es).Pairwise fun e f => e.1 ≤ f.1 := by
    refine (List.pairwise_mergeSort ?_ ?_ es).imp of_decide_eq_true
    · intro e f g hef hfg
      exact decide_eq_true (String.le_trans (of_decide_eq_true hef) (of_decide_eq_true hfg))
    · intro e f
      simpa using String.le_total e.1 f.1
  refine hperm.eq_of_pairwise ?_ hsorted
    ((pairwise_toList_lt m).imp fun h => String.not_lt.1 (String.lt_asymm h))
  -- an id has one level only
  rintro ⟨id, a⟩ ⟨id', b⟩ he hf hle hge
  obtain rfl : id = id' := String.le_antisymm hle hge
  have ha := ((toList m).mem id a).1 (hperm.mem_iff.1 he)
  rw [((toList m).mem id b).1 hf] at ha
  rw [Option.some.inj ha]

end Lists

/-! ## Lines -/

theorem Level.newline_notMem_label (a : Level) : '\n' ∉ a.label.toList := by
  cases a <;> decide

namespace Logger

/-- The line for the default level. -/
def defaultLine (level : Level) : String := "Default loglevel is " ++ level.label ++ "\n"

/-- The line for an id with a level of its own. -/
def overrideLine (e : LogId × Level) : String :=
  "LogID: " ++ e.1 ++ " is set to level " ++ e.2.label ++ "\n"

theorem settingsSummary_eq (l : Logger) : l.settingsSummary =
    defaultLine l.defaultLevel ++ String.join (l.overrides.toList.map overrideLine) := rfl

/-- The summary depends on the levels only. -/
theorem settingsSummary_congr {l l' : Logger} (hd : l.defaultLevel = l'.defaultLevel)
    (ho : ∀ id : LogId, l.overrides[id]? = l'.overrides[id]?) :
    l.settingsSummary = l'.settingsSummary := by
  rw [settingsSummary_eq, settingsSummary_eq, hd, Std.ExtTreeMap.ext_getElem? ho]

theorem toList_defaultLine_append (a : Level) (s : String) : (defaultLine a ++ s).toList =
    "Default loglevel is ".toList ++ (a.label.toList ++ '\n' :: s.toList) := by
  unfold defaultLine
  generalize a.label = label
  simp

theorem toList_overrideLine_append (e : LogId × Level) (s : String) :
    (overrideLine e ++ s).toList = "LogID: ".toList ++ (e.1.toList ++ ' ' ::
      ("is set to level ".toList ++ (e.2.label.toList ++ '\n' :: s.toList))) := by
  simp [overrideLine]

theorem overrideLine_append_ne_empty (e : LogId × Level) (s : String) :
    overrideLine e ++ s ≠ "" := by
  intro h
  have hlist := congrArg String.toList h
  rw [toList_overrideLine_append] at hlist
  cases hlist

/-- The default level is read off a text that its line begins. -/
theorem defaultLine_inj {a b : Level} {s t : String} (h : defaultLine a ++ s = defaultLine b ++ t) :
    a = b ∧ s = t := by
  have hlist := congrArg String.toList h
  rw [toList_defaultLine_append, toList_defaultLine_append, List.append_right_inj] at hlist
  obtain ⟨hlevel, hrest⟩ := Level.eq_of_label Level.newline_notMem_label hlist
  exact ⟨hlevel, String.toList_inj.1 hrest⟩

/-- An id without blanks and its level are read off a text that their line begins. -/
theorem overrideLine_inj {e f : LogId × Level} {s t : String} (he : ' ' ∉ e.1.toList)
    (hf : ' ' ∉ f.1.toList) (h : overrideLine e ++ s = overrideLine f ++ t) : e = f ∧ s = t := by
  have hlist := congrArg String.toList h
  rw [toList_overrideLine_append, toList_overrideLine_append, List.append_right_inj] at hlist
  obtain ⟨hid, hrest⟩ := eq_of_append_cons he hf hlist
  rw [List.append_right_inj] at hrest
  obtain ⟨hlevel, hrest⟩ := Level.eq_of_label Level.newline_notMem_label hrest
  exact ⟨Prod.ext (String.toList_inj.1 hid) hlevel, String.toList_inj.1 hrest⟩

/-- All of them are read off their lines, one after the other. -/
theorem join_overrideLine_inj {es fs : List (LogId × Level)} (hes : ∀ e ∈ es, ' ' ∉ e.1.toList)
    (hfs : ∀ f ∈ fs, ' ' ∉ f.1.toList)
    (h : String.join (es.map overrideLine) = String.join (fs.map overrideLine)) : es = fs := by
  induction es generalizing fs with
  | nil =>
    cases fs with
    | nil => rfl
    | cons f fs =>
      rw [List.map_cons, String.join_cons] at h
      exact absurd h.symm (overrideLine_append_ne_empty f _)
  | cons e es ih =>
    cases fs with
    | nil =>
      rw [List.map_cons, String.join_cons] at h
      exact absurd h (overrideLine_append_ne_empty e _)
    | cons f fs =>
      rw [List.map_cons, List.map_cons, String.join_cons, String.join_cons] at h
      obtain ⟨he, hes'⟩ := List.forall_mem_cons.1 hes
      obtain ⟨hf, hfs'⟩ := List.forall_mem_cons.1 hfs
      obtain ⟨hef, hrest⟩ := overrideLine_inj he hf h
      rw [hef, ih hes' hfs' hrest]

/-- **The levels are read off the summary, if no id holds a blank.** -/
theorem settingsSummary_inj {l l' : Logger} (hl : ∀ id ∈ l.overrides, ' ' ∉ id.toList)
    (hl' : ∀ id ∈ l'.overrides, ' ' ∉ id.toList) (h : l.settingsSummary = l'.settingsSummary) :
    l.defaultLevel = l'.defaultLevel ∧ l.overrides = l'.overrides := by
  have hids {m : LevelMap} (hm : ∀ id ∈ m, ' ' ∉ id.toList) : ∀ e ∈ m.toList, ' ' ∉ e.1.toList := by
    intro e he
    refine hm e.1 (Std.ExtTreeMap.mem_iff_isSome_getElem?.2 ?_)
    rw [((Lists.toList m).mem e.1 e.2).1 he]
    rfl
  rw [settingsSummary_eq, settingsSummary_eq] at h
  obtain ⟨hd, hrest⟩ := defaultLine_inj h
  exact ⟨hd, Std.ExtTreeMap.toList_inj.1 (join_overrideLine_inj (hids hl) (hids hl') hrest)⟩

end Logger

/-! ## The summaries of loggers -/

/-- What the summaries of two loggers say after the calls `cs` and `cs'`. -/
structure Logger.Summaries (l l' : Logger) (cs cs' : List LoggerCall) : Prop where
  /-- They are the same if the calls lead to the same levels. -/
  same : (l.after cs).defaultLevel = (l'.after cs').defaultLevel →
    (∀ id : LogId, (l.after cs).overrides[id]? = (l'.after cs').overrides[id]?) →
    (l.after cs).settingsSummary = (l'.after cs').settingsSummary
  /-- After the default there is one line for each id with a level of its own, by rising id. -/
  lines : ∃ es, Lists (l.after cs).overrides es ∧ (es.Pairwise fun e f => e.1 < f.1) ∧
    (l.after cs).settingsSummary =
      defaultLine (l.after cs).defaultLevel ++ String.join (es.map overrideLine)
  /-- In which order the levels are kept makes no difference. -/
  sorted : ∀ es, Lists (l.after cs).overrides es → (l.after cs).settingsSummary =
    defaultLine (l.after cs).defaultLevel ++ String.join ((sortLevels es).map overrideLine)
  /-- They tell the levels, if no id holds white space. -/
  told : (∀ id ∈ (l.after cs).overrides, ∀ c ∈ id.toList, isSpace c = false) →
    (∀ id ∈ (l'.after cs').overrides, ∀ c ∈ id.toList, isSpace c = false) →
    (l.after cs).settingsSummary = (l'.after cs').settingsSummary →
    (l.after cs).defaultLevel = (l'.after cs').defaultLevel ∧
      ∀ id : LogId, (l.after cs).overrides[id]? = (l'.after cs').overrides[id]?
  /-- So it is with settings that are taken. -/
  configured : ∀ read text s, Settings.parse read text = .ok s →
    ∀ id ∈ s.logger.overrides, ∀ c ∈ id.toList, isSpace c = false

/-- **The summary of a logger depends on its levels alone, and tells them.** -/
theorem summaries_are_canonical (l l' : Logger) (cs cs' : List LoggerCall) :
    Logger.Summaries l l' cs cs' := by
  refine ⟨?_, ?_, ?_, ?_, ?_⟩
  · exact Logger.settingsSummary_congr
  · exact ⟨_, .toList _, pairwise_toList_lt _, Logger.settingsSummary_eq _⟩
  · intro es hes
    rw [hes.sortLevels_eq, Logger.settingsSummary_eq]
  · have hblank {m : LevelMap} (hm : ∀ id ∈ m, ∀ c ∈ id.toList, isSpace c = false) :
        ∀ id ∈ m, ' ' ∉ id.toList := by
      intro id hid hmem
      exact absurd (hm id hid ' ' hmem) (by decide)
    intro hl hl' h
    obtain ⟨hd, ho⟩ := Logger.settingsSummary_inj (hblank hl) (hblank hl') h
    exact ⟨hd, fun id => by rw [ho]⟩
  · intro read text s h id hid
    rw [Settings.overrides_logger] at hid
    exact ((Settings.parse_eq_ok_iff.1 h).2 id hid).2

/-- An id with white space can pass for two. -/
example : ((Logger.fresh .info ∅).after
      [.setLevel "a is set to level D\nLogID: b" .debug]).settingsSummary =
    ((Logger.fresh .info ∅).after
      [.setLevel "b" .debug, .setLevel "a" .debug]).settingsSummary := by
  decide +kernel

end DesignGraph
