/-
  The journal — thresholds and records as the calls on a logger make them.

  The threshold of an id is the level that was set for it last, unless that was cleared since,
  and else the default level that was set last.  A record is kept if it passes the threshold
  of the moment it is logged, until records are taken.  Nothing else becomes of it: later
  thresholds do not matter.

  * `Logger.fresh` is a logger that was offered nothing yet, `Logger.after` what calls make
    of it;
  * `Logger.thresholdBy` and `Logger.keptBy` read the thresholds and the records off the
    calls alone, `keptAt` the record at one place; `keptBy_concat` is the step;
  * `Logger.threshold_after` and `Logger.records_after`: the logger has these;
  * `loggers_keep_what_passed` is what follows for loggers.
-/
import DesignGraph.Proofs.Reports

namespace DesignGraph

/-! ## What a call sets -/

namespace LoggerCall

/-- The default level that a call sets. -/
def default? : LoggerCall → Option Level
  | setDefaultLevel level => some level
  | _ => none

/-- What a call says of the level of an id: a level for it, or none any more. -/
def override? (id : LogId) : LoggerCall → Option (Option Level)
  | setLevel i level => if i = id then some (some level) else none
  | clearLevel i => if i = id then some none else none
  | _ => none

/-- Whether a call is about levels only. -/
def isSetting : LoggerCall → Bool
  | setDefaultLevel _ | setLevel .. | clearLevel _ => true
  | _ => false

end LoggerCall

namespace Logger

variable {l : Logger} {level : Level} {m : LevelMap} {cs ds : List LoggerCall} {c : LoggerCall}
  {id : LogId}

/-- A logger that was offered no records yet.  A new one has no levels for single ids, one
    that is made of settings has theirs. -/
def fresh (level : Level) (m : LevelMap) : Logger := { defaultLevel := level, overrides := m }

/-- The logger after some calls. -/
def after (l : Logger) (cs : List LoggerCall) : Logger := cs.foldl perform l

theorem after_append (l : Logger) (cs ds : List LoggerCall) :
    l.after (cs ++ ds) = (l.after cs).after ds := List.foldl_append

theorem after_concat (l : Logger) (cs : List LoggerCall) (c : LoggerCall) :
    l.after (cs ++ [c]) = (l.after cs).perform c := l.after_append cs [c]

/-! ## Thresholds -/

/-- The default level that was set last, at first `level`. -/
def lastDefault (level : Level) (cs : List LoggerCall) : Level :=
  (cs.reverse.findSome? (·.default?)).getD level

/-- The level that was set for an id last, if it was not cleared since; at first that of `m`. -/
def lastOverride (m : LevelMap) (cs : List LoggerCall) (id : LogId) : Option Level :=
  (cs.reverse.findSome? (·.override? id)).getD m[id]?

/-- The threshold that an id should have. -/
def thresholdBy (level : Level) (m : LevelMap) (cs : List LoggerCall) (id : LogId) : Level :=
  (lastOverride m cs id).getD (lastDefault level cs)

theorem lastDefault_concat :
    lastDefault level (cs ++ [c]) = c.default?.getD (lastDefault level cs) := by
  rw [lastDefault, List.reverse_concat, List.findSome?_cons]
  rcases c.default? with _ | a <;> rfl

theorem lastOverride_concat :
    lastOverride m (cs ++ [c]) id = (c.override? id).getD (lastOverride m cs id) := by
  rw [lastOverride, List.reverse_concat, List.findSome?_cons]
  rcases c.override? id with _ | a <;> rfl

theorem defaultLevel_perform (l : Logger) (c : LoggerCall) :
    (l.perform c).defaultLevel = c.default?.getD l.defaultLevel := by
  cases c with
  | setDefaultLevel | setLevel | clearLevel | takeAll => rfl
  | _ => exact defaultLevel_log l _

theorem getElem?_perform (l : Logger) (c : LoggerCall) (id : LogId) :
    (l.perform c).overrides[id]? = (c.override? id).getD l.overrides[id]? := by
  cases c with
  | setLevel i level =>
    simp only [perform, setLevel, LoggerCall.override?, Std.ExtTreeMap.getElem?_insert,
      Std.LawfulEqCmp.compare_eq_iff_eq]
    split <;> rfl
  | clearLevel i =>
    simp only [perform, clearLevel, LoggerCall.override?, Std.ExtTreeMap.getElem?_erase,
      Std.LawfulEqCmp.compare_eq_iff_eq]
    split <;> rfl
  | setDefaultLevel | takeAll => rfl
  | _ => exact congrArg (·[id]?) (overrides_log l _)

theorem defaultLevel_after (level : Level) (m : LevelMap) (cs : List LoggerCall) :
    ((fresh level m).after cs).defaultLevel = lastDefault level cs := by
  induction cs using List.reverseRecOn with
  | nil => rfl
  | append_singleton cs c ih => rw [after_concat, defaultLevel_perform, ih, lastDefault_concat]

theorem getElem?_after (level : Level) (m : LevelMap) (cs : List LoggerCall) (id : LogId) :
    ((fresh level m).after cs).overrides[id]? = lastOverride m cs id := by
  induction cs using List.reverseRecOn with
  | nil => rfl
  | append_singleton cs c ih => rw [after_concat, getElem?_perform, ih, lastOverride_concat]

/-- **The thresholds are those that the calls set.** -/
theorem threshold_after (level : Level) (m : LevelMap) (cs : List LoggerCall) (id : LogId) :
    ((fresh level m).after cs).threshold id = thresholdBy level m cs id := by
  rw [threshold, Std.ExtTreeMap.getD_eq_getD_getElem?, getElem?_after, defaultLevel_after]
  rfl

/-! ## Records -/

/-- The record that should be left of the call `c` at the place `i`: the one that it offers, if
    this passes the threshold that its id has by the calls before, and is not taken by those
    after. -/
def keptAt (level : Level) (m : LevelMap) (cs : List LoggerCall) (i : Nat) (c : LoggerCall) :
    Option LogRecord :=
  c.record?.filter fun r =>
    thresholdBy level m (cs.take i) r.id ≤ r.level ∧ .takeAll ∉ cs.drop (i + 1)

/-- The records that should be kept, in the order in which they are logged. -/
def keptBy (level : Level) (m : LevelMap) (cs : List LoggerCall) : List LogRecord :=
  cs.zipIdx.filterMap fun (c, i) => keptAt level m cs i c

section
variable {b : LoggerCall} {i : Nat}

/-- A call that takes no records makes no difference to the places before it. -/
theorem keptAt_concat (hi : i < cs.length) (hc : c ≠ .takeAll) :
    keptAt level m (cs ++ [c]) i b = keptAt level m cs i b := by
  simp [keptAt, List.take_append_of_le_length hi.le, List.drop_append_of_le_length hi, hc.symm]

theorem keptAt_concat_takeAll (hi : i < cs.length) :
    keptAt level m (cs ++ [.takeAll]) i b = none := by
  simp [keptAt, List.drop_append_of_le_length hi]

/-- The last call has all others before it and none after it. -/
theorem keptAt_length : keptAt level m (cs ++ [c]) cs.length c =
    c.record?.filter fun r => thresholdBy level m cs r.id ≤ r.level := by
  have hdrop : (cs ++ [c]).drop (cs.length + 1) = [] := List.drop_eq_nil_of_le (by simp)
  simp only [keptAt, List.take_left, hdrop, List.not_mem_nil, not_false_eq_true, and_true]

end

theorem keptBy_concat : keptBy level m (cs ++ [c]) = if c = .takeAll then [] else
    keptBy level m cs ++
      (c.record?.filter fun r => thresholdBy level m cs r.id ≤ r.level).toList := by
  rw [keptBy, List.zipIdx_append, List.filterMap_append]
  split
  · next hc =>
    subst hc
    rw [List.append_eq_nil_iff, List.filterMap_eq_nil_iff]
    refine ⟨?_, rfl⟩
    rintro ⟨b, i⟩ hb
    exact keptAt_concat_takeAll (List.mem_zipIdx' hb).1
  · next hc =>
    congr 1
    · refine List.filterMap_congr ?_
      rintro ⟨b, i⟩ hb
      exact keptAt_concat (List.mem_zipIdx' hb).1 hc
    · rw [← keptAt_length, List.zipIdx_singleton, Nat.zero_add]
      simp only [List.filterMap_cons, List.filterMap_nil]
      rcases keptAt level m (cs ++ [c]) cs.length c with _ | r <;> rfl

theorem records_perform (l : Logger) (c : LoggerCall) :
    (l.perform c).records.toList = if c = .takeAll then [] else
      l.records.toList ++ (c.record?.filter l.passes).toList := by
  rcases hr : c.record? with _ | r
  · cases c with
    | takeAll => rfl
    | setDefaultLevel | setLevel | clearLevel =>
      rw [if_neg (by simp)]
      exact (List.append_nil _).symm
    | _ => cases hr
  · have hc : c ≠ .takeAll := by
      rintro rfl
      cases hr
    rw [if_neg hc, perform_of_record? hr]
    by_cases h : l.passes r
    · rw [records_log_of_passes h, Array.toList_push, Option.filter_some_pos h]
      rfl
    · rw [log_of_not_passes h, Option.filter_some_neg (Bool.eq_false_iff.2 h)]
      exact (List.append_nil _).symm

/-- **The records are those that passed since records were taken.** -/
theorem records_after (level : Level) (m : LevelMap) (cs : List LoggerCall) :
    ((fresh level m).after cs).records.toList = keptBy level m cs := by
  induction cs using List.reverseRecOn with
  | nil => rfl
  | append_singleton cs c ih =>
    have hpasses : ((fresh level m).after cs).passes =
        fun r => decide (thresholdBy level m cs r.id ≤ r.level) := by
      funext r
      rw [passes, threshold_after]
    rw [after_concat, records_perform, ih, hpasses, keptBy_concat]

/-- Calls that are about levels only leave the records alone. -/
theorem records_after_of_isSetting (hds : ∀ c ∈ ds, c.isSetting) :
    (l.after ds).records = l.records := by
  induction ds generalizing l with
  | nil => rfl
  | cons c ds ih =>
    obtain ⟨hc, hds⟩ := List.forall_mem_cons.1 hds
    refine (ih hds).trans ?_
    cases c with
    | setDefaultLevel | setLevel | clearLevel => rfl
    | _ => cases hc

/-! ## Counts -/

theorem countAtLeast_anti (l : Logger) {a b : Level} (h : a ≤ b) :
    l.countAtLeast b ≤ l.countAtLeast a := by
  refine Array.countP_mono_left fun r _ hr => ?_
  rw [decide_eq_true_iff] at hr ⊢
  exact Nat.le_trans h hr

theorem hasErrors_iff (l : Logger) : l.hasErrors = true ↔ 0 < l.countAtLeast .error := by
  rw [hasErrors, countAtLeast, Array.countP_pos_iff, Array.any_eq_true']
  rfl

/-! ## The journal of a logger -/

/-- What a logger does that was offered nothing before the calls `cs`. -/
structure Journal (level : Level) (m : LevelMap) (cs : List LoggerCall) : Prop where
  threshold : ∀ id, ((fresh level m).after cs).threshold id = thresholdBy level m cs id
  records : ((fresh level m).after cs).records.toList = keptBy level m cs
  /-- These are what is taken, and nothing is left. -/
  taken : ((fresh level m).after cs).takeAll.1.toList = keptBy level m cs ∧
    ((fresh level m).after (cs ++ [.takeAll])).records = #[]
  /-- Setting levels neither drops records nor brings any back. -/
  lasting : ∀ ds, (∀ c ∈ ds, c.isSetting) →
    ((fresh level m).after (cs ++ ds)).records = ((fresh level m).after cs).records
  count : ∀ a, ((fresh level m).after cs).countAtLeast a =
    ((keptBy level m cs).filter fun r => a ≤ r.level).length
  anti : ∀ a b, a ≤ b →
    ((fresh level m).after cs).countAtLeast b ≤ ((fresh level m).after cs).countAtLeast a
  errors : ((fresh level m).after cs).hasErrors = true ↔
    0 < ((fresh level m).after cs).countAtLeast .error
  suppressed : ∀ a id, ((fresh level m).after cs).isSuppressed a id = true ↔
    a < thresholdBy level m cs id
  /-- A record that a call offers is added, as the last one, unless it is suppressed just
      before. -/
  added : ∀ c r, c.record? = some r → ((fresh level m).after (cs ++ [c])).records =
    if ((fresh level m).after cs).isSuppressed r.level r.id then ((fresh level m).after cs).records
    else ((fresh level m).after cs).records.push r

end Logger

/-- **Whatever the calls, a logger keeps what passed when it was logged.** -/
theorem loggers_keep_what_passed (level : Level) (m : LevelMap) (cs : List LoggerCall) :
    Logger.Journal level m cs := by
  refine ⟨?_, ?_, ⟨?_, ?_⟩, ?_, ?_, ?_, ?_, ?_, ?_⟩
  · exact Logger.threshold_after level m cs
  · exact Logger.records_after level m cs
  · exact Logger.records_after level m cs
  · rw [Logger.after_concat]
    rfl
  · intro ds hds
    rw [Logger.after_append, Logger.records_after_of_isSetting hds]
  · intro a
    rw [Logger.countAtLeast, ← Array.countP_toList, Logger.records_after,
      List.countP_eq_length_filter]
  · intro a b h
    exact Logger.countAtLeast_anti _ h
  · exact Logger.hasErrors_iff _
  · intro a id
    rw [Logger.isSuppressed, Logger.threshold_after, decide_eq_true_iff]
  · intro c r hr
    rw [Logger.after_concat, Logger.perform_of_record? hr]
    exact Logger.records_log _ r

/-- A record that passed stays when the level is raised, one that did not is not brought back
    when it is lowered. -/
example : (((Logger.fresh .warning ∅).after [.setLevel "a" .debug, .info "a" "1" default,
      .info "b" "2" default, .clearLevel "a", .info "a" "3" default,
      .setDefaultLevel .debug]).records.map (·.message)) = #["1"] := by
  decide +kernel

end DesignGraph
