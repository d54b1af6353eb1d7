/-
  Reports — what a design says has no part in what it does, and a logger keeps exactly
  what passes its thresholds.

  A session mixes calls on a design with calls on its logger.  The answers and the graph
  are those of the calls on the design, and a logger without records of its own keeps
  what one that keeps everything has, sifted.

  * `Graph.replies`, `Graph.said`: what calls answer and what they say, without a logger
    (`Design.replies_run`, `Design.logger_run`);
  * `LoggerCall`, `Action`, `Design.session`: calls on the logger between the others
    (`Design.replies_session`, `Design.graph_session`);
  * `Graph.collect`: what a logger without thresholds has in the end
    (`Design.records_session`);
  * `Logger.Sifts`: one logger keeps what another one does, if it passes; `Sifts.act` is
    the step and `Sifts.session` the run;
  * `logging_is_invisible` is what follows for designs.
-/
import DesignGraph.Proofs.History

namespace DesignGraph

/-! ## Answers and notes -/

namespace Graph

/-- The answers to calls. -/
def replies (g : Graph) : List Call → List Reply
  | [] => []
  | c :: cs => (g.perform c).result :: (g.perform c).graph.replies cs

/-- What is said during calls. -/
def said (g : Graph) : List Call → List Note
  | [] => []
  | c :: cs => (g.perform c).notes ++ (g.perform c).graph.said cs

end Graph

theorem Logger.logAll_append (l : Logger) (rs qs : List LogRecord) :
    l.logAll (rs ++ qs) = (l.logAll rs).logAll qs := List.foldl_append

theorem Design.replies_run (d : Design) (cs : List Call) : (d.run cs).1 = d.graph.replies cs := by
  induction cs generalizing d with
  | nil => rfl
  | cons c cs ih => exact congrArg ((d.graph.perform c).result :: ·) (ih (d.perform c).2)

theorem Design.logger_run (d : Design) (cs : List Call) :
    (d.run cs).2.logger = d.logger.logAll ((d.graph.said cs).map Note.record) := by
  induction cs generalizing d with
  | nil => rfl
  | cons c cs ih =>
    rw [Graph.said, List.map_append, Logger.logAll_append]
    exact ih (d.perform c).2

/-! ## Sessions -/

/-- An operation on a logger. -/
inductive LoggerCall where
  | setDefaultLevel (level : Level)
  | setLevel (id : LogId) (level : Level)
  | clearLevel (id : LogId)
  | log (r : LogRecord)
  | debug (id : LogId) (message : String) (location : Location)
  | info (id : LogId) (message : String) (location : Location)
  | warning (id : LogId) (message : String) (location : Location)
  | error (id : LogId) (message : String) (location : Location)
  | internalError (id : LogId) (message : String) (location : Location)
  | takeAll
deriving DecidableEq

/-- Carries out a call on a logger. -/
def Logger.perform (l : Logger) : LoggerCall → Logger
  | .setDefaultLevel level => l.setDefaultLevel level
  | .setLevel id level => l.setLevel id level
  | .clearLevel id => l.clearLevel id
  | .log r => l.log r
  | .debug id message location => l.debug id message location
  | .info id message location => l.info id message location
  | .warning id message location => l.warning id message location
  | .error id message location => l.error id message location
  | .internalError id message location => l.internalError id message location
  | .takeAll => l.takeAll.2

/-- The record that a call offers. -/
def LoggerCall.record? : LoggerCall → Option LogRecord
  | log r => some r
  | debug id message location => some ⟨.debug, id, message, location⟩
  | info id message location => some ⟨.info, id, message, location⟩
  | warning id message location => some ⟨.warning, id, message, location⟩
  | error id message location => some ⟨.error, id, message, location⟩
  | internalError id message location => some ⟨.internalError, id, message, location⟩
  | setDefaultLevel _ | setLevel .. | clearLevel _ | takeAll => none

/-- **A call that offers a record does nothing else.** -/
theorem Logger.perform_of_record? {c : LoggerCall} {r : LogRecord} (h : c.record? = some r)
    (l : Logger) : l.perform c = l.log r := by
  cases c with
  | setDefaultLevel | setLevel | clearLevel | takeAll => cases h
  | _ =>
    cases h
    rfl

/-- A call on a design or on its logger. -/
inductive Action where
  | design (c : Call)
  | logger (c : LoggerCall)

namespace Action

/-- The call on the design, if it is one. -/
def call? : Action → Option Call
  | design c => some c
  | logger _ => none

/-- Whether an action leaves the thresholds as they are. -/
def keepsThresholds : Action → Bool
  | logger (.setDefaultLevel _) | logger (.setLevel ..) | logger (.clearLevel _) => false
  | _ => true

/-- Whether an action takes the records away. -/
def takes : Action → Bool
  | logger .takeAll => true
  | _ => false

end Action

namespace Design

/-- Carries out an action; only a call on the design has an answer here. -/
def act (d : Design) : Action → Option Reply × Design
  | .design c => ((d.perform c).1, (d.perform c).2)
  | .logger c => (none, { d with logger := d.logger.perform c })

/-- Carries out actions in order. -/
def session (d : Design) : List Action → List Reply × Design
  | [] => ([], d)
  | a :: as =>
    let (reply, d) := d.act a
    let (replies, d) := session d as
    (reply.toList ++ replies, d)

/-- The answers are those of the calls on the design alone. -/
theorem replies_session (d : Design) (as : List Action) :
    (d.session as).1 = d.graph.replies (as.filterMap Action.call?) := by
  induction as generalizing d with
  | nil => rfl
  | cons a as ih =>
    cases a with
    | design c => exact congrArg ((d.graph.perform c).result :: ·) (ih (d.perform c).2)
    | logger c => exact ih { d with logger := d.logger.perform c }

/-- So is the graph. -/
theorem graph_session (d : Design) (as : List Action) :
    (d.session as).2.graph = d.graph.after (as.filterMap Action.call?) := by
  induction as generalizing d with
  | nil => rfl
  | cons a as ih =>
    cases a with
    | design c => exact ih (d.perform c).2
    | logger c => exact ih { d with logger := d.logger.perform c }

end Design

/-! ## What is offered to a logger -/

/-- What an action offers to the logger. -/
def Graph.offer (g : Graph) : Action → List LogRecord
  | .design c => (g.perform c).notes.map Note.record
  | .logger c => c.record?.toList

/-- The records `rs` and all that actions offer to the logger after them, in order, unless
    they are taken away. -/
def Graph.collect (g : Graph) (rs : List LogRecord) : List Action → List LogRecord
  | [] => rs
  | a :: as => (g.after a.call?.toList).collect (if a.takes then [] else rs ++ g.offer a) as

/-- An action that neither changes thresholds nor takes records offers some. -/
theorem Design.logger_act (d : Design) {a : Action} (ha : a.keepsThresholds)
    (ht : a.takes = false) :
    (d.act a).2.logger = d.logger.logAll (d.graph.offer a) := by
  cases a with
  | design c => rfl
  | logger c =>
    cases c with
    | takeAll => cases ht
    | setDefaultLevel | setLevel | clearLevel => cases ha
    | _ => rfl

theorem Design.logger_act_of_takes (d : Design) {a : Action} (ht : a.takes) :
    (d.act a).2.logger = d.logger.takeAll.2 := by
  cases a with
  | design c => cases ht
  | logger c =>
    cases c with
    | takeAll => rfl
    | _ => cases ht

theorem Design.graph_act (d : Design) (a : Action) :
    (d.act a).2.graph = d.graph.after a.call?.toList := by
  cases a <;> rfl

theorem Design.threshold_act (d : Design) {a : Action} (ha : a.keepsThresholds) (id : LogId) :
    (d.act a).2.logger.threshold id = d.logger.threshold id := by
  cases a with
  | design c => exact d.logger.threshold_logAll _ id
  | logger c =>
    rcases hr : c.record? with _ | r
    · cases c with
      | takeAll => rfl
      | setDefaultLevel | setLevel | clearLevel => cases ha
      | _ => cases hr
    · show (d.logger.perform c).threshold id = d.logger.threshold id
      rw [d.logger.perform_of_record? hr, Logger.threshold_log]

theorem Design.threshold_session (d : Design) {as : List Action}
    (has : ∀ a ∈ as, a.keepsThresholds) (id : LogId) :
    (d.session as).2.logger.threshold id = d.logger.threshold id := by
  induction as generalizing d with
  | nil => rfl
  | cons a as ih =>
    obtain ⟨ha, has⟩ := List.forall_mem_cons.1 has
    exact (ih _ has).trans (d.threshold_act ha id)

namespace Logger

/-- Whether a record passes the thresholds. -/
def passes (l : Logger) (r : LogRecord) : Bool := decide (l.threshold r.id ≤ r.level)

theorem records_log_of_passes {l : Logger} {r : LogRecord} (h : l.passes r) :
    (l.log r).records = l.records.push r := by
  rw [records_log, isSuppressed, if_neg]
  rw [decide_eq_true_iff, Level.not_lt]
  exact of_decide_eq_true h

theorem log_of_not_passes {l : Logger} {r : LogRecord} (h : ¬ l.passes r) : l.log r = l := by
  rw [log, isSuppressed, if_pos]
  rw [decide_eq_true_iff, ← Decidable.not_not (p := _ < _), Level.not_lt]
  exact fun hp => h (decide_eq_true hp)

theorem passes_log (l : Logger) (q r : LogRecord) : (l.log q).passes r = l.passes r := by
  rw [passes, threshold_log]; rfl

/-! ## Sifting -/

/-- `l` has the thresholds of `l₀` and keeps what passes them out of all that is offered,
    which `l'` keeps. -/
structure Sifts (l₀ l l' : Logger) : Prop where
  passes : ∀ r, l.passes r = l₀.passes r
  all : ∀ r, l'.passes r
  records : l.records = l'.records.filter l₀.passes

namespace Sifts

variable {l₀ l l' : Logger}

theorem log (h : Sifts l₀ l l') (r : LogRecord) : Sifts l₀ (l.log r) (l'.log r) := by
  refine ⟨fun q => (passes_log l r q).trans (h.passes q), fun q => ?_, ?_⟩
  · rw [passes_log]
    exact h.all q
  · rw [records_log_of_passes (h.all r), Array.filter_push, ← h.passes, ← h.records]
    split
    · next hr => exact records_log_of_passes hr
    · next hr => rw [log_of_not_passes hr]

theorem logAll (h : Sifts l₀ l l') (rs : List LogRecord) :
    Sifts l₀ (l.logAll rs) (l'.logAll rs) := by
  induction rs generalizing l l' with
  | nil => exact h
  | cons r rs ih => exact ih (h.log r)

theorem takeAll (h : Sifts l₀ l l') : Sifts l₀ l.takeAll.2 l'.takeAll.2 :=
  ⟨h.passes, h.all, rfl⟩

/-- An action that leaves the thresholds as they are keeps two loggers related. -/
theorem act {d d' : Design} (hg : d.graph = d'.graph) (h : Sifts l₀ d.logger d'.logger)
    {a : Action} (ha : a.keepsThresholds) :
    Sifts l₀ (d.act a).2.logger (d'.act a).2.logger := by
  by_cases ht : a.takes
  · rw [d.logger_act_of_takes ht, d'.logger_act_of_takes ht]
    exact h.takeAll
  · rw [Bool.not_eq_true] at ht
    rw [d.logger_act ha ht, d'.logger_act ha ht, hg]
    exact h.logAll _

theorem session (d d' : Design) (hg : d.graph = d'.graph) (h : Sifts l₀ d.logger d'.logger)
    {as : List Action} (has : ∀ a ∈ as, a.keepsThresholds) :
    Sifts l₀ (d.session as).2.logger (d'.session as).2.logger := by
  induction as generalizing d d' with
  | nil => exact h
  | cons a as ih =>
    obtain ⟨ha, has⟩ := List.forall_mem_cons.1 has
    have hgraph : (d.act a).2.graph = (d'.act a).2.graph := by
      rw [Design.graph_act, Design.graph_act, hg]
    exact ih _ _ hgraph (h.act hg ha) has

end Sifts

/-- The logger that nothing was set for lets everything pass. -/
theorem passes_default (r : LogRecord) : ({} : Logger).passes r := by
  refine decide_eq_true ?_
  rw [threshold, Std.ExtTreeMap.getD_empty]
  exact Nat.zero_le _

/-- A logger without records sifts what one that keeps everything will have. -/
theorem sifts_default {l : Logger} (hl : l.records = #[]) : Sifts l l {} :=
  ⟨fun _ => rfl, passes_default, hl⟩

/-- A logger that lets everything pass keeps what it is offered, in order. -/
theorem records_logAll {l : Logger} (h : ∀ r, l.passes r) (rs : List LogRecord) :
    (l.logAll rs).records.toList = l.records.toList ++ rs := by
  induction rs generalizing l with
  | nil => exact (List.append_nil _).symm
  | cons r rs ih =>
    have hnext := ih (l := l.log r) fun q => (passes_log l r q).trans (h q)
    rw [records_log_of_passes (h r), Array.toList_push, List.append_assoc] at hnext
    exact hnext

end Logger

/-- **A logger that lets everything pass has all that was offered since records were taken
    last.** -/
theorem Design.records_session (d : Design) (h : ∀ r, d.logger.passes r) {as : List Action}
    (has : ∀ a ∈ as, a.keepsThresholds) :
    (d.session as).2.logger.records.toList = d.graph.collect d.logger.records.toList as := by
  induction as generalizing d with
  | nil => rfl
  | cons a as ih =>
    obtain ⟨ha, has⟩ := List.forall_mem_cons.1 has
    have hrecords : (d.act a).2.logger.records.toList =
        if a.takes then [] else d.logger.records.toList ++ d.graph.offer a := by
      split
      · next ht => rw [d.logger_act_of_takes ht]; rfl
      · next ht => rw [d.logger_act ha (by simpa using ht), Logger.records_logAll h]
    have hpasses : ∀ r, (d.act a).2.logger.passes r := by
      intro r
      rw [Logger.passes, d.threshold_act ha]
      exact h r
    rw [Graph.collect, ← hrecords, ← d.graph_act]
    exact ih (d.act a).2 hpasses has

/-- How a session depends on the logger, and what the logger keeps of it. -/
structure Graph.Reports (g : Graph) (as : List Action) : Prop where
  /-- Answers and graph are the same for any logger, and for any other calls on it. -/
  replies : ∀ l l' bs, bs.filterMap Action.call? = as.filterMap Action.call? →
    (Design.session ⟨g, l⟩ as).1 = (Design.session ⟨g, l'⟩ bs).1
  graph : ∀ l l' bs, bs.filterMap Action.call? = as.filterMap Action.call? →
    (Design.session ⟨g, l⟩ as).2.graph = (Design.session ⟨g, l'⟩ bs).2.graph
  thresholds : (∀ a ∈ as, a.keepsThresholds) → ∀ l id,
    (Design.session ⟨g, l⟩ as).2.logger.threshold id = l.threshold id
  /-- What is kept is what the logger that nothing was set for keeps, as far as it passes. -/
  kept : (∀ a ∈ as, a.keepsThresholds) → ∀ l, l.records = #[] →
    (Design.session ⟨g, l⟩ as).2.logger.records =
      (Design.session ⟨g, {}⟩ as).2.logger.records.filter fun r =>
        decide (l.threshold r.id ≤ r.level)
  /-- That logger keeps everything, until it is taken away. -/
  everything : (∀ a ∈ as, a.keepsThresholds) →
    (Design.session ⟨g, {}⟩ as).2.logger.records.toList = g.collect [] as

/-- **The logger has no say in what becomes of a design, and it keeps what passes.** -/
theorem logging_is_invisible (g : Graph) (as : List Action) : g.Reports as := by
  refine ⟨?_, ?_, ?_, ?_, ?_⟩
  · intro l l' bs hbs
    rw [Design.replies_session, Design.replies_session, hbs]
  · intro l l' bs hbs
    rw [Design.graph_session, Design.graph_session, hbs]
  · intro has l id
    exact Design.threshold_session _ has id
  · intro has l hl
    exact (Logger.Sifts.session ⟨g, l⟩ ⟨g, {}⟩ rfl (Logger.sifts_default hl) has).records
  · intro has
    exact Design.records_session ⟨g, {}⟩ Logger.passes_default has

/-- Only the generation of a module passes here, not that of its object. -/
example : ((Design.session { logger := { defaultLevel := .warning } } [
      .logger (.setLevel LogId.moduleNew .debug),
      .design (.create (.module "top" false true) none)]).2.logger.records.map (·.id)) =
    #[LogId.moduleNew] := by
  decide +kernel

end DesignGraph
