/-
  The logger — keeps the messages that are grave enough.

  A message is kept iff its level is at least the threshold of its id: the
  level set for that id, or else the default level.  Thresholds decide when a
  message is logged; changing them later neither drops nor restores records.

  * `log` and `logAll` offer records to the logger, `debug`, `info`, `warning`,
    `error` and `internalError` one of their level; `takeAll` empties it;
  * `threshold` and `isSuppressed` say what is kept;
  * `settingsSummary` prints the thresholds, one line each, by rising id.

  Kept records can also be echoed to a terminal as they come in.  Echoing changes
  nothing here and is left out.
-/
import DesignGraph.Log.Record

namespace DesignGraph

/-- Thresholds, and the records kept so far. -/
structure Logger where
  /-- The threshold of every id without one of its own. -/
  defaultLevel : Level := .debug
  overrides : LevelMap := ∅
  /-- The kept records, oldest first. -/
  records : Array LogRecord := #[]

namespace Logger

instance : Inhabited Logger := ⟨{}⟩

/-! ## Thresholds -/

/-- A logger that was offered nothing yet, with the given default threshold. -/
def withDefaultLevel (level : Level) : Logger := { defaultLevel := level }

/-- Sets the default threshold. -/
def setDefaultLevel (l : Logger) (level : Level) : Logger := { l with defaultLevel := level }

/-- Sets the threshold of one id. -/
def setLevel (l : Logger) (id : LogId) (level : Level) : Logger :=
  { l with overrides := l.overrides.insert id level }

/-- Removes the threshold of one id, so that the default applies again. -/
def clearLevel (l : Logger) (id : LogId) : Logger :=
  { l with overrides := l.overrides.erase id }

/-- The threshold that applies to an id. -/
def threshold (l : Logger) (id : LogId) : Level := l.overrides.getD id l.defaultLevel

/-- Whether a message would be dropped. -/
def isSuppressed (l : Logger) (level : Level) (id : LogId) : Bool :=
  decide (level < l.threshold id)

/-- The thresholds as text: the default, then one line for each id with a
    threshold of its own, by rising id. -/
def settingsSummary (l : Logger) : String :=
  "Default loglevel is " ++ l.defaultLevel.label ++ "\n" ++
    String.join (l.overrides.toList.map fun (id, level) =>
      "LogID: " ++ id ++ " is set to level " ++ level.label ++ "\n")

/-! ## Records -/

/-- Offers a record; it is kept unless it is suppressed. -/
def log (l : Logger) (r : LogRecord) : Logger :=
  if l.isSuppressed r.level r.id then l else { l with records := l.records.push r }

/-- Offers records in order. -/
def logAll (l : Logger) (rs : List LogRecord) : Logger := rs.foldl log l

/-- Offers a message of the given level, logged at the given place. -/
def logAt (level : Level) (l : Logger) (id : LogId) (message : String) (location : Location) :
    Logger :=
  l.log { level, id, message, location }

/-- Offers a message of level `debug`. -/
def debug : Logger → LogId → String → Location → Logger := logAt .debug
/-- Offers a message of level `info`. -/
def info : Logger → LogId → String → Location → Logger := logAt .info
/-- Offers a message of level `warning`. -/
def warning : Logger → LogId → String → Location → Logger := logAt .warning
/-- Offers a message of level `error`. -/
def error : Logger → LogId → String → Location → Logger := logAt .error
/-- Offers a message of level `internalError`. -/
def internalError : Logger → LogId → String → Location → Logger := logAt .internalError

/-- The kept records, and the logger without them. -/
def takeAll (l : Logger) : Array LogRecord × Logger := (l.records, { l with records := #[] })

/-- The number of kept records of at least the given level. -/
def countAtLeast (l : Logger) (level : Level) : Nat :=
  l.records.countP fun r => decide (level ≤ r.level)

/-- Whether a failure was recorded. -/
def hasErrors (l : Logger) : Bool := l.records.any (·.level.isError)

/-! ## What a record does -/

theorem defaultLevel_log (l : Logger) (r : LogRecord) :
    (l.log r).defaultLevel = l.defaultLevel := by
  unfold log
  split <;> rfl

theorem overrides_log (l : Logger) (r : LogRecord) : (l.log r).overrides = l.overrides := by
  unfold log
  split <;> rfl

theorem threshold_log (l : Logger) (r : LogRecord) (id : LogId) :
    (l.log r).threshold id = l.threshold id := by
  rw [threshold, overrides_log, defaultLevel_log, threshold]

theorem threshold_logAll (l : Logger) (rs : List LogRecord) (id : LogId) :
    (l.logAll rs).threshold id = l.threshold id := by
  induction rs generalizing l with
  | nil => rfl
  | cons r rs ih => exact (ih (l.log r)).trans (threshold_log l r id)

theorem records_log (l : Logger) (r : LogRecord) :
    (l.log r).records =
      if l.isSuppressed r.level r.id then l.records else l.records.push r := by
  unfold log
  split <;> rfl

end Logger

end DesignGraph
