/-
  Settings — what a configuration says about logging.

  * `Settings.preset` is what holds if nothing is configured.  A table that is there
    has defaults for its fields, which are given a second time; `ofEntries?_nil`: they
    are the same;
  * `Settings.logger` is a new logger with the thresholds of the settings, which are
    set one by one.  Whether and how it echoes is left out, as echoing is;
  * `Settings.ofDocument?` reads the table `log` of a TOML document.  Keys it
    does not know are ignored, and values have to be of exactly the right type;
  * `Settings.ofToml` reads the document in a text.
-/
import DesignGraph.Log.Logger
import DesignGraph.Toml.Document

namespace DesignGraph

open Toml (Value)

/-- The threshold of ids without one of their own, unless it is configured. -/
def presetLevel : Level := .debug

/-- What is configured about logging. -/
structure Settings where
  /-- The threshold of ids without one of their own. -/
  defaultLevel : Level
  /-- Whether echoed messages end with the place they come from. -/
  lineNumbers : Bool
  /-- Whether the headers of echoed messages are coloured. -/
  color : Bool
  /-- Whether kept messages are echoed. -/
  echo : Bool
  levels : LevelMap

namespace Settings

/-- The settings of which nothing is configured. -/
def preset : Settings where
  defaultLevel := presetLevel
  lineNumbers := false
  color := true
  echo := true
  levels := ∅

/-! ## Loggers -/

/-- A new logger with these thresholds. -/
def logger (s : Settings) : Logger :=
  s.levels.foldl Logger.setLevel (.withDefaultLevel s.defaultLevel)

theorem ofList_toList (m : LevelMap) : Std.ExtTreeMap.ofList m.toList = m := by
  refine Std.ExtTreeMap.ext_getElem? fun id => ?_
  rcases hid : m[id]? with _ | level
  · refine Std.ExtTreeMap.getElem?_ofList_of_contains_eq_false ?_
    rw [Std.ExtTreeMap.map_fst_toList_eq_keys, Bool.eq_false_iff, ne_eq, List.contains_iff_mem,
      Std.ExtTreeMap.mem_keys]
    exact (getElem?_eq_none_iff m id).1 hid
  · have hmem : (id, level) ∈ m.toList := Std.ExtTreeMap.mem_toList_iff_getElem?_eq_some.2 hid
    exact Std.ExtTreeMap.getElem?_ofList_of_mem Std.ReflCmp.compare_self m.distinct_keys_toList hmem

/-- Thresholds that are set one by one are set as if at once. -/
theorem foldl_setLevel (es : List (LogId × Level)) (l : Logger) :
    es.foldl (fun l e => l.setLevel e.1 e.2) l =
      { l with overrides := es.foldl (fun m e => m.insert e.1 e.2) l.overrides } := by
  induction es generalizing l with
  | nil => rfl
  | cons e es ih => exact ih (l.setLevel e.1 e.2)

theorem logger_eq (s : Settings) :
    s.logger = { defaultLevel := s.defaultLevel, overrides := s.levels } := by
  rw [logger, Std.ExtTreeMap.foldl_eq_foldl_toList, foldl_setLevel]
  congr 1
  exact Std.ExtTreeMap.ofList_eq_foldl.symm.trans (ofList_toList s.levels)

/-- **The logger has the thresholds of the settings.** -/
theorem overrides_logger (s : Settings) : s.logger.overrides = s.levels := by rw [logger_eq]

theorem defaultLevel_logger (s : Settings) : s.logger.defaultLevel = s.defaultLevel := by
  rw [logger_eq]

/-! ## Single values -/

/-- A level: its name, or a table that has the name as its one key and nothing
    under it. -/
def level? : Value → Option Level
  | .string name => Level.ofText? name
  | .table [(name, .table [])] | .table [(name, .array [])] => Level.ofText? name
  | _ => none

/-- A truth value. -/
def flag? : Value → Option Bool
  | .boolean b => some b
  | _ => none

/-- Levels by id. -/
def levels? : Value → Option LevelMap
  | .table entries =>
    entries.foldlM (fun m (id, v) => (level? v).map fun level => m.insert id level) ∅
  | _ => none

/-! ## The table -/

/-- A switch that is on in a table without it. -/
def presetOn : Bool := true

/-- The fields of the settings, in order. -/
def fieldNames : List String := ["default", "linenumbers", "color", "echo", "levels"]

/-- A field of a table, or its default if the table does not have it. -/
def field? {α : Type} (entries : List (String × Value)) (name : String) (default : α)
    (read : Value → Option α) : Option α :=
  match entries.lookup name with
  | some v => read v
  | none => some default

/-- The settings in a table. -/
def ofEntries? (entries : List (String × Value)) : Option Settings := do
  some {
    defaultLevel := ← field? entries "default" presetLevel level?
    lineNumbers := ← field? entries "linenumbers" default flag?
    color := ← field? entries "color" presetOn flag?
    echo := ← field? entries "echo" presetOn flag?
    levels := ← field? entries "levels" ∅ levels? }

/-- A table without fields says no more than no table at all. -/
theorem ofEntries?_nil : ofEntries? [] = some preset := rfl

/-- The settings in a value: a table of fields, or an array of the fields in
    order.  A date has no fields. -/
def ofValue? : Value → Option Settings
  | .table entries => ofEntries? entries
  | .array items => ofEntries? (fieldNames.zip items)
  | .dateTime => ofEntries? []
  | _ => none

/-- The settings in a document. -/
def ofDocument? (entries : List (String × Value)) : Option Settings :=
  field? entries "log" preset ofValue?

/-- The settings in a text. -/
def ofToml (text : String) : Except String Settings :=
  match (Toml.parse? text).bind ofDocument? with
  | some s => .ok s
  | none => .error "not a document of settings"

theorem ofToml_eq_ok_iff {text : String} {s : Settings} :
    ofToml text = .ok s ↔ ∃ document, Toml.parse? text = some document ∧
      ofDocument? document = some s := by
  rw [ofToml, ← Option.bind_eq_some_iff]
  rcases (Toml.parse? text).bind ofDocument? with _ | s' <;> simp

end Settings

end DesignGraph
