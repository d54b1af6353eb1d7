/-
  Severity levels — how grave a message is, from construction traces to broken
  invariants.

  * `Level` is ordered by gravity (`rank`);
  * `text` is the name a level has in settings (`ofText?` reads it back), and
    `label` the short form printed in front of a message;
  * `LevelMap` holds levels by message id, in the order of the ids.
-/
import Std.Data.ExtTreeMap

namespace DesignGraph

/-- The severity of a message. -/
inductive Level where
  /-- construction traces and other detail -/
  | debug
  /-- progress -/
  | info
  /-- something suspicious that stops nothing -/
  | warning
  /-- a rejected operation -/
  | error
  /-- a broken invariant of the library itself -/
  | internalError
deriving DecidableEq, Inhabited

namespace Level

/-- The levels by rising gravity. -/
def all : List Level := [debug, info, warning, error, internalError]

/-- The place of a level in the order of gravity. -/
def rank : Level → Nat
  | debug => 0
  | info => 1
  | warning => 2
  | error => 3
  | internalError => 4

instance : LE Level := ⟨fun a b => a.rank ≤ b.rank⟩
instance : LT Level := ⟨fun a b => a.rank < b.rank⟩
instance : Ord Level := ⟨fun a b => compare a.rank b.rank⟩
instance (a b : Level) : Decidable (a ≤ b) := inferInstanceAs (Decidable (a.rank ≤ b.rank))
instance (a b : Level) : Decidable (a < b) := inferInstanceAs (Decidable (a.rank < b.rank))

theorem not_lt {a b : Level} : ¬ a < b ↔ b ≤ a := Nat.not_lt

/-- The name of a level in settings. -/
def text : Level → String
  | debug => "debug"
  | info => "info"
  | warning => "warning"
  | error => "error"
  | internalError => "internal_error"

/-- The level of a name. -/
def ofText? (t : String) : Option Level := all.find? (·.text == t)

theorem ofText?_text (a : Level) : ofText? a.text = some a := by
  cases a <;> decide

/-- The form printed in front of a message. -/
def label : Level → String
  | debug => "D"
  | info => "I"
  | warning => "W"
  | error => "E"
  | internalError => "INTERNAL ERROR"

/-- Whether messages of this level report a failure. -/
def isError (a : Level) : Bool := decide (error ≤ a)

end Level

/-- Levels by message id, in the order of the ids. -/
abbrev LevelMap := Std.ExtTreeMap String Level

end DesignGraph
