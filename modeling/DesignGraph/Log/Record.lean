/-
  Log records — messages as they are kept, and the lines they are printed as.

  * `LogId` names the place a message comes from; `LogId.published` lists the
    ids this library uses, and they never change;
  * `LogRecord.line` prints a record as `<label>,<id>    <message>`, in colour
    if asked, and then with the `Location` that it was logged at.
-/
import DesignGraph.Log.Level

namespace DesignGraph

/-! ## Ids -/

/-- The short stable name of the place a message comes from. -/
abbrev LogId := String

namespace LogId

/-- An object is created. -/
def objectNew : LogId := "DONew"
/-- A module is created. -/
def moduleNew : LogId := "DMNew"
/-- An instance is created. -/
def instanceNew : LogId := "DINew"
/-- An instance is refused by a resource module. -/
def instanceInResource : LogId := "DIRes"
/-- A codesection is refused. -/
def codeNew : LogId := "DCsNw"
/-- A declaration is refused. -/
def declNew : LogId := "DDcNw"
/-- A regfile is refused. -/
def regfileNew : LogId := "DRfNw"
/-- A list of attributes is refused in whole or in part. -/
def setAttributes : LogId := "OStAt"

/-- The ids in use. -/
def published : List LogId :=
  [objectNew, moduleNew, instanceNew, instanceInResource, codeNew, declNew, regfileNew,
    setAttributes]

end LogId

/-! ## Records and lines -/

/-- A place in the text of a program. -/
structure Location where
  file : String
  line : Nat
deriving DecidableEq, Inhabited

/-- A message. -/
structure LogRecord where
  level : Level
  id : LogId
  message : String
  /-- Where it was logged. -/
  location : Location
deriving DecidableEq

/-- How records are printed. -/
structure LineStyle where
  color : Bool := false
  lineNumbers : Bool := false
deriving DecidableEq

/-- Terminal codes that switch attributes of the text. -/
def Level.colorCode : Level → String
  | .debug => "\x1b[1m\x1b[34m"
  | .info => "\x1b[1m"
  | .warning => "\x1b[1m\x1b[35m"
  | .error | .internalError => "\x1b[1m\x1b[31m"

/-- The terminal code that ends all colouring. -/
def resetCode : String := "\x1b[0m"

namespace LogRecord

/-- What stands in front of the message: the label and the id. -/
def header (r : LogRecord) : String := r.level.label ++ "," ++ r.id

/-- The mark of the place a message comes from. -/
def placeMark (r : LogRecord) : String :=
  " (" ++ r.location.file ++ ":" ++ toString r.location.line ++ ")"

/-- The line of a record, without a line end. -/
def line (style : LineStyle) (r : LogRecord) : String :=
  (if style.color then r.level.colorCode ++ r.header ++ resetCode else r.header)
    ++ "    " ++ r.message
    ++ (if style.lineNumbers then r.placeMark else "")

end LogRecord

end DesignGraph
