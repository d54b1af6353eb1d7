/-
  Notes — what a design has to say while it is built.

  A note is the cause of a message.  Its level, its id and its text are
  functions of the cause (`Note.level`, `Note.id`, `Note.text`), and
  `Note.record` is the message it becomes.  A design logs all its notes in one
  place (`Note.location`).
-/
import DesignGraph.Entity.Kind
import DesignGraph.Log.Record

namespace DesignGraph

/-- The cause of a message. -/
inductive Note where
  | generatingModule (name : String)
  | generatingInstance (name : String)
  | creatingObject (kind : Kind) (name : String) (parentId : Option String)
  /-- an instance was to be placed into a resource module; the module's name is
      absent if it cannot be read -/
  | instanceInResource (name : String) (parentName : Option String)
  /-- a declaration was to be added to a resource module -/
  | declInResource
  /-- a block of code was to be added to a resource module -/
  | codeInResource
  /-- a register file was to be added to a resource module -/
  | regfileInResource
  /-- a constant of a new object could not be written -/
  | constantNotStored (name : String)
  /-- a list of attributes ends with a name without a value -/
  | valueMissing
  /-- an attribute of a list could not be written -/
  | attributeNotSet (name : String)
deriving DecidableEq

namespace Note

/-- How grave a note is. -/
def level : Note → Level
  | generatingModule _ | generatingInstance _ | creatingObject .. => .debug
  | instanceInResource .. | declInResource | codeInResource | regfileInResource => .error
  | constantNotStored _ => .internalError
  | valueMissing | attributeNotSet _ => .error

/-- The place a note comes from. -/
def id : Note → LogId
  | generatingModule _ => LogId.moduleNew
  | generatingInstance _ => LogId.instanceNew
  | creatingObject .. | constantNotStored _ => LogId.objectNew
  | instanceInResource .. => LogId.instanceInResource
  | declInResource => LogId.declNew
  | codeInResource => LogId.codeNew
  | regfileInResource => LogId.regfileNew
  | valueMissing | attributeNotSet _ => LogId.setAttributes

/-- What a note says. -/
def text : Note → String
  | generatingModule name => "Generating module " ++ name
  | generatingInstance name => "Generating instance " ++ name
  | creatingObject kind name parentId =>
    "Creating object of type " ++ kind.label ++ ", name " ++ name ++ ", parent " ++
      parentId.getD "<none>"
  | instanceInResource name parentName =>
    "Cannot add instance " ++ name ++ " to resource module " ++ parentName.getD "<unknown>"
  | declInResource => "Cannot add declaration to resource module"
  | codeInResource => "Cannot add codesection to resource module"
  | regfileInResource => "Cannot add regfile to resource module"
  | constantNotStored name => "could not store constant attribute " ++ name
  | valueMissing => "need a value for every attribute in attribute list"
  | attributeNotSet name => "could not set attribute " ++ name

/-- Where notes are logged: the module that hands them to the logger, as a whole. -/
def location : Location := { file := "DesignGraph/Design.lean", line := 1 }

/-- The message of a note. -/
def record (n : Note) : LogRecord := ⟨n.level, n.id, n.text, location⟩

end Note

end DesignGraph
