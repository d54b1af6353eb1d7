/-
  Loading settings — from a text, or from the configuration file of a project.

  What reads settings off a text is left open: `Settings.ofToml` does.

  * `Settings.parse read` has a text read and then checks the ids that thresholds are
    set for: an id must not be blank and must not hold white space;
  * `Settings.load read` reads the configuration file of a project;
  * `ConfigError.message` is what is said when this fails.
-/
import DesignGraph.Config.Settings
import DesignGraph.Text.Space

namespace DesignGraph

/-! ## Errors -/

/-- Why settings cannot be had. -/
inductive ConfigError where
  | io (cause : String)
  /-- the text is no document of settings -/
  | parse (cause : String)
  /-- the settings contradict a rule -/
  | validation (reason : String)
deriving DecidableEq

/-- What is said about an error. -/
def ConfigError.message : ConfigError → String
  | io cause => "failed to read configuration: " ++ cause
  | parse cause => "failed to parse configuration: " ++ cause
  | validation reason => "validation error: " ++ reason

/-- What is wrong with an id. -/
inductive IdFault where
  /-- it is empty or all white space -/
  | blank
  | spaced (id : String)
deriving DecidableEq

/-- What is said about an id. -/
def IdFault.text : IdFault → String
  | blank => "log.levels contains an empty log id"
  | spaced id => "log id '" ++ id ++ "' contains whitespace"

/-- What is wrong with an id, if anything is. -/
def idFault? (id : String) : Option IdFault :=
  if id.toList.all isSpace then some .blank
  else if id.toList.any isSpace then some (.spaced id)
  else none

/-! ## Texts -/

namespace Settings

/-- The fault of the first id that has one, by rising id. -/
def fault? (s : Settings) : Option IdFault := s.levels.keys.findSome? idFault?

/-- The settings, if nothing is wrong with them. -/
def validate (s : Settings) : Except ConfigError Settings :=
  match s.fault? with
  | some f => .error (.validation f.text)
  | none => .ok s

/-- The settings in a text. -/
def parse (read : String → Except String Settings) (text : String) :
    Except ConfigError Settings := do
  validate (← (read text).mapError .parse)

end Settings

/-! ## Files -/

/-- What there is under a file name. -/
inductive FileState where
  | missing
  | directory
  | holds (bytes : ByteArray)

/-- The text under a file name. -/
def FileState.text : FileState → Except ConfigError String
  | missing => .error (.io "No such file or directory (os error 2)")
  | directory => .error (.io "Is a directory (os error 21)")
  | holds bytes =>
    match String.fromUTF8? bytes with
    | some text => .ok text
    | none => .error (.io "stream did not contain valid UTF-8")

/-- The name of the configuration file of a project. -/
def configFile : String := "icglue.toml"

/-- The settings of a project, given what its directory has under each name. -/
def Settings.load (read : String → Except String Settings) (directory : String → FileState) :
    Except ConfigError Settings := do
  Settings.parse read (← (directory configFile).text)

end DesignGraph
