import CheckedExecution.Execution
import CheckedExecution.Files.FileSystem
import CheckedExecution.Json.Document
import CheckedExecution.PanicMode
import CheckedExecution.Text.Character
import CheckedExecution.Text.Utf8

/-!
# Settings

The settings hold the panic mode. They are written as a JSON object with one member and are read
from an object or an array, a missing mode being the one that the program was built with. Settings
are found in the nearest file of a fixed name at a directory or above it, and a variable of the
environment overrides them.
-/

namespace CheckedExecution

/-- The settings of a program. -/
structure Settings where
  panicMode : PanicMode
  deriving DecidableEq

/-- Why settings cannot be had. -/
inductive SettingsError where
  /-- The file cannot be read or written. -/
  | unreadable (cause : FileError)
  /-- The text is not a JSON document. -/
  | malformed
  /-- The document does not describe settings. -/
  | unsuitable
  deriving DecidableEq

/-- The report of settings that cannot be had, with what the JSON reader says in detail of a text
that no settings are read from. -/
def SettingsError.message (detail : String) : SettingsError → String
  | unreadable cause => "Failed to read runtime configuration: " ++ cause.message
  | malformed | unsuitable => "Invalid runtime configuration: " ++ detail

namespace Settings

/-- The name of the file that holds settings. -/
def fileName : String :=
  "tern-runtime.json"

/-- The name of the variable that overrides settings. -/
def variableName : String :=
  "TERN_CONTINUE_ON_PANIC"

/-- The key of the panic mode. -/
def panicModeKey : String :=
  "panic_mode"

/-! ## The JSON form -/

/-- The mode that a decoded string names. -/
def modeOfText? (text : Json.Text) : Option PanicMode :=
  text.decode?.bind fun chars => PanicMode.ofName? (String.ofList chars)

/-- The mode that a document describes: a string, or an object whose only key names the mode and has
the value null. -/
def modeOfDocument? : Json.Document → Option PanicMode
  | .string text => modeOfText? text
  | .object [(key, .null)] => modeOfText? key
  | _ => none

/-- The mode among the members of an object, if it is given. Every key has to be decodable, and the
key of the mode may occur once only. Members under other keys do not matter. -/
def modeOfMembers? : List (Json.Text × Json.Document) → Option (Option PanicMode)
  | [] => some none
  | (key, value) :: rest => do
      let name ← key.decode?
      let later ← modeOfMembers? rest
      if String.ofList name = panicModeKey then
        match later with
        | none => (modeOfDocument? value).map some
        | some _ => none
      else return later

/-- The settings that a document describes. An array lists the mode alone or nothing. -/
def ofDocument? (buildDefault : PanicMode) : Json.Document → Option Settings
  | .object members => (modeOfMembers? members).map fun mode => ⟨mode.getD buildDefault⟩
  | .array [] => some ⟨buildDefault⟩
  | .array [item] => (modeOfDocument? item).map fun mode => ⟨mode⟩
  | _ => none

/-- The settings that a text describes. -/
def ofJson (buildDefault : PanicMode) (text : String) : Except SettingsError Settings :=
  match Json.Document.ofText? text with
  | none => .error .malformed
  | some document =>
      match ofDocument? buildDefault document with
      | none => .error .unsuitable
      | some settings => .ok settings

/-- The settings as JSON on one line. -/
def toCompactJson (s : Settings) : String :=
  "\x7b\"" ++ panicModeKey ++ "\":\"" ++ s.panicMode.name ++ "\"\x7d"

/-- The settings as JSON with one member on a line. -/
def toJson (s : Settings) : String :=
  "\x7b\n  \"" ++ panicModeKey ++ "\": \"" ++ s.panicMode.name ++ "\"\n\x7d"

/-- The settings as they are shown in a log. -/
def label (s : Settings) : String :=
  "RuntimeConfig \x7b panic_mode: " ++ s.panicMode.label ++ " \x7d"

/-! ## Files -/

/-- The settings in the file that a path leads to. -/
def ofFile (buildDefault : PanicMode) (files : FileSystem) (current : Location) (path : Path) :
    Except SettingsError Settings :=
  match files.read current path with
  | .error cause => .error (.unreadable cause)
  | .ok content =>
      match Utf8.decode? content with
      | none => .error (.unreadable .invalidData)
      | some text => ofJson buildDefault text

/-- The path of the nearest file of settings at a directory or above it, whatever stands there. -/
def nearest? (files : FileSystem) (current : Location) (directory : Path) : Option Path :=
  (directory.candidates.map (·.entry fileName)).find? (files.exists? current)

/-- The settings of the nearest file at a directory or above it, or those of the build. -/
def ofDirectory (buildDefault : PanicMode) (files : FileSystem) (current : Location)
    (directory : Path) : Except SettingsError Settings :=
  match nearest? files current directory with
  | some path => ofFile buildDefault files current path
  | none => .ok ⟨buildDefault⟩

/-- The file system with the settings written to the file that a path leads to. -/
def save (s : Settings) (files : FileSystem) (current : Location) (path : Path) :
    Except SettingsError FileSystem :=
  match files.write current path (Utf8.encode s.toJson) with
  | .ok files => .ok files
  | .error cause => .error (.unreadable cause)

/-! ## The environment -/

/-- The word that the variable holds: its text without the white space at its ends and with ASCII
letters in lower case. -/
def variableWord (text : String) : String :=
  String.ofList (Text.lower (Text.trim text.toList))

/-- What the variable says about the mode. -/
def modeOfVariable? (text : String) : Option PanicMode :=
  if variableWord text ∈ ["1", "true", "yes", "on"] then some .proceed
  else if variableWord text ∈ ["0", "false", "no", "off"] then some .abort
  else none

/-- The settings with the variable applied. An absent or unknown value changes nothing. -/
def override (s : Settings) (text? : Option String) : Settings :=
  match text?.bind modeOfVariable? with
  | some mode => ⟨mode⟩
  | none => s

/-- The value of the variable as text. Bytes that are not text count as absent. -/
def variableText? (bytes? : Option (List UInt8)) : Option String :=
  bytes?.bind Utf8.decode?

/-! ## What the log says -/

/-- The part of the program that the log names for settings. -/
def logTarget : String :=
  "tern_runtime::config"

/-- The settings in a file, reported in the log under the name that the path was written with. -/
def loadFile (buildDefault : PanicMode) (files : FileSystem) (current : Location) (path : Path)
    (shown : String) : Execution (Except SettingsError Settings) := do
  let result := ofFile buildDefault files current path
  match result with
  | .ok settings =>
      Execution.log .debug logTarget
        ("loaded runtime config from " ++ shown ++ ": " ++ settings.label)
  | .error _ => pure ()
  return result

/-- The settings of the nearest file at a directory or above it, reported in the log. -/
def loadDirectory (buildDefault : PanicMode) (files : FileSystem) (current : Location)
    (directory : Path) : Execution (Except SettingsError Settings) :=
  match nearest? files current directory with
  | some path => loadFile buildDefault files current path path.text
  | none => do
      Execution.log .trace logTarget
        ("no " ++ fileName ++ " above " ++ directory.text ++ ", using defaults")
      return .ok ⟨buildDefault⟩

/-- The settings with the variable applied, an unknown value being reported in the log. -/
def applyVariable (s : Settings) (text? : Option String) : Execution Settings := do
  match text? with
  | none => pure ()
  | some text =>
      match modeOfVariable? text with
      | some _ => pure ()
      | none =>
          Execution.log .warn logTarget
            ("ignoring " ++ variableName ++ "=" ++ Text.quoted (variableWord text) ++
              ": expected a boolean")
  return s.override text?

end Settings

end CheckedExecution
