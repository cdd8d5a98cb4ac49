import CheckedExecution.Program

/-!
# The executable

Runs the program on the real arguments, environment and files, and replays its events. Of the files
it looks at the settings only: those in the current directory and above it, and the one that the
command line names.
-/

namespace CheckedExecution.Executable

/-- What stands at a path, if anything. A file that may not be read stands there all the same. -/
def entryAt? (path : String) : IO (Option Entry) := do
  let place := (← IO.currentDir) / path
  if ← place.isDir then return some .directory
  if !(← place.pathExists) then return none
  try
    return some (.file (← IO.FS.readBinFile place).toList)
  catch
    | .permissionDenied .. => return some .locked
    | error => throw error

/-- The file system with the directories at the prefixes of a location. -/
def withDirectories (files : FileSystem) (location : Location) : FileSystem :=
  match files.makeDirectories [] (location.map .name) with
  | .ok (files, _) => files
  | .error _ => files

/-- The file system with what stands where a path leads to, and the directories on the way. -/
def withEntry (files : FileSystem) (current : Location) (path : Path) : IO FileSystem := do
  let some entry ← entryAt? path.text | return files
  let origin := if path.absolute then [] else current
  let passed := if entry = .directory then path.pieces else path.pieces.dropLast
  match files.makeDirectories origin passed with
  | .error _ => return files
  | .ok (files, _) =>
      match files.locate current path with
      | .error _ => return files
      | .ok location => return if location = [] then files else files.insert location entry

/-- The files that the program may look at. -/
def relevantFiles (current : Location) (words : List String) : IO FileSystem := do
  let directory := Path.ofNames current
  let mut files := withDirectories FileSystem.empty current
  for candidate in directory.candidates do
    files ← withEntry files current (candidate.entry Settings.fileName)
  match Request.ofWords words with
  | .run ⟨_, some text, _⟩ => withEntry files current (Path.ofText text)
  | _ => return files

/-- The lines that answer a request for help. -/
def helpLines : List String :=
  ["Tern runtime driver", "",
    "Usage: tern [--continue-on-panic] [--config <PATH>] <COMMAND>", "",
    "Commands:",
    "  arith <OP> <TYPE> <LHS> <RHS>        Evaluate one checked arithmetic operation",
    "  cast <POLICY> <FROM> <TO> <VALUE>    Convert a value between integer types",
    "  shr <TYPE> <VALUE> <STEPS>           Arithmetic right shift",
    "  args [REST]...                       Print the arguments, one per line",
    "  exit <CODE>                          Finish with this result",
    "  fail <MESSAGE>                       Finish with an error result",
    "  config [--init]                      Print or write the effective configuration"]

/-- The report of a rejected command line. -/
def rejectionMessage : Rejection → String
  | .missingCommand => "a command is required"
  | .unknownCommand word => "unknown command '" ++ word ++ "'"
  | .unknownOption word => "unknown option '" ++ word ++ "'"
  | .repeatedOption option => "option '" ++ option ++ "' is given more than once"
  | .missingValue option => "option '" ++ option ++ "' has no value"
  | .surplusValue option => "option '" ++ option ++ "' takes no value"
  | .emptyValue option => "option '" ++ option ++ "' has an empty value"
  | .missingOperand => "an operand is missing"
  | .surplusOperand word => "unexpected operand '" ++ word ++ "'"
  | .invalidOperand word => "invalid operand '" ++ word ++ "'"

/-- The texts of the executable. -/
@[reducible]
def wording : Wording where
  help _ := helpLines
  rejection _ why := ["error: " ++ rejectionMessage why]
  detail := "not an object or array with one panic mode"

/-- Shows an event. The log is kept off. -/
def replay : Event → IO Unit
  | .diagnostic line => IO.eprintln line
  | .output line => IO.println line
  | .logged _ => pure ()

/-- The exit code of a process that was terminated. -/
def terminatedCode : UInt32 :=
  134

/-- Writes the files that a run has changed. The answer is the path of the first that cannot be
written. -/
def writeChanged? (before after : FileSystem) : IO (Option String) := do
  for (location, entry) in after.entries do
    match entry with
    | .directory | .locked => pure ()
    | .file content =>
        if before.lookup location ≠ some entry then
          let text := (Path.ofNames location).text
          try
            IO.FS.writeBinFile text (ByteArray.mk content.toArray)
          catch _ => return some text
  return none

/-- Runs the program with the default mode of its build. A changed file that cannot be written is a
failure of the run. -/
def run (words : List String) : IO UInt32 := do
  let current := (Path.ofText (← IO.currentDir).toString).pieces.map PathPiece.text
  let files ← relevantFiles current words
  let value? ← IO.getEnv Settings.variableName
  let session := Session.fresh .abort (value?.map Utf8.encode) files current
  let _ : Wording := wording
  let execution := (Program.run ((Program.name :: words).map Utf8.encode)).run session
  let unwritten? ←
    match execution.value? with
    | none => pure none
    | some (_, last) => writeChanged? files last.files
  match unwritten? with
  | some path =>
      let failure := Failure.unwritable path (.unreadable .permissionDenied)
      IO.eprintln (Entry.errorLine failure.message)
      return Entry.errorCode.toInt.toNat.toUInt32
  | none =>
      for event in execution.events do
        replay event
      match execution.value? with
      | none => return terminatedCode
      | some (code, _) => return code.toInt.toNat.toUInt32

end CheckedExecution.Executable

/-- The executable. -/
def main (words : List String) : IO UInt32 :=
  CheckedExecution.Executable.run words
