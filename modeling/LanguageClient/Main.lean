import LanguageClient.Command.Program
import LanguageClient.Json.Pretty

/-!
# The command line

The program itself: it runs one command in the working folder with the real files and prints one
document. It starts no processes, so a command that needs a server says that the server did not
start; what commands do with servers is defined for any `ServerControl`.
-/

namespace LanguageClient

namespace SystemAccess

/-- What an error of the system says about a file. -/
def faultOf : IO.Error → AccessFault
  | .noFileOrDirectory .. => .notFound
  | .permissionDenied .. => .denied
  | .alreadyExists .. => .occupied
  | .inappropriateType _ 20 _ => .notDirectory
  | .inappropriateType _ 21 _ => .isDirectory
  | .invalidArgument _ 36 _ => .tooLong
  | e => .other (toString e)

/-- Does something with the file at a path. -/
def attempt {α : Type} (path : Path) (action : IO α) : IO (Except AccessFault α) := do
  if path.holdsNul then return .error .nulInName
  match ← action.toBaseIO with
  | .ok a => return .ok a
  | .error e => return .error (faultOf e)

/-- Whether there is anything at a path. -/
def isPresent (path : Path) : IO Bool := return (← attempt path (IO.FS.realPath path.text)).toBool

/-- Whether there is a file at a path. -/
def isFile (path : Path) : IO Bool := do
  match ← attempt path (IO.FS.realPath path.text) with
  | .ok found => return !(← found.isDir)
  | .error _ => return false

/-- Whether a program of this name is on the search path. -/
def findsProgram (name : String) : IO Bool := do
  let folders := ((← IO.getEnv "PATH").getD "").toList.splitOn ':'
  folders.anyM fun folder => isFile (Path.join ⟨String.ofList folder⟩ ⟨name⟩)

instance : FileAccess IO where
  canonical path := attempt path (return ⟨(← IO.FS.realPath path.text).toString⟩)
  isPresent := isPresent
  isFile := isFile
  read path := attempt path (return (← IO.FS.readBinFile path.text).toList)
  write path bytes := attempt path (IO.FS.writeBinFile path.text ⟨bytes.toArray⟩)
  makeFolders path := attempt path (IO.FS.createDirAll path.text)
  findsProgram := findsProgram

instance : ServerControl IO where
  launch _ config _ := return .refused s!"{config.command}: processes are not started here"
  send _ _ := pure ()
  retire _ _ := pure ()
  reap _ := pure ()
  now := IO.monoMsNow
  await _ := return none
  ready := return none

end SystemAccess

/-- What is taken from the environment. -/
def readEnvironment : IO Environment := do
  return ⟨← IO.getEnv "HOME", ← IO.getEnv "XDG_CONFIG_HOME", ← IO.getEnv "LSPC_SERVER",
    ← IO.getEnv "LSPC_REQUEST_TIMEOUT"⟩

/-- How the program is used. -/
def usageText : String :=
  "\n".intercalate
    ["Usage: lspc [--server SERVER] [--verbose] [--show-log] COMMAND",
      "",
      "Commands:",
      "  hover FILE:LINE[:COLUMN]",
      "  complete FILE:LINE[:COLUMN] [--limit COUNT]",
      "  format FILE [--lines FIRST[:LAST]] [--write]",
      "  find def|decl|type|impl|refs|symbols FILE[:LINE[:COLUMN]]",
      "  diagnostics FILE [--line LINE] [--severity SEVERITY,...]",
      "  doctor [--missing-only]",
      "  config init|show|path [--global] [--force]"]

/-- The words for a command line that is not run. -/
def UsageFault.message : UsageFault → String
  | missingArgument => "error: an argument is missing"
  | invalidValue => "error: a value is missing or not one of those that can be given"
  | malformedValue => "error: a value cannot be read"
  | unneededValue => "error: a flag was given a value"
  | unknownArgument => "error: there is no such argument"
  | unknownCommand => "error: there is no such command"
  | missingCommand => "error: a command is missing"
  | conflict => "error: an argument was given twice"
  | help => usageText
  | version => "lspc 0.1.0"
  | helpForMissing => usageText

/-- The document that tells of a fault. -/
def printedFault (message : String) : Json :=
  Json.object [("success", .bool false), ("error", .str message)]

/-- Prints the outcome of a run; the code to exit with. -/
def printOutcome : Except ProgramError Json → IO UInt32
  | .ok document => do
    IO.println document.prettyText
    return 0
  | .error (.usage fault) => do
    if fault = .help || fault = .version then
      IO.println fault.message
      return 0
    IO.eprintln fault.message
    return 2
  | .error (.configuration e) => do
    IO.println (printedFault s!"Failed to initialize: {e.message}").prettyText
    return 2
  | .error (.command e) => do
    IO.println (printedFault e.message).prettyText
    return 2

end LanguageClient

/-- Runs the command that the arguments name. -/
def main (args : List String) : IO UInt32 := do
  let env ← LanguageClient.readEnvironment
  let root : LanguageClient.Path := ⟨(← IO.currentDir).toString⟩
  LanguageClient.printOutcome (← (LanguageClient.runProgram env root 0 args).run)
