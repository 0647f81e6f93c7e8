import LanguageClient.Bounds
import LanguageClient.Json.Printer
import LanguageClient.Settings.Error
import LanguageClient.Settings.Merge
import LanguageClient.System.FileAccess
import LanguageClient.Text.Blank
import LanguageClient.Text.Numeral

/-!
# Configuration files

Where the user's and the project's configuration files are, how a configuration is had from them and
from the environment, and how a file with the default settings is written.
-/

namespace LanguageClient

/-- What is taken from the environment. -/
structure Environment where
  home : Option String
  /-- The folder of the user's configuration files, if it is not the usual one. -/
  configHome : Option String
  /-- The server asked for where a command does not say. -/
  server : Option String
  /-- The time to wait for answers, in place of the configured one. -/
  requestTimeout : Option String
  deriving DecidableEq, Repr, Inhabited

/-- The two configuration files. -/
structure ConfigurationFiles where
  user : Path
  project : Path
  deriving DecidableEq, Repr, Inhabited

/-- One of the two configuration files. -/
inductive ConfigurationLevel where
  | user
  | project
  deriving DecidableEq, Repr, Inhabited

namespace ConfigurationFiles

/-- The folder of the user's configuration files. -/
def userFolder (env : Environment) : Path :=
  match env.configHome, env.home with
  | some folder, _ => ⟨folder⟩
  | none, some home => Path.join ⟨home⟩ ⟨".config"⟩
  | none, none => ⟨"."⟩

/-- The configuration files of the project at `root`. -/
def locate (env : Environment) (root : Path) : ConfigurationFiles where
  user := ((userFolder env).join ⟨"lspc"⟩).join ⟨"config.toml"⟩
  project := (root.join ⟨".lspc"⟩).join ⟨"config.toml"⟩

/-- The file of a level. -/
def path (files : ConfigurationFiles) : ConfigurationLevel → Path
  | .user => files.user
  | .project => files.project

end ConfigurationFiles

namespace Configuration

/-- The table in the text of a file. -/
def tableOfText (text : String) : Except ConfigurationError Json :=
  match Toml.parse? text.toList with
  | some table => .ok table
  | none => .error (.parse "not a TOML document")

/-- The configuration that a table spells. -/
def ofTable (table : Json) : Except ConfigurationError Configuration :=
  (decoder table).mapError fun e => .parse e.message

/-- The configuration with the time to wait taken from the environment. -/
def overrideTimeout (c : Configuration) : Option String → Except ConfigurationError Configuration
  | none => .ok c
  | some text =>
    match readNatural bound64 (trimBlanks text.toList) with
    | some seconds => .ok { c with settings := { c.settings with requestTimeout := seconds } }
    | none =>
      .error (.invalidValue "LSPC_REQUEST_TIMEOUT" s!"expected whole seconds, got '{text}'")

/-- The text of a file with the default settings. -/
def defaultText : String :=
  "[lsp]\n" ++ String.join (Settings.default.fields.map fun (key, v) =>
    key ++ " = " ++ v.text ++ "\n")

variable {m : Type → Type} [Monad m] [FileAccess m]

/-- The table of a file; one that is not there has no keys. -/
def readTable (path : Path) : ExceptT ConfigurationError m Json := do
  if !(← FileAccess.isPresent (m := m) path) then return Json.emptyObject
  match ← FileAccess.readText (m := m) path with
  | .ok text => tableOfText text
  | .error fault => throw (.access fault)

/-- The configuration of the user alone or of the user and the project. -/
def load (files : ConfigurationFiles) (timeout : Option String) (level : ConfigurationLevel) :
    ExceptT ConfigurationError m Configuration := do
  let user ← readTable files.user
  let project ← match level with
    | .user => pure Json.emptyObject
    | .project => readTable files.project
  (← ofTable (mergeTables user project)).overrideTimeout timeout

/-- Writes a file with the default settings; one that is there is kept unless `force` says
otherwise. -/
def create (files : ConfigurationFiles) (level : ConfigurationLevel) (force : Bool) :
    ExceptT ConfigurationError m Path := do
  let path := files.path level
  if (← FileAccess.isPresent (m := m) path) && !force then
    throw (.invalidValue "config"
      s!"Config already exists: {path.text}. Use --force to overwrite.")
  let attempt (r : Except AccessFault Unit) : ExceptT ConfigurationError m Unit :=
    match r with
    | .ok () => pure ()
    | .error fault => throw (.access fault)
  attempt (← FileAccess.makeFolders (m := m) path.folder)
  attempt (← FileAccess.writeText (m := m) path defaultText)
  return path

end Configuration

end LanguageClient
