import LanguageClient.Command.Exchange
import LanguageClient.Command.Output
import LanguageClient.Command.Resolve
import LanguageClient.Text.Measure

/-!
# Running commands

What each command does and prints.
-/

namespace LanguageClient

namespace Command

variable {m : Type → Type} [Monad m] [FileAccess m]

/-- A fault of a location as a fault of the command. -/
def orLocationError {α : Type} (r : Except LocationError α) : ExceptT CommandError m α :=
  ExceptT.mk (pure (r.mapError .location))

/-- A fault of the configuration as a fault of the command. -/
def orConfigurationError {α : Type} (r : ExceptT ConfigurationError m α) :
    ExceptT CommandError m α :=
  ExceptT.adapt .configuration r

/-- The place that a command names. -/
def locate (c : CommandContext) (location : String) : ExceptT CommandError m FileLocation :=
  ExceptT.adapt .location (FileLocation.find c.root location)

/-- The file that a command names. -/
def locateFile (c : CommandContext) (file : Path) : ExceptT CommandError m Path :=
  ExceptT.adapt .location (resolveFile c.root file)

/-- The fields of a place as printed. -/
def placeFields (c : CommandContext) (l : FileLocation) : List (String × Json) :=
  [("file", .str (printedPath c.root l.file)), ("line", .int l.line), ("column", .int l.column)]

/-- The name of a level as printed; the project's has a name of its own for each command. -/
def levelName (projectName : String) : ConfigurationLevel → String
  | .user => "global"
  | .project => projectName

/-- A text as printed, if there is one. -/
def textField (key : String) (text : Option String) : List (String × Json) :=
  (text.map fun s => (key, .str s)).toList

/-- The lines of a text; their line breaks are `\n` or `\r\n`. -/
def textLines (text : String) : List String :=
  let whole (line : List Char) : List Char :=
    if line.getLast? = some '\r' then line.dropLast else line
  let lines := Text.lines text.toList
  let last := lines.getLast?.getD []
  (lines.dropLast.map whole ++ if last.isEmpty then [] else [last]).map String.ofList

/-! ## Configuration -/

/-- Whether a server's program can be found. -/
def isInstalled (config : ServerConfig) : m Bool :=
  if 1 < (Path.place ⟨config.command⟩).length then FileAccess.isFile ⟨config.command⟩
  else FileAccess.findsProgram config.command

/-- A server as printed. -/
def printedServer (config : ServerConfig) (installed : Bool) : Json :=
  Json.object ([("name", .str config.identity), ("command", .str config.command)]
    ++ (if config.args.isEmpty then [] else [("args", Json.strings config.args)])
    ++ [("file_types", Json.strings config.fileTypes), ("installed", .bool installed)])

/-- Lists the known servers. -/
def runDoctor (c : CommandContext) (missingOnly : Bool) : m Json := do
  let servers ← c.catalog.servers.mapM fun config => return (config, ← isInstalled config)
  let installed := servers.countP (·.2)
  let shown := servers.filter fun s => !missingOnly || !s.2
  return printedSuccess
    [("summary", Json.object [("installed", .int installed),
      ("missing", .int (servers.length - installed))]),
      ("servers", .arr (shown.map fun (config, installed) => printedServer config installed))]

/-- Writes a configuration file with the default settings. -/
def runConfigInit (c : CommandContext) (level : ConfigurationLevel) (force : Bool) :
    ExceptT CommandError m Json := do
  let path ← orConfigurationError (Configuration.create c.files level force)
  return printedSuccess [("status", .str "created"), ("path", .str (printedPath c.root path)),
    ("level", .str (levelName "project" level))]

/-- Shows the configuration. -/
def runConfigShow (c : CommandContext) (level : ConfigurationLevel) :
    ExceptT CommandError m Json := do
  let configuration ← match level with
    | .user => orConfigurationError (Configuration.load c.files c.timeout .user)
    | .project => pure c.configuration
  return printedSuccess
    [("level", .str (levelName "merged" level)), ("config", configuration.toJson)]

/-- Shows where a configuration file is. -/
def runConfigPath (c : CommandContext) (level : ConfigurationLevel) : m Json := do
  let path := c.files.path level
  return printedSuccess [("level", .str (levelName "project" level)),
    ("path", .str (printedPath c.root path)), ("exists", .bool (← FileAccess.isPresent path))]

/-! ## Requests -/

variable [ServerControl m]

/-- Asks the server and stops it; a failing answer is one only when the server has stopped. -/
def ask (x : Exchange) (kind : RequestKind) (cursor : Nat) (selection : Option (Nat × Nat)) :
    ExceptT CommandError m (Answer × ServerReport) := do
  let (answer, x) ← x.request (m := m) kind cursor selection
  let report ← x.finish (m := m)
  return (← ExceptT.mk (pure answer), report)

/-- Asks the server about a place. -/
def askAt (c : CommandContext) (kind : RequestKind) (l : FileLocation) :
    ExceptT CommandError m (Answer × ServerReport) := do
  let x ← Exchange.start c l.file
  ask x kind (x.offset l.line l.column) none

/-- Shows what the server knows about a place. -/
def runHover (c : CommandContext) (location : String) : ExceptT CommandError m Json := do
  let l ← locate c location
  let (answer, report) ← askAt c .hover l
  let (content, message) ← match answer with
    | .text _ text => pure (some text, none)
    | .notice _ message => pure (none, some message)
    | _ => throw (.unexpectedAnswer "hover")
  return printedSuccess (placeFields c l ++ textField "content" content
    ++ textField "message" message ++ report.fields)

/-- Shows how a word can be completed, with as many items as wanted. -/
def runComplete (c : CommandContext) (location : String) (limit : Option Nat) :
    ExceptT CommandError m Json := do
  let l ← locate c location
  let (answer, report) ← askAt c .completion l
  let items ← match answer with
    | .completions items => pure items
    | .notice _ _ => pure []
    | _ => throw (.unexpectedAnswer "completion")
  let shown := match limit with
    | some limit => items.take limit
    | none => items
  return printedSuccess (placeFields c l
    ++ [("total", .int items.length), ("items", Json.strings shown)] ++ report.fields)

/-- Formats a file or some of its lines. -/
def runFormat (c : CommandContext) (file : Path) (lines : Option String) (write : Bool) :
    ExceptT CommandError m Json := do
  let file ← locateFile c file
  let span ← match lines with
    | some lines => some <$> orLocationError (readLineSpan lines)
    | none => pure none
  let x ← Exchange.start c file
  let (answer, report) ← match span with
    | some (first, last) =>
      let selection := lineSelection x.text.toList first last
      ask x .rangeFormat selection.1 (some selection)
    | none => ask x .format 0 none
  let formatted ← match answer with
    | .replaced text _ => pure (some text)
    | .notice _ _ => pure none
    | _ => throw (.unexpectedAnswer "formatting")
  if write then
    if let some text := formatted then
      if let .error fault ← FileAccess.writeText (m := m) file text then
        throw (.unwritable file.text fault)
  let written := write && formatted.isSome
  return printedSuccess ([("file", .str (printedPath c.root file)),
      ("changed", .bool formatted.isSome), ("written", .bool written)]
    ++ (if written then [] else textField "text" formatted) ++ report.fields)

/-- The place that is meant where something is looked for; symbols need a file only. -/
def findPlace (c : CommandContext) (kind : FindKind) (location : String) :
    ExceptT CommandError m FileLocation :=
  match kind, FileLocation.read location with
  | .symbols, .error _ => do
    return ⟨← locateFile c ⟨location⟩, 1, 1⟩
  | _, _ => locate c location

/-- Looks for places. -/
def runFind (c : CommandContext) (kind : FindKind) (location : String) :
    ExceptT CommandError m Json := do
  let l ← findPlace c kind location
  let (answer, report) ← askAt c kind.request l
  let (results, message) ← match answer with
    | .location location => pure ([printedLocation c.root location none], none)
    | .locations _ entries =>
      pure (entries.map fun entry =>
        printedLocation c.root entry.location
          (if kind = .symbols then some entry.label else none), none)
    | .notice _ message => pure ([], some message)
    | _ => throw (.unexpectedAnswer "navigation")
  return printedSuccess ([("kind", .str kind.request.capability.displayName),
      ("count", .int results.length), ("results", .arr results)]
    ++ textField "message" message ++ report.fields)

/-- A diagnostic as printed, with its line and columns counted from one. -/
def printedDiagnostic (server : String) (d : RenderedDiagnostic) : Json :=
  Json.object [("server", .str server), ("severity", .str d.severity.name),
    ("line", .int (d.line + 1)), ("column", .int (d.start + 1)),
    ("end_column", .int (d.stop + 1)), ("message", .str d.text)]

/-- The lines that touch a line, if that was asked. -/
def linesAt : Option Answer → Except CommandError (List (String × Json))
  | none => .ok []
  | some (.text _ text) => .ok [("at_line", Json.strings (textLines text))]
  | some (.notice _ _) => .ok [("at_line", .arr [])]
  | some _ => .error (.unexpectedAnswer "diagnostics")

/-- Shows the diagnostics of a file, of some severities only where that is wanted. -/
def runDiagnostics (c : CommandContext) (file : Path) (line : Option Nat)
    (severities : Option (List Severity)) : ExceptT CommandError m Json := do
  let file ← locateFile c file
  let x ← Exchange.start c file
  let (published, x) ← x.waitDiagnostics (m := m)
  let wanted (d : RenderedDiagnostic) : Bool := severities.all (·.contains d.severity)
  let diagnostics := x.host.diagnostics.entries.flatMap fun (server, ds) =>
    (ds.filter wanted).map (printedDiagnostic server)
  let (answer, x) ← match line with
    | some line => do
      let (answer, x) ← x.lineDiagnostics (m := m) line
      pure (answer.map some, x)
    | none => pure (.ok none, x)
  let report ← x.finish (m := m)
  let atLine ← ExceptT.mk (pure (answer.bind linesAt))
  return printedSuccess ([("file", .str (printedPath c.root file)),
      ("published", .bool published), ("count", .int diagnostics.length),
      ("diagnostics", .arr diagnostics)] ++ atLine ++ report.fields)

/-- Runs a command: the document it prints. -/
def run (c : CommandContext) : Command → ExceptT CommandError m Json
  | .hover location => runHover c location
  | .complete location limit => runComplete c location limit
  | .format file lines write => runFormat c file lines write
  | .find kind location => runFind c kind location
  | .diagnostics file line severities => runDiagnostics c file line severities
  | .doctor missingOnly => runDoctor (m := m) c missingOnly
  | .configInit level force => runConfigInit c level force
  | .configShow level => runConfigShow c level
  | .configPath level => runConfigPath (m := m) c level

end Command

end LanguageClient
