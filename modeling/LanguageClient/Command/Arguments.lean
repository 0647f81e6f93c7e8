import LanguageClient.Bounds
import LanguageClient.Command.Basic

/-!
# Command lines

How the arguments of the program are read. Options that hold everywhere may stand before and after
the name of a command. An option that has a value takes it after `=` or from the next argument that
is no option; options of one letter can be written together. A value is looked at when the next
option or operand begins, so an argument that nobody knows is found before a bad value in front of
it, and faults after the name of a command come before those in front of it.
-/

namespace LanguageClient

/-- What has options and operands of its own: the program, and each of its commands. -/
inductive CommandLevel where
  | top
  | hover
  | complete
  | format
  | find
  | diagnostics
  | doctor
  | config
  | configInit
  | configShow
  | configPath
  deriving DecidableEq, Repr, Inhabited

/-- Options. -/
inductive OptionName where
  | server
  | verbose
  | showLog
  | help
  | version
  | limit
  | lines
  | write
  | line
  | severity
  | missingOnly
  | global
  | force
  deriving DecidableEq, Repr, Inhabited

/-- Arguments that are known by where they stand. -/
inductive Operand where
  | location
  | file
  | kind
  deriving DecidableEq, Repr, Inhabited

namespace OptionName

/-- The name after two dashes. -/
def long : OptionName → String
  | server => "server"
  | verbose => "verbose"
  | showLog => "show-log"
  | help => "help"
  | version => "version"
  | limit => "limit"
  | lines => "lines"
  | write => "write"
  | line => "line"
  | severity => "severity"
  | missingOnly => "missing-only"
  | global => "global"
  | force => "force"

/-- The letter after one dash. -/
def short : OptionName → Option Char
  | verbose => some 'v'
  | help => some 'h'
  | version => some 'V'
  | write => some 'w'
  | severity => some 's'
  | force => some 'f'
  | _ => none

/-- Whether the option has a value. -/
def takesValue : OptionName → Bool
  | server => true
  | limit => true
  | lines => true
  | line => true
  | severity => true
  | _ => false

end OptionName

namespace CommandLevel

/-- The options that hold everywhere. -/
def commonOptions : List OptionName := [.server, .verbose, .showLog, .help, .version]

/-- The options at a level. -/
def options (level : CommandLevel) : List OptionName :=
  commonOptions ++
    match level with
    | complete => [.limit]
    | format => [.lines, .write]
    | diagnostics => [.line, .severity]
    | doctor => [.missingOnly]
    | configInit => [.global, .force]
    | configShow => [.global]
    | configPath => [.global]
    | _ => []

/-- The operands at a level, in order. -/
def operands : CommandLevel → List Operand
  | hover => [.location]
  | complete => [.location]
  | format => [.file]
  | find => [.kind, .location]
  | diagnostics => [.file]
  | _ => []

/-- The commands at a level. -/
def commands : CommandLevel → List (String × CommandLevel)
  | top => [("hover", hover), ("complete", complete), ("format", format), ("find", find),
      ("diagnostics", diagnostics), ("doctor", doctor), ("config", config)]
  | config => [("init", configInit), ("show", configShow), ("path", configPath)]
  | _ => []

/-- The command of a name. -/
def command? (level : CommandLevel) (name : String) : Option CommandLevel :=
  (level.commands.find? (·.1 = name)).map (·.2)

/-- Whether a word is the name of a command, which `help` is where there are commands. -/
def isCommand (level : CommandLevel) (word : String) : Bool :=
  (level.command? word).isSome || (word = "help" && !level.commands.isEmpty)

/-- The option of a long name. -/
def longOption? (level : CommandLevel) (name : String) : Option OptionName :=
  level.options.find? (·.long = name)

/-- The option of a letter. -/
def shortOption? (level : CommandLevel) (letter : Char) : Option OptionName :=
  level.options.find? (·.short = some letter)

/-- What comes of asking for help about a command, by the names that lead to it. -/
def helpAbout (level : CommandLevel) : List String → UsageFault
  | [] => .help
  | name :: rest =>
    match level.command? name with
    | some level => level.helpAbout rest
    | none => if level.isCommand name && rest.isEmpty then .help else .unknownCommand

end CommandLevel

/-! ## Values -/

/-- The arguments given at one level. -/
structure GivenArguments where
  server : Option String
  verbose : Bool
  showLog : Bool
  location : Option String
  file : Option Path
  kind : Option FindKind
  limit : Option Nat
  lines : Option String
  write : Bool
  line : Option Nat
  severities : Option (List Severity)
  missingOnly : Bool
  global : Bool
  force : Bool
  deriving DecidableEq, Repr, Inhabited

namespace GivenArguments

/-- No arguments. -/
def none : GivenArguments where
  server := .none
  verbose := false
  showLog := false
  location := .none
  file := .none
  kind := .none
  limit := .none
  lines := .none
  write := false
  line := .none
  severities := .none
  missingOnly := false
  global := false
  force := false

/-- Reads a line number, which a sign may precede. -/
def readLine (text : String) : Option Nat :=
  match text.toList with
  | '-' :: digits => if digits ≠ [] && digits.all (· = '0') then some 0 else .none
  | chars => readNatural bound32 chars

/-- Reads severities with commas between them. -/
def readSeverities (text : String) : Option (List Severity) :=
  (text.toList.splitOn ',').mapM fun word => Severity.ofWord? (String.ofList word)

/-- A value that an option can be given once. -/
def once {α : Type} (held : Option α) (value : Option α) : Except UsageFault (Option α) :=
  match held, value with
  | some _, _ => .error .conflict
  | .none, some a => .ok (some a)
  | .none, .none => .error .malformedValue

/-- A flag that can be given once. -/
def raised (held : Bool) : Except UsageFault Bool := if held then .error .conflict else .ok true

/-- Takes an option with its value. -/
def takeOption (g : GivenArguments) (o : OptionName) (text : String) :
    Except UsageFault GivenArguments := do
  match o with
  | .server => return { g with server := ← once g.server (some text) }
  | .limit => return { g with limit := ← once g.limit (readNatural bound64 text.toList) }
  | .lines => return { g with lines := ← once g.lines (some text) }
  | .line => return { g with line := ← once g.line (readLine text) }
  | .severity =>
    match readSeverities text with
    | some more => return { g with severities := some (g.severities.getD [] ++ more) }
    | .none => .error .malformedValue
  | _ => .error .unneededValue

/-- Takes an option without value. -/
def takeFlag (g : GivenArguments) (o : OptionName) : Except UsageFault GivenArguments := do
  match o with
  | .verbose => return { g with verbose := ← raised g.verbose }
  | .showLog => return { g with showLog := ← raised g.showLog }
  | .write => return { g with write := ← raised g.write }
  | .missingOnly => return { g with missingOnly := ← raised g.missingOnly }
  | .global => return { g with global := ← raised g.global }
  | .force => return { g with force := ← raised g.force }
  | .help => .error .help
  | .version => .error .version
  | _ => .error .invalidValue

/-- Takes an operand. -/
def takeOperand (g : GivenArguments) (o : Operand) (text : String) :
    Except UsageFault GivenArguments :=
  match o with
  | .location => .ok { g with location := some text }
  | .file => if text = "" then .error .invalidValue else .ok { g with file := some ⟨text⟩ }
  | .kind =>
    match FindKind.ofWord? text with
    | some kind => .ok { g with kind := some kind }
    | .none => .error .invalidValue

/-- The level of the configuration that a command speaks of. -/
def level (g : GivenArguments) : ConfigurationLevel := if g.global then .user else .project

/-- The command of a level with the arguments given. -/
def toCommand (g : GivenArguments) (level : CommandLevel) : Except UsageFault Command :=
  match level, g.location, g.file, g.kind with
  | .hover, some location, _, _ => .ok (.hover location)
  | .complete, some location, _, _ => .ok (.complete location g.limit)
  | .format, _, some file, _ => .ok (.format file g.lines g.write)
  | .find, some location, _, some kind => .ok (.find kind location)
  | .diagnostics, _, some file, _ => .ok (.diagnostics file g.line g.severities)
  | .doctor, _, _, _ => .ok (.doctor g.missingOnly)
  | .configInit, _, _, _ => .ok (.configInit g.level g.force)
  | .configShow, _, _, _ => .ok (.configShow g.level)
  | .configPath, _, _, _ => .ok (.configPath g.level)
  | .top, _, _, _ => .error (if g = none then .helpForMissing else .missingCommand)
  | .config, _, _, _ => .error (if g = none then .helpForMissing else .missingCommand)
  | _, _, _, _ => .error .missingArgument

end GivenArguments

/-! ## Reading -/

/-- An argument that was begun and not looked at yet. -/
inductive PendingArgument where
  /-- An option whose value may still come. -/
  | option (o : OptionName) (value : Option String)
  | operand (o : Operand) (value : String)
  deriving DecidableEq, Repr, Inhabited

/-- What was read at one level. -/
structure LevelReader where
  given : GivenArguments
  pending : Option PendingArgument
  /-- How many operands were begun. -/
  operands : Nat
  /-- Whether all that follows is operands. -/
  operandsOnly : Bool
  deriving DecidableEq, Repr, Inhabited

namespace LevelReader

/-- The state at the start of a level. -/
def start : LevelReader := ⟨.none, none, 0, false⟩

/-- The option that waits for its value. -/
def awaiting (r : LevelReader) : Option OptionName :=
  match r.pending with
  | some (.option o none) => some o
  | _ => none

/-- Looks at the argument that was begun. -/
def settle (r : LevelReader) : Except UsageFault LevelReader := do
  match r.pending with
  | none => return r
  | some (.option _ none) => .error .invalidValue
  | some (.option o (some text)) =>
    return { r with given := ← r.given.takeOption o text, pending := none }
  | some (.operand o text) =>
    return { r with given := ← r.given.takeOperand o text, pending := none }

/-- Begins an option whose value may come. -/
def beginOption (r : LevelReader) (o : OptionName) : Except UsageFault LevelReader := do
  return { ← r.settle with pending := some (.option o none) }

/-- Takes an option with the value attached to it. -/
def attached (r : LevelReader) (o : OptionName) (text : String) :
    Except UsageFault LevelReader := do
  let r ← r.settle
  return { r with given := ← r.given.takeOption o text }

/-- Takes an option without value. -/
def flag (r : LevelReader) (o : OptionName) : Except UsageFault LevelReader := do
  let r ← r.settle
  return { r with given := ← r.given.takeFlag o }

/-- Begins the next operand. -/
def beginOperand (level : CommandLevel) (r : LevelReader) (text : String) :
    Except UsageFault LevelReader := do
  match level.operands[r.operands]? with
  | some o =>
    return { ← r.settle with pending := some (.operand o text), operands := r.operands + 1 }
  | none =>
    if level.commands.isEmpty || (r.operandsOnly && level.isCommand text) then
      .error .unknownArgument
    else .error .unknownCommand

/-- Reads what follows two dashes. -/
def readLong (level : CommandLevel) (r : LevelReader) (chars : List Char) :
    Except UsageFault LevelReader :=
  let (name, value) := match splitAtFirst '=' chars with
    | some (name, value) => (name, some (String.ofList value))
    | none => (chars, none)
  match level.longOption? (String.ofList name), value with
  | none, _ => .error .unknownArgument
  | some o, some text => if o.takesValue then r.attached o text else .error .unneededValue
  | some o, none => if o.takesValue then r.beginOption o else r.flag o

/-- Reads the letters that follow one dash. -/
def readLetters (level : CommandLevel) : LevelReader → List Char → Except UsageFault LevelReader
  | r, [] => .ok r
  | r, letter :: rest =>
    match level.shortOption? letter with
    | none => .error .unknownArgument
    | some o =>
      if o.takesValue then
        match rest with
        | [] => r.beginOption o
        | '=' :: value => r.attached o (String.ofList value)
        | value => r.attached o (String.ofList value)
      else do
        readLetters level (← r.flag o) rest

/-- Reads one argument that does not name a command. -/
def readArgument (level : CommandLevel) (r : LevelReader) (arg : String) :
    Except UsageFault LevelReader :=
  if r.operandsOnly then r.beginOperand level arg
  else if arg = "--" then .ok { r with operandsOnly := true }
  else
    match arg.toList, r.awaiting with
    | '-' :: '-' :: chars, _ => r.readLong level chars
    | '-' :: letter :: letters, _ => r.readLetters level (letter :: letters)
    | _, some o => .ok { r with pending := some (.option o (some arg)) }
    | _, none => r.beginOperand level arg

end LevelReader

namespace CommandLine

/-- Reads the arguments from a level on. -/
def readFrom (level : CommandLevel) : LevelReader → List String → Except UsageFault CommandLine
  | r, [] => do
    let given := (← r.settle).given
    return ⟨← given.toCommand level, given.server, given.verbose, given.showLog⟩
  | r, arg :: rest =>
    if !r.operandsOnly && r.awaiting.isNone && level.isCommand arg then
      match level.command? arg with
      | none => .error (level.helpAbout rest)
      | some command => do
        let line ← readFrom command .start rest
        let given := (← r.settle).given
        return { line with
          server := line.server <|> given.server
          verbose := line.verbose || given.verbose
          showLog := line.showLog || given.showLog }
    else do
      readFrom level (← r.readArgument level arg) rest

/-- Reads the arguments of the program. The environment names the server where they do not. -/
def read (env : Environment) (args : List String) : Except UsageFault CommandLine :=
  match readFrom .top .start args with
  | .ok line => .ok { line with server := line.server <|> env.server }
  | .error .helpForMissing =>
    .error (if env.server.isSome then .missingCommand else .helpForMissing)
  | .error fault => .error fault

end CommandLine

end LanguageClient
