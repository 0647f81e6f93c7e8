import LanguageClient.Diagnostic.Basic
import LanguageClient.Path.Basic
import LanguageClient.Session.Basic
import LanguageClient.Settings.Load

/-!
# Commands

What the program can be told to do.
-/

namespace LanguageClient

/-- What can be looked for. -/
inductive FindKind where
  | definition
  | declaration
  | typeDefinition
  | implementation
  | references
  | symbols
  deriving DecidableEq, Repr, Inhabited

namespace FindKind

/-- What is looked for under a word of the command line. -/
def ofWord? : String → Option FindKind
  | "def" => some definition
  | "decl" => some declaration
  | "type" => some typeDefinition
  | "impl" => some implementation
  | "refs" => some references
  | "symbols" => some symbols
  | _ => none

/-- The request that finds it. -/
def request : FindKind → RequestKind
  | definition => .definition
  | declaration => .declaration
  | typeDefinition => .typeDefinition
  | implementation => .implementation
  | references => .references
  | symbols => .documentSymbols

end FindKind

/-- What the program can be told to do. Places in files are given as users write them. -/
inductive Command where
  | hover (location : String)
  | complete (location : String) (limit : Option Nat)
  | format (file : Path) (lines : Option String) (write : Bool)
  | find (kind : FindKind) (location : String)
  | diagnostics (file : Path) (line : Option Nat) (severities : Option (List Severity))
  | doctor (missingOnly : Bool)
  | configInit (level : ConfigurationLevel) (force : Bool)
  | configShow (level : ConfigurationLevel)
  | configPath (level : ConfigurationLevel)
  deriving DecidableEq, Repr, Inhabited

/-- A whole command line. -/
structure CommandLine where
  command : Command
  /-- The server to use, by name or as a program with arguments. -/
  server : Option String
  verbose : Bool
  /-- Whether the server's error output is printed too. -/
  showLog : Bool
  deriving DecidableEq, Repr, Inhabited

/-- Why a command line is not a command to run. -/
inductive UsageFault where
  | missingArgument
  | invalidValue
  | malformedValue
  | unneededValue
  | unknownArgument
  | unknownCommand
  | missingCommand
  | conflict
  | help
  | version
  /-- Nothing was said, so help is what is wanted. -/
  | helpForMissing
  deriving DecidableEq, Repr, Inhabited

end LanguageClient
