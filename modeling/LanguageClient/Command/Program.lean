import LanguageClient.Command.Arguments
import LanguageClient.Command.Run

/-!
# The program

From arguments, environment and configuration files to the one document that is printed.
-/

namespace LanguageClient

/-- Why nothing but a fault is printed. -/
inductive ProgramError where
  | usage (fault : UsageFault)
  /-- The configuration cannot be had, whatever the command. -/
  | configuration (e : ConfigurationError)
  | command (e : CommandError)
  deriving DecidableEq, Repr, Inhabited

variable {m : Type → Type} [Monad m] [FileAccess m]

/-- What a command line works with at a root, once the configuration files were read. -/
def CommandLine.context (line : CommandLine) (env : Environment) (root : Path) (processId : Nat) :
    ExceptT ConfigurationError m CommandContext := do
  let files := ConfigurationFiles.locate env root
  let configuration ← Configuration.load files env.requestTimeout .project
  return ⟨root, files, env.requestTimeout, configuration, line.server, line.showLog, processId⟩

/-- Runs the program at a root. -/
def runProgram [ServerControl m] (env : Environment) (root : Path) (processId : Nat)
    (args : List String) : ExceptT ProgramError m Json := do
  let line ← ExceptT.mk (pure ((CommandLine.read env args).mapError .usage))
  let c ← ExceptT.adapt .configuration (line.context (m := m) env root processId)
  ExceptT.adapt .command (Command.run (m := m) c line.command)

end LanguageClient
