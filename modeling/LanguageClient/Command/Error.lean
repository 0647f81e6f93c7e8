import LanguageClient.Command.Location
import LanguageClient.Command.Target
import LanguageClient.Settings.Error

/-!
# Faults of commands

Why a command fails, in the words that are printed.
-/

namespace LanguageClient

/-- Why a command fails. -/
inductive CommandError where
  | configuration (e : ConfigurationError)
  | location (e : LocationError)
  | target (e : TargetError)
  | unreadable (file : String) (fault : AccessFault)
  | unwritable (file : String) (fault : AccessFault)
  /-- The session has said why. -/
  | refused (message : String)
  /-- The server did not answer the handshake in time, which is in seconds. -/
  | slowStart (identity : String) (limit : Nat)
  /-- The server did not answer a request in time, which is in seconds. -/
  | slowAnswer (identity : String) (limit : Nat)
  | noLineAnswer (line : Nat)
  /-- The session has answered something else than what was asked. -/
  | unexpectedAnswer (wanted : String)
  deriving DecidableEq, Repr, Inhabited

/-- The words for a command that fails. -/
def CommandError.message : CommandError → String
  | configuration e => e.message
  | location e => e.message
  | target e => e.message
  | unreadable file fault => s!"Failed to read {file}: {fault.message}"
  | unwritable file fault => s!"Failed to write {file}: {fault.message}"
  | refused message => message
  | slowStart identity limit => s!"Timed out after {limit}s waiting for {identity} to initialize"
  | slowAnswer identity limit => s!"Timed out after {limit}s waiting for {identity}"
  | noLineAnswer line => s!"No answer for line {line}"
  | unexpectedAnswer wanted => s!"Unexpected {wanted} answer"

end LanguageClient
