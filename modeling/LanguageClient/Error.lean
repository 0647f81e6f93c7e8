import LanguageClient.Text.Blank
import LanguageClient.Wire.Message
import LanguageClient.Wire.Method

/-!
# Failures of the client

Why an action or a message of a server came to nothing, how loudly the user is told, and in which
words.
-/

namespace LanguageClient

/-- How loudly the user is told. -/
inductive NoticeLevel where
  | info
  | warning
  | error
  deriving DecidableEq, Repr, Inhabited

namespace NoticeLevel

/-- The name of a level. -/
def name : NoticeLevel → String
  | info => "info"
  | warning => "warning"
  | error => "error"

end NoticeLevel

/-- Why something the client did came to nothing. -/
inductive Failure where
  | serverStart (reason : String)
  | notConnected
  | duplicateStart (identity : String)
  | unknownServer (identity : String)
  | noServerForLanguage (language : String)
  | noActiveServer (path : String)
  | featureNotSupported (feature : String)
  | serverTerminated (identity : String) (code : Option Int)
  | serverError (method : String) (code : Int) (message : String)
  | noBuffer (reason : String)
  | protocol (reason : String)
  deriving DecidableEq, Repr, Inhabited

namespace Failure

/-- The words for a failure. -/
def message : Failure → String
  | serverStart reason => s!"Failed to start server: {reason}"
  | notConnected => "Server not connected"
  | duplicateStart identity => s!"{identity} is already running"
  | unknownServer identity => s!"No server named '{identity}' is running"
  | noServerForLanguage language =>
    s!"No language server configured for '{language}'. " ++
      "Run 'lspc doctor' to see configured servers."
  | noActiveServer path => s!"No active language server for {path}"
  | featureNotSupported feature => s!"No active server supports '{feature}'"
  | serverTerminated identity (some code) => s!"{identity} terminated (exit code {code})"
  | serverTerminated identity none => s!"{identity} terminated"
  | serverError method code message => s!"{method} failed [{code}]: {message}"
  | noBuffer reason => reason
  | protocol reason => s!"Protocol error: {reason}"

/-- How loudly the user is told of a failure. -/
def level : Failure → NoticeLevel
  | duplicateStart _ => .warning
  | featureNotSupported _ => .warning
  | serverError _ code _ => if code = ResponseError.requestCancelled then .info else .error
  | _ => .error

/-- There is no buffer for a document. -/
def missingBuffer (path : String) : Failure := noBuffer s!"No buffer for {path}"

/-- What a request's error means to the user. -/
def ofResponse (method : Method) (e : ResponseError) : Failure :=
  let said := trimmed e.message
  let message :=
    if e.code = ResponseError.methodNotFound then s!"Server does not implement {method.name}"
    else if e.code = ResponseError.serverNotInitialized then
      "Server initializing. Try again in a moment."
    else if e.code = ResponseError.contentModified then "Document changed during the request"
    else if e.code = ResponseError.requestCancelled then "Request cancelled"
    else if said = "" then "Operation failed"
    else said
  serverError method.name e.code message

end Failure

/-- Why the result of a request cannot be used. -/
inductive ResultError where
  | invalidShape (reason : String)
  | unsupportedLink
  | undecodable (error : DecodeError)
  deriving Repr, Inhabited

namespace ResultError

/-- The words for an unusable result. -/
def message : ResultError → String
  | invalidShape reason => s!"Unrecognized result format: {reason}"
  | unsupportedLink => "Location links are not supported"
  | undecodable error => error.message

/-- A result that is of the wrong kind altogether. -/
def wrongShape (expected : String) (got : Json) : ResultError :=
  invalidShape s!"expected {expected}, got {got.kindName}"

end ResultError

end LanguageClient
