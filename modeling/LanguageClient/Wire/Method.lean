/-!
# Methods

The requests that the client sends, and the names of the other messages of the protocol.
-/

namespace LanguageClient

/-- A request that the client sends. -/
inductive Method where
  | handshake
  | shutdown
  | hover
  | formatting
  | rangeFormatting
  | completion
  | definition
  | declaration
  | typeDefinition
  | implementation
  | references
  | documentSymbol
  deriving DecidableEq, Repr, Inhabited

namespace Method

/-- The name of a request on the wire. -/
def name : Method → String
  | handshake => "initialize"
  | shutdown => "shutdown"
  | hover => "textDocument/hover"
  | formatting => "textDocument/formatting"
  | rangeFormatting => "textDocument/rangeFormatting"
  | completion => "textDocument/completion"
  | definition => "textDocument/definition"
  | declaration => "textDocument/declaration"
  | typeDefinition => "textDocument/typeDefinition"
  | implementation => "textDocument/implementation"
  | references => "textDocument/references"
  | documentSymbol => "textDocument/documentSymbol"

/-- Every request that the client sends. -/
def all : List Method :=
  [handshake, shutdown, hover, formatting, rangeFormatting, completion, definition, declaration,
    typeDefinition, implementation, references, documentSymbol]

/-- The request of a name. -/
def ofName? (s : String) : Option Method := all.find? (·.name = s)

end Method

/-! ## Names of messages that are no request of the client -/

namespace Wire

def initialized : String := "initialized"
def exit : String := "exit"
def didOpen : String := "textDocument/didOpen"
def didChange : String := "textDocument/didChange"
def didSave : String := "textDocument/didSave"
def didClose : String := "textDocument/didClose"
def didChangeConfiguration : String := "workspace/didChangeConfiguration"

def publishDiagnostics : String := "textDocument/publishDiagnostics"
def logMessage : String := "window/logMessage"
def showMessage : String := "window/showMessage"
def showMessageRequest : String := "window/showMessageRequest"
def workDoneProgressCreate : String := "window/workDoneProgress/create"
def configuration : String := "workspace/configuration"
def applyEdit : String := "workspace/applyEdit"
def registerCapability : String := "client/registerCapability"
def unregisterCapability : String := "client/unregisterCapability"

end Wire

end LanguageClient
