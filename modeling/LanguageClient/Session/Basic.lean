import LanguageClient.Connection.Registry
import LanguageClient.Diagnostic.Store
import LanguageClient.Server.Capability
import LanguageClient.Server.Catalog
import LanguageClient.Settings.Basic
import LanguageClient.View

/-!
# Sessions

A session ties the servers of one project to one host, which is the editor or whatever stands in its
place. It reacts to one event at a time: output and exits of servers, and actions of the host. What
it does is a list of effects in order; what it asks of the host in between is only the text of its
buffers, so handling an event is a function of the session, the buffers and the event.

Not spoken of are what a client writes to a log of its own and how the processes of servers are run
and made to exit: of the first nothing depends, and of the second a session sees only events.
-/

namespace LanguageClient

/-- A document as the host has it; offsets are bytes of the text. -/
structure Buffer where
  text : String
  cursor : Nat
  selection : Option (Nat × Nat)
  deriving DecidableEq, Repr, Inhabited

/-- The documents that the host has, by place. -/
abbrev Buffers := Table Place Buffer

/-- Which server to start. -/
inductive StartTarget where
  /-- A program; what is known of it still holds. -/
  | command (name : Option String) (command : String) (args : List String)
  /-- The server of a language. -/
  | fileType (language : String)
  deriving DecidableEq, Repr, Inhabited

/-- What the host can ask about a document. -/
inductive RequestKind where
  | hover
  | format
  | rangeFormat
  | completion
  | definition
  | declaration
  | typeDefinition
  | implementation
  | references
  | documentSymbols
  deriving DecidableEq, Repr, Inhabited

namespace RequestKind

/-- Whether the answer edits the document. -/
def editsDocument : RequestKind → Bool
  | format => true
  | rangeFormat => true
  | _ => false

/-- The feature of a server that is needed. -/
def capability : RequestKind → Capability
  | hover => .hover
  | format => .formatting
  | rangeFormat => .rangeFormatting
  | completion => .completion
  | definition => .definition
  | declaration => .declaration
  | typeDefinition => .typeDefinition
  | implementation => .implementation
  | references => .references
  | documentSymbols => .documentSymbol

end RequestKind

/-- What the host wants done. -/
inductive Action where
  | start (target : StartTarget)
  | stop (identity : String)
  | stopAll
  | showLog (identity : String)
  | viewOpened (view : ViewId) (path : Path)
  | viewFocused (view : ViewId)
  | viewClosed (view : ViewId)
  | edited (path : Path) (changes : List ContentChange)
  | saved (path : Path)
  | resync (path : Path)
  | request (kind : RequestKind) (path : Path)
  | lineDiagnostics (path : Path) (line : Nat)
  deriving DecidableEq, Repr, Inhabited

/-- What a session reacts to. -/
inductive Event where
  | stdout (connection : ConnectionId) (bytes : Bytes)
  | stderr (connection : ConnectionId) (bytes : Bytes)
  | exited (connection : ConnectionId) (code : Option Int)
  | action (a : Action)
  deriving DecidableEq, Repr, Inhabited

/-- What a session tells its host. -/
inductive Callback where
  | notify (level : NoticeLevel) (message : String)
  | connected (identity : String) (server : Option ServerInfo)
  | serverMessage (identity : String) (level : MessageType) (message : String)
  | showText (title text : String)
  | openLocation (location : Location)
  | replaceDocument (path : Path) (text : String) (cursor : Nat)
  | showCompletions (items : List String)
  | dismissCompletion
  | showLocations (title : String) (entries : List LocationEntry)
  /-- What one server has to say in a view, in place of what it had to say before. -/
  | setDiagnostics (view : ViewId) (identity : String) (diagnostics : List RenderedDiagnostic)
  deriving DecidableEq, Repr, Inhabited

/-- What a session does. -/
inductive Effect where
  | tell (callback : Callback)
  | write (connection : ConnectionId) (message : Json)
  | launch (connection : ConnectionId) (config : ServerConfig)
  /-- A server is no longer needed and may be made to exit. -/
  | retire (connection : ConnectionId)
  /-- The session cannot go on: a cursor has left the range of machine words. A turn only records
  this. A program ends here, and what the turn does afterwards is none of the program's doing. -/
  | halt
  deriving Inhabited

/-- What became of a launch. -/
inductive Launched where
  | refused (reason : String)
  | running (wireOpen : Bool)
  deriving DecidableEq, Repr, Inhabited

/-- Launches a server. -/
abbrev Launcher := ServerConfig → Launched

/-- What a session knows. -/
structure Session where
  root : Path
  settings : Settings
  /-- The number of the client's own process, which servers are told. -/
  processId : Nat
  catalog : Catalog
  connections : Registry
  capabilities : CapabilityTable
  diagnostics : DiagnosticStore
  views : ViewTable
  focused : Option ViewId
  logs : Table String ServerLog
  /-- The number of the next launch, which is never used again. -/
  nextConnection : ConnectionId

namespace Session

/-- A session without servers and views. -/
def new (root : Path) (settings : Settings) (processId : Nat) (catalog : Catalog) : Session where
  root := root
  settings := settings
  processId := processId
  catalog := catalog
  connections := .empty
  capabilities := .empty
  diagnostics := .empty
  views := .empty
  focused := none
  logs := .empty
  nextConnection := 1

instance : Inhabited Session := ⟨new ⟨"/"⟩ .default 0 ⟨[]⟩⟩

/-- Whether a server's connection is active. -/
def isActive (s : Session) (identity : String) : Bool :=
  match s.connections.get? identity with
  | some c => c.isActive
  | none => false

/-- What a server wrote to its error output. -/
def serverLog (s : Session) (identity : String) : Option String :=
  (s.logs.get? identity).map fun log => String.ofList log.text

/-- Closes the wire of a connection, as its server can at any time. -/
def closeWire (s : Session) (id : ConnectionId) : Session :=
  match Registry.findById s.connections id with
  | some c => { s with connections := s.connections.set c.identity { c with wireOpen := false } }
  | none => s

end Session

/-- A session in the middle of an event: what it knows, what the host has, what was done so far. -/
structure Turn where
  session : Session
  buffers : Buffers
  effects : List Effect
  deriving Inhabited

namespace Turn

/-- The host's buffer of a document. -/
def buffer (t : Turn) (path : Path) : Option Buffer := t.buffers.get? path.place

/-- The text of the host's buffer of a document. -/
def bufferText (t : Turn) (path : Path) : Option String := (t.buffer path).map (·.text)

/-- One more effect. -/
def emit (t : Turn) (e : Effect) : Turn := { t with effects := t.effects ++ [e] }

/-- Tells the host something. -/
def tell (t : Turn) (c : Callback) : Turn := t.emit (.tell c)

/-- Shows the user a notice. -/
def notice (t : Turn) (level : NoticeLevel) (message : String) : Turn :=
  t.tell (.notify level message)

/-- Tells the user of a failure. -/
def report (t : Turn) (f : Failure) : Turn := t.notice f.level f.message

/-- Writes messages to a connection's wire. -/
def write (t : Turn) (id : ConnectionId) (messages : List Json) : Turn :=
  { t with effects := t.effects ++ messages.map (.write id) }

/-- The connection of an identity. -/
def connection (t : Turn) (identity : String) : Option Connection :=
  t.session.connections.get? identity

/-- Keeps a connection under its identity. -/
def keep (t : Turn) (identity : String) (c : Connection) : Turn :=
  { t with session := { t.session with connections := t.session.connections.set identity c } }

/-- The identities of all connections in order. -/
def identities (t : Turn) : List String := Registry.identities t.session.connections

/-- Writes a notification to a connection, if its wire takes it. -/
def notify (t : Turn) (c : Connection) (n : Notification) : Turn :=
  match c.notify n with
  | .ok message => t.write c.id [message]
  | .error _ => t

/-- What the host was told, in order. -/
def told (t : Turn) : List Callback :=
  t.effects.filterMap fun
    | .tell c => some c
    | _ => none

/-- What was written to the wires, in order. -/
def written (t : Turn) : List (ConnectionId × Json) :=
  t.effects.filterMap fun
    | .write id message => some (id, message)
    | _ => none

/-- The servers launched, in order. -/
def launched (t : Turn) : List (ConnectionId × ServerConfig) :=
  t.effects.filterMap fun
    | .launch id config => some (id, config)
    | _ => none

/-- Whether the session cannot go on, so that a host has to stop handling events. -/
def halted (t : Turn) : Bool :=
  t.effects.any fun
    | .halt => true
    | _ => false

/-- Replaces the host's buffer of a document and tells the host. -/
def replaceDocument (t : Turn) (path : Path) (text : String) (cursor : Nat) : Turn :=
  { t with buffers := t.buffers.set path.place ⟨text, cursor, none⟩ }.tell
    (.replaceDocument path text cursor)

end Turn

end LanguageClient
