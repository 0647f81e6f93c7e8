import LanguageClient.Bounds
import LanguageClient.Command.Basic
import LanguageClient.Command.Error
import LanguageClient.Command.Host
import LanguageClient.Session.Handle
import LanguageClient.System.FileAccess
import LanguageClient.System.ServerControl

/-!
# Exchanges with a server

What every command that needs a server does: start the server of one file, show the file in one
view, ask, and stop. Only here is anything waited for, and every wait ends at a moment fixed before.
-/

namespace LanguageClient

/-- What a command works with. -/
structure CommandContext where
  root : Path
  files : ConfigurationFiles
  /-- The time to wait that the environment sets. -/
  timeout : Option String
  configuration : Configuration
  /-- The server asked for. -/
  server : Option String
  showLog : Bool
  processId : Nat
  deriving Inhabited

/-- The servers that are known. -/
def CommandContext.catalog (c : CommandContext) : Catalog :=
  Catalog.ofConfigured c.configuration.servers

/-- What is printed about the server, whatever was asked. -/
structure ServerReport where
  server : String
  serverInfo : Option String
  messages : List (MessageType × String)
  log : Option String
  deriving DecidableEq, Repr, Inhabited

/-- The fields of a report. -/
def ServerReport.fields (r : ServerReport) : List (String × Json) :=
  let message (m : MessageType × String) : Json :=
    Json.object [("level", .str m.1.name), ("message", .str m.2)]
  [("server", .str r.server)]
    ++ (r.serverInfo.map fun s => ("server_info", .str s)).toList
    ++ (if r.messages.isEmpty then [] else [("messages", .arr (r.messages.map message))])
    ++ (r.log.map fun s => ("log", .str s)).toList

/-- A session with one server about one file, and what it has told so far. -/
structure Exchange where
  session : Session
  host : CommandHost
  /-- What the server is known by. -/
  identity : String
  file : Path
  showLog : Bool
  deriving Inhabited

namespace Exchange

/-- What an exchange is after a turn of its session. -/
def absorb (x : Exchange) (t : Turn) : Exchange :=
  { x with
    session := t.session
    host := t.told.foldl CommandHost.hear x.host }

/-- Whether the server is ready or gone. -/
def isSettled (x : Exchange) : Bool :=
  (x.session.connections.get? x.identity).all (·.isActive)

/-- Whether the server is ready. -/
def isActive (x : Exchange) : Bool := x.session.isActive x.identity

/-- The text of the file as the session has left it. -/
def text (x : Exchange) : String := ((x.host.buffers.get? x.file.place).map (·.text)).getD ""

/-- The offset of a line and column, both counted from one. -/
def offset (x : Exchange) (line column : Nat) : Nat :=
  (Position.ofOneBased line column).offset x.text.toList

/-- How many events a wait handles at most. -/
def patience : Nat := bound32

variable {m : Type → Type} [Monad m] [ServerControl m]

/-- Does what an effect asks of the servers. The session never halts, since the cursor of a command
is in its text. -/
def carryOut (grace : Nat) : Effect → m Unit
  | .write id message => ServerControl.send id message
  | .retire id => ServerControl.retire id grace
  | .tell _ => pure ()
  | .launch _ _ => pure ()
  | .halt => pure ()

/-- Does what a turn asks for. -/
def follow (x : Exchange) (t : Turn) : m Exchange := do
  t.effects.forM (carryOut x.session.settings.shutdownGrace)
  return x.absorb t

/-- Handles an event; no server is started. -/
def react (x : Exchange) (e : Event) : m Exchange :=
  x.follow (x.session.handle x.host.buffers (fun _ => .refused "") e)

/-- Does what the command wants. -/
def act (x : Exchange) (a : Action) : m Exchange := x.react (.action a)

/-- Starts a server. -/
def launch (x : Exchange) (target : StartTarget) : m Exchange := do
  let launched ← match Turn.configFor ⟨x.session, x.host.buffers, []⟩ target with
    | .ok config => ServerControl.launch x.session.nextConnection config x.session.root
    | .error _ => pure (.refused "")
  x.follow (x.session.handle x.host.buffers (fun _ => launched) (.action (.start target)))

/-- Handles events until `done` holds or the moment `deadline` has come: whether it holds. -/
def waitUntil (done : Exchange → Bool) (deadline : Nat) : Nat → Exchange → m (Bool × Exchange)
  | 0, x => return (done x, x)
  | fuel + 1, x => do
    if done x then return (true, x)
    match ← ServerControl.await deadline with
    | some e => waitUntil done deadline fuel (← x.react e)
    | none => return (false, x)

/-- Waits for some seconds at most. -/
def waitFor (x : Exchange) (seconds : Nat) (done : Exchange → Bool) : m (Bool × Exchange) := do
  waitUntil done ((← ServerControl.now) + seconds * 1000) patience x

/-- Handles the events that are already there. -/
def drain : Nat → Exchange → m Exchange
  | 0, x => return x
  | fuel + 1, x => do
    match ← ServerControl.ready with
    | some e => drain fuel (← x.react e)
    | none => return x

/-- Stops every server and says what there is to say about it. -/
def finish (x : Exchange) : m ServerReport := do
  let x ← x.act .stopAll
  ServerControl.reap (m := m) (x.session.settings.shutdownGrace + 1000)
  let x ← drain patience x
  return ⟨x.identity, x.host.serverInfo, x.host.messages,
    if x.showLog then x.session.serverLog x.identity else none⟩

/-- Why the server is not ready after the wait for it. -/
def startFault (x : Exchange) (settled : Bool) : CommandError :=
  if settled then .refused (x.host.lastNotice.getD "Server stopped during initialization")
  else .slowStart x.identity x.session.settings.requestTimeout

/-- Waits until the server is ready and shows it the file. -/
def openFile (x : Exchange) : ExceptT CommandError m Exchange := do
  let (settled, x) ← x.waitFor (m := m) x.session.settings.requestTimeout isSettled
  if !x.isActive then
    let _ ← x.finish (m := m)
    throw (x.startFault settled)
  let x ← x.act (m := m) (.viewOpened commandView x.file)
  x.act (m := m) (.viewFocused commandView)

/-- Starts the server of a file, waits until it is ready and shows it the file. -/
def start [FileAccess m] (c : CommandContext) (file : Path) : ExceptT CommandError m Exchange := do
  let text ← match ← FileAccess.readText (m := m) file with
    | .ok text => pure text
    | .error fault => throw (.unreadable file.text fault)
  let target ← match StartTarget.choose c.catalog c.server file with
    | .ok target => pure target
    | .error e => throw (.target e)
  let session := Session.new c.root c.configuration.settings c.processId c.catalog
  let host := CommandHost.empty.setBuffer file ⟨text, 0, none⟩
  let x ← Exchange.launch (m := m) ⟨session, host, "", file, c.showLog⟩ target
  match Registry.identities x.session.connections with
  | [] => throw (.refused (x.host.lastNotice.getD "Server did not start"))
  | identity :: _ => openFile { x with identity := identity }

/-- Asks the server and waits for what the session makes of its answer. -/
def request (x : Exchange) (kind : RequestKind) (cursor : Nat) (selection : Option (Nat × Nat)) :
    m (Except CommandError Answer × Exchange) := do
  let x := { x with host := x.host.setBuffer x.file ⟨x.text, cursor, selection⟩ }
  let mark := x.host.answers.length
  let x ← x.act (.request kind x.file)
  let (_, x) ← x.waitFor x.session.settings.requestTimeout fun x => mark < x.host.answers.length
  match x.host.answers[mark]? with
  | some answer => return (answer.outcome.mapError .refused, x)
  | none => return (.error (.slowAnswer x.identity x.session.settings.requestTimeout), x)

/-- Waits for the first diagnostics: whether there were any. -/
def waitDiagnostics (x : Exchange) : m (Bool × Exchange) :=
  x.waitFor x.session.settings.diagnosticsWait fun x => 0 < x.host.publications || !x.isActive

/-- Asks what touches a line, counted from one. -/
def lineDiagnostics (x : Exchange) (line : Nat) : m (Except CommandError Answer × Exchange) := do
  let mark := x.host.answers.length
  let x ← x.act (.lineDiagnostics x.file (line - 1))
  match x.host.answers[mark]? with
  | some answer => return (answer.outcome.mapError .refused, x)
  | none => return (.error (.noLineAnswer line), x)

end Exchange

end LanguageClient
