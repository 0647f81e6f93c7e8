import LanguageClient.Session.Basic

/-!
# Servers in a session

How servers are started and stopped, and what is left of one when it ends: nothing but its log.
-/

namespace LanguageClient.Turn

/-- The configuration that a target names. -/
def configFor (t : Turn) : StartTarget → Except Failure ServerConfig
  | .command name command args => .ok (t.session.catalog.forCommand name command args)
  | .fileType language =>
    match t.session.catalog.forLanguage language with
    | some config => .ok config
    | none => .error (.noServerForLanguage language)

/-- Forgets everything about a server but its log; views no longer show its diagnostics. -/
def teardown (t : Turn) (identity : String) : Turn :=
  match t.connection identity with
  | none => t
  | some c =>
    let (paths, diagnostics) := t.session.diagnostics.removeConnection identity
    let t := { t with session := { t.session with
      connections := t.session.connections.erase identity
      capabilities := t.session.capabilities.erase identity
      diagnostics := diagnostics } }
    let t := t.emit (.retire c.id)
    let views := paths.flatMap t.session.views.viewsOf
    views.foldl (fun t view => t.tell (.setDiagnostics view identity [])) t

/-- Enters a launched server and sends it the handshake. -/
def enter (t : Turn) (c : Connection) : Except Failure Turn :=
  let log := ServerLog.new c.id t.session.settings.logLimit
  let t := { t with session := { t.session with
    logs := t.session.logs.set c.identity log } }
  match Registry.insert t.session.connections c with
  | .error e => .error e
  | .ok connections =>
    .ok { t with session := { t.session with connections := connections } }

/-- Starts a server. A refused start leaves everything as it is, apart from the next launch
number; one whose handshake cannot be written leaves no server behind. -/
def start (t : Turn) (launch : Launcher) (target : StartTarget) : Turn :=
  match t.configFor target with
  | .error e => t.report e
  | .ok config =>
    match Registry.ensureAvailable t.session.connections config.identity with
    | .error e => t.report e
    | .ok () =>
      let id := t.session.nextConnection
      let t := { t with session := { t.session with nextConnection := id + 1 } }
      let t := t.emit (.launch id config)
      match launch config with
      | .refused reason => t.report (.serverStart reason)
      | .running wireOpen =>
        match t.enter (.new id config wireOpen) with
        | .error e => t.report e
        | .ok t =>
          match (Connection.new id config wireOpen).handshake t.session.root
              t.session.processId with
          | (.ok (_, message), c) => (t.keep config.identity c).write id [message]
          | (.error e, c) => ((t.keep config.identity c).teardown config.identity).report e

/-- Takes leave of a server and forgets it. -/
def stop (t : Turn) (identity : String) : Except Failure Turn :=
  match t.connection identity with
  | none => .error (.unknownServer identity)
  | some c =>
    let (messages, c) := c.shutdown
    .ok (((t.keep identity c).write c.id messages).teardown identity)

/-- Takes leave of every server, in order. -/
def stopAll (t : Turn) : Turn :=
  t.identities.foldl
    (fun t identity => match t.stop identity with
      | .ok t => t
      | .error _ => t) t

/-- A server has ended by itself. -/
def exited (t : Turn) (id : ConnectionId) (code : Option Int) : Turn :=
  match Registry.findById t.session.connections id with
  | none => t
  | some c => (t.report (.serverTerminated c.identity code)).teardown c.identity

/-- Adds error output to the log of the launch it came from. -/
def stderr (t : Turn) (id : ConnectionId) (bytes : Bytes) : Turn :=
  match t.session.logs.entries.find? fun e => e.2.connection = id with
  | none => t
  | some (identity, log) =>
    { t with session := { t.session with logs := t.session.logs.set identity (log.append bytes) } }

/-- Shows the user the log of a server. -/
def showLog (t : Turn) (identity : String) : Except Failure Turn :=
  match t.session.serverLog identity with
  | some text => .ok (t.tell (.showText s!"{identity} log" text))
  | none => .error (.unknownServer identity)

end LanguageClient.Turn
