import LanguageClient.Proofs.Table
import LanguageClient.Session.Handle
import Mathlib.Logic.Relation

/-!
# What a session can do

`Turn.Step` says once what can become of a turn while an event is handled: a connection of the
registry acts (`Connection.Acts`), is heard, activated, entered or ended, the host is told
something, the session keeps something in mind, or a document is given anew to all servers that have
it open. The operations of a session are chains of such steps, so that what every step preserves
holds after every event, and no later proof opens an operation to find out what it may change.

A step names documents by paths of a class `named`, which stands for the paths that the host uses.
-/

namespace LanguageClient

theorem RequestKind.method_ne_handshake (kind : RequestKind) :
    kind.capability.method ≠ .handshake := by
  cases kind <;> decide

namespace Connection

/-- The message of a notification, if the wire takes it. -/
def sent (c : Connection) (n : Notification) : List Json := (c.notify n).toOption.toList

/-- The message of a request, if the wire takes it. -/
def asked (c : Connection) (method : Method) (params : Json) (document : Option Path) : List Json :=
  ((c.sendRequest method params document).1.toOption.map (·.2)).toList

/-- What a connection does by itself: the messages that it writes and the connection after it. A
document is only closed when it is `quiet`, which is that no diagnostics are kept of it. -/
inductive Acts (named : Path → Prop) (text : Path → Option String) (quiet : Place → Prop) :
    Connection → List Json → Connection → Prop where
  | opens {c : Connection} {path : Path} {s language : String} {n : Notification}
      {documents : DocumentTable} (active : c.isActive = true)
      (serves : c.config.serves path = true) (name : named path) (htext : text path = some s)
      (h : c.documents.openDocument path s language = some (n, documents)) :
      Acts named text quiet c (c.sent n) { c with documents := documents }
  | closes {c : Connection} {path : Path} {n : Notification} {documents : DocumentTable}
      (name : named path) (cleared : quiet path.place)
      (h : c.documents.close path = some (n, documents)) :
      Acts named text quiet c (c.sent n) { c with documents := documents }
  | asks {c : Connection} {path : Path} (kind : RequestKind) (settings : Settings) (b : Buffer)
      (name : named path) (known : c.documents.isOpen path = true) :
      Acts named text quiet c
        (c.asked kind.capability.method (Turn.requestParams settings kind path b) (some path))
        (c.sendRequest kind.capability.method (Turn.requestParams settings kind path b)
          (some path)).2
  | parts {c : Connection} : Acts named text quiet c c.shutdown.1 c.shutdown.2

end Connection

namespace Turn

/-- A turn in which a connection has come to stand as given and some messages were written to it. -/
def advance (t : Turn) (identity : String) (c : Connection) (messages : List Json) : Turn :=
  (t.keep identity c).write c.id messages

/-- A turn in which a connection has ended. -/
def ended (t : Turn) (identity : String) (c : Connection) : Turn :=
  { t with session := { t.session with
      connections := t.session.connections.erase identity
      capabilities := t.session.capabilities.erase identity
      diagnostics := (t.session.diagnostics.removeConnection identity).2 } }.emit (.retire c.id)

/-- A turn in which a connection has become active. -/
def activated (t : Turn) (identity : String) (c : Connection) (capabilities : ServerCapabilities) :
    Turn :=
  let t := t.advance identity { c with state := .active } c.greetings
  { t with session := { t.session with
      capabilities := t.session.capabilities.set identity capabilities } }

/-- A turn in which a launch was tried. -/
def launching (t : Turn) (config : ServerConfig) : Turn :=
  { t with session := { t.session with nextConnection := t.session.nextConnection + 1 } }.emit
    (.launch t.session.nextConnection config)

/-- The connection of a server that is entered, with its handshake sent. -/
def newcomer (t : Turn) (config : ServerConfig) (wireOpen : Bool) :
    Except Failure (Nat × Json) × Connection :=
  (Connection.new t.session.nextConnection config wireOpen).handshake t.session.root
    t.session.processId

/-- A turn in which a server was launched and its connection entered. -/
def entered (t : Turn) (config : ServerConfig) (wireOpen : Bool) : Turn :=
  (t.launching config).advance config.identity (t.newcomer config wireOpen).2
    ((t.newcomer config wireOpen).1.toOption.map (·.2)).toList

/-- The log of a launch. -/
def withLog (t : Turn) (config : ServerConfig) (id : ConnectionId) : Turn :=
  { t with session := { t.session with
      logs := t.session.logs.set config.identity (ServerLog.new id t.session.settings.logLimit) } }

/-- A turn with another focus. -/
def withFocus (t : Turn) (focused : Option ViewId) : Turn :=
  { t with session := { t.session with focused := focused } }

/-- A turn with other diagnostics. -/
def withDiagnostics (t : Turn) (diagnostics : DiagnosticStore) : Turn :=
  { t with session := { t.session with diagnostics := diagnostics } }

/-- A turn with other views. -/
def withViews (t : Turn) (views : ViewTable) : Turn :=
  { t with session := { t.session with views := views } }

/-- Whether no diagnostics are kept of a document. -/
def Quiet (t : Turn) (place : Place) : Prop :=
  ∀ identity, t.session.diagnostics.entries.get? (identity, place) = none

/-! ## What these turns hold -/

section

variable (t : Turn) (identity : String) (c : Connection) (messages : List Json)

theorem connection_keep (other : String) :
    (t.keep identity c).connection other =
      if identity = other then some c else t.connection other :=
  Table.get?_set t.session.connections identity other c

theorem connection_advance (other : String) :
    (t.advance identity c messages).connection other =
      if identity = other then some c else t.connection other :=
  Table.get?_set t.session.connections identity other c

variable {t identity c messages} in
/-- Where a connection goes on, one that stands is this one or stood before. -/
theorem connection_advance_cases {other : String} {d : Connection}
    (hd : (t.advance identity c messages).connection other = some d) :
    (other = identity ∧ d = c) ∨ (other ≠ identity ∧ t.connection other = some d) := by
  rw [connection_advance] at hd
  split at hd
  · next heq => exact .inl ⟨heq.symm, (Option.some.inj hd).symm⟩
  · next hne => exact .inr ⟨Ne.symm hne, hd⟩

variable {t identity c messages} in
/-- Where a connection goes on as another that it is related to, all are related to what they were. -/
theorem exists_of_connection_advance {R : Connection → Connection → Prop} {c' : Connection}
    (hrefl : ∀ d, R d d) (hc : t.connection identity = some c) (h : R c c') {other : String}
    {d' : Connection} (hd' : (t.advance identity c' messages).connection other = some d') :
    ∃ d, t.connection other = some d ∧ R d d' := by
  rcases connection_advance_cases hd' with ⟨rfl, rfl⟩ | ⟨-, hd⟩
  · exact ⟨c, hc, h⟩
  · exact ⟨d', hd, hrefl d'⟩

theorem connection_ended (other : String) :
    (t.ended identity c).connection other = if identity = other then none else t.connection other :=
  Table.get?_erase t.session.connections identity other

theorem connection_activated (capabilities : ServerCapabilities) (other : String) :
    (t.activated identity c capabilities).connection other =
      if identity = other then some { c with state := .active } else t.connection other :=
  Table.get?_set t.session.connections identity other _

theorem connection_entered (config : ServerConfig) (wireOpen : Bool) (other : String) :
    (t.entered config wireOpen).connection other =
      if config.identity = other then some (t.newcomer config wireOpen).2
      else t.connection other :=
  Table.get?_set t.session.connections config.identity other _

theorem written_write (id : ConnectionId) :
    (t.write id messages).written = t.written ++ messages.map (id, ·) := by
  simp [written, write, List.filterMap_map]

@[simp] theorem written_tell (cb : Callback) : (t.tell cb).written = t.written := by
  simp [written, tell, emit]

theorem written_advance :
    (t.advance identity c messages).written = t.written ++ messages.map (c.id, ·) :=
  written_write (t.keep identity c) messages c.id

@[simp] theorem written_ended : (t.ended identity c).written = t.written := by
  simp [written, ended, emit]

@[simp] theorem written_launching (config : ServerConfig) :
    (t.launching config).written = t.written := by
  simp [written, launching, emit]

theorem written_entered (config : ServerConfig) (wireOpen : Bool) :
    (t.entered config wireOpen).written = t.written ++
      (((t.newcomer config wireOpen).1.toOption.map (·.2)).toList.map
        ((t.newcomer config wireOpen).2.id, ·)) := by
  rw [entered, written_advance, written_launching]

/-- Telling a connection of a change is an advance of it. -/
theorem notify_keep (n : Notification) :
    (t.keep identity c).notify c n = t.advance identity c (c.sent n) := by
  unfold notify advance Connection.sent
  cases c.notify n with
  | ok message => rfl
  | error e => simp [Except.toOption, write]

theorem notify_eq (n : Notification) : t.notify c n = t.write c.id (c.sent n) := by
  unfold notify Connection.sent
  cases c.notify n with
  | ok message => rfl
  | error e => simp [Except.toOption, write]

end

/-! ## Steps -/

/-- What becomes of a turn while the same servers run on, or some of them end. -/
inductive Work (named : Path → Prop) : Turn → Turn → Prop where
  | tells {t : Turn} {cb : Callback}
      (h : ∀ path text cursor, cb ≠ .replaceDocument path text cursor) :
      Work named t (t.tell cb)
  | halts {t : Turn} : Work named t (t.emit .halt)
  | focuses {t : Turn} (focused : Option ViewId) : Work named t (t.withFocus focused)
  | binds {t : Turn} {view : ViewId} {path : Path} (name : named path)
      (free : ∀ bound, t.session.views.pathOf view = some bound → bound.place = path.place) :
      Work named t (t.withViews (t.session.views.bind view path).2)
  | unbinds {t : Turn} {view : ViewId} {path : Path} {last : Bool} {views : ViewTable}
      (h : t.session.views.unbind view = some ((path, last), views)) :
      Work named t (t.withViews views)
  | publishes {t : Turn} {identity : String} {c : Connection} {path : Path}
      {diagnostics : List Diagnostic} (hc : t.connection identity = some c)
      (known : c.documents.isOpen path = true) :
      Work named t (t.withDiagnostics (t.session.diagnostics.replace identity path diagnostics))
  | forgets {t : Turn} {path : Path} :
      Work named t (t.withDiagnostics (t.session.diagnostics.removePath path))
  | logs {t : Turn} {identity : String} {log : ServerLog} {bytes : Bytes}
      (h : t.session.logs.get? identity = some log) :
      Work named t { t with session := { t.session with
        logs := t.session.logs.set identity (log.append bytes) } }
  | acts {t : Turn} {identity : String} {c c' : Connection} {messages : List Json}
      (hc : t.connection identity = some c)
      (h : c.Acts named t.bufferText t.Quiet messages c') :
      Work named t (t.advance identity c' messages)
  | saves {t : Turn} {identity : String} {c : Connection} {path : Path} {text : Option String}
      (hc : t.connection identity = some c) :
      Work named t (t.write c.id (c.sent (DocumentTable.save path text)))
  | ends {t : Turn} {identity : String} {c : Connection} (hc : t.connection identity = some c) :
      Work named t (t.ended identity c)
  | resyncs {t : Turn} {path : Path} {text : String} (name : named path)
      (h : t.bufferText path = some text) : Work named t (t.syncChanges path [.full text])
  | rewrites {t : Turn} {path : Path} {b : Buffer} {text : String} {cursor : Nat}
      (name : named path) (h : t.buffer path = some b) :
      Work named t ((t.replaceDocument path text cursor).syncChanges path [.full text])

/-- What becomes of a turn. -/
inductive Step (named : Path → Prop) : Turn → Turn → Prop where
  | works {t t' : Turn} (h : Work named t t') : Step named t t'
  | hears {t : Turn} {identity : String} {c : Connection} {bytes : Bytes}
      (hc : t.connection identity = some c) :
      Step named t (t.advance identity (c.receive bytes).2 (c.receive bytes).1.replies)
  | activates {t : Turn} {identity : String} {c : Connection} {capabilities : ServerCapabilities}
      (hc : t.connection identity = some c) (pending : c.state = .pending)
      (answered : ∀ n request, c.requests.requests.get? n = some request →
        request.method ≠ .handshake)
      (wire : c.wireOpen = true) : Step named t (t.activated identity c capabilities)
  | launches {t : Turn} {config : ServerConfig} : Step named t (t.launching config)
  | enters {t : Turn} {config : ServerConfig} {wireOpen : Bool}
      (free : Registry.ensureAvailable t.session.connections config.identity = .ok ()) :
      Step named t ((t.entered config wireOpen).withLog config t.session.nextConnection)

/-- Any number of steps between servers that run on or end. -/
abbrev Works (named : Path → Prop) : Turn → Turn → Prop := Relation.ReflTransGen (Work named)

/-- Any number of steps. -/
abbrev Steps (named : Path → Prop) : Turn → Turn → Prop := Relation.ReflTransGen (Step named)

end Turn
end LanguageClient
