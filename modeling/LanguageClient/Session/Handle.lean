import LanguageClient.Session.Requests
import LanguageClient.Session.Results

/-!
# Handling events

The one entry to a session: an event in, the session and the host's buffers after it and the effects
out. Events can also wait in an inbox and be handled in the order they came.
-/

namespace LanguageClient

namespace Turn

/-- Goes on with the turn of a success and reports a failure. -/
def orReport (t : Turn) : Except Failure Turn → Turn
  | .ok t' => t'
  | .error e => t.report e

/-- Does what the host wants. -/
def act (t : Turn) (launch : Launcher) : Action → Turn
  | .start target => t.start launch target
  | .stop identity => t.orReport (t.stop identity)
  | .stopAll => t.stopAll
  | .showLog identity => t.orReport (t.showLog identity)
  | .viewOpened view path => t.viewOpened view path
  | .viewFocused view => t.viewFocused view
  | .viewClosed view => t.viewClosed view
  | .edited path changes => t.syncChanges path changes
  | .saved path => t.saved path
  | .resync path => t.orReport (t.resync path)
  | .request kind path => t.request kind path
  | .lineDiagnostics path line => t.lineDiagnostics path line

/-- Reacts to an event. -/
def react (t : Turn) (launch : Launcher) : Event → Turn
  | .stdout id bytes => t.stdout id bytes
  | .stderr id bytes => t.stderr id bytes
  | .exited id code => t.exited id code
  | .action a => t.act launch a

end Turn

namespace Session

/-- Handles an event. -/
def handle (s : Session) (buffers : Buffers) (launch : Launcher) (e : Event) : Turn :=
  Turn.react ⟨s, buffers, []⟩ launch e

/-- Handles events one after another, also behind one that halts the session (`Turn.halted`). -/
def handleAll (s : Session) (buffers : Buffers) (launch : Launcher) (events : List Event) : Turn :=
  events.foldl (Turn.react · launch) ⟨s, buffers, []⟩

/-- Handles waiting events until `done` holds: whether it came to hold, the turn, and the events
that still wait. -/
def handleUntil (done : Turn → Bool) (launch : Launcher) :
    Turn → List Event → Bool × Turn × List Event
  | t, [] => (done t, t, [])
  | t, e :: rest =>
    if done t then (true, t, e :: rest) else handleUntil done launch (t.react launch e) rest

end Session

end LanguageClient
