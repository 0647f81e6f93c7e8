import LanguageClient.Result
import LanguageClient.Session.Diagnostics
import LanguageClient.Session.Documents
import LanguageClient.Session.Lifecycle

/-!
# Answers in a session

What the host is told when a request is answered, by the method that the request was for.
-/

namespace LanguageClient.Turn

/-- The handshake is answered: the server becomes active and gets to know the focused document. An
answer that cannot be used, or a server that cannot be greeted, ends the connection. -/
def onHandshake (t : Turn) (identity : String) (result : Json) : Turn :=
  match readHandshake result with
  | .error e =>
    (t.teardown identity).report (.protocol s!"{identity} initialize: {e.message}")
  | .ok (capabilities, info) =>
    match t.connection identity with
    | none => t
    | some c =>
      match c.activate with
      | (.error e, c) => ((t.keep identity c).teardown identity).report e
      | (.ok messages, c) =>
        let t := (t.keep identity c).write c.id messages
        let t := { t with session := { t.session with
          capabilities := t.session.capabilities.set identity capabilities } }
        let t := t.tell (.connected identity info)
        match t.session.focused.bind t.session.views.pathOf with
        | some path => t.openDocument identity path
        | none => t

/-- Shows a hover. -/
def onHover (t : Turn) (result : Json) : Turn :=
  match readHover result with
  | .text s => t.tell (.showText "Hover" s)
  | .nothing => t.notice .info "No hover information"
  | .unrecognized => t.notice .info "Unrecognized hover content"

/-- Puts an edited text in the place of the host's buffer and tells the servers; a text whose cursor
has no place ends the session. -/
def putEdited (t : Turn) (path : Path) : Option Edited → Turn
  | none => t.emit .halt
  | some edited =>
    let text := String.ofList edited.text
    (t.replaceDocument path text edited.cursor).syncChanges path [.full text]

/-- Applies the edits of a formatting to the buffer as it now is, and tells the servers. -/
def onFormatting (t : Turn) (document : Option Path) (result : Json) : Interpreted Turn := do
  let edits ← readEdits result
  match document with
  | none => return t
  | some path =>
    if edits.isEmpty then return t.notice .info "Already formatted"
    else
      match t.buffer path with
      | none => return t.report (.missingBuffer path.text)
      | some b => return t.putEdited path (applyEdits b.text.toList edits b.cursor)

/-- Shows candidates; those of a server whose candidates need filtering are narrowed to what goes on
from the word at the cursor. -/
def onCompletion (t : Turn) (identity : String) (document : Option Path) (result : Json) :
    Interpreted Turn := do
  let items ← readCompletion result
  let filters := ((t.connection identity).map (·.config.filtersCompletions)).getD false
  let items := match filters, document.bind t.buffer with
    | true, some b => narrow (wordBefore isWordChar b.text.toList b.cursor) items
    | _, _ => items
  if items.isEmpty then return (t.tell .dismissCompletion).notice .info "No completions"
  else return t.tell (.showCompletions items)

/-- Opens the place that a result leads to. -/
def onLocation (t : Turn) (result : Json) : Interpreted Turn := do
  match ← readLocation result with
  | some location => return t.tell (.openLocation location)
  | none => return t.notice .info "No location found"

/-- Shows references by their places. -/
def onReferences (t : Turn) (result : Json) : Interpreted Turn := do
  let locations ← readReferences result
  if locations.isEmpty then return t.notice .info "No references found"
  else
    let entries := locations.map fun location =>
      let (line, column) := location.range.start.oneBased
      ⟨location, s!"{location.path.text}:{line}:{column}"⟩
    return t.tell (.showLocations "References" entries)

/-- Shows the symbols of a document. -/
def onSymbols (t : Turn) (document : Option Path) (result : Json) : Interpreted Turn := do
  let entries ← readSymbols (document.getD ⟨""⟩) result
  return t.tell (.showLocations "Symbols" entries)

/-- A request is answered with a result. -/
def onResult (t : Turn) (identity : String) (request : PendingRequest) (result : Json) : Turn :=
  let outcome : Interpreted Turn := match request.method with
    | .handshake => .ok (t.onHandshake identity result)
    | .shutdown => .ok t
    | .hover => .ok (t.onHover result)
    | .formatting | .rangeFormatting => t.onFormatting request.document result
    | .completion => t.onCompletion identity request.document result
    | .definition | .declaration | .typeDefinition | .implementation => t.onLocation result
    | .references => t.onReferences result
    | .documentSymbol => t.onSymbols request.document result
  match outcome with
  | .ok t => t
  | .error e =>
    let t := if request.method = .completion then t.tell .dismissCompletion else t
    t.report (.protocol s!"{request.method.name} from {identity}: {e.message}")

/-- A request is answered with an error. -/
def onError (t : Turn) (identity : String) (request : PendingRequest) (e : ResponseError) : Turn :=
  let failure := Failure.ofResponse request.method e
  match request.method with
  | .shutdown => t
  | .handshake => (t.teardown identity).report failure
  | .completion => (t.tell .dismissCompletion).report failure
  | _ => t.report failure

/-- Acts on one message of a server. -/
def onInbound (t : Turn) (identity : String) : Inbound → Turn
  | .response request (.ok result) => t.onResult identity request result
  | .response request (.error e) => t.onError identity request e
  | .notification (.published p) => t.published identity p
  | .notification (.logged _) => t
  | .notification (.shown m) => t.tell (.serverMessage identity m.type m.message)
  | .notification (.unknown _) => t
  | .messageRequest m => t.tell (.serverMessage identity m.type m.message)

/-- Acts on messages of one launch of a server, as long as it is not torn down. -/
def onInbounds (t : Turn) (identity : String) (id : ConnectionId) : List Inbound → Turn
  | [] => t
  | item :: rest =>
    match t.connection identity with
    | none => t
    | some c =>
      if c.id = id then onInbounds (t.onInbound identity item) identity id rest else t

/-- Takes output of a server: its requests are answered, then its messages are acted on. -/
def stdout (t : Turn) (id : ConnectionId) (bytes : Bytes) : Turn :=
  match Registry.findById t.session.connections id with
  | none => t
  | some c =>
    let (received, c) := c.receive bytes
    let t := (t.keep c.identity c).write id received.replies
    t.onInbounds c.identity id received.inbound

end LanguageClient.Turn
