import LanguageClient.Session.Documents

/-!
# Requests of a session

Which servers are asked what the host wants to know, and with which parameters. A request whose
answer edits the document goes to one server only, since edits fit no other text than the one
they were made for.
-/

namespace LanguageClient.Turn

/-- The servers to ask, in order of identity. -/
def targets (t : Turn) (kind : RequestKind) (path : Path) : Except Failure (List String) :=
  let serving := (Registry.active t.session.connections).filter (·.config.serves path)
  let able := (serving.map (·.identity)).filter fun identity =>
    CapabilityTable.supports t.session.capabilities identity kind.capability
  if serving.isEmpty then .error (.noActiveServer path.text)
  else if able.isEmpty then .error (.featureNotSupported kind.capability.displayName)
  else .ok (if kind.editsDocument then able.take 1 else able)

/-- The lines or the selection that range formatting asks for. -/
def formattingRange (b : Buffer) : Range :=
  let text := b.text.toList
  match b.selection with
  | some (start, stop) =>
    ⟨Position.ofOffset text (min start stop), Position.ofOffset text (max start stop)⟩
  | none =>
    let line := (Position.ofOffset text b.cursor).line
    ⟨⟨line, 0⟩, ⟨line + 1, 0⟩⟩

/-- The parameters of a request about a document. -/
def requestParams (settings : Settings) (kind : RequestKind) (path : Path) (b : Buffer) : Json :=
  let document := ("textDocument", Json.object (DocumentTable.identifier path))
  let position := ("position", (Position.ofOffset b.text.toList b.cursor).toJson)
  let options := ("options", Json.object
    [("tabSize", .int settings.tabSize), ("insertSpaces", .bool settings.insertSpaces)])
  match kind with
  | .format => Json.object [document, options]
  | .rangeFormat => Json.object [document, ("range", (formattingRange b).toJson), options]
  | .documentSymbols => Json.object [document]
  | .references =>
    Json.object [document, position,
      ("context", Json.object [("includeDeclaration", .bool true)])]
  | _ => Json.object [document, position]

/-- Asks one server, which first gets to know the document. -/
def ask (t : Turn) (kind : RequestKind) (path : Path) (params : Json) (identity : String) :
    Option Failure × Turn :=
  let t := t.openDocument identity path
  match t.connection identity with
  | none => (none, t)
  | some c =>
    match c.sendRequest kind.capability.method params (some path) with
    | (.ok (_, message), c) => (none, (t.keep identity c).write c.id [message])
    | (.error e, c) => (some e, t.keep identity c)

/-- Asks servers in turn, up to the first that cannot be reached. -/
def askAll (t : Turn) (kind : RequestKind) (path : Path) (params : Json) : List String → Turn
  | [] => t
  | identity :: rest =>
    match t.ask kind path params identity with
    | (none, t) => askAll t kind path params rest
    | (some e, t) => t.report e

/-- Asks the servers that can answer about a document. -/
def request (t : Turn) (kind : RequestKind) (path : Path) : Turn :=
  match t.targets kind path with
  | .error e => t.report e
  | .ok identities =>
    match t.buffer path with
    | none => t.report (.missingBuffer path.text)
    | some b =>
      t.askAll kind path (requestParams t.session.settings kind path b) identities

end LanguageClient.Turn
