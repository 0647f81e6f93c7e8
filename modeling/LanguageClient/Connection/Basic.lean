import LanguageClient.Document.Tracked
import LanguageClient.Error
import LanguageClient.Log
import LanguageClient.Server.Config
import LanguageClient.Wire.Frame
import LanguageClient.Wire.Inbound

/-!
# Connections

The client's side of one running server: its decoder, the requests it owes answers to, the
documents it has open, and whether its wire still takes messages. Operations give the messages to
write beside the connection after them; what cannot be written is not written, and says so.
-/

namespace LanguageClient

/-- How far a connection has come. -/
inductive ConnectionState where
  /-- Launched, the handshake not yet answered. -/
  | pending
  | active
  | stopped
  deriving DecidableEq, Repr, Inhabited

/-- The client's side of one running server. -/
structure Connection where
  id : ConnectionId
  config : ServerConfig
  state : ConnectionState
  framer : Framer
  requests : PendingTable
  documents : DocumentTable
  /-- Whether the wire to the server takes messages. -/
  wireOpen : Bool
  deriving Inhabited

/-- The name and version by which the client introduces itself. -/
def clientInfo : Json := Json.object [("name", .str "lspc"), ("version", .str "0.1.0")]

/-- What the client can do with, kept to the requests that it sends. -/
def clientCapabilities : Json :=
  let noLinks := Json.object [("linkSupport", .bool false)]
  Json.object
    [("general", Json.object [("positionEncodings", Json.strings ["utf-16"])]),
      ("window", Json.object [("showMessage", Json.emptyObject)]),
      ("workspace", Json.object
        [("configuration", .bool true),
          ("didChangeConfiguration", Json.object [("dynamicRegistration", .bool false)])]),
      ("textDocument", Json.object
        [("synchronization", Json.object
            [("dynamicRegistration", .bool false), ("willSave", .bool false),
              ("willSaveWaitUntil", .bool false), ("didSave", .bool true)]),
          ("hover", Json.object [("contentFormat", Json.strings ["plaintext", "markdown"])]),
          ("completion", Json.object
            [("completionItem", Json.object [("snippetSupport", .bool false)])]),
          ("formatting", Json.emptyObject),
          ("rangeFormatting", Json.emptyObject),
          ("definition", noLinks),
          ("declaration", noLinks),
          ("typeDefinition", noLinks),
          ("implementation", noLinks),
          ("references", Json.emptyObject),
          ("documentSymbol", Json.object [("hierarchicalDocumentSymbolSupport", .bool true)]),
          ("publishDiagnostics", Json.object [("versionSupport", .bool true)])])]

namespace Connection

/-- The connection of a server that was just launched. -/
def new (id : ConnectionId) (config : ServerConfig) (wireOpen : Bool) : Connection :=
  ⟨id, config, .pending, .empty, .empty, .empty, wireOpen⟩

/-- What the connection is known by. -/
def identity (c : Connection) : String := c.config.identity

/-- Whether the handshake is done and the connection not ended. -/
def isActive (c : Connection) : Bool := c.state = .active

/-- Whether a message can be written. -/
def accepts (c : Connection) : Bool := c.state ≠ .stopped && c.wireOpen

/-- The message to write, if it can be. -/
def write (c : Connection) (message : Json) : Except Failure Json :=
  if c.accepts then .ok message else .error .notConnected

/-- The notification to write, if it can be. -/
def notify (c : Connection) (n : Notification) : Except Failure Json := c.write n.toJson

/-- Sends a request: its number and the message to write. A request that cannot be written is not
pending, but its number is used up. -/
def sendRequest (c : Connection) (method : Method) (params : Json) (document : Option Path) :
    Except Failure (Nat × Json) × Connection :=
  let (id, requests) := c.requests.register method document
  match c.write (Request.new id method.name (some params)).toJson with
  | .ok message => (.ok (id, message), { c with requests := requests })
  | .error e => (.error e, { c with requests := requests.discard id })

/-- The parameters of the handshake. -/
def handshakeParams (c : Connection) (root : Path) (processId : Nat) : Json :=
  Json.object ([("processId", .int processId), ("rootUri", .str (Uri.ofPath root)),
      ("capabilities", clientCapabilities), ("clientInfo", clientInfo)]
    ++ (c.config.initializationOptions.map fun v => ("initializationOptions", v)).toList)

/-- Sends the handshake; the connection stays pending until it is answered. -/
def handshake (c : Connection) (root : Path) (processId : Nat) :
    Except Failure (Nat × Json) × Connection :=
  c.sendRequest .handshake (c.handshakeParams root processId) none

/-- The notifications that follow the answer of the handshake: that it is done, and the configured
settings. -/
def greetings (c : Connection) : List Json :=
  (Notification.new Wire.initialized none).toJson ::
    (c.config.settings.map fun settings =>
      (Notification.new Wire.didChangeConfiguration
        (some (Json.object [("settings", settings)]))).toJson).toList

/-- Makes the connection active, also after its end; its greetings to write, if they can be. -/
def activate (c : Connection) : Except Failure (List Json) × Connection :=
  let c := { c with state := .active }
  (if c.accepts then .ok c.greetings else .error .notConnected, c)

/-! ## Requests of the server -/

/-- The value that a dotted section names in settings. -/
def settingAt (settings : Json) (sectionName : String) : Option Json :=
  (sectionName.toList.splitOn '.').foldlM (fun v key => v.get? (String.ofList key)) settings

/-- The answer to one item of a configuration request. -/
def configurationItem (settings : Option Json) (item : Json) : Json :=
  match settings, (item.get? "section").bind Json.str? with
  | some settings, some name => (settingAt settings name).getD .null
  | some settings, none => settings
  | none, _ => .null

/-- The answer to a configuration request, item by item. -/
def configurationItems (settings : Option Json) (params : Json) : Json :=
  .arr ((((params.get? "items").bind Json.items?).getD []).map (configurationItem settings))

/-- The methods that are answered with `null` and nothing else. -/
def acknowledged : List String :=
  [Wire.registerCapability, Wire.unregisterCapability, Wire.workDoneProgressCreate,
    Wire.showMessageRequest]

/-- The answer to a request of the server. -/
def reply (c : Connection) (r : Request) : Response :=
  if r.method = Wire.configuration then
    .success r.id (configurationItems c.config.settings r.params)
  else if r.method ∈ acknowledged then .success r.id .null
  else if r.method = Wire.applyEdit then
    .success r.id (Json.object [("applied", .bool false)])
  else
    .failure r.id
      ⟨ResponseError.methodNotFound, s!"Method not found: {r.method}", none⟩

/-- What of a request of the server goes on to the session. -/
def surfaced (r : Request) : Option Inbound :=
  if r.method = Wire.showMessageRequest then
    (MessageParams.decoder r.params).toOption.map .messageRequest
  else none

/-! ## Receiving -/

/-- What receiving gives: messages for the session and messages to write. -/
structure Received where
  inbound : List Inbound
  replies : List Json
  deriving Inhabited

/-- Receives one value. -/
def receiveValue (c : Connection) (v : Json) : Received × Connection :=
  match Message.decoder v with
  | .error _ => (⟨[], []⟩, c)
  | .ok (.response r) =>
    match r.id.bind c.requests.resolve with
    | none => (⟨[], []⟩, c)
    | some (request, requests) =>
      (⟨[.response request r.outcome], []⟩, { c with requests := requests })
  | .ok (.notification n) =>
    match ServerNotification.ofNotification n with
    | .error _ => (⟨[], []⟩, c)
    | .ok (.unknown _) => (⟨[], []⟩, c)
    | .ok n => (⟨[.notification n], []⟩, c)
  | .ok (.request r) =>
    (⟨(surfaced r).toList, (c.write (c.reply r).toJson).toOption.toList⟩, c)

/-- Receives what the decoder made of some output; bad frames are passed over. -/
def receiveResults (c : Connection) : List Framer.Result → Received × Connection
  | [] => (⟨[], []⟩, c)
  | .error _ :: rest => receiveResults c rest
  | .ok v :: rest =>
    let (first, c) := c.receiveValue v
    let (others, c) := receiveResults c rest
    (⟨first.inbound ++ others.inbound, first.replies ++ others.replies⟩, c)

/-- Receives output of the server. -/
def receive (c : Connection) (bytes : Bytes) : Received × Connection :=
  let (results, framer) := c.framer.feed bytes
  { c with framer := framer }.receiveResults results

/-! ## Ending -/

/-- Takes leave of an active server: the messages to write, if they can be. -/
def shutdown (c : Connection) : List Json × Connection :=
  if c.isActive then
    match c.sendRequest .shutdown .null none with
    | (.ok (_, message), c) =>
      (message :: (c.notify (Notification.new Wire.exit none)).toOption.toList, c)
    | (.error _, c) => ([], c)
  else ([], c)

/-- Ends the connection and forgets its requests and documents. -/
def terminate (c : Connection) : Connection :=
  { c with state := .stopped, requests := c.requests.clear, documents := .empty }

end Connection

end LanguageClient
