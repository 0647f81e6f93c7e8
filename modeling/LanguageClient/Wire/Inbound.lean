import LanguageClient.Diagnostic.Basic
import LanguageClient.Wire.Message
import LanguageClient.Wire.Pending

/-!
# What servers send

The notifications the client understands and the messages that a connection hands on after it has
dealt with framing, correlation and the requests of the server.
-/

namespace LanguageClient

/-- How a server grades a message for the user. -/
inductive MessageType where
  | error
  | warning
  | info
  | log
  deriving DecidableEq, Repr, Inhabited

namespace MessageType

/-- The grade of a number; an unknown or absent one is the lowest. -/
def ofCode : Option Nat → MessageType
  | some 1 => error
  | some 2 => warning
  | some 3 => info
  | _ => log

/-- The name of a grade. -/
def name : MessageType → String
  | error => "error"
  | warning => "warning"
  | info => "info"
  | log => "log"

end MessageType

/-- A message for the user or for the log. -/
structure MessageParams where
  kind : Option Nat
  message : String
  deriving DecidableEq, Repr, Inhabited

namespace MessageParams

/-- The grade of a message. -/
def type (p : MessageParams) : MessageType := MessageType.ofCode p.kind

/-- Reads a message. -/
def decoder : Decoder MessageParams :=
  (Layout.start MessageParams.mk
    |>.also (.defaulted "type" (Decoder.optional Decoder.u64) none)
    |>.also (.defaulted "message" Decoder.string "")).decoder "MessageParams"

/-- The message as a record, with the number its type was given by. -/
def toJson (m : MessageParams) : Json :=
  Json.object [("kind", Json.ofOption Json.nat m.kind), ("type", .str m.type.name),
    ("message", .str m.message)]

end MessageParams

/-- The diagnostics of one document. -/
structure Publication where
  uri : String
  version : Option Int
  diagnostics : List PublishedDiagnostic
  deriving Repr, Inhabited

namespace Publication

/-- Reads the diagnostics of a document. -/
def decoder : Decoder Publication :=
  (Layout.start Publication.mk
    |>.also (.required "uri" Decoder.string)
    |>.also (.defaulted "version" (Decoder.optional Decoder.i32) none)
    |>.also (.defaulted "diagnostics" (Decoder.list PublishedDiagnostic.decoder) [])).decoder
      "PublishDiagnosticsParams"

/-- The diagnostics as the wire can give them. -/
def toJson (p : Publication) : Json :=
  Json.object [("uri", .str p.uri), ("version", Json.ofOption .int p.version),
    ("diagnostics", .arr (p.diagnostics.map PublishedDiagnostic.toJson))]

end Publication

/-- A notification by its meaning. -/
inductive ServerNotification where
  | published (p : Publication)
  | logged (m : MessageParams)
  | shown (m : MessageParams)
  | unknown (method : String)
  deriving Repr, Inhabited

namespace ServerNotification

/-- Reads the meaning of a notification. -/
def ofNotification (n : Notification) : Except DecodeError ServerNotification :=
  if n.method = Wire.publishDiagnostics then published <$> Publication.decoder n.params
  else if n.method = Wire.logMessage then logged <$> MessageParams.decoder n.params
  else if n.method = Wire.showMessage then shown <$> MessageParams.decoder n.params
  else .ok (unknown n.method)

end ServerNotification

/-- A message that the session has to act on. -/
inductive Inbound where
  | response (request : PendingRequest) (outcome : Except ResponseError Json)
  | notification (n : ServerNotification)
  /-- A request to show a message, which is already answered. -/
  | messageRequest (m : MessageParams)
  deriving Inhabited

end LanguageClient
