import LanguageClient.Bounds
import LanguageClient.Json.Decode
import LanguageClient.Text.Numeral

/-!
# Messages

The three kinds of JSON-RPC message: requests, which carry an identifier and a method; responses,
which carry an identifier only; notifications, which carry a method only.
-/

namespace LanguageClient

/-- What a request and its response share. -/
inductive RequestId where
  | number (n : Nat)
  | text (s : String)
  deriving DecidableEq, Repr, Inhabited

namespace RequestId

/-- The identifier as a number of 64 bits; some servers give numbers back as text. -/
def number? : RequestId → Option Nat
  | number n => some n
  | text s => readNatural bound64 s.toList

def toJson : RequestId → Json
  | number n => .int n
  | text s => .str s

/-- Reads an identifier. -/
def decoder : Decoder RequestId
  | .int n => if 0 ≤ n then .ok (number n.toNat) else .error (.noVariant "RequestId")
  | .str s => .ok (text s)
  | _ => .error (.noVariant "RequestId")

end RequestId

/-- Why a request failed. -/
structure ResponseError where
  code : Int
  message : String
  data : Option Json
  deriving Repr, Inhabited

namespace ResponseError

/-- The code of a method that is not implemented. -/
def methodNotFound : Int := -32601

/-- The code of a server that is not ready. -/
def serverNotInitialized : Int := -32002

/-- The code of a request that was called off. -/
def requestCancelled : Int := -32800

/-- The code of a request that the document outran. -/
def contentModified : Int := -32801

/-- The error as one line. -/
def display (e : ResponseError) : String := s!"[{e.code}] {e.message}"

def toJson (e : ResponseError) : Json :=
  .obj ([("code", .int e.code), ("message", .str e.message)] ++
    (e.data.map fun d => ("data", d)).toList)

/-- Reads an error. -/
def decoder : Decoder ResponseError :=
  (Layout.start ResponseError.mk
    |>.also (.required "code" Decoder.i32)
    |>.also (.defaulted "message" Decoder.string "")
    |>.also (.nullable "data" Decoder.any)).decoder "ResponseError"

end ResponseError

/-- The version of the protocol that every message of the client carries. -/
def protocolVersion : String := "2.0"

/-- Parameters as they are sent: an empty object stands for absent ones and for `null`. -/
def paramsOrEmpty : Option Json → Json
  | none => Json.emptyObject
  | some .null => Json.emptyObject
  | some v => v

/-- A message that asks for a response. -/
structure Request where
  version : String
  id : RequestId
  method : String
  params : Json
  deriving Repr, Inhabited

namespace Request

/-- A request of the client. -/
def new (id : Nat) (method : String) (params : Option Json) : Request :=
  ⟨protocolVersion, .number id, method, paramsOrEmpty params⟩

def toJson (r : Request) : Json :=
  .obj [("jsonrpc", .str r.version), ("id", r.id.toJson), ("method", .str r.method),
    ("params", r.params)]

/-- Reads a request. -/
def decoder : Decoder Request :=
  (Layout.start Request.mk
    |>.also (.required "jsonrpc" Decoder.string)
    |>.also (.required "id" RequestId.decoder)
    |>.also (.required "method" Decoder.string)
    |>.also (.defaulted "params" Decoder.any .null)).decoder "Request"

end Request

/-- The answer to a request. -/
structure Response where
  version : String
  id : Option RequestId
  result : Option Json
  error : Option ResponseError
  deriving Repr, Inhabited

namespace Response

/-- The answer that gives a result. -/
def success (id : RequestId) (result : Json) : Response :=
  ⟨protocolVersion, some id, some result, none⟩

/-- The answer that gives an error. -/
def failure (id : RequestId) (error : ResponseError) : Response :=
  ⟨protocolVersion, some id, none, some error⟩

/-- What the answer says: its error if it has one, else its result, `null` if that is absent. -/
def outcome (r : Response) : Except ResponseError Json :=
  match r.error with
  | some e => .error e
  | none => .ok (r.result.getD .null)

def toJson (r : Response) : Json :=
  .obj ([("jsonrpc", .str r.version), ("id", Json.ofOption RequestId.toJson r.id)] ++
    (r.result.map fun v => ("result", v)).toList ++
    (r.error.map fun e => ("error", e.toJson)).toList)

/-- Reads an answer. -/
def decoder : Decoder Response :=
  (Layout.start Response.mk
    |>.also (.required "jsonrpc" Decoder.string)
    |>.also (.nullable "id" RequestId.decoder)
    |>.also (.nullable "result" Decoder.any)
    |>.also (.nullable "error" ResponseError.decoder)).decoder "Response"

end Response

/-- A message that expects no answer. -/
structure Notification where
  version : String
  method : String
  params : Json
  deriving Repr, Inhabited

namespace Notification

/-- A notification of the client. -/
def new (method : String) (params : Option Json) : Notification :=
  ⟨protocolVersion, method, paramsOrEmpty params⟩

def toJson (n : Notification) : Json :=
  .obj [("jsonrpc", .str n.version), ("method", .str n.method), ("params", n.params)]

/-- Reads a notification. -/
def decoder : Decoder Notification :=
  (Layout.start Notification.mk
    |>.also (.required "jsonrpc" Decoder.string)
    |>.also (.required "method" Decoder.string)
    |>.also (.defaulted "params" Decoder.any .null)).decoder "Notification"

end Notification

/-- A message of a server. -/
inductive Message where
  | response (r : Response)
  | request (r : Request)
  | notification (n : Notification)
  deriving Repr, Inhabited

namespace Message

/-- Reads a message, whose kind hangs on which of `id` and `method` are there. -/
def decoder : Decoder Message := fun v =>
  match (v.get? "id").isSome, (v.get? "method").isSome with
  | true, true => request <$> Request.decoder v
  | true, false => response <$> Response.decoder v
  | false, true => notification <$> Notification.decoder v
  | false, false => .error (.malformed "Invalid LSP message")

def toJson : Message → Json
  | response r => r.toJson
  | request r => r.toJson
  | notification n => n.toJson

end Message

end LanguageClient
