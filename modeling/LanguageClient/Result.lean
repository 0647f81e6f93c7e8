import LanguageClient.Error
import LanguageClient.Server.Capability
import LanguageClient.Symbol
import LanguageClient.Text.Alphanumeric

/-!
# Results of requests

What the result of each request says, and when it cannot be used. Shapes that the protocol does not
promise are refused, apart from those that servers are known to send for "nothing".
-/

namespace LanguageClient

/-- What a result says, or why it cannot be used. -/
abbrev Interpreted (α : Type) := Except ResultError α

/-- Reads a part of a result. -/
def decodePart {α : Type} (d : Decoder α) (v : Json) : Interpreted α :=
  match d v with
  | .ok a => .ok a
  | .error e => .error (.undecodable e)

/-! ## The handshake -/

/-- What a server says of itself; a part that is not understood counts as absent. -/
def readHandshake (v : Json) : Interpreted (ServerCapabilities × Option ServerInfo) :=
  if v.isObject then
    let raw := ((v.get? "capabilities").filter Json.isObject).getD Json.emptyObject
    let info := (v.get? "serverInfo").bind fun i => (ServerInfo.decoder i).toOption
    .ok (⟨raw⟩, info)
  else .error (.wrongShape "initialize result object" v)

/-! ## Hover -/

/-- What a hover shows. -/
inductive Hover where
  | nothing
  | text (s : String)
  /-- A shape that the client does not show. -/
  | unrecognized
  deriving DecidableEq, Repr, Inhabited

/-- A hover of one text, which shows nothing when it is blank. -/
def Hover.ofText (s : String) : Hover := if trimmed s = "" then nothing else text s

/-- What the contents of a hover show. -/
def Hover.ofContents : Json → Hover
  | .null => nothing
  | .arr [] => nothing
  | .obj [] => nothing
  | .str s => ofText s
  | .obj fields =>
    match (Json.obj fields).get? "value" with
    | some (.str s) => ofText s
    | _ => unrecognized
  | _ => unrecognized

/-- What a hover result shows; its contents may also stand alone. -/
def readHover (v : Json) : Hover := Hover.ofContents ((v.get? "contents").getD v)

/-! ## Formatting -/

/-- The edits of a formatting result. -/
def readEdits : Json → Interpreted (List TextEdit)
  | .null => .ok []
  | .arr items => decodePart (Decoder.list TextEdit.decoder) (.arr items)
  | v => .error (.wrongShape "array of text edits" v)

/-! ## Completion -/

/-- The text that a completion item inserts. -/
def completionText (item : Json) : Option String :=
  match (item.get? "insertText").bind Json.str? with
  | some s => some s
  | none => (item.get? "label").bind Json.str?

/-- The candidates of a completion result in the order of the server. -/
def readCompletion (v : Json) : Interpreted (List String) :=
  match v with
  | .null => .ok []
  | .arr items => .ok (items.filterMap completionText)
  | .obj _ =>
    match v.get? "items" with
    | some (.arr items) => .ok (items.filterMap completionText)
    | some .null => .ok []
    | none => .ok []
    | some other => .error (.wrongShape "completion items array" other)
  | _ => .error (.wrongShape "completion list" v)

/-- The identifier that ends at an offset: the longest run of `isWord` characters before it. -/
def wordBefore (isWord : Char → Bool) (text : List Char) (cursor : Nat) : List Char :=
  ((Text.takeBytes cursor text).reverse.takeWhile isWord).reverse

/-- The characters of identifiers. -/
def isWordChar (c : Char) : Bool := isAlphanumeric c || c = '_'

/-- Whether a candidate is a plain identifier. -/
def isPlainWord (s : String) : Bool :=
  s ≠ "" && s.toList.all fun c => c.isAlphanum || c = '_'

/-- The plain candidates that go on from what is typed, each once. -/
def narrow (typed : List Char) (items : List String) : List String :=
  items.foldl
    (fun kept item =>
      if isPlainWord item && typed.isPrefixOf item.toList && !kept.contains item then
        kept ++ [item]
      else kept)
    []

/-! ## Places -/

/-- Reads one place; links are not supported. -/
def readPlace (v : Json) : Interpreted Location :=
  if (v.get? "targetUri").isSome then .error .unsupportedLink
  else decodePart Location.decoder v

/-- The place that a result leads to: of a list the first. -/
def readLocation (v : Json) : Interpreted (Option Location) :=
  match v with
  | .null => .ok none
  | .arr [] => .ok none
  | .arr (item :: _) => some <$> readPlace item
  | .obj _ => some <$> readPlace v
  | _ => .error (.wrongShape "location" v)

/-- The places of a result. -/
def readReferences : Json → Interpreted (List Location)
  | .null => .ok []
  | .arr items => items.mapM readPlace
  | v => .error (.wrongShape "array of locations" v)

/-! ## Symbols -/

/-- The entries of one symbol, flat or nested. -/
def readSymbol (document : Path) (item : Json) : Interpreted (List LocationEntry) :=
  if (item.get? "location").isSome then
    (fun s => [s.entry]) <$> decodePart FlatSymbol.decoder item
  else (·.entries document) <$> decodePart SymbolTree.decoder item

/-- The entries of all symbols in order. -/
def readSymbols (document : Path) : Json → Interpreted (List LocationEntry)
  | .null => .ok []
  | .arr items => List.flatten <$> items.mapM (readSymbol document)
  | v => .error (.wrongShape "array of symbols" v)

end LanguageClient
