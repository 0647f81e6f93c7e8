import LanguageClient.Json.Decode
import LanguageClient.Table
import LanguageClient.Wire.Method

/-!
# Capabilities

What a server said it can do when it was initialized: which features it provides and how it wants
changes of documents delivered.
-/

namespace LanguageClient

/-- A feature that an action of the user can need. -/
inductive Capability where
  | hover
  | formatting
  | rangeFormatting
  | completion
  | definition
  | declaration
  | typeDefinition
  | implementation
  | references
  | documentSymbol
  deriving DecidableEq, Repr, Inhabited

namespace Capability

/-- The key that a server's capabilities give the feature under. -/
def providerKey : Capability → String
  | hover => "hoverProvider"
  | formatting => "documentFormattingProvider"
  | rangeFormatting => "documentRangeFormattingProvider"
  | completion => "completionProvider"
  | definition => "definitionProvider"
  | declaration => "declarationProvider"
  | typeDefinition => "typeDefinitionProvider"
  | implementation => "implementationProvider"
  | references => "referencesProvider"
  | documentSymbol => "documentSymbolProvider"

/-- The name of the feature for people. -/
def displayName : Capability → String
  | hover => "hover"
  | formatting => "formatting"
  | rangeFormatting => "range formatting"
  | completion => "completion"
  | definition => "go to definition"
  | declaration => "go to declaration"
  | typeDefinition => "go to type definition"
  | implementation => "find implementations"
  | references => "find references"
  | documentSymbol => "document symbols"

/-- The request that uses the feature. -/
def method : Capability → Method
  | hover => .hover
  | formatting => .formatting
  | rangeFormatting => .rangeFormatting
  | completion => .completion
  | definition => .definition
  | declaration => .declaration
  | typeDefinition => .typeDefinition
  | implementation => .implementation
  | references => .references
  | documentSymbol => .documentSymbol

end Capability

/-- How a server wants changes of a document delivered. -/
inductive SyncKind where
  | none
  | full
  | incremental
  deriving DecidableEq, Repr, Inhabited

namespace SyncKind

/-- The number on the wire. -/
def code : SyncKind → Nat
  | none => 0
  | full => 1
  | incremental => 2

/-- The kind that a value names by its number, if it does. -/
def ofJson? : Json → Option SyncKind
  | .int 0 => some none
  | .int 1 => some full
  | .int 2 => some incremental
  | _ => Option.none

end SyncKind

/-- What a server wants to hear of a document. -/
structure TextSync where
  change : SyncKind
  /-- Whether a save carries the text. -/
  includeText : Bool
  deriving DecidableEq, Repr, Inhabited

namespace TextSync

/-- What is done for a server that says nothing: changes go out as they come. -/
def unspecified : TextSync := ⟨.incremental, false⟩

/-- What a server's `textDocumentSync` says: a kind, or an object of options. -/
def ofJson : Option Json → TextSync
  | some (.obj options) =>
    let options := Json.obj options
    { change := ((options.get? "change").bind SyncKind.ofJson?).getD unspecified.change
      includeText :=
        (((options.get? "save").bind (·.get? "includeText")).bind Json.bool?).getD false }
  | some v => { unspecified with change := (SyncKind.ofJson? v).getD unspecified.change }
  | none => unspecified

end TextSync

/-- What one server said it can do. -/
structure ServerCapabilities where
  raw : Json
  deriving Repr, Inhabited

namespace ServerCapabilities

/-- Whether the server provides a feature: neither `false` nor `null` stands under its key. -/
def supports (c : ServerCapabilities) (feature : Capability) : Bool :=
  match c.raw.get? feature.providerKey with
  | none => false
  | some .null => false
  | some (.bool b) => b
  | some _ => true

/-- What the server wants to hear of a document. -/
def sync (c : ServerCapabilities) : TextSync := TextSync.ofJson (c.raw.get? "textDocumentSync")

end ServerCapabilities

/-- What each initialized server said, by identity. -/
abbrev CapabilityTable := Table String ServerCapabilities

namespace CapabilityTable

/-- Whether a server is known to provide a feature. -/
def supports (t : CapabilityTable) (identity : String) (feature : Capability) : Bool :=
  match t.get? identity with
  | some c => c.supports feature
  | none => false

/-- What a server wants to hear of a document; an unknown one hears every change. -/
def sync (t : CapabilityTable) (identity : String) : TextSync :=
  match t.get? identity with
  | some c => c.sync
  | none => .unspecified

end CapabilityTable

end LanguageClient
