import LanguageClient.Document.Change
import LanguageClient.Wire.Message
import LanguageClient.Wire.Method

/-!
# Tracked documents

The documents that one server was told are open. Each operation gives the notification to send, or
nothing when it does not apply; versions count from one at each opening.
-/

namespace LanguageClient

/-- An open document: the path it was opened under and its version. Versions have no
bound here; signed words of 32 bits, which the wire asks for, agree with them until they overflow. -/
structure TrackedDocument where
  path : Path
  version : Nat
  deriving DecidableEq, Repr, Inhabited

/-- The open documents by place. -/
structure DocumentTable where
  documents : Table Place TrackedDocument

namespace DocumentTable

/-- No open documents. -/
def empty : DocumentTable := ⟨.empty⟩

instance : Inhabited DocumentTable := ⟨empty⟩

/-- Whether a document is open. -/
def isOpen (t : DocumentTable) (path : Path) : Bool := t.documents.contains path.place

/-- The version of an open document. -/
def version (t : DocumentTable) (path : Path) : Option Nat :=
  (t.documents.get? path.place).map (·.version)

/-- How many documents are open. -/
def size (t : DocumentTable) : Nat := t.documents.size

/-- The paths that the open documents were opened under, in order. -/
def paths (t : DocumentTable) : List Path := t.documents.values.map (·.path)

/-- How the wire names a document. -/
def identifier (path : Path) : List (String × Json) := [("uri", .str (Uri.ofPath path))]

/-- Opens a document, unless it is open. -/
def openDocument (t : DocumentTable) (path : Path) (text : String) (language : String) :
    Option (Notification × DocumentTable) :=
  if t.isOpen path then none
  else
    let item := Json.object (identifier path ++
      [("languageId", .str language), ("version", .int 1), ("text", .str text)])
    some (.new Wire.didOpen (some (Json.object [("textDocument", item)])),
      ⟨t.documents.set path.place ⟨path, 1⟩⟩)

/-- Closes an open document. -/
def close (t : DocumentTable) (path : Path) : Option (Notification × DocumentTable) :=
  if t.isOpen path then
    some (.new Wire.didClose (some (Json.object [("textDocument", Json.object (identifier path))])),
      ⟨t.documents.erase path.place⟩)
  else none

/-- Moves an open document to its next version. -/
def change (t : DocumentTable) (path : Path) (changes : List ContentChange) :
    Option (Notification × DocumentTable) :=
  (t.documents.get? path.place).map fun document =>
    let version := document.version + 1
    let item := Json.object (identifier path ++ [("version", .int version)])
    (.new Wire.didChange (some (Json.object [("textDocument", item),
        ("contentChanges", .arr (changes.map ContentChange.toJson))])),
      ⟨t.documents.set path.place { document with version := version }⟩)

/-- The notification of a save, which goes out whether or not the document is open. -/
def save (path : Path) (text : Option String) : Notification :=
  .new Wire.didSave (some (Json.object ([("textDocument", Json.object (identifier path))] ++
    (text.map fun s => ("text", .str s)).toList)))

end DocumentTable

end LanguageClient
