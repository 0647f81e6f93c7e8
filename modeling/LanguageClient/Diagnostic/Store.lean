import LanguageClient.Diagnostic.Basic

/-!
# The diagnostics store

The latest diagnostics that each server published for each document. A server that publishes none
for a document has no entry for it.
-/

namespace LanguageClient

/-- What one server published for one document, with the path it was first published under. -/
structure DiagnosticEntry where
  path : Path
  diagnostics : List Diagnostic
  deriving DecidableEq, Repr, Inhabited

/-- The latest diagnostics by server and place. -/
structure DiagnosticStore where
  entries : Table (String × Place) DiagnosticEntry

namespace DiagnosticStore

/-- A store without entries. -/
def empty : DiagnosticStore := ⟨.empty⟩

instance : Inhabited DiagnosticStore := ⟨empty⟩

/-- Puts a server's diagnostics for a document in the place of its former ones. -/
def replace (s : DiagnosticStore) (identity : String) (path : Path)
    (diagnostics : List Diagnostic) : DiagnosticStore :=
  let key := (identity, path.place)
  if diagnostics.isEmpty then ⟨s.entries.erase key⟩
  else
    let path := ((s.entries.get? key).map (·.path)).getD path
    ⟨s.entries.set key ⟨path, diagnostics⟩⟩

/-- A server's diagnostics for a document. -/
def get (s : DiagnosticStore) (identity : String) (path : Path) : List Diagnostic :=
  ((s.entries.get? (identity, path.place)).map (·.diagnostics)).getD []

/-- The diagnostics of a document by server. -/
def forPath (s : DiagnosticStore) (path : Path) : List (String × List Diagnostic) :=
  (s.entries.filter fun key _ => key.2 = path.place).entries.map
    fun e => (e.1.1, e.2.diagnostics)

/-- The diagnostics that touch a line of a document, each with its server. -/
def coveringLine (s : DiagnosticStore) (path : Path) (line : Nat) : List (String × Diagnostic) :=
  (s.forPath path).flatMap fun (identity, diagnostics) =>
    (diagnostics.filter (·.range.containsLine line)).map (identity, ·)

/-- Forgets a server; gives the documents it had diagnostics for, in order. -/
def removeConnection (s : DiagnosticStore) (identity : String) : List Path × DiagnosticStore :=
  ((s.entries.filter fun key _ => key.1 = identity).values.map (·.path),
    ⟨s.entries.filter fun key _ => key.1 ≠ identity⟩)

/-- Forgets a document. -/
def removePath (s : DiagnosticStore) (path : Path) : DiagnosticStore :=
  ⟨s.entries.filter fun key _ => key.2 ≠ path.place⟩

/-- Whether there are no diagnostics. -/
def isEmpty (s : DiagnosticStore) : Bool := s.entries.isEmpty

end DiagnosticStore

end LanguageClient
