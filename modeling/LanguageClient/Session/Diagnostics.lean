import LanguageClient.Session.Basic

/-!
# Diagnostics in a session

Which publications of servers count, and what views and the user see of them.
-/

namespace LanguageClient.Turn

/-- Takes a publication, unless the document is not open or the publication speaks of another
version of it; the document's views show it. -/
def published (t : Turn) (identity : String) (p : Publication) : Turn :=
  let path := Uri.toPath p.uri
  match (t.connection identity).bind (·.documents.version path) with
  | none => t
  | some tracked =>
    if p.version.any fun version => version ≠ (tracked : Int) then t
    else
      let diagnostics := p.diagnostics.map Diagnostic.ofPublished
      let t := { t with session := { t.session with
        diagnostics := t.session.diagnostics.replace identity path diagnostics } }
      let text := (t.bufferText path).map String.toList
      let rendered := (t.session.diagnostics.get identity path).map (·.render text)
      (t.session.views.viewsOf path).foldl
        (fun t view => t.tell (.setDiagnostics view identity rendered)) t

/-- Shows the user what touches a line of a document. -/
def lineDiagnostics (t : Turn) (path : Path) (line : Nat) : Turn :=
  let text := (t.bufferText path).map String.toList
  let lines := (t.session.diagnostics.coveringLine path line).map fun (identity, d) =>
    s!"{identity}: {(d.render text).display}"
  if lines.isEmpty then t.notice .info s!"No diagnostics on line {line + 1}"
  else t.tell (.showText "Diagnostics" ("\n".intercalate lines))

end LanguageClient.Turn
