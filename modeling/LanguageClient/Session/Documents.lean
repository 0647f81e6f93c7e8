import LanguageClient.Session.Basic

/-!
# Documents in a session

How servers are kept informed of the host's documents: opened when they come into view, changed in
the form each server asks for, saved, and closed with their last view.
-/

namespace LanguageClient.Turn

/-- Opens a document on a server that is active, takes it and does not have it yet. -/
def openDocument (t : Turn) (identity : String) (path : Path) : Turn :=
  match t.connection identity with
  | none => t
  | some c =>
    if !c.isActive || c.documents.isOpen path || !c.config.serves path then t
    else
      match t.bufferText path with
      | none => t
      | some text =>
        match c.documents.openDocument path text (path.language.getD "plaintext") with
        | none => t
        | some (n, documents) =>
          let c := { c with documents := documents }
          (t.keep identity c).notify c n

/-- Opens a document on every server that takes it. -/
def openEverywhere (t : Turn) (path : Path) : Turn :=
  t.identities.foldl (fun t identity => t.openDocument identity path) t

/-- Closes a document on one server. -/
def closeDocument (t : Turn) (path : Path) (identity : String) : Turn :=
  match t.connection identity with
  | none => t
  | some c =>
    match c.documents.close path with
    | none => t
    | some (n, documents) =>
      let c := { c with documents := documents }
      (t.keep identity c).notify c n

/-- Unbinds a view; with its last view a document is closed and its diagnostics are forgotten. -/
def viewClosed (t : Turn) (view : ViewId) : Turn :=
  let focused := if t.session.focused = some view then none else t.session.focused
  let t := { t with session := { t.session with focused := focused } }
  match t.session.views.unbind view with
  | none => t
  | some ((path, last), views) =>
    let t := { t with session := { t.session with views := views } }
    if last then
      let t := t.identities.foldl (closeDocument · path) t
      { t with session := { t.session with
          diagnostics := t.session.diagnostics.removePath path } }
    else t

/-- Shows in a view what is known of its document. -/
def showKnownDiagnostics (t : Turn) (view : ViewId) (path : Path) : Turn :=
  let text := (t.bufferText path).map String.toList
  (t.session.diagnostics.forPath path).foldl
    (fun t (identity, diagnostics) =>
      t.tell (.setDiagnostics view identity (diagnostics.map (·.render text)))) t

/-- Binds a view to a document; with its first view a document is opened. -/
def viewOpened (t : Turn) (view : ViewId) (path : Path) : Turn :=
  let t := match t.session.views.pathOf view with
    | some bound => if bound.place = path.place then t else t.viewClosed view
    | none => t
  let (only, views) := t.session.views.bind view path
  let t := { t with session := { t.session with views := views } }
  let t := if only then t.openEverywhere path else t
  t.showKnownDiagnostics view path

/-- Makes a view the focused one and opens its document. -/
def viewFocused (t : Turn) (view : ViewId) : Turn :=
  let t := { t with session := { t.session with focused := some view } }
  match t.session.views.pathOf view with
  | some path => t.openEverywhere path
  | none => t

/-- The changes as a server wants them: as they are, or the whole text; `none` when it wants none or
the text is not there. -/
def changesFor (t : Turn) (kind : SyncKind) (path : Path) (changes : List ContentChange) :
    Option (List ContentChange) :=
  match kind, changes with
  | .none, _ => none
  | .incremental, _ => some changes
  | .full, [.full text] => some [.full text]
  | .full, _ => (t.bufferText path).map fun text => [.full text]

/-- Tells one server of changes to a document that it has open. -/
def syncChangesTo (t : Turn) (path : Path) (changes : List ContentChange) (identity : String) :
    Turn :=
  match t.connection identity with
  | none => t
  | some c =>
    if !c.isActive || !c.documents.isOpen path then t
    else
      match t.changesFor (CapabilityTable.sync t.session.capabilities identity).change path
          changes with
      | none => t
      | some changes =>
        match c.documents.change path changes with
        | none => t
        | some (n, documents) =>
          let c := { c with documents := documents }
          (t.keep identity c).notify c n

/-- Tells every server that has a document open of changes to it. -/
def syncChanges (t : Turn) (path : Path) (changes : List ContentChange) : Turn :=
  t.identities.foldl (syncChangesTo · path changes) t

/-- Tells one server that takes a document of its save. -/
def savedTo (t : Turn) (path : Path) (identity : String) : Turn :=
  match t.connection identity with
  | none => t
  | some c =>
    if !c.isActive || !c.config.serves path then t
    else
      let text := if (CapabilityTable.sync t.session.capabilities identity).includeText then
        t.bufferText path else none
      t.notify c (DocumentTable.save path text)

/-- Tells every server that takes a document of its save. -/
def saved (t : Turn) (path : Path) : Turn := t.identities.foldl (savedTo · path) t

/-- Sends the whole text of a document again. -/
def resync (t : Turn) (path : Path) : Except Failure Turn :=
  match t.bufferText path with
  | some text => .ok (t.syncChanges path [.full text])
  | none => .error (.missingBuffer path.text)

end LanguageClient.Turn
