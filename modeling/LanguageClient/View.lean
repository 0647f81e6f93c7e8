import LanguageClient.Path.Basic

/-!
# Views

Which views of the host show which document. A document is visible while a view is bound to it.
-/

namespace LanguageClient

/-- A view of the host, by a number of the host's choice; views are only told apart. -/
abbrev ViewId := Nat

/-- The document of each view, and the views of each document in the order they came. -/
structure ViewTable where
  paths : Table ViewId Path
  views : Table Place (List ViewId)

namespace ViewTable

/-- No view is bound. -/
def empty : ViewTable := ⟨.empty, .empty⟩

instance : Inhabited ViewTable := ⟨empty⟩

/-- The document a view shows. -/
def pathOf (t : ViewTable) (view : ViewId) : Option Path := t.paths.get? view

/-- The views that show a document. -/
def viewsOf (t : ViewTable) (path : Path) : List ViewId := (t.views.get? path.place).getD []

/-- Binds a view to a document; says whether the document now has exactly one view. -/
def bind (t : ViewTable) (view : ViewId) (path : Path) : Bool × ViewTable :=
  let bound := t.viewsOf path
  let bound := if bound.contains view then bound else bound ++ [view]
  (bound.length = 1, ⟨t.paths.set view path, t.views.set path.place bound⟩)

/-- Unbinds a view; gives its document and whether that was its last view. -/
def unbind (t : ViewTable) (view : ViewId) : Option ((Path × Bool) × ViewTable) :=
  (t.pathOf view).map fun path =>
    let left := (t.viewsOf path).filter (· ≠ view)
    let views := if left.isEmpty then t.views.erase path.place else t.views.set path.place left
    ((path, left.isEmpty), ⟨t.paths.erase view, views⟩)

end ViewTable

end LanguageClient
