import LanguageClient.Document.Tracked

/-!
# What operations on open documents change

Each operation touches the entry of one place; these equations say what stands at any place after
it.
-/

namespace LanguageClient.DocumentTable

variable {t t' : DocumentTable} {path : Path} {n : Notification}

theorem get?_openDocument {text language : String}
    (h : t.openDocument path text language = some (n, t')) (place : Place) :
    t'.documents.get? place =
      if path.place = place then some ⟨path, 1⟩ else t.documents.get? place := by
  unfold openDocument at h
  split at h
  · cases h
  · cases h
    exact Table.get?_set _ _ _ _

theorem get?_close (h : t.close path = some (n, t')) (place : Place) :
    t'.documents.get? place = if path.place = place then none else t.documents.get? place := by
  unfold close at h
  split at h
  · cases h
    exact Table.get?_erase _ _ _
  · cases h

theorem get?_change {changes : List ContentChange} (h : t.change path changes = some (n, t')) :
    ∃ document, t.documents.get? path.place = some document ∧
      ∀ place, t'.documents.get? place = if path.place = place then
        some { document with version := document.version + 1 } else t.documents.get? place := by
  obtain ⟨document, hdocument, heq⟩ := Option.map_eq_some_iff.1 h
  cases heq
  exact ⟨document, hdocument, fun place => Table.get?_set _ _ _ _⟩

theorem contains_openDocument {text language : String}
    (h : t.openDocument path text language = some (n, t')) (place : Place) :
    t'.documents.contains place = true ↔
      path.place = place ∨ t.documents.contains place = true := by
  rw [Table.contains, get?_openDocument h]
  split
  · next heq => simp [heq]
  · next hne => simp [hne, Table.contains]

theorem contains_close (h : t.close path = some (n, t')) (place : Place) :
    t'.documents.contains place = true ↔
      path.place ≠ place ∧ t.documents.contains place = true := by
  rw [Table.contains, get?_close h]
  split
  · next heq => simp [heq]
  · next hne => simp [hne, Table.contains]

/-- A change opens and closes nothing. -/
theorem contains_change {changes : List ContentChange} (h : t.change path changes = some (n, t'))
    (place : Place) : t'.documents.contains place = t.documents.contains place := by
  obtain ⟨document, hdocument, hmoved⟩ := get?_change h
  rw [Table.contains, hmoved, Table.contains]
  split
  · next heq => rw [← heq, hdocument, Option.isSome_some, Option.isSome_some]
  · rfl

end LanguageClient.DocumentTable
