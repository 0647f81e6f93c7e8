import LanguageClient.Diagnostic.Store
import LanguageClient.Proofs.Table

/-!
# What operations on the diagnostics store change

Each operation touches the entries of one server, of one document, or of one of both; these
equations say what stands for any server and document after it.
-/

namespace LanguageClient.DiagnosticStore

/-- New diagnostics stand in the place of the old ones, unless there are none. -/
theorem get?_replace (s : DiagnosticStore) (identity : String) (path : Path)
    (diagnostics : List Diagnostic) (key : String × Place) :
    (s.replace identity path diagnostics).entries.get? key =
      if (identity, path.place) = key then
        if diagnostics.isEmpty then none
        else some ⟨((s.entries.get? (identity, path.place)).map (·.path)).getD path, diagnostics⟩
      else s.entries.get? key := by
  unfold replace
  dsimp only
  split
  · exact Table.get?_erase _ _ _
  · exact Table.get?_set _ _ _ _

theorem get?_removeConnection (s : DiagnosticStore) (identity : String) (key : String × Place) :
    (s.removeConnection identity).2.entries.get? key =
      if key.1 = identity then none else s.entries.get? key := by
  rw [removeConnection, Table.get?_filter]
  by_cases h : key.1 = identity <;> simp [h]

theorem get?_removePath (s : DiagnosticStore) (path : Path) (key : String × Place) :
    (s.removePath path).entries.get? key =
      if key.2 = path.place then none else s.entries.get? key := by
  rw [removePath, Table.get?_filter]
  by_cases h : key.2 = path.place <;> simp [h]

theorem get?_removePath_self (s : DiagnosticStore) (identity : String) (path : Path) :
    (s.removePath path).entries.get? (identity, path.place) = none := by
  rw [get?_removePath, if_pos rfl]

/-! ## What is found afterwards -/

/-- What a server publishes for a document is what is then kept of it. -/
theorem get_replace (s : DiagnosticStore) (identity other : String) (path q : Path)
    (diagnostics : List Diagnostic) :
    (s.replace identity path diagnostics).get other q =
      if identity = other ∧ path.place = q.place then diagnostics else s.get other q := by
  rw [get, get?_replace]
  by_cases hkey : (identity, path.place) = (other, q.place)
  · rw [if_pos hkey, if_pos (Prod.mk.inj hkey)]
    split
    · next hempty => exact (List.isEmpty_iff.1 hempty).symm
    · rfl
  · rw [if_neg hkey, if_neg fun h => hkey (Prod.ext h.1 h.2)]
    rfl

theorem get_removeConnection (s : DiagnosticStore) (identity other : String) (path : Path) :
    (s.removeConnection identity).2.get other path =
      if other = identity then [] else s.get other path := by
  rw [get, get?_removeConnection]
  split
  · rfl
  · rfl

theorem get_removePath (s : DiagnosticStore) (path : Path) (identity : String) (q : Path) :
    (s.removePath path).get identity q = if q.place = path.place then [] else s.get identity q := by
  rw [get, get?_removePath]
  split
  · rfl
  · rfl

/-- The servers with something kept of a document are listed with it. -/
theorem mem_forPath {s : DiagnosticStore} {path : Path} {identity : String}
    {diagnostics : List Diagnostic} : (identity, diagnostics) ∈ s.forPath path ↔
      ∃ entry, s.entries.get? (identity, path.place) = some entry ∧
        entry.diagnostics = diagnostics := by
  have hfilter := Table.get?_filter s.entries fun key => decide (key.2 = path.place)
  rw [forPath, List.mem_map]
  constructor
  · rintro ⟨⟨⟨name, place⟩, entry⟩, hmem, heq⟩
    cases heq
    have hentry := (hfilter (name, place)).symm.trans (Table.mem_entries_iff.1 hmem)
    split at hentry
    · next hplace =>
      obtain rfl : place = path.place := of_decide_eq_true hplace
      exact ⟨entry, hentry, rfl⟩
    · cases hentry
  · rintro ⟨entry, hentry, rfl⟩
    refine ⟨((identity, path.place), entry), Table.mem_entries_iff.2 ?_, rfl⟩
    rw [hfilter, if_pos (decide_eq_true rfl), hentry]

/-! ## One server among others -/

/-- Two stores in which the same is found are the same. -/
theorem eq_of_get? {s u : DiagnosticStore} (h : ∀ key, s.entries.get? key = u.entries.get? key) :
    s = u := by
  cases s
  cases u
  exact congrArg mk (Table.eq_of_get? h)

/-- What one server has published, and what all others have in another store. -/
def amid (s : DiagnosticStore) (identity : String) (u : DiagnosticStore) : DiagnosticStore :=
  ⟨s.entries.splice u.entries (·.1 = identity)⟩

theorem get?_amid (s : DiagnosticStore) (identity : String) (u : DiagnosticStore)
    (key : String × Place) : (s.amid identity u).entries.get? key =
      if key.1 = identity then s.entries.get? key else u.entries.get? key := by
  rw [amid, Table.get?_splice]
  by_cases hkey : key.1 = identity <;> simp [hkey]

theorem replace_amid (s : DiagnosticStore) (identity : String) (u : DiagnosticStore) (path : Path)
    (diagnostics : List Diagnostic) :
    (s.replace identity path diagnostics).amid identity u =
      (s.amid identity u).replace identity path diagnostics := by
  refine eq_of_get? fun key => ?_
  rw [get?_amid, get?_replace, get?_replace, get?_amid, get?_amid, if_pos rfl]
  by_cases hkey : (identity, path.place) = key
  · subst hkey
    simp
  · simp [hkey]

theorem removeConnection_amid_fst (s : DiagnosticStore) (identity : String) (u : DiagnosticStore) :
    ((s.amid identity u).removeConnection identity).1 = (s.removeConnection identity).1 := by
  have hentries : ((s.amid identity u).entries.filter fun key _ => decide (key.1 = identity)) =
      s.entries.filter fun key _ => decide (key.1 = identity) := by
    refine Table.eq_of_get? fun key => ?_
    have hfilter := fun t : DiagnosticStore =>
      Table.get?_filter t.entries (fun key => decide (key.1 = identity)) key
    rw [hfilter, hfilter, get?_amid]
    by_cases hkey : key.1 = identity <;> simp [hkey]
  simp only [removeConnection, hentries]

theorem removeConnection_amid_snd (s : DiagnosticStore) (identity : String) (u : DiagnosticStore) :
    (s.removeConnection identity).2.amid identity u =
      ((s.amid identity u).removeConnection identity).2 := by
  refine eq_of_get? fun key => ?_
  rw [get?_amid, get?_removeConnection, get?_removeConnection, get?_amid]
  by_cases hkey : key.1 = identity <;> simp [hkey]

end LanguageClient.DiagnosticStore
