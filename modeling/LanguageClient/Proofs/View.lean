import LanguageClient.Proofs.Table
import LanguageClient.View

/-!
# Views and the documents that they show

The two tables of views say one thing: a view is listed with a document when it shows it
(`ViewTable.Sound`). Binding a view that shows nothing else and unbinding one keep this.
-/

namespace LanguageClient.ViewTable

variable {t t' : ViewTable} {view : ViewId} {path : Path} {last : Bool}

/-- Whether the views listed with each document are those that show it, each once, and no document
is listed without views. -/
structure Sound (t : ViewTable) : Prop where
  mem_iff : ∀ view path, view ∈ t.viewsOf path ↔
    ∃ shown, t.pathOf view = some shown ∧ shown.place = path.place
  nodup : ∀ path, (t.viewsOf path).Nodup
  ne_nil : ∀ place views, t.views.get? place = some views → views ≠ []

theorem sound_empty : empty.Sound := by
  refine ⟨fun view path => ?_, fun path => .nil, fun place views h => ?_⟩
  · simp [viewsOf, pathOf, empty]
  · simp [empty] at h

theorem pathOf_bind (t : ViewTable) (view other : ViewId) (path : Path) :
    (t.bind view path).2.pathOf other = if view = other then some path else t.pathOf other :=
  Table.get?_set t.paths view other path

theorem pathOf_unbind (h : t.unbind view = some ((path, last), t')) (other : ViewId) :
    t.pathOf view = some path ∧
      t'.pathOf other = if view = other then none else t.pathOf other := by
  obtain ⟨bound, hbound, heq⟩ := Option.map_eq_some_iff.1 h
  cases heq
  exact ⟨hbound, Table.get?_erase t.paths view other⟩

theorem mem_bound {views : List ViewId} {view other : ViewId} :
    other ∈ (if views.contains view then views else views ++ [view]) ↔
      other = view ∨ other ∈ views := by
  split
  · next hmem =>
    have hmem : view ∈ views := by simpa using hmem
    refine ⟨.inr, ?_⟩
    rintro (rfl | h)
    · exact hmem
    · exact h
  · rw [List.mem_append, List.mem_singleton, or_comm]

theorem viewsOf_bind (t : ViewTable) (view : ViewId) (path other : Path) :
    (t.bind view path).2.viewsOf other =
      if path.place = other.place then
        if (t.viewsOf path).contains view then t.viewsOf path else t.viewsOf path ++ [view]
      else t.viewsOf other := by
  rw [viewsOf, bind, Table.get?_set]
  split
  · rfl
  · rfl

theorem viewsOf_unbind (h : t.unbind view = some ((path, last), t')) (other : Path) :
    t'.viewsOf other = if path.place = other.place then (t.viewsOf path).filter (· ≠ view)
      else t.viewsOf other := by
  obtain ⟨bound, -, heq⟩ := Option.map_eq_some_iff.1 h
  cases heq
  rw [viewsOf]
  dsimp only
  -- a document without views is not listed, which is as good as being listed with none
  split
  · next hempty =>
    rw [Table.get?_erase]
    split
    · exact (List.isEmpty_iff.1 hempty).symm
    · rfl
  · rw [Table.get?_set]
    split
    · rfl
    · rfl

/-- A view was the last one of its document when none is left of it. -/
theorem last_unbind (h : t.unbind view = some ((path, last), t')) :
    last = (t'.viewsOf path).isEmpty := by
  rw [viewsOf_unbind h, if_pos rfl]
  obtain ⟨bound, -, heq⟩ := Option.map_eq_some_iff.1 h
  cases heq
  rfl

theorem viewsOf_of_place_eq (t : ViewTable) {other : Path} (h : path.place = other.place) :
    t.viewsOf path = t.viewsOf other := by
  rw [viewsOf, h, viewsOf]

/-- A view that shows nothing else may be bound to a document. -/
theorem Sound.bind (h : t.Sound)
    (hfree : ∀ shown, t.pathOf view = some shown → shown.place = path.place) :
    (t.bind view path).2.Sound := by
  refine ⟨fun other q => ?_, fun q => ?_, fun place views hviews => ?_⟩
  · rw [viewsOf_bind, pathOf_bind]
    split
    · next hplace =>
      rw [mem_bound, h.mem_iff]
      split
      · next hview => simp [hview, hplace]
      · next hview => simp [Ne.symm hview, hplace]
    · next hplace =>
      rw [h.mem_iff]
      split
      · next hview =>
        obtain rfl := hview
        constructor
        · rintro ⟨shown, hshown, hq⟩
          exact absurd ((hfree shown hshown).symm.trans hq) hplace
        · rintro ⟨shown, hshown, hq⟩
          obtain rfl := Option.some.inj hshown
          exact absurd hq hplace
      · rfl
  · rw [viewsOf_bind]
    split
    · split
      · exact h.nodup path
      · next hnew =>
        have hnew : view ∉ t.viewsOf path := by simpa using hnew
        exact List.nodup_append.2 ⟨h.nodup path, List.pairwise_singleton _ _, by
          rintro a ha b hb rfl
          exact hnew (List.mem_singleton.1 hb ▸ ha)⟩
    · exact h.nodup q
  · rw [ViewTable.bind, Table.get?_set] at hviews
    split at hviews
    · obtain rfl := Option.some.inj hviews
      exact List.ne_nil_of_mem (mem_bound.2 (.inl rfl))
    · exact h.ne_nil place views hviews

theorem Sound.unbind (h : t.Sound) (hunbind : t.unbind view = some ((path, last), t')) :
    t'.Sound := by
  have hshown := (pathOf_unbind hunbind view).1
  refine ⟨fun other q => ?_, fun q => ?_, fun place views hviews => ?_⟩
  · rw [viewsOf_unbind hunbind, (pathOf_unbind hunbind other).2]
    split
    · next hplace =>
      rw [List.mem_filter, h.mem_iff]
      split
      · next hview => simp [hview]
      · next hview => simp [Ne.symm hview, hplace]
    · next hplace =>
      rw [h.mem_iff]
      split
      · next hview =>
        obtain rfl := hview
        simp [hshown, hplace]
      · rfl
  · rw [viewsOf_unbind hunbind]
    split
    · exact (h.nodup path).filter _
    · exact h.nodup q
  · obtain ⟨bound, -, heq⟩ := Option.map_eq_some_iff.1 hunbind
    cases heq
    dsimp only at hviews
    split at hviews
    · rw [Table.get?_erase] at hviews
      split at hviews
      · cases hviews
      · exact h.ne_nil place views hviews
    · next hleft =>
      rw [Table.get?_set] at hviews
      split at hviews
      · obtain rfl := Option.some.inj hviews
        exact fun hnil => hleft (by rw [hnil]; rfl)
      · exact h.ne_nil place views hviews

/-- A view that shows nothing, and no other, is not listed. -/
theorem Sound.not_mem_viewsOf (h : t.Sound) (hnone : t.pathOf view = none) (path : Path) :
    view ∉ t.viewsOf path := by
  rw [h.mem_iff, hnone]
  rintro ⟨shown, hshown, -⟩
  cases hshown

/-- A view that is unbound is no longer listed with any document. -/
theorem Sound.viewsOf_unbind_eq (h : t.Sound) (hunbind : t.unbind view = some ((path, last), t'))
    (other : Path) : t'.viewsOf other = (t.viewsOf other).filter (· ≠ view) := by
  rw [viewsOf_unbind hunbind]
  split
  · next hplace => rw [t.viewsOf_of_place_eq hplace]
  · next hplace =>
    have hshown := (pathOf_unbind hunbind view).1
    refine (List.filter_eq_self.2 fun v hv => ?_).symm
    obtain ⟨shown, hshown', hplace'⟩ := (h.mem_iff v other).1 hv
    have hne : v ≠ view := by
      rintro rfl
      rw [hshown] at hshown'
      obtain rfl := Option.some.inj hshown'
      exact hplace hplace'
    simpa using hne

theorem eq_singleton_of_forall_mem {views : List ViewId} (hnodup : views.Nodup)
    (hmem : view ∈ views) (hall : ∀ v ∈ views, v = view) : views = [view] := by
  cases views with
  | nil => cases hmem
  | cons first rest =>
    obtain rfl := hall first List.mem_cons_self
    have hrest : rest = [] := by
      refine List.eq_nil_iff_forall_not_mem.2 fun v hv => ?_
      obtain rfl := hall v (List.mem_cons_of_mem _ hv)
      exact (List.nodup_cons.1 hnodup).1 hv
    rw [hrest]

/-- No view is left of a document when the one that is unbound was its only view. -/
theorem Sound.last_iff (h : t.Sound) (hunbind : t.unbind view = some ((path, last), t'))
    (other : Path) : (last = true ∧ path.place = other.place) ↔ t.viewsOf other = [view] := by
  have hshown := (pathOf_unbind hunbind view).1
  have hlast := last_unbind hunbind
  rw [h.viewsOf_unbind_eq hunbind] at hlast
  constructor
  · rintro ⟨rfl, hplace⟩
    have hmem : view ∈ t.viewsOf path := (h.mem_iff view path).2 ⟨path, hshown, rfl⟩
    have hall : ∀ v ∈ t.viewsOf path, v = view := by
      simpa [List.filter_eq_nil_iff] using hlast.symm
    rw [← t.viewsOf_of_place_eq hplace]
    exact eq_singleton_of_forall_mem (h.nodup path) hmem hall
  · intro hsingle
    have hmem : view ∈ t.viewsOf other := by
      rw [hsingle]
      exact List.mem_cons_self
    obtain ⟨shown, hshown', hplace⟩ := (h.mem_iff view other).1 hmem
    rw [hshown] at hshown'
    obtain rfl := Option.some.inj hshown'
    refine ⟨?_, hplace⟩
    rw [hlast, t.viewsOf_of_place_eq hplace, hsingle]
    simp

end LanguageClient.ViewTable
