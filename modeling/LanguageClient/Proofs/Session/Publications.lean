import LanguageClient.Proofs.Session.Deed

/-!
# Diagnostics as a history of publications

What a session keeps of a server's diagnostics for a document can be told from the course of the
run alone: it is what the server published last, of the publications that counted, since the
document was last opened on its present connection (`Publications.latest`). It is lost with the last
view of the document and with the connection, and nothing else changes it.
-/

namespace LanguageClient

namespace Turn

/-- Whether a server has a document open. -/
def hasOpen (t : Turn) (identity : String) (path : Path) : Bool :=
  (t.connection identity).any (·.documents.isOpen path)

/-- What is kept of a server's diagnostics for a document. -/
def kept (t : Turn) (identity : String) (path : Path) : List Diagnostic :=
  t.session.diagnostics.get identity path

end Turn

namespace Moment

/-- What a server publishes for a document at a moment, if its publication counts. -/
def accepted? (mo : Moment) (identity : String) (path : Path) : Option (List Diagnostic) :=
  match mo with
  | acts t publisher (.notification (.published p)) =>
    if publisher = identity ∧ (Uri.toPath p.uri).place = path.place ∧ t.accepts identity p = true
    then some (p.diagnostics.map Diagnostic.ofPublished) else none
  | _ => none

/-- Whether a document is opened on a server at a moment. -/
def opens (mo : Moment) (identity : String) (path : Path) : Bool :=
  !mo.before.hasOpen identity path && mo.after.hasOpen identity path

/-- Whether a document loses its last view at a moment. -/
def hides (mo : Moment) (path : Path) : Bool :=
  !(mo.before.session.views.viewsOf path).isEmpty && (mo.after.session.views.viewsOf path).isEmpty

/-- Whether the connection of a server ends at a moment. -/
def ends (mo : Moment) (identity : String) : Bool :=
  (mo.before.connection identity).any fun c =>
    (mo.after.connection identity).all fun c' => c'.id ≠ c.id

end Moment

namespace Publications

/-- Whether what was published before a moment no longer counts after it. -/
def resets (mo : Moment) (identity : String) (path : Path) : Bool :=
  mo.opens identity path || mo.hides path || mo.ends identity

/-- What a server published last for a document since that was last opened on its connection. -/
def latest (identity : String) (path : Path) (ms : List Moment) : List Diagnostic :=
  ((ms.reverse.takeWhile fun mo => !resets mo identity path).findSome?
    (·.accepted? identity path)).getD []

theorem latest_concat (identity : String) (path : Path) (ms : List Moment) (mo : Moment) :
    latest identity path (ms ++ [mo]) = if resets mo identity path then []
      else (mo.accepted? identity path).getD (latest identity path ms) := by
  rw [latest, List.reverse_append, List.reverse_singleton, List.singleton_append,
    List.takeWhile_cons]
  cases resets mo identity path with
  | true => rfl
  | false =>
    simp only [Bool.not_false, if_true, List.findSome?_cons, Bool.false_eq_true, if_false]
    cases mo.accepted? identity path with
    | none => rfl
    | some diagnostics => rfl

end Publications

namespace Turn

variable {named : Path → Prop} {mo : Moment} {t t' u u' : Turn} {path : Path} {identity : String}
  {view : ViewId}

/-- Nothing is kept of a document that a server does not have open. -/
theorem kept_eq_nil (h : t.session.Aligned) (hclosed : t.hasOpen identity path = false) :
    t.kept identity path = [] := by
  rw [kept, DiagnosticStore.get]
  cases hentry : t.session.diagnostics.entries.get? (identity, path.place) with
  | none => rfl
  | some entry =>
    obtain ⟨-, -, c, hc, hopen⟩ := h.diagnosed identity path.place entry hentry
    have hc : t.connection identity = some c := hc
    rw [hasOpen, hc, Option.any_some, DocumentTable.isOpen, hopen] at hclosed
    cases hclosed

/-! ## Moments that are no publications and handle no view -/

/-- Whether what was kept of a server is still kept as long as its connection has not ended. -/
structure Lasts (identity : String) (path : Path) (t u : Turn) : Prop where
  views : u.session.views = t.session.views
  kept : (u.kept identity path = t.kept identity path ∧
      ∀ c, t.connection identity = some c → ∃ c', u.connection identity = some c' ∧ c'.id = c.id) ∨
    (u.kept identity path = [] ∧ ∃ c, t.connection identity = some c ∧
      c.id < u.session.nextConnection ∧ ∀ c', u.connection identity = some c' → c'.id ≠ c.id)

/-- What does not touch the diagnostics of a server and leaves its connection where it is. -/
theorem Lasts.congr (h : Lasts identity path t u)
    (hviews : u'.session.views = u.session.views)
    (hkept : u'.kept identity path = u.kept identity path)
    (hnext : u.session.nextConnection ≤ u'.session.nextConnection)
    (hstands : ∀ c, u.connection identity = some c →
      ∃ c', u'.connection identity = some c' ∧ c'.id = c.id)
    (hstood : ∀ c', u'.connection identity = some c' →
      (∃ c, u.connection identity = some c ∧ c'.id = c.id) ∨ u.session.nextConnection ≤ c'.id) :
    Lasts identity path t u' := by
  refine ⟨hviews.trans h.views, ?_⟩
  rcases h.kept with ⟨hsame, hruns⟩ | ⟨hnil, c, hc, hlt, hgone⟩
  · refine .inl ⟨hkept.trans hsame, fun c hc => ?_⟩
    obtain ⟨d, hd, hdid⟩ := hruns c hc
    obtain ⟨d', hd', hid⟩ := hstands d hd
    exact ⟨d', hd', hid.trans hdid⟩
  · refine .inr ⟨hkept.trans hnil, c, hc, Nat.lt_of_lt_of_le hlt hnext, fun d' hd' => ?_⟩
    rcases hstood d' hd' with ⟨d, hd, hid⟩ | hle
    · rw [hid]
      exact hgone d hd
    · exact Nat.ne_of_gt (Nat.lt_of_lt_of_le hlt hle)

/-- What leaves all connections, views and diagnostics as they are. -/
theorem Lasts.stays (h : Lasts identity path t u) (hviews : u'.session.views = u.session.views)
    (hdiagnostics : u'.session.diagnostics = u.session.diagnostics)
    (hnext : u.session.nextConnection ≤ u'.session.nextConnection)
    (hconnection : u'.connection = u.connection) : Lasts identity path t u' := by
  refine h.congr hviews ?_ hnext (fun c hc => ⟨c, ?_, rfl⟩) fun c hc => .inl ⟨c, ?_, rfl⟩
  · rw [Turn.kept, hdiagnostics, Turn.kept]
  · rw [hconnection]
    exact hc
  · rw [← hconnection]
    exact hc

/-- Nothing is kept of a server that is gone, whether it stood before or was started since. -/
theorem Lasts.gone (h : Lasts identity path t u) (ht : t.Regular named) (hu : u.Regular named)
    (hviews : u'.session.views = u.session.views) (hkept : u'.kept identity path = [])
    (hnext : u'.session.nextConnection = u.session.nextConnection)
    (hnone : u'.connection identity = none) : Lasts identity path t u' := by
  refine ⟨hviews.trans h.views, ?_⟩
  have hgone : ∀ (d : Connection), ∀ e, u'.connection identity = some e → e.id ≠ d.id := by
    intro d e he
    cases hnone.symm.trans he
  rcases h.kept with ⟨hsame, hruns⟩ | ⟨-, d, hd, hlt, -⟩
  · cases hbefore : t.connection identity with
    | none =>
      -- the server was started at this moment, so nothing was kept of it before
      have hnothing : t.kept identity path = [] := by
        refine kept_eq_nil ht.aligned ?_
        rw [hasOpen, hbefore]
        rfl
      exact .inl ⟨hkept.trans hnothing.symm, fun d hd => by cases hd⟩
    | some d =>
      obtain ⟨d', hd', hid⟩ := hruns d hbefore
      have hlt := hu.coherent.fresh identity d' hd'
      rw [hid, ← hnext] at hlt
      exact .inr ⟨hkept, d, rfl, hlt, hgone d⟩
  · rw [← hnext] at hlt
    exact .inr ⟨hkept, d, hd, hlt, hgone d⟩

/-- A server that ends takes its own diagnostics with it, and no others. -/
theorem Lasts.ends {c : Connection} {other : String} {messages : List Json}
    (h : Lasts identity path t u) (ht : t.Regular named) (hu : u.Regular named)
    (hc : u.connection other = some c) :
    Lasts identity path t ((u.write c.id messages).teardown other) := by
  have hwritten : (u.write c.id messages).connection other = some c := hc
  have hkept : ((u.write c.id messages).teardown other).kept identity path =
      if identity = other then [] else u.kept identity path := by
    rw [teardown_eq hwritten]
    exact DiagnosticStore.get_removeConnection u.session.diagnostics other identity path
  have hconnection : ((u.write c.id messages).teardown other).connection identity =
      if other = identity then none else u.connection identity :=
    connection_teardown (u.write c.id messages) other identity
  have hsession : ((u.write c.id messages).teardown other).session.views = u.session.views ∧
      ((u.write c.id messages).teardown other).session.nextConnection =
        u.session.nextConnection := by
    rw [teardown_eq hwritten]
    exact ⟨rfl, rfl⟩
  obtain ⟨hviews, hnext⟩ := hsession
  by_cases hother : other = identity
  · rw [if_pos hother.symm] at hkept
    rw [if_pos hother] at hconnection
    exact h.gone ht hu hviews hkept hnext hconnection
  · rw [if_neg (Ne.symm hother)] at hkept
    rw [if_neg hother] at hconnection
    refine h.congr hviews hkept (Nat.le_of_eq hnext.symm) ?_ ?_
    · intro d hd
      exact ⟨d, hconnection.trans hd, rfl⟩
    · intro d hd
      exact .inl ⟨d, hconnection.symm.trans hd, rfl⟩

/-- A server is entered under a name that is free. -/
theorem Lasts.entered {config : ServerConfig} {wireOpen : Bool} (h : Lasts identity path t u)
    (hu : u.Regular named)
    (free : Registry.ensureAvailable u.session.connections config.identity = .ok ()) :
    Lasts identity path t (u.entered config wireOpen) := by
  have hnone : u.connection config.identity = none :=
    Session.get?_of_ensureAvailable hu.aligned free
  have hconnection := connection_entered u config wireOpen identity
  refine h.congr rfl rfl (Nat.le_succ _) (fun c hc => ?_) fun c hc => ?_
  · have hne : config.identity ≠ identity := by
      rintro rfl
      rw [hnone] at hc
      cases hc
    exact ⟨c, (hconnection.trans (if_neg hne)).trans hc, rfl⟩
  · rw [hconnection] at hc
    split at hc
    · obtain rfl := Option.some.inj hc
      exact .inr (Nat.le_of_eq (u.newcomer_id config wireOpen).symm)
    · exact .inl ⟨c, hc, rfl⟩

/-- A server goes on as active. -/
theorem Lasts.activated {c : Connection} {other : String} {capabilities : ServerCapabilities}
    (h : Lasts identity path t u) (hc : u.connection other = some c) :
    Lasts identity path t (u.activated other c capabilities) := by
  have hconnection := connection_activated u other c capabilities identity
  refine h.congr rfl rfl (Nat.le_refl _) (fun d hd => ?_) fun d hd => .inl ?_
  · by_cases hother : other = identity
    · subst hother
      obtain rfl := Option.some.inj (hc.symm.trans hd)
      exact ⟨_, hconnection.trans (if_pos rfl), rfl⟩
    · exact ⟨d, (hconnection.trans (if_neg hother)).trans hd, rfl⟩
  · rw [hconnection] at hd
    split at hd
    · next hother =>
      obtain rfl := Option.some.inj hd
      exact ⟨c, hother ▸ hc, rfl⟩
    · exact ⟨d, hd, rfl⟩

/-- Each deed of such a moment leaves what is kept of a server, unless it ends its connection. -/
theorem Deed.lasts (hdeed : Deed named mo u u') (hu : u.Regular named) (ht : t.Regular named)
    (hpublishes : ∀ t identity p, mo ≠ .acts t identity (.notification (.published p)))
    (hhandles : ∀ view, ¬ mo.Handles view) (h : Lasts identity path t u) :
    Lasts identity path t u' := by
  cases hdeed with
  | routine hroutine regular =>
    have hkept : u'.kept identity path = u.kept identity path := by
      rw [kept, hroutine.diagnostics, kept]
    refine h.congr hroutine.views hkept (Nat.le_of_eq hroutine.nextConnection.symm) ?_ ?_
    · intro c hc
      obtain ⟨c', hc', hstays⟩ := hroutine.stands identity c hc
      exact ⟨c', hc', hstays.id⟩
    · intro c' hc'
      obtain ⟨c, hc, hstays⟩ := hroutine.stood identity c' hc'
      exact .inl ⟨c, hc, hstays.id⟩
  | publishes hmo => exact absurd hmo (hpublishes _ _ _)
  | binds handles | unbinds handles | shows handles => exact absurd handles (hhandles _)
  | launches free => exact h.stays rfl rfl (Nat.le_succ _) rfl
  | enters free => exact (h.entered hu free).stays rfl rfl (Nat.le_refl _) rfl
  | greets hmo hc => exact (h.activated hc).stays rfl rfl (Nat.le_refl _) rfl
  | ends hc _ => exact h.ends ht hu hc

/-! ## Moments that open or close a view -/

/-- A view that is closed is no longer listed with any document, and its own document is forgotten
if it was the only view of it. -/
theorem tables_viewClosed (ht : t.Regular named) (view : ViewId) (identity : String) (path : Path) :
    (t.viewClosed view).session.views.viewsOf path =
        (t.session.views.viewsOf path).filter (· ≠ view) ∧
      (t.viewClosed view).kept identity path =
        (if t.session.views.viewsOf path = [view] then [] else t.kept identity path) ∧
      ∀ c, t.connection identity = some c →
        ∃ c', (t.viewClosed view).connection identity = some c' ∧ c'.id = c.id := by
  have hsound := ht.aligned.views
  obtain ⟨focused, ⟨hnone, heq⟩ | ⟨bound, last, views, hunbind, hroutine, -⟩⟩ :=
    viewClosed_cases ht (fun _ => True) fun _ _ => trivial
  · have hother := hsound.not_mem_viewsOf hnone path
    have honly : t.session.views.viewsOf path ≠ [view] := by
      intro h
      rw [h] at hother
      exact hother List.mem_cons_self
    rw [heq, if_neg honly]
    refine ⟨(List.filter_eq_self.2 fun other hmem => ?_).symm, rfl, fun c hc => ⟨c, hc, rfl⟩⟩
    simpa using fun h : other = view => hother (h ▸ hmem)
  · have hlast := hsound.last_iff hunbind path
    rw [kept, hroutine.views, hroutine.diagnostics]
    refine ⟨hsound.viewsOf_unbind_eq hunbind path, ?_, fun c hc => ?_⟩
    · cases last with
      | true =>
        refine (DiagnosticStore.get_removePath _ bound identity path).trans ?_
        by_cases hplace : path.place = bound.place
        · rw [if_pos hplace, if_pos (hlast.1 ⟨rfl, hplace.symm⟩)]
        · rw [if_neg hplace, if_neg fun h => hplace (hlast.2 h).2.symm]
          rfl
      | false =>
        rw [if_neg fun h => absurd (hlast.2 h).1 (by simp)]
        rfl
    · obtain ⟨c', hc', hstays⟩ := hroutine.stands identity c hc
      exact ⟨c', hc', hstays.id⟩

/-- A view is bound, all else is routine, and the view is shown what is known of its document. -/
theorem bindView_eq (t : Turn) (view : ViewId) (path : Path) :
    ∃ u, Routine (fun _ => True) (t.withViews (t.session.views.bind view path).2) u ∧
      t.bindView view path = u.showKnownDiagnostics view path := by
  obtain ⟨u, rfl | rfl, heq⟩ := bindView_cases t view path
  · exact ⟨_, .refl _, heq⟩
  · exact ⟨_, routine_openEverywhere (by trivial) _, heq⟩

/-- A view that is bound is listed with its document, and all that is kept stays. -/
theorem tables_bindView (t : Turn) (view : ViewId) (identity : String) (path shown : Path) :
    (t.bindView view shown).session.views = (t.session.views.bind view shown).2 ∧
      (t.bindView view shown).kept identity path = t.kept identity path ∧
      ∀ c, t.connection identity = some c →
        ∃ c', (t.bindView view shown).connection identity = some c' ∧ c'.id = c.id := by
  obtain ⟨u, hroutine, heq⟩ := bindView_eq t view shown
  rw [heq, showKnownDiagnostics_eq]
  refine ⟨hroutine.views, ?_, fun c hc => ?_⟩
  · change u.session.diagnostics.get identity path = t.session.diagnostics.get identity path
    rw [hroutine.diagnostics]
    rfl
  · obtain ⟨c', hc', hstays⟩ := hroutine.stands identity c hc
    exact ⟨c', hc', hstays.id⟩

/-! ## All moments -/

theorem any_gone_iff {c : Option Connection} {c' : Option Connection} :
    (c.any fun c => c'.all fun c' => c'.id ≠ c.id) = true ↔
      ∃ d, c = some d ∧ ∀ d', c' = some d' → d'.id ≠ d.id := by
  cases c with
  | none => simp
  | some d => cases c' <;> simp

/-- A connection that goes on has not ended. -/
theorem ends_eq_false (h : ∀ c, mo.before.connection identity = some c →
    ∃ c', mo.after.connection identity = some c' ∧ c'.id = c.id) : mo.ends identity = false := by
  rw [Moment.ends, Bool.eq_false_iff, ne_eq, any_gone_iff]
  rintro ⟨c, hc, hgone⟩
  obtain ⟨c', hc', hid⟩ := h c hc
  exact hgone c' hc' hid

/-- A moment that leaves the connections and the views as they are opens, hides and ends nothing. -/
theorem resets_eq_false (mo : Moment) (hconnection : mo.after.connection = mo.before.connection)
    (hviews : mo.after.session.views = mo.before.session.views) (identity : String) (path : Path) :
    Publications.resets mo identity path = false := by
  have hopens : mo.opens identity path = false := by
    rw [Moment.opens, hasOpen, hasOpen, hconnection]
    exact Bool.not_and_self _
  have hhides : mo.hides path = false := by
    rw [Moment.hides, hviews]
    exact Bool.not_and_self _
  have hends : mo.ends identity = false := by
    refine ends_eq_false fun c hc => ⟨c, ?_, rfl⟩
    rw [hconnection]
    exact hc
  rw [Publications.resets, hopens, hhides, hends]
  rfl

/-- A publication changes what is kept of its server for its document, if it counts. -/
theorem tables_published (t : Turn) (publisher : String) (p : Publication) :
    (t.published publisher p).connection = t.connection ∧
      (t.published publisher p).session.views = t.session.views ∧
      ∀ identity path, (t.published publisher p).kept identity path =
        if publisher = identity ∧ (Uri.toPath p.uri).place = path.place ∧
          t.accepts publisher p = true
        then p.diagnostics.map Diagnostic.ofPublished else t.kept identity path := by
  cases haccepts : t.accepts publisher p with
  | false =>
    rw [published_of_not_accepts haccepts]
    exact ⟨rfl, rfl, fun identity path => by simp⟩
  | true =>
    rw [published_of_accepts haccepts]
    refine ⟨rfl, rfl, fun identity path => ?_⟩
    refine (DiagnosticStore.get_replace _ _ _ _ _ _).trans ?_
    simp only [and_true]
    rfl

/-- Whether what is kept of a server changes at a moment as the publications, the views and the
connections of the moment tell. -/
def Follows (mo : Moment) (identity : String) (path : Path) : Prop :=
  mo.after.kept identity path = (mo.accepted? identity path).getD
    (if mo.hides path || mo.ends identity then [] else mo.before.kept identity path)

theorem hides_or_ends_eq_false (h : Publications.resets mo identity path = false) :
    (mo.hides path || mo.ends identity) = false := by
  rw [Publications.resets, Bool.or_assoc] at h
  exact (Bool.or_eq_false_iff.1 h).2

/-- What is published at a moment where nothing is reset is kept, if it counts. -/
theorem follows_published (t : Turn) (publisher : String) (p : Publication) (identity : String)
    (path : Path) :
    Follows (.acts t publisher (.notification (.published p))) identity path := by
  obtain ⟨hconnection, hviews, hkept⟩ := tables_published t publisher p
  have hresets := resets_eq_false (.acts t publisher (.notification (.published p))) hconnection
    hviews identity path
  rw [Follows, hides_or_ends_eq_false hresets, Moment.accepted?]
  refine (hkept identity path).trans ?_
  by_cases hcounts : publisher = identity ∧ (Uri.toPath p.uri).place = path.place ∧
    t.accepts publisher p = true
  · obtain ⟨rfl, hplace, haccepts⟩ := hcounts
    rw [if_pos ⟨rfl, hplace, haccepts⟩, if_pos ⟨rfl, hplace, haccepts⟩]
    rfl
  · rw [if_neg hcounts, if_neg]
    · rfl
    · rintro ⟨rfl, hplace, haccepts⟩
      exact hcounts ⟨rfl, hplace, haccepts⟩

/-- A document loses its last view when the view that goes was the only one. -/
theorem emptied_iff {views : List ViewId} (hnodup : views.Nodup) :
    (!views.isEmpty && (views.filter (· ≠ view)).isEmpty) = true ↔ views = [view] := by
  constructor
  · intro hemptied
    simp only [Bool.and_eq_true, Bool.not_eq_true', List.isEmpty_eq_false_iff, List.isEmpty_iff,
      List.filter_eq_nil_iff, decide_eq_true_eq, not_not] at hemptied
    obtain ⟨hsome, hall⟩ := hemptied
    obtain ⟨other, hother⟩ := List.exists_mem_of_ne_nil _ hsome
    obtain rfl := hall other hother
    exact ViewTable.eq_singleton_of_forall_mem hnodup hother hall
  · rintro rfl
    simp

/-- A view that is closed hides its document when it was the only view of it. -/
theorem follows_viewClosed (ht : t.Regular named) (launch : Launcher) (view : ViewId)
    (identity : String) (path : Path) :
    Follows (.closing t launch view) identity path := by
  obtain ⟨hviews, hkept, hstands⟩ := tables_viewClosed ht view identity path
  have hends : (Moment.closing t launch view).ends identity = false :=
    ends_eq_false hstands
  have hhides : (Moment.closing t launch view).hides path = true ↔
      t.session.views.viewsOf path = [view] := by
    rw [← emptied_iff (ht.aligned.views.nodup path), ← hviews]
    rfl
  rw [Follows, hends, Bool.or_false]
  refine hkept.trans ?_
  by_cases honly : t.session.views.viewsOf path = [view]
  · rw [if_pos honly, if_pos (hhides.2 honly)]
    rfl
  · rw [if_neg honly, if_neg (mt hhides.1 honly)]
    rfl

/-- What a view shows from now on has a view, and the views of other documents stay. -/
theorem viewsOf_bindView (t : Turn) (view : ViewId) (shown : Path) (path : Path) :
    (shown.place = path.place → (t.bindView view shown).session.views.viewsOf path ≠ []) ∧
      (shown.place ≠ path.place →
        (t.bindView view shown).session.views.viewsOf path = t.session.views.viewsOf path) := by
  rw [(tables_bindView t view "" path shown).1, ViewTable.viewsOf_bind]
  refine ⟨fun hplace => ?_, fun hplace => if_neg hplace⟩
  rw [if_pos hplace]
  exact List.ne_nil_of_mem (ViewTable.mem_bound.2 (.inl rfl))

/-- No server ends when a view is opened. -/
theorem ends_viewOpened (ht : t.Regular named) (launch : Launcher) (view : ViewId) (shown : Path)
    (identity : String) : (Moment.opening t launch view shown).ends identity = false := by
  obtain ⟨u, hu, -, heq⟩ := viewOpened_eq t view shown
  have hstands := (tables_bindView u view identity shown shown).2.2
  rw [← heq] at hstands
  refine ends_eq_false fun c hc => ?_
  rcases hu with rfl | ⟨rfl, -⟩
  · exact hstands c hc
  · obtain ⟨d, hd, hdid⟩ := (tables_viewClosed ht view identity shown).2.2 c hc
    obtain ⟨d', hd', hid⟩ := hstands d hd
    exact ⟨d', hd', hid.trans hdid⟩

/-- A view that is opened on another document hides the one that it showed, when it was the only view
of it. -/
theorem hides_viewOpened_iff (ht : t.Regular named) (launch : Launcher) (view : ViewId)
    (shown path : Path) : (Moment.opening t launch view shown).hides path = true ↔
      (∃ bound, t.session.views.pathOf view = some bound ∧ bound.place ≠ shown.place) ∧
        t.session.views.viewsOf path = [view] := by
  obtain ⟨u, hu, hfree, heq⟩ := viewOpened_eq t view shown
  obtain ⟨hlisted, hothers⟩ := viewsOf_bindView u view shown path
  rw [← heq] at hlisted hothers
  have hhides : (Moment.opening t launch view shown).hides path =
      (!(t.session.views.viewsOf path).isEmpty &&
        ((t.viewOpened view shown).session.views.viewsOf path).isEmpty) := rfl
  rw [hhides]
  rcases hu with rfl | ⟨rfl, bound, hbound, hmoved⟩
  · -- nothing is unbound, so that no document loses a view
    refine iff_of_false ?_ fun hswaps => ?_
    · by_cases hplace : shown.place = path.place
      · simp [hlisted hplace]
      · simp [hothers hplace]
    · obtain ⟨⟨bound, hbound, hmoved⟩, -⟩ := hswaps
      exact hmoved (hfree bound hbound)
  · rw [and_iff_right ⟨bound, hbound, hmoved⟩]
    by_cases hplace : shown.place = path.place
    · refine iff_of_false (by simp [hlisted hplace]) fun honly => ?_
      have hmem : view ∈ t.session.views.viewsOf path := by
        rw [honly]
        exact List.mem_cons_self
      obtain ⟨other, hother, hsame⟩ := (ht.aligned.views.mem_iff view path).1 hmem
      obtain rfl := Option.some.inj (hbound.symm.trans hother)
      exact hmoved (hsame.trans hplace.symm)
    · rw [hothers hplace, (tables_viewClosed ht view "" path).1]
      exact emptied_iff (ht.aligned.views.nodup path)

/-- A view that is opened on another document closes the one that it showed, when it was the only view
of it, and nothing else is forgotten. -/
theorem follows_viewOpened (ht : t.Regular named) (launch : Launcher) (view : ViewId)
    (shown : Path) (identity : String) (path : Path) :
    Follows (.opening t launch view shown) identity path := by
  have hhides := hides_viewOpened_iff ht launch view shown path
  obtain ⟨u, hu, hfree, heq⟩ := viewOpened_eq t view shown
  obtain ⟨-, hkept, -⟩ := tables_bindView u view identity path shown
  rw [← heq] at hkept
  rw [Follows, ends_viewOpened ht, Bool.or_false]
  refine hkept.trans ?_
  change _ = if _ then [] else t.kept identity path
  rcases hu with rfl | ⟨rfl, bound, hbound, hmoved⟩
  · rw [if_neg]
    intro h
    obtain ⟨⟨bound, hbound, hmoved⟩, -⟩ := hhides.1 h
    exact hmoved (hfree bound hbound)
  · rw [and_iff_right ⟨bound, hbound, hmoved⟩] at hhides
    rw [(tables_viewClosed ht view identity path).2.1]
    simp only [hhides]

/-- At every other moment what is kept of a server stays, unless its connection ends. -/
theorem follows_of_plain (ht : mo.before.Regular named) (hmo : mo.Occurs named)
    (hpublishes : ∀ t identity p, mo ≠ .acts t identity (.notification (.published p)))
    (hhandles : ∀ view, ¬ mo.Handles view) (identity : String) (path : Path) :
    Follows mo identity path := by
  have haccepted : mo.accepted? identity path = none := by
    unfold Moment.accepted?
    split
    · exact absurd rfl (hpublishes _ _ _)
    · rfl
  have hlasts : Lasts identity path mo.before mo.after :=
    (deeds_of_occurs ht hmo).induction ht
      (fun u u' hu hdeed h => hdeed.lasts hu ht hpublishes hhandles h)
      ⟨rfl, .inl ⟨rfl, fun c hc => ⟨c, hc, rfl⟩⟩⟩
  have hhides : mo.hides path = false := by
    rw [Moment.hides, hlasts.views]
    exact Bool.not_and_self _
  rw [Follows, haccepted, hhides, Bool.false_or]
  rcases hlasts.kept with ⟨hsame, hruns⟩ | ⟨hnil, c, hc, -, hgone⟩
  · rw [ends_eq_false hruns]
    exact hsame
  · have hends : mo.ends identity = true := any_gone_iff.2 ⟨c, hc, hgone⟩
    rw [hends]
    exact hnil

/-- **At every moment what is kept of a server for a document follows what happens.** -/
theorem follows_of_occurs (ht : mo.before.Regular named) (hmo : mo.Occurs named)
    (identity : String) (path : Path) : Follows mo identity path := by
  by_cases hpublishes : ∀ t identity p, mo ≠ .acts t identity (.notification (.published p))
  · by_cases hhandles : ∀ view, ¬ mo.Handles view
    · exact follows_of_plain ht hmo hpublishes hhandles identity path
    · obtain ⟨view, hhandles⟩ := not_forall_not.1 hhandles
      cases hhandles with
      | opens => exact follows_viewOpened ht _ view _ identity path
      | closes => exact follows_viewClosed ht _ view identity path
  · simp only [ne_eq, not_forall, not_not] at hpublishes
    obtain ⟨t, publisher, p, rfl⟩ := hpublishes
    exact follows_published t publisher p identity path

/-- What counts as published at a moment is published while its document is open and stays so. -/
theorem resets_of_accepted {diagnostics : List Diagnostic}
    (h : mo.accepted? identity path = some diagnostics) :
    Publications.resets mo identity path = false := by
  unfold Moment.accepted? at h
  split at h
  · next t publisher p =>
    obtain ⟨hconnection, hviews, -⟩ := tables_published t publisher p
    exact resets_eq_false (.acts t publisher (.notification (.published p))) hconnection hviews
      identity path
  · cases h

/-- What is kept is what was published last, after as before a moment. -/
theorem kept_after_eq (ht : mo.before.Regular named) (hmo : mo.Occurs named) {ms : List Moment}
    (h : mo.before.kept identity path = Publications.latest identity path ms) :
    mo.after.kept identity path = Publications.latest identity path (ms ++ [mo]) := by
  rw [Publications.latest_concat, follows_of_occurs ht hmo identity path]
  cases haccepted : mo.accepted? identity path with
  | some diagnostics =>
    rw [resets_of_accepted haccepted]
    rfl
  | none =>
    rw [Publications.resets, Bool.or_assoc, ← h]
    change (if _ then [] else _) = if _ then [] else _
    cases hopens : mo.opens identity path with
    | false => rfl
    | true =>
      -- a document that is opened was not open, so that nothing was kept of it
      have hclosed : mo.before.hasOpen identity path = false := by
        rw [Moment.opens, Bool.and_eq_true, Bool.not_eq_true'] at hopens
        exact hopens.1
      rw [kept_eq_nil ht.aligned hclosed, ite_self]
      rfl

/-- What is kept of a server for a document is what it published last. -/
theorem Leads.kept_eq {ms : List Moment} (h : Leads named t ms t') (ht : t.Regular named)
    (hstart : t.kept identity path = []) :
    t'.kept identity path = Publications.latest identity path ms := by
  induction h with
  | start => exact hstart
  | next prior occurs ih => exact kept_after_eq (prior.regular ht) occurs ih

/-- **The diagnostics that a session keeps are the history of publications.** After every part of a
run, what is kept of a server for a document is what the server published last since the document
was last opened on its connection, of the publications that counted. A moment at which a
publication counts makes this what is kept, the loss of the last view of the document and the end
of the connection erase it, and every other moment leaves it. -/
theorem kept_eq_latest (root : Path) (settings : Settings) (processId : Nat) (catalog : Catalog)
    (buffers : Buffers) (moves : List Move) (identity : String) (path : Path) :
    let t : Turn := ⟨.new root settings processId catalog, buffers, []⟩
    (∀ ms, ms <+: t.course moves → (t.reached ms).session.diagnostics.get identity path =
        Publications.latest identity path ms) ∧
      ∀ mo ∈ t.course moves, mo.after.session.diagnostics.get identity path =
        match mo.accepted? identity path with
        | some diagnostics => diagnostics
        | none =>
          if mo.hides path || mo.ends identity then []
          else mo.before.session.diagnostics.get identity path := by
  intro t
  have ht : t.Regular fun _ => True := regular_new root settings processId catalog buffers
  refine ⟨fun ms hms => ?_, fun mo hmo => ?_⟩
  · exact (leads_reached hms).kept_eq ht rfl
  · obtain ⟨occurs, regular⟩ := (leads_reached List.prefix_rfl).mem ht hmo
    rw [← kept, follows_of_occurs regular occurs identity path]
    cases mo.accepted? identity path with
    | none => rfl
    | some diagnostics => rfl

end Turn

namespace Sample

/-- What the server of the small run finds wrong with the document, of one version if it is told. -/
def finding (version : Option Int) (message : String) : Json :=
  let start := Json.obj [("line", .int 0), ("character", .int 0)]
  .obj [("jsonrpc", .str "2.0"), ("method", .str "textDocument/publishDiagnostics"),
    ("params", .obj ([("uri", .str "file:///a")] ++
      (version.map fun n => ("version", .int n)).toList ++
      [("diagnostics", .arr [.obj [("range", .obj [("start", start), ("end", start)]),
        ("message", .str message)]])]))]

/-- The server publishes what it finds. -/
def publication (version : Option Int) (message : String) : Move :=
  .event launch (.stdout 1 (Frame.encode (finding version message)))

/-- The server publishes before and after the host changes the document, which is then closed and
opened again. -/
def reopening : List Move :=
  [publication (some 1) "first", change, publication (some 1) "stale",
    .event launch (.action (.viewClosed 1)), .event launch (.action (.viewOpened 1 path)),
    publication (some 1) "again"]

/-- A publication counts, one of a version that is past does not, and an opening starts anew. -/
example : [1, 3, 5, 6].map (fun n =>
    let ms := start.course (opening ++ reopening.take n)
    ((Publications.latest "s" path ms).map (·.message),
      ((start.reached ms).kept "s" path).map (·.message))) =
    [(["first"], ["first"]), (["first"], ["first"]), ([], []), (["again"], ["again"])] := by
  decide +kernel

end Sample
end LanguageClient
