import LanguageClient.Proofs.Session.Attention

/-!
# Open documents and the views that show them

A document is opened on servers when it comes into view and closed with its last view, so that what
servers have open is in a view. To this there is one exception, which is told here exactly
(`Turn.openUnseen_iff_askedUnseen`): a document that the host asks about while no view shows it is
opened for the question, and then stays open with no view that could close it, until one comes to
show it or the server ends (`AskedUnseen`).
-/

namespace LanguageClient

/-- Whether a document was opened on a server when the host asked about it while no view showed it,
and since then no view has come to show it and the server has not ended. -/
def AskedUnseen (identity : String) (path : Path) : List Moment → Prop :=
  Since (fun mo => mo.asksAbout path.place = true ∧ mo.opens identity path = true ∧
      mo.before.session.views.viewsOf path = [])
    fun mo => mo.after.session.views.viewsOf path ≠ [] ∨ mo.ends identity = true

instance (identity : String) (path : Path) (ms : List Moment) :
    Decidable (AskedUnseen identity path ms) :=
  inferInstanceAs (Decidable (Since _ _ ms))

namespace Turn

variable {named : Path → Prop} {opened : Place → Prop} {t t' : Turn} {mo : Moment}
  {path bound shown : Path} {identity : String} {view : ViewId} {ms : List Moment}

/-! ## Documents that are closed -/

theorem hasOpen_closeDocument (t : Turn) (bound : Path) (key identity : String) (path : Path) :
    (t.closeDocument bound key).hasOpen identity path = true ↔
      t.hasOpen identity path = true ∧ ¬ (identity = key ∧ bound.place = path.place) := by
  cases hc : t.connection key with
  | none =>
    have hsame : t.closeDocument bound key = t := by simp only [closeDocument, hc]
    rw [hsame]
    refine ⟨fun h => ⟨h, ?_⟩, And.left⟩
    rintro ⟨rfl, -⟩
    rw [hasOpen, hc] at h
    cases h
  | some c =>
    cases hclose : c.documents.close bound with
    | none =>
      have hsame : t.closeDocument bound key = t := by simp only [closeDocument, hc, hclose]
      rw [hsame]
      refine ⟨fun h => ⟨h, ?_⟩, And.left⟩
      rintro ⟨rfl, hplace⟩
      have hopen : c.documents.isOpen bound = true := by
        rw [hasOpen, hc, Option.any_some, DocumentTable.isOpen, ← hplace] at h
        exact h
      simp [DocumentTable.close, hopen] at hclose
    | some closed =>
      obtain ⟨n, documents⟩ := closed
      have heq : t.closeDocument bound key =
          t.advance key { c with documents := documents } (c.sent n) := by
        simp only [closeDocument, hc, hclose]
        exact notify_keep _ _ _ _
      have hcontains := DocumentTable.contains_close hclose path.place
      rw [heq, hasOpen, connection_advance]
      split
      · next hkey =>
        rw [← hkey, hasOpen, hc]
        simp only [Option.any_some, DocumentTable.isOpen, hcontains, true_and]
        exact and_comm
      · next hkey =>
        rw [← hasOpen]
        exact ⟨fun h => ⟨h, fun hsame => hkey hsame.1.symm⟩, And.left⟩

theorem hasOpen_foldl_closeDocument (t : Turn) (bound : Path) (identities : List String)
    (identity : String) (path : Path) :
    (identities.foldl (closeDocument · bound) t).hasOpen identity path = true ↔
      t.hasOpen identity path = true ∧ ¬ (identity ∈ identities ∧ bound.place = path.place) := by
  induction identities generalizing t with
  | nil => simp
  | cons key identities ih =>
    rw [List.foldl_cons, ih, hasOpen_closeDocument, List.mem_cons]
    tauto

/-- A document that is shut is open nowhere, and every other one where it was. -/
theorem hasOpen_shut (t : Turn) (bound : Path) (identity : String) (path : Path) :
    (t.shut bound).hasOpen identity path = true ↔
      t.hasOpen identity path = true ∧ bound.place ≠ path.place := by
  change (t.identities.foldl (closeDocument · bound) t).hasOpen identity path = true ↔ _
  rw [hasOpen_foldl_closeDocument]
  refine and_congr_right fun hopen => ?_
  obtain ⟨c, hc, -⟩ := hasOpen_iff.1 hopen
  have hmem : identity ∈ t.identities := Table.mem_keys_iff.2 ⟨c, hc⟩
  simp [hmem]

/-- A view that is closed closes the documents that it alone showed. -/
theorem hasOpen_viewClosed (ht : t.Regular named) (view : ViewId) (identity : String)
    (path : Path) : (t.viewClosed view).hasOpen identity path = true ↔
      t.hasOpen identity path = true ∧ t.session.views.viewsOf path ≠ [view] := by
  have hsound := ht.aligned.views
  obtain ⟨focused, ⟨hnone, heq⟩ | ⟨bound, last, views, hunbind, heq⟩⟩ := viewClosed_eq t view
  · have hother := hsound.not_mem_viewsOf hnone path
    have honly : t.session.views.viewsOf path ≠ [view] := by
      intro h
      exact hother (h ▸ List.mem_cons_self)
    rw [heq]
    exact ⟨fun h => ⟨h, honly⟩, And.left⟩
  · have hlast := hsound.last_iff hunbind path
    rw [heq, ne_eq, ← hlast]
    cases last with
    | true =>
      rw [if_pos rfl, hasOpen_shut]
      simp only [true_and]
      rfl
    | false =>
      simp only [Bool.false_eq_true, if_false, false_and, not_false_eq_true, and_true]
      rfl

/-! ## Documents that come into view -/

/-- Binding a view opens its document and closes nothing. -/
theorem hasOpen_bindView (t : Turn) (view : ViewId) (shown : Path) (identity : String)
    (path : Path) :
    (t.hasOpen identity path = true → (t.bindView view shown).hasOpen identity path = true) ∧
      ((t.bindView view shown).hasOpen identity path = true →
        t.hasOpen identity path = true ∨ shown.place = path.place) := by
  have hextends := extends_bindView t view shown
  refine ⟨fun hopen => (hextends.hasOpen_iff_not_gone hopen).2 ?_, hextends.hasOpen⟩
  rintro ⟨c, hc, hgone⟩
  obtain ⟨c', hc', hid⟩ := (tables_bindView t view identity path shown).2.2 c hc
  exact hgone c' hc' hid

/-! ## All moments -/

/-- Whether a document that comes to be open at a moment is asked about or in a view, and one that was
open stays so unless it loses its last view or its server ends. -/
structure Accounts (mo : Moment) (identity : String) (path : Path) : Prop where
  opens : mo.after.hasOpen identity path = true → mo.before.hasOpen identity path = true ∨
    mo.asksAbout path.place = true ∨ mo.after.session.views.viewsOf path ≠ []
  keeps : mo.before.hasOpen identity path = true →
    (mo.after.hasOpen identity path = true ↔ mo.hides path = false ∧ mo.ends identity = false)

theorem hides_eq_false (hviews : mo.after.session.views = mo.before.session.views) (path : Path) :
    mo.hides path = false := by
  rw [Moment.hides, hviews]
  exact Bool.not_and_self _

/-- The document in a view has a view. -/
theorem viewsOf_ne_nil (ht : t.session.Aligned) (hbound : t.session.views.pathOf view = some bound)
    (hplace : bound.place = path.place) : t.session.views.viewsOf path ≠ [] :=
  List.ne_nil_of_mem ((ht.views.mem_iff view path).2 ⟨bound, hbound, hplace⟩)

theorem accounts_of_attends (ht : mo.before.Regular named) (h : mo.Attends) (identity : String)
    (path : Path) : Accounts mo identity path := by
  refine ⟨fun hopen => (h.opens identity path hopen).imp_right ?_, fun hopen => ?_⟩
  · rintro (hasks | ⟨bound, hbound, hplace⟩)
    · exact .inl hasks
    · obtain ⟨view, -, hview⟩ := Option.bind_eq_some_iff.1 hbound
      rw [h.views]
      exact .inr (viewsOf_ne_nil ht.aligned hview hplace)
  · rw [h.keeps identity path hopen, hides_eq_false h.views]
    simp

theorem accounts_viewFocused (ht : t.Regular named) (launch : Launcher) (view : ViewId)
    (identity : String) (path : Path) :
    Accounts (.moves t (.event launch (.action (.viewFocused view)))) identity path := by
  have hextends := extends_viewFocused t view
  have hviews : (Moment.moves t (.event launch (.action (.viewFocused view)))).after.session.views =
      t.session.views := hextends.views
  refine ⟨fun hopen => (hextends.hasOpen hopen).imp_right ?_, fun hopen => ?_⟩
  · rintro ⟨bound, hbound, hplace⟩
    rw [hviews]
    exact .inr (viewsOf_ne_nil ht.aligned hbound hplace)
  · rw [hides_eq_false hviews, Moment.ends, Bool.eq_false_iff (b := Option.any _ _), ne_eq,
      any_gone_iff]
    exact (hextends.hasOpen_iff_not_gone hopen).trans (by simp; rfl)

theorem accounts_viewClosed (ht : t.Regular named) (launch : Launcher) (view : ViewId)
    (identity : String) (path : Path) : Accounts (.closing t launch view) identity path := by
  obtain ⟨hviews, -, hstands⟩ := tables_viewClosed ht view identity path
  have hends : (Moment.closing t launch view).ends identity = false := ends_eq_false hstands
  have hhides : (Moment.closing t launch view).hides path = true ↔
      t.session.views.viewsOf path = [view] := by
    rw [← emptied_iff (ht.aligned.views.nodup path), ← hviews]
    rfl
  have hopen := hasOpen_viewClosed ht view identity path
  refine ⟨fun hafter => .inl (hopen.1 hafter).1, fun hbefore => ?_⟩
  rw [hends, ← Bool.not_eq_true, hhides]
  exact ⟨fun hafter => ⟨(hopen.1 hafter).2, rfl⟩, fun hstays => hopen.2 ⟨hbefore, hstays.1⟩⟩

theorem accounts_viewOpened (ht : t.Regular named) (launch : Launcher) (view : ViewId)
    (shown : Path) (identity : String) (path : Path) :
    Accounts (.opening t launch view shown) identity path := by
  have hhides := hides_viewOpened_iff ht launch view shown path
  obtain ⟨u, hu, hfree, heq⟩ := viewOpened_eq t view shown
  obtain ⟨hkeeps, hopens⟩ := hasOpen_bindView u view shown identity path
  obtain ⟨hlisted, -⟩ := viewsOf_bindView u view shown path
  rw [← heq] at hkeeps hopens hlisted
  rcases hu with rfl | ⟨rfl, bound, hbound, hmoved⟩
  · refine ⟨fun hafter => (hopens hafter).imp_right fun h => .inr (hlisted h), fun hbefore => ?_⟩
    refine iff_of_true (hkeeps hbefore) ⟨?_, ends_viewOpened ht launch view shown identity⟩
    rw [← Bool.not_eq_true, hhides]
    rintro ⟨⟨bound, hbound, hmoved⟩, -⟩
    exact hmoved (hfree bound hbound)
  · have hopen := hasOpen_viewClosed ht view identity path
    rw [and_iff_right ⟨bound, hbound, hmoved⟩] at hhides
    refine ⟨fun hafter => ?_, fun hbefore => ?_⟩
    · rcases hopens hafter with hstood | hplace
      · exact .inl (hopen.1 hstood).1
      · exact .inr (.inr (hlisted hplace))
    · rw [ends_viewOpened ht, ← Bool.not_eq_true, hhides]
      refine ⟨fun hafter => ⟨?_, rfl⟩, fun hstays => hkeeps (hopen.2 ⟨hbefore, hstays.1⟩)⟩
      rcases hopens hafter with hstood | hplace
      · exact (hopen.1 hstood).2
      · -- the document that the view is opened on is not the one that it leaves
        intro honly
        have hmem : view ∈ t.session.views.viewsOf path := by
          rw [honly]
          exact List.mem_cons_self
        obtain ⟨other, hother, hsame⟩ := (ht.aligned.views.mem_iff view path).1 hmem
        obtain rfl := Option.some.inj (hbound.symm.trans hother)
        exact hmoved (hsame.trans hplace.symm)

/-- **Whatever happens at a moment accounts for the documents that are open.** -/
theorem accounts_of_occurs (ht : mo.before.Regular named) (hmo : mo.Occurs named)
    (identity : String) (path : Path) : Accounts mo identity path := by
  rcases attends_or_views ht hmo with h | ⟨t, launch, view, rfl⟩ | ⟨view, hhandles⟩
  · exact accounts_of_attends ht h identity path
  · exact accounts_viewFocused ht launch view identity path
  · cases hhandles with
    | opens => exact accounts_viewOpened ht _ view _ identity path
    | closes => exact accounts_viewClosed ht _ view identity path

/-- The views stay as they are when a document is asked about. -/
theorem views_of_asksAbout {place : Place} (ht : mo.before.Regular named) (hmo : mo.Occurs named)
    (h : mo.asksAbout place = true) : mo.after.session.views = mo.before.session.views := by
  rcases attends_or_views ht hmo with hattends | ⟨t, launch, view, rfl⟩ | ⟨view, hhandles⟩
  · exact hattends.views
  · cases h
  · cases hhandles with
    | opens => cases h
    | closes => cases h

/-! ## Runs -/

/-- Whether a server has a document open that no view shows. -/
def OpenUnseen (t : Turn) (identity : String) (path : Path) : Prop :=
  t.hasOpen identity path = true ∧ t.session.views.viewsOf path = []

/-- What a moment leaves open without a view was so before, or is asked about now. -/
theorem openUnseen_after (ht : mo.before.Regular named) (hmo : mo.Occurs named)
    (h : mo.before.OpenUnseen identity path ↔ AskedUnseen identity path ms) :
    mo.after.OpenUnseen identity path ↔ AskedUnseen identity path (ms ++ [mo]) := by
  obtain ⟨hopens, hkeeps⟩ := accounts_of_occurs ht hmo identity path
  rw [AskedUnseen, since_concat, ← AskedUnseen, ← h]
  constructor
  · rintro ⟨hopen, hunseen⟩
    cases hbefore : mo.before.hasOpen identity path with
    | false =>
      have hasks : mo.asksAbout path.place = true := by
        rcases hopens hopen with hwas | hasks | hseen
        · rw [hbefore] at hwas
          cases hwas
        · exact hasks
        · exact absurd hunseen hseen
      refine .inl ⟨hasks, ?_, ?_⟩
      · rw [Moment.opens, hbefore, hopen]
        rfl
      · rw [← views_of_asksAbout ht hmo hasks]
        exact hunseen
    | true =>
      obtain ⟨hhides, hends⟩ := (hkeeps hbefore).1 hopen
      refine .inr ⟨⟨hbefore, ?_⟩, by simp [hunseen, hends]⟩
      simpa [Moment.hides, hunseen] using hhides
  · rintro (⟨hasks, hopened, hunseen⟩ | ⟨⟨hbefore, hunseen⟩, hstays⟩)
    · rw [Moment.opens, Bool.and_eq_true] at hopened
      refine ⟨hopened.2, ?_⟩
      rw [views_of_asksAbout ht hmo hasks]
      exact hunseen
    · obtain ⟨hstill, hends⟩ := not_or.1 hstays
      have hhides : mo.hides path = false := by simp [Moment.hides, hunseen]
      exact ⟨(hkeeps hbefore).2 ⟨hhides, Bool.eq_false_iff.2 hends⟩, not_not.1 hstill⟩

theorem Leads.openUnseen_iff (h : Leads named t ms t') (ht : t.Regular named)
    (hstart : t.hasOpen identity path = false) :
    t'.OpenUnseen identity path ↔ AskedUnseen identity path ms := by
  induction h with
  | start => exact iff_of_false (by simp [OpenUnseen, hstart]) (since_nil _ _)
  | next prior occurs ih => exact openUnseen_after (prior.regular ht) occurs ih

/-- **A document that is open on a server is in a view, unless it was opened there by a question that
the host asked while no view showed it.** After every part of a run, the documents that a server has
open without a view are exactly those that were asked about so, and that no view has come to show
since, as long as the server has not ended. -/
theorem openUnseen_iff_askedUnseen (root : Path) (settings : Settings) (processId : Nat)
    (catalog : Catalog) (buffers : Buffers) (moves : List Move) (ms : List Moment)
    (hms : ms <+: course ⟨.new root settings processId catalog, buffers, []⟩ moves)
    (identity : String) (path : Path) :
    let t := reached ⟨.new root settings processId catalog, buffers, []⟩ ms
    (t.hasOpen identity path = true ∧ t.session.views.viewsOf path = []) ↔
      AskedUnseen identity path ms :=
  (leads_reached hms).openUnseen_iff (regular_new root settings processId catalog buffers) rfl

end Turn

namespace Sample

/-- The host of the small run asks for its document to be formatted without a view of it. -/
def asking : List Move :=
  let provider := Json.obj [("documentFormattingProvider", .bool true)]
  starting ++ [.event launch (.stdout 1 (Frame.encode
      (answer 1 (.obj [("capabilities", provider)])))),
    .event launch (.action (.request .format path))]

theorem openUnseen_asking :
    (start.reached (start.course asking)).hasOpen "s" path = true ∧
      (start.reached (start.course asking)).session.views.viewsOf path = [] := by
  decide +kernel

end Sample

namespace Turn

/-- The document of the small run was opened by the question, and no view shows it. -/
theorem openUnseen_iff_askedUnseen_asking :
    Sample.start.course Sample.asking <+: Sample.start.course Sample.asking ∧
      (Sample.start.reached (Sample.start.course Sample.asking)).OpenUnseen "s" Sample.path ∧
      AskedUnseen "s" Sample.path (Sample.start.course Sample.asking) := by
  have hunseen := Sample.openUnseen_asking
  have hstart : (⟨.new ⟨"/"⟩ .default 1 ⟨[]⟩, Sample.start.buffers, []⟩ : Turn) = Sample.start := rfl
  have hrun := openUnseen_iff_askedUnseen ⟨"/"⟩ .default 1 ⟨[]⟩ Sample.start.buffers Sample.asking
  -- the run is not to be opened to see that it is the one that is meant
  rw [hstart] at hrun
  exact ⟨List.prefix_rfl, hunseen, (hrun _ List.prefix_rfl "s" Sample.path).1 hunseen⟩

end Turn
end LanguageClient
