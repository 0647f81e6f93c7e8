import LanguageClient.Proofs.Session.Publications
import Mathlib.Data.List.Forall2

/-!
# What views show

A view shows of each server what the host was told last to show in it, until the view is closed
(`Display.screen`). That this is what the session keeps of the document in the view holds with one
exception, which is told here exactly (`Turn.agrees_iff_not_leftOver`): a view that showed something
and is opened on another document, of which nothing is kept, goes on showing what it showed
(`Display.LeftOver`). A server that ends and a publication clear what they leave behind.
-/

namespace LanguageClient

/-- Whether something that is shown tells of a diagnostic: it has its severity, its text and the line
where it starts. -/
structure RenderedDiagnostic.Tells (shown : RenderedDiagnostic) (d : Diagnostic) : Prop where
  severity : shown.severity = d.severity
  text : ∀ document, shown.text = (d.render document).text
  line : shown.line = d.range.start.line

/-- What a view is told to show of a server. -/
def Effect.shown? (view : ViewId) (identity : String) : Effect → Option (List RenderedDiagnostic)
  | tell (.setDiagnostics other name diagnostics) =>
    if other = view ∧ name = identity then some diagnostics else none
  | _ => none

namespace Moment

/-- What a view is told last to show of a server at a moment. -/
def shown? (mo : Moment) (view : ViewId) (identity : String) : Option (List RenderedDiagnostic) :=
  Turn.lastOf (·.shown? view identity) mo.done

/-- Whether a view is closed at a moment. -/
def closes (mo : Moment) (view : ViewId) : Bool :=
  match mo with
  | moves _ (.event _ (.action (.viewClosed other))) => other = view
  | _ => false

/-- Whether a view that shows a document is opened on another one. -/
inductive Swaps : Moment → ViewId → Prop where
  | intro {t : Turn} {launch : Launcher} {view : ViewId} {path bound : Path}
      (hbound : t.session.views.pathOf view = some bound) (hplace : bound.place ≠ path.place) :
      Swaps (.opening t launch view path) view

/-- Whether a view goes on showing of a server what it showed before a moment. -/
structure Leaves (mo : Moment) (view : ViewId) (identity : String) : Prop where
  shown : mo.shown? view identity = none
  closes : mo.closes view = false

end Moment

namespace Display

/-- Whether a list that is shown tells of the diagnostics that are kept, one by one. -/
abbrev Agrees : List RenderedDiagnostic → List Diagnostic → Prop :=
  List.Forall₂ RenderedDiagnostic.Tells

/-- What a view shows of a server after a moment: what it is told to show, or else what it showed
before unless it was closed. -/
def after (view : ViewId) (identity : String) (shown : List RenderedDiagnostic) (mo : Moment) :
    List RenderedDiagnostic :=
  (mo.shown? view identity).getD (if mo.closes view then [] else shown)

/-- What a view shows of a server after some moments. -/
def screen (view : ViewId) (identity : String) (ms : List Moment) : List RenderedDiagnostic :=
  ms.foldl (after view identity) []

/-- Whether what a view shows of a server was there before the view was opened on another document,
and nothing took its place since. -/
def LeftOver (view : ViewId) (identity : String) (ms : List Moment) : Prop :=
  ∃ earlier mo later, ms = earlier ++ mo :: later ∧ mo.Swaps view ∧
    screen view identity earlier ≠ [] ∧ ∀ mo' ∈ mo :: later, mo'.Leaves view identity

variable {view : ViewId} {identity : String} {ms : List Moment} {mo : Moment}

theorem screen_concat (view : ViewId) (identity : String) (ms : List Moment) (mo : Moment) :
    screen view identity (ms ++ [mo]) = after view identity (screen view identity ms) mo := by
  rw [screen, List.foldl_append, List.foldl_cons, List.foldl_nil, screen]

theorem after_of_leaves (h : mo.Leaves view identity) (shown : List RenderedDiagnostic) :
    after view identity shown mo = shown := by
  rw [after, h.shown, h.closes]
  rfl

/-- What is left over after a moment is what the moment leaves, if it was left over before or its
view is opened on another document now. -/
theorem leftOver_concat : LeftOver view identity (ms ++ [mo]) ↔ mo.Leaves view identity ∧
    (LeftOver view identity ms ∨ (mo.Swaps view ∧ screen view identity ms ≠ [])) := by
  constructor
  · rintro ⟨earlier, first, later, heq, hswaps, hscreen, hleaves⟩
    rcases List.eq_nil_or_concat later with rfl | ⟨later, last, rfl⟩
    · obtain ⟨rfl, hlast⟩ := List.append_inj' heq rfl
      cases hlast
      exact ⟨hleaves mo List.mem_cons_self, .inr ⟨hswaps, hscreen⟩⟩
    · rw [List.concat_eq_append, ← List.cons_append, ← List.append_assoc] at heq
      obtain ⟨rfl, hlast⟩ := List.append_inj' heq rfl
      cases hlast
      refine ⟨hleaves mo (by simp), .inl ⟨earlier, first, later, rfl, hswaps, hscreen, ?_⟩⟩
      intro mo' hmo'
      refine hleaves mo' ?_
      rw [List.concat_eq_append, ← List.cons_append]
      exact List.mem_append_left _ hmo'
  · rintro ⟨hleaves, ⟨earlier, first, later, rfl, hswaps, hscreen, hall⟩ | ⟨hswaps, hscreen⟩⟩
    · refine ⟨earlier, first, later ++ [mo], by simp, hswaps, hscreen, fun mo' hmo' => ?_⟩
      rw [← List.cons_append] at hmo'
      rcases List.mem_append.1 hmo' with hmo' | hmo'
      · exact hall mo' hmo'
      · exact List.mem_singleton.1 hmo' ▸ hleaves
    · refine ⟨ms, mo, [], rfl, hswaps, hscreen, fun mo' hmo' => ?_⟩
      exact List.mem_singleton.1 hmo' ▸ hleaves

/-- What is left over is something. -/
theorem LeftOver.screen_ne_nil (h : LeftOver view identity ms) : screen view identity ms ≠ [] := by
  induction ms using List.reverseRecOn with
  | nil =>
    obtain ⟨earlier, first, later, heq, -⟩ := h
    simp at heq
  | append_singleton ms mo ih =>
    obtain ⟨hleaves, hbefore⟩ := leftOver_concat.1 h
    rw [screen_concat, after_of_leaves hleaves]
    rcases hbefore with hbefore | ⟨-, hscreen⟩
    · exact ih hbefore
    · exact hscreen

end Display

open Display (Agrees screen LeftOver)

namespace Turn

variable {named : Path → Prop} {mo : Moment} {t t' u u' : Turn} {path : Path} {identity : String}
  {view : ViewId} {effects more first second : List Effect}

/-! ## What effects show -/

theorem tells_render (d : Diagnostic) (document : Option (List Char)) :
    (d.render document).Tells d :=
  ⟨rfl, fun _ => rfl, rfl⟩

/-- What a view is shown of a document tells of what is kept of it. -/
theorem agrees_rendered (t : Turn) (path : Path) (diagnostics : List Diagnostic) :
    Agrees (t.rendered path diagnostics) diagnostics := by
  rw [rendered, Agrees, List.forall₂_map_left_iff, List.forall₂_same]
  exact fun d _ => tells_render d _

theorem Usual.shown? {spelled : Path → Prop} {e : Effect} (h : Usual spelled t e) (view : ViewId)
    (identity : String) : e.shown? view identity = none := by
  cases h with
  | @remarks cb plain =>
    cases cb with
    | setDiagnostics other name diagnostics => exact plain.elim
    | _ => rfl
  | replaces | halts | replies | speaks => rfl

theorem shown?_writes (id : ConnectionId) (messages : List Json) :
    ∀ e ∈ messages.map (Effect.write id), e.shown? view identity = none := by
  intro e he
  obtain ⟨m, -, rfl⟩ := List.mem_map.1 he
  rfl

/-- Some views are shown one list of one server. -/
theorem lastOf_setDiagnostics (views : List ViewId) (name : String)
    (diagnostics : List RenderedDiagnostic) (view : ViewId) (identity : String) :
    lastOf (·.shown? view identity)
        (views.map fun other => .tell (.setDiagnostics other name diagnostics)) =
      if view ∈ views ∧ name = identity then some diagnostics else none := by
  have hshown : ∀ other, (Effect.tell (.setDiagnostics other name diagnostics)).shown? view identity =
      if other = view ∧ name = identity then some diagnostics else none := fun _ => rfl
  split
  · next h =>
    obtain ⟨hmem, rfl⟩ := h
    refine lastOf_eq_some (fun e he b hb => ?_) ?_
    · obtain ⟨other, -, rfl⟩ := List.mem_map.1 he
      rw [hshown] at hb
      split at hb
      · exact (Option.some.inj hb).symm
      · cases hb
    · exact ⟨_, List.mem_map.2 ⟨view, hmem, rfl⟩, (hshown view).trans (if_pos ⟨rfl, rfl⟩)⟩
  · next h =>
    refine lastOf_eq_none fun e he => ?_
    obtain ⟨other, hmem, rfl⟩ := List.mem_map.1 he
    rw [hshown, if_neg]
    rintro ⟨rfl, rfl⟩
    exact h ⟨hmem, rfl⟩

/-- Whether some effects show a view what is kept of its document after them, or show it nothing and
what is kept is the same. -/
def Refreshes (view : ViewId) (identity : String) (path : Path) (t u : Turn)
    (effects : List Effect) : Prop :=
  (lastOf (·.shown? view identity) effects = none ∧
      u.kept identity path = t.kept identity path) ∨
    ∃ shown, lastOf (·.shown? view identity) effects = some shown ∧
      Agrees shown (u.kept identity path)

theorem Refreshes.trans (h : Refreshes view identity path t u first)
    (h' : Refreshes view identity path u u' second) :
    Refreshes view identity path t u' (first ++ second) := by
  rcases h' with ⟨hnone', hsame⟩ | ⟨shown, hshown, hagrees⟩
  · rw [Refreshes, lastOf_append, hnone', Option.none_or, hsame]
    exact h
  · refine .inr ⟨shown, ?_, hagrees⟩
    rw [lastOf_append, hshown, Option.some_or]

/-! ## Moments that handle no view -/

/-- Whether a view goes on showing its document while some things are done, and is shown what is kept
of it when that changes. -/
structure Upkeep (view : ViewId) (identity : String) (t u : Turn) (more : List Effect) :
    Prop where
  grows : u.effects = t.effects ++ more
  path : u.session.views.pathOf view = t.session.views.pathOf view
  bound : ∀ path, t.session.views.pathOf view = some path →
    Refreshes view identity path t u more
  unbound : t.session.views.pathOf view = none → lastOf (·.shown? view identity) more = none

theorem Upkeep.trans (h : Upkeep view identity t u first) (h' : Upkeep view identity u u' second) :
    Upkeep view identity t u' (first ++ second) := by
  refine ⟨?_, h'.path.trans h.path, fun path hpath => ?_, fun hnone => ?_⟩
  · rw [h'.grows, h.grows, List.append_assoc]
  · refine (h.bound path hpath).trans (h'.bound path ?_)
    rw [h.path]
    exact hpath
  · rw [lastOf_append, h.unbound hnone, h'.unbound]
    · rfl
    · rw [h.path]
      exact hnone

/-- What shows nothing and touches no diagnostics is upkeep. -/
theorem upkeep_of_silent (heffects : u.effects = t.effects ++ more)
    (hviews : u.session.views = t.session.views)
    (hdiagnostics : u.session.diagnostics = t.session.diagnostics)
    (hmore : ∀ e ∈ more, e.shown? view identity = none) : Upkeep view identity t u more := by
  have hnone := lastOf_eq_none hmore
  refine ⟨heffects, by rw [hviews], fun path _ => .inl ⟨hnone, ?_⟩, fun _ => hnone⟩
  rw [kept, hdiagnostics, kept]

/-- A publication that counts is shown in every view of its document. -/
theorem upkeep_published (ht : t.session.Aligned) (publisher : String) (p : Publication) :
    ∃ more, Upkeep view identity t (t.published publisher p) more := by
  obtain ⟨-, hviews, hkept⟩ := tables_published t publisher p
  cases haccepts : t.accepts publisher p with
  | false =>
    rw [published_of_not_accepts haccepts]
    exact ⟨[], upkeep_of_silent (List.append_nil _).symm rfl rfl (by simp)⟩
  | true =>
    have heffects := congrArg Turn.effects (published_of_accepts haccepts)
    have hlast := lastOf_setDiagnostics (t.session.views.viewsOf (Uri.toPath p.uri)) publisher
      (t.rendered (Uri.toPath p.uri) (p.diagnostics.map Diagnostic.ofPublished)) view identity
    refine ⟨_, heffects, by rw [hviews], fun path hpath => ?_, fun hnone => ?_⟩
    · have hmem := ht.views.mem_iff view (Uri.toPath p.uri)
      have hkept := hkept identity path
      rw [Refreshes, hlast, hkept, haccepts]
      by_cases hpublishes : publisher = identity ∧ (Uri.toPath p.uri).place = path.place
      · obtain ⟨hpublisher, hplace⟩ := hpublishes
        rw [if_pos ⟨hmem.2 ⟨path, hpath, hplace.symm⟩, hpublisher⟩, if_pos ⟨hpublisher, hplace, rfl⟩]
        exact .inr ⟨_, rfl, agrees_rendered t _ _⟩
      · rw [if_neg, if_neg]
        · exact .inl ⟨rfl, rfl⟩
        · rintro ⟨hpublisher, hplace, -⟩
          exact hpublishes ⟨hpublisher, hplace⟩
        · rintro ⟨hshown, hpublisher⟩
          obtain ⟨other, hother, hplace⟩ := hmem.1 hshown
          obtain rfl := Option.some.inj (hpath.symm.trans hother)
          exact hpublishes ⟨hpublisher, hplace.symm⟩
    · rw [hlast, if_neg]
      rintro ⟨hshown, -⟩
      exact ht.views.not_mem_viewsOf hnone _ hshown

/-- A view shows something of a server when something is kept of the document in it. -/
theorem mem_showing (ht : t.session.Aligned) (hpath : t.session.views.pathOf view = some path)
    (hkept : t.kept identity path ≠ []) : view ∈ t.showing identity := by
  cases hentry : t.session.diagnostics.entries.get? (identity, path.place) with
  | none =>
    refine absurd ?_ hkept
    rw [kept, DiagnosticStore.get, hentry]
    rfl
  | some entry =>
    obtain ⟨hplace, -, -⟩ := ht.diagnosed identity path.place entry hentry
    have hfound := Table.get?_filter t.session.diagnostics.entries
      (fun key => decide (key.1 = identity)) (identity, path.place)
    rw [if_pos (decide_eq_true rfl), hentry] at hfound
    refine List.mem_flatMap.2 ⟨entry.path, List.mem_map.2 ⟨entry, ?_, rfl⟩, ?_⟩
    · exact Table.mem_values_iff.2 ⟨(identity, path.place), hfound⟩
    · exact (ht.views.mem_iff view entry.path).2 ⟨path, hpath, hplace.symm⟩

/-- A server that ends is cleared from every view that shows something of it. -/
theorem upkeep_teardown {c : Connection} {other : String} (ht : t.session.Aligned)
    (hc : t.connection other = some c) :
    ∃ more, Upkeep view identity t (t.teardown other) more := by
  have hteardown := teardown_eq hc
  have hpath := congrArg (·.session.views.pathOf view) hteardown
  have hkept : ∀ path, (t.teardown other).kept identity path =
      if identity = other then [] else t.kept identity path := by
    intro path
    rw [hteardown]
    exact DiagnosticStore.get_removeConnection t.session.diagnostics other identity path
  have hlast : lastOf (·.shown? view identity) (.retire c.id ::
      (t.showing other).map fun view => .tell (.setDiagnostics view other [])) =
      if view ∈ t.showing other ∧ other = identity then some [] else none := by
    rw [← List.singleton_append, lastOf_append, lastOf_singleton]
    exact (Option.or_none).trans (lastOf_setDiagnostics (t.showing other) other [] view identity)
  refine ⟨_, congrArg Turn.effects hteardown, hpath, fun path hpath => ?_, fun hnone => ?_⟩
  · rw [Refreshes, hlast, hkept]
    by_cases hother : other = identity
    · subst hother
      rw [if_pos rfl]
      by_cases hshown : view ∈ t.showing other
      · rw [if_pos ⟨hshown, rfl⟩]
        exact .inr ⟨[], rfl, .nil⟩
      · -- a view that is not cleared has nothing to show of the server
        rw [if_neg fun h => hshown h.1]
        refine .inl ⟨rfl, ?_⟩
        by_contra hsome
        exact hshown (mem_showing ht hpath (Ne.symm hsome))
    · rw [if_neg (Ne.symm hother), if_neg fun h => hother h.2]
      exact .inl ⟨rfl, rfl⟩
  · rw [hlast, if_neg]
    rintro ⟨hshown, -⟩
    obtain ⟨shown, -, hmem⟩ := List.mem_flatMap.1 hshown
    exact ht.views.not_mem_viewsOf hnone shown hmem

/-- Each deed of a moment that handles no view is upkeep. -/
theorem Deed.upkeep (hdeed : Deed named mo u u') (hu : u.Regular named)
    (hhandles : ∀ view, ¬ mo.Handles view) (view : ViewId) (identity : String) :
    ∃ more, Upkeep view identity u u' more := by
  cases hdeed with
  | routine hroutine regular =>
    obtain ⟨more, heffects, hmore⟩ := hroutine.effects
    exact ⟨more, upkeep_of_silent heffects hroutine.views hroutine.diagnostics
      fun e he => (hmore e he).shown? view identity⟩
  | publishes hmo => exact upkeep_published hu.aligned _ _
  | binds handles | unbinds handles | shows handles => exact absurd handles (hhandles _)
  | launches => exact ⟨_, upkeep_of_silent rfl rfl rfl fun e he => List.mem_singleton.1 he ▸ rfl⟩
  | enters =>
    refine ⟨_, upkeep_of_silent (List.append_assoc _ _ _) rfl rfl fun e he => ?_⟩
    rcases List.mem_append.1 he with he | he
    · exact List.mem_singleton.1 he ▸ rfl
    · exact shown?_writes _ _ e he
  | greets =>
    refine ⟨_, upkeep_of_silent (List.append_assoc _ _ _) rfl rfl fun e he => ?_⟩
    rcases List.mem_append.1 he with he | he
    · exact shown?_writes _ _ e he
    · exact List.mem_singleton.1 he ▸ rfl
  | @ends other c messages hc _ =>
    have hwritten : Upkeep view identity u (u.write c.id messages) (messages.map (.write c.id)) :=
      upkeep_of_silent rfl rfl rfl (shown?_writes c.id messages)
    obtain ⟨more, htorn⟩ := upkeep_teardown (t := u.write c.id messages) hu.aligned hc
    exact ⟨_, hwritten.trans htorn⟩

/-! ## Moments that open or close a view -/

/-- A view that is closed is shown nothing, nor is any other. -/
theorem effects_viewClosed (ht : t.Regular named) (closed : ViewId) :
    ∃ more, (t.viewClosed closed).effects = t.effects ++ more ∧
      ∀ e ∈ more, ∀ view identity, e.shown? view identity = none := by
  obtain ⟨focused, ⟨-, heq⟩ | ⟨path, last, views, -, hroutine, -⟩⟩ :=
    viewClosed_cases ht (fun _ => True) fun path (_ : t.session.views.pathOf closed = some path) =>
      trivial
  · rw [heq]
    exact ⟨[], (List.append_nil _).symm, by simp⟩
  · obtain ⟨more, heffects, hmore⟩ := hroutine.effects
    exact ⟨more, heffects, fun e he => (hmore e he).shown?⟩

theorem pathOf_viewClosed_of_ne (ht : t.Regular named) {closed : ViewId} (hne : closed ≠ view) :
    (t.viewClosed closed).session.views.pathOf view = t.session.views.pathOf view := by
  obtain ⟨focused, ⟨-, heq⟩ | ⟨path, last, views, hunbind, hroutine, -⟩⟩ :=
    viewClosed_cases ht (fun _ => True) fun path (_ : t.session.views.pathOf closed = some path) =>
      trivial
  · rw [heq]
    rfl
  · rw [hroutine.views]
    exact ((ViewTable.pathOf_unbind hunbind view).2).trans (if_neg hne)

/-- Another view that is closed takes nothing from a view. -/
theorem upkeep_viewClosed (ht : t.Regular named) {closed : ViewId} (hne : closed ≠ view) :
    ∃ more, Upkeep view identity t (t.viewClosed closed) more := by
  obtain ⟨more, heffects, hsilent⟩ := effects_viewClosed ht closed
  have hnone : lastOf (·.shown? view identity) more = none :=
    lastOf_eq_none fun e he => hsilent e he view identity
  refine ⟨more, heffects, pathOf_viewClosed_of_ne ht hne, fun path hpath => ?_, fun _ => hnone⟩
  have hmem : view ∈ t.session.views.viewsOf path :=
    (ht.aligned.views.mem_iff view path).2 ⟨path, hpath, rfl⟩
  refine .inl ⟨hnone, ?_⟩
  rw [(tables_viewClosed ht closed identity path).2.1, if_neg]
  intro honly
  rw [honly] at hmem
  exact hne (List.mem_singleton.1 hmem).symm

/-- What is known of a document, as a view of it is told. -/
def known (t : Turn) (view : ViewId) (path : Path) (u : Turn) : List Effect :=
  (t.session.diagnostics.forPath path).map fun known =>
    .tell (.setDiagnostics view known.1 (u.rendered path known.2))

/-- What a view is told is known of a document is what is kept of it. -/
theorem agrees_known (t : Turn) (view : ViewId) (identity : String) (path : Path) (u : Turn) :
    (lastOf (·.shown? view identity) (t.known view path u) = none ∧ t.kept identity path = []) ∨
      ∃ shown, lastOf (·.shown? view identity) (t.known view path u) = some shown ∧
        Agrees shown (t.kept identity path) := by
  have hshown : ∀ other name diagnostics,
      (Effect.tell (.setDiagnostics other name diagnostics)).shown? view identity =
        if other = view ∧ name = identity then some diagnostics else none := fun _ _ _ => rfl
  rw [kept, DiagnosticStore.get]
  cases hentry : t.session.diagnostics.entries.get? (identity, path.place) with
  | none =>
    refine .inl ⟨lastOf_eq_none fun e he => ?_, rfl⟩
    obtain ⟨⟨name, diagnostics⟩, hmem, rfl⟩ := List.mem_map.1 he
    rw [hshown, if_neg]
    rintro ⟨-, rfl⟩
    obtain ⟨entry, hentry', -⟩ := DiagnosticStore.mem_forPath.1 hmem
    rw [hentry] at hentry'
    cases hentry'
  | some entry =>
    refine .inr ⟨u.rendered path entry.diagnostics, lastOf_eq_some (fun e he b hb => ?_) ?_,
      agrees_rendered u path _⟩
    · obtain ⟨⟨name, diagnostics⟩, hmem, rfl⟩ := List.mem_map.1 he
      rw [hshown] at hb
      split at hb
      · next heq =>
        obtain ⟨-, rfl⟩ := heq
        obtain ⟨entry', hentry', rfl⟩ := DiagnosticStore.mem_forPath.1 hmem
        obtain rfl := Option.some.inj (hentry.symm.trans hentry')
        exact (Option.some.inj hb).symm
      · cases hb
    · have hmem : (identity, entry.diagnostics) ∈ t.session.diagnostics.forPath path :=
        DiagnosticStore.mem_forPath.2 ⟨entry, hentry, rfl⟩
      exact ⟨_, List.mem_map.2 ⟨_, hmem, rfl⟩, (hshown _ _ _).trans (if_pos ⟨rfl, rfl⟩)⟩

/-- A view that is bound is told last what is known of its document. -/
theorem effects_bindView (t : Turn) (view : ViewId) (path : Path) :
    ∃ silent u, (t.bindView view path).effects = t.effects ++ (silent ++ t.known view path u) ∧
      ∀ e ∈ silent, ∀ view identity, e.shown? view identity = none := by
  obtain ⟨u, hroutine, heq⟩ := bindView_eq t view path
  obtain ⟨silent, heffects, hsilent⟩ := hroutine.effects
  refine ⟨silent, u, ?_, fun e he => (hsilent e he).shown?⟩
  rw [heq, showKnownDiagnostics_eq, known, ← List.append_assoc]
  change u.effects ++ _ = _
  rw [heffects, hroutine.diagnostics]
  rfl

/-- Other views are shown nothing when a view is bound. -/
theorem upkeep_bindView (t : Turn) {bound : ViewId} (hne : bound ≠ view) (shown : Path) :
    ∃ more, Upkeep view identity t (t.bindView bound shown) more := by
  obtain ⟨silent, u, heffects, hsilent⟩ := effects_bindView t bound shown
  have hnone : lastOf (·.shown? view identity) (silent ++ t.known bound shown u) = none := by
    refine lastOf_eq_none fun e he => ?_
    rcases List.mem_append.1 he with he | he
    · exact hsilent e he view identity
    · obtain ⟨known, -, rfl⟩ := List.mem_map.1 he
      exact if_neg fun h => hne h.1
  refine ⟨_, heffects, ?_, fun path _ => .inl ⟨hnone, ?_⟩, fun _ => hnone⟩
  · rw [(tables_bindView t bound identity shown shown).1, ViewTable.pathOf_bind, if_neg hne]
  · exact (tables_bindView t bound identity path shown).2.1

/-- A view that is opened does not matter to other views. -/
theorem upkeep_viewOpened (ht : t.Regular named) {opened : ViewId} (hne : opened ≠ view)
    (shown : Path) : ∃ more, Upkeep view identity t (t.viewOpened opened shown) more := by
  obtain ⟨u, hu, -, heq⟩ := viewOpened_eq t opened shown
  obtain ⟨second, hbound⟩ : ∃ more, Upkeep view identity u (u.bindView opened shown) more :=
    upkeep_bindView u hne shown
  rw [heq]
  rcases hu with rfl | ⟨rfl, -⟩
  · exact ⟨second, hbound⟩
  · obtain ⟨first, hclosed⟩ : ∃ more, Upkeep view identity t (t.viewClosed opened) more :=
      upkeep_viewClosed ht hne
    exact ⟨first ++ second, hclosed.trans hbound⟩

/-- A view that is opened shows what is kept of its document, where something is kept. -/
theorem agrees_viewOpened (ht : t.Regular named) (view : ViewId) (identity : String)
    (path : Path) : ∃ more, (t.viewOpened view path).effects = t.effects ++ more ∧
      ((lastOf (·.shown? view identity) more = none ∧
          (t.viewOpened view path).kept identity path = []) ∨
        ∃ shown, lastOf (·.shown? view identity) more = some shown ∧
          Agrees shown ((t.viewOpened view path).kept identity path)) := by
  obtain ⟨u, hu, -, heq⟩ := viewOpened_eq t view path
  obtain ⟨silent, u', heffects, hsilent⟩ := effects_bindView u view path
  have hkept := (tables_bindView u view identity path path).2.1
  have hfirst : ∃ first, u.effects = t.effects ++ first ∧
      ∀ e ∈ first, ∀ view identity, e.shown? view identity = none := by
    rcases hu with rfl | ⟨rfl, -⟩
    · exact ⟨[], (List.append_nil _).symm, by simp⟩
    · exact effects_viewClosed ht view
  obtain ⟨first, hfirst, hquiet⟩ := hfirst
  have hlast : lastOf (·.shown? view identity) (first ++ (silent ++ u.known view path u')) =
      lastOf (·.shown? view identity) (u.known view path u') := by
    rw [lastOf_append, lastOf_append, lastOf_eq_none fun e he => hsilent e he view identity,
      lastOf_eq_none fun e he => hquiet e he view identity, Option.or_none, Option.or_none]
  refine ⟨first ++ (silent ++ u.known view path u'), ?_, ?_⟩
  · rw [heq, heffects, hfirst, List.append_assoc]
  · rw [heq, hlast, hkept]
    exact agrees_known u view identity path u'

/-! ## All moments -/

/-- A moment that does not handle a view is upkeep for it. -/
theorem upkeep_of_occurs (ht : mo.before.Regular named) (hmo : mo.Occurs named)
    (hhandles : ¬ mo.Handles view) (identity : String) :
    Upkeep view identity mo.before mo.after mo.done := by
  have hsome : ∃ more, Upkeep view identity mo.before mo.after more := by
    by_cases hother : ∀ other, ¬ mo.Handles other
    · exact (deeds_of_occurs ht hmo).induction
        (P := fun u => ∃ more, Upkeep view identity mo.before u more) ht
        (fun u u' hu hdeed hbefore => by
          obtain ⟨first, hfirst⟩ := hbefore
          obtain ⟨second, hsecond⟩ := hdeed.upkeep hu hother view identity
          exact ⟨first ++ second, hfirst.trans hsecond⟩)
        ⟨[], upkeep_of_silent (List.append_nil _).symm rfl rfl (by simp)⟩
    · obtain ⟨other, hother⟩ := not_forall_not.1 hother
      have hne : other ≠ view := by
        rintro rfl
        exact hhandles hother
      cases hother with
      | @opens t launch other path =>
        change ∃ more, Upkeep view identity t (t.viewOpened other path) more
        exact upkeep_viewOpened ht hne path
      | closes => exact upkeep_viewClosed ht hne
  obtain ⟨more, hmore⟩ := hsome
  have hdone : mo.done = more := added_of_effects_eq hmore.grows
  rw [hdone]
  exact hmore

/-- What holds of a view and a server after some moments. -/
structure Displays (view : ViewId) (identity : String) (t : Turn) (ms : List Moment) : Prop where
  unbound : t.session.views.pathOf view = none → screen view identity ms = []
  leftOver : LeftOver view identity ms →
    ∀ path, t.session.views.pathOf view = some path → t.kept identity path = []
  agrees : ¬ LeftOver view identity ms →
    ∀ path, t.session.views.pathOf view = some path →
      Agrees (screen view identity ms) (t.kept identity path)

variable {ms : List Moment}

theorem not_leftOver_of_shown {shown : List RenderedDiagnostic}
    (h : mo.shown? view identity = some shown) : ¬ LeftOver view identity (ms ++ [mo]) := by
  intro hleft
  have hnone := (Display.leftOver_concat.1 hleft).1.shown
  rw [hnone] at h
  cases h

theorem screen_of_shown {shown : List RenderedDiagnostic}
    (h : mo.shown? view identity = some shown) : screen view identity (ms ++ [mo]) = shown := by
  rw [Display.screen_concat, Display.after, h]
  rfl

/-- A moment that does not handle a view keeps what it shows in step with what is kept. -/
theorem Displays.upkeep (h : mo.before.Displays view identity ms)
    (hupkeep : Upkeep view identity mo.before mo.after mo.done) (hhandles : ¬ mo.Handles view) :
    mo.after.Displays view identity (ms ++ [mo]) := by
  have hcloses : mo.closes view = false := by
    unfold Moment.closes
    split
    · next other =>
      refine decide_eq_false ?_
      rintro rfl
      exact hhandles .closes
    · rfl
  have hswaps : ¬ mo.Swaps view := by
    rintro ⟨⟩
    exact hhandles .opens
  have hleft : mo.shown? view identity = none →
      screen view identity (ms ++ [mo]) = screen view identity ms ∧
        (LeftOver view identity (ms ++ [mo]) ↔ LeftOver view identity ms) := by
    intro hnone
    have hleaves : mo.Leaves view identity := ⟨hnone, hcloses⟩
    refine ⟨?_, ?_⟩
    · rw [Display.screen_concat, Display.after_of_leaves hleaves]
    · rw [Display.leftOver_concat, and_iff_right hleaves, or_iff_left fun h => hswaps h.1]
  refine ⟨fun hnone => ?_, fun hover path hpath => ?_, fun hover path hpath => ?_⟩
  · rw [hupkeep.path] at hnone
    rw [(hleft (hupkeep.unbound hnone)).1]
    exact h.unbound hnone
  · rw [hupkeep.path] at hpath
    rcases hupkeep.bound path hpath with ⟨hnone, hsame⟩ | ⟨shown, hshown, -⟩
    · rw [hsame]
      exact h.leftOver ((hleft hnone).2.1 hover) path hpath
    · exact absurd hover (not_leftOver_of_shown hshown)
  · rw [hupkeep.path] at hpath
    rcases hupkeep.bound path hpath with ⟨hnone, hsame⟩ | ⟨shown, hshown, hagrees⟩
    · obtain ⟨hscreen, hiff⟩ := hleft hnone
      rw [hsame, hscreen]
      exact h.agrees (fun hbefore => hover (hiff.2 hbefore)) path hpath
    · rw [screen_of_shown hshown]
      exact hagrees

/-- A view that is closed shows nothing. -/
theorem displays_viewClosed (ht : t.Regular named) (launch : Launcher) :
    (t.viewClosed view).Displays view identity
      (ms ++ [.closing t launch view]) := by
  have hnone := pathOf_viewClosed t view
  obtain ⟨more, heffects, hsilent⟩ := effects_viewClosed ht view
  refine ⟨fun _ => ?_, fun _ path hpath => ?_, fun _ path hpath => ?_⟩
  · have hshown : (Moment.closing t launch view).shown? view identity = none := by
      have hdone : (Moment.closing t launch view).done = more := added_of_effects_eq heffects
      rw [Moment.shown?, hdone]
      exact lastOf_eq_none fun e he => hsilent e he view identity
    have hcloses : (Moment.closing t launch view).closes view = true := decide_eq_true rfl
    rw [Display.screen_concat, Display.after, hshown, hcloses]
    rfl
  · rw [hnone] at hpath
    cases hpath
  · rw [hnone] at hpath
    cases hpath

/-- All that is kept stays when a view is opened on the document that it shows. -/
theorem kept_viewOpened {bound : Path} (hbound : t.session.views.pathOf view = some bound)
    (hplace : bound.place = path.place) :
    (t.viewOpened view path).kept identity path = t.kept identity bound := by
  obtain ⟨u, hu, -, heq⟩ := viewOpened_eq t view path
  rw [heq, (tables_bindView u view identity path path).2.1]
  rcases hu with rfl | ⟨-, other, hother, hne⟩
  · rw [kept, kept, DiagnosticStore.get, DiagnosticStore.get, hplace]
  · obtain rfl := Option.some.inj (hbound.symm.trans hother)
    exact absurd hplace hne

/-- Where nothing is left over, nothing was shown before a view is opened on a document of which
nothing is kept. -/
theorem Displays.screen_eq_nil (h : t.Displays view identity ms) (launch : Launcher)
    (hnothing : (t.viewOpened view path).kept identity path = [])
    (hover : ¬ LeftOver view identity ms)
    (hswaps : ¬ ((Moment.opening t launch view path).Swaps view ∧ screen view identity ms ≠ [])) :
    screen view identity ms = [] := by
  cases hbefore : t.session.views.pathOf view with
  | none => exact h.unbound hbefore
  | some bound =>
    by_cases hplace : bound.place = path.place
    · have hagrees := h.agrees hover bound hbefore
      rw [← kept_viewOpened hbefore hplace, hnothing] at hagrees
      exact List.forall₂_nil_right_iff.1 hagrees
    · by_contra hsome
      exact hswaps ⟨.intro hbefore hplace, hsome⟩

/-- A view that is opened shows what is kept of its document, or what it showed of another if nothing
is kept. -/
theorem Displays.viewOpened (h : t.Displays view identity ms) (ht : t.Regular named)
    (launch : Launcher) (path : Path) :
    (t.viewOpened view path).Displays view identity
      (ms ++ [.opening t launch view path]) := by
  obtain ⟨more, heffects, hshows⟩ := agrees_viewOpened ht view identity path
  have hbound : (t.viewOpened view path).session.views.pathOf view = some path := by
    obtain ⟨u, -, -, heq⟩ := viewOpened_eq t view path
    rw [heq, (tables_bindView u view identity path path).1, ViewTable.pathOf_bind, if_pos rfl]
  have hdone : (Moment.opening t launch view path).done = more := added_of_effects_eq heffects
  have hshown? : (Moment.opening t launch view path).shown? view identity =
      lastOf (·.shown? view identity) more := by
    rw [Moment.shown?, hdone]
  rcases hshows with ⟨hnone, hnothing⟩ | ⟨shown, hshown, hagrees⟩
  · rw [← hshown?] at hnone
    have hleaves : (Moment.opening t launch view path).Leaves view identity := ⟨hnone, rfl⟩
    refine ⟨fun hfree => ?_, fun _ other hother => ?_, fun hover other hother => ?_⟩
    · rw [hbound] at hfree
      cases hfree
    · obtain rfl := Option.some.inj (hbound.symm.trans hother)
      exact hnothing
    · obtain rfl := Option.some.inj (hbound.symm.trans hother)
      rw [Display.leftOver_concat, and_iff_right hleaves, not_or] at hover
      rw [hnothing, Display.screen_concat, Display.after_of_leaves hleaves,
        h.screen_eq_nil launch hnothing hover.1 hover.2]
      exact .nil
  · rw [← hshown?] at hshown
    refine ⟨fun hfree => ?_, fun hover => ?_, fun _ other hother => ?_⟩
    · rw [hbound] at hfree
      cases hfree
    · exact absurd hover (not_leftOver_of_shown hshown)
    · obtain rfl := Option.some.inj (hbound.symm.trans hother)
      rw [screen_of_shown hshown]
      exact hagrees

theorem Displays.after (h : mo.before.Displays view identity ms) (ht : mo.before.Regular named)
    (hmo : mo.Occurs named) : mo.after.Displays view identity (ms ++ [mo]) := by
  by_cases hhandles : mo.Handles view
  · cases hhandles with
    | @opens t launch view path =>
      change (t.viewOpened view path).Displays view identity _
      exact h.viewOpened ht launch path
    | closes => exact displays_viewClosed ht _
  · exact h.upkeep (upkeep_of_occurs ht hmo hhandles identity) hhandles

/-- **What views show stays in step with what is kept**, but for what is left over. -/
theorem Leads.displays (h : Leads named t ms t') (ht : t.Regular named)
    (hstart : t.Displays view identity []) : t'.Displays view identity ms := by
  induction h with
  | start => exact hstart
  | next prior occurs ih => exact ih.after (prior.regular ht) occurs

/-- A view of a new session shows nothing. -/
theorem displays_new (root : Path) (settings : Settings) (processId : Nat) (catalog : Catalog)
    (buffers : Buffers) (view : ViewId) (identity : String) :
    Displays view identity ⟨.new root settings processId catalog, buffers, []⟩ [] := by
  refine ⟨fun _ => rfl, fun _ path hpath => ?_, fun _ path hpath => ?_⟩
  · cases hpath
  · cases hpath

/-- **A view shows of a server what is kept of its document, unless something is left over from a
document that it showed before.** Then it shows that, and nothing is kept of the document that it
shows now. -/
theorem agrees_iff_not_leftOver (root : Path) (settings : Settings) (processId : Nat)
    (catalog : Catalog) (buffers : Buffers) (moves : List Move) (ms : List Moment)
    (hms : ms <+: course ⟨.new root settings processId catalog, buffers, []⟩ moves)
    (view : ViewId) (identity : String) (path : Path)
    (hpath : (reached ⟨.new root settings processId catalog, buffers, []⟩
      ms).session.views.pathOf view = some path) :
    let t := reached ⟨.new root settings processId catalog, buffers, []⟩ ms
    (Agrees (screen view identity ms) (t.session.diagnostics.get identity path) ↔
        ¬ LeftOver view identity ms) ∧
      (LeftOver view identity ms →
        screen view identity ms ≠ [] ∧ t.session.diagnostics.get identity path = []) := by
  intro t
  have hdisplays : t.Displays view identity ms := (leads_reached hms).displays
    (regular_new root settings processId catalog buffers)
    (displays_new root settings processId catalog buffers view identity)
  have hover : LeftOver view identity ms →
      screen view identity ms ≠ [] ∧ t.session.diagnostics.get identity path = [] :=
    fun hleft => ⟨hleft.screen_ne_nil, hdisplays.leftOver hleft path hpath⟩
  refine ⟨⟨fun hagrees hleft => ?_, fun hnot => hdisplays.agrees hnot path hpath⟩, hover⟩
  obtain ⟨hscreen, hnothing⟩ := hover hleft
  rw [hnothing] at hagrees
  exact hscreen (List.forall₂_nil_right_iff.1 hagrees)

end Turn

namespace Sample

/-- The server of the small run has something to say of the document. -/
def complaint : Json := finding none "broken"

/-- The small run opens its document, hears what is wrong with it, and opens its view on another. -/
def swapping : List Move :=
  opening ++ [.event launch (.stdout 1 (Frame.encode complaint)),
    .event launch (.action (.viewOpened 1 ⟨"/b"⟩))]

/-- The view of the small run shows what is wrong with one document, and is bound to the other, of
which nothing is kept. -/
theorem shown_swapping :
    let ms := start.course swapping
    let t := start.reached ms
    t.session.views.pathOf 1 = some ⟨"/b"⟩ ∧ t.session.diagnostics.get "s" ⟨"/b"⟩ = [] ∧
      (screen 1 "s" ms).map (·.text) = ["broken"] := by
  decide +kernel

end Sample

namespace Turn

/-- A view of the small run goes on showing what is wrong with the document that it left. -/
theorem agrees_iff_not_leftOver_swapping :
    Sample.start.course Sample.swapping <+: Sample.start.course Sample.swapping ∧
      (Sample.start.reached (Sample.start.course Sample.swapping)).session.views.pathOf 1 =
        some ⟨"/b"⟩ ∧
      (Agrees (screen 1 "s" (Sample.start.course Sample.swapping))
        ((Sample.start.reached
          (Sample.start.course Sample.swapping)).session.diagnostics.get "s" ⟨"/b"⟩) ↔
        ¬ LeftOver 1 "s" (Sample.start.course Sample.swapping)) ∧
      LeftOver 1 "s" (Sample.start.course Sample.swapping) := by
  obtain ⟨hpath, hkept, hshown⟩ := Sample.shown_swapping
  have hstart : (⟨.new ⟨"/"⟩ .default 1 ⟨[]⟩, Sample.start.buffers, []⟩ : Turn) = Sample.start := rfl
  have hrun := agrees_iff_not_leftOver ⟨"/"⟩ .default 1 ⟨[]⟩ Sample.start.buffers Sample.swapping
  -- the run is not to be opened to see that it is the one that is meant
  rw [hstart] at hrun
  obtain ⟨hiff, -⟩ := hrun _ List.prefix_rfl 1 "s" _ hpath
  refine ⟨List.prefix_rfl, hpath, hiff, ?_⟩
  by_contra hnot
  have hagrees := hiff.2 hnot
  rw [hkept] at hagrees
  rw [List.forall₂_nil_right_iff.1 hagrees] at hshown
  cases hshown

end Turn
end LanguageClient
