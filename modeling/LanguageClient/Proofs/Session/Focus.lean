import LanguageClient.Proofs.Session.Attention
import LanguageClient.Proofs.Session.Display

/-!
# The view in focus when a server becomes active

A server that becomes active gets to know the document in the focused view. That this is so for the
view that was focused last and is still open has one exception, which is told here exactly
(`Turn.isOpen_iff_not_moved`): a view that was opened on another document since it was focused has
lost its focus (`Moved`), so that the document that it shows is not opened.
-/

namespace LanguageClient

namespace Moment

/-- Whether a view that shows a document is opened on another one, as a test. -/
def swaps (mo : Moment) (view : ViewId) : Bool :=
  match mo with
  | moves t (.event _ (.action (.viewOpened other path))) =>
    other = view && (t.session.views.pathOf other).any (·.place ≠ path.place)
  | _ => false

theorem swaps_iff {mo : Moment} {view : ViewId} : mo.swaps view = true ↔ mo.Swaps view := by
  constructor
  · intro h
    unfold swaps at h
    split at h
    · next t launch other path =>
      simp only [Bool.and_eq_true, decide_eq_true_eq, Option.any_eq_true] at h
      obtain ⟨rfl, bound, hbound, hplace⟩ := h
      exact .intro hbound hplace
    · cases h
  · rintro ⟨hbound, hplace⟩
    simp [swaps, hbound, hplace]

instance (mo : Moment) (view : ViewId) : Decidable (mo.Swaps view) :=
  decidable_of_iff _ swaps_iff

end Moment

/-- Whether a view is the one that was focused last, and it has not been closed since. -/
def Focused (view : ViewId) : List Moment → Prop :=
  Since (fun mo => mo.focuses? = some view) fun mo => mo.closes view = true ∨ mo.focuses? ≠ none

/-- Whether a view was opened on another document than it showed, and has not been focused since. -/
def Moved (view : ViewId) : List Moment → Prop :=
  Since (fun mo => mo.Swaps view) fun mo => mo.focuses? = some view

instance (view : ViewId) (ms : List Moment) : Decidable (Focused view ms) :=
  inferInstanceAs (Decidable (Since _ _ ms))

instance (view : ViewId) (ms : List Moment) : Decidable (Moved view ms) :=
  inferInstanceAs (Decidable (Since _ _ ms))

namespace Turn

variable {named : Path → Prop} {t t' : Turn} {mo : Moment} {path : Path} {identity : String}
  {c : Connection} {view other : ViewId} {ms : List Moment}

/-! ## The focus of a session -/

theorem focused_foldl_closeDocument (t : Turn) (path : Path) (identities : List String) :
    (identities.foldl (closeDocument · path) t).session.focused = t.session.focused := by
  refine List.foldlRecOn (motive := fun u : Turn => u.session.focused = t.session.focused)
    identities _ rfl fun u hu identity _ => ?_
  rcases closeDocument_cases u path identity with heq | ⟨c, n, documents, -, -, heq⟩
  · rw [heq]
    exact hu
  · rw [heq]
    exact hu

/-- A view that is closed loses its focus. -/
theorem focused_viewClosed (t : Turn) (view : ViewId) : (t.viewClosed view).session.focused =
    if t.session.focused = some view then none else t.session.focused := by
  unfold viewClosed
  dsimp only
  split
  · rfl
  · split
    · exact focused_foldl_closeDocument _ _ _
    · rfl

theorem focused_viewClosed_iff : (t.viewClosed other).session.focused = some view ↔
    t.session.focused = some view ∧ other ≠ view := by
  rw [focused_viewClosed]
  split
  · next hfocused =>
    rw [hfocused]
    simp
  · next hfocused =>
    refine ⟨fun h => ⟨h, ?_⟩, And.left⟩
    rintro rfl
    exact hfocused h

theorem focused_viewOpened_iff (t : Turn) (launch : Launcher) (other view : ViewId) (path : Path) :
    (t.viewOpened other path).session.focused = some view ↔
      t.session.focused = some view ∧ ¬ (Moment.opening t launch other path).Swaps view := by
  obtain ⟨u, hu, hfree, heq⟩ := viewOpened_eq t other path
  have hbound : (u.bindView other path).session.focused = u.session.focused :=
    (extends_bindView u other path).focused
  rw [heq, hbound]
  rcases hu with rfl | ⟨rfl, bound, hshown, hmoved⟩
  · refine ⟨fun h => ⟨h, ?_⟩, And.left⟩
    rintro ⟨hshown, hmoved⟩
    exact hmoved (hfree _ hshown)
  · rw [focused_viewClosed_iff]
    refine and_congr_right fun _ => not_congr ⟨?_, ?_⟩
    · rintro rfl
      exact .intro hshown hmoved
    · rintro ⟨-, -⟩
      rfl

/-- A view that is focused is in focus, and no other. -/
theorem focused_of_focuses? (h : mo.focuses? = some other) :
    mo.after.session.focused = some other := by
  unfold Moment.focuses? at h
  split at h
  · next t launch view =>
    obtain rfl := Option.some.inj h
    exact (extends_viewFocused t view).focused
  · cases h

theorem handles_of_closes (h : mo.closes view = true) : mo.Handles view := by
  unfold Moment.closes at h
  split at h
  · next t launch other =>
    obtain rfl := of_decide_eq_true h
    exact .closes
  · cases h

/-- **A view is in focus from when it is focused** until it is closed, is opened on another document
than it shows, or another view is focused. -/
theorem focused_after (ht : mo.before.Regular named) (hmo : mo.Occurs named) (view : ViewId) :
    mo.after.session.focused = some view ↔ mo.focuses? = some view ∨
      (mo.before.session.focused = some view ∧ ¬ (mo.closes view = true ∨ mo.focuses? ≠ none) ∧
        ¬ mo.Swaps view) := by
  cases hfocuses : mo.focuses? with
  | some other =>
    rw [focused_of_focuses? hfocuses]
    simp
  | none =>
    simp only [reduceCtorEq, ne_eq, not_true_eq_false, or_false, false_or]
    by_cases hhandles : ∃ other, mo.Handles other
    · obtain ⟨other, hhandles⟩ := hhandles
      cases hhandles with
      | @opens t launch other path =>
        have hcloses : ¬ (Moment.opening t launch other path).closes view = true := by
          simp [Moment.closes]
        rw [and_iff_right hcloses]
        exact focused_viewOpened_iff t launch other view path
      | @closes t launch other =>
        have hswaps : ¬ (Moment.closing t launch other).Swaps view := fun h => by cases h
        rw [and_iff_left hswaps]
        refine focused_viewClosed_iff.trans (and_congr_right fun _ => ?_)
        simp [Moment.closes]
    · rcases attends_or_views ht hmo with hattends | ⟨t, launch, other, rfl⟩ | hviews
      · have hswaps : ¬ mo.Swaps view := by
          rintro ⟨-, -⟩
          exact hhandles ⟨view, .opens⟩
        rw [hattends.focused, and_iff_left]
        exact ⟨fun hcloses => hhandles ⟨view, handles_of_closes hcloses⟩, hswaps⟩
      · cases hfocuses
      · exact absurd hviews hhandles

/-! ## The focus in a run -/

/-- The view that was focused last is one. -/
theorem focused_unique (h : Focused view ms) (h' : Focused other ms) : view = other := by
  induction ms using List.reverseRecOn with
  | nil => exact absurd h (since_nil _ _)
  | append_singleton ms mo ih =>
    rw [Focused, since_concat, ← Focused] at h h'
    rcases h with hlast | ⟨hearlier, hkept⟩ <;> rcases h' with hlast' | ⟨hearlier', hkept'⟩
    · exact Option.some.inj (hlast.symm.trans hlast')
    · exact absurd (.inr (by simp [hlast])) hkept'
    · exact absurd (.inr (by simp [hlast'])) hkept
    · exact ih hearlier hearlier'

/-- **A view is in focus when it is the one that was focused last and has not moved since.** -/
theorem Leads.focused_iff (h : Leads named t ms t') (ht : t.Regular named)
    (hstart : t.session.focused = none) (view : ViewId) :
    t'.session.focused = some view ↔ Focused view ms ∧ ¬ Moved view ms := by
  induction h with
  | start => exact iff_of_false (by simp [hstart]) fun h => since_nil _ _ h.1
  | @next ms mo prior occurs ih =>
    rw [focused_after (prior.regular ht) occurs view, ih, Focused, Moved, since_concat, since_concat,
      ← Focused, ← Moved]
    by_cases hfocuses : mo.focuses? = some view
    · have hswaps : ¬ mo.Swaps view := by
        rintro ⟨-, -⟩
        cases hfocuses
      simp [hfocuses, hswaps]
    · tauto

/-! ## Activation -/

/-- A deed makes a server active only when it answers the handshake. -/
theorem Deed.answers {u u' : Turn} (hdeed : Deed named mo u u')
    (hc : u'.connection identity = some c) (hactive : c.isActive = true) :
    (∃ d, u.connection identity = some d ∧ d.isActive = true) ∨
      ∃ t request result, mo = .acts t identity (.response request (.ok result)) ∧
        request.method = .handshake := by
  cases hdeed with
  | routine hroutine regular =>
    obtain ⟨d, hd, hstays⟩ := hroutine.stood identity c hc
    refine .inl ⟨d, hd, ?_⟩
    rw [Connection.isActive, ← hstays.state]
    exact hactive
  | publishes hmo =>
    rw [(tables_published u _ _).1] at hc
    exact .inl ⟨c, hc, hactive⟩
  | binds | unbinds | shows | launches => exact .inl ⟨c, hc, hactive⟩
  | @enters config wireOpen free =>
    have hc : (u.entered config wireOpen).connection identity = some c := hc
    rw [connection_entered] at hc
    split at hc
    · obtain rfl := Option.some.inj hc
      rw [newcomer_snd] at hactive
      cases hactive
    · exact .inl ⟨c, hc, hactive⟩
  | @greets other d request result capabilities info hmo hd pending answered wire method read =>
    have hc : (u.activated other d capabilities).connection identity = some c := hc
    rw [connection_activated] at hc
    split at hc
    · next hother =>
      subst hother
      exact .inr ⟨u, request, result, hmo, method⟩
    · exact .inl ⟨c, hc, hactive⟩
  | @ends other d messages hd hmessages =>
    rw [connection_teardown] at hc
    split at hc
    · cases hc
    · exact .inl ⟨c, hc, hactive⟩

theorem answers_of_activates (ht : mo.before.Regular named) (hmo : mo.Occurs named)
    (hbefore : mo.before.session.isActive identity = false)
    (hc : mo.after.connection identity = some c) (hactive : c.isActive = true) :
    ∃ t request result, mo = .acts t identity (.response request (.ok result)) ∧
      request.method = .handshake := by
  have hanswers := (deeds_of_occurs ht hmo).induction (P := fun u => ∀ c,
    u.connection identity = some c → c.isActive = true →
      ∃ t request result, mo = .acts t identity (.response request (.ok result)) ∧
        request.method = .handshake) ht
    (fun _ _ _ hdeed hbefore c hc hactive => by
      rcases hdeed.answers hc hactive with ⟨d, hd, hactive⟩ | hanswers
      · exact hbefore d hd hactive
      · exact hanswers)
    (fun c hc hactive => by
      rw [Session.isActive_of_get? hc, hactive] at hbefore
      cases hbefore)
  exact hanswers c hc hactive

/-- A server that becomes active is greeted, and the document in the focused view is opened on it. -/
theorem greets_of_activates (ht : mo.before.Regular named) (hmo : mo.Occurs named)
    (hbefore : mo.before.session.isActive identity = false)
    (hc : mo.after.connection identity = some c) (hactive : c.isActive = true) :
    ∃ d capabilities info, mo.before.connection identity = some d ∧ d.isActive = false ∧
      mo.after = match mo.before.session.focused.bind mo.before.session.views.pathOf with
        | some path => ((mo.before.activated identity d capabilities).tell
            (.connected identity info)).openDocument identity path
        | none => (mo.before.activated identity d capabilities).tell (.connected identity info) := by
  obtain ⟨t, request, result, rfl, hmethod⟩ := answers_of_activates ht hmo hbefore hc hactive
  have hafter : (Moment.acts t identity (.response request (.ok result))).after =
      t.onHandshake identity result := by
    simp only [Moment.after, onInbound, onResult, hmethod]
  cases hmo with
  | @acts _ _ d _ rest hd awaits =>
    have hidle : d.isActive = false := (Session.isActive_of_get? hd).symm.trans hbefore
    rcases onHandshake_eq hd result with ⟨f, heq⟩ | ⟨-, capabilities, info, -, heq⟩
    · -- a server that is torn down is not active
      have hgone : (t.teardown identity).connection identity = some c := by
        rw [hafter, heq] at hc
        exact hc
      rw [connection_teardown, if_pos rfl] at hgone
      cases hgone
    · exact ⟨d, capabilities, info, hd, hidle, hafter.trans heq⟩

/-- A server that becomes active has the document in the focused view open, if it takes it and the
host has it. -/
theorem isOpen_of_activates (ht : mo.before.Regular named) (hmo : mo.Occurs named)
    (hbefore : mo.before.session.isActive identity = false)
    (hc : mo.after.connection identity = some c) (hactive : c.isActive = true)
    (hserves : c.config.serves path = true) (hbuffer : mo.before.buffer path ≠ none)
    (hfocused : mo.before.session.focused.bind mo.before.session.views.pathOf = some path) :
    c.documents.isOpen path = true := by
  obtain ⟨d, capabilities, info, hd, -, heq⟩ := greets_of_activates ht hmo hbefore hc hactive
  rw [hfocused] at heq
  dsimp only at heq
  obtain ⟨b, hb⟩ := Option.ne_none_iff_exists'.1 hbuffer
  have hconnection := connection_activated mo.before identity d capabilities identity
  rw [if_pos rfl] at hconnection
  have hworks : Works (fun _ => True) ((mo.before.activated identity d capabilities).tell
      (.connected identity info)) mo.after := by
    rw [heq]
    exact works_openDocument trivial _ identity
  have hconfig : c.config = d.config := by
    obtain ⟨e, he, hpersists⟩ := hworks.persists identity c hc
    obtain rfl := Option.some.inj (hconnection.symm.trans he)
    exact hpersists.config
  have htakes : ((mo.before.activated identity d capabilities).tell
      (.connected identity info)).Takes path identity :=
    ⟨{ d with state := .active }, hconnection, rfl, hconfig ▸ hserves⟩
  have htext : ((mo.before.activated identity d capabilities).tell
      (.connected identity info)).bufferText path = some b.text :=
    congrArg (Option.map fun b : Buffer => b.text) hb
  rw [heq] at hc
  exact isOpen_openDocument htakes htext hc

/-- Without a document in the focused view, a server that becomes active has none open. -/
theorem not_isOpen_of_activates (ht : mo.before.Regular named) (hmo : mo.Occurs named)
    (hbefore : mo.before.session.isActive identity = false)
    (hc : mo.after.connection identity = some c) (hactive : c.isActive = true)
    (hfocused : mo.before.session.focused.bind mo.before.session.views.pathOf = none)
    (path : Path) : c.documents.isOpen path = false := by
  obtain ⟨d, capabilities, info, hd, hidle, heq⟩ := greets_of_activates ht hmo hbefore hc hactive
  rw [hfocused] at heq
  dsimp only at heq
  have hconnection := connection_activated mo.before identity d capabilities identity
  rw [if_pos rfl] at hconnection
  rw [heq] at hc
  obtain rfl := Option.some.inj (hconnection.symm.trans hc)
  cases hopen : d.documents.isOpen path with
  | false => rfl
  | true =>
    have hserves := (ht.aligned.serves identity d hd path hopen).1
    rw [hidle] at hserves
    cases hserves

/-- **A server that becomes active gets to know the document of the view that was focused last, unless
this view was opened on another document since.** -/
theorem isOpen_iff_not_moved (root : Path) (settings : Settings) (processId : Nat)
    (catalog : Catalog) (buffers : Buffers) (moves : List Move) (ms : List Moment) (mo : Moment)
    (hms : ms ++ [mo] <+: course ⟨.new root settings processId catalog, buffers, []⟩ moves)
    (identity : String) (c : Connection) (view : ViewId) (path : Path)
    (hbefore : mo.before.session.isActive identity = false)
    (hc : mo.after.connection identity = some c) (hactive : c.isActive = true)
    (hfocused : Focused view ms) (hpath : mo.before.session.views.pathOf view = some path)
    (hserves : c.config.serves path = true) (hbuffer : mo.before.buffer path ≠ none) :
    c.documents.isOpen path = true ↔ ¬ Moved view ms := by
  have hnew : Regular (fun _ => True) ⟨.new root settings processId catalog, buffers, []⟩ :=
    regular_new root settings processId catalog buffers
  obtain ⟨hleads, hmo, -⟩ := (leads_reached hms).concat_inv
  have ht := hleads.regular hnew
  have hiff := hleads.focused_iff hnew rfl
  constructor
  · intro hopen hmoved
    -- the focus was lost, and no other view can have come by it
    have hnone : mo.before.session.focused = none := by
      refine Option.eq_none_iff_forall_ne_some.2 fun other hother => ?_
      obtain ⟨hlast, hstays⟩ := (hiff other).1 hother
      obtain rfl := focused_unique hfocused hlast
      exact hstays hmoved
    have hclosed := not_isOpen_of_activates ht hmo hbefore hc hactive (by rw [hnone]; rfl) path
    rw [hopen] at hclosed
    cases hclosed
  · intro hstays
    have hview : mo.before.session.focused = some view := (hiff view).2 ⟨hfocused, hstays⟩
    exact isOpen_of_activates ht hmo hbefore hc hactive hserves hbuffer
      (by rw [hview]; exact hpath)

end Turn

namespace Sample

/-- A server is started, and before it answers, the focused view is opened on another document. -/
def moving : List Move :=
  starting ++ [.event launch (.action (.viewOpened 1 ⟨"/b"⟩)),
    .event launch (.action (.viewFocused 1)), .event launch (.action (.viewOpened 1 path)),
    .event launch (.stdout 1 greeting)]

/-- What happens before the handshake is answered. -/
def waiting : List Moment := (start.course moving).dropLast

/-- The handshake is answered. -/
def answered : Moment := (start.course moving).getLast (List.cons_ne_nil _ _)

theorem course_moving : waiting ++ [answered] = start.course moving :=
  List.dropLast_append_getLast _

theorem focused_waiting : Focused 1 waiting ∧ answered.before.session.isActive "s" = false ∧
    answered.before.session.views.pathOf 1 = some path ∧
    (answered.before.buffer path).isSome = true ∧
    (answered.after.connection "s").map (fun c =>
      (c.isActive, c.config.serves path, c.documents.isOpen path)) = some (true, true, false) := by
  decide +kernel

end Sample

namespace Turn

/-- The server of the small run becomes active and does not get to know the document of the view that
was focused last, which has moved to it. -/
theorem isOpen_iff_not_moved_moving :
    ∃ c, Sample.waiting ++ [Sample.answered] <+: Sample.start.course Sample.moving ∧
      Sample.answered.before.session.isActive "s" = false ∧
      Sample.answered.after.connection "s" = some c ∧ c.isActive = true ∧
      Focused 1 Sample.waiting ∧
      Sample.answered.before.session.views.pathOf 1 = some Sample.path ∧
      c.config.serves Sample.path = true ∧ Sample.answered.before.buffer Sample.path ≠ none ∧
      c.documents.isOpen Sample.path = false ∧ Moved 1 Sample.waiting := by
  obtain ⟨hfocused, hbefore, hpath, hbuffer, hafter⟩ := Sample.focused_waiting
  obtain ⟨c, hc, hfacts⟩ := Option.map_eq_some_iff.1 hafter
  obtain ⟨hactive, hserves, hopen⟩ : c.isActive = true ∧ c.config.serves Sample.path = true ∧
      c.documents.isOpen Sample.path = false := by simpa using hfacts
  have hms : Sample.waiting ++ [Sample.answered] <+: Sample.start.course Sample.moving :=
    Sample.course_moving ▸ List.prefix_rfl
  have hhas : Sample.answered.before.buffer Sample.path ≠ none := Option.isSome_iff_ne_none.1 hbuffer
  have hstart : (⟨.new ⟨"/"⟩ .default 1 ⟨[]⟩, Sample.start.buffers, []⟩ : Turn) = Sample.start := rfl
  have hrun := isOpen_iff_not_moved ⟨"/"⟩ .default 1 ⟨[]⟩ Sample.start.buffers Sample.moving
  -- the run is not to be opened to see that it is the one that is meant
  rw [hstart] at hrun
  have hiff := hrun _ _ hms "s" c 1 Sample.path hbefore hc hactive hfocused hpath hserves hhas
  refine ⟨c, hms, hbefore, hc, hactive, hfocused, hpath, hserves, hhas, hopen, ?_⟩
  by_contra hstays
  rw [hiff.2 hstays] at hopen
  cases hopen

end Turn
end LanguageClient
