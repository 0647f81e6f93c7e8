import LanguageClient.Proofs.Diagnostic.Store
import LanguageClient.Proofs.Session.Coherence

/-!
# Operations as chains of steps

Each operation of a session, from the opening of one document up to an answer of a server, is a
chain of the steps that `Turn.Step` lists. What an operation needs for this is little: that the
paths it is given were named, and that the turn is coherent where it takes a path or a server from
what the session has kept.
-/

namespace LanguageClient

/-- Whether a callback neither replaces a document nor shows diagnostics nor tells of a server that
was greeted. -/
def Callback.Plain : Callback → Prop
  | .replaceDocument _ _ _ => False
  | .setDiagnostics _ _ _ => False
  | .connected _ _ => False
  | _ => True

namespace Turn

variable {named : Path → Prop} {t t' : Turn} {path : Path}

/-! ## Chains -/

theorem Works.foldl {α : Type} {f : Turn → α → Turn} {l : List α}
    (h : ∀ t, ∀ a ∈ l, Works named t (f t a)) (t : Turn) : Works named t (l.foldl f t) :=
  List.foldlRecOn l f .refl fun u hu a ha => hu.trans (h u a ha)

theorem works_tell (t : Turn) {cb : Callback}
    (h : ∀ path text cursor, cb ≠ .replaceDocument path text cursor) :
    Works named t (t.tell cb) :=
  .single (.tells h)

/-- The host is told some plain things, and nothing else happens. -/
def Remarks : Turn → Turn → Prop :=
  Relation.ReflTransGen fun t t' => ∃ cb : Callback, cb.Plain ∧ t' = t.tell cb

theorem remarks_tell (t : Turn) {cb : Callback} (h : cb.Plain) : t.Remarks (t.tell cb) :=
  .single ⟨cb, h, rfl⟩

theorem remarks_notice (t : Turn) (level : NoticeLevel) (message : String) :
    t.Remarks (t.notice level message) :=
  remarks_tell t trivial

theorem remarks_report (t : Turn) (f : Failure) : t.Remarks (t.report f) :=
  remarks_notice t f.level f.message

theorem Remarks.works (h : t.Remarks t') : Works named t t' := by
  induction h with
  | refl => exact .refl
  | tail _ hlast ih =>
    obtain ⟨cb, hplain, rfl⟩ := hlast
    refine ih.trans (works_tell _ fun path text cursor heq => ?_)
    rw [heq] at hplain
    exact hplain

theorem works_report (t : Turn) (f : Failure) : Works named t (t.report f) :=
  (remarks_report t f).works

theorem works_orReport {r : Except Failure Turn} (h : ∀ t', r = .ok t' → Works named t t') :
    Works named t (t.orReport r) := by
  cases r with
  | ok t' => exact h t' rfl
  | error e => exact works_report t e

/-! ## Documents -/

/-- Opening a document does nothing, or tells an active server of it. -/
theorem openDocument_cases (t : Turn) (identity : String) (path : Path) :
    t.openDocument identity path = t ∨
      ∃ c s language n documents, t.connection identity = some c ∧ c.isActive = true ∧
        c.config.serves path = true ∧ t.bufferText path = some s ∧
        c.documents.openDocument path s language = some (n, documents) ∧
        t.openDocument identity path =
          t.advance identity { c with documents := documents } (c.sent n) := by
  unfold openDocument
  split
  · exact .inl rfl
  · next c hc =>
    split
    · exact .inl rfl
    · next hready =>
      simp only [Bool.or_eq_true, Bool.not_eq_true', not_or, Bool.not_eq_false] at hready
      split
      · exact .inl rfl
      · next s hs =>
        split
        · exact .inl rfl
        · next n documents hopen =>
          exact .inr ⟨c, s, _, n, documents, hc, hready.1.1, hready.2, hs, hopen,
            notify_keep _ _ _ _⟩

theorem works_openDocument (hpath : named path) (t : Turn) (identity : String) :
    Works named t (t.openDocument identity path) := by
  rcases openDocument_cases t identity path with heq |
    ⟨c, s, language, n, documents, hc, hactive, hserves, hs, hopen, heq⟩
  · rw [heq]
  · rw [heq]
    exact .single (.acts hc (.opens hactive hserves hpath hs hopen))

theorem works_openEverywhere (hpath : named path) (t : Turn) :
    Works named t (t.openEverywhere path) :=
  Works.foldl (fun u identity _ => works_openDocument hpath u identity) t

/-- Closing a document does nothing, or tells a server of it. -/
theorem closeDocument_cases (t : Turn) (path : Path) (identity : String) :
    t.closeDocument path identity = t ∨
      ∃ c n documents, t.connection identity = some c ∧
        c.documents.close path = some (n, documents) ∧
        t.closeDocument path identity =
          t.advance identity { c with documents := documents } (c.sent n) := by
  unfold closeDocument
  split
  · exact .inl rfl
  · next c hc =>
    split
    · exact .inl rfl
    · next n documents hclose =>
      exact .inr ⟨c, n, documents, hc, hclose, notify_keep _ _ _ _⟩

theorem works_closeDocument (hpath : named path) (t : Turn) (hquiet : t.Quiet path.place)
    (identity : String) : Works named t (t.closeDocument path identity) := by
  rcases closeDocument_cases t path identity with heq | ⟨c, n, documents, hc, hclose, heq⟩
  · rw [heq]
  · rw [heq]
    exact .single (.acts hc (.closes hpath hquiet hclose))

/-- Closing documents leaves the views and the diagnostics as they are. -/
theorem foldl_closeDocument (t : Turn) (path : Path) (identities : List String) :
    (identities.foldl (closeDocument · path) t).session.views = t.session.views ∧
      (identities.foldl (closeDocument · path) t).session.diagnostics =
        t.session.diagnostics := by
  refine List.foldlRecOn (motive := fun u : Turn => u.session.views = t.session.views ∧
    u.session.diagnostics = t.session.diagnostics) identities _ ⟨rfl, rfl⟩ fun u hu identity _ => ?_
  rcases closeDocument_cases u path identity with heq | ⟨c, n, documents, -, -, heq⟩
  · rw [heq]
    exact hu
  · rw [heq]
    exact hu

theorem works_foldl_closeDocument (hpath : named path) (hquiet : t.Quiet path.place)
    (identities : List String) :
    Works named t (identities.foldl (closeDocument · path) t) := by
  induction identities generalizing t with
  | nil => exact .refl
  | cons identity identities ih =>
    have hkept := (foldl_closeDocument t path [identity]).2
    refine (works_closeDocument hpath t hquiet identity).trans (ih ?_)
    rw [List.foldl_cons, List.foldl_nil] at hkept
    rw [Quiet, hkept]
    exact hquiet

theorem works_savedTo (t : Turn) (path : Path) (identity : String) :
    Works named t (t.savedTo path identity) := by
  unfold savedTo
  split
  · exact .refl
  · next c hc =>
    split
    · exact .refl
    · dsimp only
      rw [notify_eq]
      exact .single (.saves hc)

theorem works_saved (t : Turn) (path : Path) : Works named t (t.saved path) :=
  Works.foldl (fun u identity _ => works_savedTo u path identity) t

theorem works_resync (hpath : named path) (h : t.resync path = .ok t') : Works named t t' := by
  unfold resync at h
  split at h
  · next text htext =>
    cases h
    exact .single (.resyncs hpath htext)
  · cases h

/-! ## Views -/

theorem closeDocument_withDiagnostics (t : Turn) (diagnostics : DiagnosticStore) (path : Path)
    (identity : String) :
    (t.withDiagnostics diagnostics).closeDocument path identity =
      (t.closeDocument path identity).withDiagnostics diagnostics := by
  have hconnection : (t.withDiagnostics diagnostics).connection identity = t.connection identity :=
    rfl
  simp only [closeDocument, notify_keep, hconnection]
  cases t.connection identity with
  | none => rfl
  | some c =>
    dsimp only
    cases c.documents.close path with
    | none => rfl
    | some closed => rfl

/-- A turn in which the last view of a document was unbound: it is closed everywhere, and its
diagnostics are forgotten. -/
def shut (t : Turn) (path : Path) : Turn :=
  let t := t.identities.foldl (closeDocument · path) t
  t.withDiagnostics (t.session.diagnostics.removePath path)

/-- It makes no difference whether the diagnostics are forgotten before the closing. -/
theorem shut_eq (t : Turn) (path : Path) :
    t.shut path = t.identities.foldl (closeDocument · path)
      (t.withDiagnostics (t.session.diagnostics.removePath path)) := by
  rw [shut, (foldl_closeDocument t path _).2]
  exact (List.foldl_hom (fun u : Turn => u.withDiagnostics _)
    fun u identity => closeDocument_withDiagnostics u _ path identity).symm

theorem works_shut (hpath : named path) (t : Turn) : Works named t (t.shut path) := by
  rw [shut_eq]
  refine .trans (.single .forgets) (works_foldl_closeDocument hpath (fun identity => ?_) _)
  exact DiagnosticStore.get?_removePath_self t.session.diagnostics identity path

/-- Closing a view takes its focus and its document from it. -/
theorem viewClosed_eq (t : Turn) (view : ViewId) :
    ∃ focused, (t.session.views.pathOf view = none ∧ t.viewClosed view = t.withFocus focused) ∨
      ∃ path last views, t.session.views.unbind view = some ((path, last), views) ∧
        t.viewClosed view = if last then ((t.withFocus focused).withViews views).shut path
          else (t.withFocus focused).withViews views := by
  refine ⟨if t.session.focused = some view then none else t.session.focused, ?_⟩
  unfold viewClosed
  dsimp only
  split
  · next hnone => exact .inl ⟨by simpa [ViewTable.unbind] using hnone, rfl⟩
  · next path last views hunbind =>
    refine .inr ⟨path, last, views, hunbind, ?_⟩
    rfl

theorem works_viewClosed (h : t.Coherent named) (view : ViewId) :
    Works named t (t.viewClosed view) := by
  obtain ⟨focused, ⟨-, heq⟩ | ⟨path, last, views, hunbind, heq⟩⟩ := viewClosed_eq t view
  · rw [heq]
    exact .single (.focuses focused)
  · have hpath : named path := h.viewed view path (ViewTable.pathOf_unbind hunbind view).1
    rw [heq]
    refine .trans (.single (.focuses focused)) (.trans (.single (.unbinds hunbind)) ?_)
    split
    · exact works_shut hpath _
    · exact .refl

/-- A view that was closed shows nothing. -/
theorem pathOf_viewClosed (t : Turn) (view : ViewId) :
    (t.viewClosed view).session.views.pathOf view = none := by
  obtain ⟨focused, ⟨hnone, heq⟩ | ⟨path, last, views, hunbind, heq⟩⟩ := viewClosed_eq t view
  · rw [heq]
    exact hnone
  · have hleft : views.pathOf view = none := by
      rw [(ViewTable.pathOf_unbind hunbind view).2, if_pos rfl]
    rw [heq]
    split
    · have hviews :=
        (foldl_closeDocument ((t.withFocus focused).withViews views) path t.identities).1
      exact (congrArg (ViewTable.pathOf · view) hviews).trans hleft
    · exact hleft

theorem works_showKnownDiagnostics (t : Turn) (view : ViewId) (path : Path) :
    Works named t (t.showKnownDiagnostics view path) :=
  Works.foldl (fun u _ _ => works_tell u (by simp)) t

/-- The part of opening a view that follows once the view shows nothing else. -/
def bindView (t : Turn) (view : ViewId) (path : Path) : Turn :=
  let bound := t.withViews (t.session.views.bind view path).2
  (if (t.session.views.bind view path).1 then bound.openEverywhere path
    else bound).showKnownDiagnostics view path

/-- A view that shows another document is closed before it is bound. -/
theorem viewOpened_eq (t : Turn) (view : ViewId) (path : Path) :
    ∃ u, (u = t ∨ u = t.viewClosed view ∧
        ∃ bound, t.session.views.pathOf view = some bound ∧ bound.place ≠ path.place) ∧
      (∀ bound, u.session.views.pathOf view = some bound → bound.place = path.place) ∧
      t.viewOpened view path = u.bindView view path := by
  unfold viewOpened
  cases hbound : t.session.views.pathOf view with
  | none => exact ⟨t, .inl rfl, by simp [hbound], rfl⟩
  | some bound =>
    dsimp only
    split
    · next hplace =>
      refine ⟨t, .inl rfl, fun other hother => ?_, rfl⟩
      obtain rfl := Option.some.inj (hbound.symm.trans hother)
      exact hplace
    · next hplace =>
      exact ⟨t.viewClosed view, .inr ⟨rfl, bound, rfl, hplace⟩, by simp [pathOf_viewClosed], rfl⟩

theorem works_bindView (hpath : named path) (t : Turn) {view : ViewId}
    (hfree : ∀ bound, t.session.views.pathOf view = some bound → bound.place = path.place) :
    Works named t (t.bindView view path) := by
  unfold bindView
  refine .trans (.single (.binds hpath hfree)) (.trans ?_ (works_showKnownDiagnostics _ view path))
  split
  · exact works_openEverywhere hpath _
  · exact .refl

theorem works_viewOpened (h : t.Coherent named) (hpath : named path) (view : ViewId) :
    Works named t (t.viewOpened view path) := by
  obtain ⟨u, hu, hfree, heq⟩ := viewOpened_eq t view path
  rw [heq]
  rcases hu with rfl | ⟨rfl, -⟩
  · exact works_bindView hpath _ hfree
  · exact (works_viewClosed h view).trans (works_bindView hpath _ hfree)

theorem works_viewFocused (h : t.Coherent named) (view : ViewId) :
    Works named t (t.viewFocused view) := by
  unfold viewFocused
  dsimp only
  split
  · next path hpath =>
    exact .trans (.single (.focuses (some view))) (works_openEverywhere (h.viewed view path hpath) _)
  · exact .single (.focuses (some view))

/-! ## Servers -/

theorem works_teardown (t : Turn) (identity : String) : Works named t (t.teardown identity) := by
  unfold teardown
  split
  · exact .refl
  · next c hc =>
    exact .trans (.single (.ends hc)) (Works.foldl (fun u _ _ => works_tell u (by simp)) _)

theorem stop_eq {identity : String} {c : Connection} (hc : t.connection identity = some c) :
    t.stop identity = .ok ((t.advance identity c.shutdown.2 c.shutdown.1).teardown identity) := by
  rw [stop, hc]
  rfl

theorem works_stop {identity : String} (h : t.stop identity = .ok t') : Works named t t' := by
  cases hc : t.connection identity with
  | none => simp [stop, hc] at h
  | some c =>
    rw [stop_eq hc] at h
    cases h
    exact .trans (.single (.acts hc .parts)) (works_teardown _ identity)

theorem works_stopAll (t : Turn) : Works named t t.stopAll := by
  refine Works.foldl (fun u identity _ => ?_) t
  split
  · next u' hstop => exact works_stop hstop
  · exact .refl

theorem works_exited (t : Turn) (id : ConnectionId) (code : Option Int) :
    Works named t (t.exited id code) := by
  unfold exited
  split
  · exact .refl
  · exact .trans (works_report t _) (works_teardown _ _)

theorem works_stderr (t : Turn) (id : ConnectionId) (bytes : Bytes) :
    Works named t (t.stderr id bytes) := by
  unfold stderr
  split
  · exact .refl
  · next identity log hfind =>
    exact .single (.logs (Table.mem_entries_iff.1 (List.mem_of_find?_eq_some hfind)))

theorem remarks_showLog {identity : String} (h : t.showLog identity = .ok t') : t.Remarks t' := by
  unfold showLog at h
  split at h
  · cases h
    exact remarks_tell t trivial
  · cases h

/-- The turn in which a new connection is entered. -/
theorem enter_eq {c : Connection}
    (h : Registry.ensureAvailable t.session.connections c.identity = .ok ()) :
    t.enter c = .ok ((t.keep c.identity c).withLog c.config c.id) := by
  have hinsert : Registry.insert t.session.connections c =
      .ok (t.session.connections.set c.identity c) := by
    rw [Registry.insert, h]
    rfl
  simp only [enter, hinsert]
  rfl

theorem keep_keep (t : Turn) (identity : String) (c c' : Connection) :
    (t.keep identity c).keep identity c' = t.keep identity c' := by
  simp only [keep, Table.set_set]

theorem keep_of_connection {identity : String} {c : Connection}
    (hc : t.connection identity = some c) : t.keep identity c = t :=
  congrArg (fun cs => { t with session := { t.session with connections := cs } })
    (Table.set_of_get? hc)

/-- A turn in which a server was launched that runs: it is entered, unless the handshake cannot be
sent. -/
def started (t : Turn) (config : ServerConfig) (wireOpen : Bool) : Turn :=
  let entered := (t.entered config wireOpen).withLog config t.session.nextConnection
  match (t.newcomer config wireOpen).1 with
  | .ok _ => entered
  | .error e => (entered.teardown config.identity).report e

theorem start_refused {target : StartTarget} {config : ServerConfig} {launch : Launcher}
    {reason : String} (hconfig : t.configFor target = .ok config)
    (hfree : Registry.ensureAvailable t.session.connections config.identity = .ok ())
    (hlaunch : launch config = .refused reason) :
    t.start launch target = (t.launching config).report (.serverStart reason) := by
  simp only [start, hconfig, hfree, hlaunch]
  rfl

theorem start_running {target : StartTarget} {config : ServerConfig} {launch : Launcher}
    {wireOpen : Bool} (hconfig : t.configFor target = .ok config)
    (hfree : Registry.ensureAvailable t.session.connections config.identity = .ok ())
    (hlaunch : launch config = .running wireOpen) :
    t.start launch target = t.started config wireOpen := by
  have henter : (t.launching config).enter (.new t.session.nextConnection config wireOpen) =
      .ok (((t.launching config).keep config.identity
        (.new t.session.nextConnection config wireOpen)).withLog config
          t.session.nextConnection) := enter_eq hfree
  have hid := t.newcomer_id config wireOpen
  have hkeep := (t.launching config).keep_keep config.identity
    (.new t.session.nextConnection config wireOpen) (t.newcomer config wireOpen).2
  have hsent : (Connection.new t.session.nextConnection config wireOpen).handshake t.session.root
      t.session.processId = t.newcomer config wireOpen := rfl
  simp only [launching] at henter
  simp only [start, hconfig, hfree, hlaunch, henter]
  dsimp only [withLog, keep, emit]
  rw [hsent]
  rcases hnewcomer : t.newcomer config wireOpen with ⟨result, c⟩
  rw [hnewcomer] at hkeep hid
  cases result with
  | ok sent =>
    change ((((t.launching config).keep config.identity _).keep config.identity c).withLog config
      t.session.nextConnection).write t.session.nextConnection [sent.2] = _
    rw [hkeep, started, entered, hnewcomer, advance, hid]
    rfl
  | error e =>
    change (((((t.launching config).keep config.identity _).keep config.identity c).withLog config
      t.session.nextConnection).teardown config.identity).report e = _
    -- the handshake was not written, so nothing but the newcomer itself is kept
    rw [hkeep, started, entered, hnewcomer, advance]
    simp [Except.toOption, write]

/-- What holds after each of the ways that a start can take holds after a start: it fails before a
launch or at it, or a newcomer is entered, and taken out again if the handshake cannot be sent. -/
theorem start_elim {P : Turn → Prop} (launch : Launcher) (target : StartTarget)
    (failed : ∀ e, P (t.report e))
    (refused : ∀ config e,
      Registry.ensureAvailable t.session.connections config.identity = .ok () →
        P ((t.launching config).report e))
    (entered : ∀ config wireOpen sent,
      Registry.ensureAvailable t.session.connections config.identity = .ok () →
        (t.newcomer config wireOpen).1 = .ok sent →
          P ((t.entered config wireOpen).withLog config t.session.nextConnection))
    (unsent : ∀ config wireOpen e,
      Registry.ensureAvailable t.session.connections config.identity = .ok () →
        P ((((t.entered config wireOpen).withLog config t.session.nextConnection).teardown
          config.identity).report e)) :
    P (t.start launch target) := by
  cases hconfig : t.configFor target with
  | error e =>
    simp only [start, hconfig]
    exact failed e
  | ok config =>
    cases hfree : Registry.ensureAvailable t.session.connections config.identity with
    | error e =>
      simp only [start, hconfig, hfree]
      exact failed e
    | ok free =>
      cases hlaunch : launch config with
      | refused reason =>
        rw [start_refused hconfig hfree hlaunch]
        exact refused config (.serverStart reason) hfree
      | running wireOpen =>
        rw [start_running hconfig hfree hlaunch]
        unfold started
        dsimp only
        split
        · next sent hsent => exact entered config wireOpen sent hfree hsent
        · next e _ => exact unsent config wireOpen e hfree

theorem steps_start (t : Turn) (launch : Launcher) (target : StartTarget) :
    Steps named t (t.start launch target) := by
  apply start_elim launch target
  case failed => exact fun e => (works_report t e).steps
  case refused => exact fun config e _ => .trans (.single .launches) (works_report _ _).steps
  case entered => exact fun config wireOpen sent hfree _ => .single (.enters hfree)
  case unsent =>
    intro config wireOpen e hfree
    exact .trans (.single (.enters hfree))
      (Works.steps ((works_teardown _ _).trans (works_report _ _)))

/-! ## Diagnostics -/

theorem works_published (t : Turn) (identity : String) (p : Publication) :
    Works named t (t.published identity p) := by
  unfold published
  dsimp only
  split
  · exact .refl
  · next tracked htracked =>
    split
    · exact .refl
    · obtain ⟨c, hc, hversion⟩ := Option.bind_eq_some_iff.1 htracked
      have hknown : c.documents.isOpen (Uri.toPath p.uri) = true := by
        obtain ⟨document, hdocument, -⟩ := Option.map_eq_some_iff.1 hversion
        rw [DocumentTable.isOpen, Table.contains, hdocument, Option.isSome_some]
      exact .trans (.single (.publishes hc hknown))
        (Works.foldl (fun u _ _ => works_tell u (by simp)) _)

theorem remarks_lineDiagnostics (t : Turn) (path : Path) (line : Nat) :
    t.Remarks (t.lineDiagnostics path line) := by
  unfold lineDiagnostics
  dsimp only
  split
  · exact remarks_notice t _ _
  · exact remarks_tell t trivial

/-! ## Requests -/

theorem ask_snd (t : Turn) (kind : RequestKind) (path : Path) (params : Json) (identity : String) :
    (t.ask kind path params identity).2 =
      match (t.openDocument identity path).connection identity with
      | none => t.openDocument identity path
      | some c => (t.openDocument identity path).advance identity
          (c.sendRequest kind.capability.method params (some path)).2
          (c.asked kind.capability.method params (some path)) := by
  unfold ask
  dsimp only
  cases hc : (t.openDocument identity path).connection identity with
  | none => rfl
  | some c =>
    dsimp only
    rw [Connection.asked]
    rcases hsent : c.sendRequest kind.capability.method params (some path) with ⟨result, c'⟩
    cases result with
    | ok sent => rfl
    | error e => simp [advance, Except.toOption, write]

/-- Whether a server is active and takes a document. -/
def Takes (t : Turn) (path : Path) (identity : String) : Prop :=
  ∃ c, t.connection identity = some c ∧ c.isActive = true ∧ c.config.serves path = true

theorem Takes.advance {identity other : String} {c c' : Connection} {messages : List Json}
    (h : t.Takes path other) (hc : t.connection identity = some c) (hconfig : c'.config = c.config)
    (hstate : c'.state = c.state) : (t.advance identity c' messages).Takes path other := by
  obtain ⟨d, hd, hactive, hserves⟩ := h
  by_cases heq : identity = other
  · obtain rfl := heq
    obtain rfl := Option.some.inj (hc.symm.trans hd)
    refine ⟨c', by rw [connection_advance, if_pos rfl], ?_, by rwa [hconfig]⟩
    rwa [Connection.isActive, hstate]
  · exact ⟨d, by rwa [connection_advance, if_neg heq], hactive, hserves⟩

theorem Takes.openDocument {other : String} (h : t.Takes path other) (identity : String) :
    (t.openDocument identity path).Takes path other := by
  rcases openDocument_cases t identity path with heq | ⟨c, s, language, n, documents, hc, -, -, -,
    -, heq⟩
  · rwa [heq]
  · rw [heq]
    exact h.advance hc rfl rfl

theorem Takes.ask {other : String} (h : t.Takes path other) (kind : RequestKind) (params : Json)
    (identity : String) : (t.ask kind path params identity).2.Takes path other := by
  have hopened := h.openDocument identity
  rw [ask_snd]
  split
  · exact hopened
  · next c hc =>
    have hsame := c.sendRequest_snd kind.capability.method params (some path)
    refine hopened.advance hc ?_ ?_
    · rw [hsame]
    · rw [hsame]

/-- A server that takes a document knows it once it was opened. -/
theorem isOpen_openDocument {identity : String} (h : t.Takes path identity) {s : String}
    (hs : t.bufferText path = some s) {c : Connection}
    (hc : (t.openDocument identity path).connection identity = some c) :
    c.documents.isOpen path = true := by
  obtain ⟨d, hd, hactive, hserves⟩ := h
  cases hopen : d.documents.isOpen path with
  | true =>
    have hsame : t.openDocument identity path = t := by simp [openDocument, hd, hopen]
    rw [hsame] at hc
    obtain rfl := Option.some.inj (hd.symm.trans hc)
    exact hopen
  | false =>
    rcases hopened : d.documents.openDocument path s (path.language.getD "plaintext") with
      _ | ⟨n, documents⟩
    · simp [DocumentTable.openDocument, hopen] at hopened
    · have hadvance : t.openDocument identity path =
          t.advance identity { d with documents := documents } (d.sent n) := by
        simp only [openDocument, hd, hactive, hopen, hserves, hs, hopened]
        exact notify_keep _ _ _ _
      rw [hadvance, connection_advance, if_pos rfl] at hc
      obtain rfl := Option.some.inj hc
      rw [DocumentTable.isOpen, Table.contains, DocumentTable.get?_openDocument hopened, if_pos rfl,
        Option.isSome_some]

theorem buffers_ask (t : Turn) (kind : RequestKind) (path : Path) (params : Json)
    (identity : String) : (t.ask kind path params identity).2.buffers = t.buffers := by
  have hopened : (t.openDocument identity path).buffers = t.buffers := by
    rcases openDocument_cases t identity path with heq | ⟨c, s, language, n, documents, -, -, -, -,
      -, heq⟩
    · rw [heq]
    · rw [heq]
      rfl
  rw [ask_snd]
  split
  · exact hopened
  · exact hopened

theorem works_ask (hpath : named path) (t : Turn) {identity : String} (h : t.Takes path identity)
    (kind : RequestKind) (settings : Settings) {b b' : Buffer} (hb : t.buffer path = some b') :
    Works named t (t.ask kind path (requestParams settings kind path b) identity).2 := by
  have hs : t.bufferText path = some b'.text := by rw [bufferText, hb, Option.map_some]
  rw [ask_snd]
  refine (works_openDocument hpath t identity).trans ?_
  split
  · exact .refl
  · next c hc =>
    exact .single (.acts hc (.asks kind settings b hpath (isOpen_openDocument h hs hc)))

/-- **What a question to a server that takes the document keeps, and a report, is kept by asking
servers in turn.** -/
theorem askAll_induction {P : Turn → Prop} (kind : RequestKind) (params : Json)
    (hask : ∀ u identity, u.Takes path identity → u.buffers = t.buffers → P u →
      P (u.ask kind path params identity).2)
    (hreport : ∀ u f, P u → P (u.report f)) {identities : List String}
    (htakes : ∀ identity ∈ identities, t.Takes path identity) (hstart : P t) :
    P (t.askAll kind path params identities) := by
  induction identities generalizing t with
  | nil => exact hstart
  | cons identity rest ih =>
    have hfirst := htakes identity List.mem_cons_self
    have hasked := hask t identity hfirst rfl hstart
    have hrest : ∀ other ∈ rest, (t.ask kind path params identity).2.Takes path other :=
      fun other hother => (htakes other (List.mem_cons_of_mem _ hother)).ask kind _ identity
    have hbuffers := buffers_ask t kind path params identity
    rw [askAll]
    rcases heq : t.ask kind path params identity with ⟨failure, u⟩
    rw [heq] at hasked hrest hbuffers
    cases failure with
    | none => exact ih (fun v other hv hsame => hask v other hv (hsame.trans hbuffers)) hrest hasked
    | some e => exact hreport u e hasked

theorem works_askAll (hpath : named path) (t : Turn) (kind : RequestKind) (settings : Settings)
    {b b' : Buffer} (hb : t.buffer path = some b') {identities : List String}
    (h : ∀ identity ∈ identities, t.Takes path identity) :
    Works named t (t.askAll kind path (requestParams settings kind path b) identities) := by
  refine askAll_induction (P := Works named t) kind _ (fun u identity htakes hbuffers hu => ?_)
    (fun u f hu => hu.trans (works_report u f)) h .refl
  exact hu.trans (works_ask hpath u htakes kind settings (by rw [buffer, hbuffers]; exact hb))

/-- The active servers that serve a document are those that take it. -/
theorem mem_serving (h : t.Coherent named) (path : Path) {identity : String} :
    identity ∈ ((Registry.active t.session.connections).filter (·.config.serves path)).map
      (·.identity) ↔ t.Takes path identity := by
  simp only [List.mem_map, List.mem_filter, Registry.active, Table.mem_values_iff]
  constructor
  · rintro ⟨c, ⟨⟨⟨key, hkey⟩, hactive⟩, hserves⟩, rfl⟩
    obtain rfl := h.keyed key c hkey
    exact ⟨c, hkey, hactive, hserves⟩
  · rintro ⟨c, hc, hactive, hserves⟩
    exact ⟨c, ⟨⟨⟨identity, hc⟩, hactive⟩, hserves⟩, h.keyed identity c hc⟩

/-- The servers that are asked take the document. -/
theorem takes_of_mem_targets (h : t.Coherent named) {kind : RequestKind} {identities : List String}
    (htargets : t.targets kind path = .ok identities) {identity : String}
    (hmem : identity ∈ identities) : t.Takes path identity := by
  unfold targets at htargets
  dsimp only at htargets
  split at htargets
  · cases htargets
  · split at htargets
    · cases htargets
    · have hable := Except.ok.inj htargets
      refine (mem_serving h path).1 ?_
      rw [← hable] at hmem
      split at hmem
      · exact (List.mem_filter.1 (List.mem_of_mem_take hmem)).1
      · exact (List.mem_filter.1 hmem).1

theorem works_request (h : t.Coherent named) (hpath : named path) (kind : RequestKind) :
    Works named t (t.request kind path) := by
  unfold request
  split
  · exact works_report t _
  · next identities htargets =>
    split
    · exact works_report t _
    · next b hb =>
      exact works_askAll hpath t kind _ hb fun identity => takes_of_mem_targets h htargets

/-! ## Answers -/

theorem remarks_onHover (t : Turn) (result : Json) : t.Remarks (t.onHover result) := by
  unfold onHover
  split
  · exact remarks_tell t trivial
  · exact remarks_notice t _ _
  · exact remarks_notice t _ _

/-- The ways in which a formatting that can be read is used. -/
theorem onFormatting_cases {document : Option Path} {result : Json}
    (h : t.onFormatting document result = .ok t') :
    (t' = t ∧ document = none) ∨
    (∃ path edits level message, document = some path ∧ readEdits result = .ok edits ∧
      (edits = [] ∨ t.buffer path = none) ∧ t' = t.notice level message) ∨
    ∃ path edits b, document = some path ∧ readEdits result = .ok edits ∧ edits ≠ [] ∧
      t.buffer path = some b ∧
      t' = t.putEdited path (applyEdits b.text.toList edits b.cursor) := by
  unfold onFormatting at h
  cases hedits : readEdits result with
  | error e =>
    rw [hedits] at h
    cases h
  | ok edits =>
    simp only [hedits, bind, Except.bind, pure, Except.pure] at h
    cases document with
    | none =>
      cases h
      exact .inl ⟨rfl, rfl⟩
    | some path =>
      dsimp only at h
      split at h
      · next hempty =>
        cases h
        exact .inr (.inl ⟨path, edits, _, _, rfl, rfl, .inl (by simpa using hempty), rfl⟩)
      · next hne =>
        split at h
        · next hbuffer =>
          cases h
          exact .inr (.inl ⟨path, edits, _, _, rfl, rfl, .inr hbuffer, rfl⟩)
        · next b hb =>
          exact .inr (.inr ⟨path, edits, b, rfl, rfl, by simpa using hne, hb,
            (Except.ok.inj h).symm⟩)

/-- A formatting that cannot be used has no edits to read. -/
theorem readEdits_of_onFormatting {document : Option Path} {result : Json} {e : ResultError}
    (h : t.onFormatting document result = .error e) : readEdits result = .error e := by
  unfold onFormatting at h
  cases hedits : readEdits result with
  | error e' =>
    rw [hedits] at h
    exact congrArg Except.error (Except.error.inj h)
  | ok edits =>
    simp only [hedits, bind, Except.bind, pure, Except.pure] at h
    split at h
    · simp only [reduceCtorEq] at h
    · split at h
      · simp only [reduceCtorEq] at h
      · split at h
        · simp only [reduceCtorEq] at h
        · simp only [reduceCtorEq] at h

theorem works_putEdited {b : Buffer} (hpath : named path) (hb : t.buffer path = some b)
    (edited : Option Edited) : Works named t (t.putEdited path edited) := by
  cases edited with
  | none => exact .single .halts
  | some edited => exact .single (.rewrites hpath hb)

theorem remarks_onCompletion {identity : String} {document : Option Path} {result : Json}
    (h : t.onCompletion identity document result = .ok t') : t.Remarks t' := by
  unfold onCompletion at h
  cases hitems : readCompletion result with
  | error e =>
    rw [hitems] at h
    cases h
  | ok items =>
    simp only [hitems, bind, Except.bind, pure, Except.pure] at h
    have hshown : ∀ shown : List String,
        (if shown.isEmpty then
            (.ok ((t.tell .dismissCompletion).notice .info "No completions") : Interpreted Turn)
          else .ok (t.tell (.showCompletions shown))) = .ok t' → t.Remarks t' := by
      intro shown h
      split at h
      · cases h
        have hdismissed : t.Remarks (t.tell .dismissCompletion) := remarks_tell t trivial
        exact hdismissed.trans (remarks_notice _ _ _)
      · cases h
        exact remarks_tell t trivial
    split at h
    · exact hshown _ h
    · exact hshown _ h

theorem remarks_onLocation {result : Json} (h : t.onLocation result = .ok t') :
    t.Remarks t' := by
  unfold onLocation at h
  cases hlocation : readLocation result with
  | error e =>
    rw [hlocation] at h
    cases h
  | ok location =>
    simp only [hlocation, bind, Except.bind, pure, Except.pure] at h
    cases location with
    | none =>
      cases h
      exact remarks_notice t _ _
    | some location =>
      cases h
      exact remarks_tell t trivial

theorem remarks_onReferences {result : Json} (h : t.onReferences result = .ok t') :
    t.Remarks t' := by
  unfold onReferences at h
  cases hlocations : readReferences result with
  | error e =>
    rw [hlocations] at h
    cases h
  | ok locations =>
    simp only [hlocations, bind, Except.bind, pure, Except.pure] at h
    split at h
    · cases h
      exact remarks_notice t _ _
    · cases h
      exact remarks_tell t trivial

theorem remarks_onSymbols {document : Option Path} {result : Json}
    (h : t.onSymbols document result = .ok t') : t.Remarks t' := by
  unfold onSymbols at h
  cases hentries : readSymbols (document.getD ⟨""⟩) result with
  | error e =>
    rw [hentries] at h
    cases h
  | ok entries =>
    simp only [hentries, bind, Except.bind, pure, Except.pure] at h
    cases h
    exact remarks_tell t trivial

/-- An answer to anything but the handshake is remarked on, or its edits are put into the document
that it is about. -/
theorem onResult_cases (t : Turn) (identity : String) {request : PendingRequest} (result : Json)
    (hmethod : request.method ≠ .handshake) :
    t.Remarks (t.onResult identity request result) ∨
      ∃ path b edited, (request.method = .formatting ∨ request.method = .rangeFormatting) ∧
        request.document = some path ∧ t.buffer path = some b ∧
        t.onResult identity request result = t.putEdited path edited := by
  have hformatting : (request.method = .formatting ∨ request.method = .rangeFormatting) →
      ∀ t', t.onFormatting request.document result = .ok t' → t.Remarks t' ∨
        ∃ path b edited, (request.method = .formatting ∨ request.method = .rangeFormatting) ∧
          request.document = some path ∧ t.buffer path = some b ∧
          t' = t.putEdited path edited := by
    intro hformats t' h
    rcases onFormatting_cases h with ⟨rfl, -⟩ | ⟨path, edits, level, message, -, -, -, rfl⟩ |
      ⟨path, edits, b, hpath, -, -, hb, heq⟩
    · exact .inl .refl
    · exact .inl (remarks_notice t level message)
    · exact .inr ⟨path, b, _, hformats, hpath, hb, heq⟩
  unfold onResult
  dsimp only
  split
  · next t' h =>
    split at h
    -- one bullet for each method, in the order of the methods
    · next hr => exact absurd hr hmethod
    · cases h
      exact .inl .refl
    · cases h
      exact .inl (remarks_onHover t result)
    · next hr => exact hformatting (.inl hr) t' h
    · next hr => exact hformatting (.inr hr) t' h
    · exact .inl (remarks_onCompletion h)
    · exact .inl (remarks_onLocation h)
    · exact .inl (remarks_onLocation h)
    · exact .inl (remarks_onLocation h)
    · exact .inl (remarks_onLocation h)
    · exact .inl (remarks_onReferences h)
    · exact .inl (remarks_onSymbols h)
  · refine .inl ?_
    split
    · have hdismissed : t.Remarks (t.tell .dismissCompletion) := remarks_tell t trivial
      exact hdismissed.trans (remarks_report _ _)
    · exact remarks_report t _

/-- An error in answer to anything but the handshake is remarked on. -/
theorem remarks_onError (t : Turn) (identity : String) {request : PendingRequest}
    (hmethod : request.method ≠ .handshake) (e : ResponseError) :
    t.Remarks (t.onError identity request e) := by
  unfold onError
  dsimp only
  split
  · exact .refl
  · next hr => exact absurd hr hmethod
  · have hdismissed : t.Remarks (t.tell .dismissCompletion) := remarks_tell t trivial
    exact hdismissed.trans (remarks_report _ _)
  · exact remarks_report t _

/-- A message that does not answer a handshake is remarked on, publishes diagnostics, or answers a
request with edits that are put into the document. -/
theorem onInbound_cases (t : Turn) (identity : String) {item : Inbound}
    (hitem : item.answersHandshake = false) :
    t.Remarks (t.onInbound identity item) ∨ (∃ p, item = .notification (.published p)) ∨
      ∃ request result path b edited, item.formats = true ∧
        item = .response request (.ok result) ∧ request.document = some path ∧
        t.buffer path = some b ∧
        t.onInbound identity item = t.putEdited path edited := by
  cases item with
  | response request outcome =>
    have hmethod : request.method ≠ .handshake := by simpa [Inbound.answersHandshake] using hitem
    cases outcome with
    | ok result =>
      rcases onResult_cases t identity result hmethod with hremarks |
        ⟨path, b, edited, hformats, hpath, hb, heq⟩
      · exact .inl hremarks
      · refine .inr (.inr ⟨request, result, path, b, edited, ?_, rfl, hpath, hb, heq⟩)
        simpa [Inbound.formats] using hformats
    | error e => exact .inl (remarks_onError t identity hmethod e)
  | notification n =>
    cases n with
    | published p => exact .inr (.inl ⟨p, rfl⟩)
    | logged m => exact .inl .refl
    | shown m => exact .inl (remarks_tell t trivial)
    | unknown method => exact .inl .refl
  | messageRequest m => exact .inl (remarks_tell t trivial)

/-- A message that does not answer a handshake starts and activates no server. -/
theorem works_onInbound {identity : String} {item : Inbound}
    (hitem : item.answersHandshake = false)
    (hnamed : ∀ request outcome, item = .response request outcome →
      ∀ path, request.document = some path → named path) :
    Works named t (t.onInbound identity item) := by
  rcases onInbound_cases t identity hitem with hremarks | ⟨p, rfl⟩ |
    ⟨request, result, path, b, edited, -, rfl, hpath, hb, heq⟩
  · exact hremarks.works
  · exact works_published t identity p
  · rw [heq]
    exact works_putEdited (hnamed request _ rfl path hpath) hb edited

end Turn
end LanguageClient
