import LanguageClient.Proofs.Session.Course

/-!
# What a session does at one moment

What a session does at one moment is a chain of deeds, and `Deed` lists their kinds: routine aside,
diagnostics are published, views are bound and unbound, and servers are launched, entered, greeted
and ended. Each kind comes with what the moment must be for it, so that later proofs go through the
kinds of deeds and need not open an operation again.
-/

namespace LanguageClient

namespace Turn

/-- A turn in which a view was unbound, and with the last view of a document its diagnostics were
forgotten. -/
def unbound (t : Turn) (path : Path) (last : Bool) (views : ViewTable) : Turn :=
  (t.withViews views).withDiagnostics
    (if last then t.session.diagnostics.removePath path else t.session.diagnostics)

/-- What is done at a moment, as the smallest whole that the rest of a session can rely on. -/
inductive Deed (named : Path → Prop) (mo : Moment) : Turn → Turn → Prop where
  | routine {t t' : Turn} (h : Routine mo.Spells t t')
      (regular : t.Regular named → t'.Regular named) : Deed named mo t t'
  | publishes {t : Turn} {identity : String} {p : Publication}
      (hmo : mo = .acts t identity (.notification (.published p))) :
      Deed named mo t (t.published identity p)
  | binds {t : Turn} {view : ViewId} {path : Path} (handles : mo.Handles view) (name : named path)
      (free : ∀ bound, t.session.views.pathOf view = some bound → bound.place = path.place) :
      Deed named mo t (t.withViews (t.session.views.bind view path).2)
  | unbinds {t : Turn} {view : ViewId} {path : Path} {last : Bool} {views : ViewTable}
      (handles : mo.Handles view) (h : t.session.views.unbind view = some ((path, last), views)) :
      Deed named mo t (t.unbound path last views)
  | shows {t : Turn} {view : ViewId} {identity : String} {diagnostics : List RenderedDiagnostic}
      (handles : mo.Handles view) :
      Deed named mo t (t.tell (.setDiagnostics view identity diagnostics))
  | launches {t : Turn} {config : ServerConfig}
      (free : Registry.ensureAvailable t.session.connections config.identity = .ok ()) :
      Deed named mo t (t.launching config)
  | enters {t : Turn} {config : ServerConfig} {wireOpen : Bool}
      (free : Registry.ensureAvailable t.session.connections config.identity = .ok ()) :
      Deed named mo t ((t.entered config wireOpen).withLog config t.session.nextConnection)
  | greets {t : Turn} {identity : String} {c : Connection} {request : PendingRequest}
      {result : Json} {capabilities : ServerCapabilities} {info : Option ServerInfo}
      (hmo : mo = .acts t identity (.response request (.ok result)))
      (hc : t.connection identity = some c) (pending : c.state = .pending)
      (answered : ∀ n request, c.requests.requests.get? n = some request →
        request.method ≠ .handshake)
      (wire : c.wireOpen = true) (method : request.method = .handshake)
      (read : readHandshake result = .ok (capabilities, info)) :
      Deed named mo t ((t.activated identity c capabilities).tell (.connected identity info))
  | ends {t : Turn} {identity : String} {c : Connection} {messages : List Json}
      (hc : t.connection identity = some c) (h : messages = [] ∨ messages = c.shutdown.1) :
      Deed named mo t ((t.write c.id messages).teardown identity)

/-- What is done at a moment in order. -/
abbrev Deeds (named : Path → Prop) (mo : Moment) : Turn → Turn → Prop :=
  Relation.ReflTransGen (Deed named mo)

variable {named : Path → Prop} {mo : Moment} {t t' u : Turn} {path : Path} {identity : String}
  {c : Connection} {view : ViewId}

/-- To part from a server is to write the parting messages and to tear the connection down. -/
theorem teardown_advance_shutdown (hc : t.connection identity = some c) :
    (t.advance identity c.shutdown.2 c.shutdown.1).teardown identity =
      (t.write c.id c.shutdown.1).teardown identity := by
  have hid : c.shutdown.2.id = c.id := by rw [Connection.shutdown_same]
  have hkept : t.advance identity c.shutdown.2 c.shutdown.1 =
      (t.write c.id c.shutdown.1).keep identity c.shutdown.2 := by
    rw [advance, hid]
    rfl
  rw [hkept]
  exact teardown_keep _ hc hid

/-! ## What deeds do -/

/-- Telling one thing after another adds these effects and nothing else. -/
theorem foldl_tell {α : Type} (t : Turn) (l : List α) (f : α → Callback) :
    l.foldl (fun t a => t.tell (f a)) t =
      { t with effects := t.effects ++ l.map fun a => .tell (f a) } := by
  induction l generalizing t with
  | nil => simp
  | cons a l ih =>
    rw [List.foldl_cons, ih]
    simp [tell, emit]

/-- Diagnostics of a document as a view shows them. -/
def rendered (t : Turn) (path : Path) (diagnostics : List Diagnostic) : List RenderedDiagnostic :=
  diagnostics.map (·.render ((t.bufferText path).map String.toList))

/-- A view is shown what is known of its document by telling the host, and nothing else changes. -/
theorem showKnownDiagnostics_eq (t : Turn) (view : ViewId) (path : Path) :
    t.showKnownDiagnostics view path = { t with
      effects := t.effects ++ (t.session.diagnostics.forPath path).map fun known =>
        .tell (.setDiagnostics view known.1 (t.rendered path known.2)) } :=
  foldl_tell t (t.session.diagnostics.forPath path) fun known =>
    .setDiagnostics view known.1 (t.rendered path known.2)

/-- The views that show something of a server which it loses when it ends. -/
def showing (t : Turn) (identity : String) : List ViewId :=
  (t.session.diagnostics.removeConnection identity).1.flatMap t.session.views.viewsOf

/-- A connection that ends is taken leave of, and views no longer show its diagnostics. -/
theorem teardown_eq (hc : t.connection identity = some c) :
    t.teardown identity = { t.ended identity c with
      effects := t.effects ++ .retire c.id ::
        (t.showing identity).map fun view => .tell (.setDiagnostics view identity []) } := by
  have hfold := foldl_tell (t.ended identity c) (t.showing identity)
    fun view => .setDiagnostics view identity []
  simp only [teardown, hc]
  refine Eq.trans hfold ?_
  simp [ended, emit]

/-- Whether a publication counts: its document is open, and it speaks of the version that is open if
it speaks of any. -/
def accepts (t : Turn) (identity : String) (p : Publication) : Bool :=
  match (t.connection identity).bind (·.documents.version (Uri.toPath p.uri)) with
  | none => false
  | some tracked => p.version.all fun version => version = (tracked : Int)

/-- A publication that does not count changes nothing. -/
theorem published_of_not_accepts {p : Publication} (h : t.accepts identity p = false) :
    t.published identity p = t := by
  unfold accepts at h
  unfold published
  dsimp only
  split
  · rfl
  · next tracked htracked =>
    simp only [htracked] at h
    rw [if_pos]
    cases hversion : p.version with
    | none => simp [hversion] at h
    | some version => simpa [hversion] using h

/-- A publication that counts stands in the place of what was published before, and the views of its
document show it. -/
theorem published_of_accepts {p : Publication} (h : t.accepts identity p = true) :
    t.published identity p =
      { t.withDiagnostics (t.session.diagnostics.replace identity (Uri.toPath p.uri)
          (p.diagnostics.map Diagnostic.ofPublished)) with
        effects := t.effects ++ (t.session.views.viewsOf (Uri.toPath p.uri)).map fun view =>
          .tell (.setDiagnostics view identity
            (t.rendered (Uri.toPath p.uri) (p.diagnostics.map Diagnostic.ofPublished))) } := by
  unfold accepts at h
  split at h
  · cases h
  · next tracked htracked =>
    have hsame : (p.version.any fun version => version ≠ (tracked : Int)) = false := by
      cases hversion : p.version with
      | none => rfl
      | some version => simpa [hversion] using h
    simp only [published, htracked, hsame, DiagnosticStore.get_replace, and_self, if_true]
    exact foldl_tell _ _ fun view => .setDiagnostics view identity _

/-! ## What every deed keeps -/

theorem Deed.regular (h : Deed named mo t t') (ht : t.Regular named) : t'.Regular named := by
  cases h with
  | routine h regular => exact regular ht
  | publishes hmo => exact (works_published t _ _).regular ht
  | binds handles name free => exact Works.regular (.single (.binds name free)) ht
  | unbinds handles h =>
    have hunbound : (t.withViews _).Regular named := Works.regular (.single (.unbinds h)) ht
    unfold unbound
    split
    · exact Works.regular (.single .forgets) hunbound
    · exact hunbound
  | shows handles => exact (works_tell t (by simp)).regular ht
  | launches free => exact Steps.regular (.single .launches) ht
  | enters free => exact Steps.regular (.single (.enters free)) ht
  | @greets identity c request result capabilities info hmo hc pending answered wire =>
    have hactivated : (t.activated identity c capabilities).Regular named :=
      Steps.regular (.single (.activates hc pending answered wire)) ht
    exact (works_tell _ (by simp)).regular hactivated
  | @ends identity c messages hc h =>
    rcases h with rfl | rfl
    · have hsame : t.write c.id [] = t := by simp [write]
      rw [hsame]
      exact (works_teardown t _).regular ht
    · rw [← teardown_advance_shutdown hc]
      exact (works_stop (stop_eq hc)).regular ht

/-- **What every deed keeps at regular turns holds after a moment.** -/
theorem Deeds.induction {P : Turn → Prop} (h : Deeds named mo t t') (ht : t.Regular named)
    (hdeed : ∀ u u', u.Regular named → Deed named mo u u' → P u → P u') (hstart : P t) : P t' := by
  have hboth : t'.Regular named ∧ P t' := by
    induction h with
    | refl => exact ⟨ht, hstart⟩
    | tail _ hlast ih => exact ⟨hlast.regular ih.1, hdeed _ _ ih.1 hlast ih.2⟩
  exact hboth.2

/-- Work that is routine is a deed. -/
theorem deeds_of_works (h : Routine mo.Spells t t') (hworks : Works named t t') :
    Deeds named mo t t' :=
  .single (.routine h hworks.regular)

theorem deeds_report (t : Turn) (f : Failure) : Deeds named mo t (t.report f) :=
  deeds_of_works (routine_report t f) (works_report t f)

theorem deeds_of_remarks (h : t.Remarks t') : Deeds named mo t t' :=
  deeds_of_works h.routine h.works

/-! ## Servers -/

theorem deeds_teardown (t : Turn) (identity : String) :
    Deeds named mo t (t.teardown identity) := by
  cases hc : t.connection identity with
  | none =>
    have hsame : t.teardown identity = t := by simp only [teardown, hc]
    rw [hsame]
  | some c =>
    have hsame : t.write c.id [] = t := by simp [write]
    have hends : Deed named mo t ((t.write c.id []).teardown identity) := .ends hc (.inl rfl)
    rw [hsame] at hends
    exact .single hends

theorem deeds_stop (h : t.stop identity = .ok t') : Deeds named mo t t' := by
  cases hc : t.connection identity with
  | none => simp [stop, hc] at h
  | some c =>
    rw [stop_eq hc, teardown_advance_shutdown hc] at h
    cases h
    exact .single (.ends hc (.inr rfl))

theorem deeds_stopAll (t : Turn) : Deeds named mo t t.stopAll := by
  refine List.foldlRecOn (motive := fun u => Deeds named mo t u) _ _ .refl fun u hu identity _ => ?_
  split
  · next u' hstop => exact hu.trans (deeds_stop hstop)
  · exact hu

theorem deeds_exited (t : Turn) (id : ConnectionId) (code : Option Int) :
    Deeds named mo t (t.exited id code) := by
  unfold exited
  split
  · exact .refl
  · exact (deeds_report t _).trans (deeds_teardown _ _)

theorem deeds_start (t : Turn) (launch : Launcher) (target : StartTarget) :
    Deeds named mo t (t.start launch target) := by
  apply start_elim launch target
  case failed => exact fun e => deeds_report t e
  case refused =>
    exact fun config e hfree => .trans (.single (.launches hfree)) (deeds_report _ _)
  case entered => exact fun config wireOpen sent hfree _ => .single (.enters hfree)
  case unsent =>
    intro config wireOpen e hfree
    exact .trans (.single (.enters hfree)) ((deeds_teardown _ _).trans (deeds_report _ _))

/-! ## Views -/

/-- A turn with another focus is as regular. -/
theorem deeds_withFocus (t : Turn) (focused : Option ViewId) :
    Deeds named mo t (t.withFocus focused) :=
  deeds_of_works (routine_of_eq rfl rfl rfl rfl rfl) (.single (.focuses focused))

/-- What a view shows is unbound when it is closed, and all else is routine. -/
theorem viewClosed_cases (ht : t.Regular named) (spelled : Path → Prop)
    (hspelled : ∀ path, t.session.views.pathOf view = some path → spelled path) :
    ∃ focused, (t.session.views.pathOf view = none ∧ t.viewClosed view = t.withFocus focused) ∨
      ∃ path last views, t.session.views.unbind view = some ((path, last), views) ∧
        Routine spelled ((t.withFocus focused).unbound path last views) (t.viewClosed view) ∧
        Works named ((t.withFocus focused).unbound path last views) (t.viewClosed view) := by
  obtain ⟨focused, ⟨hnone, heq⟩ | ⟨path, last, views, hunbind, heq⟩⟩ := viewClosed_eq t view
  · exact ⟨focused, .inl ⟨hnone, heq⟩⟩
  · refine ⟨focused, .inr ⟨path, last, views, hunbind, ?_⟩⟩
    rw [heq]
    cases last with
    | false => exact ⟨.refl _, .refl⟩
    | true =>
      have hbound := (ViewTable.pathOf_unbind hunbind view).1
      have hname : named path := ht.coherent.viewed view path hbound
      have hquiet : ((t.withFocus focused).unbound path true views).Quiet path.place :=
        fun identity => DiagnosticStore.get?_removePath_self t.session.diagnostics identity path
      have hunbound : Works named t ((t.withFocus focused).unbound path true views) :=
        .trans (.single (.focuses focused)) (.trans (.single (.unbinds hunbind)) (.single .forgets))
      rw [if_pos rfl, shut_eq]
      exact ⟨routine_foldl_closeDocument (hunbound.regular ht).coherent hname
        (hspelled path hbound) hquiet _, works_foldl_closeDocument hname hquiet _⟩

theorem deeds_viewClosed (ht : t.Regular named) (handles : mo.Handles view)
    (hspells : ∀ path, t.session.views.pathOf view = some path → mo.Spells path) :
    Deeds named mo t (t.viewClosed view) := by
  obtain ⟨focused, ⟨-, heq⟩ | ⟨path, last, views, hunbind, hroutine, hworks⟩⟩ :=
    viewClosed_cases ht mo.Spells hspells
  · rw [heq]
    exact deeds_withFocus t focused
  · have hfocused : Deeds named mo t (t.withFocus focused) := deeds_withFocus t focused
    exact (hfocused.tail (.unbinds handles hunbind)).trans (deeds_of_works hroutine hworks)

theorem deeds_showKnownDiagnostics (t : Turn) (handles : mo.Handles view) (path : Path) :
    Deeds named mo t (t.showKnownDiagnostics view path) :=
  List.foldlRecOn (motive := fun u => Deeds named mo t u) _ _ .refl
    fun _ hu _ _ => hu.tail (.shows handles)

theorem deeds_openEverywhere (hname : named path) (hpath : mo.Spells path) (t : Turn) :
    Deeds named mo t (t.openEverywhere path) :=
  deeds_of_works (routine_openEverywhere hpath t) (works_openEverywhere hname t)

/-- A view is bound, its document may be opened, and the view is shown what is known of it. -/
theorem bindView_cases (t : Turn) (view : ViewId) (path : Path) :
    ∃ u, (u = t.withViews (t.session.views.bind view path).2 ∨
        u = (t.withViews (t.session.views.bind view path).2).openEverywhere path) ∧
      t.bindView view path = u.showKnownDiagnostics view path := by
  unfold bindView
  dsimp only
  split
  · exact ⟨_, .inr rfl, rfl⟩
  · exact ⟨_, .inl rfl, rfl⟩

theorem deeds_bindView (handles : mo.Handles view) (hname : named path) (hpath : mo.Spells path)
    (t : Turn)
    (hfree : ∀ bound, t.session.views.pathOf view = some bound → bound.place = path.place) :
    Deeds named mo t (t.bindView view path) := by
  obtain ⟨u, hu, heq⟩ := bindView_cases t view path
  have hbound : Deeds named mo t (t.withViews (t.session.views.bind view path).2) :=
    .single (.binds handles hname hfree)
  rw [heq]
  refine hbound.trans (.trans ?_ (deeds_showKnownDiagnostics u handles path))
  rcases hu with rfl | rfl
  · exact .refl
  · exact deeds_openEverywhere hname hpath _

theorem deeds_viewOpened (ht : t.Regular named) (handles : mo.Handles view) (hname : named path)
    (hpath : mo.Spells path)
    (hspells : ∀ bound, t.session.views.pathOf view = some bound → mo.Spells bound) :
    Deeds named mo t (t.viewOpened view path) := by
  obtain ⟨u, hu, hfree, heq⟩ := viewOpened_eq t view path
  rw [heq]
  rcases hu with rfl | ⟨rfl, -⟩
  · exact deeds_bindView handles hname hpath _ hfree
  · exact (deeds_viewClosed ht handles hspells).trans (deeds_bindView handles hname hpath _ hfree)

/-! ## Messages of servers -/

theorem deeds_onHandshake {request : PendingRequest} {result : Json} (ht : t.Regular named)
    (hmo : mo = .acts t identity (.response request (.ok result)))
    (hmethod : request.method = .handshake) (hc : t.connection identity = some c)
    (hpending : c.state = .pending) (hanswered : ∀ n request,
      c.requests.requests.get? n = some request → request.method ≠ .handshake) :
    Deeds named mo t (t.onHandshake identity result) := by
  rcases onHandshake_eq hc result with ⟨f, heq⟩ | ⟨hwire, capabilities, info, hread, heq⟩
  · rw [heq]
    exact (deeds_teardown t identity).trans (deeds_report _ f)
  · rw [heq]
    refine .trans (.single (.greets hmo hc hpending hanswered hwire hmethod hread)) ?_
    split
    · next path hpath =>
      obtain ⟨view, -, hview⟩ := Option.bind_eq_some_iff.1 hpath
      have hspells : mo.Spells path := by
        rw [hmo]
        exact .inr ⟨hmethod, hpath⟩
      exact deeds_of_works (routine_openDocument hspells _ identity)
        (works_openDocument (ht.coherent.viewed view path hview) _ identity)
    · exact .refl

theorem deeds_onInbound {item : Inbound} {rest : List Inbound} (ht : t.Regular named)
    (hc : t.connection identity = some c)
    (ha : t.Awaits named identity c.id (item :: rest)) :
    Deeds named (.acts t identity item) t (t.onInbound identity item) := by
  cases hitem : item.answersHandshake with
  | true =>
    obtain ⟨pending, answered⟩ := ha.pending item List.mem_cons_self hitem c hc rfl
    cases item with
    | notification n => cases hitem
    | messageRequest m => cases hitem
    | response request outcome =>
      have hmethod : request.method = .handshake := by simpa [Inbound.answersHandshake] using hitem
      cases outcome with
      | ok result =>
        have heq : t.onInbound identity (.response request (.ok result)) =
            t.onHandshake identity result := by
          simp only [onInbound, onResult, hmethod]
        rw [heq]
        exact deeds_onHandshake ht rfl hmethod hc pending answered
      | error e =>
        have heq : t.onInbound identity (.response request (.error e)) =
            (t.teardown identity).report (.ofResponse request.method e) := by
          simp only [onInbound, onError, hmethod]
        rw [heq]
        exact (deeds_teardown t identity).trans (deeds_report _ _)
  | false =>
    rcases onInbound_cases t identity hitem with hremarks | ⟨p, rfl⟩ |
      ⟨request, result, path, b, edited, -, rfl, hpath, hb, heq⟩
    · exact deeds_of_remarks hremarks
    · exact .single (.publishes rfl)
    · have hname := ha.asked request (.ok result) path List.mem_cons_self hpath
      rw [heq]
      refine deeds_of_works (routine_putEdited ?_ t edited) (works_putEdited hname hb edited)
      exact .inl hpath

/-! ## Moments -/

theorem deeds_orReport {r : Except Failure Turn} (h : ∀ t', r = .ok t' → Deeds named mo t t') :
    Deeds named mo t (t.orReport r) := by
  cases r with
  | ok t' => exact h t' rfl
  | error e => exact deeds_report t e

/-- What the host wants is done in deeds. -/
theorem deeds_act (ht : t.Regular named) (launch : Launcher) {a : Action}
    (hnames : (Event.action a).Names named) :
    Deeds named (.moves t (.event launch (.action a))) t (t.act launch a) := by
  cases a with
  | start target => exact deeds_start t launch target
  | stop identity => exact deeds_orReport fun _ => deeds_stop
  | stopAll => exact deeds_stopAll t
  | showLog identity => exact deeds_orReport fun _ h => deeds_of_remarks (remarks_showLog h)
  | viewOpened view path =>
    exact deeds_viewOpened ht .opens (hnames path rfl) (.inl rfl) fun _ hbound =>
      Or.inr hbound
  | viewFocused view =>
    change Deeds named _ t (t.viewFocused view)
    unfold viewFocused
    dsimp only
    refine (deeds_withFocus t (some view)).trans ?_
    split
    · next path hpath =>
      have hspells : (Moment.moves t (.event launch (.action (.viewFocused view)))).Spells path :=
        .inr hpath
      exact deeds_openEverywhere (ht.coherent.viewed view path hpath) hspells _
    · exact .refl
  | viewClosed view => exact deeds_viewClosed ht .closes fun _ hbound => Or.inr hbound
  | edited path changes =>
    exact .single (.routine (routine_syncChanges (.inl rfl) t changes) fun _ =>
      ht.move (m := .event launch (.action (.edited path changes))) hnames)
  | saved path => exact deeds_of_works (routine_saved (.inl rfl) t) (works_saved t path)
  | resync path =>
    exact deeds_orReport fun _ h =>
      deeds_of_works (routine_resync (.inl rfl) h) (works_resync (hnames path rfl) h)
  | request kind path =>
    exact deeds_of_works (routine_request ht.coherent (.inl rfl) kind)
      (works_request ht.coherent (hnames path rfl) kind)
  | lineDiagnostics path line => exact deeds_of_remarks (remarks_lineDiagnostics t path line)

/-- **Whatever happens at a moment is done in deeds.** -/
theorem deeds_of_occurs (ht : mo.before.Regular named) (hmo : mo.Occurs named) :
    Deeds named mo mo.before mo.after := by
  have hafter := ht.after hmo
  cases hmo with
  | hears hc => exact .single (.routine (routine_receive hc _) fun _ => hafter)
  | acts hc awaits => exact deeds_onInbound ht hc awaits
  | @moves t m names silent =>
    cases m with
    | event launch e =>
      cases e with
      | stdout id bytes => cases silent
      | stderr id bytes => exact deeds_of_works (routine_stderr t id bytes) (works_stderr t id bytes)
      | exited id code => exact deeds_exited t id code
      | action a => exact deeds_act ht launch names
    | edit path changes cursor selection =>
      have hbuffers : Routine (Moment.moves t (.edit path changes cursor selection)).Spells t
          (t.edit path changes cursor selection) := by
        obtain ⟨buffers, heq⟩ := edit_eq t path changes cursor selection
        rw [heq]
        exact routine_of_eq rfl rfl rfl rfl rfl
      exact .single (.routine (hbuffers.trans (routine_syncChanges rfl _ changes)) fun _ => hafter)
    | buffer path b =>
      exact .single (.routine (routine_of_eq rfl rfl rfl rfl rfl) fun _ => hafter)
    | cut id => exact .single (.routine (routine_cut ht.coherent id) fun _ => hafter)

/-! ## The effects of moments -/

/-- **What is so of the effects of each deed of a moment is so of all that is done at it.** -/
theorem effects_of_occurs {Q : Effect → Prop} (ht : mo.before.Regular named)
    (hmo : mo.Occurs named)
    (h : ∀ u u', u.Regular named → Deed named mo u u' →
      ∃ more, u'.effects = u.effects ++ more ∧ ∀ e ∈ more, Q e) :
    mo.after.effects = mo.before.effects ++ mo.done ∧ ∀ e ∈ mo.done, Q e := by
  obtain ⟨more, heffects, hmore⟩ := (deeds_of_occurs ht hmo).induction
    (P := fun u => ∃ more, u.effects = mo.before.effects ++ more ∧ ∀ e ∈ more, Q e) ht
    (fun u u' hu hdeed hbefore => by
      obtain ⟨first, hfirst, hall⟩ := hbefore
      obtain ⟨second, hsecond, hrest⟩ := h u u' hu hdeed
      refine ⟨first ++ second, by rw [hsecond, hfirst, List.append_assoc], fun e he => ?_⟩
      rcases List.mem_append.1 he with he | he
      · exact hall e he
      · exact hrest e he)
    ⟨[], by simp, by simp⟩
  have hdone : mo.done = more := added_of_effects_eq heffects
  rw [hdone]
  exact ⟨heffects, hmore⟩

/-- A deed only adds to what was done. -/
theorem Deed.grows (h : Deed named mo t t') : ∃ more, t'.effects = t.effects ++ more := by
  cases h with
  | routine h regular =>
    obtain ⟨more, heffects, -⟩ := h.effects
    exact ⟨more, heffects⟩
  | @publishes identity p hmo =>
    cases h : t.accepts identity p with
    | true =>
      rw [published_of_accepts h]
      exact ⟨_, rfl⟩
    | false =>
      rw [published_of_not_accepts h]
      exact ⟨[], by simp⟩
  | binds | unbinds => exact ⟨[], (List.append_nil _).symm⟩
  | shows | launches => exact ⟨_, rfl⟩
  | enters | greets => exact ⟨_, List.append_assoc _ _ _⟩
  | @ends identity c messages hc h =>
    have hwritten : (t.write c.id messages).connection identity = some c := hc
    rw [teardown_eq hwritten]
    exact ⟨_, List.append_assoc _ _ _⟩

theorem effects_after (ht : mo.before.Regular named) (hmo : mo.Occurs named) :
    mo.after.effects = mo.before.effects ++ mo.done :=
  (effects_of_occurs (Q := fun _ => True) ht hmo fun _ _ _ hdeed => by
    obtain ⟨more, hmore⟩ := hdeed.grows
    exact ⟨more, hmore, fun _ _ => trivial⟩).1

/-- All that is done in a run is done at its moments. -/
theorem Leads.effects_eq {ms : List Moment} (h : Leads named t ms t') (ht : t.Regular named) :
    t'.effects = t.effects ++ ms.flatMap Moment.done := by
  induction h with
  | start => simp
  | @next ms mo prior occurs ih =>
    rw [effects_after (prior.regular ht) occurs, ih, List.flatMap_append, List.append_assoc]
    simp

end Turn
end LanguageClient
