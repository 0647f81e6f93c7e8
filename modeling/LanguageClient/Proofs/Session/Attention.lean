import LanguageClient.Proofs.Connection.History
import LanguageClient.Proofs.Session.Publications

/-!
# What a session attends to

A session attends to the views, to the one in focus and to the documents that it has opened on
servers. Unless a view is opened, focused or closed, whatever happens leaves the views and the focus
as they are, closes no document on a connection that goes on, and opens no document but the one that
is asked about and the one in the focused view (`attends_or_views`).
-/

namespace LanguageClient

/-- Whether a connection goes on with the documents that it had, where only documents of a class
were opened in addition. -/
structure Connection.Extends (opened : Place → Prop) (c c' : Connection) : Prop where
  id : c'.id = c.id
  keeps : ∀ place, c.documents.documents.contains place = true →
    c'.documents.documents.contains place = true
  opens : ∀ place, c'.documents.documents.contains place = true →
    c.documents.documents.contains place = true ∨ opened place

namespace Moment

/-- Whether the host asks about a document at a moment. -/
def asksAbout (mo : Moment) (place : Place) : Bool :=
  match mo with
  | moves _ (.event _ (.action (.request _ path))) => path.place = place
  | _ => false

/-- The view that is focused at a moment. -/
def focuses? : Moment → Option ViewId
  | moves _ (.event _ (.action (.viewFocused view))) => some view
  | _ => none

/-- Whether a document is asked about at a moment or is the one in the focused view. -/
def Seeks (mo : Moment) (place : Place) : Prop :=
  mo.asksAbout place = true ∨ ∃ path,
    mo.before.session.focused.bind mo.before.session.views.pathOf = some path ∧ path.place = place

/-- Whether the views and the focus are the same after a moment, and the documents but for those that
it seeks and those of a connection that ends. -/
structure Attends (mo : Moment) : Prop where
  views : mo.after.session.views = mo.before.session.views
  focused : mo.after.session.focused = mo.before.session.focused
  opens : ∀ identity path, mo.after.hasOpen identity path = true →
    mo.before.hasOpen identity path = true ∨ mo.Seeks path.place
  keeps : ∀ identity path, mo.before.hasOpen identity path = true →
    (mo.after.hasOpen identity path = true ↔ mo.ends identity = false)

end Moment

namespace Turn

variable {named : Path → Prop} {opened : Place → Prop} {t t' u : Turn} {mo : Moment} {path : Path}
  {identity : String} {c c' d : Connection}

theorem hasOpen_iff : t.hasOpen identity path = true ↔
    ∃ c, t.connection identity = some c ∧ c.documents.documents.contains path.place = true :=
  Option.any_eq_true _ _

/-- Whether all connections of a turn were there before, and go on with their documents and those of
a class, while the views and the focus are the same. -/
structure Extends (opened : Place → Prop) (t t' : Turn) : Prop where
  views : t'.session.views = t.session.views
  focused : t'.session.focused = t.session.focused
  stood : ∀ identity c', t'.connection identity = some c' →
    ∃ c, t.connection identity = some c ∧ c.Extends opened c'

/-! ## Chains -/

theorem extends_of_documents (hid : c'.id = c.id) (h : c'.documents = c.documents) :
    c.Extends opened c' :=
  ⟨hid, fun _ hopen => h ▸ hopen, fun _ hopen => .inl (h ▸ hopen)⟩

theorem extends_trans (h : c.Extends opened c') (h' : c'.Extends opened d) :
    c.Extends opened d := by
  refine ⟨h'.id.trans h.id, fun place hopen => h'.keeps place (h.keeps place hopen),
    fun place hopen => ?_⟩
  rcases h'.opens place hopen with hopen | hopened
  · exact h.opens place hopen
  · exact .inr hopened

theorem extends_of_eq (hconnection : t'.connection = t.connection)
    (hviews : t'.session.views = t.session.views)
    (hfocused : t'.session.focused = t.session.focused) : t.Extends opened t' := by
  refine ⟨hviews, hfocused, fun identity c hc => ⟨c, ?_, extends_of_documents rfl rfl⟩⟩
  rw [← hconnection]
  exact hc

theorem Extends.refl (t : Turn) : t.Extends opened t := extends_of_eq rfl rfl rfl

theorem Extends.trans (h : t.Extends opened t') (h' : t'.Extends opened u) :
    t.Extends opened u := by
  refine ⟨h'.views.trans h.views, h'.focused.trans h.focused, fun identity d hd => ?_⟩
  obtain ⟨c', hc', hlater⟩ := h'.stood identity d hd
  obtain ⟨c, hc, hearlier⟩ := h.stood identity c' hc'
  exact ⟨c, hc, extends_trans hearlier hlater⟩

theorem Extends.foldl {α : Type} {f : Turn → α → Turn} {l : List α}
    (h : ∀ u : Turn, ∀ a ∈ l, u.Extends opened (f u a)) (t : Turn) :
    t.Extends opened (l.foldl f t) :=
  List.foldlRecOn l f (.refl t) fun u hu a ha => hu.trans (h u a ha)

theorem extends_advance (hc : t.connection identity = some c) (h : c.Extends opened c')
    (messages : List Json) : t.Extends opened (t.advance identity c' messages) := by
  refine ⟨rfl, rfl, fun other d hd => ?_⟩
  exact exists_of_connection_advance (fun _ => extends_of_documents rfl rfl) hc h hd

theorem extends_emit (t : Turn) (e : Effect) : t.Extends opened (t.emit e) :=
  extends_of_eq rfl rfl rfl

theorem extends_report (t : Turn) (f : Failure) : t.Extends opened (t.report f) :=
  extends_emit t _

theorem extends_write (t : Turn) (id : ConnectionId) (messages : List Json) :
    t.Extends opened (t.write id messages) :=
  extends_of_eq rfl rfl rfl

theorem Remarks.extends (h : t.Remarks t') : t.Extends opened t' := by
  induction h with
  | refl => exact .refl t
  | tail _ hlast ih =>
    obtain ⟨cb, -, rfl⟩ := hlast
    exact ih.trans (extends_emit _ _)

theorem extends_orReport {r : Except Failure Turn} (h : ∀ t', r = .ok t' → t.Extends opened t') :
    t.Extends opened (t.orReport r) := by
  cases r with
  | ok t' => exact h t' rfl
  | error e => exact extends_report t e

/-! ## Documents -/

theorem extends_openDocument (hpath : opened path.place) (t : Turn) (identity : String) :
    t.Extends opened (t.openDocument identity path) := by
  rcases openDocument_cases t identity path with heq |
    ⟨c, s, language, n, documents, hc, -, -, -, hopen, heq⟩
  · rw [heq]
    exact .refl t
  · rw [heq]
    have hcontains := DocumentTable.contains_openDocument hopen
    have hextends : c.Extends opened { c with documents := documents } := by
      refine ⟨rfl, fun place h => (hcontains place).2 (.inr h), fun place h => ?_⟩
      rcases (hcontains place).1 h with rfl | h
      · exact .inr hpath
      · exact .inl h
    exact extends_advance hc hextends _

theorem extends_openEverywhere (hpath : opened path.place) (t : Turn) :
    t.Extends opened (t.openEverywhere path) :=
  .foldl (fun u identity _ => extends_openDocument hpath u identity) t

theorem extends_syncChanges (t : Turn) (path : Path) (changes : List ContentChange) :
    t.Extends opened (t.syncChanges path changes) := by
  refine .foldl (fun u identity _ => ?_) t
  rcases syncChangesTo_cases u path changes identity with ⟨heq, -⟩ |
    ⟨c, wanted, n, documents, hc, -, -, hchange, heq⟩
  · rw [heq]
    exact .refl u
  · rw [heq]
    have hcontains := DocumentTable.contains_change hchange
    have hextends : c.Extends opened { c with documents := documents } :=
      ⟨rfl, fun place h => (hcontains place).trans h, fun place h => .inl (hcontains place ▸ h)⟩
    exact extends_advance hc hextends _

theorem extends_saved (t : Turn) (path : Path) : t.Extends opened (t.saved path) := by
  refine .foldl (fun u identity _ => ?_) t
  unfold savedTo
  split
  · exact .refl u
  · split
    · exact .refl u
    · dsimp only
      rw [notify_eq]
      exact extends_write u _ _

theorem extends_resync (h : t.resync path = .ok t') : t.Extends opened t' := by
  unfold resync at h
  split at h
  · cases h
    exact extends_syncChanges t path _
  · cases h

theorem extends_putEdited (t : Turn) (path : Path) (edited : Option Edited) :
    t.Extends opened (t.putEdited path edited) := by
  cases edited with
  | none => exact extends_emit t _
  | some edited =>
    have hreplaced : t.Extends opened
        (t.replaceDocument path (String.ofList edited.text) edited.cursor) :=
      extends_of_eq rfl rfl rfl
    exact hreplaced.trans (extends_syncChanges _ path _)

/-! ## Requests and servers -/

theorem extends_request (ht : t.Coherent named) (hpath : opened path.place) (kind : RequestKind) :
    t.Extends opened (t.request kind path) := by
  unfold request
  split
  · exact extends_report t _
  · next identities htargets =>
    split
    · exact extends_report t _
    · next b hb =>
      refine askAll_induction (P := t.Extends opened) kind _ (fun u identity _ _ hu => hu.trans ?_)
        (fun u f hu => hu.trans (extends_report u f))
        (fun identity => takes_of_mem_targets ht htargets) (.refl t)
      have hopened : u.Extends opened (u.openDocument identity path) :=
        extends_openDocument hpath u identity
      rw [ask_snd]
      split
      · exact hopened
      · next c hc =>
        have hsame := c.sendRequest_snd kind.capability.method
          (requestParams t.session.settings kind path b) (some path)
        refine hopened.trans (extends_advance hc (extends_of_documents ?_ ?_) _)
        · rw [hsame]
        · rw [hsame]

theorem extends_teardown (t : Turn) (identity : String) :
    t.Extends opened (t.teardown identity) := by
  cases hc : t.connection identity with
  | none =>
    have hsame : t.teardown identity = t := by simp only [teardown, hc]
    rw [hsame]
    exact .refl t
  | some c =>
    have hteardown := teardown_eq hc
    refine ⟨by rw [hteardown]; rfl, by rw [hteardown]; rfl, fun other d hd => ⟨d, ?_, ?_⟩⟩
    · rw [connection_teardown] at hd
      split at hd
      · cases hd
      · exact hd
    · exact extends_of_documents rfl rfl

theorem extends_stop (h : t.stop identity = .ok t') : t.Extends opened t' := by
  cases hc : t.connection identity with
  | none => simp [stop, hc] at h
  | some c =>
    rw [stop_eq hc, teardown_advance_shutdown hc] at h
    cases h
    exact (extends_write t _ _).trans (extends_teardown _ identity)

theorem extends_stopAll (t : Turn) : t.Extends opened t.stopAll := by
  refine .foldl (fun u identity _ => ?_) t
  split
  · next hstop => exact extends_stop hstop
  · exact .refl u

theorem extends_exited (t : Turn) (id : ConnectionId) (code : Option Int) :
    t.Extends opened (t.exited id code) := by
  unfold exited
  split
  · exact .refl t
  · exact (extends_report t _).trans (extends_teardown _ _)

theorem extends_stderr (t : Turn) (id : ConnectionId) (bytes : Bytes) :
    t.Extends opened (t.stderr id bytes) := by
  unfold stderr
  split
  · exact .refl t
  · exact extends_of_eq rfl rfl rfl

/-! ## Messages of servers -/

theorem extends_published (t : Turn) (identity : String) (p : Publication) :
    t.Extends opened (t.published identity p) := by
  cases haccepts : t.accepts identity p with
  | false =>
    rw [published_of_not_accepts haccepts]
    exact .refl t
  | true =>
    rw [published_of_accepts haccepts]
    exact extends_of_eq rfl rfl rfl

theorem extends_activated (hc : t.connection identity = some c)
    (capabilities : ServerCapabilities) :
    t.Extends opened (t.activated identity c capabilities) := by
  have hsame : c.Extends opened { c with state := .active } := extends_of_documents rfl rfl
  have hgreeted : t.Extends opened (t.advance identity { c with state := .active } c.greetings) :=
    extends_advance hc hsame _
  exact hgreeted.trans (extends_of_eq rfl rfl rfl)

/-- A handshake that is answered opens the document in the focused view, if anything. -/
theorem extends_onHandshake (hc : t.connection identity = some c)
    (hfocused : ∀ path, t.session.focused.bind t.session.views.pathOf = some path →
      opened path.place) (result : Json) : t.Extends opened (t.onHandshake identity result) := by
  rcases onHandshake_eq hc result with ⟨f, heq⟩ | ⟨-, capabilities, info, -, heq⟩
  · rw [heq]
    exact (extends_teardown t identity).trans (extends_report _ f)
  · have hactivated : t.Extends opened
        ((t.activated identity c capabilities).tell (.connected identity info)) :=
      (extends_activated hc capabilities).trans (extends_emit _ _)
    rw [heq]
    split
    · next path hpath =>
      exact hactivated.trans (extends_openDocument (hfocused path hpath) _ identity)
    · exact hactivated

theorem extends_onInbound (hc : t.connection identity = some c)
    (hfocused : ∀ path, t.session.focused.bind t.session.views.pathOf = some path →
      opened path.place) (item : Inbound) : t.Extends opened (t.onInbound identity item) := by
  cases hitem : item.answersHandshake with
  | true =>
    rcases onInbound_of_answersHandshake t identity hitem with ⟨f, heq⟩ | ⟨result, heq⟩
    · rw [heq]
      exact (extends_teardown t identity).trans (extends_report _ f)
    · rw [heq]
      exact extends_onHandshake hc hfocused result
  | false =>
    rcases onInbound_cases t identity hitem with hremarks | ⟨p, rfl⟩ |
      ⟨request, result, path, b, edited, -, -, -, -, heq⟩
    · exact hremarks.extends
    · exact extends_published t identity p
    · rw [heq]
      exact extends_putEdited t path edited

theorem extends_hears (hc : t.connection c.identity = some c) (bytes : Bytes) :
    t.Extends opened (Moment.hears t c bytes).after := by
  have hsame := (Connection.receives_receive c bytes).same
  refine extends_advance hc (extends_of_documents ?_ ?_) _
  · rw [hsame]
  · rw [hsame]

/-! ## Moments -/

/-- What is open was open before, or is of the class that is opened. -/
theorem Extends.hasOpen (h : t.Extends opened t') (hopen : t'.hasOpen identity path = true) :
    t.hasOpen identity path = true ∨ opened path.place := by
  obtain ⟨c', hc', hopen⟩ := hasOpen_iff.1 hopen
  obtain ⟨c, hc, hextends⟩ := h.stood identity c' hc'
  exact (hextends.opens path.place hopen).imp_left fun hopen => hasOpen_iff.2 ⟨c, hc, hopen⟩

/-- What was open stays so unless its connection is gone. -/
theorem Extends.hasOpen_iff_not_gone (h : t.Extends opened t')
    (hopen : t.hasOpen identity path = true) : t'.hasOpen identity path = true ↔
      ¬ ∃ c, t.connection identity = some c ∧
        ∀ c', t'.connection identity = some c' → c'.id ≠ c.id := by
  obtain ⟨c, hc, hopen⟩ := hasOpen_iff.1 hopen
  constructor
  · rintro hafter ⟨d, hd, hgone⟩
    obtain ⟨c', hc', -⟩ := hasOpen_iff.1 hafter
    obtain ⟨e, he, hextends⟩ := h.stood identity c' hc'
    obtain rfl := Option.some.inj (hd.symm.trans he)
    exact hgone c' hc' hextends.id
  · intro hstays
    cases hafter : t'.connection identity with
    | none => exact absurd ⟨c, hc, by simp [hafter]⟩ hstays
    | some c' =>
      obtain ⟨d, hd, hextends⟩ := h.stood identity c' hafter
      obtain rfl := Option.some.inj (hc.symm.trans hd)
      exact hasOpen_iff.2 ⟨c', hafter, hextends.keeps path.place hopen⟩

theorem Extends.attends (h : mo.before.Extends mo.Seeks mo.after) : mo.Attends := by
  refine ⟨h.views, h.focused, fun _ _ => h.hasOpen, fun identity path hopen => ?_⟩
  rw [h.hasOpen_iff_not_gone hopen, Moment.ends, Bool.eq_false_iff, ne_eq, any_gone_iff]

/-- A start leaves everything attended to as it is, or a newcomer is entered where no server was. -/
theorem start_cases (ht : t.session.Aligned) (launch : Launcher) (target : StartTarget) :
    t.Extends opened (t.start launch target) ∨ ∃ config wireOpen,
      t.connection config.identity = none ∧ t.start launch target =
        (t.entered config wireOpen).withLog config t.session.nextConnection := by
  apply start_elim (P := fun u => t.Extends opened u ∨ ∃ config wireOpen,
    t.connection config.identity = none ∧
      u = (t.entered config wireOpen).withLog config t.session.nextConnection) launch target
  case failed => exact fun e => .inl (extends_report t e)
  case refused =>
    intro config e _
    have hlaunched : t.Extends opened (t.launching config) := extends_of_eq rfl rfl rfl
    exact .inl (hlaunched.trans (extends_report _ _))
  case entered =>
    intro config wireOpen sent hfree _
    exact .inr ⟨config, wireOpen, Session.get?_of_ensureAvailable ht hfree, rfl⟩
  case unsent =>
    intro config wireOpen e hfree
    have hnone : t.connection config.identity = none := Session.get?_of_ensureAvailable ht hfree
    -- the newcomer is gone again, and nothing else was under its identity
    have hgone : ∀ other, (((t.entered config wireOpen).withLog config
        t.session.nextConnection).teardown config.identity).connection other =
          t.connection other := by
      intro other
      rw [connection_teardown]
      split
      · next heq => rw [← heq, hnone]
      · next hne => exact (connection_entered t config wireOpen other).trans (if_neg hne)
    have hframes : ((t.entered config wireOpen).withLog config
        t.session.nextConnection).Extends opened _ := extends_teardown _ config.identity
    refine .inl (Extends.trans ?_ (extends_report _ _))
    exact extends_of_eq (funext hgone) hframes.views hframes.focused

/-- A server that is started comes in where there was none and has no document open. -/
theorem attends_start (ht : t.session.Aligned) (launch : Launcher) (target : StartTarget) :
    (Moment.moves t (.event launch (.action (.start target)))).Attends := by
  rcases start_cases ht launch target with hextends | ⟨config, wireOpen, hnone, hstart⟩
  · exact Extends.attends hextends
  · have hafter : (Moment.moves t (.event launch (.action (.start target)))).after =
        (t.entered config wireOpen).withLog config t.session.nextConnection := hstart
    have hconnection : ∀ other, (t.start launch target).connection other =
        if config.identity = other then some (t.newcomer config wireOpen).2
        else t.connection other := by
      rw [hstart]
      exact connection_entered t config wireOpen
    have hopen : ∀ identity path, (t.start launch target).hasOpen identity path =
        t.hasOpen identity path := by
      intro identity path
      rw [hasOpen, hasOpen, hconnection]
      split
      · next heq =>
        rw [← heq, hnone, newcomer_snd]
        rfl
      · rfl
    refine ⟨by rw [hafter]; rfl, by rw [hafter]; rfl, fun identity path h => .inl ?_,
      fun identity path h => ?_⟩
    · exact (hopen identity path).symm.trans h
    · refine iff_of_true ((hopen identity path).trans h) (ends_eq_false fun c hc => ⟨c, ?_, rfl⟩)
      refine (hconnection identity).trans ?_
      rw [if_neg]
      · exact hc
      · rintro rfl
        cases hnone.symm.trans hc

/-! ## Views -/

/-- A view that is focused comes into focus, and its document is opened. -/
theorem extends_viewFocused (t : Turn) (view : ViewId) : (t.withFocus (some view)).Extends
    (fun place => ∃ bound, t.session.views.pathOf view = some bound ∧ bound.place = place)
    (t.viewFocused view) := by
  unfold viewFocused
  dsimp only
  split
  · next bound hbound => exact extends_openEverywhere ⟨bound, hbound, rfl⟩ _
  · exact .refl _

/-- A view that is bound is listed with its document, and this is opened. -/
theorem extends_bindView (t : Turn) (view : ViewId) (path : Path) :
    (t.withViews (t.session.views.bind view path).2).Extends (path.place = ·)
      (t.bindView view path) := by
  obtain ⟨u, hu, heq⟩ := bindView_cases t view path
  have hopened : (t.withViews (t.session.views.bind view path).2).Extends (path.place = ·) u := by
    rcases hu with rfl | rfl
    · exact .refl _
    · exact extends_openEverywhere rfl _
  rw [heq, showKnownDiagnostics_eq]
  exact hopened.trans (extends_of_eq rfl rfl rfl)

/-! ## All moments -/

/-- A buffer that is edited is the host's affair, and the session passes the changes on. -/
theorem extends_edit (t : Turn) (path : Path) (changes : List ContentChange) (cursor : Nat)
    (selection : Option (Nat × Nat)) :
    t.Extends opened (t.move (.edit path changes cursor selection)) := by
  obtain ⟨buffers, heq⟩ := edit_eq t path changes cursor selection
  have hedited : t.Extends opened (t.edit path changes cursor selection) := by
    rw [heq]
    exact extends_of_eq rfl rfl rfl
  exact hedited.trans (extends_syncChanges _ path changes)

/-- A wire that breaks closes no document. -/
theorem extends_cut (ht : t.Coherent named) (id : ConnectionId) :
    t.Extends opened (t.move (.cut id)) := by
  rcases cut_cases ht id with heq | ⟨c, hc, -, heq⟩
  · rw [heq]
    exact .refl t
  · rw [heq]
    have hsame : c.Extends opened { c with wireOpen := false } := extends_of_documents rfl rfl
    exact extends_advance hc hsame _

/-- What the host wants opens nothing that is not sought, unless it is about a view. -/
theorem attends_act_or_views (ht : t.Regular named) (launch : Launcher) (a : Action) :
    (Moment.moves t (.event launch (.action a))).Attends ∨ (∃ view, a = .viewFocused view) ∨
      ∃ view, (Moment.moves t (.event launch (.action a))).Handles view := by
  have hattends : t.Extends (Moment.moves t (.event launch (.action a))).Seeks (t.act launch a) →
      (Moment.moves t (.event launch (.action a))).Attends := Extends.attends
  cases a with
  | start target => exact .inl (attends_start ht.aligned launch target)
  | stop identity => exact .inl (hattends (extends_orReport fun _ => extends_stop))
  | stopAll => exact .inl (hattends (extends_stopAll t))
  | showLog identity =>
    exact .inl (hattends (extends_orReport fun _ h => (remarks_showLog h).extends))
  | viewOpened view path => exact .inr (.inr ⟨view, .opens⟩)
  | viewFocused view => exact .inr (.inl ⟨view, rfl⟩)
  | viewClosed view => exact .inr (.inr ⟨view, .closes⟩)
  | edited path changes => exact .inl (hattends (extends_syncChanges t path changes))
  | saved path => exact .inl (hattends (extends_saved t path))
  | resync path => exact .inl (hattends (extends_orReport fun _ => extends_resync))
  | request kind path =>
    have hasks : (Moment.moves t (.event launch (.action (.request kind path)))).Seeks
        path.place := .inl (decide_eq_true rfl)
    exact .inl (hattends (extends_request ht.coherent hasks kind))
  | lineDiagnostics path line =>
    exact .inl (hattends (remarks_lineDiagnostics t path line).extends)

/-- **Unless a view is opened, focused or closed, nothing is opened that is not sought, and nothing is
closed on a connection that goes on.** -/
theorem attends_or_views (ht : mo.before.Regular named) (hmo : mo.Occurs named) :
    mo.Attends ∨ (∃ t launch view, mo = .moves t (.event launch (.action (.viewFocused view)))) ∨
      ∃ view, mo.Handles view := by
  have hfocused : ∀ path, mo.before.session.focused.bind mo.before.session.views.pathOf =
      some path → mo.Seeks path.place := fun path hpath => .inr ⟨path, hpath, rfl⟩
  cases hmo with
  | hears hc => exact .inl (extends_hears hc _).attends
  | acts hc awaits => exact .inl (Extends.attends (extends_onInbound hc hfocused _))
  | @moves t m names silent =>
    have hattends : t.Extends (Moment.moves t m).Seeks (t.move m) → (Moment.moves t m).Attends :=
      Extends.attends
    cases m with
    | event launch e =>
      cases e with
      | stdout id bytes => cases silent
      | stderr id bytes => exact .inl (hattends (extends_stderr t id bytes))
      | exited id code => exact .inl (hattends (extends_exited t id code))
      | action a =>
        rcases attends_act_or_views ht launch a with hacts | ⟨view, rfl⟩ | hhandles
        · exact .inl hacts
        · exact .inr (.inl ⟨t, launch, view, rfl⟩)
        · exact .inr (.inr hhandles)
    | edit path changes cursor selection =>
      exact .inl (hattends (extends_edit t path changes cursor selection))
    | buffer path b => exact .inl (hattends (extends_of_eq rfl rfl rfl))
    | cut id => exact .inl (hattends (extends_cut ht.coherent id))

end Turn
end LanguageClient
