import LanguageClient.Proofs.Session.Ending
import LanguageClient.Proofs.Session.Formatting

/-!
# Servers that run on

A launch of a server runs on through every move but those by which it is known to end: the ways to
end are the listed ones and no others (`Turn.ending_iff`).
-/

namespace LanguageClient.Turn

variable {named : Path → Prop} {t t' u : Turn} {c : Connection} {identity other : String}
  {id : ConnectionId}

/-- Whether all launches that run in a turn still run in a later one. -/
def Spares (t t' : Turn) : Prop := ∀ identity id, t.Runs identity id → t'.Runs identity id

theorem Spares.trans (h : t.Spares t') (h' : t'.Spares u) : t.Spares u :=
  fun identity id hruns => h' identity id (h identity id hruns)

theorem spares_of_connection (h : t'.connection = t.connection) : t.Spares t' := by
  intro identity id hruns
  rw [Runs, h]
  exact hruns

theorem Routine.spares {spelled : Path → Prop} (h : Routine spelled t t') : t.Spares t' := by
  rintro identity id ⟨c, hc, rfl⟩
  obtain ⟨c', hc', hstays⟩ := h.stands identity c hc
  exact ⟨c', hc', hstays.id⟩

theorem spares_openDocument (t : Turn) (identity : String) (path : Path) :
    t.Spares (t.openDocument identity path) := by
  have hroutine : Routine (fun _ => True) t (t.openDocument identity path) :=
    routine_openDocument trivial t identity
  exact hroutine.spares

theorem spares_openEverywhere (t : Turn) (path : Path) : t.Spares (t.openEverywhere path) := by
  have hroutine : Routine (fun _ => True) t (t.openEverywhere path) :=
    routine_openEverywhere trivial t
  exact hroutine.spares

theorem spares_syncChanges (t : Turn) (path : Path) (changes : List ContentChange) :
    t.Spares (t.syncChanges path changes) := by
  have hroutine : Routine (fun _ => True) t (t.syncChanges path changes) :=
    routine_syncChanges trivial t changes
  exact hroutine.spares

theorem Remarks.spares (h : t.Remarks t') : t.Spares t' := by
  have hroutine : Routine (fun _ => True) t t' := h.routine
  exact hroutine.spares

/-! ### Views -/

theorem spares_viewClosed (ht : t.Regular named) (view : ViewId) :
    t.Spares (t.viewClosed view) := by
  obtain ⟨focused, ⟨-, heq⟩ | ⟨path, last, views, -, hroutine, -⟩⟩ :=
    viewClosed_cases ht (fun _ => True) fun _ _ => trivial
  · rw [heq]
    exact spares_of_connection rfl
  · exact (spares_of_connection rfl).trans hroutine.spares

theorem spares_bindView (t : Turn) (view : ViewId) (path : Path) :
    t.Spares (t.bindView view path) := by
  obtain ⟨u, hu, heq⟩ := bindView_cases t view path
  have hbound : t.Spares (t.withViews (t.session.views.bind view path).2) :=
    spares_of_connection rfl
  have hshown : u.Spares (t.bindView view path) := by
    rw [heq, showKnownDiagnostics_eq]
    exact spares_of_connection rfl
  rcases hu with rfl | rfl
  · exact hbound.trans hshown
  · exact (hbound.trans (spares_openEverywhere _ path)).trans hshown

theorem spares_viewOpened (ht : t.Regular named) (view : ViewId) (path : Path) :
    t.Spares (t.viewOpened view path) := by
  obtain ⟨u, hu, -, heq⟩ := viewOpened_eq t view path
  rw [heq]
  rcases hu with rfl | ⟨rfl, -⟩
  · exact spares_bindView u view path
  · exact (spares_viewClosed ht view).trans (spares_bindView _ view path)

theorem spares_viewFocused (t : Turn) (view : ViewId) : t.Spares (t.viewFocused view) := by
  have hfocused : t.Spares (t.withFocus (some view)) := spares_of_connection rfl
  unfold viewFocused
  dsimp only
  split
  · exact hfocused.trans (spares_openEverywhere _ _)
  · exact hfocused

/-! ### Servers -/

theorem Runs.teardown (h : t.Runs identity id) (hne : other ≠ identity) :
    (t.teardown other).Runs identity id := by
  rw [Runs, connection_teardown, if_neg hne]
  exact h

/-- A server that is started takes no other's place. -/
theorem spares_start (ht : t.Regular named) (launch : Launcher) (target : StartTarget) :
    t.Spares (t.start launch target) := by
  intro identity id hruns
  have hne : ∀ config : ServerConfig,
      Registry.ensureAvailable t.session.connections config.identity = .ok () →
        config.identity ≠ identity := by
    rintro config hfree rfl
    obtain ⟨c, hc, -⟩ := hruns
    have hnone := Session.get?_of_ensureAvailable ht.aligned hfree
    rw [connection, hnone] at hc
    cases hc
  have hentered : ∀ (config : ServerConfig) (wireOpen : Bool), config.identity ≠ identity →
      ((t.entered config wireOpen).withLog config t.session.nextConnection).Runs identity id := by
    intro config wireOpen hne
    obtain ⟨c, hc, hid⟩ := hruns
    have hother := connection_entered t config wireOpen identity
    rw [if_neg hne, hc] at hother
    exact ⟨c, hother, hid⟩
  apply start_elim (P := fun u => u.Runs identity id) launch target
  case failed => exact fun e => hruns
  case refused => exact fun config e _ => hruns
  case entered => exact fun config wireOpen sent hfree _ => hentered config wireOpen (hne _ hfree)
  case unsent =>
    intro config wireOpen e hfree
    exact (hentered config wireOpen (hne _ hfree)).teardown (hne _ hfree)

theorem runs_stop (h : t.Runs identity id) (hne : other ≠ identity) :
    (t.orReport (t.stop other)).Runs identity id := by
  cases hd : t.connection other with
  | none =>
    have hstop : t.stop other = .error (.unknownServer other) := by rw [stop, hd]
    rw [hstop]
    exact h
  | some d =>
    rw [Runs, connection_orReport_stop hd, if_neg hne]
    exact h

/-! ### Output -/

/-- A server whose answer to the handshake is not refused is activated. -/
theorem spares_activated (hc : t.connection identity = some c) (capabilities : ServerCapabilities) :
    t.Spares (t.activated identity c capabilities) := by
  rintro other id ⟨d, hd, rfl⟩
  rw [Runs, connection_activated]
  split
  · next heq =>
    subst heq
    obtain rfl := Option.some.inj (hc.symm.trans hd)
    exact ⟨_, rfl, rfl⟩
  · exact ⟨d, hd, rfl⟩

theorem spares_onHandshake (hc : t.connection identity = some c) {result : Json}
    (hnot : ¬ c.Refuses (.ok result)) : t.Spares (t.onHandshake identity result) := by
  cases hread : readHandshake result with
  | error e => exact absurd (.malformed hread) hnot
  | ok answer =>
    cases hwire : c.wireOpen with
    | false => exact absurd (.unreachable result hwire) hnot
    | true =>
      have htold : t.Spares ((t.activated identity c answer.1).tell (.connected identity answer.2)) :=
        (spares_activated hc answer.1).trans (spares_of_connection rfl)
      rw [onHandshake_greeted hc hread hwire]
      split
      · exact htold.trans (spares_openDocument _ identity _)
      · exact htold

/-- Only an answer to the handshake can make a server end. -/
theorem spares_onInbound (t : Turn) (identity : String) {item : Inbound}
    (hitem : item.answersHandshake = false) : t.Spares (t.onInbound identity item) := by
  rcases onInbound_cases t identity hitem with hremarks | ⟨p, rfl⟩ |
    ⟨request, result, path, b, edited, -, -, -, -, heq⟩
  · exact hremarks.spares
  · have hpublished : t.Spares (t.published identity p) :=
      spares_of_connection (tables_published t identity p).1
    exact hpublished
  · have hroutine : Routine (fun _ => True) t (t.putEdited path edited) :=
      routine_putEdited trivial t edited
    rw [heq]
    exact hroutine.spares

/-- A message makes no server end but the one that it comes from, and that only if it is an answer
to the handshake which is refused. -/
theorem runs_onInbound (hc : t.connection identity = some c) (item : Inbound)
    (h : t.Runs other id) : (t.onInbound identity item).Runs other id ∨
      identity = other ∧ ∃ request outcome, item = .response request outcome ∧
        request.method = .handshake ∧ c.Refuses outcome := by
  cases hitem : item.answersHandshake with
  | false => exact .inl (spares_onInbound t identity hitem other id h)
  | true =>
    cases item with
    | notification n => cases hitem
    | messageRequest m => cases hitem
    | response request outcome =>
      have handshake : request.method = .handshake := by
        simpa [Inbound.answersHandshake] using hitem
      by_cases refuses : c.Refuses outcome
      · obtain ⟨f, heq⟩ := onInbound_refused hc handshake refuses
        by_cases hidentity : identity = other
        · exact .inr ⟨hidentity, request, outcome, rfl, handshake, refuses⟩
        · rw [heq]
          exact .inl (h.teardown hidentity)
      · cases outcome with
        | error e => exact absurd (.error e) refuses
        | ok result =>
          have hresult : t.onInbound identity (.response request (.ok result)) =
              t.onHandshake identity result := by
            simp only [onInbound, onResult, handshake]
          rw [hresult]
          exact .inl (spares_onHandshake hc refuses other id h)

theorem runs_onInbounds (identity : String) (launched : ConnectionId) (items : List Inbound)
    (h : t.Runs other id) : (t.onInbounds identity launched items).Runs other id ∨
      identity = other ∧ ∃ c request outcome, t.connection identity = some c ∧
        .response request outcome ∈ items ∧ request.method = .handshake ∧ c.Refuses outcome := by
  induction items generalizing t with
  | nil => exact .inl h
  | cons item items ih =>
    cases hc : t.connection identity with
    | none =>
      simp only [onInbounds, hc]
      exact .inl h
    | some c =>
      simp only [onInbounds, hc]
      split
      · rcases runs_onInbound hc item h with hruns |
          ⟨hidentity, request, outcome, rfl, handshake, refuses⟩
        · rcases ih hruns with hlater |
            ⟨hidentity, d, request, outcome, hd, hmem, handshake, refuses⟩
          · exact .inl hlater
          · -- the wire was as it is when the answer comes
            obtain ⟨c', hc', -, -, hwire⟩ := remains_onInbound t identity item d hd
            obtain rfl := Option.some.inj (hc.symm.trans hc')
            exact .inr ⟨hidentity, c, request, outcome, rfl, List.mem_cons_of_mem _ hmem, handshake,
              refuses.congr hwire.symm⟩
        · exact .inr ⟨hidentity, c, request, outcome, rfl, List.mem_cons_self, handshake, refuses⟩
      · exact .inl h

theorem runs_stdout (ht : t.Coherent named) (h : t.Runs identity id) (launch : Launcher)
    (launched : ConnectionId) (bytes : Bytes) : (t.stdout launched bytes).Runs identity id ∨
      Ending t (.event launch (.stdout launched bytes)) identity id := by
  cases hfind : Registry.findById t.session.connections launched with
  | none =>
    rw [stdout_of_findById_eq_none hfind]
    exact .inl h
  | some c =>
    obtain ⟨hc, rfl⟩ := connection_of_findById ht hfind
    rcases runs_onInbounds c.identity c.id (c.receive bytes).1.inbound h with ⟨d, hd, rfl⟩ |
      ⟨rfl, d, request, outcome, hd, hmem, handshake, refuses⟩
    · refine .inl ?_
      have hlent := connection_withIntake (t.handled c bytes) c.identity (c.receive bytes).2.framer
        (c.receive bytes).2.requests identity
      rw [stdout_eq ht hc]
      change Runs (withIntake (t.handled c bytes) _ _ _) identity d.id
      rw [Runs, hlent]
      split
      · next heq =>
        rw [← heq] at hd
        exact ⟨_, congrArg (Option.map _) hd, rfl⟩
      · exact ⟨d, hd, rfl⟩
    · obtain rfl := Option.some.inj (hc.symm.trans hd)
      obtain ⟨d, hd, rfl⟩ := h
      obtain rfl := Option.some.inj (hc.symm.trans hd)
      exact .inr (.refused hfind hmem handshake refuses)

/-! ### All moves -/

theorem spares_orReport {r : Except Failure Turn} (h : ∀ t', r = .ok t' → t.Spares t') :
    t.Spares (t.orReport r) := by
  cases r with
  | ok t' => exact h t' rfl
  | error e => exact (remarks_report t e).spares

theorem runs_act (ht : t.Regular fun _ => True) (h : t.Runs identity id) (launch : Launcher)
    (a : Action) : (t.act launch a).Runs identity id ∨
      Ending t (.event launch (.action a)) identity id := by
  have hspared : ∀ {t'}, t.Spares t' → t'.Runs identity id ∨
      Ending t (.event launch (.action a)) identity id := fun hspares => .inl (hspares identity id h)
  have hroutine : ∀ {t'}, Routine (fun _ => True) t t' → t'.Runs identity id ∨
      Ending t (.event launch (.action a)) identity id := fun hroutine => hspared hroutine.spares
  obtain ⟨c, hc, hid⟩ := h
  cases a with
  | start target => exact hspared (spares_start ht launch target)
  | stop other =>
    by_cases hidentity : other = identity
    · subst hidentity hid
      exact .inr (.stopped hc)
    · exact .inl (runs_stop ⟨c, hc, hid⟩ hidentity)
  | stopAll =>
    subst hid
    exact .inr (.allStopped hc)
  | showLog other => exact hspared (spares_orReport fun _ hlog => (remarks_showLog hlog).spares)
  | viewOpened view path => exact hspared (spares_viewOpened ht view path)
  | viewFocused view => exact hspared (spares_viewFocused t view)
  | viewClosed view => exact hspared (spares_viewClosed ht view)
  | edited path changes => exact hspared (spares_syncChanges t path changes)
  | saved path => exact hroutine (routine_saved trivial t)
  | resync path =>
    refine hspared (spares_orReport fun t' hresync => ?_)
    have hsynced : Routine (fun _ => True) t t' := routine_resync trivial hresync
    exact hsynced.spares
  | request kind path => exact hroutine (routine_request ht.coherent trivial kind)
  | lineDiagnostics path line => exact hspared (remarks_lineDiagnostics t path line).spares

/-- **A launch runs on through every move, unless it is known to end by it.** -/
theorem runs_move (ht : t.Regular fun _ => True) (h : t.Runs identity id) (m : Move) :
    (t.move m).Runs identity id ∨ Ending t m identity id := by
  cases m with
  | edit path changes cursor selection =>
    obtain ⟨buffers, heq⟩ := edit_eq t path changes cursor selection
    rw [move, heq]
    exact .inl (spares_syncChanges { t with buffers := buffers } path changes identity id h)
  | buffer path b => exact .inl h
  | cut launched =>
    have hroutine : Routine (fun _ => True) t (t.move (.cut launched)) :=
      routine_cut ht.coherent launched
    exact .inl (hroutine.spares identity id h)
  | event launch e =>
    cases e with
    | stdout launched bytes => exact runs_stdout ht.coherent h launch launched bytes
    | stderr launched bytes =>
      have hroutine : Routine (fun _ => True) t (t.stderr launched bytes) :=
        routine_stderr t launched bytes
      exact .inl (hroutine.spares identity id h)
    | exited launched code =>
      change (t.exited launched code).Runs identity id ∨ _
      cases hfind : Registry.findById t.session.connections launched with
      | none =>
        simp only [Turn.exited, hfind]
        exact .inl h
      | some c =>
        obtain ⟨hc, rfl⟩ := connection_of_findById ht.coherent hfind
        by_cases hidentity : c.identity = identity
        · subst hidentity
          obtain ⟨d, hd, rfl⟩ := h
          obtain rfl := Option.some.inj (hc.symm.trans hd)
          exact .inr (.exited hfind)
        · have hstill : (t.report (.serverTerminated c.identity code)).Runs identity id := h
          simp only [Turn.exited, hfind]
          exact .inl (hstill.teardown hidentity)
    | action a => exact runs_act ht h launch a

/-- **The ways for a launch to end are the known ones**: it still runs after a move exactly if the
move is none of them. -/
theorem ending_iff (ht : t.Steady fun _ => True) (h : t.Runs identity id) (m : Move) :
    Ending t m identity id ↔ ¬ (t.move m).Runs identity id := by
  constructor
  · rintro hending ⟨c, hc, -⟩
    have hunknown := (clears_of_ending ht hending).unknown identity ⟨id, hending⟩
    have hnone : (t.move m).connection identity = none := congrArg Part.connection hunknown
    rw [hc] at hnone
    cases hnone
  · exact (runs_move ht.toRegular h m).resolve_left

end LanguageClient.Turn
