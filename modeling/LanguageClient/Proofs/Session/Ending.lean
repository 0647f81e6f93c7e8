import LanguageClient.Proofs.Session.Display
import LanguageClient.Proofs.Session.Portions

/-!
# How servers end

However a launch of a server comes to its end (`Turn.Ending`), nothing is left of it: the session
knows nothing more of the server, the views that showed something of it are cleared, and nothing
that is known of other servers changes (`Turn.clears_of_ending`).
-/

namespace LanguageClient

namespace Turn

variable {named : Path → Prop} {t t' u : Turn} {c : Connection} {identity : String}
  {id : ConnectionId} {gone gone' : String → Prop} {more : List Effect}

/-! ## Servers that are cleared away -/

/-- Whether some effects show nothing in any view. -/
def Unshown (effects : List Effect) : Prop :=
  ∀ e ∈ effects, ∀ view identity, e.shown? view identity = none

/-- Whether between two turns some servers have ended and were cleared from the views, and nothing
that is known of the others has changed. -/
structure Clears (gone : String → Prop) (t t' : Turn) : Prop where
  unknown : ∀ identity, gone identity → t'.part identity = .unknown
  others : ∀ identity, ¬ gone identity → t'.part identity = t.part identity
  views : t'.session.views = t.session.views
  grows : t.effects <+: t'.effects
  shows : ∀ view identity shown, lastOf (·.shown? view identity) (added t t') = some shown →
    gone identity ∧ shown = []
  clears : ∀ view path identity, gone identity → t.session.views.pathOf view = some path →
    t.kept identity path ≠ [] → lastOf (·.shown? view identity) (added t t') = some []

theorem kept_of_part (h : t'.part identity = t.part identity) (path : Path) :
    t'.kept identity path = t.kept identity path :=
  congrArg (fun part : Part => ((part.diagnostics path.place).map DiagnosticEntry.diagnostics).getD []) h

/-- What shows nothing clears nothing. -/
theorem clears_of_unshown (hparts : ∀ identity, t'.part identity = t.part identity)
    (hviews : t'.session.views = t.session.views) (heffects : t'.effects = t.effects ++ more)
    (hmore : Unshown more) : Clears (fun _ => False) t t' := by
  have hadded := added_of_effects_eq heffects
  refine ⟨fun _ hgone => hgone.elim, fun identity _ => hparts identity, hviews,
    ⟨more, heffects.symm⟩, fun view identity shown hshown => ?_, fun _ _ _ hgone => hgone.elim⟩
  rw [hadded, lastOf_eq_none fun e he => hmore e he view identity] at hshown
  cases hshown

theorem Clears.congr (h : Clears gone t t') (hgone : ∀ identity, gone' identity ↔ gone identity) :
    Clears gone' t t' := by
  obtain rfl : gone' = gone := funext fun identity => propext (hgone identity)
  exact h

theorem Clears.trans (h : Clears gone t t') (h' : Clears gone' t' u) :
    Clears (fun identity => gone identity ∨ gone' identity) t u := by
  have hadded := added_trans h.grows h'.grows
  refine ⟨fun identity hgone => ?_, fun identity hgone => ?_, h'.views.trans h.views,
    h.grows.trans h'.grows, fun view identity shown hshown => ?_,
    fun view path identity hgone hpath hkept => ?_⟩
  · by_cases hlater : gone' identity
    · exact h'.unknown identity hlater
    · exact (h'.others identity hlater).trans (h.unknown identity (hgone.resolve_right hlater))
  · rw [not_or] at hgone
    exact (h'.others identity hgone.2).trans (h.others identity hgone.1)
  · rw [hadded, lastOf_append, Option.or_eq_some_iff] at hshown
    rcases hshown with hshown | ⟨-, hshown⟩
    · exact (h'.shows view identity shown hshown).imp_left .inr
    · exact (h.shows view identity shown hshown).imp_left .inl
  · rw [hadded, lastOf_append]
    cases hlast : lastOf (·.shown? view identity) (added t' u) with
    | some shown => rw [(h'.shows view identity shown hlast).2, Option.some_or]
    | none =>
      rw [Option.none_or]
      by_cases hbefore : gone identity
      · exact h.clears view path identity hbefore hpath hkept
      · -- what ends later is cleared then, and still showed the same
        rw [← h.views] at hpath
        rw [← kept_of_part (h.others identity hbefore) path] at hkept
        have hcleared := h'.clears view path identity (hgone.resolve_left hbefore) hpath hkept
        rw [hlast] at hcleared
        cases hcleared

theorem Clears.report (h : Clears gone t t') (f : Failure) : Clears gone t (t'.report f) := by
  have hreport : Clears (fun _ => False) t' (t'.report f) := by
    refine clears_of_unshown (fun _ => rfl) rfl rfl fun e he view identity => ?_
    obtain rfl := List.mem_singleton.1 he
    rfl
  exact (h.trans hreport).congr fun identity => (iff_of_eq (or_false _)).symm

/-- A server is cleared away by a teardown, also when its connection alone had changed just
before. -/
theorem clears_teardown (haside : Aside identity t u) (hviews : u.session.views = t.session.views)
    (hdiagnostics : u.session.diagnostics = t.session.diagnostics)
    (heffects : u.effects = t.effects ++ more) (hmore : Unshown more) (hu : u.session.Aligned)
    (hc : u.connection identity = some c) : Clears (identity = ·) t (u.teardown identity) := by
  have hteardown := teardown_eq hc
  have hgrows : (u.teardown identity).effects = t.effects ++ (more ++ .retire c.id ::
      (u.showing identity).map fun view => .tell (.setDiagnostics view identity [])) := by
    rw [hteardown]
    exact (congrArg (· ++ _) heffects).trans (List.append_assoc _ _ _)
  have hlast : ∀ view other, lastOf (·.shown? view other) (added t (u.teardown identity)) =
      if view ∈ u.showing identity ∧ identity = other then some [] else none := by
    intro view other
    rw [added_of_effects_eq hgrows, lastOf_append, ← List.singleton_append, lastOf_append,
      lastOf_setDiagnostics, lastOf_singleton, lastOf_eq_none fun e he => hmore e he view other]
    exact (Option.or_none).trans Option.or_none
  refine ⟨?_, fun other hne => ?_, ?_, ⟨_, hgrows.symm⟩, fun view other shown hshown => ?_, ?_⟩
  · rintro other rfl
    rw [part_teardown hc, if_pos rfl]
  · rw [part_teardown hc, if_neg hne]
    exact haside.2 other hne
  · rw [hteardown]
    exact hviews
  · rw [hlast] at hshown
    split at hshown
    · next hin => exact ⟨hin.2, (Option.some.inj hshown).symm⟩
    · cases hshown
  · rintro view path other rfl hpath hkept
    rw [← hviews] at hpath
    have hsame : u.kept identity path = t.kept identity path :=
      congrArg (·.get identity path) hdiagnostics
    rw [← hsame] at hkept
    rw [hlast, if_pos ⟨mem_showing hu hpath hkept, rfl⟩]

/-! ## Ways to end -/

/-- A server that is taken leave of. -/
theorem clears_stop (ht : t.Regular named) (hc : t.connection identity = some c) :
    Clears (identity = ·) t (t.orReport (t.stop identity)) := by
  rw [stop_eq hc, orReport, teardown_advance_shutdown hc]
  have hunshown : Unshown (c.shutdown.1.map (.write c.id)) :=
    fun e he view other => shown?_writes c.id _ e he
  exact clears_teardown ⟨rfl, fun _ _ => rfl⟩ rfl rfl rfl hunshown ht.aligned hc

theorem connection_orReport_stop (hc : t.connection identity = some c) (other : String) :
    (t.orReport (t.stop identity)).connection other =
      if identity = other then none else t.connection other := by
  rw [stop_eq hc, orReport, teardown_advance_shutdown hc]
  exact connection_teardown (t.write c.id c.shutdown.1) identity other

/-- All of some servers that are taken leave of one after another. -/
theorem clears_foldl_stop (ht : t.Regular named) (identities : List String) :
    Clears (fun identity => identity ∈ identities ∧ (t.connection identity).isSome = true) t
      (identities.foldl (fun t identity => match t.stop identity with
        | .ok t => t
        | .error _ => t) t) := by
  induction identities generalizing t with
  | nil =>
    refine (clears_of_unshown (fun _ => rfl) rfl (List.append_nil _).symm ?_).congr ?_
    · intro e he
      cases he
    · simp
  | cons identity identities ih =>
    rw [List.foldl_cons]
    cases hc : t.connection identity with
    | none =>
      have hstop : t.stop identity = .error (.unknownServer identity) := by rw [stop, hc]
      rw [hstop]
      refine (ih ht).congr fun other => ?_
      rw [List.mem_cons]
      constructor
      · rintro ⟨rfl | hmem, hsome⟩
        · rw [hc] at hsome
          cases hsome
        · exact ⟨hmem, hsome⟩
      · rintro ⟨hmem, hsome⟩
        exact ⟨.inr hmem, hsome⟩
    | some c =>
      have hfirst := clears_stop ht hc
      have hconnection := connection_orReport_stop hc
      have hafter : (t.orReport (t.stop identity)).Regular named :=
        (works_orReport fun _ => works_stop).regular ht
      rw [stop_eq hc] at hfirst hconnection hafter ⊢
      refine (hfirst.trans (ih hafter)).congr fun other => ?_
      rw [hconnection]
      by_cases heq : identity = other
      · simp [← heq, hc]
      · simp [heq, Ne.symm heq]

theorem clears_exited (ht : t.Regular named)
    (hfind : Registry.findById t.session.connections id = some c) (code : Option Int) :
    Clears (c.identity = ·) t (t.exited id code) := by
  obtain ⟨hc, -⟩ := connection_of_findById ht.coherent hfind
  have hunshown : Unshown [.tell (.notify (Failure.serverTerminated c.identity code).level
      (Failure.serverTerminated c.identity code).message)] := by
    intro e he view other
    obtain rfl := List.mem_singleton.1 he
    rfl
  simp only [exited, hfind]
  exact clears_teardown (u := t.report _) ⟨rfl, fun _ _ => rfl⟩ rfl rfl rfl hunshown ht.aligned hc

/-! ### Refused handshakes -/

theorem Remarks.unshown (h : t.Remarks u) : u.session = t.session ∧ u.buffers = t.buffers ∧
    ∃ more, u.effects = t.effects ++ more ∧ Unshown more := by
  induction h with
  | refl => exact ⟨rfl, rfl, [], (List.append_nil _).symm, by simp [Unshown]⟩
  | tail _ hlast ih =>
    obtain ⟨hsession, hbuffers, more, heffects, hmore⟩ := ih
    obtain ⟨cb, hplain, rfl⟩ := hlast
    refine ⟨hsession, hbuffers, more ++ [.tell cb], ?_, fun e he view other => ?_⟩
    · rw [← List.append_assoc, ← heffects]
      rfl
    · rcases List.mem_append.1 he with he | he
      · exact hmore e he view other
      · obtain rfl := List.mem_singleton.1 he
        cases cb with
        | setDiagnostics => exact hplain.elim
        | _ => rfl

/-- A server without open documents can only make the session remark on what it does not answer. -/
theorem remarks_onInbounds (hc : t.connection identity = some c)
    (hidle : ∀ place, c.documents.documents.get? place = none) {items : List Inbound}
    (hitems : ∀ item ∈ items, ∀ request outcome, item ≠ .response request outcome)
    (id : ConnectionId) : t.Remarks (t.onInbounds identity id items) := by
  induction items generalizing t with
  | nil => exact .refl
  | cons item items ih =>
    have hne := hitems item List.mem_cons_self
    have hfirst : t.Remarks (t.onInbound identity item) := by
      have hanswers : item.answersHandshake = false := by
        cases item with
        | response request outcome => exact absurd rfl (hne request outcome)
        | _ => rfl
      rcases onInbound_cases t identity hanswers with hremarks | ⟨p, rfl⟩ |
        ⟨request, result, path, b, edited, -, heq, -⟩
      · exact hremarks
      · have hunknown : t.accepts identity p = false := by
          simp [accepts, hc, DocumentTable.version, hidle]
        have hsame := published_of_not_accepts hunknown
        change t.Remarks (t.published identity p)
        rw [hsame]
        exact .refl
      · exact absurd heq (hne request (.ok result))
    have hstill : (t.onInbound identity item).connection identity = some c := by
      rw [connection, hfirst.unshown.1]
      exact hc
    simp only [onInbounds, hc]
    split
    · exact hfirst.trans (ih hstill fun other hother => hitems other (List.mem_cons_of_mem _ hother))
    · exact .refl

end Turn

/-- Whether a connection cannot go on with an answer to its handshake: it is an error, it cannot be
read, or the greetings cannot be written. -/
inductive Connection.Refuses (c : Connection) : Except ResponseError Json → Prop where
  | error (e : ResponseError) : Refuses c (.error e)
  | malformed {result : Json} {e : ResultError} (read : readHandshake result = .error e) :
      Refuses c (.ok result)
  | unreachable (result : Json) (wire : c.wireOpen = false) : Refuses c (.ok result)

theorem Connection.Refuses.congr {c d : Connection} {outcome : Except ResponseError Json}
    (h : c.Refuses outcome) (hwire : d.wireOpen = c.wireOpen) : d.Refuses outcome := by
  cases h with
  | error e => exact .error e
  | malformed read => exact .malformed read
  | unreachable result wire => exact .unreachable result (hwire.trans wire)

namespace Turn

variable {named : Path → Prop} {t t' : Turn} {c : Connection} {identity : String}
  {id : ConnectionId} {gone : String → Prop} {more : List Effect} {bytes : Bytes}
  {request : PendingRequest} {outcome : Except ResponseError Json} {m : Move}

theorem onInbound_refused (hc : t.connection identity = some c)
    (handshake : request.method = .handshake) (refused : c.Refuses outcome) :
    ∃ f, t.onInbound identity (.response request outcome) = (t.teardown identity).report f := by
  cases refused with
  | error e => exact ⟨Failure.ofResponse request.method e, by simp only [onInbound, onError, handshake]⟩
  | @malformed result e read =>
    refine ⟨.protocol s!"{identity} initialize: {e.message}", ?_⟩
    simp only [onInbound, onResult, handshake]
    exact onHandshake_malformed read
  | unreachable result wire =>
    cases hread : readHandshake result with
    | error e =>
      refine ⟨.protocol s!"{identity} initialize: {e.message}", ?_⟩
      simp only [onInbound, onResult, handshake]
      exact onHandshake_malformed hread
    | ok answer =>
      refine ⟨.notConnected, ?_⟩
      simp only [onInbound, onResult, handshake]
      exact onHandshake_unreachable hc hread wire

/-- The answer to a handshake is the first answer of all. -/
theorem not_response_before (h : t.Steady named) (hc : t.connection identity = some c)
    {first rest : List Inbound}
    (hsplit : (c.receive bytes).1.inbound = first ++ .response request outcome :: rest)
    (handshake : request.method = .handshake) :
    c.state = .pending ∧ ∀ item ∈ first, ∀ r o, item ≠ .response r o := by
  have hsound := h.coherent.sound identity c hc
  have hresolves := (c.receives_receive bytes).resolves
  have hanswered : .response request outcome ∈ (c.receive bytes).1.inbound := by simp [hsplit]
  obtain ⟨n, hn, -⟩ := hresolves.exists_of_mem hanswered
  obtain ⟨-, pending⟩ := hsound.handshake n request hn handshake
  refine ⟨pending, ?_⟩
  rintro item hitem r o rfl
  have hin : .response r o ∈ (c.receive bytes).1.inbound := by
    rw [hsplit]
    exact List.mem_append_left _ hitem
  obtain ⟨k, hk, -⟩ := hresolves.exists_of_mem hin
  have hmethod := h.waiting identity c hc pending k r hk
  have hpos : 0 < first.countP Inbound.answersHandshake :=
    List.countP_pos_iff.2 ⟨_, hitem, by simp [Inbound.answersHandshake, hmethod]⟩
  -- the handshake would be answered twice
  have honce := hresolves.countP_answersHandshake_le fun n request hn hmethod =>
    (hsound.handshake n request hn hmethod).1
  rw [hsplit, List.countP_append, List.countP_cons] at honce
  simp only [Inbound.answersHandshake, handshake, decide_true, if_true] at honce
  omega

/-- Before the answer that is refused a pending server has nothing to say that is acted on, and what
comes after it is not looked at. -/
theorem handled_refused (h : t.Steady named) (hc : t.connection c.identity = some c)
    (hmem : .response request outcome ∈ (c.receive bytes).1.inbound)
    (handshake : request.method = .handshake) (refused : c.Refuses outcome) :
    ∃ u f, t.Remarks u ∧ t.handled c bytes = (u.teardown c.identity).report f := by
  obtain ⟨first, rest, hsplit⟩ := List.append_of_mem hmem
  obtain ⟨pending, hfirst⟩ := not_response_before h hc hsplit handshake
  have hidle := (h.coherent.sound c.identity c hc).idle (by rw [pending]; decide)
  have hremarks := remarks_onInbounds hc hidle hfirst c.id
  have hstands : (t.onInbounds c.identity c.id first).connection c.identity = some c := by
    rw [connection, hremarks.unshown.1]
    exact hc
  obtain ⟨f, hrefused⟩ := onInbound_refused hstands handshake refused
  have hgone : (((t.onInbounds c.identity c.id first).teardown c.identity).report f).connection
      c.identity = none := by
    have hdown := connection_teardown (t.onInbounds c.identity c.id first) c.identity c.identity
    rw [if_pos rfl] at hdown
    exact hdown
  refine ⟨t.onInbounds c.identity c.id first, f, hremarks, ?_⟩
  rw [handled, hsplit, onInbounds_append]
  simp only [onInbounds, hstands, if_true, hrefused, onInbounds_of_gone hgone]

theorem Clears.writes (h : Clears gone t t') (hmore : Unshown more) :
    Clears gone t (t'.withEffects (t.effects ++ more ++ added t t')) := by
  have hadded : added t (t'.withEffects (t.effects ++ more ++ added t t')) = more ++ added t t' :=
    added_of_effects_eq (List.append_assoc _ _ _)
  have hlast : ∀ view identity,
      lastOf (·.shown? view identity) (added t (t'.withEffects (t.effects ++ more ++ added t t'))) =
        lastOf (·.shown? view identity) (added t t') := by
    intro view identity
    rw [hadded, lastOf_append, lastOf_eq_none fun e he => hmore e he view identity, Option.or_none]
  refine ⟨h.unknown, h.others, h.views, ?_, fun view identity => ?_, fun view path identity => ?_⟩
  · exact ⟨more ++ added t t', (List.append_assoc _ _ _).symm⟩
  · rw [hlast]
    exact h.shows view identity
  · rw [hlast]
    exact h.clears view path identity

theorem clears_stdout (h : t.Steady named)
    (hfind : Registry.findById t.session.connections id = some c)
    (hmem : .response request outcome ∈ (c.receive bytes).1.inbound)
    (handshake : request.method = .handshake) (refused : c.Refuses outcome) :
    Clears (c.identity = ·) t (t.stdout id bytes) := by
  obtain ⟨hc, rfl⟩ := connection_of_findById h.coherent hfind
  obtain ⟨u, f, hremarks, hhandled⟩ := handled_refused h hc hmem handshake refused
  obtain ⟨hsession, hbuffers, more, heffects, hmore⟩ := hremarks.unshown
  have hstands : u.connection c.identity = some c := by
    rw [connection, hsession]
    exact hc
  have hcleared : Clears (c.identity = ·) t (t.handled c bytes) := by
    have haside : Aside c.identity t u := ⟨hbuffers, fun other _ => by rw [part, hsession, part]⟩
    rw [hhandled]
    refine Clears.report (clears_teardown haside ?_ ?_ heffects hmore ?_ hstands) f
    · rw [hsession]
    · rw [hsession]
    · rw [hsession]
      exact h.aligned
  have hgone : (t.handled c bytes).connection c.identity = none :=
    congrArg Part.connection (hcleared.unknown c.identity rfl)
  have hacted : t.acted c.id bytes = added t (t.handled c bytes) := by rw [acted, hfind]
  rw [stdout_eq h.coherent hc, lending, withIntake_of_gone hgone, hacted]
  exact hcleared.writes fun e he view other => shown?_writes c.id _ e he

/-! ### Handshakes that cannot be sent -/

theorem clears_start (ht : t.Regular named) {launch : Launcher} {target : StartTarget}
    {config : ServerConfig} (hconfig : t.configFor target = .ok config)
    (hfree : Registry.ensureAvailable t.session.connections config.identity = .ok ())
    (hlaunch : launch config = .running false) :
    Clears (config.identity = ·) t (t.start launch target) ∧
      (t.start launch target).session.nextConnection = t.session.nextConnection + 1 := by
  have hunsent : (t.newcomer config false).1 = .error .notConnected := rfl
  have hstarted : t.start launch target =
      (((t.entered config false).withLog config t.session.nextConnection).teardown
        config.identity).report .notConnected := by
    rw [start_running hconfig hfree hlaunch, started, hunsent]
  have hstands : ((t.entered config false).withLog config t.session.nextConnection).connection
      config.identity = some (t.newcomer config false).2 := by
    have hentered := connection_entered t config false config.identity
    rw [if_pos rfl] at hentered
    exact hentered
  have haside : Aside config.identity t
      ((t.entered config false).withLog config t.session.nextConnection) := by
    refine ⟨rfl, fun other hne => ?_⟩
    have hpart := part_advance (t.launching config) config.identity (t.newcomer config false).2 []
      other
    rw [if_neg hne] at hpart
    exact hpart
  have hunshown : Unshown [.launch t.session.nextConnection config] := by
    intro e he view other
    obtain rfl := List.mem_singleton.1 he
    rfl
  have heffects : ((t.entered config false).withLog config t.session.nextConnection).effects =
      t.effects ++ [.launch t.session.nextConnection config] := by
    change (t.effects ++ [_]) ++ [] = _
    rw [List.append_nil]
  rw [hstarted]
  refine ⟨Clears.report (clears_teardown haside rfl rfl heffects hunshown
    (aligned_entered ht.aligned false hfree) hstands) _, ?_⟩
  rw [teardown_eq hstands]
  rfl

/-! ### All ways -/

/-- The ways in which a launch of a server comes to its end by a move: the host stops it or all
servers, its process exits, it answers the handshake in such a way that it cannot go on, or the
handshake cannot be sent to it. -/
inductive Ending (t : Turn) : Move → String → ConnectionId → Prop where
  | stopped {launch : Launcher} {identity : String} {c : Connection}
      (hc : t.connection identity = some c) :
      Ending t (.event launch (.action (.stop identity))) identity c.id
  | allStopped {launch : Launcher} {identity : String} {c : Connection}
      (hc : t.connection identity = some c) :
      Ending t (.event launch (.action .stopAll)) identity c.id
  | exited {launch : Launcher} {id : ConnectionId} {code : Option Int} {c : Connection}
      (hfind : Registry.findById t.session.connections id = some c) :
      Ending t (.event launch (.exited id code)) c.identity id
  | refused {launch : Launcher} {id : ConnectionId} {bytes : Bytes} {c : Connection}
      {request : PendingRequest} {outcome : Except ResponseError Json}
      (hfind : Registry.findById t.session.connections id = some c)
      (answers : .response request outcome ∈ (c.receive bytes).1.inbound)
      (handshake : request.method = .handshake) (refuses : c.Refuses outcome) :
      Ending t (.event launch (.stdout id bytes)) c.identity id
  | unsent {launch : Launcher} {target : StartTarget} {config : ServerConfig}
      (hconfig : t.configFor target = .ok config)
      (free : Registry.ensureAvailable t.session.connections config.identity = .ok ())
      (hlaunch : launch config = .running false) :
      Ending t (.event launch (.action (.start target))) config.identity t.session.nextConnection

/-- **However servers end, they are cleared away, and nothing that is known of others changes.** -/
theorem clears_of_ending (ht : t.Steady named) (h : Ending t m identity id) :
    Clears (fun other => ∃ id', Ending t m other id') t (t.move m) := by
  cases h with
  | @stopped launch _ c hc =>
    refine (clears_stop ht.toRegular hc).congr fun other => ⟨?_, ?_⟩
    · rintro ⟨id', h⟩
      cases h
      rfl
    · rintro rfl
      exact ⟨c.id, .stopped hc⟩
  | allStopped hc =>
    refine (clears_foldl_stop ht.toRegular t.identities).congr fun other => ⟨?_, ?_⟩
    · rintro ⟨id', h⟩
      cases h with
      | allStopped hd => exact ⟨Table.mem_keys_iff.2 ⟨_, hd⟩, by rw [hd]; rfl⟩
    · rintro ⟨-, hsome⟩
      obtain ⟨d, hd⟩ := Option.isSome_iff_exists.1 hsome
      exact ⟨d.id, .allStopped hd⟩
  | exited hfind =>
    refine (clears_exited ht.toRegular hfind _).congr fun other => ⟨?_, ?_⟩
    · rintro ⟨id', h⟩
      cases h with
      | exited hfind' => rw [Option.some.inj (hfind.symm.trans hfind')]
    · rintro rfl
      exact ⟨id, .exited hfind⟩
  | refused hfind answers handshake refuses =>
    refine (clears_stdout ht hfind answers handshake refuses).congr fun other => ⟨?_, ?_⟩
    · rintro ⟨id', h⟩
      cases h with
      | refused hfind' => rw [Option.some.inj (hfind.symm.trans hfind')]
    · rintro rfl
      exact ⟨id, .refused hfind answers handshake refuses⟩
  | unsent hconfig free hlaunch =>
    refine (clears_start ht.toRegular hconfig free hlaunch).1.congr fun other => ⟨?_, ?_⟩
    · rintro ⟨id', h⟩
      cases h with
      | unsent hconfig' => rw [Except.ok.inj (hconfig.symm.trans hconfig')]
    · rintro rfl
      exact ⟨_, .unsent hconfig free hlaunch⟩

end Turn
end LanguageClient
