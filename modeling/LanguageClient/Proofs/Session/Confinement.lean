import LanguageClient.Proofs.Session.Part

/-!
# What acting on messages is confined to

A session that acts on messages of a server tells the host of that server's diagnostics alone, and
what it writes are notifications. Unless a document is edited these go to that server alone, and
nothing else is changed but what the session knows of it (`confined_onInbounds`). The connection
stays under its identity and number with its wire as it was, or it is gone (`remains_onInbounds`).
-/

namespace LanguageClient

/-- Whether an effect comes from acting on messages of a server, where the servers with some numbers
may be written to. -/
def Effect.Confined (among : ConnectionId → Prop) (identity : String) : Effect → Prop
  | write id message => among id ∧ ∃ n : Notification, message = n.toJson
  | tell (.setDiagnostics _ name _) => name = identity
  | _ => True

namespace Turn

variable {among : ConnectionId → Prop} {named : Path → Prop} {t t' u : Turn} {identity : String}
  {c : Connection} {id : ConnectionId}

/-- Whether nothing but what is known of one server is different in another turn. -/
def Aside (identity : String) (t t' : Turn) : Prop :=
  t'.buffers = t.buffers ∧ ∀ other, identity ≠ other → t'.part other = t.part other

theorem Aside.refl (identity : String) (t : Turn) : Aside identity t t := ⟨rfl, fun _ _ => rfl⟩

theorem Aside.trans (h : Aside identity t t') (h' : Aside identity t' u) : Aside identity t u :=
  ⟨h'.1.trans h.1, fun other hne => (h'.2 other hne).trans (h.2 other hne)⟩

/-- Whether a turn has come from another by effects that are confined, with the tables of servers
and nothing else of the session changed, and nothing aside from one server unless every server may
be written to. -/
structure Confined (among : ConnectionId → Prop) (identity : String) (t t' : Turn) : Prop where
  effects : ∃ more, t'.effects = t.effects ++ more ∧ ∀ e ∈ more, e.Confined among identity
  frames : t.session.Frames t'.session
  aside : (∀ id, among id) ∨ Aside identity t t'

theorem Confined.refl (t : Turn) : Confined among identity t t :=
  ⟨⟨[], (List.append_nil _).symm, by simp⟩, rfl, .inr (.refl identity t)⟩

theorem Confined.trans (h : Confined among identity t t') (h' : Confined among identity t' u) :
    Confined among identity t u := by
  obtain ⟨first, hfirst, hall⟩ := h.effects
  obtain ⟨second, hsecond, hall'⟩ := h'.effects
  refine ⟨⟨first ++ second, by rw [hsecond, hfirst, List.append_assoc], fun e he => ?_⟩, ?_, ?_⟩
  · rcases List.mem_append.1 he with he | he
    · exact hall e he
    · exact hall' e he
  · exact h.frames.trans h'.frames
  · rcases h.aside with hamong | haside
    · exact .inl hamong
    · rcases h'.aside with hamong | haside'
      · exact .inl hamong
      · exact .inr (haside.trans haside')

theorem confined_emit (t : Turn) {e : Effect} (h : e.Confined among identity) :
    Confined among identity t (t.emit e) :=
  ⟨⟨[e], rfl, by simpa using h⟩, rfl, .inr (.refl identity t)⟩

theorem confined_report (t : Turn) (f : Failure) : Confined among identity t (t.report f) :=
  confined_emit t trivial

theorem Remarks.confined (h : t.Remarks t') : Confined among identity t t' := by
  induction h with
  | refl => exact .refl t
  | tail _ hlast ih =>
    obtain ⟨cb, hplain, rfl⟩ := hlast
    refine ih.trans (confined_emit _ ?_)
    cases cb with
    | setDiagnostics view name diagnostics => exact hplain.elim
    | _ => trivial

theorem confined_advance (t : Turn) (c : Connection) {key : String}
    (hkey : (∀ id, among id) ∨ key = identity) (hamong : among c.id) {messages : List Json}
    (hmessages : ∀ m ∈ messages, ∃ n : Notification, m = n.toJson) :
    Confined among identity t (t.advance key c messages) := by
  refine ⟨⟨messages.map (.write c.id), rfl, fun e he => ?_⟩, rfl, hkey.imp_right fun hkey => ?_⟩
  · obtain ⟨m, hm, rfl⟩ := List.mem_map.1 he
    exact ⟨hamong, hmessages m hm⟩
  · refine ⟨rfl, fun other hne => ?_⟩
    rw [part_advance, hkey, if_neg hne]

theorem exists_of_mem_sent {n : Notification} {m : Json} (h : m ∈ c.sent n) :
    ∃ n : Notification, m = n.toJson := by
  unfold Connection.sent Connection.notify Connection.write at h
  split at h
  · exact ⟨n, by simpa [Except.toOption] using h⟩
  · simp [Except.toOption] at h

theorem exists_of_mem_greetings {m : Json} (h : m ∈ c.greetings) :
    ∃ n : Notification, m = n.toJson := by
  rcases List.mem_cons.1 h with rfl | h
  · exact ⟨_, rfl⟩
  · obtain ⟨settings, -, rfl⟩ := Option.map_eq_some_iff.1 (Option.mem_toList.1 h)
    exact ⟨_, rfl⟩

theorem confined_openDocument (hc : ∀ d, t.connection identity = some d → among d.id) (path : Path) :
    Confined among identity t (t.openDocument identity path) := by
  rcases openDocument_cases t identity path with heq |
    ⟨c, s, language, n, documents, hd, -, -, -, -, heq⟩
  · rw [heq]
    exact .refl t
  · rw [heq]
    exact confined_advance t { c with documents := documents } (.inr rfl) (hc c hd)
      fun m => exists_of_mem_sent

theorem confined_teardown (t : Turn) (identity : String) :
    Confined among identity t (t.teardown identity) := by
  cases hc : t.connection identity with
  | none =>
    have hsame : t.teardown identity = t := by simp only [teardown, hc]
    rw [hsame]
    exact .refl t
  | some c =>
    have hteardown := teardown_eq hc
    refine ⟨⟨_, congrArg Turn.effects hteardown, fun e he => ?_⟩, ?_, .inr ⟨?_, fun other hne => ?_⟩⟩
    · rcases List.mem_cons.1 he with rfl | he
      · trivial
      · obtain ⟨view, -, rfl⟩ := List.mem_map.1 he
        rfl
    · rw [hteardown]
      rfl
    · rw [hteardown]
      rfl
    · rw [part_teardown hc, if_neg hne]

theorem confined_published (t : Turn) (identity : String) (p : Publication) :
    Confined among identity t (t.published identity p) := by
  cases haccepts : t.accepts identity p with
  | false =>
    rw [published_of_not_accepts haccepts]
    exact .refl t
  | true =>
    have hpublished := published_of_accepts haccepts
    refine ⟨⟨_, congrArg Turn.effects hpublished, fun e he => ?_⟩, ?_, .inr ⟨?_, fun other hne => ?_⟩⟩
    · obtain ⟨view, -, rfl⟩ := List.mem_map.1 he
      rfl
    · rw [hpublished]
      rfl
    · rw [hpublished]
      rfl
    · exact part_published_of_ne t p hne

theorem confined_activated (hamong : among c.id) (t : Turn) (capabilities : ServerCapabilities)
    (info : Option ServerInfo) : Confined among identity t
      ((t.activated identity c capabilities).tell (.connected identity info)) := by
  have hgreeted : Confined among identity t
      (t.advance identity { c with state := .active } c.greetings) :=
    confined_advance t { c with state := .active } (.inr rfl) hamong
      fun m => exists_of_mem_greetings
  have hgranted : Confined among identity t (t.activated identity c capabilities) :=
    ⟨hgreeted.effects, rfl, .inr ⟨rfl, fun other => part_activated_of_ne t c capabilities⟩⟩
  exact hgranted.trans (confined_emit _ trivial)

theorem confined_onHandshake (hc : t.connection identity = some c) (hamong : among c.id)
    (result : Json) : Confined among identity t (t.onHandshake identity result) := by
  rcases onHandshake_eq hc result with ⟨f, heq⟩ | ⟨-, capabilities, info, -, heq⟩
  · rw [heq]
    exact (confined_teardown t identity).trans (confined_report _ f)
  · have hactivated : Confined among identity t
        ((t.activated identity c capabilities).tell (.connected identity info)) :=
      confined_activated hamong t capabilities info
    rw [heq]
    split
    · refine hactivated.trans (confined_openDocument (fun d hd => ?_) _)
      change (t.activated identity c capabilities).connection identity = some d at hd
      rw [connection_activated, if_pos rfl] at hd
      cases hd
      exact hamong
    · exact hactivated

theorem confined_syncChanges (hall : ∀ id, among id) (t : Turn) (path : Path)
    (changes : List ContentChange) : Confined among identity t (t.syncChanges path changes) := by
  refine List.foldlRecOn (motive := fun u => Confined among identity t u) _ _ (.refl t)
    fun u hu key _ => hu.trans ?_
  rcases syncChangesTo_cases u path changes key with ⟨heq, -⟩ |
    ⟨c, wanted, n, documents, -, -, -, -, heq⟩
  · rw [heq]
    exact .refl u
  · rw [heq]
    exact confined_advance u { c with documents := documents } (.inl hall) (hall c.id)
      fun m => exists_of_mem_sent

theorem confined_putEdited (hall : ∀ id, among id) (t : Turn) (path : Path)
    (edited : Option Edited) : Confined among identity t (t.putEdited path edited) := by
  cases edited with
  | none => exact confined_emit t trivial
  | some edited =>
    have hreplaced : Confined among identity t
        (t.replaceDocument path (String.ofList edited.text) edited.cursor) :=
      ⟨⟨_, rfl, by simp [Effect.Confined]⟩, rfl, .inl hall⟩
    exact hreplaced.trans (confined_syncChanges hall _ path _)

theorem confined_onInbound (hc : t.connection identity = some c) (hamong : among c.id)
    {item : Inbound} (hall : item.formats = true → ∀ id, among id) :
    Confined among identity t (t.onInbound identity item) := by
  cases hitem : item.answersHandshake with
  | true =>
    rcases onInbound_of_answersHandshake t identity hitem with ⟨f, heq⟩ | ⟨result, heq⟩
    · rw [heq]
      exact (confined_teardown t identity).trans (confined_report _ f)
    · rw [heq]
      exact confined_onHandshake hc hamong result
  | false =>
    rcases onInbound_cases t identity hitem with hremarks | ⟨p, rfl⟩ |
      ⟨request, result, path, b, edited, hformats, -, -, -, heq⟩
    · exact hremarks.confined
    · exact confined_published t identity p
    · rw [heq]
      exact confined_putEdited (hall hformats) t path edited

/-- **What is done about messages of a server is confined to it**, unless one of them edits a
document. -/
theorem confined_onInbounds (hamong : among id) {items : List Inbound}
    (hall : ∀ item ∈ items, item.formats = true → ∀ id, among id) :
    Confined among identity t (t.onInbounds identity id items) := by
  induction items generalizing t with
  | nil => exact .refl t
  | cons item items ih =>
    rw [onInbounds]
    split
    · exact .refl t
    · next c hc =>
      split
      · next hid =>
        have hfirst := confined_onInbound hc (hid ▸ hamong) (hall item List.mem_cons_self)
        exact hfirst.trans (ih fun other hother => hall other (List.mem_cons_of_mem _ hother))
      · exact .refl t

/-! ## The connection -/

/-- Whether the connection of an identity is one that stood there before, with the number and the
wire that it had, or is gone. -/
def Remains (identity : String) (t t' : Turn) : Prop :=
  ∀ d', t'.connection identity = some d' → ∃ d, t.connection identity = some d ∧
    d'.id = d.id ∧ d'.config = d.config ∧ d'.wireOpen = d.wireOpen

theorem Persists.remains (h : t.Persists t') (identity : String) : Remains identity t t' := by
  intro d' hd'
  obtain ⟨d, hd, hpersists⟩ := h identity d' hd'
  exact ⟨d, hd, hpersists.id, hpersists.config, hpersists.wireOpen⟩

theorem Remains.trans (h : Remains identity t t') (h' : Remains identity t' u) :
    Remains identity t u := by
  intro d hd
  obtain ⟨d', hd', hid', hconfig', hwire'⟩ := h' d hd
  obtain ⟨d'', hd'', hid, hconfig, hwire⟩ := h d' hd'
  exact ⟨d'', hd'', hid'.trans hid, hconfig'.trans hconfig, hwire'.trans hwire⟩

theorem remains_teardown (t : Turn) (identity : String) :
    Remains identity t (t.teardown identity) := by
  intro d' hd'
  rw [connection_teardown, if_pos rfl] at hd'
  cases hd'

theorem remains_onHandshake (t : Turn) (identity : String) (result : Json) :
    Remains identity t (t.onHandshake identity result) := by
  cases hc : t.connection identity with
  | none =>
    have hsame : (t.onHandshake identity result).connection identity = none := by
      unfold onHandshake
      split
      · exact (connection_teardown t identity identity).trans (if_pos rfl)
      · rw [hc]
        exact hc
    intro d' hd'
    rw [hsame] at hd'
    cases hd'
  | some c =>
    rcases onHandshake_eq hc result with ⟨f, heq⟩ | ⟨-, capabilities, info, -, heq⟩
    · rw [heq]
      exact remains_teardown t identity
    · have hactivated : Remains identity t
          ((t.activated identity c capabilities).tell (.connected identity info)) := by
        intro d' hd'
        change (t.activated identity c capabilities).connection identity = some d' at hd'
        rw [connection_activated, if_pos rfl] at hd'
        cases hd'
        exact ⟨c, hc, rfl, rfl, rfl⟩
      rw [heq]
      split
      · next path _ =>
        have hopens : ∀ u : Turn, Works (fun _ => True) u (u.openDocument identity path) :=
          fun u => works_openDocument trivial u identity
        exact hactivated.trans ((hopens _).persists.remains identity)
      · exact hactivated

theorem remains_onInbound (t : Turn) (identity : String) (item : Inbound) :
    Remains identity t (t.onInbound identity item) := by
  cases hitem : item.answersHandshake with
  | true =>
    rcases onInbound_of_answersHandshake t identity hitem with ⟨f, heq⟩ | ⟨result, heq⟩
    · rw [heq]
      exact remains_teardown t identity
    · rw [heq]
      exact remains_onHandshake t identity result
  | false =>
    have hworks : Works (fun _ => True) t (t.onInbound identity item) :=
      works_onInbound hitem fun _ _ _ _ _ => trivial
    exact hworks.persists.remains identity

theorem remains_onInbounds (t : Turn) (identity : String) (id : ConnectionId)
    (items : List Inbound) : Remains identity t (t.onInbounds identity id items) := by
  induction items generalizing t with
  | nil => exact (Persists.of_connection rfl).remains identity
  | cons item items ih =>
    rw [onInbounds]
    split
    · exact (Persists.of_connection rfl).remains identity
    · split
      · exact (remains_onInbound t identity item).trans (ih _)
      · exact (Persists.of_connection rfl).remains identity

end Turn
end LanguageClient
