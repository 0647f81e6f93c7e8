import LanguageClient.Proofs.Document.Address
import LanguageClient.Proofs.Session.Consistency
import LanguageClient.Proofs.Session.Mirror

/-!
# Routine

Most of what a session does leaves its servers, diagnostics and views where they are: it informs
active servers of documents, asks them about documents, answers what they ask and makes remarks to
the host. `Turn.Routine` is this frame, with all that may be written and told within it, and each
such operation is shown to stay in it. The documents that it informs servers of and asks about are
named by the paths of a class `spelled`, as they are written.
-/

namespace LanguageClient

namespace Connection

/-- Whether a connection is of the same launch and in the same state as before; its wire may have
broken. -/
structure Stays (c c' : Connection) : Prop where
  id : c'.id = c.id
  config : c'.config = c.config
  state : c'.state = c.state
  wireOpen : c'.wireOpen = true → c.wireOpen = true

variable {c c' d : Connection}

theorem Stays.refl (c : Connection) : c.Stays c := ⟨rfl, rfl, rfl, fun hopen => hopen⟩

theorem Stays.trans (h : c.Stays c') (h' : c'.Stays d) : c.Stays d :=
  ⟨h'.id.trans h.id, h'.config.trans h.config, h'.state.trans h.state,
    fun hopen => h.wireOpen (h'.wireOpen hopen)⟩

theorem Persists.stays (h : c.Persists c') : c.Stays c' :=
  ⟨h.id, h.config, h.state, fun hopen => h.wireOpen ▸ hopen⟩

theorem stays_receive (c : Connection) (bytes : Bytes) : c.Stays (c.receive bytes).2 := by
  have hcontinues := c.continues_receive bytes
  exact ⟨hcontinues.id, hcontinues.config, c.state_receive bytes,
    fun hopen => c.wireOpen_receive bytes ▸ hopen⟩

end Connection

namespace Turn

/-- What is done in a routine. -/
inductive Usual (spelled : Path → Prop) (t : Turn) : Effect → Prop where
  | remarks {cb : Callback} (plain : cb.Plain) : Usual spelled t (.tell cb)
  | replaces (path : Path) (text : String) (cursor : Nat) :
      Usual spelled t (.tell (.replaceDocument path text cursor))
  | halts : Usual spelled t .halt
  | replies (id : ConnectionId) (r : Response) : Usual spelled t (.write id r.toJson)
  | speaks {identity : String} {c : Connection} {path : Path} {m : Json}
      (hc : t.connection identity = some c) (active : c.isActive = true) (spells : spelled path)
      (about : Conversation.About path m) : Usual spelled t (.write c.id m)

/-- Whether a later turn differs from an earlier one by routine alone. -/
structure Routine (spelled : Path → Prop) (t t' : Turn) : Prop where
  stood : ∀ identity c', t'.connection identity = some c' →
    ∃ c, t.connection identity = some c ∧ c.Stays c'
  stands : ∀ identity c, t.connection identity = some c →
    ∃ c', t'.connection identity = some c' ∧ c.Stays c'
  diagnostics : t'.session.diagnostics = t.session.diagnostics
  views : t'.session.views = t.session.views
  nextConnection : t'.session.nextConnection = t.session.nextConnection
  effects : ∃ more, t'.effects = t.effects ++ more ∧ ∀ e ∈ more, Usual spelled t e

variable {named spelled : Path → Prop} {t t' u : Turn} {path : Path} {identity : String}
  {c c' : Connection} {messages : List Json} {e : Effect} {more : List Effect}

/-! ## Chains -/

/-- What is usual stays so when the servers stay. -/
theorem Usual.earlier (h : Usual spelled t' e)
    (hstood : ∀ identity c', t'.connection identity = some c' →
      ∃ c, t.connection identity = some c ∧ c.Stays c') : Usual spelled t e := by
  cases h with
  | remarks plain => exact .remarks plain
  | replaces path text cursor => exact .replaces path text cursor
  | halts => exact .halts
  | replies id r => exact .replies id r
  | speaks hc active spells about =>
    obtain ⟨c, hc, hstays⟩ := hstood _ _ hc
    rw [hstays.id]
    refine .speaks hc ?_ spells about
    rw [Connection.isActive, ← hstays.state]
    exact active

/-- Effects that are usual make a routine, where nothing else that matters has changed. -/
theorem routine_of_effects (hconnection : t'.connection = t.connection)
    (hdiagnostics : t'.session.diagnostics = t.session.diagnostics)
    (hviews : t'.session.views = t.session.views)
    (hnext : t'.session.nextConnection = t.session.nextConnection)
    (heffects : t'.effects = t.effects ++ more) (hmore : ∀ e ∈ more, Usual spelled t e) :
    Routine spelled t t' := by
  refine ⟨?_, ?_, hdiagnostics, hviews, hnext, more, heffects, hmore⟩
  · intro identity c hc
    rw [hconnection] at hc
    exact ⟨c, hc, .refl c⟩
  · intro identity c hc
    rw [hconnection]
    exact ⟨c, hc, .refl c⟩

/-- Nothing that matters has changed. -/
theorem routine_of_eq (hconnection : t'.connection = t.connection)
    (hdiagnostics : t'.session.diagnostics = t.session.diagnostics)
    (hviews : t'.session.views = t.session.views)
    (hnext : t'.session.nextConnection = t.session.nextConnection)
    (heffects : t'.effects = t.effects) : Routine spelled t t' :=
  routine_of_effects hconnection hdiagnostics hviews hnext
    (heffects.trans (List.append_nil _).symm) (by simp)

theorem Routine.refl (t : Turn) : Routine spelled t t := routine_of_eq rfl rfl rfl rfl rfl

theorem Routine.trans (h : Routine spelled t t') (h' : Routine spelled t' u) :
    Routine spelled t u := by
  obtain ⟨more, heffects, hmore⟩ := h.effects
  obtain ⟨more', heffects', hmore'⟩ := h'.effects
  refine ⟨?_, ?_, h'.diagnostics.trans h.diagnostics, h'.views.trans h.views,
    h'.nextConnection.trans h.nextConnection, more ++ more', ?_, ?_⟩
  · intro identity d hd
    obtain ⟨c', hc', hlater⟩ := h'.stood identity d hd
    obtain ⟨c, hc, hearlier⟩ := h.stood identity c' hc'
    exact ⟨c, hc, hearlier.trans hlater⟩
  · intro identity c hc
    obtain ⟨c', hc', hearlier⟩ := h.stands identity c hc
    obtain ⟨d, hd, hlater⟩ := h'.stands identity c' hc'
    exact ⟨d, hd, hearlier.trans hlater⟩
  · rw [heffects', heffects, List.append_assoc]
  · intro e he
    rcases List.mem_append.1 he with he | he
    · exact hmore e he
    · exact (hmore' e he).earlier h.stood

theorem routine_foldl {α : Type} {f : Turn → α → Turn} {l : List α}
    (h : ∀ u, ∀ a ∈ l, Routine spelled u (f u a)) (t : Turn) : Routine spelled t (l.foldl f t) :=
  List.foldlRecOn l f (.refl t) fun u hu a ha => hu.trans (h u a ha)

theorem routine_emit (t : Turn) (h : Usual spelled t e) : Routine spelled t (t.emit e) :=
  routine_of_effects rfl rfl rfl rfl rfl fun _ he => List.mem_singleton.1 he ▸ h

theorem Remarks.routine (h : t.Remarks t') : Routine spelled t t' := by
  induction h with
  | refl => exact .refl t
  | tail _ hlast ih =>
    obtain ⟨cb, hplain, rfl⟩ := hlast
    exact ih.trans (routine_emit _ (.remarks hplain))

theorem routine_report (t : Turn) (f : Failure) : Routine spelled t (t.report f) :=
  (remarks_report t f).routine

theorem routine_write (t : Turn) {id : ConnectionId}
    (h : ∀ m ∈ messages, Usual spelled t (.write id m)) : Routine spelled t (t.write id messages) := by
  refine routine_of_effects rfl rfl rfl rfl rfl fun e he => ?_
  obtain ⟨m, hm, rfl⟩ := List.mem_map.1 he
  exact h m hm

/-- A connection that stays may write what is usual. -/
theorem routine_advance (hc : t.connection identity = some c) (hstays : c.Stays c')
    (h : ∀ m ∈ messages, Usual spelled t (.write c.id m)) :
    Routine spelled t (t.advance identity c' messages) := by
  refine ⟨?_, ?_, rfl, rfl, rfl, messages.map (.write c'.id), rfl, ?_⟩
  · intro other d hd
    exact exists_of_connection_advance .refl hc hstays hd
  · intro other d hd
    rw [connection_advance]
    by_cases heq : identity = other
    · subst heq
      obtain rfl := Option.some.inj (hc.symm.trans hd)
      exact ⟨c', if_pos rfl, hstays⟩
    · exact ⟨d, by rw [if_neg heq, hd], .refl d⟩
  · intro e he
    obtain ⟨m, hm, rfl⟩ := List.mem_map.1 he
    rw [hstays.id]
    exact h m hm

/-- A notification about a document is usual on an active connection. -/
theorem usual_of_mem_sent {n : Notification} {m : Json} (hc : t.connection identity = some c)
    (hactive : c.isActive = true) (hpath : spelled path)
    (habout : Conversation.About path n.toJson) (hm : m ∈ c.sent n) :
    Usual spelled t (.write c.id m) := by
  obtain ⟨-, rfl⟩ := Connection.mem_sent hm
  exact .speaks hc hactive hpath habout

/-! ## Documents -/

theorem routine_openDocument (hpath : spelled path) (t : Turn) (identity : String) :
    Routine spelled t (t.openDocument identity path) := by
  rcases openDocument_cases t identity path with heq |
    ⟨c, s, language, n, documents, hc, hactive, -, -, hopen, heq⟩
  · rw [heq]
    exact .refl t
  · rw [heq]
    refine routine_advance hc (c.persists_withDocuments documents).stays fun m hm => ?_
    exact usual_of_mem_sent hc hactive hpath (Conversation.about_openDocument hopen) hm

theorem routine_openEverywhere (hpath : spelled path) (t : Turn) :
    Routine spelled t (t.openEverywhere path) :=
  routine_foldl (fun u identity _ => routine_openDocument hpath u identity) t

theorem routine_closeDocument (h : t.Coherent named) (hpath : spelled path) (identity : String) :
    Routine spelled t (t.closeDocument path identity) := by
  rcases closeDocument_cases t path identity with heq | ⟨c, n, documents, hc, hclose, heq⟩
  · rw [heq]
    exact .refl t
  · rw [heq]
    have hactive : c.isActive = true := by
      unfold DocumentTable.close at hclose
      split at hclose
      · next hopen =>
        obtain ⟨document, hdocument⟩ := Option.isSome_iff_exists.1 hopen
        exact (h.sound identity c hc).isActive_of_get? hdocument
      · cases hclose
    refine routine_advance hc (c.persists_withDocuments documents).stays fun m hm => ?_
    exact usual_of_mem_sent hc hactive hpath (Conversation.about_close hclose) hm

/-- A document that nothing is known of is closed everywhere. -/
theorem routine_foldl_closeDocument (h : t.Coherent named) (hname : named path)
    (hpath : spelled path) (hquiet : t.Quiet path.place) (identities : List String) :
    Routine spelled t (identities.foldl (closeDocument · path) t) := by
  have hboth : Routine spelled t (identities.foldl (closeDocument · path) t) ∧
      (identities.foldl (closeDocument · path) t).Coherent named := by
    refine List.foldlRecOn (motive := fun u : Turn => Routine spelled t u ∧ u.Coherent named)
      identities _ ⟨.refl t, h⟩ fun u hu identity _ => ?_
    obtain ⟨hroutine, hcoherent⟩ := hu
    have hstill : u.Quiet path.place := by
      rw [Quiet, hroutine.diagnostics]
      exact hquiet
    exact ⟨hroutine.trans (routine_closeDocument hcoherent hpath identity),
      (works_closeDocument hname u hstill identity).steps.coherent hcoherent⟩
  exact hboth.1

theorem routine_syncChangesTo (hpath : spelled path) (t : Turn) (changes : List ContentChange)
    (identity : String) : Routine spelled t (t.syncChangesTo path changes identity) := by
  rcases syncChangesTo_cases t path changes identity with ⟨heq, -⟩ |
    ⟨c, wanted, n, documents, hc, hactive, -, hchange, heq⟩
  · rw [heq]
    exact .refl t
  · rw [heq]
    refine routine_advance hc (c.persists_withDocuments documents).stays fun m hm => ?_
    exact usual_of_mem_sent hc hactive hpath (Conversation.about_change hchange) hm

theorem routine_syncChanges (hpath : spelled path) (t : Turn) (changes : List ContentChange) :
    Routine spelled t (t.syncChanges path changes) :=
  routine_foldl (fun u identity _ => routine_syncChangesTo hpath u changes identity) t

theorem routine_savedTo (hpath : spelled path) (t : Turn) (identity : String) :
    Routine spelled t (t.savedTo path identity) := by
  unfold savedTo
  split
  · exact .refl t
  · next c hc =>
    split
    · exact .refl t
    · next hready =>
      simp only [Bool.or_eq_true, Bool.not_eq_true', not_or, Bool.not_eq_false] at hready
      dsimp only
      rw [notify_eq]
      refine routine_write t fun m hm => ?_
      exact usual_of_mem_sent hc hready.1 hpath (Conversation.about_save path _) hm

theorem routine_saved (hpath : spelled path) (t : Turn) : Routine spelled t (t.saved path) :=
  routine_foldl (fun u identity _ => routine_savedTo hpath u identity) t

theorem routine_resync (hpath : spelled path) (h : t.resync path = .ok t') :
    Routine spelled t t' := by
  unfold resync at h
  split at h
  · cases h
    exact routine_syncChanges hpath t _
  · cases h

theorem routine_putEdited (hpath : spelled path) (t : Turn) (edited : Option Edited) :
    Routine spelled t (t.putEdited path edited) := by
  cases edited with
  | none => exact routine_emit t .halts
  | some edited =>
    have hreplaced : Routine spelled t
        (t.replaceDocument path (String.ofList edited.text) edited.cursor) :=
      routine_of_effects rfl rfl rfl rfl rfl fun e he =>
        List.mem_singleton.1 he ▸ .replaces path _ _
    exact hreplaced.trans (routine_syncChanges hpath _ _)

/-! ## Requests -/

theorem routine_ask (hpath : spelled path) (h : t.Takes path identity) (kind : RequestKind)
    (settings : Settings) (b : Buffer) :
    Routine spelled t (t.ask kind path (requestParams settings kind path b) identity).2 := by
  have hopened := h.openDocument identity
  rw [ask_snd]
  refine (routine_openDocument hpath t identity).trans ?_
  split
  · exact .refl _
  · next c hc =>
    obtain ⟨d, hd, hactive, -⟩ := hopened
    obtain rfl := Option.some.inj (hc.symm.trans hd)
    have hpersists := c.persists_sendRequest (requestParams settings kind path b) (some path)
      kind.method_ne_handshake
    refine routine_advance hc hpersists.stays fun m hm => ?_
    obtain ⟨-, rfl⟩ := Connection.mem_asked hm
    exact .speaks hc hactive hpath (Conversation.about_request _ kind settings path b)

theorem routine_request (h : t.Coherent named) (hpath : spelled path) (kind : RequestKind) :
    Routine spelled t (t.request kind path) := by
  unfold request
  split
  · exact routine_report t _
  · next identities htargets =>
    split
    · exact routine_report t _
    · next b hb =>
      refine askAll_induction (P := Routine spelled t) kind _
        (fun u identity htakes _ hu => hu.trans (routine_ask hpath htakes kind _ b))
        (fun u f hu => hu.trans (routine_report u f)) (fun identity hmem => ?_) (.refl t)
      exact takes_of_mem_targets h htargets hmem

/-! ## Servers -/

/-- A server is heard: what it asks is answered. -/
theorem routine_receive (hc : t.connection identity = some c) (bytes : Bytes) :
    Routine spelled t (t.advance identity (c.receive bytes).2 (c.receive bytes).1.replies) := by
  refine routine_advance hc (c.stays_receive bytes) fun m hm => ?_
  obtain ⟨-, r, rfl⟩ := (c.receives_receive bytes).replies m hm
  exact .replies c.id r

theorem routine_stderr (t : Turn) (id : ConnectionId) (bytes : Bytes) :
    Routine spelled t (t.stderr id bytes) := by
  unfold stderr
  split
  · exact .refl t
  · exact routine_of_eq rfl rfl rfl rfl rfl

theorem routine_cut (h : t.Coherent named) (id : ConnectionId) :
    Routine spelled t (t.move (.cut id)) := by
  rcases cut_cases h id with heq | ⟨c, hc, -, heq⟩
  · rw [heq]
    exact .refl t
  · rw [heq]
    exact routine_advance hc ⟨rfl, rfl, rfl, fun hopen => by cases hopen⟩ (by simp)

end Turn
end LanguageClient
