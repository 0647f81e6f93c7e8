import LanguageClient.Proofs.Session.Run

/-!
# Connections that wait for the handshake

A connection is pending as long as the answer to its handshake is owed. Within the output of a
server there are moments when this is not so: the answer is taken out of the pending requests when
it is received, and acted on later. `Turn.Owing` says what holds in between; once all messages of
the output were acted on, `Turn.Unanswered` holds again.
-/

namespace LanguageClient

/-- Whether a connection is owed the answer to its handshake. -/
def Connection.OwesHandshake (c : Connection) : Prop :=
  ∃ n request, c.requests.requests.get? n = some request ∧ request.method = .handshake

namespace Connection

variable {named : Path → Prop} {c c' : Connection}

theorem OwesHandshake.persists (h : c.OwesHandshake) (hc : c.Sound named) (hp : c.Persists c') :
    c'.OwesHandshake := by
  obtain ⟨n, request, hn, hmethod⟩ := h
  exact ⟨n, request, hp.owed n request (hc.numbered n request hn) hn, hmethod⟩

/-- An answer that is owed is still owed after some output, or it came with it. -/
theorem OwesHandshake.receive (h : c.OwesHandshake) (bytes : Bytes) :
    (c.receive bytes).2.OwesHandshake ∨
      ∃ item ∈ (c.receive bytes).1.inbound, item.answersHandshake = true := by
  obtain ⟨n, request, hn, hmethod⟩ := h
  have hresolves : c.requests.Resolves (c.receive bytes).1.inbound (c.receive bytes).2.requests :=
    (receives_receive c bytes).resolves
  rcases hresolves.get?_or_answered hn with hleft | ⟨outcome, hmem⟩
  · exact .inl ⟨n, request, hleft, hmethod⟩
  · exact .inr ⟨_, hmem, by simp [Inbound.answersHandshake, hmethod]⟩

end Connection

namespace Turn

variable {named : Path → Prop} {t t' : Turn} {identity other : String} {c c' : Connection}
  {id : ConnectionId} {items : List Inbound} {item : Inbound}

/-- Whether every pending connection is owed the answer to its handshake. -/
def Unanswered (t : Turn) : Prop :=
  ∀ identity c, t.connection identity = some c → c.state = .pending → c.OwesHandshake

/-- Whether every pending connection is owed the answer to its handshake, or has it among the
messages of its output that still wait. -/
def Owing (t : Turn) (identity : String) (id : ConnectionId) (items : List Inbound) : Prop :=
  ∀ other c, t.connection other = some c → c.state = .pending → c.OwesHandshake ∨
    (other = identity ∧ c.id = id ∧ ∃ item ∈ items, item.answersHandshake = true)

/-! ## What servers that run do -/

theorem Unanswered.persists (h : t.Unanswered) (ht : t.Coherent named) (hp : t.Persists t') :
    t'.Unanswered := by
  intro identity c' hc' hpending
  obtain ⟨c, hc, hpersists⟩ := hp identity c' hc'
  exact (h identity c hc (hpersists.state ▸ hpending)).persists (ht.sound identity c hc) hpersists

theorem Owing.persists (h : t.Owing identity id items) (ht : t.Coherent named)
    (hp : t.Persists t') : t'.Owing identity id items := by
  intro other c' hc' hpending
  obtain ⟨c, hc, hpersists⟩ := hp other c' hc'
  rcases h other c hc (hpersists.state ▸ hpending) with howes | ⟨hother, hid, hitem⟩
  · exact .inl (howes.persists (ht.sound other c hc) hpersists)
  · exact .inr ⟨hother, hpersists.id.trans hid, hitem⟩

/-! ## Output -/

theorem connection_teardown (t : Turn) (identity other : String) :
    (t.teardown identity).connection other =
      if identity = other then none else t.connection other := by
  unfold teardown
  split
  · next hnone =>
    split
    · next heq => rw [← heq, hnone]
    · rfl
  · next c hc =>
    refine List.foldlRecOn (motive := fun u : Turn => u.connection other = _) _ _ ?_
      fun u hu _ _ => hu
    exact connection_ended t identity c other

/-- Once the answer to the handshake was acted on, its connection is no longer pending. -/
theorem Owing.answered (h : t.Owing identity c.id (item :: items)) (ht : t.Coherent named)
    (hc : t.connection identity = some c) (hitem : item.answersHandshake = true) :
    (t.onInbound identity item).Owing identity c.id items := by
  -- the other connections persist, and no message answers their handshakes
  have hothers : ∀ u : Turn, u.Persists (t.onInbound identity item) →
      (∀ other d, u.connection other = some d → d.state = .pending →
        other ≠ identity ∧ t.connection other = some d) →
      (t.onInbound identity item).Owing identity c.id items := by
    intro u hp hu other d' hd' hpending
    obtain ⟨d, hd, hpersists⟩ := hp other d' hd'
    obtain ⟨hne, hbefore⟩ := hu other d hd (hpersists.state ▸ hpending)
    rcases h other d hbefore (hpersists.state ▸ hpending) with howes | ⟨heq, -⟩
    · exact .inl (howes.persists (ht.sound other d hbefore) hpersists)
    · exact absurd heq hne
  have hended : ∀ f, t.onInbound identity item = (t.teardown identity).report f →
      (t.onInbound identity item).Owing identity c.id items := by
    intro f heq
    refine hothers (t.teardown identity) ?_ fun other d hd _ => ?_
    · rw [heq]
      exact .of_connection rfl
    · rw [connection_teardown] at hd
      split at hd
      · cases hd
      · next hne => exact ⟨Ne.symm hne, hd⟩
  rcases onInbound_of_answersHandshake t identity hitem with ⟨f, heq⟩ | ⟨result, heq⟩
  · exact hended f heq
  · rcases onHandshake_cases ht hc result with ⟨f, hresult⟩ | ⟨-, capabilities, hworks⟩
    · exact hended f (heq.trans hresult)
    · rw [← heq] at hworks
      refine hothers _ hworks.persists fun other d hd hpending => ?_
      rw [connection_activated] at hd
      split at hd
      · obtain rfl := Option.some.inj hd
        cases hpending
      · next hne => exact ⟨Ne.symm hne, hd⟩

theorem Owing.tail (h : t.Owing identity c.id (item :: items)) (ht : t.Coherent named)
    (hc : t.connection identity = some c) (ha : t.Awaits named identity c.id (item :: items)) :
    (t.onInbound identity item).Owing identity c.id items := by
  cases hitem : item.answersHandshake with
  | true => exact h.answered ht hc hitem
  | false =>
    have hworks := works_of_answersHandshake_eq_false ha hitem
    intro other d hd hpending
    rcases h.persists ht hworks.persists other d hd hpending with howes | ⟨hother, hid, waiting,
      hmem, hanswers⟩
    · exact .inl howes
    · rcases List.mem_cons.1 hmem with rfl | hmem
      · rw [hitem] at hanswers
        cases hanswers
      · exact .inr ⟨hother, hid, waiting, hmem, hanswers⟩

/-- Messages of a launch that is over wait for no connection. -/
theorem Owing.unanswered_of_gone (h : t.Owing identity id items)
    (hgone : ∀ c, t.connection identity = some c → c.id ≠ id) : t.Unanswered := by
  intro other c hc hpending
  rcases h other c hc hpending with howes | ⟨rfl, hid, -⟩
  · exact howes
  · exact absurd hid (hgone c hc)

/-- **Once all messages of an output were acted on, no answer to a handshake was lost.** -/
theorem Owing.unanswered (h : t.Owing identity id items) (ht : t.Coherent named)
    (ha : t.Awaits named identity id items) : (t.onInbounds identity id items).Unanswered := by
  induction items generalizing t with
  | nil =>
    intro other c hc hpending
    rcases h other c hc hpending with howes | ⟨-, -, item, hmem, -⟩
    · exact howes
    · cases hmem
  | cons item items ih =>
    rw [onInbounds]
    split
    · next hnone => exact h.unanswered_of_gone fun c hc => by simp [hnone] at hc
    · next c hc =>
      split
      · next hid =>
        obtain rfl := hid
        exact ih (h.tail ht hc ha) ((steps_onInbound ht hc ha).coherent ht) ha.tail
      · next hne =>
        refine h.unanswered_of_gone fun d hd => ?_
        obtain rfl := Option.some.inj (hc.symm.trans hd)
        exact hne

theorem Unanswered.stdout (h : t.Unanswered) (ht : t.Coherent named) (id : ConnectionId)
    (bytes : Bytes) : (t.stdout id bytes).Unanswered := by
  cases hfind : Registry.findById t.session.connections id with
  | none =>
    simp only [Turn.stdout, hfind]
    exact h
  | some c =>
    obtain ⟨hc, hid⟩ := connection_of_findById ht hfind
    have hheard : (t.advance c.identity (c.receive bytes).2 (c.receive bytes).1.replies).Owing
        c.identity c.id (c.receive bytes).1.inbound := by
      intro other d hd hpending
      rcases connection_advance_cases hd with ⟨hidentity, rfl⟩ | ⟨-, hd⟩
      · rw [c.state_receive bytes] at hpending
        rcases (h c.identity c hc hpending).receive bytes with howes | hitem
        · exact .inl howes
        · exact .inr ⟨hidentity, (c.continues_receive bytes).id, hitem⟩
      · exact .inl (h other d hd hpending)
    rw [stdout_eq_hearing hfind hid]
    exact hheard.unanswered (Step.coherent (.hears hc) ht)
      (awaits_receive (ht.sound _ c hc) bytes _)

/-! ## Servers that are started -/

theorem owesHandshake_newcomer {config : ServerConfig} {wireOpen : Bool} {sent : Nat × Json}
    (h : (t.newcomer config wireOpen).1 = .ok sent) :
    (t.newcomer config wireOpen).2.OwesHandshake := by
  have haccepts : (Connection.new t.session.nextConnection config wireOpen).accepts = true := by
    rw [newcomer, Connection.handshake, Connection.sendRequest_fst] at h
    split at h
    · assumption
    · cases h
  refine ⟨1, ⟨.handshake, none⟩, ?_, rfl⟩
  rw [newcomer, Connection.handshake, Connection.sendRequest_snd, if_pos haccepts]
  rfl

theorem Unanswered.start (h : t.Unanswered) (ht : t.Coherent named) (launch : Launcher)
    (target : StartTarget) : (t.start launch target).Unanswered := by
  have hreport : ∀ u : Turn, u.connection = t.connection → ∀ f, (u.report f).Unanswered :=
    fun u hu f => h.persists ht (.of_connection hu)
  apply start_elim launch target
  case failed => exact fun e => hreport t rfl e
  case refused => exact fun config e _ => hreport (t.launching config) rfl e
  case entered =>
    intro config wireOpen sent _ hsent other d hd hpending
    change (t.entered config wireOpen).connection other = some d at hd
    rw [connection_entered] at hd
    split at hd
    · obtain rfl := Option.some.inj hd
      exact owesHandshake_newcomer hsent
    · exact h other d hd hpending
  case unsent =>
    -- a newcomer that cannot be sent the handshake is gone at once
    intro config wireOpen e _ other d hd hpending
    change (teardown _ _).connection other = some d at hd
    rw [connection_teardown] at hd
    split at hd
    · cases hd
    · next hne =>
      change (t.entered config wireOpen).connection other = some d at hd
      rw [connection_entered, if_neg hne] at hd
      exact h other d hd hpending

/-! ## Moves -/

theorem Unanswered.react (h : t.Unanswered) (ht : t.Coherent named) (launch : Launcher) {e : Event}
    (hnames : e.Names named) : (t.react launch e).Unanswered := by
  cases hedit : e.isEdit with
  | true =>
    cases e with
    | action a =>
      cases a with
      | edited path changes => exact h.persists ht (persists_syncChanges t path changes)
      | _ => cases hedit
    | _ => cases hedit
  | false =>
    cases hplain : e.bringsUp with
    | false => exact h.persists ht (works_react ht launch hnames hedit hplain).persists
    | true =>
      cases e with
      | stdout id bytes => exact h.stdout ht id bytes
      | action a =>
        cases a with
        | start target => exact h.start ht launch target
        | _ => cases hplain
      | _ => cases hplain

theorem Unanswered.move (h : t.Unanswered) (ht : t.Coherent named) {m : Move}
    (hm : m.Names named) : (t.move m).Unanswered := by
  cases m with
  | event launch e => exact h.react ht launch hm
  | edit path changes cursor selection =>
    obtain ⟨buffers, heq⟩ := edit_eq t path changes cursor selection
    rw [Turn.move, heq]
    exact h.persists ht (persists_syncChanges { t with buffers := buffers } path changes)
  | buffer path b => exact h
  | cut id =>
    rcases cut_cases ht id with heq | ⟨c, hc, -, heq⟩
    · rw [heq]
      exact h
    · rw [heq]
      intro other d hd hpending
      rcases connection_advance_cases hd with ⟨-, rfl⟩ | ⟨-, hd⟩
      · exact h c.identity c hc hpending
      · exact h other d hd hpending

/-- **A connection of a run that is pending is owed the answer to its handshake.** -/
theorem Unanswered.run (h : t.Unanswered) (ht : t.Coherent named) {moves : List Move}
    (hmoves : ∀ m ∈ moves, m.Names named) : (t.run moves).Unanswered :=
  ht.holds_run hmoves (fun _ m hm hu hbefore => hbefore.move hu (hmoves m hm)) h

end Turn
end LanguageClient
