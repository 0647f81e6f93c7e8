import LanguageClient.Proofs.Session.Coherence

/-!
# What connections were before

A connection that stands after some work stood before it under the same identity and has not been
activated since (`Works.persists`). After any steps it continues what stood before, unless it was
entered meanwhile, which its number tells (`Steps.continues`).
-/

namespace LanguageClient.Turn

variable {named : Path → Prop} {t t' u : Turn}

/-- Whether all connections of a later turn stood before and were not heard, activated or cut off. -/
def Persists (t t' : Turn) : Prop :=
  ∀ identity c', t'.connection identity = some c' →
    ∃ c, t.connection identity = some c ∧ c.Persists c'

/-- Whether all connections of a later turn stood before or were entered since. -/
structure Continues (t t' : Turn) : Prop where
  next_le : t.session.nextConnection ≤ t'.session.nextConnection
  connections : ∀ identity c', t'.connection identity = some c' →
    (∃ c, t.connection identity = some c ∧ c.Continues c') ∨ t.session.nextConnection ≤ c'.id

/-! ## Work -/

theorem Persists.of_connection (h : t'.connection = t.connection) : t.Persists t' := by
  intro identity c hc
  rw [h] at hc
  exact ⟨c, hc, .refl c⟩

theorem Persists.trans (h : t.Persists t') (h' : t'.Persists u) : t.Persists u := by
  intro identity d hd
  obtain ⟨c', hc', hlater⟩ := h' identity d hd
  obtain ⟨c, hc, hearlier⟩ := h identity c' hc'
  exact ⟨c, hc, hearlier.trans hlater⟩

theorem persists_advance {identity : String} {c c' : Connection} {messages : List Json}
    (hc : t.connection identity = some c) (h : c.Persists c') :
    t.Persists (t.advance identity c' messages) := by
  intro other d hd
  exact exists_of_connection_advance .refl hc h hd

theorem persists_ended (t : Turn) (identity : String) (c : Connection) :
    t.Persists (t.ended identity c) := by
  intro other d hd
  rw [connection_ended] at hd
  split at hd
  · cases hd
  · exact ⟨d, hd, .refl d⟩

theorem persists_syncChangesTo (t : Turn) (path : Path) (changes : List ContentChange)
    (identity : String) : t.Persists (t.syncChangesTo path changes identity) := by
  rcases syncChangesTo_cases t path changes identity with ⟨heq, -⟩ |
    ⟨c, wanted, n, documents, hc, -, -, -, heq⟩
  · rw [heq]
    exact .of_connection rfl
  · rw [heq]
    exact persists_advance hc (c.persists_withDocuments documents)

theorem persists_syncChanges (t : Turn) (path : Path) (changes : List ContentChange) :
    t.Persists (t.syncChanges path changes) :=
  List.foldlRecOn (motive := fun u => t.Persists u) _ _ (.of_connection rfl) fun u h identity _ =>
    h.trans (persists_syncChangesTo u path changes identity)

theorem Work.persists (h : Work named t t') : t.Persists t' := by
  cases h with
  | tells | halts | focuses | binds | unbinds | publishes | forgets | logs | saves =>
    exact .of_connection rfl
  | acts hc h => exact persists_advance hc h.persists
  | ends hc => exact persists_ended t _ _
  | resyncs => exact persists_syncChanges t _ _
  | rewrites => exact persists_syncChanges (t.replaceDocument _ _ _) _ _

/-- **No work enters a connection, hears one or activates one.** -/
theorem Works.persists (h : Works named t t') : t.Persists t' := by
  induction h with
  | refl => exact .of_connection rfl
  | tail _ hwork ih => exact ih.trans hwork.persists

/-! ## Steps -/

theorem nextConnection_syncChanges (t : Turn) (path : Path) (changes : List ContentChange) :
    (t.syncChanges path changes).session.nextConnection = t.session.nextConnection := by
  refine List.foldlRecOn (motive := fun u : Turn => u.session.nextConnection =
    t.session.nextConnection) _ _ rfl fun u h identity _ => ?_
  rcases syncChangesTo_cases u path changes identity with ⟨heq, -⟩ |
    ⟨c, wanted, n, documents, -, -, -, -, heq⟩
  · rw [heq, h]
  · rw [heq]
    exact h

theorem Work.nextConnection_eq (h : Work named t t') :
    t'.session.nextConnection = t.session.nextConnection := by
  cases h with
  | tells | halts | focuses | binds | unbinds | publishes | forgets | logs | saves | acts | ends =>
    rfl
  | resyncs => exact nextConnection_syncChanges t _ _
  | rewrites => exact nextConnection_syncChanges (t.replaceDocument _ _ _) _ _

theorem Continues.trans (h : t.Continues t') (h' : t'.Continues u) : t.Continues u := by
  refine ⟨Nat.le_trans h.next_le h'.next_le, fun identity d hd => ?_⟩
  rcases h'.connections identity d hd with ⟨c', hc', hlater⟩ | hle
  · rcases h.connections identity c' hc' with ⟨c, hc, hearlier⟩ | hle
    · exact .inl ⟨c, hc, hearlier.trans hlater⟩
    -- entered on the way to the turn between, and gone on since
    · rw [← hlater.id] at hle
      exact .inr hle
  · exact .inr (Nat.le_trans h.next_le hle)

theorem Persists.continues (h : t.Persists t')
    (hnext : t'.session.nextConnection = t.session.nextConnection) : t.Continues t' := by
  refine ⟨Nat.le_of_eq hnext.symm, fun identity c' hc' => .inl ?_⟩
  obtain ⟨c, hc, hpersists⟩ := h identity c' hc'
  exact ⟨c, hc, hpersists.toContinues⟩

theorem Continues.refl (t : Turn) : t.Continues t :=
  Persists.continues (.of_connection rfl) rfl

theorem continues_advance {identity : String} {c c' : Connection} {messages : List Json}
    (hc : t.connection identity = some c) (h : c.Continues c') :
    t.Continues (t.advance identity c' messages) := by
  refine ⟨Nat.le_refl _, fun other d hd => .inl ?_⟩
  exact exists_of_connection_advance (fun _ => .of_requests rfl rfl rfl) hc h hd

theorem Step.continues (h : Step named t t') : t.Continues t' := by
  cases h with
  | works h => exact h.persists.continues h.nextConnection_eq
  | @hears identity c bytes hc => exact continues_advance hc (c.continues_receive bytes)
  | @activates identity c capabilities hc =>
    have hadvance : t.Continues (t.advance identity { c with state := .active } c.greetings) :=
      continues_advance hc (.of_requests rfl rfl rfl)
    exact ⟨hadvance.next_le, hadvance.connections⟩
  | @launches config =>
    exact ⟨Nat.le_succ _, fun other d hd => .inl ⟨d, hd, .of_requests rfl rfl rfl⟩⟩
  | @enters config wireOpen =>
    refine ⟨Nat.le_succ _, fun other d hd => ?_⟩
    change (t.entered config wireOpen).connection other = some d at hd
    rw [connection_entered] at hd
    split at hd
    · cases hd
      exact .inr (Nat.le_of_eq (t.newcomer_id config wireOpen).symm)
    · exact .inl ⟨d, hd, .of_requests rfl rfl rfl⟩

/-- **A connection continues what stood before, unless its number is new.** -/
theorem Steps.continues (h : Steps named t t') : t.Continues t' := by
  induction h with
  | refl => exact .refl _
  | tail _ hstep ih => exact ih.trans hstep.continues

end LanguageClient.Turn
