import LanguageClient.Proofs.Session.Course
import LanguageClient.Proofs.Connection.Intake

/-!
# What connections keep for good

A property of single connections that newcomers have, and that a connection keeps whatever it does
and hears, is one of all connections of every turn of a run (`Connection.Lasting.move`). Two are
used later: between events a decoder is settled, and a connection whose handshake is not answered
waits for nothing else (`Turn.Steady`).
-/

namespace LanguageClient

/-- Whether newcomers have a property and every connection that has it keeps it. -/
structure Connection.Lasting (named : Path → Prop) (P : Connection → Prop) : Prop where
  newcomer : ∀ (t : Turn) config wireOpen, P (t.newcomer config wireOpen).2
  acts : ∀ {c c' : Connection} {text quiet messages}, c.Sound named →
    c.Acts named text quiet messages c' → P c → P c'
  hears : ∀ (c : Connection) (bytes : Bytes), P c → P (c.receive bytes).2
  activates : ∀ c : Connection, P c → P { c with state := .active }
  documents : ∀ (c : Connection) (documents : DocumentTable), P c → P { c with documents := documents }
  cut : ∀ c : Connection, P c → P { c with wireOpen := false }

namespace Turn

variable {P : Connection → Prop} {t : Turn} {c : Connection}

/-- Whether all connections have a property. -/
def All (P : Connection → Prop) (t : Turn) : Prop :=
  ∀ identity c, t.connection identity = some c → P c

theorem All.advance (h : t.All P) (hc : P c) (identity : String) (messages : List Json) :
    (t.advance identity c messages).All P := by
  intro other d hd
  rcases connection_advance_cases hd with ⟨-, rfl⟩ | ⟨-, hd⟩
  · exact hc
  · exact h other d hd

theorem All.ended (h : t.All P) (identity : String) (c : Connection) :
    (t.ended identity c).All P := by
  intro other d hd
  rw [connection_ended] at hd
  split at hd
  · cases hd
  · exact h other d hd

end Turn

namespace Connection.Lasting

open Turn

variable {named : Path → Prop} {P : Connection → Prop} {t t' : Turn} (hP : Lasting named P)
include hP

theorem syncChanges (h : t.All P) (path : Path) (changes : List ContentChange) :
    (t.syncChanges path changes).All P := by
  refine List.foldlRecOn (motive := Turn.All P) _ _ h fun u hu identity _ => ?_
  rcases syncChangesTo_cases u path changes identity with ⟨heq, -⟩ |
    ⟨c, wanted, n, documents, hc, -, -, -, heq⟩
  · rw [heq]
    exact hu
  · rw [heq]
    exact hu.advance (hP.documents c documents (hu identity c hc)) identity _

theorem work (hwork : Work named t t') (ht : t.Coherent named) (h : t.All P) : t'.All P := by
  cases hwork with
  | tells | halts | focuses | binds | unbinds | publishes | forgets | logs | saves => exact h
  | acts hc hacts => exact h.advance (hP.acts (ht.sound _ _ hc) hacts (h _ _ hc)) _ _
  | ends => exact h.ended _ _
  | resyncs => exact hP.syncChanges h _ _
  | @rewrites path b text cursor =>
    exact hP.syncChanges (t := t.replaceDocument path text cursor) h path [.full text]

theorem step (hstep : Step named t t') (ht : t.Coherent named) (h : t.All P) : t'.All P := by
  cases hstep with
  | works hwork => exact hP.work hwork ht h
  | hears hc => exact h.advance (hP.hears _ _ (h _ _ hc)) _ _
  | @activates identity c capabilities hc =>
    have hadvance : (t.advance identity { c with state := .active } c.greetings).All P :=
      h.advance (hP.activates c (h identity c hc)) identity _
    exact hadvance
  | launches => exact h
  | @enters config wireOpen =>
    have hentered : (t.entered config wireOpen).All P :=
      All.advance (t := t.launching config) h (hP.newcomer t config wireOpen) _ _
    exact hentered

theorem steps (hsteps : Steps named t t') (ht : t.Coherent named) (h : t.All P) : t'.All P := by
  induction hsteps with
  | refl => exact h
  | tail hbefore hstep ih => exact hP.step hstep (Steps.coherent hbefore ht) ih

theorem move (h : t.All P) (ht : t.Coherent named) {m : Move} (hm : m.Names named) :
    (t.move m).All P := by
  rcases move_cases ht hm with ⟨buffers, path, changes, -, heq⟩ | ⟨buffers, heq⟩ | hsteps |
    ⟨c, hc, heq⟩
  · rw [heq]
    exact hP.syncChanges (t := { t with buffers := buffers }) h path changes
  · rw [heq]
    exact h
  · exact hP.steps hsteps ht h
  · rw [heq]
    exact h.advance (hP.cut c (h c.identity c hc)) c.identity _

end Connection.Lasting

/-! ## Decoders between events -/

theorem Connection.lasting_settled (named : Path → Prop) :
    Lasting named fun c => c.framer.Settled where
  newcomer t config wireOpen := by
    rw [t.newcomer_snd]
    exact Framer.settled_empty
  acts _ hacts h := by
    cases hacts with
    | opens | closes => exact h
    | asks =>
      rw [sendRequest_snd]
      exact h
    | parts =>
      rw [shutdown_same]
      exact h
  hears c bytes h := by
    rw [framer_receive]
    exact Framer.settled_feed h.valid bytes
  activates _ h := h
  documents _ _ h := h
  cut _ h := h

/-! ## Connections whose handshake is not answered -/

/-- Whether a connection that is pending waits for the answer to its handshake alone. -/
def Connection.WaitsForHandshake (c : Connection) : Prop :=
  c.state = .pending → ∀ n request, c.requests.requests.get? n = some request →
    request.method = .handshake

theorem Connection.lasting_waitsForHandshake (named : Path → Prop) :
    Lasting named WaitsForHandshake where
  newcomer t config wireOpen := by
    intro _ n request hn
    rcases get?_sendRequest hn with ⟨-, rfl⟩ | hn
    · rfl
    · cases hn
  acts hsound hacts h := by
    intro hstate n request hn
    cases hacts with
    | opens | closes => exact h hstate n request hn
    | @asks path kind settings b name known =>
      -- a pending connection has no document open to be asked about
      rw [sendRequest_snd] at hstate
      obtain ⟨document, hdocument⟩ := Option.isSome_iff_exists.1 known
      have hactive := hsound.isActive_of_get? hdocument
      rw [isActive, hstate] at hactive
      cases hactive
    | @parts =>
      rw [shutdown_same] at hstate
      rw [shutdown_snd, isActive, hstate] at hn
      exact h hstate n request hn
  hears c bytes h := by
    intro hstate n request hn
    rw [state_receive] at hstate
    exact h hstate n request ((receives_receive c bytes).resolves.get?_of_get? hn)
  activates _ _ hstate := by cases hstate
  documents _ _ h := h
  cut _ h := h

namespace Turn

variable {named : Path → Prop} {t : Turn}

/-- What holds of every turn of a run between two moves. -/
structure Steady (named : Path → Prop) (t : Turn) : Prop extends Regular named t where
  settled : t.All fun c => c.framer.Settled
  waiting : t.All Connection.WaitsForHandshake

theorem Steady.move (h : t.Steady named) {m : Move} (hm : m.Names named) :
    (t.move m).Steady named :=
  ⟨h.toRegular.move hm, (Connection.lasting_settled named).move h.settled h.coherent hm,
    (Connection.lasting_waitsForHandshake named).move h.waiting h.coherent hm⟩

theorem Steady.run (h : t.Steady named) {moves : List Move}
    (hmoves : ∀ m ∈ moves, m.Names named) : (t.run moves).Steady named :=
  List.foldlRecOn moves Turn.move h fun _ hu m hm => hu.move (hmoves m hm)

theorem steady_new (root : Path) (settings : Settings) (processId : Nat) (catalog : Catalog)
    (buffers : Buffers) : Steady named ⟨.new root settings processId catalog, buffers, []⟩ where
  toRegular := regular_new root settings processId catalog buffers
  settled _ _ hc := by cases hc
  waiting _ _ hc := by cases hc

/-- Whether a turn is reached by a run of a new session. -/
def Reached (t : Turn) : Prop :=
  ∃ root settings processId catalog buffers moves,
    t = run ⟨.new root settings processId catalog, buffers, []⟩ moves

/-- **Every turn of a run of a new session is steady.** -/
theorem Reached.steady (h : t.Reached) : t.Steady fun _ => True := by
  obtain ⟨root, settings, processId, catalog, buffers, moves, rfl⟩ := h
  exact (steady_new root settings processId catalog buffers).run fun m _ => names_true m

theorem reached_sample (moves : List Move) : (Sample.start.run moves).Reached :=
  ⟨_, _, _, _, _, moves, rfl⟩

end Turn
end LanguageClient
