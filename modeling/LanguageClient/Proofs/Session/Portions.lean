import LanguageClient.Proofs.Session.Confinement
import LanguageClient.Proofs.Session.Lasting
import LanguageClient.Proofs.Session.Mirror
import LanguageClient.Proofs.Session.Transparency

/-!
# Output in two pieces

All that is asked in some output is answered before any message in it is acted on, so output in two
pieces comes to what it comes to at once but for the order of what is written (`Turn.splits`):
acting on a message does not see what a connection hears with, which can as well be changed
afterwards (`Turn.stdout_eq`). Answers to what is asked in the second piece are missing if the first
made the connection end.
-/

namespace LanguageClient.Turn

variable {named : Path → Prop} {t : Turn} {c d : Connection} {id : ConnectionId}
  {bytes more : Bytes}

/-- A turn in which other things were done. -/
def withEffects (t : Turn) (effects : List Effect) : Turn := { t with effects := effects }

/-! ## What output comes to -/

/-- What is written in answer to what a server asks in some output. -/
def replies (t : Turn) (id : ConnectionId) (bytes : Bytes) : List Json :=
  match Registry.findById t.session.connections id with
  | none => []
  | some c => (c.receive bytes).1.replies

/-- What would be written in answer to what a server asks after some output, as long as it is
heard. -/
def repliesAfter (t : Turn) (id : ConnectionId) (bytes more : Bytes) : List Json :=
  match Registry.findById t.session.connections id with
  | none => []
  | some c => ((c.receive bytes).2.receive more).1.replies

/-- A turn in which the messages in some output of a server were acted on, and nothing else. -/
def handled (t : Turn) (c : Connection) (bytes : Bytes) : Turn :=
  t.onInbounds c.identity c.id (c.receive bytes).1.inbound

/-- What is done when the messages in some output of a server are acted on. -/
def acted (t : Turn) (id : ConnectionId) (bytes : Bytes) : List Effect :=
  match Registry.findById t.session.connections id with
  | none => []
  | some c => added t (t.handled c bytes)

theorem findById_of_connection (h : t.Coherent named) (hc : t.connection c.identity = some c) :
    Registry.findById t.session.connections c.id = some c := by
  cases hfind : Registry.findById t.session.connections c.id with
  | none =>
    have hnone := List.find?_eq_none.1 hfind c (Table.mem_values_iff.2 ⟨c.identity, hc⟩)
    simp at hnone
  | some d =>
    obtain ⟨hd, hid⟩ := connection_of_findById h hfind
    have hidentity := h.distinct d.identity c.identity d c hd hc hid
    rw [hidentity, hc] at hd
    rw [hd]

theorem findById_eq_none (h : ∀ identity d, t.connection identity = some d → d.id ≠ id) :
    Registry.findById t.session.connections id = none := by
  refine List.find?_eq_none.2 fun d hd => ?_
  obtain ⟨identity, hd⟩ := Table.mem_values_iff.1 hd
  simpa using h identity d hd

/-- What was done before makes no difference to what is done about messages. -/
theorem onInbounds_withEffects (t : Turn) (effects : List Effect) (identity : String)
    (id : ConnectionId) (items : List Inbound) :
    (t.withEffects effects).onInbounds identity id items =
      (t.onInbounds identity id items).withEffects
        (effects ++ added t (t.onInbounds identity id items)) := by
  have hbefore : ∀ before : List Effect, (t.withEffects before).onInbounds identity id items =
      ((t.withEffects []).onInbounds identity id items).preface before := by
    intro before
    have hsame : t.withEffects before = (t.withEffects []).preface before := by
      simp [withEffects, preface]
    rw [hsame]
    exact ((unseen_preface before).onInbounds _ identity id items).symm
  have hself : t.onInbounds identity id items =
      ((t.withEffects []).onInbounds identity id items).preface t.effects := hbefore t.effects
  have hadded : added t (t.onInbounds identity id items) =
      ((t.withEffects []).onInbounds identity id items).effects :=
    added_of_effects_eq (congrArg Turn.effects hself)
  rw [hbefore effects, hadded, hself]
  rfl

theorem effects_onInbounds (t : Turn) (identity : String) (id : ConnectionId)
    (items : List Inbound) : t.effects <+: (t.onInbounds identity id items).effects := by
  have hconfined : Confined (fun _ => True) identity t (t.onInbounds identity id items) :=
    confined_onInbounds trivial fun _ _ _ _ => trivial
  obtain ⟨more, hmore, -⟩ := hconfined.effects
  exact ⟨more, hmore.symm⟩

theorem onInbounds_of_gone {identity : String} (hgone : t.connection identity = none)
    (id : ConnectionId) (items : List Inbound) : t.onInbounds identity id items = t := by
  cases items with
  | nil => rfl
  | cons item items => simp only [onInbounds, hgone]

/-! ## Another intake -/

theorem withIntake_of_gone {identity : String} (hgone : t.connection identity = none)
    (framer : Framer) (requests : PendingTable) : t.withIntake identity framer requests = t := by
  have hfound : t.session.connections.get? identity = none := hgone
  rw [withIntake, Table.modify, hfound]

theorem withIntake_withIntake (t : Turn) (identity : String) (framer framer' : Framer)
    (requests requests' : PendingTable) :
    (t.withIntake identity framer requests).withIntake identity framer' requests' =
      t.withIntake identity framer' requests' := by
  have htable := t.session.connections.modify_modify identity (·.withIntake framer requests)
    (·.withIntake framer' requests')
  exact congrArg (fun cs => { t with session := { t.session with connections := cs } }) htable

theorem withIntake_withEffects (t : Turn) (effects : List Effect) (identity : String)
    (framer : Framer) (requests : PendingTable) :
    (t.withEffects effects).withIntake identity framer requests =
      (t.withIntake identity framer requests).withEffects effects :=
  rfl

theorem withEffects_withEffects (t : Turn) (effects effects' : List Effect) :
    (t.withEffects effects).withEffects effects' = t.withEffects effects' :=
  rfl

/-- To keep a connection with another intake is to change its intake. -/
theorem keep_withIntake (hc : t.connection c.identity = some c) (framer : Framer)
    (requests : PendingTable) :
    t.keep c.identity (c.withIntake framer requests) =
      t.withIntake c.identity framer requests := by
  have htable : t.session.connections.modify c.identity (·.withIntake framer requests) =
      t.session.connections.set c.identity (c.withIntake framer requests) := by
    have hfound : t.session.connections.get? c.identity = some c := hc
    rw [Table.modify, hfound]
  rw [keep, withIntake, htable]

/-- A turn in which a connection has the intake of another. -/
def lending (t : Turn) (identity : String) (c : Connection) : Turn :=
  t.withIntake identity c.framer c.requests

/-- **Output is acted on as if nothing had been received yet**: the intake can be changed
afterwards.
-/
theorem stdout_eq (h : t.Coherent named) (hc : t.connection c.identity = some c) (bytes : Bytes) :
    t.stdout c.id bytes = ((t.handled c bytes).lending c.identity (c.receive bytes).2).withEffects
      (t.effects ++ (t.replies c.id bytes).map (.write c.id) ++ t.acted c.id bytes) := by
  have hfind := findById_of_connection h hc
  have hsame : (c.receive bytes).2 =
      c.withIntake (c.receive bytes).2.framer (c.receive bytes).2.requests := by
    rw [c.framer_receive]
    exact c.receive_snd bytes
  have hheard : t.advance c.identity (c.receive bytes).2 (c.receive bytes).1.replies =
      (t.withEffects (t.effects ++ (t.replies c.id bytes).map (.write c.id))).lending c.identity
        (c.receive bytes).2 := by
    have hid : (c.receive bytes).2.id = c.id := (c.continues_receive bytes).id
    rw [advance, hid, hsame, keep_withIntake hc, replies, hfind]
    rfl
  have hunseen := unseen_withIntake c.identity (c.receive bytes).2.framer
    (c.receive bytes).2.requests
  have hacted : t.acted c.id bytes = added t (t.handled c bytes) := by
    rw [acted, hfind]
  rw [stdout_eq_hearing hfind rfl, hearing, hheard]
  change onInbounds (withIntake _ _ _ _) _ _ (c.receive bytes).1.inbound = _
  rw [← hunseen.onInbounds, onInbounds_withEffects, hacted]
  rfl

theorem stdout_of_findById_eq_none (hfind : Registry.findById t.session.connections id = none)
    (bytes : Bytes) : t.stdout id bytes = t := by
  simp only [stdout, hfind]

theorem acted_of_findById_eq_none (hfind : Registry.findById t.session.connections id = none)
    (bytes : Bytes) : t.acted id bytes = [] := by
  simp only [acted, hfind]

theorem effects_stdout (h : t.Coherent named) (id : ConnectionId) (bytes : Bytes) :
    (t.stdout id bytes).effects =
      t.effects ++ (t.replies id bytes).map (.write id) ++ t.acted id bytes := by
  cases hfind : Registry.findById t.session.connections id with
  | none => simp [stdout_of_findById_eq_none hfind, replies, acted, hfind]
  | some c =>
    obtain ⟨hc, rfl⟩ := connection_of_findById h hfind
    rw [stdout_eq h hc]
    rfl

/-! ## Two pieces -/

/-- A launch that is gone was not started again under its number. -/
theorem findById_stdout_of_gone (h : t.Coherent named) (hc : t.connection c.identity = some c)
    (hgone : (t.handled c bytes).connection c.identity = none) :
    Registry.findById (t.stdout c.id bytes).session.connections c.id = none := by
  have hcontinues : t.Continues (t.stdout c.id bytes) := (steps_stdout h c.id bytes).continues
  refine findById_eq_none fun identity d hd hid => ?_
  rcases hcontinues.connections identity d hd with ⟨d', hd', hbefore⟩ | hle
  · have hidentity := h.distinct identity c.identity d' c hd' hc (hbefore.id.symm.trans hid)
    rw [hidentity, stdout_eq h hc, lending, withIntake_of_gone hgone] at hd
    exact absurd (hgone.symm.trans hd) (by simp)
  · rw [hid] at hle
    exact absurd (h.fresh c.identity c hc) (Nat.not_lt_of_le hle)

/-- A launch that is still there hears on as if nothing had been acted on. -/
theorem findById_stdout_of_connection (h : t.Regular named)
    (hc : t.connection c.identity = some c)
    (hd : (t.handled c bytes).connection c.identity = some d) :
    ∃ d', d'.identity = c.identity ∧ d'.id = c.id ∧
      (t.stdout c.id bytes).connection c.identity = some d' ∧
      Connection.HearsAs (c.receive bytes).2 d' := by
  obtain ⟨c', hc', hid, hconfig, hwire⟩ := remains_onInbounds t c.identity c.id _ d hd
  obtain rfl := Option.some.inj (hc.symm.trans hc')
  have hafter : (t.stdout c.id bytes).Regular named :=
    (steps_stdout h.coherent c.id bytes).regular h
  have hstands : (t.stdout c.id bytes).connection c.identity =
      some (d.withIntake (c.receive bytes).2.framer (c.receive bytes).2.requests) := by
    have hlent := connection_withIntake (t.handled c bytes) c.identity (c.receive bytes).2.framer
      (c.receive bytes).2.requests c.identity
    rw [if_pos rfl, hd] at hlent
    rw [stdout_eq h.coherent hc]
    exact hlent
  refine ⟨d.withIntake (c.receive bytes).2.framer (c.receive bytes).2.requests,
    congrArg ServerConfig.identity hconfig, hid, hstands, rfl, rfl, ?_, ?_⟩
  · rw [(c.continues_receive bytes).config]
    exact hconfig.symm
  · have hrunning := h.aligned.running c.identity c hc
    have hstill := hafter.aligned.running c.identity _ hstands
    change d.state ≠ _ at hstill
    change _ = d.accepts
    simp [Connection.accepts, c.state_receive, c.wireOpen_receive, hrunning, hstill, hwire]

/-- The messages of a second piece are acted on as if the first had just been acted on. -/
theorem handled_stdout (h : t.Coherent named) (hc : t.connection c.identity = some c)
    (hidentity : d.identity = c.identity) (hid : d.id = c.id)
    (hreceived : ((c.receive bytes).2.receive more).1 = (d.receive more).1) :
    (t.stdout c.id bytes).handled d more =
      (((t.handled c bytes).onInbounds c.identity c.id
        ((c.receive bytes).2.receive more).1.inbound).lending c.identity
          (c.receive bytes).2).withEffects ((t.stdout c.id bytes).effects ++
            added (t.handled c bytes) ((t.handled c bytes).onInbounds c.identity c.id
              ((c.receive bytes).2.receive more).1.inbound)) := by
  have hfirst : t.stdout c.id bytes = ((t.handled c bytes).lending c.identity
      (c.receive bytes).2).withEffects (t.stdout c.id bytes).effects := by
    rw [effects_stdout h]
    exact stdout_eq h hc bytes
  have hlent := (unseen_withIntake c.identity (c.receive bytes).2.framer
    (c.receive bytes).2.requests).onInbounds (t.handled c bytes) c.identity c.id
      ((c.receive bytes).2.receive more).1.inbound
  have hsecond := onInbounds_withEffects ((t.handled c bytes).lending c.identity
    (c.receive bytes).2) (t.stdout c.id bytes).effects c.identity c.id
      ((c.receive bytes).2.receive more).1.inbound
  rw [handled, hidentity, hid, ← hreceived, hfirst]
  refine hsecond.trans ?_
  rw [lending, ← hlent]
  rfl

/-- Whether output that comes for a launch, if it is there, has only brief header blocks. -/
def Brief (t : Turn) (id : ConnectionId) (bytes : Bytes) : Prop :=
  ∀ c, Registry.findById t.session.connections id = some c →
    Decoder.Brief (c.framer.view.push bytes)

/-- Two pieces of output in a row: what is asked in the second is answered as it would have been at
once, as long as the first leaves the launch there. -/
structure Splits (t : Turn) (id : ConnectionId) (bytes more : Bytes) : Prop where
  turn : (t.stdout id bytes).stdout id more =
    (t.stdout id (bytes ++ more)).withEffects ((t.stdout id bytes).stdout id more).effects
  acted : t.acted id (bytes ++ more) = t.acted id bytes ++ (t.stdout id bytes).acted id more
  whole : t.replies id (bytes ++ more) = t.replies id bytes ++ t.repliesAfter id bytes more
  later : (t.stdout id bytes).replies id more =
    if (Registry.findById (t.stdout id bytes).session.connections id).isSome then
      t.repliesAfter id bytes more
    else []

section

variable (h : t.Steady named) (hc : t.connection c.identity = some c)
  (hbrief : Decoder.Brief (c.framer.view.push (bytes ++ more)))
include h hc hbrief

/-- The messages of two pieces are those of the whole. -/
theorem handled_append : t.handled c (bytes ++ more) =
    (t.handled c bytes).onInbounds c.identity c.id
      ((c.receive bytes).2.receive more).1.inbound := by
  rw [handled, Connection.receive_append (h.settled c.identity c hc) hbrief, onInbounds_append,
    handled]

theorem acted_append : t.acted c.id (bytes ++ more) = t.acted c.id bytes ++
    added (t.handled c bytes) ((t.handled c bytes).onInbounds c.identity c.id
      ((c.receive bytes).2.receive more).1.inbound) := by
  have hfind := findById_of_connection h.coherent hc
  simp only [acted, hfind, handled_append h hc hbrief]
  exact added_trans (effects_onInbounds t c.identity c.id _)
    (effects_onInbounds _ c.identity c.id _)

theorem replies_append : t.replies c.id (bytes ++ more) =
    t.replies c.id bytes ++ t.repliesAfter c.id bytes more := by
  have hfind := findById_of_connection h.coherent hc
  simp only [replies, repliesAfter, hfind,
    Connection.receive_append (h.settled c.identity c hc) hbrief]

theorem lending_append : (t.handled c (bytes ++ more)).lending c.identity
      (c.receive (bytes ++ more)).2 =
    ((t.handled c bytes).onInbounds c.identity c.id
      ((c.receive bytes).2.receive more).1.inbound).lending c.identity
        ((c.receive bytes).2.receive more).2 := by
  rw [handled_append h hc hbrief, Connection.receive_append (h.settled c.identity c hc) hbrief]

theorem splits_of_gone (hgone : (t.handled c bytes).connection c.identity = none) :
    t.Splits c.id bytes more := by
  have hfind := findById_stdout_of_gone h.coherent hc hgone
  have hturn := lending_append h hc hbrief
  have hacted := acted_append h hc hbrief
  rw [onInbounds_of_gone hgone] at hturn hacted
  refine ⟨?_, ?_, replies_append h hc hbrief, ?_⟩
  · rw [stdout_of_findById_eq_none hfind, stdout_eq h.coherent hc (bytes ++ more), hturn,
      stdout_eq h.coherent hc bytes, lending, lending, withIntake_of_gone hgone,
      withIntake_of_gone hgone]
    rfl
  · rw [hacted, added_self, acted_of_findById_eq_none hfind]
  · simp [replies, hfind]

theorem splits_of_connection (hd : (t.handled c bytes).connection c.identity = some d) :
    t.Splits c.id bytes more := by
  obtain ⟨d', hidentity, hid, hstands, hhears⟩ :=
    findById_stdout_of_connection h.toRegular hc hd
  obtain ⟨hreceived, hnext⟩ := Connection.receive_congr hhears more
  have hcoherent := (steps_stdout h.coherent c.id bytes).coherent h.coherent
  rw [← hidentity] at hstands
  have hfind := findById_of_connection hcoherent hstands
  have hrest := handled_stdout h.coherent hc hidentity hid hreceived
  have hacted := acted_append h hc hbrief
  refine ⟨?_, ?_, replies_append h hc hbrief, ?_⟩
  · have hturn := stdout_eq hcoherent hstands more
    rw [hid, hidentity, hrest] at hturn
    rw [hturn, stdout_eq h.coherent hc (bytes ++ more), lending_append h hc hbrief]
    simp only [lending, hnext.framer, hnext.requests, withIntake_withEffects, withIntake_withIntake,
      withEffects_withEffects]
    rfl
  · rw [hid] at hfind
    have hlater : (t.stdout c.id bytes).acted c.id more =
        added (t.stdout c.id bytes) ((t.stdout c.id bytes).handled d' more) := by
      rw [acted, hfind]
    rw [hacted, hlater, added_of_effects_eq (congrArg Turn.effects hrest)]
  · rw [hid] at hfind
    have hbefore := findById_of_connection h.coherent hc
    simp [replies, repliesAfter, hfind, hbefore, ← hreceived]

end

/-- **Output in two pieces comes to the same as at once**, but for the order of what is written. -/
theorem splits (h : t.Steady named) (hbrief : t.Brief id (bytes ++ more)) :
    t.Splits id bytes more := by
  cases hfind : Registry.findById t.session.connections id with
  | none =>
    have hsame := fun bytes => stdout_of_findById_eq_none hfind bytes
    refine ⟨?_, ?_, ?_, ?_⟩
    · simp [hsame, withEffects]
    · simp [hsame, acted, hfind]
    · simp [replies, repliesAfter, hfind]
    · simp [hsame, replies, hfind]
  | some c =>
    obtain ⟨hc, rfl⟩ := connection_of_findById h.coherent hfind
    cases hd : (t.handled c bytes).connection c.identity with
    | none => exact splits_of_gone h hc (hbrief c hfind) hd
    | some d => exact splits_of_connection h hc (hbrief c hfind) hd

end LanguageClient.Turn
