import LanguageClient.Proofs.Session.Delivery
import LanguageClient.Proofs.Session.Display

/-!
# Output of two servers

Unless an answer in it edits a document, output of a server changes only what the session knows of
that server (`Turn.aside_stdout`), and it comes to the same whatever is known of the others
(`Turn.Alike.handled`). Output of two servers therefore comes to the same session in either order,
with the same messages to each server and the same diagnostics shown last (`Turn.stdout_comm`).
-/

namespace LanguageClient

namespace Turn

variable {named : Path → Prop} {t u : Turn} {c d : Connection} {identity : String}
  {id : ConnectionId} {bytes more : Bytes}

/-- The messages in some output of a server that a session acts on. -/
def heard (t : Turn) (id : ConnectionId) (bytes : Bytes) : List Inbound :=
  match Registry.findById t.session.connections id with
  | none => []
  | some c => (c.receive bytes).1.inbound

/-- Whether some output of a server answers no request to edit a document. -/
def Unediting (t : Turn) (id : ConnectionId) (bytes : Bytes) : Prop :=
  ∀ item ∈ t.heard id bytes, item.formats = false

/-! ## What output changes -/

theorem part_withIntake (t : Turn) (who : String) (framer : Framer) (requests : PendingTable)
    (identity : String) : (t.withIntake who framer requests).part identity =
      if who = identity then
        { t.part identity with
          connection := (t.part identity).connection.map (·.withIntake framer requests) }
      else t.part identity := by
  have hpart : (t.withIntake who framer requests).part identity =
      { t.part identity with
        connection := (t.withIntake who framer requests).connection identity } := rfl
  rw [hpart, connection_withIntake]
  split
  · next heq =>
    subst heq
    rfl
  · rfl

theorem confined_handled (h : t.Coherent named) (hc : t.connection c.identity = some c)
    (hbytes : t.Unediting c.id bytes) :
    Confined (· = c.id) c.identity t (t.handled c bytes) := by
  refine confined_onInbounds ?_ fun item hitem hformats => ?_
  · rfl
  have hheard : item ∈ t.heard c.id bytes := by
    rw [heard, findById_of_connection h hc]
    exact hitem
  rw [hbytes item hheard] at hformats
  cases hformats

theorem aside_handled (h : t.Coherent named) (hc : t.connection c.identity = some c)
    (hbytes : t.Unediting c.id bytes) : Aside c.identity t (t.handled c bytes) :=
  (confined_handled h hc hbytes).aside.resolve_left
    fun hall => absurd (hall (c.id + 1)) (Nat.succ_ne_self c.id)

theorem frames_stdout (h : t.Coherent named) (hc : t.connection c.identity = some c)
    (hbytes : t.Unediting c.id bytes) : t.session.Frames (t.stdout c.id bytes).session := by
  have hhandled := (confined_handled h hc hbytes).frames
  rw [stdout_eq h hc]
  exact hhandled.trans rfl

/-- **Output of a server changes nothing aside from it**, unless a document is edited. -/
theorem aside_stdout (h : t.Coherent named) (hc : t.connection c.identity = some c)
    (hbytes : t.Unediting c.id bytes) : Aside c.identity t (t.stdout c.id bytes) := by
  obtain ⟨hbuffers, hparts⟩ := aside_handled h hc hbytes
  rw [stdout_eq h hc]
  refine ⟨hbuffers, fun other hne => ?_⟩
  have hlent := part_withIntake (t.handled c bytes) c.identity (c.receive bytes).2.framer
    (c.receive bytes).2.requests other
  rw [if_neg hne, hparts other hne] at hlent
  exact hlent

/-! ## What output does not depend on -/

theorem part_amid (t : Turn) (identity : String) (u : Turn) (other : String) :
    (t.amid identity u).part other = if other = identity then t.part other else u.part other := by
  have hpart : (t.amid identity u).part other =
      ⟨(t.amid identity u).connection other,
        (t.session.capabilities.splice u.session.capabilities (· = identity)).get? other,
        fun place =>
          (t.session.diagnostics.amid identity u.session.diagnostics).entries.get? (other, place)⟩ :=
    rfl
  simp only [hpart, connection_amid, Table.get?_splice, DiagnosticStore.get?_amid,
    decide_eq_true_eq]
  split
  · rfl
  · rfl

/-- A turn in which the same is known of a server is one with that server amid others. -/
theorem eq_amid (hframes : t.session.Frames u.session) (hbuffers : u.buffers = t.buffers)
    (hpart : u.part identity = t.part identity) :
    u = (t.amid identity u).withEffects u.effects := by
  have hamid : t.session.Frames (t.amid identity u).session := rfl
  have hsession : u.session = (t.amid identity u).session := by
    refine Session.eq_of_part (hamid.symm.trans hframes) fun other => ?_
    have hother := part_amid t identity u other
    split at hother
    · next heq =>
      rw [heq] at hother ⊢
      exact hpart.trans hother.symm
    · exact hother.symm
  exact congrArg₂ (fun session buffers => Turn.mk session buffers u.effects) hsession hbuffers

/-- Whether two turns are the same for one server: whatever else they know of is other servers. -/
structure Alike (identity : String) (t u : Turn) : Prop where
  frames : t.session.Frames u.session
  buffers : u.buffers = t.buffers
  part : u.part identity = t.part identity

theorem alike_stdout (h : t.Coherent named) (hc : t.connection c.identity = some c)
    (hbytes : t.Unediting c.id bytes) (hne : c.identity ≠ identity) :
    Alike identity t (t.stdout c.id bytes) := by
  obtain ⟨hbuffers, hparts⟩ := aside_stdout h hc hbytes
  exact ⟨frames_stdout h hc hbytes, hbuffers, hparts identity hne⟩

theorem Alike.findById (halike : Alike c.identity t u) (hu : u.Coherent named)
    (hc : t.connection c.identity = some c) :
    Registry.findById u.session.connections c.id = some c := by
  have hconnection : u.connection c.identity = t.connection c.identity :=
    congrArg Part.connection halike.part
  exact findById_of_connection hu (hconnection.trans hc)

/-- **What is done about output of a server does not depend on what is known of others**, unless a
document is edited. -/
theorem Alike.handled (halike : Alike c.identity t u) (h : t.Coherent named)
    (hc : t.connection c.identity = some c) (hbytes : t.Unediting c.id bytes) :
    u.handled c bytes = ((t.handled c bytes).amid c.identity u).withEffects
      (u.effects ++ added t (t.handled c bytes)) := by
  have hamid := eq_amid halike.frames halike.buffers halike.part
  have hitems : ∀ item ∈ (c.receive bytes).1.inbound, item.formats = false := by
    intro item hitem
    have hfind := findById_of_connection h hc
    exact hbytes item (by rw [heard, hfind]; exact hitem)
  have hmoved := (transparent_amid c.identity u).onInbounds t hitems c.id
  calc u.handled c bytes
    _ = ((t.amid c.identity u).withEffects u.effects).handled c bytes :=
      congrArg (·.handled c bytes) hamid
    _ = ((t.amid c.identity u).handled c bytes).withEffects (u.effects ++
          added (t.amid c.identity u) ((t.amid c.identity u).handled c bytes)) :=
      onInbounds_withEffects (t.amid c.identity u) u.effects c.identity c.id _
    _ = ((t.handled c bytes).amid c.identity u).withEffects
          (u.effects ++ added t (t.handled c bytes)) := by
      rw [Turn.handled, ← hmoved]
      rfl

section

variable (h : t.Coherent named) (hu : u.Coherent named) (hc : t.connection c.identity = some c)
  (halike : Alike c.identity t u)
include h hu hc halike

theorem Alike.unediting (hbytes : t.Unediting c.id bytes) : u.Unediting c.id bytes := by
  have hheard : u.heard c.id bytes = t.heard c.id bytes := by
    rw [heard, halike.findById hu hc, heard, findById_of_connection h hc]
  rw [Unediting, hheard]
  exact hbytes

theorem Alike.replies (bytes : Bytes) : u.replies c.id bytes = t.replies c.id bytes := by
  rw [Turn.replies, halike.findById hu hc, Turn.replies, findById_of_connection h hc]

theorem Alike.acted (hbytes : t.Unediting c.id bytes) :
    u.acted c.id bytes = t.acted c.id bytes := by
  have hhandled := halike.handled h hc hbytes
  have hadded : added u (u.handled c bytes) = added t (t.handled c bytes) :=
    added_of_effects_eq (congrArg Turn.effects hhandled)
  rw [Turn.acted, halike.findById hu hc, Turn.acted, findById_of_connection h hc]
  exact hadded

theorem Alike.part_stdout (hbytes : t.Unediting c.id bytes) :
    (u.stdout c.id bytes).part c.identity = (t.stdout c.id bytes).part c.identity := by
  have hconnection : u.connection c.identity = some c :=
    (congrArg Part.connection halike.part).trans hc
  have hself := part_amid (t.handled c bytes) c.identity u c.identity
  rw [if_pos rfl] at hself
  have hlent := fun v : Turn => part_withIntake v c.identity (c.receive bytes).2.framer
    (c.receive bytes).2.requests c.identity
  rw [stdout_eq hu hconnection, stdout_eq h hc, halike.handled h hc hbytes]
  change (withIntake ((t.handled c bytes).amid c.identity u) _ _ _).part c.identity =
    (withIntake (t.handled c bytes) _ _ _).part c.identity
  rw [hlent, hlent, hself]

end

/-! ## Either order -/

/-- What is done about some output of a server. -/
def reaction (t : Turn) (id : ConnectionId) (bytes : Bytes) : List Effect :=
  (t.replies id bytes).map (.write id) ++ t.acted id bytes

section

variable (h : t.Coherent named) (hc : t.connection c.identity = some c)
  (hbytes : t.Unediting c.id bytes)
include h hc hbytes

theorem acted_confined : ∀ e ∈ t.acted c.id bytes, e.Confined (· = c.id) c.identity := by
  obtain ⟨more, hmore, hall⟩ := (confined_handled h hc hbytes).effects
  rw [acted, findById_of_connection h hc]
  change ∀ e ∈ added t (t.handled c bytes), _
  rw [added_of_effects_eq hmore]
  exact hall

theorem messagesTo_reaction (hne : c.id ≠ id) : messagesTo id (t.reaction c.id bytes) = [] := by
  have hacted : messagesTo id (t.acted c.id bytes) = [] := by
    refine List.eq_nil_iff_forall_not_mem.2 fun m hm => ?_
    exact hne (acted_confined h hc hbytes _ (mem_messagesTo.1 hm)).1.symm
  rw [reaction, messagesTo_append, messagesTo_writes, if_neg hne, hacted, List.append_nil]

theorem shown_reaction (view : ViewId) (hne : c.identity ≠ identity) :
    lastOf (·.shown? view identity) (t.reaction c.id bytes) = none := by
  refine lastOf_eq_none fun e he => ?_
  rcases List.mem_append.1 he with he | he
  · exact shown?_writes c.id _ e he
  · have hconfined := acted_confined h hc hbytes e he
    unfold Effect.shown?
    split
    · next other name diagnostics =>
      exact if_neg fun heq => hne (hconfined.symm.trans heq.2)
    · rfl

end

/-- A turn in which output of two servers has come: each is known of as if it had come alone. -/
structure Joint (t : Turn) (c d : Connection) (bytes more : Bytes) (u : Turn) : Prop where
  frames : t.session.Frames u.session
  buffers : u.buffers = t.buffers
  first : u.part c.identity = (t.stdout c.id bytes).part c.identity
  second : u.part d.identity = (t.stdout d.id more).part d.identity
  others : ∀ identity, c.identity ≠ identity → d.identity ≠ identity →
    u.part identity = t.part identity

section

variable (h : t.Coherent named) (hc : t.connection c.identity = some c)
  (hd : t.connection d.identity = some d) (hne : c.identity ≠ d.identity)
  (hbytes : t.Unediting c.id bytes) (hmore : t.Unediting d.id more)
include h hc hd hne hbytes hmore

theorem joint_stdout : Joint t c d bytes more ((t.stdout c.id bytes).stdout d.id more) := by
  have hafter := (steps_stdout h c.id bytes).coherent h
  have halike := alike_stdout h hc hbytes hne
  have hlater := halike.unediting h hafter hd hmore
  have hstands := (connection_of_findById hafter (halike.findById hafter hd)).1
  obtain ⟨hbuffers, hparts⟩ := aside_stdout hafter hstands hlater
  refine ⟨?_, ?_, ?_, ?_, fun identity hfirst hsecond => ?_⟩
  · exact halike.frames.trans (frames_stdout hafter hstands hlater)
  · exact hbuffers.trans halike.buffers
  · exact hparts c.identity hne.symm
  · exact halike.part_stdout h hafter hd hmore
  · exact (hparts identity hsecond).trans (alike_stdout h hc hbytes hfirst).part

theorem effects_stdout_stdout : ((t.stdout c.id bytes).stdout d.id more).effects =
    t.effects ++ (t.reaction c.id bytes ++ t.reaction d.id more) := by
  have hafter := (steps_stdout h c.id bytes).coherent h
  have halike := alike_stdout h hc hbytes hne
  rw [effects_stdout hafter, effects_stdout h, halike.replies h hafter hd,
    halike.acted h hafter hd hmore, reaction, reaction]
  simp only [List.append_assoc]

end

/-- What the two orders come to. -/
theorem effects_comm (h : t.Coherent named) (hc : t.connection c.identity = some c)
    (hd : t.connection d.identity = some d) (hid : c.id ≠ d.id)
    (hidentity : c.identity ≠ d.identity) (hbytes : t.Unediting c.id bytes)
    (hmore : t.Unediting d.id more) :
    (∀ id, messagesTo id (t.reaction c.id bytes ++ t.reaction d.id more) =
        messagesTo id (t.reaction d.id more ++ t.reaction c.id bytes)) ∧
      ∀ view identity, lastOf (·.shown? view identity)
          (t.reaction c.id bytes ++ t.reaction d.id more) =
        lastOf (·.shown? view identity) (t.reaction d.id more ++ t.reaction c.id bytes) := by
  refine ⟨fun id => ?_, fun view identity => ?_⟩
  · -- to each server, only its own output makes the session write
    rw [messagesTo_append, messagesTo_append]
    by_cases hfirst : c.id = id
    · rw [messagesTo_reaction h hd hmore (hfirst ▸ hid.symm), List.append_nil, List.nil_append]
    · rw [messagesTo_reaction h hc hbytes hfirst, List.append_nil, List.nil_append]
  · -- of each server, only its own output makes the session show something
    rw [lastOf_append, lastOf_append]
    by_cases hfirst : c.identity = identity
    · rw [shown_reaction h hd hmore view (hfirst ▸ hidentity.symm), Option.none_or, Option.or_none]
    · rw [shown_reaction h hc hbytes view hfirst, Option.none_or, Option.or_none]

theorem session_comm (h : t.Coherent named) (hc : t.connection c.identity = some c)
    (hd : t.connection d.identity = some d) (hidentity : c.identity ≠ d.identity)
    (hbytes : t.Unediting c.id bytes) (hmore : t.Unediting d.id more) :
    ((t.stdout c.id bytes).stdout d.id more).session =
        ((t.stdout d.id more).stdout c.id bytes).session ∧
      ((t.stdout c.id bytes).stdout d.id more).buffers =
        ((t.stdout d.id more).stdout c.id bytes).buffers := by
  have hjoint := joint_stdout h hc hd hidentity hbytes hmore
  have hjoint' := joint_stdout h hd hc hidentity.symm hmore hbytes
  refine ⟨Session.eq_of_part (hjoint'.frames.symm.trans hjoint.frames) fun identity => ?_,
    hjoint.buffers.trans hjoint'.buffers.symm⟩
  change part _ identity = part _ identity
  by_cases hfirst : c.identity = identity
  · rw [← hfirst, hjoint.first, hjoint'.second]
  · by_cases hsecond : d.identity = identity
    · rw [← hsecond, hjoint.second, hjoint'.first]
    · rw [hjoint.others identity hfirst hsecond, hjoint'.others identity hsecond hfirst]

/-- **Output of two servers may come in either order**, unless it makes the session edit a document:
at any time of a run the session and the host's buffers come out the same, with the same messages to
each server in the same order and with the same diagnostics of each server shown last in each
view. -/
theorem stdout_comm (ht : t.Reached) {id' : ConnectionId}
    (hfind : Registry.findById t.session.connections id = some c)
    (hfind' : Registry.findById t.session.connections id' = some d) (hne : id ≠ id')
    (hbytes : t.Unediting id bytes) (hmore : t.Unediting id' more) :
    let u := (t.stdout id bytes).stdout id' more
    let u' := (t.stdout id' more).stdout id bytes
    u.session = u'.session ∧ u.buffers = u'.buffers ∧
      (∀ other, u.writtenTo other = u'.writtenTo other) ∧
      ∀ view identity, lastOf (·.shown? view identity) (added t u) =
        lastOf (·.shown? view identity) (added t u') := by
  have h := ht.steady.coherent
  obtain ⟨hc, rfl⟩ := connection_of_findById h hfind
  obtain ⟨hd, rfl⟩ := connection_of_findById h hfind'
  have hidentity : c.identity ≠ d.identity := fun heq => hne <| by
    rw [heq] at hc
    rw [Option.some.inj (hc.symm.trans hd)]
  have heffects := effects_stdout_stdout h hc hd hidentity hbytes hmore
  have heffects' := effects_stdout_stdout h hd hc hidentity.symm hmore hbytes
  obtain ⟨hsession, hbuffers⟩ := session_comm h hc hd hidentity hbytes hmore
  obtain ⟨hmessages, hshown⟩ := effects_comm h hc hd hne hidentity hbytes hmore
  refine ⟨hsession, hbuffers, fun other => ?_, fun view identity => ?_⟩
  · rw [writtenTo_of_effects heffects, writtenTo_of_effects heffects', hmessages]
  · rw [added_of_effects_eq heffects, added_of_effects_eq heffects', hshown]

end Turn

namespace Sample

/-- Another server is launched while the first one has the document open. -/
def joined : List Move := opening ++ [.event launch (.action (.start (.command none "r" [])))]

end Sample

namespace Turn

/-- One server complains of the document while the other answers the handshake. -/
theorem stdout_comm_joined :
    let t := Sample.start.run Sample.joined
    let u := (t.stdout 1 (Frame.encode Sample.complaint)).stdout 2 Sample.greeting
    let u' := (t.stdout 2 Sample.greeting).stdout 1 (Frame.encode Sample.complaint)
    u.session = u'.session ∧ u.writtenTo 2 = u'.writtenTo 2 ∧
      (lastOf (·.shown? 1 "s") (added t u)).map List.length = some 1 ∧
      lastOf (·.shown? 1 "s") (added t u) = lastOf (·.shown? 1 "s") (added t u') := by
  intro t u u'
  have ht : t.Reached := reached_sample Sample.joined
  have hrun : (Registry.findById t.session.connections 1).isSome = true ∧
      (Registry.findById t.session.connections 2).isSome = true ∧
      (t.heard 1 (Frame.encode Sample.complaint)).all (!·.formats) = true ∧
      (t.heard 2 Sample.greeting).all (!·.formats) = true ∧
      (lastOf (·.shown? 1 "s") (added t u)).map List.length = some 1 := by decide +kernel
  obtain ⟨hfirst, hsecond, hbytes, hmore, hshown⟩ := hrun
  obtain ⟨c, hc⟩ := Option.isSome_iff_exists.1 hfirst
  obtain ⟨d, hd⟩ := Option.isSome_iff_exists.1 hsecond
  obtain ⟨hsession, -, hwritten, hlast⟩ := stdout_comm ht hc hd (by decide)
    (by simpa [Unediting] using hbytes) (by simpa [Unediting] using hmore)
  exact ⟨hsession, hwritten 2, hshown, hlast 1 "s"⟩

end Turn
end LanguageClient
