import LanguageClient.Proofs.Connection.Conversation
import LanguageClient.Proofs.Session.Deed

/-!
# The order of what servers are told

What a session sends to a server keeps to the order of the protocol at every moment of a run
(`Turn.ordered_of_launched`): the handshake is the first message and the only one until it is
answered, the rest of the greeting follows at once, then documents are spoken of, and the farewell is
the end. The host is told once at most that a server is connected, after its handshake was answered.

The invariant (`Turn.Converses`) says of each launch how far its conversation has come, and more of
the connections that stand: a pending one whose wire is open has sent its handshake and nothing else,
and an active one has not said farewell. Messages about documents go to active connections alone, so
that these two facts carry it from deed to deed.
-/

namespace LanguageClient

open Conversation (Line OfDocument lines handshake greeting farewell Stage Ordered)

namespace Effect

/-- The launch of a server under a name, if an effect is one. -/
def launchAs? (identity : String) : Effect → Option ConnectionId
  | launch id config => if config.identity = identity then some id else none
  | _ => none

/-- The name of the server that the host is told is connected. -/
def connected? : Effect → Option String
  | tell (.connected identity _) => some identity
  | _ => none

/-- Whether an effect neither launches a server nor tells the host that one is connected. -/
def Plain : Effect → Prop
  | launch _ _ => False
  | tell (.connected _ _) => False
  | _ => True

theorem Plain.connected? {e : Effect} (h : e.Plain) : e.connected? = none := by
  unfold Effect.connected?
  split
  · exact h.elim
  · rfl

theorem Plain.launchAs? {e : Effect} (h : e.Plain) (identity : String) :
    e.launchAs? identity = none := by
  cases e with
  | launch id config => exact h.elim
  | _ => rfl

end Effect

namespace Turn

/-- The launch that the name of a server stands for after some effects, which is the last one. -/
def launchOf (identity : String) (effects : List Effect) : Option ConnectionId :=
  lastOf (·.launchAs? identity) effects

/-- The launches that the host is told are connected in the course of some effects, each found by the
name that the host is told. -/
def welcomed (earlier : List Effect) : List Effect → List (Option ConnectionId)
  | [] => []
  | e :: rest =>
    (e.connected?.map (launchOf · earlier)).toList ++ welcomed (earlier ++ [e]) rest

/-- What holds of the conversation with a server whose connection stands. -/
structure Standing (answered : ConnectionId → Prop) (t : Turn) (identity : String)
    (c : Connection) : Prop where
  launched : .launch c.id c.config ∈ t.effects
  last : launchOf identity t.effects = some c.id
  pending : c.state = .pending → some c.id ∉ welcomed [] t.effects ∧
    (c.wireOpen = true → lines (t.writtenTo c.id) = [handshake])
  active : c.isActive = true → answered c.id ∧ ∃ body, (∀ line ∈ body, OfDocument line) ∧
    lines (t.writtenTo c.id) = greeting c.config ++ body

/-- Whether launches are told apart by numbers below the next one. -/
structure Numbers (t : Turn) : Prop where
  below : ∀ id config, .launch id config ∈ t.effects → id < t.session.nextConnection
  single : ∀ id config config', .launch id config ∈ t.effects → .launch id config' ∈ t.effects →
    config = config'

/-- Whether the servers that the host is told are connected have answered, and it is told of each
once. -/
structure Welcomes (answered : ConnectionId → Prop) (t : Turn) : Prop where
  answers : ∀ launch ∈ welcomed [] t.effects, ∃ id, launch = some id ∧ answered id ∧
    id < t.session.nextConnection
  nodup : (welcomed [] t.effects).Nodup

/-- What holds of the conversations of a session with all servers that it ever launched. -/
structure Converses (answered : ConnectionId → Prop) (t : Turn) : Prop where
  numbers : t.Numbers
  welcomes : t.Welcomes answered
  standing : ∀ identity c, t.connection identity = some c → t.Standing answered identity c
  stages : ∀ id config, .launch id config ∈ t.effects →
    Stage config (answered id) (lines (t.writtenTo id))

variable {named : Path → Prop} {answered answered' : ConnectionId → Prop} {mo : Moment}
  {t t' : Turn} {identity : String} {c : Connection} {effects more : List Effect}
  {id : ConnectionId} {config : ServerConfig} {ms : List Moment}

/-! ## Effects that neither launch nor greet -/

theorem mem_launch_append (hmore : ∀ e ∈ more, e.Plain) :
    .launch id config ∈ effects ++ more ↔ .launch id config ∈ effects := by
  rw [List.mem_append, or_iff_left]
  exact fun hmem => hmore _ hmem

theorem launchOf_append (hmore : ∀ e ∈ more, e.launchAs? identity = none) :
    launchOf identity (effects ++ more) = launchOf identity effects := by
  rw [launchOf, lastOf_append, lastOf_eq_none hmore, Option.none_or, launchOf]

/-- Names stand for the same launches when only plain things follow. -/
theorem launchOf_append_plain (hmore : ∀ e ∈ more, e.Plain) (identity : String) :
    launchOf identity (effects ++ more) = launchOf identity effects :=
  launchOf_append fun e he => (hmore e he).launchAs? identity

theorem launchOf_launch (id : ConnectionId) (config : ServerConfig) (identity : String) :
    launchOf identity (effects ++ [.launch id config]) =
      if config.identity = identity then some id else launchOf identity effects := by
  rw [launchOf, lastOf_append, lastOf_singleton, Effect.launchAs?]
  by_cases heq : config.identity = identity
  · rw [if_pos heq, if_pos heq, Option.some_or]
  · rw [if_neg heq, if_neg heq, Option.none_or, launchOf]

theorem welcomed_append (earlier effects more : List Effect) :
    welcomed earlier (effects ++ more) =
      welcomed earlier effects ++ welcomed (earlier ++ effects) more := by
  induction effects generalizing earlier with
  | nil => rw [List.nil_append, List.append_nil, welcomed, List.nil_append]
  | cons e effects ih =>
    rw [List.cons_append, welcomed, ih, welcomed, List.append_assoc, List.append_assoc,
      List.singleton_append]

theorem welcomed_of_plain (hmore : ∀ e ∈ more, e.Plain) (earlier : List Effect) :
    welcomed earlier more = [] := by
  induction more generalizing earlier with
  | nil => rfl
  | cons e more ih =>
    rw [welcomed, (hmore e List.mem_cons_self).connected?,
      ih fun e he => hmore e (List.mem_cons_of_mem _ he)]
    rfl

/-- The host is told of no more servers when only plain things follow. -/
theorem welcomed_append_plain (hmore : ∀ e ∈ more, e.Plain) :
    welcomed [] (effects ++ more) = welcomed [] effects := by
  rw [welcomed_append, welcomed_of_plain hmore, List.append_nil]

/-! ## What keeps conversations in order -/

theorem Numbers.mono (h : t.Numbers)
    (hnext : t.session.nextConnection ≤ t'.session.nextConnection)
    (hlaunches : ∀ id config, .launch id config ∈ t'.effects → .launch id config ∈ t.effects) :
    t'.Numbers := by
  constructor
  case below =>
    intro id config hlaunch
    exact Nat.lt_of_lt_of_le (h.below id config (hlaunches id config hlaunch)) hnext
  case single =>
    intro id config config' hlaunch hlaunch'
    exact h.single id config config' (hlaunches id config hlaunch) (hlaunches id config' hlaunch')

theorem Welcomes.mono (h : t.Welcomes answered) (hanswered : ∀ id, answered id → answered' id)
    (hnext : t.session.nextConnection ≤ t'.session.nextConnection)
    (hwelcomed : welcomed [] t'.effects = welcomed [] t.effects) : t'.Welcomes answered' := by
  constructor
  case answers =>
    intro launch hlaunch
    rw [hwelcomed] at hlaunch
    obtain ⟨id, hid, hanswer, hlt⟩ := h.answers launch hlaunch
    exact ⟨id, hid, hanswered id hanswer, Nat.lt_of_lt_of_le hlt hnext⟩
  case nodup =>
    rw [hwelcomed]
    exact h.nodup

theorem Standing.mono (h : t.Standing answered identity c)
    (hanswered : ∀ id, answered id → answered' id) : t.Standing answered' identity c := by
  refine ⟨h.launched, h.last, h.pending, fun hactive => ?_⟩
  obtain ⟨hanswer, hbody⟩ := h.active hactive
  exact ⟨hanswered _ hanswer, hbody⟩

theorem Converses.mono (h : t.Converses answered) (hanswered : ∀ id, answered id → answered' id) :
    t.Converses answered' := by
  constructor
  case numbers => exact h.numbers
  case welcomes => exact h.welcomes.mono hanswered (Nat.le_refl _) rfl
  case standing =>
    intro identity c hc
    exact (h.standing identity c hc).mono hanswered
  case stages =>
    intro id config hlaunch
    exact (h.stages id config hlaunch).mono (hanswered id)

/-- A server that is not spoken to stands as before while its name stands for the same launch and it
is not welcomed too early. -/
theorem Standing.congr (h : t.Standing answered identity c)
    (heffects : t'.effects = t.effects ++ more)
    (hname : ∀ e ∈ more, e.launchAs? identity = none)
    (hunwelcome : c.state = .pending → some c.id ∉ welcomed [] t'.effects)
    (hwritten : t'.writtenTo c.id = t.writtenTo c.id) : t'.Standing answered identity c := by
  constructor
  case launched =>
    rw [heffects]
    exact List.mem_append_left _ h.launched
  case last =>
    rw [heffects, launchOf_append hname]
    exact h.last
  case pending =>
    intro hpending
    rw [hwritten]
    exact ⟨hunwelcome hpending, (h.pending hpending).2⟩
  case active =>
    rw [hwritten]
    exact h.active

/-- A server that is not spoken to stands as before. -/
theorem Standing.keeps (h : t.Standing answered identity c)
    (heffects : t'.effects = t.effects ++ more) (hmore : ∀ e ∈ more, e.Plain)
    (hwritten : t'.writtenTo c.id = t.writtenTo c.id) : t'.Standing answered identity c := by
  refine h.congr heffects (fun e he => (hmore e he).launchAs? identity) (fun hpending => ?_) hwritten
  rw [heffects, welcomed_append_plain hmore]
  exact (h.pending hpending).1

/-- Plain effects keep conversations in order when each of them stays so. -/
theorem Converses.extend (h : t.Converses answered)
    (hnext : t'.session.nextConnection = t.session.nextConnection)
    (heffects : t'.effects = t.effects ++ more) (hmore : ∀ e ∈ more, e.Plain)
    (hstanding : ∀ identity c, t'.connection identity = some c → t'.Standing answered identity c)
    (hstages : ∀ id config, .launch id config ∈ t.effects →
      Stage config (answered id) (lines (t'.writtenTo id))) : t'.Converses answered := by
  have hlaunches : ∀ id config, .launch id config ∈ t'.effects → .launch id config ∈ t.effects := by
    intro id config hlaunch
    rw [heffects] at hlaunch
    exact (mem_launch_append hmore).1 hlaunch
  constructor
  case numbers => exact h.numbers.mono (Nat.le_of_eq hnext.symm) hlaunches
  case welcomes =>
    refine h.welcomes.mono (fun _ hanswer => hanswer) (Nat.le_of_eq hnext.symm) ?_
    rw [heffects, welcomed_append_plain hmore]
  case standing => exact hstanding
  case stages =>
    intro id config hlaunch
    exact hstages id config (hlaunches id config hlaunch)

/-- **An effect that leaves wires and connections alone keeps conversations in order** while launches
stay numbered and welcomes answered: it may neither take the name of a server that stands nor welcome
one that is pending, and what it launches was not spoken to before. -/
theorem Converses.emits {e : Effect} (h : t.Converses answered)
    (hconnection : t'.connection = t.connection) (heffects : t'.effects = t.effects ++ [e])
    (hwrite : ∀ id message, e ≠ .write id message) (hnumbers : t'.Numbers)
    (hwelcomes : t'.Welcomes answered)
    (hname : ∀ identity c, t.connection identity = some c → e.launchAs? identity = none)
    (hunwelcome : ∀ identity c, t.connection identity = some c → c.state = .pending →
      some c.id ∉ welcomed [] t'.effects)
    (hnew : ∀ id config, e = .launch id config → t.writtenTo id = []) : t'.Converses answered := by
  have hwritten : ∀ id, t'.writtenTo id = t.writtenTo id := by
    intro id
    have hnothing : messagesTo id [e] = [] := by
      refine List.eq_nil_iff_forall_not_mem.2 fun message hmem => ?_
      exact hwrite id message (List.mem_singleton.1 (mem_messagesTo.1 hmem)).symm
    rw [writtenTo_of_effects heffects, hnothing, List.append_nil]
  constructor
  case numbers => exact hnumbers
  case welcomes => exact hwelcomes
  case standing =>
    intro identity c hc
    rw [hconnection] at hc
    refine (h.standing identity c hc).congr heffects (fun e' he' => ?_)
      (hunwelcome identity c hc) (hwritten c.id)
    rw [List.mem_singleton.1 he']
    exact hname identity c hc
  case stages =>
    intro id config hlaunch
    rw [hwritten]
    rw [heffects] at hlaunch
    rcases List.mem_append.1 hlaunch with hlaunch | hlaunch
    · exact h.stages id config hlaunch
    · rw [hnew id config (List.mem_singleton.1 hlaunch).symm]
      exact .starts List.nil_prefix

/-- Nothing that matters has changed. -/
theorem Converses.congr (h : t.Converses answered) (hconnection : t'.connection = t.connection)
    (hnext : t'.session.nextConnection = t.session.nextConnection)
    (heffects : t'.effects = t.effects) : t'.Converses answered := by
  have hmore : t'.effects = t.effects ++ [] := heffects.trans (List.append_nil _).symm
  have hwritten : ∀ id, t'.writtenTo id = t.writtenTo id := by
    intro id
    rw [writtenTo_eq, heffects, writtenTo_eq]
  refine h.extend hnext hmore (by simp) (fun identity c hc => ?_) fun id config hlaunch => ?_
  · rw [hconnection] at hc
    exact (h.standing identity c hc).keeps hmore (by simp) (hwritten c.id)
  · rw [hwritten]
    exact h.stages id config hlaunch

/-- What is said to one launch in some effects, as far as it is spoken to: documents are spoken of to
an active server, or one that ends is taken leave of. -/
def Speaks (t t' : Turn) (id : ConnectionId) (said : List Line) : Prop :=
  said = [] ∨ ∃ identity c, t.connection identity = some c ∧ c.isActive = true ∧ c.id = id ∧
    ((∀ line ∈ said, OfDocument line) ∨ (said = farewell ∧ t'.connection identity = none))

/-- A server that stays stands as before when it is spoken to of documents. -/
theorem Standing.goes {c' : Connection} (h : t.Standing answered identity c) (ht : t.Coherent named)
    (hc : t.connection identity = some c) (hc' : t'.connection identity = some c')
    (hstays : c.Stays c') (heffects : t'.effects = t.effects ++ more) (hmore : ∀ e ∈ more, e.Plain)
    (hspeaks : t.Speaks t' c.id (lines (messagesTo c.id more))) :
    t'.Standing answered identity c' := by
  have hlines : lines (t'.writtenTo c.id) =
      lines (t.writtenTo c.id) ++ lines (messagesTo c.id more) := by
    rw [writtenTo_of_effects heffects, Conversation.lines_append]
  refine ⟨?_, ?_, fun hpending => ?_, fun hactive => ?_⟩
  · rw [heffects, mem_launch_append hmore, hstays.id, hstays.config]
    exact h.launched
  · rw [heffects, launchOf_append_plain hmore, hstays.id]
    exact h.last
  · rw [hstays.state] at hpending
    obtain ⟨hunwelcome, hfirst⟩ := h.pending hpending
    rw [heffects, welcomed_append_plain hmore, hstays.id]
    refine ⟨hunwelcome, fun hopen => ?_⟩
    rw [hlines]
    rcases hspeaks with hnothing | ⟨other, d, hd, hactive, hid, -⟩
    · rw [hnothing, List.append_nil]
      exact hfirst (hstays.wireOpen hopen)
    · -- a pending server is not spoken to
      obtain rfl := ht.distinct _ _ _ _ hd hc hid
      obtain rfl := Option.some.inj (hd.symm.trans hc)
      simp [Connection.isActive, hpending] at hactive
  · rw [Connection.isActive, hstays.state] at hactive
    obtain ⟨hanswer, body, hbody, hsaid⟩ := h.active hactive
    rw [hstays.id, hstays.config, hlines, hsaid]
    refine ⟨hanswer, ?_⟩
    rcases hspeaks with hnothing | ⟨other, d, hd, -, hid, hdocuments | ⟨-, hended⟩⟩
    · exact ⟨body, hbody, by rw [hnothing, List.append_nil]⟩
    · refine ⟨body ++ lines (messagesTo c.id more), ?_, List.append_assoc _ _ _⟩
      exact List.forall_mem_append.2 ⟨hbody, hdocuments⟩
    · obtain rfl := ht.distinct _ _ _ _ hd hc hid
      rw [hended] at hc'
      cases hc'

/-- Conversations stay in order while servers stay as they are or end. -/
theorem Converses.goes (h : t.Converses answered) (ht : t.Coherent named)
    (hstood : ∀ identity c', t'.connection identity = some c' →
      ∃ c, t.connection identity = some c ∧ c.Stays c')
    (hnext : t'.session.nextConnection = t.session.nextConnection)
    (heffects : t'.effects = t.effects ++ more) (hmore : ∀ e ∈ more, e.Plain)
    (hspeaks : ∀ id, t.Speaks t' id (lines (messagesTo id more))) : t'.Converses answered := by
  refine h.extend hnext heffects hmore (fun identity c' hc' => ?_) fun id config hlaunch => ?_
  · obtain ⟨c, hc, hstays⟩ := hstood identity c' hc'
    exact (h.standing identity c hc).goes ht hc hc' hstays heffects hmore (hspeaks c.id)
  · rw [writtenTo_of_effects heffects, Conversation.lines_append]
    rcases hspeaks id with hnothing | ⟨identity, c, hc, hactive, rfl, hsaid⟩
    · rw [hnothing, List.append_nil]
      exact h.stages id config hlaunch
    · have hstanding := h.standing identity c hc
      obtain ⟨hanswer, body, hbody, hbefore⟩ := hstanding.active hactive
      obtain rfl := h.numbers.single c.id config c.config hlaunch hstanding.launched
      rw [hbefore]
      rcases hsaid with hdocuments | ⟨hfarewell, -⟩
      · rw [List.append_assoc]
        exact .goesOn hanswer (List.forall_mem_append.2 ⟨hbody, hdocuments⟩)
      · rw [hfarewell]
        exact .ends hanswer hbody

/-- The host is told of the launch that the name stands for. -/
theorem welcomed_tell (info : Option ServerInfo) (hlast : launchOf identity t.effects = some id) :
    welcomed [] (t.tell (.connected identity info)).effects = welcomed [] t.effects ++ [some id] := by
  rw [← hlast]
  exact welcomed_append [] t.effects [.tell (.connected identity info)]

/-! ## Deeds -/

theorem plain_tell {cb : Callback} (h : ∀ identity info, cb ≠ .connected identity info) :
    (Effect.tell cb).Plain := by
  unfold Effect.Plain
  split
  · next heq => cases heq
  · next heq =>
    cases heq
    exact absurd rfl (h _ _)
  · trivial

theorem plain_tells {α : Type} {l : List α} {f : α → Callback}
    (h : ∀ a identity info, f a ≠ .connected identity info) :
    ∀ e ∈ l.map (fun a => Effect.tell (f a)), e.Plain := by
  intro e he
  obtain ⟨a, -, rfl⟩ := List.mem_map.1 he
  exact plain_tell (h a)

theorem plain_writes (id : ConnectionId) (messages : List Json) :
    ∀ e ∈ messages.map (Effect.write id), e.Plain := by
  intro e he
  obtain ⟨m, -, rfl⟩ := List.mem_map.1 he
  trivial

theorem Usual.plain {spelled : Path → Prop} {e : Effect} (h : Usual spelled t e) : e.Plain := by
  cases h with
  | remarks plain =>
    refine plain_tell ?_
    rintro identity info rfl
    exact plain
  | replaces | halts | replies | speaks => trivial

/-- In a routine documents are spoken of to active servers. -/
theorem Routine.speaks {spelled : Path → Prop} (hmore : ∀ e ∈ more, Usual spelled t e)
    (id : ConnectionId) : t.Speaks t' id (lines (messagesTo id more)) := by
  have husual : ∀ line ∈ lines (messagesTo id more), OfDocument line ∧
      ∃ identity c, t.connection identity = some c ∧ c.isActive = true ∧ c.id = id := by
    intro line hline
    obtain ⟨m, hm, hkind⟩ := List.mem_filterMap.1 hline
    cases hmore _ (mem_messagesTo.1 hm) with
    | replies id r =>
      rw [Conversation.line?_response] at hkind
      cases hkind
    | speaks hc active spells about =>
      obtain ⟨line', hkind', hdocument⟩ := about.line
      obtain rfl := Option.some.inj (hkind.symm.trans hkind')
      exact ⟨hdocument, _, _, hc, active, rfl⟩
  cases hsaid : lines (messagesTo id more) with
  | nil => exact .inl rfl
  | cons line rest =>
    rw [← hsaid]
    have hfirst : line ∈ lines (messagesTo id more) := by
      rw [hsaid]
      exact List.mem_cons_self
    obtain ⟨-, identity, c, hc, hactive, hid⟩ := husual line hfirst
    exact .inr ⟨identity, c, hc, hactive, hid, .inl fun line hline => (husual line hline).1⟩

/-- What the host alone is told is said to no server. -/
theorem messagesTo_tells {α : Type} (id : ConnectionId) (l : List α) (f : α → Callback) :
    messagesTo id (l.map fun a => .tell (f a)) = [] := by
  refine List.filterMap_eq_nil_iff.2 fun e he => ?_
  obtain ⟨a, -, rfl⟩ := List.mem_map.1 he
  rfl

/-- Conversations stay as they are while views alone are shown something. -/
theorem Converses.shows {α : Type} {l : List α} {f : α → ViewId × String × List RenderedDiagnostic}
    (h : t.Converses answered) (ht : t.Coherent named) (hconnection : t'.connection = t.connection)
    (hnext : t'.session.nextConnection = t.session.nextConnection)
    (heffects : t'.effects = t.effects ++
      l.map fun a => .tell (.setDiagnostics (f a).1 (f a).2.1 (f a).2.2)) :
    t'.Converses answered := by
  refine h.goes ht (fun identity c' hc' => ?_) hnext heffects (plain_tells fun _ _ _ => by simp)
    fun id => .inl ?_
  · rw [hconnection] at hc'
    exact ⟨c', hc', .refl c'⟩
  · rw [messagesTo_tells]
    rfl

/-- A server that ends may be taken leave of. -/
theorem Converses.ends {messages : List Json} (h : t.Converses answered) (ht : t.Coherent named)
    (hc : t.connection identity = some c) (hmessages : messages = [] ∨ messages = c.shutdown.1) :
    ((t.write c.id messages).teardown identity).Converses answered := by
  have hconnection : ∀ other, ((t.write c.id messages).teardown identity).connection other =
      if identity = other then none else t.connection other :=
    connection_teardown (t.write c.id messages) identity
  have hwritten : (t.write c.id messages).connection identity = some c := hc
  rw [teardown_eq hwritten] at hconnection ⊢
  refine h.goes ht (fun other d hd => ?_) rfl (List.append_assoc _ _ _) ?_ fun id => ?_
  · rw [hconnection] at hd
    split at hd
    · cases hd
    · exact ⟨d, hd, .refl d⟩
  · refine List.forall_mem_append.2 ⟨plain_writes c.id messages, ?_⟩
    refine List.forall_mem_cons.2 ⟨trivial, plain_tells fun view identity info => ?_⟩
    simp
  · have hsaid : messagesTo id (messages.map (.write c.id) ++ .retire c.id ::
        ((t.write c.id messages).showing identity).map fun view =>
          .tell (.setDiagnostics view identity [])) = if c.id = id then messages else [] := by
      rw [messagesTo_append, messagesTo_writes, ← List.singleton_append, messagesTo_append,
        messagesTo_tells]
      exact List.append_nil _
    rw [hsaid]
    split
    · next hid =>
      rcases hmessages with rfl | rfl
      · exact .inl rfl
      · rcases Conversation.lines_shutdown c with hnothing | ⟨hactive, hfarewell⟩
        · exact .inl hnothing
        · exact .inr ⟨identity, c, hc, hactive, hid, .inr ⟨hfarewell, by simp [hconnection]⟩⟩
    · exact .inl rfl

/-- Nothing was written to a server before it is launched. -/
theorem writtenTo_nextConnection (ht : t.Coherent named) :
    t.writtenTo t.session.nextConnection = [] := by
  refine List.filterMap_eq_nil_iff.2 fun m hm => ?_
  rw [if_neg (Nat.ne_of_lt (ht.written m hm))]

theorem writtenTo_launching (t : Turn) (config : ServerConfig) :
    (t.launching config).writtenTo = t.writtenTo := by
  funext id
  rw [writtenTo, written_launching, writtenTo]

theorem welcomed_launching (t : Turn) (config : ServerConfig) :
    welcomed [] (t.launching config).effects = welcomed [] t.effects :=
  (welcomed_append [] t.effects [.launch t.session.nextConnection config]).trans (List.append_nil _)

/-- A launch takes the next number. -/
theorem Numbers.launching (h : t.Numbers) (config : ServerConfig) :
    (t.launching config).Numbers := by
  have hlaunches : ∀ id config', .launch id config' ∈ (t.launching config).effects →
      .launch id config' ∈ t.effects ∨ (id = t.session.nextConnection ∧ config' = config) := by
    intro id config' hlaunch
    rcases List.mem_append.1 hlaunch with hlaunch | hlaunch
    · exact .inl hlaunch
    · cases List.mem_singleton.1 hlaunch
      exact .inr ⟨rfl, rfl⟩
  constructor
  case below =>
    intro id config' hlaunch
    rcases hlaunches id config' hlaunch with hlaunch | ⟨rfl, -⟩
    · exact Nat.lt_succ_of_lt (h.below id config' hlaunch)
    · exact Nat.lt_succ_self _
  case single =>
    intro id first second hfirst hsecond
    rcases hlaunches id first hfirst with hfirst | ⟨rfl, rfl⟩
    · rcases hlaunches id second hsecond with hsecond | ⟨rfl, -⟩
      · exact h.single id first second hfirst hsecond
      · exact absurd (h.below _ first hfirst) (Nat.lt_irrefl _)
    · rcases hlaunches _ second hsecond with hsecond | ⟨-, rfl⟩
      · exact absurd (h.below _ second hsecond) (Nat.lt_irrefl _)
      · rfl

/-- A server is launched under a name that is free. -/
theorem Converses.launching (h : t.Converses answered) (ht : t.Regular named)
    (free : Registry.ensureAvailable t.session.connections config.identity = .ok ()) :
    (t.launching config).Converses answered := by
  have hnone : t.connection config.identity = none := Session.get?_of_ensureAvailable ht.aligned free
  have hwelcomed := t.welcomed_launching config
  refine h.emits (e := .launch t.session.nextConnection config) rfl rfl (fun _ _ => nofun)
    (h.numbers.launching config) ?_ ?_ ?_ ?_
  · exact h.welcomes.mono (fun _ hanswer => hanswer) (Nat.le_succ _) hwelcomed
  · intro identity c hc
    refine if_neg ?_
    rintro rfl
    rw [hnone] at hc
    cases hc
  · intro identity c hc hpending
    rw [hwelcomed]
    exact ((h.standing identity c hc).pending hpending).1
  · intro id config' hlaunch
    cases hlaunch
    exact writtenTo_nextConnection ht.coherent

/-- The handshake is all that is written to a server that is entered, if its wire takes it. -/
theorem lines_writtenTo_entered (ht : t.Coherent named) (config : ServerConfig) (wireOpen : Bool) :
    lines ((t.entered config wireOpen).writtenTo t.session.nextConnection) =
      if wireOpen then [handshake] else [] := by
  have hwritten := written_entered t config wireOpen
  rw [newcomer_id] at hwritten
  rw [writtenTo_of_written_eq_self hwritten, writtenTo_nextConnection ht, List.nil_append]
  exact Conversation.lines_handshake (.new t.session.nextConnection config wireOpen) _ _

/-- A server that is entered is pending. -/
theorem standing_newcomer (h : t.Converses answered) (ht : t.Coherent named) (config : ServerConfig)
    (wireOpen : Bool) : (t.entered config wireOpen).Standing answered config.identity
      (t.newcomer config wireOpen).2 := by
  have hplain := plain_writes (t.newcomer config wireOpen).2.id
    ((t.newcomer config wireOpen).1.toOption.map (·.2)).toList
  have hid := t.newcomer_id config wireOpen
  have hnewcomer := t.newcomer_snd config wireOpen
  have hconfig : (t.newcomer config wireOpen).2.config = config := by rw [hnewcomer]; rfl
  have hstate : (t.newcomer config wireOpen).2.state = .pending := by rw [hnewcomer]; rfl
  have hwire : (t.newcomer config wireOpen).2.wireOpen = wireOpen := by rw [hnewcomer]; rfl
  refine ⟨?_, ?_, fun _ => ⟨?_, fun hopen => ?_⟩, fun hactive => ?_⟩
  · rw [hid, hconfig]
    exact (mem_launch_append hplain).2 (List.mem_append_right _ (List.mem_singleton_self _))
  · rw [hid]
    refine (launchOf_append_plain hplain config.identity).trans ?_
    exact (launchOf_launch t.session.nextConnection config config.identity).trans (if_pos rfl)
  · have hwelcomed : welcomed [] (t.entered config wireOpen).effects = welcomed [] t.effects :=
      (welcomed_append_plain hplain).trans (t.welcomed_launching config)
    rw [hid, hwelcomed]
    intro hwelcome
    obtain ⟨id, heq, -, hlt⟩ := h.welcomes.answers _ hwelcome
    rw [← Option.some.inj heq] at hlt
    exact Nat.lt_irrefl _ hlt
  · rw [hwire] at hopen
    rw [hid, lines_writtenTo_entered ht, if_pos hopen]
  · simp [Connection.isActive, hstate] at hactive

/-- A server is entered under a name that is free, and others are not spoken to. -/
theorem Converses.entered (h : t.Converses answered) (ht : t.Regular named) (wireOpen : Bool)
    (free : Registry.ensureAvailable t.session.connections config.identity = .ok ()) :
    (t.entered config wireOpen).Converses answered := by
  have hlaunched := h.launching ht free
  have hwritten := written_entered t config wireOpen
  have hplain := plain_writes (t.newcomer config wireOpen).2.id
    ((t.newcomer config wireOpen).1.toOption.map (·.2)).toList
  rw [newcomer_id] at hwritten
  have hothers : ∀ id, t.session.nextConnection ≠ id →
      (t.entered config wireOpen).writtenTo id = (t.launching config).writtenTo id := by
    intro id hne
    rw [writtenTo_of_written_eq_of_ne hwritten hne, writtenTo_launching]
  refine hlaunched.extend rfl rfl hplain (fun identity c hc => ?_) fun id config' hlaunch => ?_
  · rw [connection_entered] at hc
    split at hc
    · next hidentity =>
      subst hidentity
      obtain rfl := Option.some.inj hc
      exact standing_newcomer h ht.coherent config wireOpen
    · have hne : t.session.nextConnection ≠ c.id := Nat.ne_of_gt (ht.coherent.fresh identity c hc)
      exact (hlaunched.standing identity c hc).keeps rfl hplain (hothers _ hne)
  · by_cases hne : t.session.nextConnection = id
    · subst hne
      rw [lines_writtenTo_entered ht.coherent]
      refine .starts ?_
      split
      · exact List.prefix_rfl
      · exact List.nil_prefix
    · rw [hothers id hne]
      exact hlaunched.stages id config' hlaunch

/-- The conversation with a server goes on when its handshake is answered. -/
theorem Converses.activated {capabilities : ServerCapabilities} (h : t.Converses answered)
    (ht : t.Coherent named) (hc : t.connection identity = some c) (hpending : c.state = .pending)
    (hwire : c.wireOpen = true) (hanswer : answered c.id) :
    (t.activated identity c capabilities).Converses answered := by
  obtain ⟨launched, last, pending, -⟩ := h.standing identity c hc
  let t' := t.activated identity c capabilities
  have heffects : t'.effects = t.effects ++ c.greetings.map (.write c.id) := rfl
  have hplain := plain_writes c.id c.greetings
  have hwritten : ∀ id, t'.writtenTo id =
      t.writtenTo id ++ if c.id = id then c.greetings else [] := by
    intro id
    rw [writtenTo_of_effects heffects, messagesTo_writes]
  have hself : lines (t'.writtenTo c.id) = greeting c.config := by
    rw [hwritten, if_pos rfl, Conversation.lines_append, (pending hpending).2 hwire]
    exact Conversation.lines_greetings c
  have hother : ∀ id, c.id ≠ id → t'.writtenTo id = t.writtenTo id := by
    intro id hne
    rw [hwritten, if_neg hne, List.append_nil]
  refine h.extend rfl heffects hplain (fun other d hd => ?_) fun id config hlaunch => ?_
  · rw [connection_activated] at hd
    split at hd
    · next hidentity =>
      subst hidentity
      obtain rfl := Option.some.inj hd
      have hlaunch : .launch c.id c.config ∈ t'.effects := (mem_launch_append hplain).2 launched
      refine ⟨hlaunch, ?_, fun hstate => ?_, fun _ => ?_⟩
      · exact (launchOf_append_plain hplain identity).trans last
      · cases hstate
      · exact ⟨hanswer, [], by simp, hself.trans (List.append_nil _).symm⟩
    · next hidentity =>
      have hne : c.id ≠ d.id := fun hid => hidentity (ht.distinct _ _ _ _ hc hd hid)
      exact (h.standing other d hd).keeps heffects hplain (hother d.id hne)
  · change Stage config (answered id) (lines (t'.writtenTo id))
    by_cases hid : c.id = id
    · subst hid
      obtain rfl := h.numbers.single c.id config c.config hlaunch launched
      rw [hself, ← List.append_nil (greeting c.config)]
      exact .goesOn hanswer (by simp)
    · rw [hother id hid]
      exact h.stages id config hlaunch

/-- The host is told of a server that has answered, for the first time. -/
theorem Welcomes.tell {info : Option ServerInfo} (h : t.Welcomes answered)
    (hlast : launchOf identity t.effects = some id) (hanswer : answered id)
    (hlt : id < t.session.nextConnection) (hunwelcome : some id ∉ welcomed [] t.effects) :
    (t.tell (.connected identity info)).Welcomes answered := by
  have hwelcomed := t.welcomed_tell info hlast
  constructor
  case answers =>
    intro launch hlaunch
    rw [hwelcomed] at hlaunch
    rcases List.mem_append.1 hlaunch with hlaunch | hlaunch
    · exact h.answers launch hlaunch
    · exact ⟨id, List.mem_singleton.1 hlaunch, hanswer, hlt⟩
  case nodup =>
    rw [hwelcomed]
    refine List.nodup_append.2 ⟨h.nodup, List.pairwise_singleton _ _, ?_⟩
    rintro launch hlaunch _ hmem rfl
    obtain rfl := List.mem_singleton.1 hmem
    exact hunwelcome hlaunch

/-- The host is told of a server that is active, for the first time. -/
theorem Converses.welcome {info : Option ServerInfo} (h : t.Converses answered)
    (ht : t.Coherent named) (hc : t.connection identity = some c) (hactive : c.isActive = true)
    (hunwelcome : some c.id ∉ welcomed [] t.effects) :
    (t.tell (.connected identity info)).Converses answered := by
  have hstanding := h.standing identity c hc
  refine h.emits (e := .tell (.connected identity info)) rfl rfl (fun _ _ => nofun) ?_ ?_
    (fun _ _ _ => rfl) ?_ (fun _ _ => nofun)
  · refine h.numbers.mono (Nat.le_refl _) fun id config hlaunch => ?_
    rcases List.mem_append.1 hlaunch with hlaunch | hlaunch
    · exact hlaunch
    · cases List.mem_singleton.1 hlaunch
  · exact h.welcomes.tell hstanding.last (hstanding.active hactive).1 (ht.fresh identity c hc)
      hunwelcome
  · intro other d hd hpending hmem
    rw [welcomed_tell info hstanding.last] at hmem
    rcases List.mem_append.1 hmem with hmem | hmem
    · exact ((h.standing other d hd).pending hpending).1 hmem
    · -- the active server is no pending one
      have hid := Option.some.inj (List.mem_singleton.1 hmem)
      obtain rfl := ht.distinct _ _ _ _ hd hc hid
      obtain rfl := Option.some.inj (hd.symm.trans hc)
      simp [Connection.isActive, hpending] at hactive

theorem Deed.converses (hdeed : Deed named mo t t') (ht : t.Regular named)
    (hanswered : ∀ id, mo.Answers id → answered id) (h : t.Converses answered) :
    t'.Converses answered := by
  cases hdeed with
  | routine hroutine regular =>
    obtain ⟨more, heffects, hmore⟩ := hroutine.effects
    exact h.goes ht.coherent hroutine.stood hroutine.nextConnection heffects
      (fun e he => (hmore e he).plain) fun id => Routine.speaks hmore id
  | @publishes identity p hmo =>
    cases haccepts : t.accepts identity p with
    | true =>
      rw [published_of_accepts haccepts]
      exact h.shows (f := fun view => (view, identity, _)) ht.coherent rfl rfl rfl
    | false =>
      rw [published_of_not_accepts haccepts]
      exact h
  | binds | unbinds => exact h.congr rfl rfl rfl
  | shows => exact h.shows (l := [(_, _, _)]) (f := id) ht.coherent rfl rfl rfl
  | launches free => exact h.launching ht free
  | @enters config wireOpen free => exact (h.entered ht wireOpen free).congr rfl rfl rfl
  | @greets identity c request result capabilities info hmo hc pending owed wire method read =>
    have hanswer : mo.Answers c.id := by
      rw [hmo]
      exact .intro hc method read
    have hactivated : (t.activated identity c capabilities).Converses answered :=
      h.activated ht.coherent hc pending wire (hanswered _ hanswer)
    have hregular : (t.activated identity c capabilities).Regular named :=
      Steps.regular (.single (.activates hc pending owed wire)) ht
    have hactive : (t.activated identity c capabilities).connection identity =
        some { c with state := .active } :=
      (connection_activated t identity c capabilities identity).trans (if_pos rfl)
    refine hactivated.welcome hregular.coherent hactive rfl ?_
    have hunwelcome := ((h.standing identity c hc).pending pending).1
    rwa [← welcomed_append_plain (plain_writes c.id c.greetings)] at hunwelcome
  | ends hc hmessages => exact h.ends ht.coherent hc hmessages

/-! ## Runs -/

/-- **Every moment keeps conversations in order.** -/
theorem Converses.after (h : mo.before.Converses answered) (ht : mo.before.Regular named)
    (hmo : mo.Occurs named) (hanswered : ∀ id, mo.Answers id → answered id) :
    mo.after.Converses answered :=
  (deeds_of_occurs ht hmo).induction ht
    (fun _ _ hu hdeed hbefore => hdeed.converses hu hanswered hbefore) h

theorem Leads.converses (h : Leads named t ms t') (ht : t.Regular named)
    (hstart : t.Converses fun _ => False) :
    t'.Converses fun id => ∃ mo ∈ ms, mo.Answers id := by
  induction h with
  | start => exact hstart.mono fun id hfalse => hfalse.elim
  | @next ms mo prior occurs ih =>
    have hbefore : mo.before.Converses fun id => ∃ mo' ∈ ms ++ [mo], mo'.Answers id := by
      refine ih.mono fun id hanswer => ?_
      obtain ⟨mo', hmo', hanswers⟩ := hanswer
      exact ⟨mo', List.mem_append_left _ hmo', hanswers⟩
    refine hbefore.after (prior.regular ht) occurs fun id hanswers => ?_
    exact ⟨mo, List.mem_append_right _ (List.mem_singleton_self mo), hanswers⟩

/-- A new session has launched no server. -/
theorem converses_new (root : Path) (settings : Settings) (processId : Nat) (catalog : Catalog)
    (buffers : Buffers) : Converses answered ⟨.new root settings processId catalog, buffers, []⟩ := by
  constructor
  case numbers => exact ⟨fun _ _ => nofun, fun _ _ _ => nofun⟩
  case welcomes => exact ⟨fun _ => nofun, List.nodup_nil⟩
  case standing =>
    intro identity c hc
    cases hc
  case stages =>
    intro id config hlaunch
    cases hlaunch

/-- **Every server that was ever launched is spoken to in the order of the protocol**, at every moment
of a run, and the host is told that it is connected once at most and after its handshake was
answered. -/
theorem ordered_of_launched (root : Path) (settings : Settings) (processId : Nat)
    (catalog : Catalog) (buffers : Buffers) (moves : List Move) (ms : List Moment)
    (hms : ms <+: course ⟨.new root settings processId catalog, buffers, []⟩ moves)
    (id : ConnectionId) (config : ServerConfig)
    (hlaunch : .launch id config ∈
      (reached ⟨.new root settings processId catalog, buffers, []⟩ ms).effects) :
    let t := reached ⟨.new root settings processId catalog, buffers, []⟩ ms
    Ordered config (∃ mo ∈ ms, mo.Answers id) (lines (t.writtenTo id)) ∧
      (welcomed [] t.effects).Nodup ∧
      ∀ launch ∈ welcomed [] t.effects, ∃ id, launch = some id ∧ ∃ mo ∈ ms, mo.Answers id := by
  intro t
  have hconverses := (leads_reached hms).converses
    (regular_new root settings processId catalog buffers)
    (converses_new root settings processId catalog buffers)
  refine ⟨(hconverses.stages id config hlaunch).ordered, hconverses.welcomes.nodup,
    fun launch hwelcome => ?_⟩
  obtain ⟨id, hid, hanswer, -⟩ := hconverses.welcomes.answers launch hwelcome
  exact ⟨id, hid, hanswer⟩

end Turn

namespace Sample

/-- The small run opens its document, and then its server is stopped. -/
def parting : List Move := opening ++ [.event launch (.action (.stop "s"))]

theorem launched_parting :
    ∃ config, .launch 1 config ∈ (start.reached (start.course parting)).effects := by
  have hlaunch : ((start.reached (start.course parting)).effects.any fun
      | .launch id _ => id = 1
      | _ => false) = true := by
    decide +kernel
  obtain ⟨e, he, hid⟩ := List.any_eq_true.1 hlaunch
  cases e with
  | launch id config =>
    obtain rfl : id = 1 := by simpa using hid
    exact ⟨config, he⟩
  | _ => cases hid

end Sample

namespace Turn

theorem ordered_of_launched_parting : ∃ config,
    Sample.start.course Sample.parting <+: Sample.start.course Sample.parting ∧
      let t := Sample.start.reached (Sample.start.course Sample.parting)
      .launch 1 config ∈ t.effects ∧
        Ordered config (∃ mo ∈ Sample.start.course Sample.parting, mo.Answers 1)
          (lines (t.writtenTo 1)) ∧
        (welcomed [] t.effects).Nodup ∧
        ∀ launch ∈ welcomed [] t.effects, ∃ id, launch = some id ∧
          ∃ mo ∈ Sample.start.course Sample.parting, mo.Answers id := by
  obtain ⟨config, hlaunch⟩ := Sample.launched_parting
  exact ⟨config, List.prefix_rfl, hlaunch,
    ordered_of_launched _ _ _ _ _ Sample.parting _ List.prefix_rfl 1 config hlaunch⟩

/-- The server of the small run is greeted, told of the document and taken leave of. -/
example : lines ((Sample.start.run Sample.parting).writtenTo 1) =
    [("initialize", true), ("initialized", false), ("textDocument/didOpen", false),
      ("shutdown", true), ("exit", false)] := by
  decide +kernel

end Turn
end LanguageClient
