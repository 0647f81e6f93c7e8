import LanguageClient.Proofs.Session.Continuity
import LanguageClient.Proofs.Session.Operations

/-!
# Reactions as chains of steps

A session reacts to every event in steps (`steps_react`). The one delicate event is output of a
server: the messages in it are acted on one after another, and a server may only be activated by the
one answer to the handshake that it was sent. `Turn.Awaits` says what is known of the messages that
still wait, and every message that is acted on keeps it.
-/

namespace LanguageClient

/-- The document that an action speaks of. -/
def Action.path? : Action → Option Path
  | viewOpened _ path => some path
  | edited path _ => some path
  | saved path => some path
  | resync path => some path
  | request _ path => some path
  | lineDiagnostics path _ => some path
  | _ => none

/-- Whether the documents that an event speaks of were named. What a server says is not asked. -/
def Event.Names (named : Path → Prop) : Event → Prop
  | action a => ∀ path, a.path? = some path → named path
  | _ => True

/-- Whether an event tells of an edit, which comes after the host's buffer has changed. -/
def Event.isEdit : Event → Bool
  | action (.edited _ _) => true
  | _ => false

/-- Whether an event lets a server speak or starts one. -/
def Event.bringsUp : Event → Bool
  | stdout _ _ => true
  | action (.start _) => true
  | _ => false

namespace Turn

variable {named : Path → Prop} {t t' : Turn} {identity : String} {c : Connection}

/-! ## The handshake -/

/-- A connection that ends is not missed in what it had become since it was kept. -/
theorem teardown_keep (c' : Connection) (hc : t.connection identity = some c) (hid : c'.id = c.id) :
    (t.keep identity c').teardown identity = t.teardown identity := by
  have hkept : (t.keep identity c').connection identity = some c' := by
    rw [connection_keep, if_pos rfl]
  have herase : (t.session.connections.set identity c').erase identity =
      t.session.connections.erase identity := Table.erase_set _ _ _
  simp only [teardown, hkept, hc, hid]
  simp only [keep, herase]

theorem onHandshake_malformed {result : Json} {e : ResultError}
    (hread : readHandshake result = .error e) : t.onHandshake identity result =
      (t.teardown identity).report (.protocol s!"{identity} initialize: {e.message}") := by
  simp only [onHandshake, hread]

/-- The greetings cannot be written, and the connection ends as if it had never been active. -/
theorem onHandshake_unreachable (hc : t.connection identity = some c) {result : Json}
    {answer : ServerCapabilities × Option ServerInfo} (hread : readHandshake result = .ok answer)
    (hwire : c.wireOpen = false) :
    t.onHandshake identity result = (t.teardown identity).report .notConnected := by
  have hactivate : c.activate = (.error .notConnected, { c with state := .active }) := by
    simp [Connection.activate, Connection.accepts, hwire]
  simp only [onHandshake, hread, hc, hactivate]
  rw [teardown_keep { c with state := .active } hc rfl]

/-- The connection is activated, which the host is told, and the focused document is opened. -/
theorem onHandshake_greeted (hc : t.connection identity = some c) {result : Json}
    {capabilities : ServerCapabilities} {info : Option ServerInfo}
    (hread : readHandshake result = .ok (capabilities, info)) (hwire : c.wireOpen = true) :
    t.onHandshake identity result =
      match t.session.focused.bind t.session.views.pathOf with
      | some path =>
        ((t.activated identity c capabilities).tell (.connected identity info)).openDocument
          identity path
      | none => (t.activated identity c capabilities).tell (.connected identity info) := by
  have hactivate : c.activate = (.ok c.greetings, { c with state := .active }) := by
    simp [Connection.activate, Connection.accepts, Connection.greetings, hwire]
  simp only [onHandshake, hread, hc, hactivate]
  rfl

/-- An answered handshake ends the connection, or activates it, which the host is told, and opens the
focused document. -/
theorem onHandshake_eq (hc : t.connection identity = some c) (result : Json) :
    (∃ f, t.onHandshake identity result = (t.teardown identity).report f) ∨
      c.wireOpen = true ∧ ∃ capabilities info, readHandshake result = .ok (capabilities, info) ∧
        t.onHandshake identity result =
          match t.session.focused.bind t.session.views.pathOf with
          | some path =>
            ((t.activated identity c capabilities).tell (.connected identity info)).openDocument
              identity path
          | none => (t.activated identity c capabilities).tell (.connected identity info) := by
  cases hread : readHandshake result with
  | error e => exact .inl ⟨_, onHandshake_malformed hread⟩
  | ok answer =>
    cases hwire : c.wireOpen with
    | false => exact .inl ⟨_, onHandshake_unreachable hc hread hwire⟩
    | true => exact .inr ⟨rfl, answer.1, answer.2, rfl, onHandshake_greeted hc hread hwire⟩

theorem onHandshake_cases (h : t.Coherent named) (hc : t.connection identity = some c)
    (result : Json) :
    (∃ f, t.onHandshake identity result = (t.teardown identity).report f) ∨
      c.wireOpen = true ∧ ∃ capabilities,
        Works named (t.activated identity c capabilities) (t.onHandshake identity result) := by
  rcases onHandshake_eq hc result with hended | ⟨hwire, capabilities, info, -, heq⟩
  · exact .inl hended
  · refine .inr ⟨hwire, capabilities, ?_⟩
    have htold : Works named (t.activated identity c capabilities)
        ((t.activated identity c capabilities).tell (.connected identity info)) :=
      works_tell _ (by simp)
    rw [heq]
    refine htold.trans ?_
    split
    · next path hpath =>
      obtain ⟨view, -, hview⟩ := Option.bind_eq_some_iff.1 hpath
      exact works_openDocument (h.viewed view path hview) _ identity
    · exact .refl

theorem steps_onHandshake (h : t.Coherent named) (hc : t.connection identity = some c)
    (pending : c.state = .pending) (answered : ∀ n request,
      c.requests.requests.get? n = some request → request.method ≠ .handshake) (result : Json) :
    Steps named t (t.onHandshake identity result) := by
  rcases onHandshake_cases h hc result with ⟨f, heq⟩ | ⟨hwire, capabilities, hworks⟩
  · rw [heq]
    exact Works.steps ((works_teardown t identity).trans (works_report _ f))
  · exact .trans (.single (.activates hc pending answered hwire)) hworks.steps

/-! ## The messages of an output -/

/-- What is known of the messages of one launch while they wait: they answer what was asked about
named documents, and one of them at most the handshake, which the connection then still needs. -/
structure Awaits (named : Path → Prop) (t : Turn) (identity : String) (id : ConnectionId)
    (items : List Inbound) : Prop where
  asked : ∀ request outcome path, .response request outcome ∈ items →
    request.document = some path → named path
  once : items.countP Inbound.answersHandshake ≤ 1
  pending : ∀ item ∈ items, item.answersHandshake = true →
    ∀ c, t.connection identity = some c → c.id = id → c.state = .pending ∧
      ∀ n request, c.requests.requests.get? n = some request → request.method ≠ .handshake

theorem works_of_answersHandshake_eq_false {items : List Inbound} {item : Inbound}
    {id : ConnectionId} (ha : t.Awaits named identity id (item :: items))
    (hitem : item.answersHandshake = false) : Works named t (t.onInbound identity item) := by
  refine works_onInbound hitem fun request outcome heq path hpath => ?_
  refine ha.asked request outcome path ?_ hpath
  rw [heq]
  exact List.mem_cons_self

/-- A message that answers the handshake is an error, which ends the connection, or is acted on as
such. -/
theorem onInbound_of_answersHandshake (t : Turn) (identity : String) {item : Inbound}
    (hitem : item.answersHandshake = true) :
    (∃ f, t.onInbound identity item = (t.teardown identity).report f) ∨
      ∃ result, t.onInbound identity item = t.onHandshake identity result := by
  cases item with
  | response request outcome =>
    have hmethod : request.method = .handshake := by simpa [Inbound.answersHandshake] using hitem
    cases outcome with
    | ok result =>
      refine .inr ⟨result, ?_⟩
      simp only [onInbound, onResult, hmethod]
    | error e =>
      refine .inl ⟨Failure.ofResponse request.method e, ?_⟩
      simp only [onInbound, onError, hmethod]
  | notification n => cases hitem
  | messageRequest m => cases hitem

/-- Acting on the first message of an output. -/
theorem steps_onInbound {items : List Inbound} {item : Inbound} (h : t.Coherent named)
    (hc : t.connection identity = some c) (ha : t.Awaits named identity c.id (item :: items)) :
    Steps named t (t.onInbound identity item) := by
  cases hitem : item.answersHandshake with
  | false => exact (works_of_answersHandshake_eq_false ha hitem).steps
  | true =>
    obtain ⟨pending, answered⟩ := ha.pending item List.mem_cons_self hitem c hc rfl
    rcases onInbound_of_answersHandshake t identity hitem with ⟨f, heq⟩ | ⟨result, heq⟩
    · rw [heq]
      exact Works.steps ((works_teardown t identity).trans (works_report _ f))
    · rw [heq]
      exact steps_onHandshake h hc pending answered result

/-- What is known of the messages behind the first still is once that was acted on. -/
theorem Awaits.tail {items : List Inbound} {item : Inbound} {id : ConnectionId}
    (ha : t.Awaits named identity id (item :: items)) :
    (t.onInbound identity item).Awaits named identity id items := by
  refine ⟨?_, ?_, ?_⟩
  · intro request outcome path hmem hpath
    exact ha.asked request outcome path (List.mem_cons_of_mem _ hmem) hpath
  · have hle := ha.once
    rw [List.countP_cons] at hle
    omega
  · intro other hmem hother c' hc' hid
    have hcount : 0 < items.countP Inbound.answersHandshake :=
      List.countP_pos_iff.2 ⟨other, hmem, hother⟩
    -- the answer still waits, so the message acted on was another one
    have hitem : item.answersHandshake = false := by
      have hle := ha.once
      rw [List.countP_cons] at hle
      cases hitem : item.answersHandshake with
      | false => rfl
      | true =>
        rw [if_pos hitem] at hle
        omega
    obtain ⟨c, hc, hpersists⟩ :=
      (works_of_answersHandshake_eq_false ha hitem).persists identity c' hc'
    obtain ⟨pending, answered⟩ := ha.pending other (List.mem_cons_of_mem _ hmem) hother c hc
      (hpersists.id.symm.trans hid)
    refine ⟨hpersists.state.trans pending, fun n request hn => ?_⟩
    rcases hpersists.pending n request hn with hn | ⟨-, hmethod⟩
    · exact answered n request hn
    · exact hmethod

theorem steps_onInbounds {id : ConnectionId} {items : List Inbound} (h : t.Coherent named)
    (ha : t.Awaits named identity id items) : Steps named t (t.onInbounds identity id items) := by
  induction items generalizing t with
  | nil => exact .refl
  | cons item items ih =>
    rw [onInbounds]
    split
    · exact .refl
    · next c hc =>
      split
      · next hid =>
        have hfirst := steps_onInbound h hc (hid ▸ ha)
        exact hfirst.trans (ih (hfirst.coherent h) ha.tail)
      · exact .refl

theorem connection_of_findById {id : ConnectionId} (h : t.Coherent named)
    (hfind : Registry.findById t.session.connections id = some c) :
    t.connection c.identity = some c ∧ c.id = id := by
  have hmem : c ∈ t.session.connections.values := List.mem_of_find?_eq_some hfind
  obtain ⟨identity, hc⟩ := Table.mem_values_iff.1 hmem
  have hkey : c.identity = identity := h.keyed identity c hc
  refine ⟨?_, by simpa using List.find?_some hfind⟩
  rw [hkey]
  exact hc

/-- What is known of the messages of an output when the first of them is acted on. -/
theorem awaits_receive (hc : c.Sound named) (bytes : Bytes) (messages : List Json) :
    (t.advance identity (c.receive bytes).2 messages).Awaits named identity c.id
      (c.receive bytes).1.inbound := by
  have hresolves : c.requests.Resolves (c.receive bytes).1.inbound (c.receive bytes).2.requests :=
    (Connection.receives_receive c bytes).resolves
  refine ⟨?_, ?_, ?_⟩
  · intro request outcome path hmem hpath
    obtain ⟨n, hn, -⟩ := hresolves.exists_of_mem hmem
    exact hc.asked n request path hn hpath
  · exact hresolves.countP_answersHandshake_le fun n request hn hmethod =>
      (hc.handshake n request hn hmethod).1
  · intro item hmem hitem c' hc' _
    rw [connection_advance, if_pos rfl] at hc'
    obtain rfl := Option.some.inj hc'
    cases item with
    | response request outcome =>
      have hmethod : request.method = .handshake := by simpa [Inbound.answersHandshake] using hitem
      obtain ⟨n, hn, hgone⟩ := hresolves.exists_of_mem hmem
      obtain ⟨rfl, pending⟩ := hc.handshake n request hn hmethod
      refine ⟨(c.state_receive bytes).trans pending, ?_⟩
      intro k other hk hother
      obtain ⟨rfl, -⟩ := hc.handshake k other (hresolves.get?_of_get? hk) hother
      rw [hgone] at hk
      cases hk
    | notification n => cases hitem
    | messageRequest m => cases hitem

theorem Awaits.initial {id : ConnectionId} {items all : List Inbound}
    (h : t.Awaits named identity id all) (hitems : items <+: all) :
    t.Awaits named identity id items := by
  refine ⟨?_, Nat.le_trans hitems.sublist.countP_le h.once, ?_⟩
  · exact fun request outcome path hmem => h.asked request outcome path (hitems.subset hmem)
  · exact fun item hmem => h.pending item (hitems.subset hmem)

/-! ## Output -/

/-- The turn that reacts to output of a server, up to where the first results of it were acted on.
-/
def hearing (t : Turn) (c : Connection) (bytes : Bytes) (results : List Framer.Result) : Turn :=
  (t.advance c.identity (c.receive bytes).2 (c.receive bytes).1.replies).onInbounds c.identity c.id
    ({ c with framer := (c.framer.feed bytes).2 }.receiveResults results).1.inbound

theorem onInbounds_append (t : Turn) (identity : String) (id : ConnectionId)
    (items more : List Inbound) :
    t.onInbounds identity id (items ++ more) =
      (t.onInbounds identity id items).onInbounds identity id more := by
  induction items generalizing t with
  | nil => rfl
  | cons item items ih =>
    -- a server that is gone is not heard again
    have hgone : ∀ c, t.connection identity = c → (∀ d, c = some d → d.id ≠ id) →
        t.onInbounds identity id more = t := by
      intro c hc hne
      cases more with
      | nil => rfl
      | cons item more =>
        rw [onInbounds, hc]
        cases c with
        | none => rfl
        | some d => exact if_neg (hne d rfl)
    rw [List.cons_append, onInbounds, onInbounds]
    cases hc : t.connection identity with
    | none => exact (hgone none hc (by simp)).symm
    | some c =>
      dsimp only
      split
      · exact ih _
      · next hne => exact (hgone (some c) hc (by simpa using hne)).symm

theorem hearing_append (t : Turn) (c : Connection) (bytes : Bytes)
    (results more : List Framer.Result) :
    t.hearing c bytes (results ++ more) =
      (t.hearing c bytes results).onInbounds c.identity c.id
        (({ c with framer := (c.framer.feed bytes).2 }.receiveResults results).2.receiveResults
          more).1.inbound := by
  rw [hearing, Connection.receiveResults_append, onInbounds_append, hearing]

theorem stdout_eq_hearing {id : ConnectionId}
    (hfind : Registry.findById t.session.connections id = some c) (hid : c.id = id)
    (bytes : Bytes) : t.stdout id bytes = t.hearing c bytes (c.framer.feed bytes).1 := by
  have hcontinues := c.continues_receive bytes
  have hidentity : (c.receive bytes).2.identity = c.identity := by
    rw [Connection.identity, hcontinues.config, Connection.identity]
  obtain rfl := hid
  simp only [stdout, hfind, hearing, advance, hidentity, hcontinues.id]
  rfl

/-- Output is reacted to in steps, up to any result of it. -/
theorem steps_hearing {bytes : Bytes} {results : List Framer.Result} (h : t.Coherent named)
    (hc : t.connection c.identity = some c) (hresults : results <+: (c.framer.feed bytes).1) :
    Steps named t (t.hearing c bytes results) := by
  obtain ⟨more, hmore⟩ := hresults
  have hreceive : Steps named t (t.advance c.identity (c.receive bytes).2
      (c.receive bytes).1.replies) :=
    .single (.hears hc)
  have hitems : ({ c with framer := (c.framer.feed bytes).2 }.receiveResults results).1.inbound <+:
      (c.receive bytes).1.inbound := by
    rw [Connection.receive]
    dsimp only
    rw [← hmore, Connection.receiveResults_append]
    exact List.prefix_append _ _
  exact hreceive.trans (steps_onInbounds (hreceive.coherent h)
    ((awaits_receive (h.sound _ c hc) bytes _).initial hitems))

theorem steps_stdout (h : t.Coherent named) (id : ConnectionId) (bytes : Bytes) :
    Steps named t (t.stdout id bytes) := by
  cases hfind : Registry.findById t.session.connections id with
  | none =>
    simp only [stdout, hfind]
    exact .refl
  | some c =>
    obtain ⟨hc, hid⟩ := connection_of_findById h hfind
    rw [stdout_eq_hearing hfind hid]
    exact steps_hearing h hc List.prefix_rfl

/-! ## All events -/

/-- An event that lets no server speak and starts none is reacted to with what servers that run do. -/
theorem works_react (h : t.Coherent named) (launch : Launcher) {e : Event} (hnames : e.Names named)
    (hedit : e.isEdit = false) (hplain : e.bringsUp = false) :
    Works named t (t.react launch e) := by
  cases e with
  | stdout id bytes => cases hplain
  | stderr id bytes => exact works_stderr t id bytes
  | exited id code => exact works_exited t id code
  | action a =>
    cases a with
    | start target => cases hplain
    | stop identity => exact works_orReport fun _ => works_stop
    | stopAll => exact works_stopAll t
    | showLog identity => exact works_orReport fun _ h => (remarks_showLog h).works
    | viewOpened view path => exact works_viewOpened h (hnames path rfl) view
    | viewFocused view => exact works_viewFocused h view
    | viewClosed view => exact works_viewClosed h view
    | edited path changes => cases hedit
    | saved path => exact works_saved t path
    | resync path => exact works_orReport fun _ => works_resync (hnames path rfl)
    | request kind path => exact works_request h (hnames path rfl) kind
    | lineDiagnostics path line => exact (remarks_lineDiagnostics t path line).works

/-- **Every reaction is a chain of steps.** An edit is left to `syncChanges`, since the buffer that
it speaks of has changed before. -/
theorem steps_react (h : t.Coherent named) (launch : Launcher) {e : Event} (hnames : e.Names named)
    (hedit : e.isEdit = false) : Steps named t (t.react launch e) := by
  cases hplain : e.bringsUp with
  | false => exact (works_react h launch hnames hedit hplain).steps
  | true =>
    cases e with
    | stdout id bytes => exact steps_stdout h id bytes
    | action a =>
      cases a with
      | start target => exact steps_start t launch target
      | _ => cases hplain
    | _ => cases hplain

end Turn
end LanguageClient
