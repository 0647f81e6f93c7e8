import LanguageClient.Proofs.Connection.Intake
import LanguageClient.Proofs.Session.Deed

/-!
# What acting on a server's messages does not see

A session that acts on a message of a server looks at the server's connection without its intake, at
the views and at the host's buffers. A change of turns that leaves these alone is `Transparent` for
the server: it may be made before a message is acted on or afterwards, and it makes no difference
(`Transparent.onInbounds`). Three such changes matter: something was done before (`Turn.preface`), a
connection has another intake (`Turn.withIntake`), and other servers are in another condition
(`Turn.amid`). An answer that edits a document is sent on to all servers. It therefore sees the
other servers, but neither what was done before nor an intake (`Unseen.onInbounds`).
-/

namespace LanguageClient

namespace Turn

/-- A turn before which some things were done. -/
def preface (t : Turn) (effects : List Effect) : Turn :=
  { t with effects := effects ++ t.effects }

/-- A turn in which a connection has another intake. -/
def withIntake (t : Turn) (identity : String) (framer : Framer) (requests : PendingTable) : Turn :=
  { t with session := { t.session with
      connections := t.session.connections.modify identity (·.withIntake framer requests) } }

/-- A turn in which all servers but one are as they are in another turn. -/
def amid (t : Turn) (identity : String) (u : Turn) : Turn :=
  { t with session := { t.session with
      connections := t.session.connections.splice u.session.connections (· = identity)
      capabilities := t.session.capabilities.splice u.session.capabilities (· = identity)
      diagnostics := t.session.diagnostics.amid identity u.session.diagnostics } }

/-- A turn with other capabilities. -/
def withCapabilities (t : Turn) (capabilities : CapabilityTable) : Turn :=
  { t with session := { t.session with capabilities := capabilities } }

/-! ## Operations by what they change -/

theorem teardown_eq_foldl {t : Turn} {identity : String} {c : Connection}
    (hc : t.connection identity = some c) : t.teardown identity =
      (t.showing identity).foldl (fun u view => u.tell (.setDiagnostics view identity []))
        (t.ended identity c) := by
  simp only [teardown, hc]
  rfl

theorem published_eq_foldl {t : Turn} {identity : String} {p : Publication}
    (h : t.accepts identity p = true) : t.published identity p =
      (t.session.views.viewsOf (Uri.toPath p.uri)).foldl
        (fun u view => u.tell (.setDiagnostics view identity
          (t.rendered (Uri.toPath p.uri) (p.diagnostics.map Diagnostic.ofPublished))))
        (t.withDiagnostics (t.session.diagnostics.replace identity (Uri.toPath p.uri)
          (p.diagnostics.map Diagnostic.ofPublished))) := by
  rw [published_of_accepts h, foldl_tell]
  rfl

theorem activated_eq (t : Turn) (identity : String) (c : Connection)
    (capabilities : ServerCapabilities) :
    t.activated identity c capabilities =
      (t.advance identity { c with state := .active } c.greetings).withCapabilities
        ((t.advance identity { c with state := .active } c.greetings).session.capabilities.set identity
          capabilities) :=
  rfl

/-- Whether a change of turns leaves alone what is looked at for a server, and makes no difference
to what is changed for it. -/
structure Transparent (h : Turn → Turn) (identity : String) : Prop where
  buffers : ∀ t, (h t).buffers = t.buffers
  views : ∀ t, (h t).session.views = t.session.views
  focused : ∀ t, (h t).session.focused = t.session.focused
  showing : ∀ t, (h t).showing identity = t.showing identity
  gone : ∀ t, t.connection identity = none → (h t).connection identity = none
  stands : ∀ t c, t.connection identity = some c →
    ∃ framer requests, (h t).connection identity = some (c.withIntake framer requests)
  emit : ∀ t e, h (t.emit e) = (h t).emit e
  keep : ∀ t c d state documents, t.connection identity = some c →
    (h t).connection identity = some d →
      h (t.keep identity { c with state := state, documents := documents }) =
        (h t).keep identity { d with state := state, documents := documents }
  grant : ∀ t capabilities,
    h (t.withCapabilities (t.session.capabilities.set identity capabilities)) =
      (h t).withCapabilities ((h t).session.capabilities.set identity capabilities)
  publish : ∀ t path diagnostics,
    h (t.withDiagnostics (t.session.diagnostics.replace identity path diagnostics)) =
      (h t).withDiagnostics ((h t).session.diagnostics.replace identity path diagnostics)
  ended : ∀ t c d, t.connection identity = some c → (h t).connection identity = some d →
    h (t.ended identity c) = (h t).ended identity d

namespace Transparent

variable {h : Turn → Turn} {identity : String} (hh : Transparent h identity) (t : Turn)
include hh

/-! ## What is told and written -/

theorem tell (cb : Callback) : h (t.tell cb) = (h t).tell cb := hh.emit t (.tell cb)

theorem notice (level : NoticeLevel) (message : String) :
    h (t.notice level message) = (h t).notice level message :=
  hh.tell t (.notify level message)

theorem report (f : Failure) : h (t.report f) = (h t).report f := hh.notice t f.level f.message

theorem foldl_tell {α : Type} (l : List α) (f : α → Callback) :
    h (l.foldl (fun t a => t.tell (f a)) t) = l.foldl (fun t a => t.tell (f a)) (h t) :=
  (List.foldl_hom h fun u a => (hh.tell u (f a)).symm).symm

theorem write (id : ConnectionId) (messages : List Json) :
    h (t.write id messages) = (h t).write id messages := by
  have hwrite : ∀ u : Turn, u.write id messages =
      messages.foldl (fun u m => u.emit (.write id m)) u := by
    intro u
    induction messages generalizing u with
    | nil => simp [Turn.write]
    | cons m messages ih =>
      rw [List.foldl_cons, ← ih]
      simp [Turn.write, Turn.emit]
  rw [hwrite, hwrite]
  exact (List.foldl_hom h fun u m => (hh.emit u (.write id m)).symm).symm

theorem buffer (path : Path) : (h t).buffer path = t.buffer path := by
  rw [Turn.buffer, Turn.buffer, hh.buffers]

theorem bufferText (path : Path) : (h t).bufferText path = t.bufferText path := by
  rw [Turn.bufferText, Turn.bufferText, hh.buffer]

theorem rendered (path : Path) (diagnostics : List Diagnostic) :
    (h t).rendered path diagnostics = t.rendered path diagnostics := by
  rw [Turn.rendered, Turn.rendered, hh.bufferText]

/-! ## What is changed -/

theorem advance {c d : Connection} (hc : t.connection identity = some c)
    (hd : (h t).connection identity = some d) (hid : d.id = c.id) (state : ConnectionState)
    (documents : DocumentTable) (messages : List Json) :
    h (t.advance identity { c with state := state, documents := documents } messages) =
      (h t).advance identity { d with state := state, documents := documents } messages := by
  rw [Turn.advance, hh.write, hh.keep t c d state documents hc hd, Turn.advance, hid]

theorem openDocument (path : Path) :
    h (t.openDocument identity path) = (h t).openDocument identity path := by
  cases hc : t.connection identity with
  | none => simp only [Turn.openDocument, hc, hh.gone t hc]
  | some c =>
    obtain ⟨framer, requests, hd⟩ := hh.stands t c hc
    have hadvance := hh.advance t hc hd rfl c.state
    simp only [Turn.openDocument, hc, hd, notify_keep, hh.bufferText]
    change h (ite ((!c.isActive || c.documents.isOpen path || !c.config.serves path) = true) _ _) =
      ite ((!c.isActive || c.documents.isOpen path || !c.config.serves path) = true) _ _
    rw [apply_ite h]
    congr 1
    cases t.bufferText path with
    | none => rfl
    | some text =>
      rcases hopened : c.documents.openDocument path text (path.language.getD "plaintext") with
        _ | ⟨n, documents⟩
      · simp only [Connection.withIntake, hopened]
      · simp only [Connection.withIntake, hopened]
        exact hadvance documents _

theorem teardown : h (t.teardown identity) = (h t).teardown identity := by
  cases hc : t.connection identity with
  | none => simp only [Turn.teardown, hc, hh.gone t hc]
  | some c =>
    obtain ⟨framer, requests, hd⟩ := hh.stands t c hc
    have hended := hh.ended t c _ hc hd
    rw [teardown_eq_foldl hc, teardown_eq_foldl hd, hh.foldl_tell, hended, hh.showing]

theorem accepts (p : Publication) : (h t).accepts identity p = t.accepts identity p := by
  cases hc : t.connection identity with
  | none => simp only [Turn.accepts, hc, hh.gone t hc, Option.bind_none]
  | some c =>
    obtain ⟨framer, requests, hd⟩ := hh.stands t c hc
    simp only [Turn.accepts, hc, hd, Option.bind_some]
    rfl

theorem published (p : Publication) :
    h (t.published identity p) = (h t).published identity p := by
  cases haccepts : t.accepts identity p with
  | false =>
    rw [published_of_not_accepts haccepts, published_of_not_accepts ((hh.accepts t p).trans haccepts)]
  | true =>
    rw [published_eq_foldl haccepts, published_eq_foldl ((hh.accepts t p).trans haccepts),
      hh.foldl_tell, hh.publish, hh.rendered, hh.views]

theorem activated {c : Connection} {framer : Framer} {requests : PendingTable}
    (hc : t.connection identity = some c)
    (hd : (h t).connection identity = some (c.withIntake framer requests))
    (capabilities : ServerCapabilities) :
    h (t.activated identity c capabilities) =
      (h t).activated identity (c.withIntake framer requests) capabilities := by
  have hadvance := hh.advance t hc hd rfl .active c.documents c.greetings
  rw [activated_eq, activated_eq, hh.grant]
  exact congrArg (fun u : Turn => u.withCapabilities (u.session.capabilities.set identity _)) hadvance

/-! ## What answers come to -/

theorem onHandshake (result : Json) :
    h (t.onHandshake identity result) = (h t).onHandshake identity result := by
  cases hread : readHandshake result with
  | error e => rw [onHandshake_malformed hread, onHandshake_malformed hread, hh.report, hh.teardown]
  | ok answer =>
    cases hc : t.connection identity with
    | none => simp only [Turn.onHandshake, hread, hc, hh.gone t hc]
    | some c =>
      obtain ⟨framer, requests, hd⟩ := hh.stands t c hc
      cases hwire : c.wireOpen with
      | false =>
        rw [onHandshake_unreachable hc hread hwire, onHandshake_unreachable hd hread hwire, hh.report,
          hh.teardown]
      | true =>
        have hactivated := hh.activated t hc hd answer.1
        rw [onHandshake_greeted hc hread hwire, onHandshake_greeted hd hread hwire, hh.focused,
          hh.views]
        cases t.session.focused.bind t.session.views.pathOf with
        | none => exact (hh.tell _ _).trans (congrArg (Turn.tell · _) hactivated)
        | some path =>
          dsimp only
          rw [hh.openDocument, hh.tell, hactivated]

theorem onHover (result : Json) : h (t.onHover result) = (h t).onHover result := by
  unfold Turn.onHover
  split
  · exact hh.tell t _
  · exact hh.notice t _ _
  · exact hh.notice t _ _

theorem onCompletion (document : Option Path) (result : Json) :
    (t.onCompletion identity document result).map h =
      (h t).onCompletion identity document result := by
  have hfilters : ((h t).connection identity).map (·.config.filtersCompletions) =
      (t.connection identity).map (·.config.filtersCompletions) := by
    cases hc : t.connection identity with
    | none => rw [hh.gone t hc]
    | some c =>
      obtain ⟨framer, requests, hd⟩ := hh.stands t c hc
      rw [hd]
      rfl
  have hbuffer : document.bind (h t).buffer = document.bind t.buffer :=
    congrArg document.bind (funext (hh.buffer t))
  have hshown : ∀ items : List String,
      Except.map h (if items.isEmpty then
          (.ok ((t.tell .dismissCompletion).notice .info "No completions") : Interpreted Turn)
        else .ok (t.tell (.showCompletions items))) =
      if items.isEmpty then .ok (((h t).tell .dismissCompletion).notice .info "No completions")
        else .ok ((h t).tell (.showCompletions items)) := by
    intro items
    split
    · exact congrArg Except.ok ((hh.notice _ _ _).trans (congrArg (Turn.notice · _ _) (hh.tell t _)))
    · exact congrArg Except.ok (hh.tell t _)
  unfold Turn.onCompletion
  rw [hfilters, hbuffer]
  cases readCompletion result with
  | error e => rfl
  | ok items => exact hshown _

theorem onLocation (result : Json) : (t.onLocation result).map h = (h t).onLocation result := by
  unfold Turn.onLocation
  cases readLocation result with
  | error e => rfl
  | ok location =>
    cases location with
    | none => exact congrArg Except.ok (hh.notice t _ _)
    | some location => exact congrArg Except.ok (hh.tell t _)

theorem onReferences (result : Json) :
    (t.onReferences result).map h = (h t).onReferences result := by
  unfold Turn.onReferences
  cases readReferences result with
  | error e => rfl
  | ok locations =>
    cases locations with
    | nil => exact congrArg Except.ok (hh.notice t _ _)
    | cons location locations => exact congrArg Except.ok (hh.tell t _)

theorem onSymbols (document : Option Path) (result : Json) :
    (t.onSymbols document result).map h = (h t).onSymbols document result := by
  unfold Turn.onSymbols
  cases readSymbols (document.getD ⟨""⟩) result with
  | error e => rfl
  | ok entries => exact congrArg Except.ok (hh.tell t _)

/-- What cannot be read is reported. -/
theorem settle (request : PendingRequest) {outcome outcome' : Interpreted Turn} :
    outcome.map h = outcome' →
    h (match outcome with
      | .ok t => t
      | .error e =>
        (if request.method = .completion then t.tell .dismissCompletion else t).report
          (.protocol s!"{request.method.name} from {identity}: {e.message}")) =
      match outcome' with
      | .ok t => t
      | .error e =>
        (if request.method = .completion then (h t).tell .dismissCompletion else h t).report
          (.protocol s!"{request.method.name} from {identity}: {e.message}") := by
  rintro rfl
  cases outcome with
  | ok t => rfl
  | error e =>
    dsimp only [Except.map]
    rw [hh.report, apply_ite h, hh.tell]

theorem onError (request : PendingRequest) (e : ResponseError) :
    h (t.onError identity request e) = (h t).onError identity request e := by
  unfold Turn.onError
  dsimp only
  split
  · rfl
  · rw [hh.report, hh.teardown]
  · rw [hh.report, hh.tell]
  · exact hh.report t _

/-- An answer is acted on alike where its own method is. -/
theorem onResult {request : PendingRequest} (result : Json)
    (hformatting : request.method = .formatting ∨ request.method = .rangeFormatting →
      (t.onFormatting request.document result).map h =
        (h t).onFormatting request.document result) :
    h (t.onResult identity request result) = (h t).onResult identity request result := by
  unfold Turn.onResult
  refine hh.settle t request ?_
  cases hmethod : request.method with
  | handshake => exact congrArg Except.ok (hh.onHandshake t result)
  | shutdown => rfl
  | hover => exact congrArg Except.ok (hh.onHover t result)
  | formatting => exact hformatting (.inl hmethod)
  | rangeFormatting => exact hformatting (.inr hmethod)
  | completion => exact hh.onCompletion t request.document result
  | definition | declaration | typeDefinition | implementation => exact hh.onLocation t result
  | references => exact hh.onReferences t result
  | documentSymbol => exact hh.onSymbols t request.document result

theorem onInbound {item : Inbound} (hformatting : ∀ request result,
    item = .response request (.ok result) → item.formats = true →
      (t.onFormatting request.document result).map h =
        (h t).onFormatting request.document result) :
    h (t.onInbound identity item) = (h t).onInbound identity item := by
  cases item with
  | response request outcome =>
    cases outcome with
    | ok result =>
      refine hh.onResult t result fun hmethod => hformatting request result rfl ?_
      simpa [Inbound.formats] using hmethod
    | error e => exact hh.onError t request e
  | notification n =>
    cases n with
    | published p => exact hh.published t p
    | logged m => rfl
    | shown m => exact hh.tell t _
    | unknown method => rfl
  | messageRequest m => exact hh.tell t _

/-- A change that makes no difference to acting on each message makes none to acting on them all. -/
theorem onInbounds_of {items : List Inbound} (hitems : ∀ u : Turn, ∀ item ∈ items,
    h (u.onInbound identity item) = (h u).onInbound identity item) (id : ConnectionId) :
    h (t.onInbounds identity id items) = (h t).onInbounds identity id items := by
  induction items generalizing t with
  | nil => rfl
  | cons item items ih =>
    cases hc : t.connection identity with
    | none => simp only [Turn.onInbounds, hc, hh.gone t hc]
    | some c =>
      obtain ⟨framer, requests, hd⟩ := hh.stands t c hc
      simp only [Turn.onInbounds, hc, hd]
      change h (ite (c.id = id) _ _) = ite (c.id = id) _ _
      rw [apply_ite h, ih _ fun u other hother => hitems u other (List.mem_cons_of_mem _ hother),
        hitems t item List.mem_cons_self]

/-- **A transparent change may be made before messages are acted on or afterwards**, as long as none
of them edits a document. -/
theorem onInbounds {items : List Inbound} (hitems : ∀ item ∈ items, item.formats = false)
    (id : ConnectionId) :
    h (t.onInbounds identity id items) = (h t).onInbounds identity id items := by
  refine hh.onInbounds_of t (fun u item hmem => ?_) id
  refine hh.onInbound u fun request result _ hformats => ?_
  rw [hitems item hmem] at hformats
  cases hformats

end Transparent

/-! ## Edited documents -/

/-- Whether a change of turns is transparent for all servers, also for what is sent on to all of
them. -/
structure Unseen (h : Turn → Turn) : Prop where
  transparent : ∀ identity, Transparent h identity
  capabilities : ∀ t, (h t).session.capabilities = t.session.capabilities
  identities : ∀ t, (h t).identities = t.identities
  replaceDocument : ∀ t path text cursor,
    h (t.replaceDocument path text cursor) = (h t).replaceDocument path text cursor

namespace Unseen

variable {h : Turn → Turn} (hh : Unseen h) (t : Turn)
include hh

theorem syncChangesTo (path : Path) (changes : List ContentChange) (identity : String) :
    h (t.syncChangesTo path changes identity) = (h t).syncChangesTo path changes identity := by
  have hone := hh.transparent identity
  cases hc : t.connection identity with
  | none => simp only [Turn.syncChangesTo, hc, hone.gone t hc]
  | some c =>
    obtain ⟨framer, requests, hd⟩ := hone.stands t c hc
    have hadvance := hone.advance t hc hd rfl c.state
    have hwanted : ∀ kind, (h t).changesFor kind path changes = t.changesFor kind path changes := by
      intro kind
      unfold changesFor
      rw [hone.bufferText]
    simp only [Turn.syncChangesTo, hc, hd, notify_keep, hwanted, hh.capabilities]
    change h (ite ((!c.isActive || !c.documents.isOpen path) = true) _ _) =
      ite ((!c.isActive || !c.documents.isOpen path) = true) _ _
    rw [apply_ite h]
    congr 1
    cases t.changesFor (CapabilityTable.sync t.session.capabilities identity).change path changes with
    | none => rfl
    | some wanted =>
      rcases hchange : c.documents.change path wanted with _ | ⟨n, documents⟩
      · simp only [Connection.withIntake, hchange]
      · simp only [Connection.withIntake, hchange]
        exact hadvance documents _

theorem syncChanges (path : Path) (changes : List ContentChange) :
    h (t.syncChanges path changes) = (h t).syncChanges path changes := by
  rw [Turn.syncChanges, Turn.syncChanges, hh.identities]
  exact (List.foldl_hom h fun u identity => (hh.syncChangesTo u path changes identity).symm).symm

theorem onFormatting (document : Option Path) (result : Json) :
    (t.onFormatting document result).map h = (h t).onFormatting document result := by
  have hone := hh.transparent ""
  unfold Turn.onFormatting
  cases readEdits result with
  | error e => rfl
  | ok edits =>
    cases document with
    | none => rfl
    | some path =>
      cases edits with
      | nil => exact congrArg Except.ok (hone.notice t _ _)
      | cons edit edits =>
        simp only [bind, Except.bind, hone.buffer]
        cases t.buffer path with
        | none => exact congrArg Except.ok (hone.report t _)
        | some b =>
          refine congrArg Except.ok ?_
          cases applyEdits b.text.toList (edit :: edits) b.cursor with
          | none => exact hone.emit t .halt
          | some edited =>
            simp only [putEdited, hh.syncChanges, hh.replaceDocument]

/-- **A change that is transparent for all servers may be made before messages are acted on or
afterwards.** -/
theorem onInbounds (identity : String) (id : ConnectionId) (items : List Inbound) :
    h (t.onInbounds identity id items) = (h t).onInbounds identity id items :=
  (hh.transparent identity).onInbounds_of t (fun u _ _ =>
    (hh.transparent identity).onInbound u fun request result _ _ =>
      hh.onFormatting u request.document result) id

end Unseen

/-! ## Changes that are not seen -/

theorem unseen_preface (effects : List Effect) : Unseen (·.preface effects) where
  transparent identity := {
    buffers _ := rfl
    views _ := rfl
    focused _ := rfl
    showing _ := rfl
    gone _ hc := hc
    stands _ c hc := ⟨c.framer, c.requests, hc⟩
    emit t e := by simp only [preface, Turn.emit, List.append_assoc]
    keep t c d state documents hc hd := by
      obtain rfl : c = d := Option.some.inj (hc.symm.trans hd)
      rfl
    grant _ _ := rfl
    publish _ _ _ := rfl
    ended t c d hc hd := by
      obtain rfl : c = d := Option.some.inj (hc.symm.trans hd)
      simp only [preface, ended, Turn.emit, List.append_assoc] }
  capabilities _ := rfl
  identities _ := rfl
  replaceDocument t path text cursor := by
    simp only [preface, Turn.replaceDocument, Turn.tell, Turn.emit, List.append_assoc]

theorem connection_withIntake (t : Turn) (who : String) (framer : Framer)
    (requests : PendingTable) (identity : String) :
    (t.withIntake who framer requests).connection identity =
      if who = identity then (t.connection who).map (·.withIntake framer requests)
      else t.connection identity :=
  Table.get?_modify t.session.connections who identity _

/-- What is kept of a connection is kept with the other intake, if it is that connection's. -/
theorem keep_withIntake_of_connection {t : Turn} {who identity : String} {framer : Framer}
    {requests : PendingTable} {c d : Connection} (hc : t.connection identity = some c)
    (hd : (t.withIntake who framer requests).connection identity = some d)
    (state : ConnectionState) (documents : DocumentTable) :
    (t.keep identity { c with state := state, documents := documents }).withIntake who framer
        requests =
      (t.withIntake who framer requests).keep identity
        { d with state := state, documents := documents } := by
  have htable := Table.modify_set t.session.connections identity who
    { c with state := state, documents := documents } (·.withIntake framer requests)
  have hentry : (if who = identity then
      Connection.withIntake { c with state := state, documents := documents } framer requests
      else { c with state := state, documents := documents }) =
      { d with state := state, documents := documents } := by
    rw [connection_withIntake] at hd
    split
    · next heq =>
      rw [if_pos heq, heq, hc] at hd
      cases hd
      rfl
    · next hne =>
      rw [if_neg hne, hc] at hd
      cases hd
      rfl
  rw [hentry] at htable
  exact congrArg (fun cs => { t with session := { t.session with connections := cs } }) htable

theorem ended_withIntake {t : Turn} {who identity : String} {framer : Framer}
    {requests : PendingTable} {c d : Connection} (hc : t.connection identity = some c)
    (hd : (t.withIntake who framer requests).connection identity = some d) :
    (t.ended identity c).withIntake who framer requests =
      (t.withIntake who framer requests).ended identity d := by
  have htable := Table.modify_erase t.session.connections identity who
    (·.withIntake framer requests)
  have hid : d.id = c.id := by
    rw [connection_withIntake] at hd
    split at hd
    · next heq =>
      rw [heq, hc] at hd
      cases hd
      rfl
    · rw [hc] at hd
      cases hd
      rfl
  have hsame : (t.ended identity c).withIntake who framer requests =
      (t.withIntake who framer requests).ended identity c :=
    congrArg (fun cs => { t.ended identity c with
      session := { (t.ended identity c).session with connections := cs } }) htable
  rw [hsame, ended, ended, hid]

theorem identities_withIntake (t : Turn) (who : String) (framer : Framer)
    (requests : PendingTable) : (t.withIntake who framer requests).identities = t.identities := by
  refine Table.keys_eq_of_contains fun k => ?_
  have hk := connection_withIntake t who framer requests k
  change ((t.withIntake who framer requests).connection k).isSome = (t.connection k).isSome
  rw [hk]
  split
  · next heq => rw [heq, Option.isSome_map]
  · rfl

theorem unseen_withIntake (who : String) (framer : Framer) (requests : PendingTable) :
    Unseen (·.withIntake who framer requests) where
  transparent identity := {
    buffers _ := rfl
    views _ := rfl
    focused _ := rfl
    showing _ := rfl
    gone t hc := by
      rw [connection_withIntake]
      split
      · next heq => rw [heq, hc, Option.map_none]
      · exact hc
    stands t c hc := by
      rw [connection_withIntake]
      split
      · next heq => exact ⟨framer, requests, by rw [heq, hc, Option.map_some]⟩
      · exact ⟨c.framer, c.requests, hc⟩
    emit _ _ := rfl
    keep _ _ _ state documents hc hd := keep_withIntake_of_connection hc hd state documents
    grant _ _ := rfl
    publish _ _ _ := rfl
    ended _ _ _ hc hd := ended_withIntake hc hd }
  capabilities _ := rfl
  identities t := identities_withIntake t who framer requests
  replaceDocument _ _ _ _ := rfl

theorem connection_amid (t : Turn) (identity : String) (u : Turn) (other : String) :
    (t.amid identity u).connection other =
      if other = identity then t.connection other else u.connection other := by
  have hfound := Table.get?_splice t.session.connections u.session.connections
    (fun key => decide (key = identity)) other
  simp only [decide_eq_true_eq] at hfound
  exact hfound

theorem connection_amid_self (t : Turn) (identity : String) (u : Turn) :
    (t.amid identity u).connection identity = t.connection identity := by
  rw [connection_amid, if_pos rfl]

theorem transparent_amid (identity : String) (u : Turn) :
    Transparent (·.amid identity u) identity where
  buffers _ := rfl
  views _ := rfl
  focused _ := rfl
  showing t := by
    have hpaths := t.session.diagnostics.removeConnection_amid_fst identity u.session.diagnostics
    exact congrArg (List.flatMap t.session.views.viewsOf) hpaths
  gone t hc := (connection_amid_self t identity u).trans hc
  stands t c hc := ⟨c.framer, c.requests, (connection_amid_self t identity u).trans hc⟩
  emit _ _ := rfl
  keep t c d state documents hc hd := by
    obtain rfl : c = d :=
      Option.some.inj (hc.symm.trans ((connection_amid_self t identity u).symm.trans hd))
    have htable := Table.splice_set (p := (· = identity)) (decide_eq_true rfl) t.session.connections
      u.session.connections { c with state := state, documents := documents }
    exact congrArg (fun cs => { t.amid identity u with
      session := { (t.amid identity u).session with connections := cs } }) htable
  grant t capabilities := by
    have htable := Table.splice_set (p := (· = identity)) (decide_eq_true rfl) t.session.capabilities
      u.session.capabilities capabilities
    exact congrArg (withCapabilities (t.amid identity u)) htable
  publish t path diagnostics :=
    congrArg (withDiagnostics (t.amid identity u))
      (t.session.diagnostics.replace_amid identity u.session.diagnostics path diagnostics)
  ended t c d hc hd := by
    obtain rfl : c = d :=
      Option.some.inj (hc.symm.trans ((connection_amid_self t identity u).symm.trans hd))
    have hconnections := Table.splice_erase (p := (· = identity)) (decide_eq_true rfl)
      t.session.connections u.session.connections
    have hcapabilities := Table.splice_erase (p := (· = identity)) (decide_eq_true rfl)
      t.session.capabilities u.session.capabilities
    have hdiagnostics :=
      t.session.diagnostics.removeConnection_amid_snd identity u.session.diagnostics
    simp only [amid, ended, Turn.emit, hconnections, hcapabilities, hdiagnostics]

end Turn
end LanguageClient
