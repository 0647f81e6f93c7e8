import LanguageClient.Proofs.Connection.Basic
import LanguageClient.Proofs.Document.Tracked
import LanguageClient.Proofs.Session.Step
import LanguageClient.Proofs.View

/-!
# What every session keeps to

`Turn.Coherent` gathers what holds of every turn of a run: connections stand under their own
identity and have numbers of their own, a handshake is owed only by a connection that is not active
yet, which has no documents, and all paths that are kept were named by the host. `Step.coherent` is
the step lemma; each kind of step changes one connection at most, so that the invariant of a single
connection (`Connection.Sound`) does most of the work.
-/

namespace LanguageClient

namespace Connection

/-- What holds of one connection of a session. -/
structure Sound (named : Path → Prop) (c : Connection) : Prop where
  numbered : ∀ n request, c.requests.requests.get? n = some request → n < c.requests.nextId
  handshake : ∀ n request, c.requests.requests.get? n = some request →
    request.method = .handshake → n = 1 ∧ c.state = .pending
  asked : ∀ n request path, c.requests.requests.get? n = some request →
    request.document = some path → named path
  idle : c.state ≠ .active → ∀ place, c.documents.documents.get? place = none
  tracked : ∀ place document, c.documents.documents.get? place = some document →
    document.path.place = place ∧ named document.path

/-- What a connection may become under its number: requests are numbered on, and none of them is a
handshake. -/
structure Continues (c c' : Connection) : Prop where
  id : c'.id = c.id
  config : c'.config = c.config
  nextId_le : c.requests.nextId ≤ c'.requests.nextId
  pending : ∀ n request, c'.requests.requests.get? n = some request →
    c.requests.requests.get? n = some request ∨
      (c.requests.nextId ≤ n ∧ request.method ≠ .handshake)

/-- What a connection may become without being heard, activated or cut off. -/
structure Persists (c c' : Connection) : Prop extends Continues c c' where
  state : c'.state = c.state
  wireOpen : c'.wireOpen = c.wireOpen
  owed : ∀ n request, n < c.requests.nextId → c.requests.requests.get? n = some request →
    c'.requests.requests.get? n = some request

variable {named : Path → Prop} {text : Path → Option String} {quiet : Place → Prop}
  {c c' : Connection} {messages : List Json}

/-- Other documents that were named are as good. -/
theorem Sound.withDocuments (h : c.Sound named) {documents : DocumentTable}
    (hidle : c.state ≠ .active → ∀ place, documents.documents.get? place = none)
    (htracked : ∀ place document, documents.documents.get? place = some document →
      document.path.place = place ∧ named document.path) :
    Sound named { c with documents := documents } :=
  ⟨h.numbered, h.handshake, h.asked, hidle, htracked⟩

theorem Sound.isActive_of_get? (h : c.Sound named) {place : Place} {document : TrackedDocument}
    (hdocument : c.documents.documents.get? place = some document) : c.isActive = true := by
  by_cases hstate : c.state = .active
  · simp [isActive, hstate]
  · rw [h.idle hstate place] at hdocument
    cases hdocument

theorem Sound.sendRequest (h : c.Sound named) {method : Method} {params : Json}
    {document : Option Path} (hmethod : method ≠ .handshake)
    (hnamed : ∀ path, document = some path → named path) :
    Sound named (c.sendRequest method params document).2 := by
  have hsame : (c.sendRequest method params document).2 =
      { c with requests := (c.sendRequest method params document).2.requests } := by
    rw [sendRequest_snd]
  constructor
  case numbered =>
    intro n request hn
    rw [nextId_sendRequest]
    rcases get?_sendRequest hn with ⟨rfl, -⟩ | hn
    · exact Nat.lt_succ_self _
    · exact Nat.lt_succ_of_lt (h.numbered n request hn)
  case handshake =>
    intro n request hn hr
    rcases get?_sendRequest hn with ⟨-, rfl⟩ | hn
    · exact absurd hr hmethod
    · rw [hsame]
      exact h.handshake n request hn hr
  case asked =>
    intro n request path hn hr
    rcases get?_sendRequest hn with ⟨-, rfl⟩ | hn
    · exact hnamed path hr
    · exact h.asked n request path hn hr
  case idle =>
    rw [hsame]
    exact h.idle
  case tracked =>
    rw [hsame]
    exact h.tracked

theorem Sound.receive (h : c.Sound named) (bytes : Bytes) : Sound named (c.receive bytes).2 := by
  have hreceives := receives_receive c bytes
  have hresolves := hreceives.resolves
  have hsame := hreceives.same
  constructor
  case numbered =>
    intro n request hn
    rw [hresolves.nextId_eq]
    exact h.numbered n request (hresolves.get?_of_get? hn)
  case handshake =>
    intro n request hn hr
    rw [hsame]
    exact h.handshake n request (hresolves.get?_of_get? hn) hr
  case asked =>
    intro n request path hn hr
    exact h.asked n request path (hresolves.get?_of_get? hn) hr
  case idle =>
    rw [hsame]
    exact h.idle
  case tracked =>
    rw [hsame]
    exact h.tracked

theorem Acts.sound (h : Acts named text quiet c messages c') (hc : c.Sound named) : c'.Sound named := by
  cases h with
  | @opens path s language n documents active serves name htext hopen =>
    refine hc.withDocuments ?_ ?_
    · intro hstate
      exact absurd (by simpa [isActive] using active) hstate
    · intro place document hdocument
      rw [DocumentTable.get?_openDocument hopen] at hdocument
      split at hdocument
      · next hplace =>
        cases hdocument
        exact ⟨hplace, name⟩
      · exact hc.tracked place document hdocument
  | @closes path n documents name cleared hclose =>
    refine hc.withDocuments ?_ ?_
    · intro hstate place
      rw [DocumentTable.get?_close hclose, hc.idle hstate place, ite_self]
    · intro place document hdocument
      rw [DocumentTable.get?_close hclose] at hdocument
      split at hdocument
      · cases hdocument
      · exact hc.tracked place document hdocument
  | asks kind settings b name known =>
    refine hc.sendRequest kind.method_ne_handshake fun path hpath => ?_
    cases hpath
    exact name
  | parts =>
    rw [shutdown_snd]
    split
    · exact hc.sendRequest (by decide) (by simp)
    · exact hc

/-! ## What a connection becomes -/

theorem Continues.of_requests (hid : c'.id = c.id) (hconfig : c'.config = c.config)
    (hrequests : c'.requests = c.requests) : Continues c c' := by
  refine ⟨hid, hconfig, Nat.le_of_eq (congrArg PendingTable.nextId hrequests.symm), ?_⟩
  rw [hrequests]
  exact fun _ _ => .inl

theorem Continues.trans {d : Connection} (h : Continues c c') (h' : Continues c' d) :
    Continues c d := by
  refine ⟨h'.id.trans h.id, h'.config.trans h.config, Nat.le_trans h.nextId_le h'.nextId_le, ?_⟩
  intro n request hn
  rcases h'.pending n request hn with hn | ⟨hle, hmethod⟩
  · exact h.pending n request hn
  · exact .inr ⟨Nat.le_trans h.nextId_le hle, hmethod⟩

/-- A connection that differs in nothing but its documents. -/
theorem persists_withDocuments (c : Connection) (documents : DocumentTable) :
    Persists c { c with documents := documents } :=
  ⟨.of_requests rfl rfl rfl, rfl, rfl, fun _ _ _ h => h⟩

theorem Persists.refl (c : Connection) : Persists c c := persists_withDocuments c c.documents

theorem Persists.trans {d : Connection} (h : Persists c c') (h' : Persists c' d) :
    Persists c d := by
  refine ⟨h.toContinues.trans h'.toContinues, h'.state.trans h.state,
    h'.wireOpen.trans h.wireOpen, fun n request hlt hn => ?_⟩
  exact h'.owed n request (Nat.lt_of_lt_of_le hlt h.nextId_le) (h.owed n request hlt hn)

theorem persists_sendRequest (c : Connection) {method : Method} (params : Json)
    (document : Option Path) (hmethod : method ≠ .handshake) :
    Persists c (c.sendRequest method params document).2 := by
  have hsame := sendRequest_snd c method params document
  refine ⟨⟨?_, ?_, ?_, ?_⟩, ?_, ?_, ?_⟩
  · rw [hsame]
  · rw [hsame]
  · rw [nextId_sendRequest]
    exact Nat.le_succ _
  · intro n request hn
    rcases get?_sendRequest hn with ⟨rfl, rfl⟩ | hn
    · exact .inr ⟨Nat.le_refl _, hmethod⟩
    · exact .inl hn
  · rw [hsame]
  · rw [hsame]
  · intro n request hlt hn
    rw [get?_sendRequest_of_lt hlt, hn]

theorem Acts.persists (h : Acts named text quiet c messages c') : Persists c c' := by
  cases h with
  | opens => exact persists_withDocuments c _
  | closes => exact persists_withDocuments c _
  | asks kind settings b name known => exact persists_sendRequest c _ _ kind.method_ne_handshake
  | parts =>
    rw [shutdown_snd]
    split
    · exact persists_sendRequest c .null none (by decide)
    · exact Persists.refl c

/-! ## What is heard -/

theorem continues_receive (c : Connection) (bytes : Bytes) :
    Continues c (c.receive bytes).2 := by
  have hreceives := receives_receive c bytes
  have hresolves := hreceives.resolves
  have hsame := hreceives.same
  constructor
  case id =>
    rw [hsame]
  case config =>
    rw [hsame]
  case nextId_le => exact Nat.le_of_eq hresolves.nextId_eq.symm
  case pending => exact fun n request hn => .inl (hresolves.get?_of_get? hn)

theorem state_receive (c : Connection) (bytes : Bytes) : (c.receive bytes).2.state = c.state := by
  rw [(receives_receive c bytes).same]

theorem wireOpen_receive (c : Connection) (bytes : Bytes) :
    (c.receive bytes).2.wireOpen = c.wireOpen := by
  rw [(receives_receive c bytes).same]

theorem documents_receive (c : Connection) (bytes : Bytes) :
    (c.receive bytes).2.documents = c.documents := by
  rw [(receives_receive c bytes).same]

end Connection

namespace Turn

/-- What every turn of a session keeps to. -/
structure Coherent (named : Path → Prop) (t : Turn) : Prop where
  sound : ∀ identity c, t.connection identity = some c → c.Sound named
  keyed : ∀ identity c, t.connection identity = some c → c.identity = identity
  fresh : ∀ identity c, t.connection identity = some c → c.id < t.session.nextConnection
  distinct : ∀ identity other c d, t.connection identity = some c → t.connection other = some d →
    c.id = d.id → identity = other
  written : ∀ m ∈ t.written, m.1 < t.session.nextConnection
  viewed : ∀ view path, t.session.views.pathOf view = some path → named path

variable {named : Path → Prop} {t t' : Turn}

/-- A turn that holds the same connections, numbers, writings and views is as good. -/
theorem Coherent.congr (h : t.Coherent named) (hconnections : t'.connection = t.connection)
    (hnext : t'.session.nextConnection = t.session.nextConnection)
    (hwritten : t'.written = t.written)
    (hviews : ∀ view path, t'.session.views.pathOf view = some path →
      t.session.views.pathOf view = some path ∨ named path) : t'.Coherent named := by
  constructor
  case sound =>
    rw [hconnections]
    exact h.sound
  case keyed =>
    rw [hconnections]
    exact h.keyed
  case fresh =>
    rw [hconnections, hnext]
    exact h.fresh
  case distinct =>
    rw [hconnections]
    exact h.distinct
  case written =>
    rw [hwritten, hnext]
    exact h.written
  case viewed =>
    intro view path hpath
    rcases hviews view path hpath with hpath | hpath
    · exact h.viewed view path hpath
    · exact hpath

/-- A connection may be kept under its identity, and write, if no other has its number. -/
theorem Coherent.enters (h : t.Coherent named) {identity : String} {c' : Connection}
    {messages : List Json} (hidentity : c'.identity = identity) (hsound : c'.Sound named)
    (hfresh : c'.id < t.session.nextConnection)
    (halone : ∀ other d, t.connection other = some d → d.id = c'.id → other = identity) :
    (t.advance identity c' messages).Coherent named := by
  constructor
  case sound =>
    intro other d hd
    rcases connection_advance_cases hd with ⟨-, rfl⟩ | ⟨-, hd⟩
    · exact hsound
    · exact h.sound other d hd
  case keyed =>
    intro other d hd
    rcases connection_advance_cases hd with ⟨rfl, rfl⟩ | ⟨-, hd⟩
    · exact hidentity
    · exact h.keyed other d hd
  case fresh =>
    intro other d hd
    rcases connection_advance_cases hd with ⟨-, rfl⟩ | ⟨-, hd⟩
    · exact hfresh
    · exact h.fresh other d hd
  case distinct =>
    intro i j d e hd he heq
    rcases connection_advance_cases hd with ⟨rfl, rfl⟩ | ⟨-, hbefore⟩
    · rcases connection_advance_cases he with ⟨rfl, -⟩ | ⟨-, he⟩
      · rfl
      · exact (halone j e he heq.symm).symm
    · rcases connection_advance_cases he with ⟨rfl, rfl⟩ | ⟨-, he⟩
      · exact halone i d hbefore heq
      · exact h.distinct i j d e hbefore he heq
  case written =>
    intro m hm
    rw [written_advance, List.mem_append, List.mem_map] at hm
    rcases hm with hm | ⟨message, -, rfl⟩
    · exact h.written m hm
    · exact hfresh
  case viewed => exact h.viewed

/-- A connection may go on under its number and identity, and write. -/
theorem Coherent.advance (h : t.Coherent named) {identity : String} {c c' : Connection}
    {messages : List Json} (hc : t.connection identity = some c) (hid : c'.id = c.id)
    (hconfig : c'.config = c.config) (hsound : c'.Sound named) :
    (t.advance identity c' messages).Coherent named := by
  refine h.enters ?_ hsound ?_ fun other d hd heq => ?_
  · rw [Connection.identity, hconfig]
    exact h.keyed identity c hc
  · rw [hid]
    exact h.fresh identity c hc
  · exact h.distinct other identity d c hd hc (heq.trans hid)

theorem Coherent.ended (h : t.Coherent named) (identity : String) (c : Connection) :
    (t.ended identity c).Coherent named := by
  have hbefore : ∀ other d, (t.ended identity c).connection other = some d →
      t.connection other = some d := by
    intro other d hd
    rw [connection_ended] at hd
    split at hd
    · cases hd
    · exact hd
  constructor
  case sound => exact fun other d hd => h.sound other d (hbefore other d hd)
  case keyed => exact fun other d hd => h.keyed other d (hbefore other d hd)
  case fresh => exact fun other d hd => h.fresh other d (hbefore other d hd)
  case distinct => exact fun i j d e hd he => h.distinct i j d e (hbefore i d hd) (hbefore j e he)
  case written =>
    rw [written_ended]
    exact h.written
  case viewed => exact h.viewed

/-! ## Changes that are sent on -/

/-- What sending changes on to one server does: nothing, or the document moves on and the changes
that the server wants are written. -/
theorem syncChangesTo_cases (t : Turn) (path : Path) (changes : List ContentChange)
    (identity : String) :
    (t.syncChangesTo path changes identity = t ∧
      ∀ c, t.connection identity = some c → c.isActive = true → c.documents.isOpen path = true →
        t.changesFor (CapabilityTable.sync t.session.capabilities identity).change path changes =
          none) ∨
    ∃ c wanted n documents, t.connection identity = some c ∧ c.isActive = true ∧
      t.changesFor (CapabilityTable.sync t.session.capabilities identity).change path changes =
        some wanted ∧
      c.documents.change path wanted = some (n, documents) ∧
      t.syncChangesTo path changes identity =
        t.advance identity { c with documents := documents } (c.sent n) := by
  unfold syncChangesTo
  split
  · next hnone => exact .inl ⟨rfl, fun c hc => by simp [hnone] at hc⟩
  · next c hc =>
    split
    · next hidle =>
      refine .inl ⟨rfl, fun d hd hactive hopen => ?_⟩
      rw [hc] at hd
      cases hd
      simp [hactive, hopen] at hidle
    · next hopen =>
      simp only [Bool.or_eq_true, Bool.not_eq_true', not_or, Bool.not_eq_false] at hopen
      split
      · next hnone => exact .inl ⟨rfl, fun _ _ _ _ => hnone⟩
      · next wanted hwanted =>
        obtain ⟨document, hdocument⟩ := Option.isSome_iff_exists.1 hopen.2
        split
        · next hchange =>
          simp [DocumentTable.change, hdocument] at hchange
        · next n documents hchange =>
          exact .inr ⟨c, wanted, n, documents, hc, hopen.1, hwanted, hchange, notify_keep _ _ _ _⟩

theorem Coherent.syncChangesTo (h : t.Coherent named) (path : Path) (changes : List ContentChange)
    (identity : String) : (t.syncChangesTo path changes identity).Coherent named := by
  rcases syncChangesTo_cases t path changes identity with ⟨heq, -⟩ |
    ⟨c, wanted, n, documents, hc, hactive, -, hchange, heq⟩
  · rw [heq]
    exact h
  · rw [heq]
    obtain ⟨document, hdocument, hmoved⟩ := DocumentTable.get?_change hchange
    have hsound := h.sound identity c hc
    refine h.advance hc rfl rfl (hsound.withDocuments ?_ ?_)
    · intro hstate
      exact absurd (by simpa [Connection.isActive] using hactive) hstate
    · intro place found hfound
      rw [hmoved] at hfound
      split at hfound
      · next hplace =>
        cases hfound
        obtain ⟨hpath, hname⟩ := hsound.tracked path.place document hdocument
        exact ⟨hpath.trans hplace, hname⟩
      · exact hsound.tracked place found hfound

theorem Coherent.syncChanges (h : t.Coherent named) (path : Path) (changes : List ContentChange) :
    (t.syncChanges path changes).Coherent named :=
  List.foldlRecOn _ _ h fun _ h identity _ => h.syncChangesTo path changes identity

/-! ## Every step -/

theorem Work.coherent (h : Work named t t') (ht : t.Coherent named) : t'.Coherent named := by
  cases h with
  | tells h => exact ht.congr rfl rfl (written_tell t _) fun _ _ => .inl
  | halts => exact ht.congr rfl rfl (by simp [Turn.written, emit]) fun _ _ => .inl
  | focuses | publishes | forgets | logs => exact ht.congr rfl rfl rfl fun _ _ => .inl
  | @binds view path name free =>
    refine ht.congr rfl rfl rfl fun other p hp => ?_
    rw [withViews, ViewTable.pathOf_bind] at hp
    split at hp
    · cases hp
      exact .inr name
    · exact .inl hp
  | unbinds h =>
    refine ht.congr rfl rfl rfl fun other p hp => .inl ?_
    rw [withViews, (ViewTable.pathOf_unbind h other).2] at hp
    split at hp
    · cases hp
    · exact hp
  | acts hc h =>
    have hpersists := h.persists
    exact ht.advance hc hpersists.id hpersists.config (h.sound (ht.sound _ _ hc))
  | @saves identity c path text hc =>
    refine ⟨ht.sound, ht.keyed, ht.fresh, ht.distinct, ?_, ht.viewed⟩
    intro m hm
    rw [written_write, List.mem_append, List.mem_map] at hm
    rcases hm with hm | ⟨message, -, rfl⟩
    · exact ht.written m hm
    · exact ht.fresh identity c hc
  | ends hc => exact ht.ended _ _
  | resyncs name h => exact ht.syncChanges _ _
  | @rewrites path b text cursor name h =>
    have hreplaced : (t.replaceDocument path text cursor).Coherent named :=
      ht.congr rfl rfl (written_tell _ _) fun _ _ => .inl
    exact hreplaced.syncChanges _ _

theorem Coherent.launching (h : t.Coherent named) (config : ServerConfig) :
    (t.launching config).Coherent named := by
  refine ⟨h.sound, h.keyed, ?_, h.distinct, ?_, h.viewed⟩
  · exact fun identity c hc => Nat.lt_succ_of_lt (h.fresh identity c hc)
  · intro m hm
    rw [written_launching] at hm
    exact Nat.lt_succ_of_lt (h.written m hm)

theorem newcomer_snd (t : Turn) (config : ServerConfig) (wireOpen : Bool) :
    (t.newcomer config wireOpen).2 = { Connection.new t.session.nextConnection config wireOpen with
      requests := (t.newcomer config wireOpen).2.requests } := by
  rw [newcomer, Connection.handshake, Connection.sendRequest_snd]

theorem newcomer_id (t : Turn) (config : ServerConfig) (wireOpen : Bool) :
    (t.newcomer config wireOpen).2.id = t.session.nextConnection := by
  rw [newcomer_snd]
  rfl

theorem sound_newcomer (t : Turn) (config : ServerConfig) (wireOpen : Bool) :
    (t.newcomer config wireOpen).2.Sound named := by
  have hsame := t.newcomer_snd config wireOpen
  -- the handshake is all that a newcomer waits for
  have hpending : ∀ n request,
      (t.newcomer config wireOpen).2.requests.requests.get? n = some request →
        n = 1 ∧ request = ⟨.handshake, none⟩ := by
    intro n request hn
    rcases Connection.get?_sendRequest hn with hn | hn
    · exact hn
    · cases hn
  have hdocuments : (t.newcomer config wireOpen).2.documents = .empty := by
    rw [hsame]
    rfl
  constructor
  case numbered =>
    intro n request hn
    obtain ⟨rfl, -⟩ := hpending n request hn
    rw [newcomer, Connection.handshake, Connection.nextId_sendRequest]
    exact Nat.lt_succ_self _
  case handshake =>
    intro n request hn _
    refine ⟨(hpending n request hn).1, ?_⟩
    rw [hsame]
    rfl
  case asked =>
    intro n request path hn hpath
    obtain ⟨-, rfl⟩ := hpending n request hn
    cases hpath
  case idle =>
    intro _ place
    rw [hdocuments]
    rfl
  case tracked =>
    intro place document hdocument
    rw [hdocuments] at hdocument
    cases hdocument

theorem Coherent.entered (h : t.Coherent named) (config : ServerConfig) (wireOpen : Bool) :
    (t.entered config wireOpen).Coherent named := by
  have hid := t.newcomer_id config wireOpen
  refine (h.launching config).enters ?_ (t.sound_newcomer config wireOpen) ?_ fun other d hd heq => ?_
  · rw [Connection.identity, newcomer_snd]
    rfl
  · rw [hid]
    exact Nat.lt_succ_self _
  · -- the number of the newcomer is the next one, which no other connection has
    have hlt := h.fresh other d hd
    rw [heq, hid] at hlt
    exact absurd hlt (Nat.lt_irrefl _)

theorem Coherent.activated (h : t.Coherent named) {identity : String} {c : Connection}
    (hc : t.connection identity = some c)
    (answered : ∀ n request, c.requests.requests.get? n = some request →
      request.method ≠ .handshake) (capabilities : ServerCapabilities) :
    (t.activated identity c capabilities).Coherent named := by
  have hsound := h.sound identity c hc
  have hactive : Connection.Sound named { c with state := .active } := by
    refine ⟨hsound.numbered, ?_, hsound.asked, fun hstate => absurd rfl hstate, hsound.tracked⟩
    exact fun n request hn hr => absurd hr (answered n request hn)
  have hadvance : (t.advance identity { c with state := .active } c.greetings).Coherent named :=
    h.advance hc rfl rfl hactive
  exact hadvance.congr rfl rfl rfl fun _ _ => .inl

/-- **Every step keeps a session coherent.** -/
theorem Step.coherent (h : Step named t t') (ht : t.Coherent named) : t'.Coherent named := by
  cases h with
  | works h => exact h.coherent ht
  | @hears identity c bytes hc =>
    have hcontinues := c.continues_receive bytes
    exact ht.advance hc hcontinues.id hcontinues.config ((ht.sound identity c hc).receive bytes)
  | activates hc pending answered wire => exact ht.activated hc answered _
  | launches => exact ht.launching _
  | enters free => exact (ht.entered _ _).congr rfl rfl rfl fun _ _ => .inl

theorem Steps.coherent (h : Steps named t t') (ht : t.Coherent named) : t'.Coherent named := by
  induction h with
  | refl => exact ht
  | tail _ hstep ih => exact hstep.coherent ih

theorem Works.steps (h : Works named t t') : Steps named t t' :=
  Relation.ReflTransGen.mono (fun _ _ h => Step.works h) _ _ h

end Turn
end LanguageClient
