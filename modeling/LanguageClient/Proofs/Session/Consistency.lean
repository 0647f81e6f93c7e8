import LanguageClient.Proofs.Session.Handshake

/-!
# The tables of a session

A session keeps what it knows in several tables, and every operation leaves them in agreement
(`Session.Consistent`): what servers said that they can do is kept of the active ones, documents are
open and diagnostics kept where a server takes them, views are listed with the documents that they
show, and logs are those of the present launches. `Step.aligned` is the step lemma for all tables;
that pending connections owe the answer to their handshake holds between events only, and comes from
`Turn.Unanswered.run`.
-/

namespace LanguageClient

/-- Which documents a server takes does not hang on how their paths are written. -/
theorem ServerConfig.serves_of_place_eq (config : ServerConfig) {path other : Path}
    (h : path.place = other.place) : config.serves path = config.serves other := by
  have hlanguage : path.language = other.language := by
    simp only [Path.language, Path.extension, Path.fileName, h]
  rw [serves, serves, hlanguage]

namespace Connection

variable {named : Path → Prop} {text : Path → Option String} {quiet : Place → Prop}
  {c c' : Connection} {messages : List Json}

/-- Whether a connection is active and takes each document that it has open. -/
def Serves (c : Connection) : Prop :=
  ∀ path, c.documents.isOpen path = true → c.isActive = true ∧ c.config.serves path = true

/-- A connection that has no other documents open takes those that it has. -/
theorem Serves.of_isOpen (h : c.Serves) (hconfig : c'.config = c.config) (hstate : c'.state = c.state)
    (hopen : ∀ path, c'.documents.isOpen path = true → c.documents.isOpen path = true) :
    c'.Serves := by
  intro path hpath
  rw [isActive, hstate, hconfig]
  exact h path (hopen path hpath)

theorem Acts.serves (h : Acts named text quiet c messages c') (hc : c.Serves) : c'.Serves := by
  cases h with
  | @opens path s language n documents active serves name htext hopen =>
    intro other hother
    rcases (DocumentTable.contains_openDocument hopen other.place).1 hother with hplace | hother
    · exact ⟨active, (c.config.serves_of_place_eq hplace) ▸ serves⟩
    · exact hc other hother
  | closes name cleared hclose =>
    exact hc.of_isOpen rfl rfl fun other hother =>
      ((DocumentTable.contains_close hclose other.place).1 hother).2
  | asks kind settings b name known =>
    rw [sendRequest_snd]
    exact hc
  | parts =>
    rw [shutdown_same]
    exact hc

/-- A document that is not quiet is not closed. -/
theorem Acts.keeps (h : Acts named text quiet c messages c') {place : Place}
    (hplace : ¬ quiet place) (hopen : c.documents.documents.contains place = true) :
    c'.documents.documents.contains place = true := by
  cases h with
  | opens active serves name htext hopened =>
    exact (DocumentTable.contains_openDocument hopened place).2 (.inr hopen)
  | closes name cleared hclose =>
    refine (DocumentTable.contains_close hclose place).2 ⟨?_, hopen⟩
    rintro rfl
    exact hplace cleared
  | asks kind settings b name known =>
    rw [sendRequest_snd]
    exact hopen
  | parts =>
    rw [shutdown_same]
    exact hopen

end Connection

namespace Session

/-- What the tables of a session agree on at every step. -/
structure Aligned (s : Session) : Prop where
  running : ∀ identity c, s.connections.get? identity = some c → c.state ≠ .stopped
  serves : ∀ identity c, s.connections.get? identity = some c → c.Serves
  capable : ∀ identity, s.capabilities.contains identity = s.isActive identity
  diagnosed : ∀ identity place entry, s.diagnostics.entries.get? (identity, place) = some entry →
    entry.path.place = place ∧ entry.diagnostics ≠ [] ∧
      ∃ c, s.connections.get? identity = some c ∧ c.documents.documents.contains place = true
  views : s.views.Sound
  logged : ∀ identity c, s.connections.get? identity = some c →
    ∃ log, s.logs.get? identity = some log ∧ log.connection = c.id

variable {s : Session} {identity : String} {c c' : Connection}

theorem get?_set_cases {other : String} {d : Connection}
    (h : (s.connections.set identity c).get? other = some d) :
    (other = identity ∧ d = c) ∨ (other ≠ identity ∧ s.connections.get? other = some d) := by
  rw [Table.get?_set] at h
  split at h
  · next heq => exact .inl ⟨heq.symm, (Option.some.inj h).symm⟩
  · next hne => exact .inr ⟨Ne.symm hne, h⟩

theorem isActive_set (s : Session) (identity other : String) (c : Connection) :
    isActive { s with connections := s.connections.set identity c } other =
      if identity = other then c.isActive else s.isActive other := by
  simp only [isActive, Table.get?_set]
  by_cases h : identity = other
  · simp only [if_pos h]
  · simp only [if_neg h]

theorem isActive_of_get? (h : s.connections.get? identity = some c) :
    s.isActive identity = c.isActive := by
  simp only [isActive, h]

/-- A connection may go on while the documents that have diagnostics stay open. -/
theorem Aligned.set (h : s.Aligned) (hc : s.connections.get? identity = some c)
    (hid : c'.id = c.id) (hstate : c'.state = c.state) (hserves : c'.Serves)
    (hkeeps : ∀ place, s.diagnostics.entries.contains (identity, place) = true →
      c.documents.documents.contains place = true → c'.documents.documents.contains place = true) :
    Aligned { s with connections := s.connections.set identity c' } where
  running other d hd := by
    rcases get?_set_cases hd with ⟨-, rfl⟩ | ⟨-, hd⟩
    · rw [hstate]
      exact h.running identity c hc
    · exact h.running other d hd
  serves other d hd := by
    rcases get?_set_cases hd with ⟨-, rfl⟩ | ⟨-, hd⟩
    · exact hserves
    · exact h.serves other d hd
  capable other := by
    rw [isActive_set]
    split
    · next heq =>
      obtain rfl := heq
      rw [Connection.isActive, hstate]
      exact (h.capable identity).trans (isActive_of_get? hc)
    · exact h.capable other
  diagnosed other place entry hentry := by
    obtain ⟨hpath, hne, d, hd, hopen⟩ := h.diagnosed other place entry hentry
    refine ⟨hpath, hne, ?_⟩
    by_cases heq : identity = other
    · obtain rfl := heq
      obtain rfl := Option.some.inj (hc.symm.trans hd)
      refine ⟨c', Table.get?_set_self _ _ _, hkeeps place ?_ hopen⟩
      rw [Table.contains, hentry, Option.isSome_some]
    · exact ⟨d, (Table.get?_set_of_ne _ _ heq).trans hd, hopen⟩
  views := h.views
  logged other d hd := by
    rcases get?_set_cases hd with ⟨rfl, rfl⟩ | ⟨-, hd⟩
    · rw [hid]
      exact h.logged other c hc
    · exact h.logged other d hd

/-- A connection that ends takes along what was kept of it, but for its log. -/
theorem Aligned.erase (h : s.Aligned) (identity : String) :
    Aligned { s with
      connections := s.connections.erase identity
      capabilities := s.capabilities.erase identity
      diagnostics := (s.diagnostics.removeConnection identity).2 } := by
  have hbefore : ∀ {other d}, (s.connections.erase identity).get? other = some d →
      s.connections.get? other = some d := by
    intro other d hd
    rw [Table.get?_erase] at hd
    split at hd
    · cases hd
    · exact hd
  refine ⟨fun other d hd => h.running other d (hbefore hd),
    fun other d hd => h.serves other d (hbefore hd), fun other => ?_,
    fun other place entry hentry => ?_, h.views, fun other d hd => h.logged other d (hbefore hd)⟩
  · simp only [isActive, Table.contains, Table.get?_erase]
    split
    · rfl
    · exact h.capable other
  · rw [DiagnosticStore.get?_removeConnection] at hentry
    split at hentry
    · cases hentry
    · next hne =>
      obtain ⟨hpath, hnonempty, d, hd, hopen⟩ := h.diagnosed other place entry hentry
      exact ⟨hpath, hnonempty, d, (Table.get?_erase_of_ne _ (Ne.symm hne)).trans hd, hopen⟩

/-- A connection becomes active with what its server said that it can do. -/
theorem Aligned.activate (h : s.Aligned) (hc : s.connections.get? identity = some c)
    (capabilities : ServerCapabilities) :
    Aligned { s with
      connections := s.connections.set identity { c with state := .active }
      capabilities := s.capabilities.set identity capabilities } where
  running other d hd := by
    rcases get?_set_cases hd with ⟨-, rfl⟩ | ⟨-, hd⟩
    · simp
    · exact h.running other d hd
  serves other d hd := by
    rcases get?_set_cases hd with ⟨-, rfl⟩ | ⟨-, hd⟩
    · exact fun path hopen => ⟨rfl, (h.serves identity c hc path hopen).2⟩
    · exact h.serves other d hd
  capable other := by
    have hactive := isActive_set s identity other { c with state := .active }
    refine Eq.trans ?_ hactive.symm
    rw [Table.contains, Table.get?_set]
    split
    · rfl
    · exact h.capable other
  diagnosed other place entry hentry := by
    obtain ⟨hpath, hne, d, hd, hopen⟩ := h.diagnosed other place entry hentry
    refine ⟨hpath, hne, ?_⟩
    by_cases heq : identity = other
    · obtain rfl := heq
      obtain rfl := Option.some.inj (hc.symm.trans hd)
      exact ⟨_, Table.get?_set_self _ _ _, hopen⟩
    · exact ⟨d, (Table.get?_set_of_ne _ _ heq).trans hd, hopen⟩
  views := h.views
  logged other d hd := by
    rcases get?_set_cases hd with ⟨rfl, rfl⟩ | ⟨-, hd⟩
    · exact h.logged other c hc
    · exact h.logged other d hd

theorem get?_of_ensureAvailable (h : s.Aligned)
    (hfree : Registry.ensureAvailable s.connections identity = .ok ()) :
    s.connections.get? identity = none := by
  unfold Registry.ensureAvailable at hfree
  split at hfree
  · next c hc =>
    rw [if_neg (h.running identity c hc)] at hfree
    cases hfree
  · assumption

/-- A new connection is entered with an empty log under an identity that is free. -/
theorem Aligned.enter (h : s.Aligned) (hfree : s.connections.get? identity = none)
    (hstate : c.state = .pending) (hdocuments : c.documents = .empty) (limit : Nat) :
    Aligned { s with
      connections := s.connections.set identity c
      logs := s.logs.set identity (ServerLog.new c.id limit) } where
  running other d hd := by
    rcases get?_set_cases hd with ⟨-, rfl⟩ | ⟨-, hd⟩
    · simp [hstate]
    · exact h.running other d hd
  serves other d hd := by
    rcases get?_set_cases hd with ⟨-, rfl⟩ | ⟨-, hd⟩
    · intro path hopen
      rw [hdocuments] at hopen
      cases hopen
    · exact h.serves other d hd
  capable other := by
    refine Eq.trans ?_ (isActive_set s identity other c).symm
    split
    · next heq =>
      have hnone : s.isActive identity = false := by simp only [isActive, hfree]
      rw [← heq, Connection.isActive, hstate]
      exact (h.capable identity).trans hnone
    · exact h.capable other
  diagnosed other place entry hentry := by
    obtain ⟨hpath, hne, d, hd, hopen⟩ := h.diagnosed other place entry hentry
    refine ⟨hpath, hne, d, ?_, hopen⟩
    by_cases heq : identity = other
    · obtain rfl := heq
      rw [hfree] at hd
      cases hd
    · exact (Table.get?_set_of_ne _ _ heq).trans hd
  views := h.views
  logged other d hd := by
    rcases get?_set_cases hd with ⟨rfl, rfl⟩ | ⟨hne, hd⟩
    · exact ⟨_, Table.get?_set_self _ _ _, rfl⟩
    · obtain ⟨log, hlog, hid⟩ := h.logged other d hd
      exact ⟨log, (Table.get?_set_of_ne _ _ (Ne.symm hne)).trans hlog, hid⟩

/-- Diagnostics are kept of a document that is open. -/
theorem Aligned.publish (h : s.Aligned) (hc : s.connections.get? identity = some c) {path : Path}
    (hknown : c.documents.isOpen path = true) (diagnostics : List Diagnostic) :
    Aligned { s with diagnostics := s.diagnostics.replace identity path diagnostics } := by
  refine ⟨h.running, h.serves, h.capable, fun other place entry hentry => ?_, h.views, h.logged⟩
  rw [DiagnosticStore.get?_replace] at hentry
  split at hentry
  · next hkey =>
    cases hkey
    split at hentry
    · cases hentry
    · next hsome =>
      cases hentry
      refine ⟨?_, fun hnil => hsome (List.isEmpty_iff.2 hnil), c, hc, hknown⟩
      cases hbefore : s.diagnostics.entries.get? (identity, path.place) with
      | none => rfl
      | some before => exact (h.diagnosed identity path.place before hbefore).1
  · exact h.diagnosed other place entry hentry

theorem Aligned.forget (h : s.Aligned) (path : Path) :
    Aligned { s with diagnostics := s.diagnostics.removePath path } := by
  refine ⟨h.running, h.serves, h.capable, fun other place entry hentry => ?_, h.views, h.logged⟩
  rw [DiagnosticStore.get?_removePath] at hentry
  split at hentry
  · cases hentry
  · exact h.diagnosed other place entry hentry

theorem Aligned.withViews (h : s.Aligned) {views : ViewTable} (hviews : views.Sound) :
    Aligned { s with views := views } :=
  ⟨h.running, h.serves, h.capable, h.diagnosed, hviews, h.logged⟩

/-- A log grows without becoming that of another launch. -/
theorem Aligned.log (h : s.Aligned) {log : ServerLog} (hlog : s.logs.get? identity = some log)
    (bytes : Bytes) : Aligned { s with logs := s.logs.set identity (log.append bytes) } := by
  refine ⟨h.running, h.serves, h.capable, h.diagnosed, h.views, fun other d hd => ?_⟩
  obtain ⟨found, hfound, hid⟩ := h.logged other d hd
  by_cases heq : identity = other
  · obtain rfl := heq
    obtain rfl := Option.some.inj (hlog.symm.trans hfound)
    exact ⟨_, Table.get?_set_self _ _ _, hid⟩
  · exact ⟨found, (Table.get?_set_of_ne _ _ heq).trans hfound, hid⟩

end Session

namespace Turn

variable {named : Path → Prop} {t t' : Turn} {path : Path} {changes : List ContentChange}

/-! ## Steps -/

theorem aligned_syncChangesTo (h : t.session.Aligned) (path : Path) (changes : List ContentChange)
    (identity : String) : (t.syncChangesTo path changes identity).session.Aligned := by
  rcases syncChangesTo_cases t path changes identity with ⟨heq, -⟩ |
    ⟨c, wanted, n, documents, hc, -, -, hchange, heq⟩
  · rw [heq]
    exact h
  · rw [heq]
    refine h.set hc rfl rfl ?_ fun place _ hopen => ?_
    · refine (h.serves identity c hc).of_isOpen rfl rfl fun other hother => ?_
      exact (DocumentTable.contains_change hchange other.place).symm.trans hother
    · exact (DocumentTable.contains_change hchange place).trans hopen

theorem aligned_syncChanges (h : t.session.Aligned) (path : Path) (changes : List ContentChange) :
    (t.syncChanges path changes).session.Aligned :=
  List.foldlRecOn (motive := fun u : Turn => u.session.Aligned) _ _ h
    fun _ hu identity _ => aligned_syncChangesTo hu path changes identity

theorem Work.aligned (h : Work named t t') (ht : t.session.Aligned) : t'.session.Aligned := by
  cases h with
  | tells | halts | saves => exact ht
  | focuses focused =>
    exact ⟨ht.running, ht.serves, ht.capable, ht.diagnosed, ht.views, ht.logged⟩
  | binds name free => exact ht.withViews (ht.views.bind free)
  | unbinds h => exact ht.withViews (ht.views.unbind h)
  | publishes hc known => exact ht.publish hc known _
  | forgets => exact ht.forget _
  | logs h => exact ht.log h _
  | @acts identity c c' messages hc h =>
    have hpersists := h.persists
    refine ht.set hc hpersists.id hpersists.state (h.serves (ht.serves identity c hc))
      fun place hentry => h.keeps fun hquiet => ?_
    rw [Table.contains, hquiet identity] at hentry
    cases hentry
  | ends => exact ht.erase _
  | resyncs => exact aligned_syncChanges ht _ _
  | @rewrites path b text cursor =>
    exact aligned_syncChanges (t := t.replaceDocument path text cursor) ht path [.full text]

theorem aligned_launching (h : t.session.Aligned) (config : ServerConfig) :
    (t.launching config).session.Aligned :=
  ⟨h.running, h.serves, h.capable, h.diagnosed, h.views, h.logged⟩

theorem aligned_entered (h : t.session.Aligned) {config : ServerConfig} (wireOpen : Bool)
    (free : Registry.ensureAvailable t.session.connections config.identity = .ok ()) :
    ((t.entered config wireOpen).withLog config t.session.nextConnection).session.Aligned := by
  have hsame := t.newcomer_snd config wireOpen
  have hstate : (t.newcomer config wireOpen).2.state = .pending := by
    rw [hsame]
    rfl
  have hdocuments : (t.newcomer config wireOpen).2.documents = .empty := by
    rw [hsame]
    rfl
  have hfree : t.session.connections.get? config.identity = none :=
    Session.get?_of_ensureAvailable h free
  have hentered := (aligned_launching h config).enter hfree hstate hdocuments
    t.session.settings.logLimit
  rw [newcomer_id] at hentered
  exact hentered

theorem Step.aligned (h : Step named t t') (ht : t.session.Aligned) : t'.session.Aligned := by
  cases h with
  | works h => exact h.aligned ht
  | @hears identity c bytes hc =>
    have hdocuments := c.documents_receive bytes
    have hcontinues := c.continues_receive bytes
    have hstate := c.state_receive bytes
    refine ht.set hc hcontinues.id hstate ?_ fun place _ hopen => hdocuments ▸ hopen
    exact (ht.serves identity c hc).of_isOpen hcontinues.config hstate fun _ h => hdocuments ▸ h
  | activates hc => exact ht.activate hc _
  | @launches config => exact aligned_launching ht config
  | @enters config wireOpen free => exact aligned_entered ht wireOpen free

theorem Steps.aligned (h : Steps named t t') (ht : t.session.Aligned) : t'.session.Aligned := by
  induction h with
  | refl => exact ht
  | tail _ hstep ih => exact hstep.aligned ih

/-! ## Runs -/

theorem aligned_move (h : t.session.Aligned) (ht : t.Coherent named) {m : Move}
    (hm : m.Names named) : (t.move m).session.Aligned := by
  rcases move_cases ht hm with ⟨buffers, path, changes, -, heq⟩ | ⟨buffers, heq⟩ | hsteps |
    ⟨c, hc, heq⟩
  · rw [heq]
    exact aligned_syncChanges (t := { t with buffers := buffers }) h path changes
  · rw [heq]
    exact h
  · exact hsteps.aligned h
  · rw [heq]
    exact h.set hc rfl rfl (h.serves c.identity c hc) fun _ _ hopen => hopen

theorem aligned_run (h : t.session.Aligned) (ht : t.Coherent named) {moves : List Move}
    (hmoves : ∀ m ∈ moves, m.Names named) : (t.run moves).session.Aligned :=
  ht.holds_run (P := fun u => u.session.Aligned) hmoves
    (fun _ m hm hu hbefore => aligned_move hbefore hu (hmoves m hm)) h

end Turn

theorem Session.aligned_new (root : Path) (settings : Settings) (processId : Nat)
    (catalog : Catalog) : (Session.new root settings processId catalog).Aligned where
  running _ _ h := by cases h
  serves _ _ h := by cases h
  capable _ := rfl
  diagnosed _ _ _ h := by cases h
  views := ViewTable.sound_empty
  logged _ _ h := by cases h

/-- What the tables of a session say together. -/
structure Session.Consistent (s : Session) : Prop where
  /-- Every connection is registered under its own identity. -/
  keyed : ∀ identity c, s.connections.get? identity = some c → c.identity = identity
  /-- No connection that was stopped is registered. -/
  running : ∀ identity c, s.connections.get? identity = some c → c.state = .pending ∨ c.state = .active
  /-- No two connections have one number. -/
  distinct : ∀ identity other c d, s.connections.get? identity = some c →
    s.connections.get? other = some d → c.id = d.id → identity = other
  /-- The next number is above all those of connections. -/
  fresh : ∀ identity c, s.connections.get? identity = some c → c.id < s.nextConnection
  /-- A connection is pending as long as its handshake is not answered. -/
  pending : ∀ identity c, s.connections.get? identity = some c →
    (c.state = .pending ↔ c.OwesHandshake)
  /-- Capabilities are kept of the servers that are active. -/
  capable : ∀ identity, s.capabilities.contains identity = s.isActive identity
  /-- Documents are open on active connections, which take them. -/
  serves : ∀ identity c path, s.connections.get? identity = some c →
    c.documents.isOpen path = true → c.isActive = true ∧ c.config.serves path = true
  /-- Diagnostics are kept, if there are any, of documents that are open on an active connection. -/
  diagnosed : ∀ identity place entry, s.diagnostics.entries.get? (identity, place) = some entry →
    entry.path.place = place ∧ entry.diagnostics ≠ [] ∧
      ∃ c, s.connections.get? identity = some c ∧ c.isActive = true ∧
        c.documents.isOpen entry.path = true
  /-- A view is listed with a document when it shows it, and once; no list is empty. -/
  views : s.views.Sound
  /-- Each connection has a log, which is that of its own launch. -/
  logged : ∀ identity c, s.connections.get? identity = some c →
    ∃ log, s.logs.get? identity = some log ∧ log.connection = c.id

namespace Turn

variable {named : Path → Prop} {t : Turn}

/-- **The tables of a session agree after every run.** -/
theorem consistent_run (root : Path) (settings : Settings) (processId : Nat) (catalog : Catalog)
    (buffers : Buffers) (moves : List Move) :
    (run ⟨.new root settings processId catalog, buffers, []⟩ moves).session.Consistent := by
  have hstart : Coherent (fun _ => True) ⟨.new root settings processId catalog, buffers, []⟩ :=
    coherent_new root settings processId catalog buffers
  have hnames : ∀ m ∈ moves, m.Names fun _ => True := fun m _ => names_true m
  have ht := hstart.run hnames
  have haligned := aligned_run (Session.aligned_new root settings processId catalog) hstart hnames
  have hunanswered : Unanswered ⟨.new root settings processId catalog, buffers, []⟩ :=
    fun _ _ h => by cases h
  have howes := hunanswered.run hstart hnames
  refine ⟨ht.keyed, fun identity c hc => ?_, ht.distinct, ht.fresh, fun identity c hc => ⟨?_, ?_⟩,
    haligned.capable, fun identity c path hc => haligned.serves identity c hc path, ?_,
    haligned.views, haligned.logged⟩
  · have hrunning := haligned.running identity c hc
    cases hstate : c.state with
    | pending => exact .inl rfl
    | active => exact .inr rfl
    | stopped => exact absurd hstate hrunning
  · exact howes identity c hc
  · rintro ⟨n, request, hn, hmethod⟩
    exact ((ht.sound identity c hc).handshake n request hn hmethod).2
  · intro identity place entry hentry
    obtain ⟨hpath, hne, c, hc, hopen⟩ := haligned.diagnosed identity place entry hentry
    rw [← hpath] at hopen
    exact ⟨hpath, hne, c, hc, (haligned.serves identity c hc entry.path hopen).1, hopen⟩

end Turn
end LanguageClient
