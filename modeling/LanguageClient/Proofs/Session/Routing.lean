import LanguageClient.Proofs.Session.Lasting
import LanguageClient.Proofs.Session.Mirror

/-!
# Where requests go

A request about a document goes to the servers that can answer it: those that are active, take the
document and said that they provide the feature. `Turn.chooses_targets` says which these are and in
which order they are asked, `Turn.askAll_append` what asking those does whose wires take messages.
From both follows what a request leads to while all wires are open (`Turn.routes_request`).
-/

namespace LanguageClient

namespace DocumentTable

/-- What a server is told of a document that it gets to know. -/
def introduction (path : Path) (text : String) : Notification :=
  let item := Json.object (identifier path ++
    [("languageId", .str (path.language.getD "plaintext")), ("version", .int 1),
      ("text", .str text)])
  .new Wire.didOpen (some (Json.object [("textDocument", item)]))

theorem openDocument_eq {t : DocumentTable} {path : Path} (h : t.isOpen path = false)
    (text : String) : t.openDocument path text (path.language.getD "plaintext") =
      some (introduction path text, ⟨t.documents.set path.place ⟨path, 1⟩⟩) := by
  rw [openDocument, h]
  rfl

end DocumentTable

namespace Connection

variable {c : Connection}

/-- What is written to a server that is asked about a document: the request, and before it the
document if the server does not have it open. -/
def inquiry (c : Connection) (kind : RequestKind) (path : Path) (params : Json) (text : String) :
    List Json :=
  (if c.documents.isOpen path then [] else [(DocumentTable.introduction path text).toJson]) ++
    [(Request.new c.requests.nextId kind.capability.method.name (some params)).toJson]

/-- The connection of a server that was asked about a document. -/
def inquired (c : Connection) (kind : RequestKind) (path : Path) : Connection :=
  { c with
    documents := if c.documents.isOpen path then c.documents
      else ⟨c.documents.documents.set path.place ⟨path, 1⟩⟩
    requests := ⟨c.requests.nextId + 1,
      c.requests.requests.set c.requests.nextId ⟨kind.capability.method, some path⟩⟩ }

end Connection

namespace Turn

variable {named : Path → Prop} {t u : Turn} {kind : RequestKind} {path : Path} {params : Json}
  {text identity : String} {c : Connection} {identities : List String}

/-! ## Servers that can answer -/

/-- Whether a server said when it was initialized that it provides a feature. -/
def Advertises (t : Turn) (identity : String) (feature : Capability) : Prop :=
  ∃ capabilities v, t.session.capabilities.get? identity = some capabilities ∧
    capabilities.raw.get? feature.providerKey = some v ∧ v ≠ .null ∧ v ≠ .bool false

/-- Whether a server can be asked about a document. -/
def CanAnswer (t : Turn) (kind : RequestKind) (path : Path) (identity : String) : Prop :=
  t.Takes path identity ∧ t.Advertises identity kind.capability

/-- Whether a request about a document goes to a server. If the answer edits the document, it goes
to the first one only. -/
def Selects (t : Turn) (kind : RequestKind) (path : Path) (identity : String) : Prop :=
  t.CanAnswer kind path identity ∧
    (kind.editsDocument = true → ∀ other, t.CanAnswer kind path other → identity ≤ other)

theorem supports_iff {feature : Capability} :
    CapabilityTable.supports t.session.capabilities identity feature = true ↔
      t.Advertises identity feature := by
  unfold CapabilityTable.supports Advertises
  cases t.session.capabilities.get? identity with
  | none => simp
  | some capabilities =>
    cases hv : capabilities.raw.get? feature.providerKey with
    | none => simp [ServerCapabilities.supports, hv]
    | some v => cases v <;> simp [ServerCapabilities.supports, hv]

/-- The servers that can answer, in order of identity. -/
def able (t : Turn) (kind : RequestKind) (path : Path) : List String :=
  (((Registry.active t.session.connections).filter (·.config.serves path)).map
    (·.identity)).filter fun identity =>
      CapabilityTable.supports t.session.capabilities identity kind.capability

theorem mem_able (h : t.Coherent named) :
    identity ∈ t.able kind path ↔ t.CanAnswer kind path identity := by
  rw [able, List.mem_filter, mem_serving h path, supports_iff, CanAnswer]

/-- Identities come in the order of the registry. -/
theorem pairwise_able (h : t.Coherent named) : (t.able kind path).Pairwise (· < ·) := by
  have hkeys : t.session.connections.values.Pairwise fun c d => c.identity < d.identity := by
    rw [Table.values, List.pairwise_map]
    refine t.session.connections.sorted.imp_of_mem fun {a b} ha hb hab => ?_
    rw [h.keyed a.1 a.2 (Table.mem_entries_iff.1 ha), h.keyed b.1 b.2 (Table.mem_entries_iff.1 hb)]
    exact of_decide_eq_true hab
  refine List.Pairwise.filter _ (List.pairwise_map.2 ?_)
  exact (hkeys.filter _).filter _

theorem mem_take_one {l : List String} (hl : l.Pairwise (· < ·)) :
    identity ∈ l.take 1 ↔ identity ∈ l ∧ ∀ other ∈ l, identity ≤ other := by
  cases l with
  | nil => simp
  | cons first rest =>
    rw [List.pairwise_cons] at hl
    rw [List.take_succ_cons, List.take_zero, List.mem_singleton]
    simp only [List.mem_cons]
    constructor
    · rintro rfl
      refine ⟨.inl rfl, ?_⟩
      rintro other (rfl | hother)
      · exact String.le_refl _
      · exact String.not_lt.1 (String.lt_asymm (hl.1 other hother))
    · rintro ⟨rfl | hmem, hleast⟩
      · rfl
      · exact absurd (hl.1 identity hmem) (String.not_lt.2 (hleast first (.inl rfl)))

/-- The servers that are asked if any can answer, in order of identity. -/
def chosen (t : Turn) (kind : RequestKind) (path : Path) : List String :=
  if kind.editsDocument then (t.able kind path).take 1 else t.able kind path

theorem mem_chosen (h : t.Coherent named) :
    identity ∈ t.chosen kind path ↔ t.Selects kind path identity := by
  unfold chosen Selects
  split
  · next hedits =>
    rw [mem_take_one (pairwise_able h)]
    simp only [mem_able h, hedits, forall_const]
  · next hedits => simp [mem_able h, hedits]

theorem pairwise_chosen (h : t.Coherent named) : (t.chosen kind path).Pairwise (· < ·) := by
  unfold chosen
  split
  · exact (pairwise_able h).sublist (List.take_sublist 1 _)
  · exact pairwise_able h

/-- Where a server can answer, one is asked. -/
theorem exists_selects (h : t.Coherent named) (hable : t.able kind path ≠ []) :
    ∃ identity, t.Selects kind path identity := by
  have hne : t.chosen kind path ≠ [] := by
    unfold chosen
    split
    · simpa using hable
    · exact hable
  obtain ⟨identity, hidentity⟩ := List.exists_mem_of_ne_nil _ hne
  exact ⟨identity, (mem_chosen h).1 hidentity⟩

/-- The ways in which the servers to ask are chosen. -/
inductive Chooses (t : Turn) (kind : RequestKind) (path : Path) :
    Except Failure (List String) → Prop where
  | unserved (hnone : ∀ identity, ¬ t.Takes path identity) :
      Chooses t kind path (.error (.noActiveServer path.text))
  | unable (hserved : ∃ identity, t.Takes path identity)
      (hnone : ∀ identity, ¬ t.CanAnswer kind path identity) :
      Chooses t kind path (.error (.featureNotSupported kind.capability.displayName))
  | asks {identities : List String} (hsome : ∃ identity, t.Selects kind path identity)
      (hmem : ∀ identity, identity ∈ identities ↔ t.Selects kind path identity)
      (hsorted : identities.Pairwise (· < ·)) : Chooses t kind path (.ok identities)

/-- **The servers that are asked are those that can answer, in order.** -/
theorem chooses_targets (h : t.Coherent named) (kind : RequestKind) (path : Path) :
    t.Chooses kind path (t.targets kind path) := by
  have hserving : ∀ identity, identity ∈ _ ↔ t.Takes path identity := fun _ => mem_serving h path
  have hable : ∀ identity, identity ∈ t.able kind path ↔ t.CanAnswer kind path identity :=
    fun identity => mem_able h
  change t.Chooses kind path (if _ then _ else if (t.able kind path).isEmpty then _ else
    .ok (t.chosen kind path))
  split
  · next hempty =>
    rw [List.isEmpty_iff] at hempty
    refine .unserved fun identity htakes => ?_
    rw [← hserving, hempty] at htakes
    cases htakes
  · next hserved =>
    rw [List.isEmpty_iff] at hserved
    obtain ⟨c, hc⟩ := List.exists_mem_of_ne_nil _ hserved
    have htakes : t.Takes path c.identity := (hserving _).1 (List.mem_map_of_mem hc)
    split
    · next hempty =>
      rw [List.isEmpty_iff] at hempty
      refine .unable ⟨c.identity, htakes⟩ fun identity hanswer => ?_
      rw [← hable, hempty] at hanswer
      cases hanswer
    · next hsome =>
      rw [List.isEmpty_iff] at hsome
      exact .asks (exists_selects h hsome) (fun _ => mem_chosen h) (pairwise_chosen h)

/-! ## Asking -/

theorem advance_advance (t : Turn) (identity : String) {c d : Connection} (hid : d.id = c.id)
    (messages more : List Json) : (t.advance identity c messages).advance identity d more =
      t.advance identity d (messages ++ more) := by
  simp only [advance, keep, write, Table.set_set, hid, List.map_append, List.append_assoc]

/-- Whether a question about a document gets to a server. -/
def Reaches (t : Turn) (path : Path) (identity : String) : Prop :=
  ∃ c, t.connection identity = some c ∧ c.isActive = true ∧ c.config.serves path = true ∧
    c.wireOpen = true

/-- Asking a server writes the inquiry to it. -/
theorem ask_of_accepts (hc : t.connection identity = some c) (hactive : c.isActive = true)
    (hserves : c.config.serves path = true) (hwire : c.wireOpen = true)
    (htext : t.bufferText path = some text) (kind : RequestKind) (params : Json) :
    t.ask kind path params identity =
      (none, t.advance identity (c.inquired kind path) (c.inquiry kind path params text)) := by
  have haccepts := Connection.accepts_of_isActive hactive hwire
  cases hopen : c.documents.isOpen path with
  | true =>
    have hsame : t.openDocument identity path = t := by simp [openDocument, hc, hopen]
    simp only [ask, hsame, hc, Connection.sendRequest, Connection.write, haccepts]
    simp [PendingTable.register, advance, Connection.inquired, Connection.inquiry, hopen]
  | false =>
    let d : Connection :=
      { c with documents := ⟨c.documents.documents.set path.place ⟨path, 1⟩⟩ }
    have hopened : t.openDocument identity path =
        t.advance identity d [(DocumentTable.introduction path text).toJson] := by
      simp only [openDocument, hc, hactive, hopen, hserves, htext,
        DocumentTable.openDocument_eq hopen, notify_keep]
      exact congrArg (t.advance identity d) (Connection.sent_of_accepts (c := d) haccepts _)
    have hd : (t.openDocument identity path).connection identity = some d := by
      rw [hopened, connection_advance, if_pos rfl]
    have haccepts' : d.accepts = true := haccepts
    have hasked := advance_advance t identity (c := d) (d := c.inquired kind path) rfl
      [(DocumentTable.introduction path text).toJson]
      [(Request.new c.requests.nextId kind.capability.method.name (some params)).toJson]
    simp only [ask, hd, Connection.sendRequest, Connection.write, haccepts', if_true]
    simp only [Connection.inquiry, hopen, Bool.false_eq_true, if_false]
    rw [hopened, ← hasked]
    simp [advance, Connection.inquired, PendingTable.register, hopen, d]

/-- A server that cannot be written to gets nothing, and asking it fails. -/
theorem ask_of_not_accepts (hc : t.connection identity = some c) (h : c.accepts = false)
    (kind : RequestKind) (path : Path) (params : Json) :
    (t.ask kind path params identity).1 = some .notConnected ∧
      (t.ask kind path params identity).2.effects = t.effects := by
  have hopened : ∃ d, (t.openDocument identity path).connection identity = some d ∧
      d.accepts = false ∧ (t.openDocument identity path).effects = t.effects := by
    rcases openDocument_cases t identity path with heq |
      ⟨d, s, language, n, documents, hd, -, -, -, -, heq⟩
    · exact ⟨c, by rw [heq, hc], h, by rw [heq]⟩
    · obtain rfl := Option.some.inj (hc.symm.trans hd)
      refine ⟨{ c with documents := documents }, ?_, h, ?_⟩
      · rw [heq, connection_advance, if_pos rfl]
      · rw [heq, Connection.sent_of_not_accepts h]
        simp [advance, write, keep]
  obtain ⟨d, hd, haccepts, heffects⟩ := hopened
  simp only [ask, hd, Connection.sendRequest, Connection.write, haccepts]
  exact ⟨rfl, heffects⟩

/-- What is written when a server is asked. -/
def inquiries (t : Turn) (kind : RequestKind) (path : Path) (params : Json) (text : String)
    (identity : String) : List Effect :=
  match t.connection identity with
  | some c => (c.inquiry kind path params text).map (.write c.id)
  | none => []

/-- A turn in which some servers were asked. -/
structure Inquired (kind : RequestKind) (path : Path) (params : Json) (text : String)
    (identities : List String) (t u : Turn) : Prop where
  connection : ∀ identity, u.connection identity =
    if identity ∈ identities then (t.connection identity).map (·.inquired kind path)
    else t.connection identity
  effects : u.effects = t.effects ++ identities.flatMap (t.inquiries kind path params text)
  rest : u = { t with
    session := { t.session with connections := u.session.connections }, effects := u.effects }

theorem inquired_nil (t : Turn) : Inquired kind path params text [] t t :=
  ⟨by simp, by simp, rfl⟩

theorem Inquired.cons (hc : t.connection identity = some c) (hnew : identity ∉ identities)
    (h : Inquired kind path params text identities
      (t.advance identity (c.inquired kind path) (c.inquiry kind path params text)) u) :
    Inquired kind path params text (identity :: identities) t u := by
  have hadvance := connection_advance t identity (c.inquired kind path)
    (c.inquiry kind path params text)
  refine ⟨fun other => ?_, ?_, ?_⟩
  · rw [h.connection, hadvance]
    by_cases heq : identity = other
    · subst heq
      simp [hnew, hc]
    · simp [heq, Ne.symm heq]
  · have hsame : identities.flatMap (inquiries (t.advance identity (c.inquired kind path)
          (c.inquiry kind path params text)) kind path params text) =
        identities.flatMap (t.inquiries kind path params text) := by
      refine List.flatMap_congr fun other hother => ?_
      have hne : identity ≠ other := fun heq => hnew (heq ▸ hother)
      rw [inquiries, hadvance, if_neg hne, inquiries]
    have hfirst : t.inquiries kind path params text identity =
        (c.inquiry kind path params text).map (.write c.id) := by rw [inquiries, hc]
    rw [h.effects, hsame, List.flatMap_cons, hfirst, ← List.append_assoc]
    rfl
  · rw [h.rest]
    rfl

/-- **Servers whose wires take messages are asked one after another.** -/
theorem askAll_append (htext : t.bufferText path = some text) (hnodup : identities.Nodup)
    (hreaches : ∀ identity ∈ identities, t.Reaches path identity) (kind : RequestKind)
    (params : Json) (rest : List String) :
    ∃ u, Inquired kind path params text identities t u ∧
      t.askAll kind path params (identities ++ rest) = u.askAll kind path params rest := by
  induction identities generalizing t with
  | nil => exact ⟨t, inquired_nil t, rfl⟩
  | cons identity identities ih =>
    obtain ⟨hnew, hnodup⟩ := List.nodup_cons.1 hnodup
    obtain ⟨c, hc, hactive, hserves, hwire⟩ := hreaches identity List.mem_cons_self
    have hask := ask_of_accepts hc hactive hserves hwire htext kind params
    have hothers : ∀ other ∈ identities, Reaches (t.advance identity (c.inquired kind path)
        (c.inquiry kind path params text)) path other := by
      intro other hother
      obtain ⟨d, hd, hd'⟩ := hreaches other (List.mem_cons_of_mem _ hother)
      have hne : identity ≠ other := fun heq => hnew (heq ▸ hother)
      exact ⟨d, by rw [connection_advance, if_neg hne, hd], hd'⟩
    obtain ⟨u, hu, heq⟩ := ih (t := t.advance identity (c.inquired kind path)
      (c.inquiry kind path params text)) htext hnodup hothers
    refine ⟨u, hu.cons hc hnew, ?_⟩
    rw [List.cons_append, askAll, hask]
    exact heq

/-! ## What a request leads to -/

theorem inquiries_eq (hc : t.connection identity = some c) :
    t.inquiries kind path params text identity =
      (c.inquiry kind path params text).map (.write c.id) := by
  rw [inquiries, hc]

/-- Nothing is written to a launch of a server that is not asked. -/
theorem messagesTo_inquiries_of_ne {id : ConnectionId}
    (h : ∀ identity c, identity ∈ identities → t.connection identity = some c → c.id ≠ id) :
    messagesTo id (identities.flatMap (t.inquiries kind path params text)) = [] := by
  rw [messagesTo, List.filterMap_flatMap, List.flatMap_eq_nil_iff]
  intro identity hmem
  cases hc : t.connection identity with
  | none =>
    rw [inquiries, hc]
    rfl
  | some c =>
    rw [inquiries_eq hc]
    exact (messagesTo_writes id c.id _).trans (if_neg (h identity c hmem hc))

/-- What is written to a server among those that are asked. -/
theorem messagesTo_inquiries (h : t.Coherent named) (hc : t.connection identity = some c)
    (hnodup : identities.Nodup) :
    messagesTo c.id (identities.flatMap (t.inquiries kind path params text)) =
      if identity ∈ identities then c.inquiry kind path params text else [] := by
  have hothers : ∀ rest : List String, identity ∉ rest →
      messagesTo c.id (rest.flatMap (t.inquiries kind path params text)) = [] := by
    intro rest hrest
    refine messagesTo_inquiries_of_ne fun other d hother hd hid => ?_
    exact hrest (h.distinct identity other c d hc hd hid.symm ▸ hother)
  split
  · next hmem =>
    obtain ⟨first, rest, rfl⟩ := List.append_of_mem hmem
    rw [List.nodup_middle, List.nodup_cons, List.mem_append, not_or] at hnodup
    rw [List.flatMap_append, List.flatMap_cons, messagesTo_append, messagesTo_append,
      hothers first hnodup.1.1, hothers rest hnodup.1.2, inquiries_eq hc, messagesTo_writes,
      if_pos rfl, List.nil_append, List.append_nil]
  · next hmem => exact hothers identities hmem

/-- What a request does once it is known whom to ask: those servers are asked, and nothing else
happens. -/
structure Routed (kind : RequestKind) (path : Path) (b : Buffer) (t t' : Turn) : Prop where
  asked : ∀ identity c, t.connection identity = some c → t.Selects kind path identity →
    t'.connection identity = some (c.inquired kind path) ∧
      t'.writtenTo c.id = t.writtenTo c.id ++
        c.inquiry kind path (requestParams t.session.settings kind path b) b.text
  others : ∀ identity, ¬ t.Selects kind path identity →
    t'.connection identity = t.connection identity
  unasked : ∀ id, (∀ identity c, t.Selects kind path identity → t.connection identity = some c →
    c.id ≠ id) → t'.writtenTo id = t.writtenTo id
  writes : ∃ more, t'.effects = t.effects ++ more ∧ ∀ e ∈ more, ∃ id message, e = .write id message
  rest : t' = { t with
    session := { t.session with connections := t'.session.connections }, effects := t'.effects }

/-- A turn in which the host was told of a failure. -/
def refused (t : Turn) (f : Failure) : Turn :=
  { t with effects := t.effects ++ [.tell (.notify f.level f.message)] }

/-- What a request leads to. -/
inductive Routes (t : Turn) (kind : RequestKind) (path : Path) : Turn → Prop where
  | unserved (hnone : ∀ identity, ¬ t.Takes path identity) :
      Routes t kind path (t.refused (.noActiveServer path.text))
  | unable (hserved : ∃ identity, t.Takes path identity)
      (hnone : ∀ identity, ¬ t.CanAnswer kind path identity) :
      Routes t kind path (t.refused (.featureNotSupported kind.capability.displayName))
  | missing (hsome : ∃ identity, t.Selects kind path identity) (hbuffer : t.buffer path = none) :
      Routes t kind path (t.refused (.missingBuffer path.text))
  | asks {b : Buffer} {t' : Turn} (hsome : ∃ identity, t.Selects kind path identity)
      (hbuffer : t.buffer path = some b) (h : Routed kind path b t t') : Routes t kind path t'

theorem Selects.reaches (h : t.Selects kind path identity)
    (hwires : ∀ identity c, t.connection identity = some c → c.wireOpen = true) :
    t.Reaches path identity := by
  obtain ⟨⟨⟨c, hc, hactive, hserves⟩, -⟩, -⟩ := h
  exact ⟨c, hc, hactive, hserves, hwires identity c hc⟩

theorem Inquired.routed {b : Buffer} (ht : t.Coherent named)
    (h : Inquired kind path (requestParams t.session.settings kind path b) b.text identities t u)
    (hmem : ∀ identity, identity ∈ identities ↔ t.Selects kind path identity)
    (hnodup : identities.Nodup) : Routed kind path b t u where
  asked identity c hc hselects := by
    have hidentity := (hmem identity).2 hselects
    refine ⟨by rw [h.connection, if_pos hidentity, hc, Option.map_some], ?_⟩
    rw [writtenTo_of_effects h.effects, messagesTo_inquiries ht hc hnodup, if_pos hidentity]
  others identity hselects := by
    rw [h.connection, if_neg fun hidentity => hselects ((hmem identity).1 hidentity)]
  unasked id hid := by
    rw [writtenTo_of_effects h.effects, messagesTo_inquiries_of_ne, List.append_nil]
    exact fun identity c hidentity => hid identity c ((hmem identity).1 hidentity)
  writes := by
    refine ⟨_, h.effects, fun e he => ?_⟩
    obtain ⟨identity, -, he⟩ := List.mem_flatMap.1 he
    unfold inquiries at he
    split at he
    · next c _ =>
      obtain ⟨message, -, rfl⟩ := List.mem_map.1 he
      exact ⟨c.id, message, rfl⟩
    · cases he
  rest := h.rest

/-- **A request goes to every server that can answer it**, or to the first one if its answer edits
the document, and where none can or the document is not there the host is told why. -/
theorem routes_request (h : t.Reached)
    (hwires : ∀ identity c, t.connection identity = some c → c.wireOpen = true)
    (launch : Launcher) (kind : RequestKind) (path : Path) :
    t.Routes kind path (t.act launch (.request kind path)) := by
  have ht := h.steady.coherent
  have hchooses := chooses_targets ht kind path
  rw [act, request]
  cases htargets : t.targets kind path with
  | error e =>
    rw [htargets] at hchooses
    cases hchooses with
    | unserved hnone => exact .unserved hnone
    | unable hserved hnone => exact .unable hserved hnone
  | ok identities =>
    rw [htargets] at hchooses
    cases hchooses with
    | asks hsome hmem hsorted =>
      dsimp only
      cases hbuffer : t.buffer path with
      | none => exact .missing hsome hbuffer
      | some b =>
        have hnodup : identities.Nodup := hsorted.imp String.ne_of_lt
        have htext : t.bufferText path = some b.text := by rw [bufferText, hbuffer, Option.map_some]
        obtain ⟨u, hu, heq⟩ := askAll_append htext hnodup
          (fun identity hidentity => ((hmem identity).1 hidentity).reaches hwires) kind
          (requestParams t.session.settings kind path b) []
        rw [List.append_nil] at heq
        refine .asks hsome hbuffer ?_
        dsimp only
        rw [heq]
        exact hu.routed ht hmem hnodup

end Turn

namespace Sample

/-- Two servers are started that hover. -/
def hovering : List Move :=
  let greeting := Frame.encode (answer 1
    (.obj [("capabilities", .obj [("hoverProvider", .bool true)])]))
  [.event launch (.action (.start (.command none "r" []))),
    .event launch (.action (.start (.command none "s" []))),
    .event launch (.stdout 1 greeting), .event launch (.stdout 2 greeting)]

end Sample

namespace Turn

/-- Both servers get to know the document and are asked. -/
theorem routes_request_hovering :
    let t := Sample.start.run Sample.hovering
    let t' := t.act Sample.launch (.request .hover Sample.path)
    (∀ identity c, t.connection identity = some c → c.wireOpen = true) ∧
      t.Routes .hover Sample.path t' ∧
      ∀ id ∈ [1, 2], (t'.writtenTo id).map Mirror.method? = [some "initialize", some "initialized",
        some "textDocument/didOpen", some "textDocument/hover"] := by
  intro t t'
  have hall : t.session.connections.values.all (·.wireOpen) = true := by decide +kernel
  have hwires : ∀ identity c, t.connection identity = some c → c.wireOpen = true :=
    fun identity c hc => List.all_eq_true.1 hall c (Table.mem_values_iff.2 ⟨identity, hc⟩)
  exact ⟨hwires, routes_request (reached_sample Sample.hovering) hwires _ _ _, by decide +kernel⟩

end Turn
end LanguageClient
