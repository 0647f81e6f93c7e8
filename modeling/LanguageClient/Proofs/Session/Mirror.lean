import LanguageClient.Proofs.Document.Mirror
import LanguageClient.Proofs.Path.Uri
import LanguageClient.Proofs.Session.Effects

/-!
# Servers that are informed

A server is informed when it takes each document that it has open for what the host has. What one
connection does keeps its server informed (`Connection.Acts.informed`). Changes reach the servers
one by one, so that in between some are informed of the text before and some of the text after; in
the end all are informed of the text after (`Turn.mirrored_syncChanges`).
-/

namespace LanguageClient

/-- The names that a host may use: absolute paths, and one for each document. -/
structure Naming (named : Path → Prop) : Prop where
  absolute : ∀ path, named path → path.isAbsolute = true
  unique : ∀ path other, named path → named other → path.place = other.place → path = other

variable {named : Path → Prop}

theorem Naming.ofPath_eq_iff (h : Naming named) {path other : Path} (hpath : named path)
    (hother : named other) : Uri.ofPath path = Uri.ofPath other ↔ path.place = other.place := by
  constructor
  · intro heq
    rw [Uri.ofPath_injective (h.absolute path hpath) (h.absolute other hother) heq]
  · intro heq
    rw [h.unique path other hpath hother heq]

namespace Connection

variable {c c' : Connection} {content : Path → Option String} {messages others : List Json}

/-- Whether a server that was written some messages takes the documents that are open for what
`content` gives. -/
def Informed (c : Connection) (content : Path → Option String) (messages : List Json) : Prop :=
  ∀ place document, c.documents.documents.get? place = some document →
    ∃ s, content document.path = some s ∧
      Mirror.text (Uri.ofPath document.path) messages = some s.toList

theorem informed_of_idle (h : ∀ place, c.documents.documents.get? place = none)
    (messages : List Json) : c.Informed content messages := by
  intro place document hdocument
  rw [h] at hdocument
  cases hdocument

/-- Messages that say nothing of documents leave the server as informed as it was. -/
theorem Informed.append_silent (h : c.Informed content messages)
    (hsilent : ∀ m ∈ others, Mirror.Silent m) (hdocuments : c'.documents = c.documents) :
    c'.Informed content (messages ++ others) := by
  intro place document hdocument
  rw [hdocuments] at hdocument
  obtain ⟨s, hcontent, htext⟩ := h place document hdocument
  refine ⟨s, hcontent, ?_⟩
  rw [Mirror.text_append, Mirror.foldl_after_of_silent hsilent, htext]

/-- A message about one document leaves the server as informed of every other as it was. -/
theorem Informed.elsewhere (h : c.Informed content messages) (hc : c.Sound named)
    (hnaming : Naming named) {path : Path} (hpath : named path) {message : Json}
    (hmessage : ∀ uri text, Uri.ofPath path ≠ uri → Mirror.after uri text message = text)
    {place : Place} {document : TrackedDocument} (hplace : path.place ≠ place)
    (hdocument : c.documents.documents.get? place = some document) :
    ∃ s, content document.path = some s ∧
      Mirror.text (Uri.ofPath document.path) (messages ++ [message]) = some s.toList := by
  obtain ⟨hkey, hname⟩ := hc.tracked place document hdocument
  obtain ⟨s, hcontent, htext⟩ := h place document hdocument
  have hother : Uri.ofPath path ≠ Uri.ofPath document.path := by
    rw [ne_eq, hnaming.ofPath_eq_iff hpath hname, hkey]
    exact hplace
  refine ⟨s, hcontent, ?_⟩
  rw [Mirror.text_append, List.foldl_cons, List.foldl_nil, hmessage _ _ hother, htext]

theorem sent_of_accepts (h : c.accepts = true) (n : Notification) : c.sent n = [n.toJson] := by
  simp [sent, notify, write, h, Except.toOption]

theorem sent_of_not_accepts (h : c.accepts = false) (n : Notification) : c.sent n = [] := by
  simp [sent, notify, write, h, Except.toOption]

theorem sent_cases (c : Connection) (n : Notification) : c.sent n = [] ∨ c.sent n = [n.toJson] := by
  cases h : c.accepts with
  | true => exact .inr (sent_of_accepts h n)
  | false => exact .inl (sent_of_not_accepts h n)

theorem accepts_of_isActive (hactive : c.isActive = true) (hwire : c.wireOpen = true) :
    c.accepts = true := by
  have hstate : c.state = .active := by simpa [isActive] using hactive
  simp [accepts, hstate, hwire]

theorem mem_sent {n : Notification} {m : Json} (hm : m ∈ c.sent n) :
    c.accepts = true ∧ m = n.toJson := by
  cases h : c.accepts with
  | true => exact ⟨rfl, by simpa [sent_of_accepts h] using hm⟩
  | false => simp [sent_of_not_accepts h] at hm

theorem asked_of_accepts (h : c.accepts = true) (method : Method) (params : Json)
    (document : Option Path) : c.asked method params document =
      [(Request.new c.requests.nextId method.name (some params)).toJson] := by
  rw [asked, sendRequest_fst, if_pos h]
  rfl

theorem mem_asked {method : Method} {params : Json} {document : Option Path} {m : Json}
    (hm : m ∈ c.asked method params document) :
    c.accepts = true ∧ m = (Request.new c.requests.nextId method.name (some params)).toJson := by
  cases h : c.accepts with
  | true => exact ⟨rfl, by simpa [asked_of_accepts h] using hm⟩
  | false => simp [asked, sendRequest_fst, h, Except.toOption] at hm

/-- A server is taken leave of by a request and a notification. -/
theorem mem_shutdown {m : Json} (hm : m ∈ c.shutdown.1) :
    c.accepts = true ∧
      (m = (Request.new c.requests.nextId Method.shutdown.name (some .null)).toJson ∨
        m = (Notification.new Wire.exit none).toJson) := by
  unfold shutdown at hm
  split at hm
  · split at hm
    · next id message d hsend =>
      have hasked : message ∈ c.asked .shutdown .null none := by
        simp [asked, hsend, Except.toOption]
      obtain ⟨haccepts, hmessage⟩ := mem_asked hasked
      rcases List.mem_cons.1 hm with rfl | hm
      · exact ⟨haccepts, .inl hmessage⟩
      · exact ⟨haccepts, .inr (mem_sent hm).2⟩
    · cases hm
  · cases hm

theorem silent_asked {method : Method} {params : Json} {document : Option Path} {m : Json}
    (hm : m ∈ c.asked method params document) : Mirror.Silent m := by
  obtain ⟨-, rfl⟩ := mem_asked hm
  exact Mirror.silent_request _ method _

theorem silent_shutdown {m : Json} (hm : m ∈ c.shutdown.1) : Mirror.Silent m := by
  obtain ⟨-, rfl | rfl⟩ := mem_shutdown hm
  · exact Mirror.silent_request _ .shutdown _
  · exact Mirror.silent_notification (by decide) none

/-- **Whatever a connection does, its server stays informed.** -/
theorem Acts.informed {quiet : Place → Prop} (hnaming : Naming named)
    (h : Acts named content quiet c others c') (hc : c.Sound named)
    (hwire : c.wireOpen = true) (hinformed : c.Informed content messages) :
    c'.Informed content (messages ++ others) := by
  cases h with
  | @opens path s language n documents active serves name htext hopen =>
    rw [sent_of_accepts (accepts_of_isActive active hwire)]
    intro place document hdocument
    rw [DocumentTable.get?_openDocument hopen] at hdocument
    split at hdocument
    · cases hdocument
      refine ⟨s, htext, ?_⟩
      rw [Mirror.text_append, List.foldl_cons, List.foldl_nil, Mirror.after_openDocument hopen,
        if_pos rfl]
    · next hplace =>
      refine hinformed.elsewhere hc hnaming name (fun uri text hne => ?_) hplace hdocument
      rw [Mirror.after_openDocument hopen, if_neg hne]
  | @closes path n documents name cleared hclose =>
    intro place document hdocument
    rw [DocumentTable.get?_close hclose] at hdocument
    split at hdocument
    · cases hdocument
    · next hplace =>
      -- a closing that is not written does no harm: the connection forgets the document too
      rcases c.sent_cases n with heq | heq
      · rw [heq, List.append_nil]
        exact hinformed place document hdocument
      · rw [heq]
        refine hinformed.elsewhere hc hnaming name (fun uri text hne => ?_) hplace hdocument
        rw [Mirror.after_close hclose, if_neg hne]
  | asks kind settings b name known =>
    refine hinformed.append_silent (fun m => silent_asked) ?_
    rw [sendRequest_snd]
  | parts =>
    refine hinformed.append_silent (fun m => silent_shutdown) ?_
    rw [shutdown_same]

/-- What a server is answered says nothing of documents. -/
theorem Informed.receive (h : c.Informed content messages) (bytes : Bytes) :
    (c.receive bytes).2.Informed content (messages ++ (c.receive bytes).1.replies) := by
  refine h.append_silent (fun m hm => ?_) (c.documents_receive bytes)
  obtain ⟨-, r, rfl⟩ := (c.receives_receive bytes).replies m hm
  exact Mirror.silent_response r

end Connection

namespace Turn

variable {t t' : Turn} {content : Path → Option String} {identity other : String}

/-- What was written to one launch of a server, in order. -/
def writtenTo (t : Turn) (id : ConnectionId) : List Json :=
  t.written.filterMap fun m => if m.1 = id then some m.2 else none

/-- How a server wants changes of documents delivered. -/
def syncKind (t : Turn) (identity : String) : SyncKind :=
  (CapabilityTable.sync t.session.capabilities identity).change

/-- Whether the server of an identity, if it hears of changes, takes its documents for what
`content` gives. -/
def Informs (t : Turn) (content : Path → Option String) (identity : String) : Prop :=
  ∀ c, t.connection identity = some c → c.wireOpen = true → t.syncKind identity ≠ .none →
    c.Informed content (t.writtenTo c.id)

/-- Whether every server that hears of changes has what the host has. -/
def Mirrored (t : Turn) : Prop := ∀ identity, t.Informs t.bufferText identity

/-! ## What is written to one launch -/

theorem writtenTo_of_written_eq_of_ne {messages : List Json} {id other : ConnectionId}
    (h : t'.written = t.written ++ messages.map (id, ·)) (hne : id ≠ other) :
    t'.writtenTo other = t.writtenTo other := by
  have hnone : (messages.map (id, ·)).filterMap
      (fun m => if m.1 = other then some m.2 else none) = [] := by
    refine List.filterMap_eq_nil_iff.2 fun m hm => ?_
    obtain ⟨message, -, rfl⟩ := List.mem_map.1 hm
    exact if_neg hne
  rw [writtenTo, h, List.filterMap_append, hnone, List.append_nil, writtenTo]

theorem writtenTo_of_written_eq_self {messages : List Json} {id : ConnectionId}
    (h : t'.written = t.written ++ messages.map (id, ·)) :
    t'.writtenTo id = t.writtenTo id ++ messages := by
  have hall : (messages.map (id, ·)).filterMap
      (fun m => if m.1 = id then some m.2 else none) = messages := by
    rw [List.filterMap_map]
    simp
  rw [writtenTo, h, List.filterMap_append, hall, writtenTo]

theorem writtenTo_eq (t : Turn) (id : ConnectionId) : t.writtenTo id = messagesTo id t.effects := by
  rw [writtenTo, written, List.filterMap_filterMap, messagesTo]
  congr 1
  funext e
  cases e with
  | write other m => rfl
  | _ => rfl

theorem writtenTo_of_effects {more : List Effect} (h : t'.effects = t.effects ++ more)
    (id : ConnectionId) : t'.writtenTo id = t.writtenTo id ++ messagesTo id more := by
  rw [writtenTo_eq, h, messagesTo_append, writtenTo_eq]

/-! ## Servers that a step does not touch -/

theorem Informs.congr (h : t.Informs content identity)
    (hconnection : t'.connection identity = t.connection identity)
    (hsync : t'.syncKind identity = t.syncKind identity)
    (hwritten : ∀ c, t.connection identity = some c → t'.writtenTo c.id = t.writtenTo c.id) :
    t'.Informs content identity := by
  intro c hc hwire hkind
  rw [hconnection] at hc
  rw [hsync] at hkind
  rw [hwritten c hc]
  exact h c hc hwire hkind

theorem Mirrored.congr (h : t.Mirrored) (hconnection : t'.connection = t.connection)
    (hsync : t'.syncKind = t.syncKind) (hbuffers : t'.bufferText = t.bufferText)
    (hwritten : t'.written = t.written) : t'.Mirrored := by
  intro identity
  rw [hbuffers]
  refine (h identity).congr ?_ ?_ fun c _ => ?_
  · rw [hconnection]
  · rw [hsync]
  · rw [writtenTo, hwritten, writtenTo]

theorem informs_of_connection_eq_none (h : t.connection identity = none) :
    t.Informs content identity := by
  intro c hc
  rw [h] at hc
  cases hc

/-- Only the connection that goes on hears of it. -/
theorem Informs.advance_of_ne (h : t.Informs content other) (ht : t.Coherent named)
    {c : Connection} (hc : t.connection identity = some c) (c' : Connection) (hid : c'.id = c.id)
    (hne : identity ≠ other) (messages : List Json) :
    (t.advance identity c' messages).Informs content other := by
  refine h.congr ?_ rfl fun d hd => ?_
  · rw [connection_advance, if_neg hne]
  · refine writtenTo_of_written_eq_of_ne (written_advance t identity c' messages) ?_
    rw [hid]
    exact fun heq => hne (ht.distinct identity other c d hc hd heq)

theorem informs_advance {c c' : Connection} {messages : List Json} (hid : c'.id = c.id)
    (hwire : c'.wireOpen = c.wireOpen)
    (h : c.wireOpen = true → t.syncKind identity ≠ .none →
      c'.Informed content (t.writtenTo c.id ++ messages)) :
    (t.advance identity c' messages).Informs content identity := by
  intro d hd hopen hkind
  rw [connection_advance, if_pos rfl] at hd
  cases hd
  have hwritten : (t.advance identity c' messages).writtenTo c'.id =
      t.writtenTo c'.id ++ messages :=
    writtenTo_of_written_eq_self (written_advance t identity c' messages)
  rw [hwritten, hid]
  exact h (hwire ▸ hopen) hkind

/-! ## Changes that are sent on -/

/-- Whether changes of a document take one content of the host to another. -/
structure Changed (before after : Path → Option String) (path : Path)
    (changes : List ContentChange) : Prop where
  here : ∀ s, before path = some s → ∃ s', after path = some s' ∧
    changes.foldl ContentChange.apply s.toList = s'.toList
  elsewhere : ∀ other, other.place ≠ path.place → after other = before other

/-- The changes that a server wants lead to the same text. -/
theorem changesFor_apply {kind : SyncKind} {path : Path} {changes wanted : List ContentChange}
    {s s' : String} (h : t.changesFor kind path changes = some wanted)
    (htext : t.bufferText path = some s')
    (hchanges : changes.foldl ContentChange.apply s.toList = s'.toList) :
    wanted.foldl ContentChange.apply s.toList = s'.toList := by
  unfold changesFor at h
  split at h
  · cases h
  · cases h
    exact hchanges
  · cases h
    exact hchanges
  · rw [htext] at h
    cases h
    rfl

theorem changesFor_ne_none {kind : SyncKind} {path : Path} {changes : List ContentChange}
    {s : String} (hkind : kind ≠ .none) (htext : t.bufferText path = some s) :
    t.changesFor kind path changes ≠ none := by
  unfold changesFor
  split
  · exact absurd rfl hkind
  · simp
  · simp
  · simp [htext]

theorem Informs.syncChangesTo_of_ne (h : t.Informs content other) (ht : t.Coherent named)
    (hne : identity ≠ other) (path : Path) (changes : List ContentChange) :
    (t.syncChangesTo path changes identity).Informs content other := by
  rcases syncChangesTo_cases t path changes identity with ⟨heq, -⟩ |
    ⟨c, wanted, n, documents, hc, -, -, -, heq⟩
  · rw [heq]
    exact h
  · rw [heq]
    exact h.advance_of_ne ht hc { c with documents := documents } rfl hne _

variable {before : Path → Option String} {path : Path} {changes : List ContentChange}

/-- A server that was informed of the text before hears of the text after. -/
theorem Informs.syncChangesTo (h : t.Informs before identity) (hnaming : Naming named)
    (ht : t.Coherent named) (hpath : named path)
    (hchanged : Changed before t.bufferText path changes) :
    (t.syncChangesTo path changes identity).Informs t.bufferText identity := by
  rcases syncChangesTo_cases t path changes identity with ⟨heq, hidle⟩ |
    ⟨c, wanted, n, documents, hc, hactive, hwanted, hchange, heq⟩
  · rw [heq]
    intro c hc hwire hkind place document hdocument
    obtain ⟨s, hbefore, htext⟩ := h c hc hwire hkind place document hdocument
    obtain ⟨hkey, hname⟩ := (ht.sound identity c hc).tracked place document hdocument
    by_cases hplace : document.path.place = path.place
    · -- the server has the document open, so it would have been told
      obtain rfl := hnaming.unique _ _ hname hpath hplace
      obtain ⟨s', hafter, -⟩ := hchanged.here s hbefore
      have hopen : c.documents.isOpen document.path = true := by
        rw [DocumentTable.isOpen, Table.contains, hkey, hdocument, Option.isSome_some]
      have hnone := hidle c hc ((ht.sound identity c hc).isActive_of_get? hdocument) hopen
      exact absurd hnone (changesFor_ne_none hkind hafter)
    · exact ⟨s, by rw [hchanged.elsewhere _ hplace, hbefore], htext⟩
  · rw [heq]
    obtain ⟨moved, hmoved, hdocuments⟩ := DocumentTable.get?_change hchange
    have hsound := ht.sound identity c hc
    refine informs_advance rfl rfl fun hwire hkind place document hdocument => ?_
    rw [Connection.sent_of_accepts (Connection.accepts_of_isActive hactive hwire)]
    rw [hdocuments] at hdocument
    split at hdocument
    · cases hdocument
      obtain ⟨s, hbefore, htext⟩ := h c hc hwire hkind path.place moved hmoved
      obtain ⟨hkey, hname⟩ := hsound.tracked path.place moved hmoved
      obtain rfl := hnaming.unique _ _ hname hpath hkey
      obtain ⟨s', hafter, happly⟩ := hchanged.here s hbefore
      refine ⟨s', hafter, ?_⟩
      rw [Mirror.text_append, List.foldl_cons, List.foldl_nil, Mirror.after_change hchange,
        if_pos rfl, htext, Option.map_some, changesFor_apply hwanted hafter happly]
    · next hplace =>
      have hkey := (hsound.tracked place document hdocument).1
      rw [hchanged.elsewhere _ (by rw [hkey]; exact Ne.symm hplace)]
      refine (h c hc hwire hkind).elsewhere hsound hnaming hpath (fun uri text hne => ?_) hplace
        hdocument
      rw [Mirror.after_change hchange, if_neg hne]

/-- Servers that wait for the changes are informed of the text before, all others of the text after;
in the end none waits. -/
theorem mirrored_foldl_syncChangesTo (hnaming : Naming named) (hpath : named path)
    {waiting : List String} (hnodup : waiting.Nodup) (ht : t.Coherent named)
    (hchanged : Changed before t.bufferText path changes)
    (hwaiting : ∀ identity ∈ waiting, t.Informs before identity)
    (htold : ∀ identity, identity ∉ waiting → t.Informs t.bufferText identity) :
    (waiting.foldl (syncChangesTo · path changes) t).Mirrored := by
  induction waiting generalizing t with
  | nil => exact fun identity => htold identity List.not_mem_nil
  | cons first waiting ih =>
    obtain ⟨hfirst, hnodup⟩ := List.nodup_cons.1 hnodup
    have hbuffers := bufferText_syncChangesTo t path changes first
    rw [List.foldl_cons]
    refine ih hnodup (ht.syncChangesTo path changes first) ?_ ?_ ?_
    · rw [hbuffers]
      exact hchanged
    · intro identity hmem
      have hne : first ≠ identity := fun heq => hfirst (heq ▸ hmem)
      have hwaits := hwaiting identity (List.mem_cons_of_mem _ hmem)
      exact hwaits.syncChangesTo_of_ne ht hne path changes
    · intro identity hmem
      rw [hbuffers]
      by_cases heq : first = identity
      · obtain rfl := heq
        exact (hwaiting first List.mem_cons_self).syncChangesTo hnaming ht hpath hchanged
      -- the servers that were told already hear nothing more
      · have hother : identity ∉ first :: waiting := by
          rw [List.mem_cons, not_or]
          exact ⟨Ne.symm heq, hmem⟩
        exact (htold identity hother).syncChangesTo_of_ne ht heq path changes

/-- **Changes reach every server that has the document.** -/
theorem mirrored_syncChanges (hnaming : Naming named) (ht : t.Coherent named) (hpath : named path)
    (hchanged : Changed before t.bufferText path changes)
    (h : ∀ identity, t.Informs before identity) : (t.syncChanges path changes).Mirrored := by
  refine mirrored_foldl_syncChangesTo hnaming hpath (Table.keys_nodup _) ht hchanged
    (fun identity _ => h identity) fun identity hmem => ?_
  refine informs_of_connection_eq_none ?_
  cases hc : t.connection identity with
  | none => rfl
  | some c => exact absurd (Table.mem_keys_iff.2 ⟨c, hc⟩) hmem

end Turn
end LanguageClient
