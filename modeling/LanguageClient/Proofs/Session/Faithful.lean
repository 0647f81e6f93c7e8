import LanguageClient.Proofs.Session.Mirror

/-!
# Servers see what a faithful host has

A faithful host tells of every edit right after making it, and names each document by one absolute
path. Then a server that hears of changes takes each document that it has open for the very text of
the host's buffer, after every run (`Turn.text_writtenTo_eq_bufferText`): each step keeps the
servers informed (`Turn.Step.mirrored`), and so does each move of the host (`Turn.Mirrored.move`).
-/

namespace LanguageClient

namespace Turn

variable {named : Path → Prop} {t t' : Turn} {content : Path → Option String}
  {identity other : String}

/-! ## Steps -/

theorem changed_replaceDocument (t : Turn) (path : Path) (text : String) (cursor : Nat) :
    Changed t.bufferText (t.replaceDocument path text cursor).bufferText path [.full text] := by
  refine ⟨fun s _ => ⟨text, ?_, rfl⟩, fun other hother => ?_⟩
  · rw [bufferText_replaceDocument, if_pos rfl]
  · rw [bufferText_replaceDocument, if_neg (Ne.symm hother)]

theorem Informs.ended_of_ne (h : t.Informs content other) (hne : identity ≠ other)
    (c : Connection) : (t.ended identity c).Informs content other := by
  refine h.congr ?_ ?_ fun d _ => ?_
  · rw [connection_ended, if_neg hne]
  · have hcapabilities : (t.session.capabilities.erase identity).get? other =
        t.session.capabilities.get? other := Table.get?_erase_of_ne _ hne
    simp only [syncKind, CapabilityTable.sync, ended, emit, hcapabilities]
  · rw [writtenTo, written_ended, writtenTo]

/-- A save changes no document. -/
theorem Informs.saves (h : t.Informs content other) (ht : t.Coherent named) {c : Connection}
    (hc : t.connection identity = some c) (path : Path) (text : Option String) :
    (t.write c.id (c.sent (DocumentTable.save path text))).Informs content other := by
  have hwritten := written_write t (c.sent (DocumentTable.save path text)) c.id
  by_cases heq : identity = other
  · obtain rfl := heq
    intro d hd hwire hkind
    obtain rfl := Option.some.inj (hc.symm.trans hd)
    rw [writtenTo_of_written_eq_self hwritten]
    refine (h c hd hwire hkind).append_silent (fun m hm => ?_) rfl
    rcases c.sent_cases (DocumentTable.save path text) with hsent | hsent
    · simp [hsent] at hm
    · obtain rfl : m = (DocumentTable.save path text).toJson := by simpa [hsent] using hm
      exact Mirror.silent_save path text
  · refine h.congr rfl rfl fun d hd => writtenTo_of_written_eq_of_ne hwritten ?_
    exact fun hid => heq (ht.distinct identity other c d hc hd hid)

theorem Work.mirrored (hnaming : Naming named) (h : Work named t t') (ht : t.Coherent named)
    (hmirrored : t.Mirrored) : t'.Mirrored := by
  cases h with
  | tells => exact hmirrored.congr rfl rfl rfl (written_tell t _)
  | halts => exact hmirrored.congr rfl rfl rfl (by simp [written, emit])
  | focuses | binds | unbinds | publishes | forgets | logs => exact hmirrored
  | @acts identity c c' messages hc h =>
    intro other
    by_cases heq : identity = other
    · obtain rfl := heq
      refine informs_advance h.persists.id h.persists.wireOpen fun hwire hkind => ?_
      exact h.informed hnaming (ht.sound identity c hc) hwire (hmirrored identity c hc hwire hkind)
    · exact (hmirrored other).advance_of_ne ht hc c' h.persists.id heq messages
  | @saves identity c path text hc => exact fun other => (hmirrored other).saves ht hc path text
  | @ends identity c hc =>
    intro other
    by_cases heq : identity = other
    · refine informs_of_connection_eq_none ?_
      rw [connection_ended, if_pos heq]
    · exact (hmirrored other).ended_of_ne heq c
  | @resyncs path text name h =>
    refine mirrored_syncChanges hnaming ht name ⟨fun s hs => ?_, fun _ _ => rfl⟩ hmirrored
    exact ⟨text, h, rfl⟩
  | @rewrites path b text cursor name h =>
    -- between the replacing and the changes no server is informed, but all are of the text before
    have hreplaced : (t.replaceDocument path text cursor).Coherent named :=
      ht.congr rfl rfl (written_tell _ _) fun _ _ => .inl
    refine mirrored_syncChanges hnaming hreplaced name (changed_replaceDocument t path text cursor)
      fun identity => (hmirrored identity).congr rfl rfl fun c _ => ?_
    rw [writtenTo, replaceDocument, written_tell, writtenTo]
    rfl

/-- A server that becomes active has no documents yet. -/
theorem Mirrored.activated (hmirrored : t.Mirrored) (ht : t.Coherent named) {c : Connection}
    (hc : t.connection identity = some c) (pending : c.state = .pending)
    (capabilities : ServerCapabilities) : (t.activated identity c capabilities).Mirrored := by
  intro other
  by_cases heq : identity = other
  · obtain rfl := heq
    intro d hd _ _
    rw [connection_activated, if_pos rfl] at hd
    cases hd
    refine Connection.informed_of_idle (fun place => ?_) _
    refine (ht.sound identity c hc).idle ?_ place
    rw [pending]
    decide
  · have hadvance := (hmirrored other).advance_of_ne ht hc { c with state := .active } rfl heq
      c.greetings
    refine hadvance.congr rfl ?_ fun _ _ => rfl
    have hcapabilities : (t.session.capabilities.set identity capabilities).get? other =
        t.session.capabilities.get? other := Table.get?_set_of_ne _ _ heq
    simp only [syncKind, CapabilityTable.sync, Turn.activated, advance, keep, write, hcapabilities]

/-- A server that is entered has no documents yet either, and its number is new. -/
theorem Mirrored.entered (hmirrored : t.Mirrored) (ht : t.Coherent named) (config : ServerConfig)
    (wireOpen : Bool) : (t.entered config wireOpen).Mirrored := by
  intro other
  by_cases heq : config.identity = other
  · intro d hd _ _
    rw [connection_entered, if_pos heq] at hd
    cases hd
    refine Connection.informed_of_idle (fun place => ?_) _
    rw [newcomer_snd]
    rfl
  · refine (hmirrored other).congr ?_ rfl fun d hd => ?_
    · rw [connection_entered, if_neg heq]
    -- the handshake goes out under a number that no connection had
    · refine writtenTo_of_written_eq_of_ne (written_entered t config wireOpen) ?_
      rw [newcomer_id]
      exact Nat.ne_of_gt (ht.fresh other d hd)

theorem Step.mirrored (hnaming : Naming named) (h : Step named t t') (ht : t.Coherent named)
    (hmirrored : t.Mirrored) : t'.Mirrored := by
  cases h with
  | works h => exact h.mirrored hnaming ht hmirrored
  | @hears identity c bytes hc =>
    have hid := (c.continues_receive bytes).id
    intro other
    by_cases heq : identity = other
    · obtain rfl := heq
      refine informs_advance hid (c.wireOpen_receive bytes) fun hwire hkind => ?_
      exact (hmirrored identity c hc hwire hkind).receive bytes
    · exact (hmirrored other).advance_of_ne ht hc _ hid heq _
  | @activates identity c capabilities hc pending answered wire =>
    exact hmirrored.activated ht hc pending capabilities
  | @launches config => exact hmirrored.congr rfl rfl rfl (written_launching t config)
  | @enters config wireOpen free =>
    exact (hmirrored.entered ht config wireOpen).congr rfl rfl rfl rfl

theorem Steps.mirrored (hnaming : Naming named) (h : Steps named t t') (ht : t.Coherent named)
    (hmirrored : t.Mirrored) : t'.Mirrored := by
  induction h with
  | refl => exact hmirrored
  | tail hsteps hstep ih => exact hstep.mirrored hnaming (Steps.coherent hsteps ht) ih

end Turn

/-! ## Runs -/

/-- Whether a move is one of a faithful host: what it edits it edits before it tells of it, and the
text of a document that is open anywhere changes in no other way. -/
def Move.Faithful (t : Turn) : Move → Prop
  | event _ e => e.isEdit = false
  | edit _ _ _ _ => True
  | buffer path b => b.map (·.text) = t.bufferText path ∨
      ∀ identity c, t.connection identity = some c → c.documents.isOpen path = false
  | cut _ => True

namespace Turn

variable {named : Path → Prop} {t : Turn} {identity : String}

/-- Whether moves are those of a faithful host that uses the names given. -/
def Faithful (named : Path → Prop) : Turn → List Move → Prop
  | _, [] => True
  | t, m :: moves => m.Names named ∧ m.Faithful t ∧ Faithful named (t.move m) moves

theorem changed_edit (t : Turn) (path : Path) (changes : List ContentChange) (cursor : Nat)
    (selection : Option (Nat × Nat)) :
    Changed t.bufferText (t.edit path changes cursor selection).bufferText path changes := by
  unfold edit
  cases hb : t.buffer path with
  | none =>
    refine ⟨fun s hs => ?_, fun _ _ => rfl⟩
    simp [bufferText, hb] at hs
  | some b =>
    refine ⟨fun s hs => ?_, fun other hother => ?_⟩
    · obtain rfl : b.text = s := by simpa [bufferText, hb] using hs
      refine ⟨_, ?_, String.toList_ofList.symm⟩
      simp [bufferText, buffer]
    · simp [bufferText, buffer, Table.get?_set_of_ne _ _ (Ne.symm hother)]

theorem bufferText_setBuffer (t : Turn) (path : Path) (b : Option Buffer) (other : Path) :
    (t.setBuffer path b).bufferText other =
      if path.place = other.place then b.map (·.text) else t.bufferText other := by
  cases b with
  | none =>
    simp only [bufferText, buffer, setBuffer, Table.get?_erase]
    split
    · rfl
    · rfl
  | some b =>
    simp only [bufferText, buffer, setBuffer, Table.get?_set]
    split
    · rfl
    · rfl

/-- A host may take up and drop documents that no server has, and move in the others. -/
theorem Mirrored.setBuffer (hmirrored : t.Mirrored) (ht : t.Coherent named) {path : Path}
    {b : Option Buffer} (h : (Move.buffer path b).Faithful t) : (t.setBuffer path b).Mirrored := by
  intro identity c hc hwire hkind place document hdocument
  obtain ⟨s, hcontent, htext⟩ := hmirrored identity c hc hwire hkind place document hdocument
  refine ⟨s, ?_, htext⟩
  rw [bufferText_setBuffer]
  split
  · next hplace =>
    rcases h with hsame | hclosed
    · rw [hsame, ← hcontent, bufferText, buffer, hplace]
      rfl
    -- the server has the document open, which this kind of move excludes
    · have hkey := ((ht.sound identity c hc).tracked place document hdocument).1
      have hopen := hclosed identity c hc
      rw [DocumentTable.isOpen, Table.contains, hplace, hkey, hdocument] at hopen
      cases hopen
  · exact hcontent

theorem Mirrored.cut (hmirrored : t.Mirrored) (ht : t.Coherent named) (id : ConnectionId) :
    (t.move (.cut id)).Mirrored := by
  rcases cut_cases ht id with heq | ⟨c, hc, -, heq⟩
  · rw [heq]
    exact hmirrored
  · rw [heq]
    intro other
    by_cases hother : c.identity = other
    · intro d hd hwire
      rw [connection_advance, if_pos hother] at hd
      cases hd
      cases hwire
    · exact (hmirrored other).advance_of_ne ht hc { c with wireOpen := false } rfl hother []

theorem Mirrored.move (hnaming : Naming named) (hmirrored : t.Mirrored) (ht : t.Coherent named)
    {m : Move} (hnames : m.Names named) (hfaithful : m.Faithful t) : (t.move m).Mirrored := by
  cases m with
  | event launch e => exact (steps_react ht launch hnames hfaithful).mirrored hnaming ht hmirrored
  | edit path changes cursor selection =>
    have hchanged := changed_edit t path changes cursor selection
    obtain ⟨buffers, heq⟩ := edit_eq t path changes cursor selection
    rw [Turn.move]
    rw [heq] at hchanged ⊢
    exact mirrored_syncChanges hnaming (ht.withBuffers buffers) hnames hchanged hmirrored
  | buffer path b => exact hmirrored.setBuffer ht hfaithful
  | cut id => exact hmirrored.cut ht id

theorem Mirrored.run (hnaming : Naming named) (hmirrored : t.Mirrored) (ht : t.Coherent named)
    {moves : List Move} (h : t.Faithful named moves) :
    (t.run moves).Mirrored ∧ (t.run moves).Coherent named := by
  induction moves generalizing t with
  | nil => exact ⟨hmirrored, ht⟩
  | cons m moves ih =>
    obtain ⟨hnames, hfaithful, hrest⟩ := h
    exact ih (hmirrored.move hnaming ht hnames hfaithful) (ht.move hnames) hrest

/-- **A server has the text that the host has.** After every run with a faithful host, each document
that is open on an active connection whose wire takes messages, and whose server hears of changes,
is for its server what the host's buffer holds. -/
theorem text_writtenTo_eq_bufferText {root : Path} {settings : Settings} {processId : Nat}
    {catalog : Catalog} {buffers : Buffers} {moves : List Move} (hnaming : Naming named)
    (h : Faithful named ⟨.new root settings processId catalog, buffers, []⟩ moves)
    (ht : run ⟨.new root settings processId catalog, buffers, []⟩ moves = t) {c : Connection}
    (hc : t.connection identity = some c) (hwire : c.wireOpen = true)
    (hkind : t.syncKind identity ≠ .none) {document : TrackedDocument}
    (hdocument : document ∈ c.documents.documents.values) :
    ∃ s, t.bufferText document.path = some s ∧
      Mirror.text (Uri.ofPath document.path) (t.writtenTo c.id) = some s.toList := by
  have hstart : Mirrored ⟨.new root settings processId catalog, buffers, []⟩ :=
    fun identity => informs_of_connection_eq_none rfl
  obtain ⟨hmirrored, -⟩ := hstart.run hnaming
    (coherent_new root settings processId catalog buffers) h
  rw [ht] at hmirrored
  obtain ⟨place, hplace⟩ := Table.mem_values_iff.1 hdocument
  exact hmirrored identity c hc hwire hkind place document hplace

theorem text_writtenTo_eq_bufferText_change :
    ∃ t c document, Sample.start.Faithful (· = Sample.path) (Sample.opening ++ [Sample.change]) ∧
      Sample.start.run (Sample.opening ++ [Sample.change]) = t ∧ t.connection "s" = some c ∧
      c.wireOpen = true ∧ t.syncKind "s" ≠ .none ∧ document ∈ c.documents.documents.values ∧
      ∃ s, t.bufferText document.path = some s ∧
        Mirror.text (Uri.ofPath document.path) (t.writtenTo c.id) = some s.toList := by
  have hnaming : Naming (· = Sample.path) := by
    refine ⟨?_, ?_⟩
    · rintro path rfl
      decide
    · rintro path other rfl rfl -
      rfl
  have hfaithful : Sample.start.Faithful (· = Sample.path)
      (Sample.opening ++ [Sample.change]) := by
    refine ⟨?_, rfl, trivial, rfl, ?_, rfl, rfl, trivial, trivial⟩
    · intro path hpath
      cases hpath
    · intro path hpath
      exact (Option.some.inj hpath).symm
  have hstate : ((Sample.start.run (Sample.opening ++ [Sample.change])).connection "s").map
      (fun c => (c.wireOpen, c.documents.documents.values.length)) = some (true, 1) := by
    decide +kernel
  obtain ⟨c, hc, hheld⟩ := Option.map_eq_some_iff.1 hstate
  obtain ⟨hwire, hlength⟩ := Prod.mk.inj hheld
  obtain ⟨document, hdocument⟩ := List.exists_mem_of_length_pos (by omega : 0 <
    c.documents.documents.values.length)
  have hkind : (Sample.start.run (Sample.opening ++ [Sample.change])).syncKind "s" ≠ .none := by
    decide +kernel
  exact ⟨_, c, document, hfaithful, rfl, hc, hwire, hkind, hdocument,
    text_writtenTo_eq_bufferText hnaming hfaithful rfl hc hwire hkind hdocument⟩

end Turn
end LanguageClient
