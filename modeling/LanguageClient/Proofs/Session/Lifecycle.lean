import LanguageClient.Proofs.Document.Lifecycle
import LanguageClient.Proofs.Session.Mirror

/-!
# Documents of a session on the wire

A session opens, changes, closes and asks about documents in step with what it wrote before: as long
as the wire takes messages, the versions of a connection's documents are those that a replay of its
messages comes to (`Connection.Tracks`). A wire that is cut takes nothing more, so that the messages
that were written to any launch of a server can be replayed to their end
(`Turn.isSome_replay_writtenTo`).
-/

namespace LanguageClient

namespace Connection

variable {named : Path → Prop} {text : Path → Option String} {quiet : Place → Prop}
  {c c' : Connection} {messages others : List Json}

/-- Whether a replay of some messages comes to the documents of a connection. -/
def Tracks (c : Connection) (messages : List Json) : Prop :=
  ∀ place, Lifecycle.replay place messages = some (c.documents.versionAt place)

/-- One more message may come if it takes the documents to where they stand afterwards. -/
theorem Tracks.append_singleton (h : c.Tracks messages) {m : Json}
    (hm : ∀ place, Lifecycle.after place (c.documents.versionAt place) m =
      some (c'.documents.versionAt place)) : c'.Tracks (messages ++ [m]) := by
  intro place
  rw [Lifecycle.replay_append, h place, Option.bind_some, List.foldlM_cons, hm place]
  rfl

theorem Tracks.append_silent (h : c.Tracks messages)
    (hsilent : ∀ m ∈ others, Lifecycle.place? m = none) (hdocuments : c'.documents = c.documents) :
    c'.Tracks (messages ++ others) := by
  intro place
  rw [Lifecycle.replay_append, h place, Option.bind_some,
    Lifecycle.foldlM_after_of_place?_eq_none hsilent, hdocuments]

/-- What is written by connections that accept messages alone is not written to a closed wire. -/
theorem eq_nil_of_accepts (hwire : c.wireOpen = false)
    (h : ∀ m ∈ messages, c.accepts = true) : messages = [] := by
  have haccepts : ¬ c.accepts = true := by simp [accepts, hwire]
  exact List.eq_nil_iff_forall_not_mem.2 fun m hm => haccepts (h m hm)

/-- A connection whose wire is closed does what it does without a word. -/
theorem Acts.eq_nil (h : Acts named text quiet c messages c') (hwire : c.wireOpen = false) :
    messages = [] := by
  refine eq_nil_of_accepts hwire fun m hm => ?_
  cases h with
  | opens | closes => exact (mem_sent hm).1
  | asks => exact (mem_asked hm).1
  | parts => exact (mem_shutdown hm).1

theorem place?_of_mem_shutdown {m : Json} (hm : m ∈ c.shutdown.1) : Lifecycle.place? m = none := by
  obtain ⟨-, rfl | rfl⟩ := mem_shutdown hm
  · exact Lifecycle.place?_shutdown _
  · exact Lifecycle.place?_bare _

theorem place?_of_mem_greetings {m : Json} (hm : m ∈ c.greetings) : Lifecycle.place? m = none := by
  rw [greetings, List.mem_cons] at hm
  rcases hm with rfl | hm
  · exact Lifecycle.place?_bare _
  · cases hsettings : c.config.settings with
    | none => simp [hsettings] at hm
    | some settings =>
      obtain rfl : m = _ := by simpa [hsettings] using hm
      exact Lifecycle.place?_settings settings

/-- **What a connection does is in step with what it wrote before.** -/
theorem Acts.tracks (h : Acts named text quiet c others c')
    (habsolute : ∀ path, named path → path.isAbsolute = true) (hc : c.Sound named)
    (hwire : c.wireOpen = true) (ht : c.Tracks messages) : c'.Tracks (messages ++ others) := by
  -- a document is open on an active connection only, which then can write
  have haccepts : ∀ path, c.documents.isOpen path = true → c.accepts = true := by
    intro path hopen
    obtain ⟨document, hdocument⟩ := Option.isSome_iff_exists.1 hopen
    exact accepts_of_isActive (hc.isActive_of_get? hdocument) hwire
  cases h with
  | @opens path s language n documents active serves name htext hopen =>
    rw [sent_of_accepts (accepts_of_isActive active hwire)]
    exact ht.append_singleton (Lifecycle.after_openDocument hopen (habsolute path name))
  | @closes path n documents name cleared hclose =>
    have hopen : c.documents.isOpen path = true := by
      unfold DocumentTable.close at hclose
      split at hclose
      · assumption
      · cases hclose
    rw [sent_of_accepts (haccepts path hopen)]
    exact ht.append_singleton (Lifecycle.after_close hclose (habsolute path name))
  | @asks path kind settings b name known =>
    rw [asked_of_accepts (haccepts path known)]
    refine ht.append_singleton fun place => ?_
    rw [sendRequest_snd]
    exact Lifecycle.after_request _ kind settings b known (habsolute path name) place
  | parts =>
    refine ht.append_silent (fun m => place?_of_mem_shutdown) ?_
    rw [shutdown_same]

end Connection

namespace Turn

variable {named : Path → Prop} {t t' : Turn} {identity : String} {c c' : Connection}
  {messages : List Json}

/-- Whether what was written to each launch of a server can be replayed, and comes to the documents
of its connection while the wire takes messages. -/
structure Orderly (t : Turn) : Prop where
  replays : ∀ id place, (Lifecycle.replay place (t.writtenTo id)).isSome = true
  tracks : ∀ identity c, t.connection identity = some c → c.wireOpen = true →
    c.Tracks (t.writtenTo c.id)

theorem Orderly.congr (h : t.Orderly) (hconnection : t'.connection = t.connection)
    (hwritten : t'.written = t.written) : t'.Orderly := by
  have hwrittenTo : t'.writtenTo = t.writtenTo := by
    funext id
    rw [writtenTo, hwritten, writtenTo]
  refine ⟨fun id place => ?_, fun identity c hc hwire => ?_⟩
  · rw [hwrittenTo]
    exact h.replays id place
  · rw [hconnection] at hc
    rw [hwrittenTo]
    exact h.tracks identity c hc hwire

/-- One connection goes on and writes what is in step, unless its wire is closed. -/
theorem Orderly.update (h : t.Orderly) (ht : t.Coherent named)
    (hc : t.connection identity = some c) (hid : c'.id = c.id)
    (hwire : c'.wireOpen = true → c.wireOpen = true)
    (hconnection : ∀ other, t'.connection other =
      if identity = other then some c' else t.connection other)
    (hwritten : t'.written = t.written ++ messages.map (c.id, ·))
    (hsilent : c.wireOpen = false → messages = [])
    (htracks : c.wireOpen = true → c'.Tracks (t.writtenTo c.id ++ messages)) : t'.Orderly := by
  have hself : t'.writtenTo c.id = t.writtenTo c.id ++ messages :=
    writtenTo_of_written_eq_self hwritten
  refine ⟨fun id place => ?_, fun other d hd hopen => ?_⟩
  · by_cases heq : id = c.id
    · rw [heq, hself]
      cases hclosed : c.wireOpen with
      | false =>
        rw [hsilent hclosed, List.append_nil]
        exact h.replays c.id place
      | true => rw [htracks hclosed place, Option.isSome_some]
    · rw [writtenTo_of_written_eq_of_ne hwritten (Ne.symm heq)]
      exact h.replays id place
  · rw [hconnection] at hd
    split at hd
    · obtain rfl := Option.some.inj hd
      rw [hid, hself]
      exact htracks (hwire hopen)
    · next hne =>
      have hother : c.id ≠ d.id := fun heq => hne (ht.distinct identity other c d hc hd heq)
      rw [writtenTo_of_written_eq_of_ne hwritten hother]
      exact h.tracks other d hd hopen

theorem Orderly.advance (h : t.Orderly) (ht : t.Coherent named)
    (hc : t.connection identity = some c) (hid : c'.id = c.id)
    (hwire : c'.wireOpen = true → c.wireOpen = true) (hsilent : c.wireOpen = false → messages = [])
    (htracks : c.wireOpen = true → c'.Tracks (t.writtenTo c.id ++ messages)) :
    (t.advance identity c' messages).Orderly := by
  refine h.update ht hc hid hwire (connection_advance t identity c' messages) ?_ hsilent htracks
  rw [written_advance, hid]

/-! ## Steps -/

theorem Orderly.syncChangesTo (h : t.Orderly) (ht : t.Coherent named)
    (habsolute : ∀ path, named path → path.isAbsolute = true) {path : Path} (name : named path)
    (changes : List ContentChange) (identity : String) :
    (t.syncChangesTo path changes identity).Orderly := by
  rcases syncChangesTo_cases t path changes identity with ⟨heq, -⟩ |
    ⟨c, wanted, n, documents, hc, hactive, -, hchange, heq⟩
  · rw [heq]
    exact h
  · rw [heq]
    refine h.advance ht hc rfl id (fun hclosed => ?_) fun hwire => ?_
    · exact Connection.eq_nil_of_accepts hclosed fun m hm => (Connection.mem_sent hm).1
    · rw [Connection.sent_of_accepts (Connection.accepts_of_isActive hactive hwire)]
      exact (h.tracks identity c hc hwire).append_singleton
        (Lifecycle.after_change hchange (habsolute path name))

theorem Orderly.syncChanges (h : t.Orderly) (ht : t.Coherent named)
    (habsolute : ∀ path, named path → path.isAbsolute = true) {path : Path} (name : named path)
    (changes : List ContentChange) : (t.syncChanges path changes).Orderly := by
  have hboth : (t.syncChanges path changes).Orderly ∧ (t.syncChanges path changes).Coherent named :=
    List.foldlRecOn (motive := fun u : Turn => u.Orderly ∧ u.Coherent named) _ _ ⟨h, ht⟩
      fun u hu identity _ => ⟨hu.1.syncChangesTo hu.2 habsolute name changes identity,
        hu.2.syncChangesTo path changes identity⟩
  exact hboth.1

theorem Work.orderly (h : Work named t t') (habsolute : ∀ path, named path → path.isAbsolute = true)
    (ht : t.Coherent named) (horderly : t.Orderly) : t'.Orderly := by
  cases h with
  | tells => exact horderly.congr rfl (written_tell t _)
  | halts => exact horderly.congr rfl (by simp [written, emit])
  | focuses | binds | unbinds | publishes | forgets | logs => exact horderly.congr rfl rfl
  | @acts identity c c' messages hc h =>
    have hpersists := h.persists
    refine horderly.advance ht hc hpersists.id (fun hopen => hpersists.wireOpen ▸ hopen) h.eq_nil ?_
    intro hwire
    exact h.tracks habsolute (ht.sound identity c hc) hwire (horderly.tracks identity c hc hwire)
  | @saves identity c path text hc =>
    have hsame : ∀ other, t.connection other =
        if identity = other then some c else t.connection other := by
      intro other
      split
      · next heq => rw [← heq, hc]
      · rfl
    refine horderly.update ht hc rfl id hsame (written_write t _ c.id) (fun hclosed => ?_) ?_
    · exact Connection.eq_nil_of_accepts hclosed fun m hm => (Connection.mem_sent hm).1
    · intro hwire
      have htracks := horderly.tracks identity c hc hwire
      rcases c.sent_cases (DocumentTable.save path text) with heq | heq
      · rwa [heq, List.append_nil]
      · rw [heq]
        exact htracks.append_singleton fun place => Lifecycle.after_save path text place _
  | @ends identity c hc =>
    refine ⟨fun id place => ?_, fun other d hd hopen => ?_⟩
    · rw [writtenTo, written_ended]
      exact horderly.replays id place
    · rw [connection_ended] at hd
      split at hd
      · cases hd
      · rw [writtenTo, written_ended]
        exact horderly.tracks other d hd hopen
  | resyncs name => exact horderly.syncChanges ht habsolute name _
  | @rewrites path b text cursor name =>
    have hreplaced : (t.replaceDocument path text cursor).Coherent named :=
      ht.congr rfl rfl (written_tell _ _) fun _ _ => .inl
    have horderly' : (t.replaceDocument path text cursor).Orderly :=
      horderly.congr rfl (written_tell _ _)
    exact horderly'.syncChanges hreplaced habsolute name _

/-- A server that is started was told of no document. -/
theorem Orderly.entered (h : t.Orderly) (ht : t.Coherent named) (config : ServerConfig)
    (wireOpen : Bool) : (t.entered config wireOpen).Orderly := by
  have hwritten := written_entered t config wireOpen
  have hid := t.newcomer_id config wireOpen
  rw [hid] at hwritten
  have hbefore : t.writtenTo t.session.nextConnection = [] := by
    refine List.filterMap_eq_nil_iff.2 fun m hm => ?_
    rw [if_neg (Nat.ne_of_lt (ht.written m hm))]
  have hself := writtenTo_of_written_eq_self hwritten
  rw [hbefore, List.nil_append] at hself
  -- the handshake is all that is written to the newcomer
  have hreplay : ∀ place, Lifecycle.replay place
      ((t.entered config wireOpen).writtenTo t.session.nextConnection) = some none := by
    intro place
    rw [hself]
    refine Lifecycle.foldlM_after_of_place?_eq_none (fun m hm => ?_) place none
    obtain ⟨-, rfl⟩ := Connection.mem_asked hm
    exact Lifecycle.place?_handshake _ _ _ _
  refine ⟨fun id place => ?_, fun other d hd hopen => ?_⟩
  · by_cases heq : id = t.session.nextConnection
    · rw [heq, hreplay place, Option.isSome_some]
    · rw [writtenTo_of_written_eq_of_ne hwritten (Ne.symm heq)]
      exact h.replays id place
  · rw [connection_entered] at hd
    split at hd
    · obtain rfl := Option.some.inj hd
      intro place
      rw [hid, hreplay place, newcomer_snd]
      rfl
    · rw [writtenTo_of_written_eq_of_ne hwritten (Nat.ne_of_gt (ht.fresh other d hd))]
      exact h.tracks other d hd hopen

theorem Step.orderly (h : Step named t t') (habsolute : ∀ path, named path → path.isAbsolute = true)
    (ht : t.Coherent named) (horderly : t.Orderly) : t'.Orderly := by
  cases h with
  | works h => exact h.orderly habsolute ht horderly
  | @hears identity c bytes hc =>
    refine horderly.advance ht hc (c.continues_receive bytes).id
      (fun hopen => c.wireOpen_receive bytes ▸ hopen) (fun hclosed => ?_) fun hwire => ?_
    · refine Connection.eq_nil_of_accepts hclosed fun m hm => ?_
      exact ((c.receives_receive bytes).replies m hm).1
    · refine (horderly.tracks identity c hc hwire).append_silent (fun m hm => ?_)
        (c.documents_receive bytes)
      obtain ⟨-, r, rfl⟩ := (c.receives_receive bytes).replies m hm
      exact Lifecycle.place?_response r
  | @activates identity c capabilities hc pending answered wire =>
    have hid : Connection.id { c with state := .active } = c.id := rfl
    refine horderly.update ht hc hid id (connection_activated t identity c capabilities)
      (written_advance t identity _ _) (fun hclosed => ?_) fun hwire => ?_
    · rw [wire] at hclosed
      cases hclosed
    · exact (horderly.tracks identity c hc hwire).append_silent
        (fun m => Connection.place?_of_mem_greetings) rfl
  | @launches config => exact horderly.congr rfl (written_launching t config)
  | @enters config wireOpen free => exact (horderly.entered ht config wireOpen).congr rfl rfl

theorem Steps.orderly (h : Steps named t t')
    (habsolute : ∀ path, named path → path.isAbsolute = true) (ht : t.Coherent named)
    (horderly : t.Orderly) : t'.Orderly := by
  induction h with
  | refl => exact horderly
  | tail hsteps hstep ih => exact hstep.orderly habsolute (Steps.coherent hsteps ht) ih

/-! ## Runs -/

theorem Orderly.move (h : t.Orderly) (habsolute : ∀ path, named path → path.isAbsolute = true)
    (ht : t.Coherent named) {m : Move} (hm : m.Names named) : (t.move m).Orderly := by
  have hbuffers : ∀ buffers, Orderly { t with buffers := buffers } := fun _ => h.congr rfl rfl
  rcases move_cases ht hm with ⟨buffers, path, changes, name, heq⟩ | ⟨buffers, heq⟩ | hsteps |
    ⟨c, hc, heq⟩
  · rw [heq]
    exact (hbuffers buffers).syncChanges (ht.withBuffers buffers) habsolute name changes
  · rw [heq]
    exact hbuffers buffers
  · exact hsteps.orderly habsolute ht h
  · rw [heq]
    refine h.advance ht hc rfl (fun hopen => by cases hopen) (fun _ => rfl) fun hwire => ?_
    rw [List.append_nil]
    exact h.tracks c.identity c hc hwire

theorem Orderly.run (h : t.Orderly) (habsolute : ∀ path, named path → path.isAbsolute = true)
    (ht : t.Coherent named) {moves : List Move} (hmoves : ∀ m ∈ moves, m.Names named) :
    (t.run moves).Orderly :=
  ht.holds_run hmoves (fun _ m hm hu hbefore => hbefore.move habsolute hu (hmoves m hm)) h

/-- **Documents are opened, changed, closed and asked about in order.** After every run in which the
host names absolute paths, what was written to any launch of a server about any document can be
replayed to its end. -/
theorem isSome_replay_writtenTo {root : Path} {settings : Settings} {processId : Nat}
    {catalog : Catalog} {buffers : Buffers} {moves : List Move}
    (hmoves : ∀ m ∈ moves, m.Names (·.isAbsolute = true)) (id : ConnectionId) (place : Place) :
    (Lifecycle.replay place ((run ⟨.new root settings processId catalog, buffers, []⟩
      moves).writtenTo id)).isSome = true := by
  have hstart : Orderly ⟨.new root settings processId catalog, buffers, []⟩ :=
    ⟨fun _ _ => rfl, fun _ _ hc => by cases hc⟩
  exact (hstart.run (fun _ h => h) (coherent_new root settings processId catalog buffers)
    hmoves).replays id place

/-- The small run opens its document, changes it and closes it. -/
theorem isSome_replay_writtenTo_closing :
    let moves := Sample.opening ++ [Sample.change, .event Sample.launch (.action (.viewClosed 1))]
    (∀ m ∈ moves, m.Names (·.isAbsolute = true)) ∧
      (Lifecycle.replay Sample.path.place ((Sample.start.run moves).writtenTo 1)).isSome = true := by
  intro moves
  have hmoves : ∀ m ∈ moves, m.Names (·.isAbsolute = true) := by
    intro m hm
    simp only [moves, Sample.opening, List.cons_append, List.nil_append, List.mem_cons,
      List.not_mem_nil, or_false] at hm
    rcases hm with rfl | rfl | rfl | rfl | rfl
    · intro path hpath
      cases hpath
    · trivial
    · intro path hpath
      obtain rfl := Option.some.inj hpath
      rfl
    · rfl
    · intro path hpath
      cases hpath
  exact ⟨hmoves, isSome_replay_writtenTo hmoves 1 Sample.path.place⟩

end Turn
end LanguageClient
