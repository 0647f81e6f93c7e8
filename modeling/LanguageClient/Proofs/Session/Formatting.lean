import LanguageClient.Proofs.Document.Mirror
import LanguageClient.Proofs.Session.Correlation
import LanguageClient.Proofs.Session.Effects
import LanguageClient.Proofs.Wire.RoundTrip

/-!
# Formatting and the text it was asked for

Edits of a formatting speak of the text that the document had when they were asked for, while a
session applies them to the buffer that it finds. This does no harm exactly when the text is still
the same, or the answer has nothing to put in its place (`Turn.formatting_fits_iff`).
-/

namespace LanguageClient.Turn

/-- What the answer to a formatting has to keep to: it replaces no other text than the one that it
was asked for, and leaves a document that has changed alone, with no server told otherwise. -/
structure Fits (asked : Option String) (path : Path) (t t' : Turn) : Prop where
  replaced : ∀ text cursor, Effect.tell (.replaceDocument path text cursor) ∈ added t t' →
    t.bufferText path = asked
  untouched : t.bufferText path ≠ asked → t'.buffers = t.buffers ∧
    ∀ id message, Effect.write id message ∈ added t t' →
      Mirror.method? message ≠ some Wire.didChange

/-- Whether an outcome of a formatting has edits that apply to the host's buffer as it now is. -/
def Applies (t : Turn) (path : Path) (outcome : Except ResponseError Json) : Prop :=
  ∃ result edits b edited, outcome = .ok result ∧ readEdits result = .ok edits ∧ edits ≠ [] ∧
    t.buffer path = some b ∧ applyEdits b.text.toList edits b.cursor = some edited

/-- Whether one launch of a server still runs. -/
def Runs (t : Turn) (identity : String) (id : ConnectionId) : Prop :=
  ∃ c, t.connection identity = some c ∧ c.id = id

variable {t t' : Turn} {path : Path} {asked : Option String}

/-! ## Answers that change nothing -/

theorem added_emit (t : Turn) (e : Effect) : added t (t.emit e) = [e] :=
  added_of_effects_eq rfl

/-- An answer fits that does no more than tell the user something, or end the session. -/
theorem fits_of_added (hbuffers : t'.buffers = t.buffers) (h : ∀ e ∈ added t t',
    e = .halt ∨ ∃ level message, e = .tell (.notify level message)) : Fits asked path t t' := by
  refine ⟨fun text cursor hmem => ?_, fun _ => ⟨hbuffers, fun id message hmem => ?_⟩⟩
  · rcases h _ hmem with heq | ⟨level, message, heq⟩
    · cases heq
    · cases heq
  · rcases h _ hmem with heq | ⟨level, message, heq⟩
    · cases heq
    · cases heq

theorem fits_self (asked : Option String) (path : Path) (t : Turn) : Fits asked path t t := by
  refine fits_of_added rfl fun e hmem => ?_
  rw [added_self] at hmem
  cases hmem

theorem fits_notice (asked : Option String) (path : Path) (t : Turn) (level : NoticeLevel)
    (message : String) : Fits asked path t (t.notice level message) := by
  refine fits_of_added rfl fun e hmem => .inr ⟨level, message, ?_⟩
  rw [notice, tell, added_emit] at hmem
  exact List.mem_singleton.1 hmem

theorem fits_halt (asked : Option String) (path : Path) (t : Turn) :
    Fits asked path t (t.emit .halt) := by
  refine fits_of_added rfl fun e hmem => .inl ?_
  rw [added_emit] at hmem
  exact List.mem_singleton.1 hmem

/-! ## Answers that replace the text -/

/-- An edited text replaces the buffer whatever it was before. -/
theorem replaceDocument_mem_added (t : Turn) (path : Path) (edited : Edited) :
    Effect.tell (.replaceDocument path (String.ofList edited.text) edited.cursor) ∈
      added t (t.putEdited path (some edited)) := by
  obtain ⟨more, hmore⟩ := effects_syncChanges
    (t.replaceDocument path (String.ofList edited.text) edited.cursor) path
    [.full (String.ofList edited.text)]
  have heffects : (t.putEdited path (some edited)).effects = t.effects ++
      (.tell (.replaceDocument path (String.ofList edited.text) edited.cursor) :: more) := by
    change ((t.replaceDocument path (String.ofList edited.text) edited.cursor).syncChanges path
      [.full (String.ofList edited.text)]).effects = _
    rw [← hmore, replaceDocument, tell, emit, List.append_assoc]
    rfl
  rw [added_of_effects_eq heffects]
  exact List.mem_cons_self

/-! ## The answer to a formatting -/

theorem method_of_editsDocument {kind : RequestKind} (h : kind.editsDocument = true) :
    kind.capability.method = .formatting ∨ kind.capability.method = .rangeFormatting := by
  cases kind with
  | format => exact .inl rfl
  | rangeFormat => exact .inr rfl
  | _ => cases h

/-- The answer to a formatting is read as edits, whichever formatting it was. -/
theorem onInbound_formatting_ok (t : Turn) {kind : RequestKind} (hkind : kind.editsDocument = true)
    (identity : String) (document : Option Path) (result : Json) :
    ∃ failure : ResultError → Failure,
      t.onInbound identity (.response ⟨kind.capability.method, document⟩ (.ok result)) =
        match t.onFormatting document result with
        | .ok t' => t'
        | .error e => t.report (failure e) := by
  rcases method_of_editsDocument hkind with hmethod | hmethod
  · rw [hmethod]
    exact ⟨_, rfl⟩
  · rw [hmethod]
    exact ⟨_, rfl⟩

theorem onInbound_formatting_error (t : Turn) {kind : RequestKind}
    (hkind : kind.editsDocument = true) (identity : String) (document : Option Path)
    (e : ResponseError) :
    ∃ failure, t.onInbound identity (.response ⟨kind.capability.method, document⟩ (.error e)) =
      t.report failure := by
  rcases method_of_editsDocument hkind with hmethod | hmethod
  · rw [hmethod]
    exact ⟨_, rfl⟩
  · rw [hmethod]
    exact ⟨_, rfl⟩

/-- An answer to a formatting is put in the place of the buffer, if it has edits that apply. -/
theorem onInbound_of_applies {kind : RequestKind} (hkind : kind.editsDocument = true)
    (identity : String) {outcome : Except ResponseError Json} (h : t.Applies path outcome) :
    ∃ edited, t.onInbound identity (.response ⟨kind.capability.method, some path⟩ outcome) =
      t.putEdited path (some edited) := by
  obtain ⟨result, edits, b, edited, rfl, hedits, hne, hb, hedited⟩ := h
  obtain ⟨failure, heq⟩ := onInbound_formatting_ok t hkind identity (some path) result
  rw [heq]
  cases hanswer : t.onFormatting (some path) result with
  | error e =>
    have hunread := readEdits_of_onFormatting hanswer
    rw [hedits] at hunread
    cases hunread
  | ok t' =>
    rcases onFormatting_cases hanswer with ⟨-, hnone⟩ |
      ⟨other, edits', level, message, hpath, hedits', hidle, -⟩ |
      ⟨other, edits', b', hpath, hedits', -, hb', hput⟩
    · cases hnone
    · obtain rfl := Option.some.inj hpath
      obtain rfl := Except.ok.inj (hedits.symm.trans hedits')
      rcases hidle with hempty | hnone
      · exact absurd hempty hne
      · rw [hnone] at hb
        cases hb
    · obtain rfl := Option.some.inj hpath
      obtain rfl := Except.ok.inj (hedits.symm.trans hedits')
      obtain rfl := Option.some.inj (hb.symm.trans hb')
      rw [hedited] at hput
      exact ⟨edited, hput⟩

/-- An answer to a formatting that has no edits that apply is reported at most. -/
theorem fits_onInbound_of_not_applies {kind : RequestKind} (hkind : kind.editsDocument = true)
    {identity : String} {outcome : Except ResponseError Json} (h : ¬ t.Applies path outcome) :
    Fits asked path t
      (t.onInbound identity (.response ⟨kind.capability.method, some path⟩ outcome)) := by
  cases outcome with
  | error e =>
    obtain ⟨failure, heq⟩ := onInbound_formatting_error t hkind identity (some path) e
    rw [heq]
    exact fits_notice asked path t _ _
  | ok result =>
    obtain ⟨failure, heq⟩ := onInbound_formatting_ok t hkind identity (some path) result
    rw [heq]
    cases hanswer : t.onFormatting (some path) result with
    | error e => exact fits_notice asked path t _ _
    | ok t' =>
      rcases onFormatting_cases hanswer with ⟨rfl, -⟩ |
        ⟨other, edits, level, message, -, -, -, rfl⟩ |
        ⟨other, edits, b, hpath, hedits, hne, hb, hput⟩
      · exact fits_self asked path t'
      · exact fits_notice asked path t level message
      · obtain rfl := Option.some.inj hpath
        cases hedited : applyEdits b.text.toList edits b.cursor with
        | none =>
          rw [hedited] at hput
          rw [hput]
          exact fits_halt asked path t
        | some edited => exact absurd ⟨result, edits, b, edited, rfl, hedits, hne, hb, hedited⟩ h

theorem onInbounds_of_runs {identity : String} {id : ConnectionId} (h : t.Runs identity id)
    (item : Inbound) : t.onInbounds identity id [item] = t.onInbound identity item := by
  obtain ⟨c, hc, hid⟩ := h
  rw [onInbounds, hc]
  dsimp only
  rw [if_pos hid, onInbounds]

theorem onInbounds_of_not_runs {identity : String} {id : ConnectionId} (h : ¬ t.Runs identity id)
    (item : Inbound) : t.onInbounds identity id [item] = t := by
  rw [onInbounds]
  split
  · rfl
  · next c hc => exact if_neg fun hid => h ⟨c, hc, hid⟩

/-- An answer fits when the text is the one that was asked for, or when it has nothing to put in its
place. -/
theorem fits_onInbounds_iff {kind : RequestKind} (hkind : kind.editsDocument = true)
    {identity : String} {id : ConnectionId} {outcome : Except ResponseError Json} :
    Fits asked path t
        (t.onInbounds identity id [.response ⟨kind.capability.method, some path⟩ outcome]) ↔
      t.bufferText path = asked ∨ ¬ (t.Runs identity id ∧ t.Applies path outcome) := by
  by_cases hruns : t.Runs identity id
  · rw [onInbounds_of_runs hruns]
    by_cases happlies : t.Applies path outcome
    · obtain ⟨edited, heq⟩ := onInbound_of_applies hkind identity happlies
      rw [heq]
      constructor
      · intro hfits
        exact .inl (hfits.replaced _ _ (replaceDocument_mem_added t path edited))
      · rintro (hsame | hidle)
        · exact ⟨fun _ _ _ => hsame, fun hchanged => absurd hsame hchanged⟩
        · exact absurd ⟨hruns, happlies⟩ hidle
    · exact iff_of_true (fits_onInbound_of_not_applies hkind happlies)
        (.inr fun h => happlies h.2)
  · rw [onInbounds_of_not_runs hruns]
    exact iff_of_true (fits_self asked path t) (.inr fun h => hruns h.1)

/-! ## From the request to the answer -/

/-- Whether a request that is made now goes to one server under a number, the connection being then
as given. -/
structure Asks (t : Turn) (kind : RequestKind) (path : Path) (identity : String) (n : Nat)
    (c : Connection) : Prop where
  connection : (t.request kind path).connection identity = some c
  pending : (c.requests.requests.get? n).isSome
  numbered : ∀ before, t.connection identity = some before → before.requests.nextId ≤ n

/-- Whether output of a server gives, behind some results, the first answer to the request with a
number. -/
structure Answers (t : Turn) (c : Connection) (bytes : Bytes) (first : List Framer.Result)
    (v : Json) (n : Nat) (outcome : Except ResponseError Json) : Prop where
  connection : Registry.findById t.session.connections c.id = some c
  fed : first ++ [.ok v] <+: (c.framer.feed bytes).1
  response : ∃ r id, Message.decoder v = .ok (.response r) ∧ r.id = some id ∧
    id.number? = some n ∧ r.outcome = outcome
  pending : (({ c with framer := (c.framer.feed bytes).2 }.receiveResults
    first).2.requests.requests.get? n).isSome

section

variable {between : List Move} {launch : Launcher} {kind : RequestKind} {identity : String}
  {c d : Connection} {n : Nat} {bytes : Bytes} {first : List Framer.Result} {v : Json}
  {outcome : Except ResponseError Json}

/-- What an answer does is what its request was for, whatever came in between. -/
theorem fits_hearing_iff (ht : t.Coherent fun _ => True) (hkind : kind.editsDocument = true)
    (hasks : t.Asks kind path identity n c)
    (ht' : t.run (.event launch (.action (.request kind path)) :: between) = t')
    (hid : d.id = c.id) (hanswers : t'.Answers d bytes first v n outcome) :
    Fits asked path (t'.hearing d bytes first) (t'.hearing d bytes (first ++ [.ok v])) ↔
      (t'.hearing d bytes first).bufferText path = asked ∨
        ¬ ((t'.hearing d bytes first).Runs d.identity d.id ∧
          (t'.hearing d bytes first).Applies path outcome) := by
  have hasked : (t.request kind path).Coherent fun _ => True :=
    ht.move (m := .event launch (.action (.request kind path))) (names_true _)
  have hcontinues : (t.request kind path).Continues t' := by
    rw [← ht']
    exact hasked.continues_run fun m _ => names_true m
  have hcoherent : t'.Coherent fun _ => True := by
    rw [← ht']
    exact ht.run fun m _ => names_true m
  -- what waits for the answer is the request that was made
  obtain ⟨request, hrequest⟩ := Option.isSome_iff_exists.1 hasks.pending
  obtain rfl := eq_of_pending_request ht hasks.connection hrequest hasks.numbered
  obtain ⟨waiting, hwaiting⟩ := Option.isSome_iff_exists.1 hanswers.pending
  have hreceives := Connection.receives_receiveResults
    { d with framer := (d.framer.feed bytes).2 } first
  have hbefore : d.requests.requests.get? n = some waiting :=
    hreceives.resolves.get?_of_get? hwaiting
  obtain ⟨hd, -⟩ := connection_of_findById hcoherent hanswers.connection
  obtain rfl := hcontinues.pending_eq hasked hasks.connection hrequest hd hid hbefore
  obtain ⟨r, id, hv, hrid, hn, rfl⟩ := hanswers.response
  rw [hearing_append, Connection.receiveResults_answer hv hrid hn hwaiting]
  exact fits_onInbounds_iff hkind

/-- **A formatting does no harm when the text is the one that was asked for, or when there is
nothing to put in its place, and only then.** A session asks for a formatting, and after any moves a
server answers; the answer is acted on behind what the same output gave before it. -/
theorem formatting_fits_iff {root : Path} {settings : Settings} {processId : Nat}
    {catalog : Catalog} {buffers : Buffers} {earlier : List Move}
    (ht : run ⟨.new root settings processId catalog, buffers, []⟩ earlier = t)
    (hkind : kind.editsDocument = true) (hasks : t.Asks kind path identity n c)
    (ht' : t.run (.event launch (.action (.request kind path)) :: between) = t')
    (hid : d.id = c.id) (hanswers : t'.Answers d bytes first v n outcome) :
    Fits (t.bufferText path) path (t'.hearing d bytes first)
        (t'.hearing d bytes (first ++ [.ok v])) ↔
      (t'.hearing d bytes first).bufferText path = t.bufferText path ∨
        ¬ ((t'.hearing d bytes first).Runs d.identity d.id ∧
          (t'.hearing d bytes first).Applies path outcome) := by
  have hcoherent : t.Coherent fun _ => True := by
    rw [← ht]
    exact (coherent_new root settings processId catalog buffers).run fun m _ => names_true m
  exact fits_hearing_iff hcoherent hkind hasks ht' hid hanswers

end

/-- The start of the document, as the wire gives it. -/
def sampleStart : Json := .obj [("character", .int 0), ("line", .int 0)]

/-- What a formatting of the document may come to: a letter goes to its start. -/
def sampleEdits : Json :=
  .arr [.obj [("newText", .str "z"),
    ("range", .obj [("end", sampleStart), ("start", sampleStart)])]]

theorem framable_sampleEdits : (Sample.answer 2 sampleEdits).Framable := by
  have hzero : Json.Exact (.int 0) := .int (by decide) (by decide)
  have hstart : sampleStart.Exact := .obj (by simp [hzero]) (by decide)
  have hedits : sampleEdits.Exact := by
    refine .arr fun v hv => ?_
    rw [List.mem_singleton.1 hv]
    refine .obj ?_ (by decide)
    have hrange : Json.Exact (.obj [("end", sampleStart), ("start", sampleStart)]) :=
      .obj (by simp [hstart]) (by decide)
    simp [hrange, Json.Exact.str]
  refine ⟨.obj ?_ (by decide), by decide +kernel, by decide +kernel⟩
  simp [hedits, Json.Exact.str, Json.Exact.int (n := 2) (by decide) (by decide)]

/-- The server of the small run is asked for a formatting of the document. -/
theorem asks_sample (ht : Sample.start.run Sample.opening = t) :
    ∃ c, t.Asks .format Sample.path "s" 2 c ∧ c.id = 1 := by
  have hnext : (t.connection "s").map (·.requests.nextId) = some 2 := by
    rw [← ht]
    decide +kernel
  have hasked : ((t.request .format Sample.path).connection "s").map
      (fun c => (c.id, (c.requests.requests.get? 2).isSome)) = some (1, true) := by
    rw [← ht]
    decide +kernel
  obtain ⟨before, hbefore, hnumber⟩ := Option.map_eq_some_iff.1 hnext
  obtain ⟨c, hc, hsent⟩ := Option.map_eq_some_iff.1 hasked
  obtain ⟨hid, hsent⟩ := Prod.mk.inj hsent
  refine ⟨c, ⟨hc, hsent, fun other hother => ?_⟩, hid⟩
  obtain rfl := Option.some.inj (hbefore.symm.trans hother)
  exact Nat.le_of_eq hnumber

/-- It answers when the host has changed the document. -/
theorem answers_sample (ht : Sample.start.run Sample.opening = t)
    (ht' : t.run [.event Sample.launch (.action (.request .format Sample.path)), Sample.change] =
      t') :
    ∃ d, t'.Answers d (Frame.encode (Sample.answer 2 sampleEdits)) [] (Sample.answer 2 sampleEdits)
        2 (.ok sampleEdits) ∧ d.id = 1 ∧
      (t'.hearing d (Frame.encode (Sample.answer 2 sampleEdits)) []).Runs d.identity d.id ∧
      (t'.hearing d (Frame.encode (Sample.answer 2 sampleEdits)) []).buffer Sample.path =
        some ⟨"y", 0, none⟩ := by
  have hanswered : (Registry.findById t'.session.connections 1).map (fun d =>
      let u := t'.hearing d (Frame.encode (Sample.answer 2 sampleEdits)) []
      (d.id, d.framer, (d.requests.requests.get? 2).isSome, u.buffer Sample.path,
        (u.connection d.identity).map (·.id))) =
      some (1, .empty, true, some ⟨"y", 0, none⟩, some 1) := by
    rw [← ht', ← ht]
    decide +kernel
  obtain ⟨d, hd, hheld⟩ := Option.map_eq_some_iff.1 hanswered
  simp only [Prod.mk.injEq] at hheld
  obtain ⟨hid, hframer, hpending, hbuffer, hruns⟩ := hheld
  obtain ⟨e, he, heid⟩ := Option.map_eq_some_iff.1 hruns
  refine ⟨d, ⟨hid.symm ▸ hd, ?_, ⟨_, _, rfl, rfl, rfl, rfl⟩, hpending⟩, hid,
    ⟨e, he, heid.trans hid.symm⟩, hbuffer⟩
  rw [hframer, Framer.feed_encode framable_sampleEdits]
  exact List.prefix_rfl

/-- A formatting of a document that the host changes before it is answered does harm. -/
theorem not_fits_of_change :
    ∃ t t' c d, Sample.start.run Sample.opening = t ∧ t.Asks .format Sample.path "s" 2 c ∧
      t.run [.event Sample.launch (.action (.request .format Sample.path)), Sample.change] = t' ∧
      d.id = c.id ∧
      t'.Answers d (Frame.encode (Sample.answer 2 sampleEdits)) [] (Sample.answer 2 sampleEdits) 2
        (.ok sampleEdits) ∧
      ¬ Fits (t.bufferText Sample.path) Sample.path
        (t'.hearing d (Frame.encode (Sample.answer 2 sampleEdits)) [])
        (t'.hearing d (Frame.encode (Sample.answer 2 sampleEdits))
          ([] ++ [.ok (Sample.answer 2 sampleEdits)])) := by
  obtain ⟨t, ht⟩ : ∃ t, Sample.start.run Sample.opening = t := ⟨_, rfl⟩
  obtain ⟨t', ht'⟩ : ∃ t', t.run [.event Sample.launch (.action (.request .format Sample.path)),
    Sample.change] = t' := ⟨_, rfl⟩
  have htext : t.bufferText Sample.path = some "x" := by
    rw [← ht]
    decide +kernel
  obtain ⟨c, hasks, hc⟩ := asks_sample ht
  obtain ⟨d, hanswers, hd, hruns, hbuffer⟩ := answers_sample ht ht'
  have hid : d.id = c.id := hd.trans hc.symm
  refine ⟨t, t', c, d, ht, hasks, ht', hid, hanswers, fun hfits => ?_⟩
  rcases (formatting_fits_iff ht rfl hasks ht' hid hanswers).1 hfits with hsame | hidle
  · rw [htext, bufferText, hbuffer] at hsame
    exact absurd hsame (by decide)
  · -- the letter that the answer puts in front applies to the changed text as well
    exact hidle ⟨hruns, sampleEdits, [⟨⟨⟨0, 0⟩, ⟨0, 0⟩⟩, "z"⟩], ⟨"y", 0, none⟩, ⟨"zy".toList, 0⟩,
      rfl, rfl, by simp, hbuffer, by decide +kernel⟩

end LanguageClient.Turn
