import LanguageClient.Proofs.Document.Address
import LanguageClient.Proofs.Session.Portions

/-!
# Output in pieces

A server's output comes in the pieces in which a pipe hands it on. In which pieces it comes makes no
difference to the session and to what the host is told (`Turn.delivered_eq_stdout`), but it does to
what the server is told: all that is asked in one piece is answered before any message of it is
acted on. What a session says of its own accord is the same and in the same order; an answer comes
too early, or is given to a server that has been torn down, exactly when it is asked for in a piece
with messages that would have been acted on before (`Turn.Overtaken`).
-/

namespace LanguageClient

/-- What an effect tells the host. -/
def Effect.told? : Effect → Option Callback
  | tell cb => some cb
  | _ => none

/-- Whether an effect writes to a wire. -/
def Effect.isWrite : Effect → Bool
  | write _ _ => true
  | _ => false

namespace Turn

variable {named : Path → Prop} {t : Turn} {c : Connection} {id : ConnectionId}
  {bytes more piece : Bytes} {pieces rest : List Bytes}

/-- A turn in which pieces of output of a server have come one after another. -/
def delivered (t : Turn) (id : ConnectionId) (pieces : List Bytes) : Turn :=
  pieces.foldl (fun t piece => t.stdout id piece) t

theorem Steady.stdout (h : t.Steady named) (id : ConnectionId) (bytes : Bytes) :
    (t.stdout id bytes).Steady named :=
  h.move (m := .event (fun _ => .refused "") (.stdout id bytes)) trivial

/-- All that was done, in order, but for what was written. -/
def unwritten (t : Turn) : List Effect :=
  t.effects.filter (!·.isWrite)

/-- The host is told nothing by what is written. -/
theorem told_eq_filterMap (t : Turn) : t.told = t.unwritten.filterMap Effect.told? := by
  change t.effects.filterMap Effect.told? = _
  rw [unwritten, List.filterMap_filter]
  congr 1
  funext e
  cases e <;> rfl

/-- What is done about some output but for what is written comes from acting on messages. -/
theorem unwritten_stdout (h : t.Coherent named) (id : ConnectionId) (bytes : Bytes) :
    (t.stdout id bytes).unwritten = t.unwritten ++ (t.acted id bytes).filter (!·.isWrite) := by
  have hreplies : ((t.replies id bytes).map (Effect.write id)).filter (!·.isWrite) = [] := by
    refine List.filter_eq_nil_iff.2 fun e he => ?_
    obtain ⟨m, -, rfl⟩ := List.mem_map.1 he
    exact Bool.false_ne_true
  rw [unwritten, effects_stdout h, List.filter_append, List.filter_append, hreplies,
    List.append_nil, unwritten]

theorem stdout_nil (h : t.Steady named) (id : ConnectionId) : t.stdout id [] = t := by
  cases hfind : Registry.findById t.session.connections id with
  | none => exact stdout_of_findById_eq_none hfind []
  | some c =>
    obtain ⟨hc, rfl⟩ := connection_of_findById h.coherent hfind
    have hreceive : c.receive [] = (⟨[], []⟩, c) := by
      rw [Connection.receive, (h.settled c.identity c hc).feed_nil]
      rfl
    simp only [Turn.stdout, hfind, hreceive, keep_of_connection hc, onInbounds]
    simp [write]

/-- What is left of brief output is brief. -/
theorem Brief.stdout (h : t.Steady named) (hbrief : t.Brief id (bytes ++ more)) :
    (t.stdout id bytes).Brief id more := by
  intro d' hfind'
  cases hfind : Registry.findById t.session.connections id with
  | none =>
    rw [stdout_of_findById_eq_none hfind, hfind] at hfind'
    cases hfind'
  | some c =>
    have hwhole := hbrief c hfind
    obtain ⟨hc, rfl⟩ := connection_of_findById h.coherent hfind
    cases hd : (t.handled c bytes).connection c.identity with
    | none =>
      rw [findById_stdout_of_gone h.coherent hc hd] at hfind'
      cases hfind'
    | some d =>
      obtain ⟨d'', hidentity, hid, hstands, hhears⟩ :=
        findById_stdout_of_connection h.toRegular hc hd
      have hfound := findById_of_connection (h.stdout c.id bytes).coherent (hidentity ▸ hstands)
      rw [hid, hfind'] at hfound
      obtain rfl := Option.some.inj hfound
      rw [← Decoder.push_push] at hwhole
      have hdrains := (Framer.drains_feed (h.settled c.identity c hc).valid bytes).1
      rw [← hhears.framer, c.framer_receive]
      exact (hwhole.drains hdrains).2

/-- Some output, cut into two, comes to the same session and buffers, and but for what is written
the same is done. -/
theorem stdout_stdout (h : t.Steady named) (hbrief : t.Brief id (bytes ++ more)) :
    ((t.stdout id bytes).stdout id more).session = (t.stdout id (bytes ++ more)).session ∧
      ((t.stdout id bytes).stdout id more).buffers = (t.stdout id (bytes ++ more)).buffers ∧
      ((t.stdout id bytes).stdout id more).unwritten = (t.stdout id (bytes ++ more)).unwritten := by
  have hsplits := splits h hbrief
  have hturn := hsplits.turn
  have hsession := congrArg Turn.session hturn
  have hbuffers := congrArg Turn.buffers hturn
  refine ⟨hsession, hbuffers, ?_⟩
  rw [unwritten_stdout (h.stdout id bytes).coherent, unwritten_stdout h.coherent,
    unwritten_stdout h.coherent, hsplits.acted, List.filter_append, List.append_assoc]

/-- **The pieces of some output come to what it comes to at once.** -/
theorem delivered_eq_stdout (h : t.Steady named) (hbrief : t.Brief id pieces.flatten) :
    (t.delivered id pieces).session = (t.stdout id pieces.flatten).session ∧
      (t.delivered id pieces).buffers = (t.stdout id pieces.flatten).buffers ∧
      (t.delivered id pieces).unwritten = (t.stdout id pieces.flatten).unwritten := by
  induction pieces generalizing t with
  | nil =>
    rw [List.flatten_nil, stdout_nil h]
    exact ⟨rfl, rfl, rfl⟩
  | cons piece rest ih =>
    rw [List.flatten_cons] at hbrief ⊢
    obtain ⟨hsession, hbuffers, hdone⟩ := ih (h.stdout id piece) (hbrief.stdout h)
    obtain ⟨hsession', hbuffers', hdone'⟩ := stdout_stdout h hbrief
    exact ⟨hsession.trans hsession', hbuffers.trans hbuffers', hdone.trans hdone'⟩

/-! ## What is written -/

/-- What a session says to a server of its own accord when it acts on some output of the server. -/
def speech (t : Turn) (id : ConnectionId) (bytes : Bytes) : List Json :=
  messagesTo id (t.acted id bytes)

/-- Whether an answer to something a server asks in later pieces of its output would come before
what an earlier piece makes the session say, or to a server that an earlier piece made end. -/
inductive Overtaken (id : ConnectionId) : Turn → List Bytes → Prop where
  | here {t : Turn} {piece : Bytes} {rest : List Bytes}
      (asks : t.repliesAfter id piece rest.flatten ≠ [])
      (ahead : t.speech id piece ≠ [] ∨
        Registry.findById (t.stdout id piece).session.connections id = none) :
      Overtaken id t (piece :: rest)
  | later {t : Turn} {piece : Bytes} {rest : List Bytes}
      (h : Overtaken id (t.stdout id piece) rest) : Overtaken id t (piece :: rest)

/-- Whether the client writes a message of its own accord and not in answer to a server's
request. -/
def IsOwn (message : Json) : Bool := (Conversation.line? message).isSome

theorem writtenTo_stdout (h : t.Coherent named) (id : ConnectionId) (bytes : Bytes) :
    (t.stdout id bytes).writtenTo id = t.writtenTo id ++ (t.replies id bytes ++ t.speech id bytes) := by
  have hreplies := messagesTo_writes id id (t.replies id bytes)
  rw [if_pos rfl] at hreplies
  have heffects := effects_stdout h id bytes
  rw [List.append_assoc] at heffects
  rw [writtenTo_of_effects heffects, messagesTo_append, hreplies, speech]

theorem isOwn_of_mem_replies {m : Json} (h : m ∈ t.replies id bytes) : IsOwn m = false := by
  unfold replies at h
  split at h
  · cases h
  · next c _ =>
    obtain ⟨-, r, rfl⟩ := (c.receives_receive bytes).replies m h
    rw [IsOwn, Conversation.line?_response]
    rfl

theorem isOwn_of_mem_repliesAfter {m : Json} (h : m ∈ t.repliesAfter id bytes more) :
    IsOwn m = false := by
  unfold repliesAfter at h
  split at h
  · cases h
  · next c _ =>
    obtain ⟨-, r, rfl⟩ := ((c.receive bytes).2.receives_receive more).replies m h
    rw [IsOwn, Conversation.line?_response]
    rfl

theorem isOwn_of_mem_speech {m : Json} (h : m ∈ t.speech id bytes) : IsOwn m = true := by
  rw [speech, mem_messagesTo, acted] at h
  split at h
  · cases h
  · next c _ =>
    have hconfined : Confined (fun _ => True) c.identity t (t.handled c bytes) :=
      confined_onInbounds trivial fun _ _ _ _ => trivial
    obtain ⟨more, hmore, hall⟩ := hconfined.effects
    rw [added_of_effects_eq hmore] at h
    obtain ⟨-, n, rfl⟩ := hall _ h
    rw [IsOwn, Conversation.line?_toJson]
    rfl

/-- What is written to a server of some output in pieces: the same is said of its own accord, some
first of the same answers are given, and it is in the same order unless it is overtaken. -/
structure Exchange (t : Turn) (id : ConnectionId) (pieces : List Bytes) (messages : List Json) :
    Prop where
  written : (t.delivered id pieces).writtenTo id = t.writtenTo id ++ messages
  own : messages.filter IsOwn = t.speech id pieces.flatten
  replies : messages.filter (!IsOwn ·) <+: t.replies id pieces.flatten
  ordered : messages = t.replies id pieces.flatten ++ t.speech id pieces.flatten ↔
    ¬ Overtaken id t pieces

theorem overtaken_cons : Overtaken id t (piece :: rest) ↔
    (t.repliesAfter id piece rest.flatten ≠ [] ∧ (t.speech id piece ≠ [] ∨
      Registry.findById (t.stdout id piece).session.connections id = none)) ∨
    Overtaken id (t.stdout id piece) rest := by
  constructor
  · intro h
    cases h with
    | here asks ahead => exact .inl ⟨asks, ahead⟩
    | later h => exact .inr h
  · rintro (⟨asks, ahead⟩ | h)
    · exact .here asks ahead
    · exact .later h

theorem speech_append (h : t.Splits id bytes more) : t.speech id (bytes ++ more) =
    t.speech id bytes ++ (t.stdout id bytes).speech id more := by
  rw [speech, h.acted, messagesTo_append, speech, speech]

theorem filter_replies (t : Turn) (id : ConnectionId) (bytes : Bytes) :
    (t.replies id bytes).filter IsOwn = [] ∧
      (t.replies id bytes).filter (!IsOwn ·) = t.replies id bytes := by
  constructor
  · exact List.filter_eq_nil_iff.2 fun m hm => by simp [isOwn_of_mem_replies hm]
  · exact List.filter_eq_self.2 fun m hm => by simp [isOwn_of_mem_replies hm]

theorem filter_speech (t : Turn) (id : ConnectionId) (bytes : Bytes) :
    (t.speech id bytes).filter IsOwn = t.speech id bytes ∧
      (t.speech id bytes).filter (!IsOwn ·) = [] := by
  constructor
  · exact List.filter_eq_self.2 fun m hm => isOwn_of_mem_speech hm
  · exact List.filter_eq_nil_iff.2 fun m hm => by simp [isOwn_of_mem_speech hm]

/-- Answers come before what is said of the session's own accord only if there are none or nothing
is said. -/
theorem eq_nil_of_append_eq {answers own more more' : List Json}
    (hanswers : ∀ m ∈ answers, IsOwn m = false) (hown : ∀ m ∈ own, IsOwn m = true)
    (h : own ++ more = answers ++ (own ++ more')) : answers = [] ∨ own = [] := by
  cases answers with
  | nil => exact .inl rfl
  | cons a answers =>
    cases own with
    | nil => exact .inr rfl
    | cons o own =>
      rw [List.cons_append, List.cons_append] at h
      have ha := hanswers a List.mem_cons_self
      rw [← (List.cons.inj h).1, hown o List.mem_cons_self] at ha
      cases ha

/-- What is said about a first piece and written of the rest is in order exactly if nothing in the
rest is overtaken by it and the rest is in order. -/
theorem ordered_cons {messages : List Json} (hsplits : t.Splits id piece rest.flatten)
    (hrest : (t.stdout id piece).Exchange id rest messages) :
    t.speech id piece ++ messages = t.repliesAfter id piece rest.flatten ++
        (t.speech id piece ++ (t.stdout id piece).speech id rest.flatten) ↔
      ¬ ((t.repliesAfter id piece rest.flatten ≠ [] ∧ (t.speech id piece ≠ [] ∨
        Registry.findById (t.stdout id piece).session.connections id = none)) ∨
          Overtaken id (t.stdout id piece) rest) := by
  have hlater := hsplits.later
  have hordered := hrest.ordered
  by_cases hasks : t.repliesAfter id piece rest.flatten = []
  · -- nothing is asked in the rest, so that it can only be out of order itself
    have hnothing : (t.stdout id piece).replies id rest.flatten = [] := by
      rw [hlater, hasks, ite_self]
    rw [hnothing, List.nil_append] at hordered
    simp [hasks, hordered]
  · by_cases hspeech : t.speech id piece = []
    · cases hfind : Registry.findById (t.stdout id piece).session.connections id with
      | none =>
        -- what is asked in the rest is not answered
        rw [hfind, Option.isSome_none, if_neg Bool.false_ne_true] at hlater
        have hanswered := hrest.replies
        rw [hlater, List.prefix_nil] at hanswered
        refine iff_of_false (fun heq => hasks ?_) (by simp [hasks])
        have hfiltered := congrArg (List.filter (!IsOwn ·)) heq
        rw [hspeech, List.nil_append, List.nil_append, hanswered, List.filter_append,
          List.filter_eq_self.2 fun m hm => by simp [isOwn_of_mem_repliesAfter hm]] at hfiltered
        exact (List.append_eq_nil_iff.1 hfiltered.symm).1
      | some d =>
        rw [hfind, Option.isSome_some, if_pos rfl] at hlater
        rw [hlater] at hordered
        simp [hspeech, hordered]
    · refine iff_of_false (fun heq => ?_) (by simp [hasks, hspeech])
      rcases eq_nil_of_append_eq (fun m => isOwn_of_mem_repliesAfter)
        (fun m => isOwn_of_mem_speech) heq with hnil | hnil
      · exact hasks hnil
      · exact hspeech hnil

theorem exchange_cons {messages : List Json} (h : t.Steady named)
    (hbrief : t.Brief id (piece ++ rest.flatten))
    (hrest : (t.stdout id piece).Exchange id rest messages) :
    t.Exchange id (piece :: rest) (t.replies id piece ++ (t.speech id piece ++ messages)) := by
  have hsplits := splits h hbrief
  have hspeech := speech_append hsplits
  obtain ⟨hreplies, hreplies'⟩ := filter_replies t id piece
  obtain ⟨hown, hown'⟩ := filter_speech t id piece
  have hlater : (t.stdout id piece).replies id rest.flatten <+:
      t.repliesAfter id piece rest.flatten := by
    rw [hsplits.later]
    split
    · exact List.prefix_rfl
    · exact List.nil_prefix
  refine ⟨?_, ?_, ?_, ?_⟩
  · have hdelivered : (t.delivered id (piece :: rest)).writtenTo id =
        (t.stdout id piece).writtenTo id ++ messages := hrest.written
    rw [hdelivered, writtenTo_stdout h.coherent, List.append_assoc, List.append_assoc]
  · rw [List.filter_append, List.filter_append, hreplies, hown, hrest.own, List.flatten_cons,
      hspeech, List.nil_append]
  · rw [List.filter_append, List.filter_append, hreplies', hown', List.nil_append,
      List.flatten_cons, hsplits.whole]
    exact (List.prefix_append_right_inj _).2 (hrest.replies.trans hlater)
  · rw [List.flatten_cons, hspeech, hsplits.whole, overtaken_cons, List.append_assoc,
      List.append_cancel_left_eq]
    exact ordered_cons hsplits hrest

theorem exchange (h : t.Steady named) (hbrief : t.Brief id pieces.flatten) :
    ∃ messages, t.Exchange id pieces messages := by
  induction pieces generalizing t with
  | nil =>
    have hnothing := writtenTo_stdout h.coherent id []
    rw [stdout_nil h, List.self_eq_append_right, List.append_eq_nil_iff] at hnothing
    obtain ⟨hreplies, hspeech⟩ := hnothing
    refine ⟨[], (List.append_nil _).symm, ?_, ?_, ?_⟩
    · rw [List.flatten_nil, hspeech, List.filter_nil]
    · rw [List.filter_nil]
      exact List.nil_prefix
    · rw [List.flatten_nil, hspeech, hreplies]
      exact iff_of_true rfl fun hovertaken => by cases hovertaken
  | cons piece rest ih =>
    rw [List.flatten_cons] at hbrief
    obtain ⟨messages, hrest⟩ := ih (h.stdout id piece) (hbrief.stdout h)
    exact ⟨_, exchange_cons h hbrief hrest⟩

/-! ## Runs -/

/-- **In which pieces output comes makes no difference to a session**: at any time of a run the
session and the host's buffers come out the same, the host is told the same in the same order, and
so it is with all else that is done but for what is written. -/
theorem session_delivered (ht : t.Reached) (hbrief : t.Brief id pieces.flatten) :
    (t.delivered id pieces).session = (t.stdout id pieces.flatten).session ∧
      (t.delivered id pieces).buffers = (t.stdout id pieces.flatten).buffers ∧
      (t.delivered id pieces).told = (t.stdout id pieces.flatten).told ∧
      (t.delivered id pieces).unwritten = (t.stdout id pieces.flatten).unwritten := by
  obtain ⟨hsession, hbuffers, hdone⟩ := delivered_eq_stdout ht.steady hbrief
  refine ⟨hsession, hbuffers, ?_, hdone⟩
  rw [told_eq_filterMap, told_eq_filterMap, hdone]

/-- **What is written to a server is the same in whatever pieces its output comes, unless an answer
is overtaken.** What is said of the session's own accord is the same in any case, and the answers
that are given to pieces are the first of those that are given to the whole. -/
theorem writtenTo_delivered_eq_iff (ht : t.Reached) (hbrief : t.Brief id pieces.flatten) :
    ((t.delivered id pieces).writtenTo id = (t.stdout id pieces.flatten).writtenTo id ↔
        ¬ Overtaken id t pieces) ∧
      ((t.delivered id pieces).writtenTo id).filter IsOwn =
        ((t.stdout id pieces.flatten).writtenTo id).filter IsOwn ∧
      ((t.delivered id pieces).writtenTo id).filter (!IsOwn ·) <+:
        ((t.stdout id pieces.flatten).writtenTo id).filter (!IsOwn ·) := by
  have hsteady := ht.steady
  obtain ⟨messages, hexchange⟩ := exchange hsteady hbrief
  obtain ⟨hreplies, hreplies'⟩ := filter_replies t id pieces.flatten
  obtain ⟨hspeech, hspeech'⟩ := filter_speech t id pieces.flatten
  rw [hexchange.written, writtenTo_stdout hsteady.coherent, List.append_cancel_left_eq]
  refine ⟨hexchange.ordered, ?_, ?_⟩
  · simp only [List.filter_append, hexchange.own, hreplies, hspeech, List.nil_append]
  · simp only [List.filter_append, hreplies', hspeech', List.append_nil]
    exact (List.prefix_append_right_inj _).2 hexchange.replies

end Turn

namespace Sample

/-- The server asks for its settings. -/
def question : Bytes :=
  Frame.encode (.obj [("id", .int 7), ("jsonrpc", .str "2.0"),
    ("method", .str "workspace/configuration"), ("params", .obj [("items", .arr [.obj []])])])

/-- Both of what it says is short enough to come in any pieces. -/
theorem brief_starting {bytes : Bytes} (h : bytes.length ≤ 1000) :
    (start.run starting).Brief 1 bytes := by
  have hframer : (Registry.findById (start.run starting).session.connections 1).map (·.framer) =
      some .empty := by decide +kernel
  intro c hc
  rw [hc, Option.map_some] at hframer
  rw [Option.some.inj hframer]
  refine Decoder.brief_of_length_le ?_
  change ([] ++ bytes).length ≤ 8192 - 3
  rw [List.nil_append]
  omega

end Sample

namespace Turn

/-- The answer to the handshake comes with the beginning of the question, and the rest later. -/
theorem session_delivered_starting :
    let pieces := [Sample.greeting ++ Sample.question.take 9, Sample.question.drop 9]
    (Sample.start.run Sample.starting).Brief 1 pieces.flatten ∧
      ((Sample.start.run Sample.starting).delivered 1 pieces).session =
        ((Sample.start.run Sample.starting).stdout 1 pieces.flatten).session ∧
      ((Sample.start.run Sample.starting).delivered 1 pieces).told = [.connected "s" none] := by
  intro pieces
  have hbrief : (Sample.start.run Sample.starting).Brief 1 pieces.flatten :=
    Sample.brief_starting (by decide +kernel)
  obtain ⟨hsession, -⟩ := session_delivered (reached_sample Sample.starting) hbrief
  exact ⟨hbrief, hsession, by decide +kernel⟩

/-- The question is answered before the greetings if it comes with the answer to the handshake. -/
theorem writtenTo_delivered_starting :
    let pieces := [Sample.greeting, Sample.question]
    (Sample.start.run Sample.starting).Brief 1 pieces.flatten ∧
      Overtaken 1 (Sample.start.run Sample.starting) pieces ∧
      ((Sample.start.run Sample.starting).delivered 1 pieces).writtenTo 1 ≠
        ((Sample.start.run Sample.starting).stdout 1 pieces.flatten).writtenTo 1 := by
  intro pieces
  have hbrief : (Sample.start.run Sample.starting).Brief 1 pieces.flatten :=
    Sample.brief_starting (by decide +kernel)
  have hasks : ((Sample.start.run Sample.starting).repliesAfter 1 Sample.greeting
      [Sample.question].flatten).isEmpty = false := by decide +kernel
  have hspeech : ((Sample.start.run Sample.starting).speech 1 Sample.greeting).isEmpty = false := by
    decide +kernel
  have hovertaken : Overtaken 1 (Sample.start.run Sample.starting) pieces := by
    refine .here (fun hnil => ?_) (.inl fun hnil => ?_)
    · rw [hnil] at hasks
      cases hasks
    · rw [hnil] at hspeech
      cases hspeech
  obtain ⟨hiff, -⟩ := writtenTo_delivered_eq_iff (reached_sample Sample.starting) hbrief
  exact ⟨hbrief, hovertaken, fun heq => hiff.1 heq hovertaken⟩

end Turn
end LanguageClient
