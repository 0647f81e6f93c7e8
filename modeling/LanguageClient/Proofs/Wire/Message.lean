import LanguageClient.Proofs.Json.Record
import LanguageClient.Proofs.Wire.Stream
import LanguageClient.Wire.Message

/-!
# The message round trip

A message that is written is read as one that says the same, of the same kind. Its fields are
written in the order declared and read in key order, absent ones are left out, and the kind is told
again by which fields are there (`Message.Built.returns`). Over a stream of messages in any pieces
this holds of each of them in turn, as long as each fits a frame.
-/

namespace LanguageClient

open Json (ReadsAs FieldReadsAs)

/-! ## Identifiers and errors -/

namespace RequestId

/-- Whether an identifier that is a number is one of 64 bits. -/
def Fits : RequestId → Prop
  | number n => n < bound64
  | text _ => True

theorem Fits.exact {id : RequestId} (h : id.Fits) : id.toJson.Exact := by
  cases id with
  | number n => exact .int (by omega) (by exact_mod_cast (show n < bound64 from h))
  | text s => exact .str s

theorem decoder_toJson (id : RequestId) : decoder id.toJson = .ok id := by
  cases id with
  | number n => simp [toJson, decoder]
  | text s => rfl

theorem toJson_ne_null (id : RequestId) : id.toJson ≠ .null := by
  cases id <;> simp [toJson]

end RequestId

theorem Decoder.optional_of_ne_null {α : Type} {d : Decoder α} {v : Json} (h : v ≠ .null) :
    Decoder.optional d v = some <$> d v := by
  cases v <;> first | rfl | exact absurd rfl h

namespace ResponseError

/-- What the wire gives back of an error: its code is one of 32 bits, and its data, if it has any,
are not `null`, which would be read as none. -/
structure Fits (e : ResponseError) : Prop where
  code : -(bound31 : Int) ≤ e.code ∧ e.code < bound31
  data : ∀ v ∈ e.data, v.Exact ∧ v ≠ .null

theorem Fits.exact_code {e : ResponseError} (h : e.Fits) : (Json.int e.code).Exact := by
  have hlow : (bound31 : Int) ≤ bound63 := by decide
  have hhigh : (bound31 : Int) ≤ bound64 := by decide
  exact .int (by have := h.code; omega) (by have := h.code; omega)

theorem Fits.read_code {e : ResponseError} (h : e.Fits) :
    Decoder.i32 (.int e.code) = .ok e.code := by
  have hrange : (-(bound31 : Int) ≤ e.code && e.code ≤ bound31 - 1) = true := by
    simp only [Bool.and_eq_true, decide_eq_true_eq]
    have := h.code
    omega
  rw [Decoder.i32, Decoder.integer, if_pos hrange]

/-- **An error is read as it was written.** -/
theorem Fits.reads {e : ResponseError} (h : e.Fits) :
    ∃ fields, ReadsAs e.toJson (Json.object fields) ∧ decoder (Json.object fields) = .ok e := by
  have hcode := h.read_code
  have hexact := h.exact_code
  obtain ⟨code, message, data⟩ := e
  cases data with
  | none =>
    refine ⟨_, Json.readsAs_object ?_, ?_⟩
    · simp [hexact, Json.Exact.str]
    · rw [decoder, Layout.decoder_object]
      simp [Layout.ofFields_also, Layout.ofFields_start, Layout.ofFields_required,
        Layout.ofFields_defaulted, Layout.ofFields_nullable, hcode, Decoder.string]
  | some v =>
    obtain ⟨hv, hnull⟩ := h.data v rfl
    refine ⟨_, Json.readsAs_object ?_, ?_⟩
    · simp [hexact, Json.Exact.str, hv]
    · rw [decoder, Layout.decoder_object]
      simp [Layout.ofFields_also, Layout.ofFields_start, Layout.ofFields_required,
        Layout.ofFields_defaulted, Layout.ofFields_nullable, hcode, Decoder.string,
        Decoder.optional_of_ne_null hnull, Decoder.any]

end ResponseError

/-! ## Messages -/

namespace Message

/-- A message that one of the constructors gives for values that the wire can carry. -/
inductive Built : Message → Prop where
  | request {id : Nat} {params : Option Json} (method : String) (hid : id < bound64)
      (hparams : ∀ v ∈ params, v.Exact) : Built (.request (.new id method params))
  | notification {params : Option Json} (method : String) (hparams : ∀ v ∈ params, v.Exact) :
      Built (.notification (.new method params))
  | success {id : RequestId} {result : Json} (hid : id.Fits) (hresult : result.Exact) :
      Built (.response (.success id result))
  | failure {id : RequestId} {error : ResponseError} (hid : id.Fits) (herror : error.Fits) :
      Built (.response (.failure id error))

/-- Whether two messages say the same. A response that has no result says the same as one whose
result is `null`, so that of responses the outcomes are compared. -/
def Agrees : Message → Message → Prop
  | .request r, .request r' => r = r'
  | .notification n, .notification n' => n = n'
  | .response r, .response r' =>
    r.version = r'.version ∧ r.id = r'.id ∧ r.outcome = r'.outcome
  | _, _ => False

theorem exact_paramsOrEmpty {params : Option Json} (h : ∀ v ∈ params, v.Exact) :
    (paramsOrEmpty params).Exact := by
  unfold paramsOrEmpty
  split
  · exact .obj (by simp) .nil
  · exact .obj (by simp) .nil
  · exact h _ rfl

/-- What holds of a message that comes back: some value is what its text reads as, and this value
is taken for a message that says the same. -/
def Returns (m : Message) : Prop :=
  ∃ v read, ReadsAs m.toJson v ∧ decoder v = .ok read ∧ m.Agrees read

theorem returns_request {r : Request} (hid : r.id.Fits) (hparams : r.params.Exact) :
    (request r).Returns := by
  refine ⟨_, request r, Json.readsAs_object ?_, ?_, rfl⟩
  · simp [hid.exact, hparams, Json.Exact.str]
  · have hread : Request.decoder (Json.object [("jsonrpc", .str r.version), ("id", r.id.toJson),
        ("method", .str r.method), ("params", r.params)]) = .ok r := by
      rw [Request.decoder, Layout.decoder_object]
      simp [Layout.ofFields_also, Layout.ofFields_start, Layout.ofFields_required,
        Layout.ofFields_defaulted, RequestId.decoder_toJson, Decoder.string, Decoder.any]
    simp [decoder, Json.get?_object, hread]

theorem returns_notification {n : Notification} (hparams : n.params.Exact) :
    (notification n).Returns := by
  refine ⟨_, notification n, Json.readsAs_object ?_, ?_, rfl⟩
  · simp [hparams, Json.Exact.str]
  · have hread : Notification.decoder (Json.object [("jsonrpc", .str n.version),
        ("method", .str n.method), ("params", n.params)]) = .ok n := by
      rw [Notification.decoder, Layout.decoder_object]
      simp [Layout.ofFields_also, Layout.ofFields_start, Layout.ofFields_required,
        Layout.ofFields_defaulted, Decoder.string, Decoder.any]
    simp [decoder, Json.get?_object, hread]

/-- A result of `null` is read as no result, which the outcome of a response does not tell apart. -/
theorem returns_success {id : RequestId} {result : Json} (hid : id.Fits) (hresult : result.Exact) :
    (response (.success id result)).Returns := by
  obtain ⟨given, hgiven, houtcome⟩ : ∃ given, Decoder.optional Decoder.any result = .ok given ∧
      given.getD .null = result := by
    by_cases hnull : result = .null
    · exact ⟨none, by rw [hnull]; rfl, hnull.symm⟩
    · exact ⟨some result, by rw [Decoder.optional_of_ne_null hnull]; rfl, rfl⟩
  refine ⟨_, response ⟨protocolVersion, some id, given, none⟩, Json.readsAs_object ?_, ?_, rfl, rfl,
    ?_⟩
  · simp [Response.success, Json.ofOption, hid.exact, hresult, Json.Exact.str]
  · have hread : Response.decoder (Json.object [("jsonrpc", .str protocolVersion),
        ("id", id.toJson), ("result", result)]) = .ok ⟨protocolVersion, some id, given, none⟩ := by
      rw [Response.decoder, Layout.decoder_object]
      simp [Layout.ofFields_also, Layout.ofFields_start, Layout.ofFields_required,
        Layout.ofFields_nullable, RequestId.decoder_toJson, hgiven,
        Decoder.optional_of_ne_null id.toJson_ne_null, Decoder.string]
    simp [decoder, Response.success, Json.ofOption, Json.get?_object, hread]
  · simp [Response.outcome, Response.success, houtcome]

theorem returns_failure {id : RequestId} {error : ResponseError} (hid : id.Fits)
    (herror : error.Fits) : (response (.failure id error)).Returns := by
  obtain ⟨fields, hreads, hdecoded⟩ := herror.reads
  have hfields : List.Forall₂ FieldReadsAs
      [("jsonrpc", .str protocolVersion), ("id", id.toJson), ("error", error.toJson)]
      [("jsonrpc", .str protocolVersion), ("id", id.toJson), ("error", Json.object fields)] :=
    .cons ⟨rfl, Json.readsBack_str _⟩ (.cons ⟨rfl, Json.readsBack_of_exact hid.exact⟩
      (.cons ⟨rfl, hreads⟩ .nil))
  refine ⟨_, response (.failure id error), Json.readsAs_obj hfields, ?_, rfl, rfl, rfl⟩
  have hnull : Json.object fields ≠ .null := by simp [Json.object]
  have hread : Response.decoder (Json.object [("jsonrpc", .str protocolVersion),
      ("id", id.toJson), ("error", Json.object fields)]) = .ok (.failure id error) := by
    rw [Response.decoder, Layout.decoder_object]
    simp [Layout.ofFields_also, Layout.ofFields_start, Layout.ofFields_required,
      Layout.ofFields_nullable, RequestId.decoder_toJson, hdecoded, Response.failure,
      Decoder.optional_of_ne_null id.toJson_ne_null, Decoder.optional_of_ne_null hnull,
      Decoder.string]
  simp [decoder, Json.get?_object, hread]

/-- **A message that was built comes back.** -/
theorem Built.returns {m : Message} (h : m.Built) : m.Returns := by
  cases h with
  | request method hid hparams => exact returns_request hid (exact_paramsOrEmpty hparams)
  | notification method hparams => exact returns_notification (exact_paramsOrEmpty hparams)
  | success hid hresult => exact returns_success hid hresult
  | failure hid herror => exact returns_failure hid herror

/-- Whether a result of a decoder is a value that is taken for a message that says the same. -/
def Arrives (m : Message) (r : Framer.Result) : Prop :=
  ∃ v read, r = .ok v ∧ decoder v = .ok read ∧ m.Agrees read

/-- The body that carries a message. -/
def body (m : Message) : Bytes := Utf8.encode m.toJson.chars

theorem Built.arrives {m : Message} (h : m.Built) (hdepth : m.toJson.depth < 128) :
    m.Arrives (Decoder.readBody m.body) := by
  obtain ⟨v, read, hreads, hdecoded, hagrees⟩ := h.returns
  have hbody : Json.ofBytes? m.body = some v :=
    Json.ofBytes?_of_readsAs hreads (Nat.le_of_lt_succ hdepth)
  exact ⟨v, read, by rw [Decoder.readBody, hbody], hdecoded, hagrees⟩

end Message

/-! ## Streams of messages -/

namespace Framer

open Decoder

/-- **Whatever pieces a stream of messages comes in, each arrives once, in order**, as long as it
nests no deeper and is no longer than what a decoder takes; nothing is left over. -/
theorem arrives_feedAll {ms : List Message} (hbuilt : ∀ m ∈ ms, m.Built)
    (hdepth : ∀ m ∈ ms, m.toJson.depth < 128)
    (hshort : ∀ m ∈ ms, m.body.length ≤ Frame.maxLength) {pieces : List Bytes}
    (hp : pieces.flatten = ms.flatMap fun m => Frame.encode m.toJson) :
    List.Forall₂ Message.Arrives ms (feedAll empty pieces).1.flatten ∧
      (feedAll empty pieces).2.buffer = [] ∧ (feedAll empty pieces).2.awaited = none := by
  have hbodies : ∀ body ∈ ms.map Message.body, body.length ≤ Frame.maxLength := by
    simpa using hshort
  have hstream : pieces.flatten = (ms.map Message.body).flatMap Frame.wrap := by
    rw [hp, List.flatMap_map]
    rfl
  obtain ⟨hresults, hview⟩ := feedAll_wrap hbodies hstream
  refine ⟨?_, congrArg State.buffer hview, congrArg State.awaited hview⟩
  rw [hresults, List.map_map, List.forall₂_map_right_iff, List.forall₂_same]
  exact fun m hm => (hbuilt m hm).arrives (hdepth m hm)

/-- A request without parameters, a notification whose parameters are `null`, a result that is
`null` and an error with data. -/
def sampleMessages : List Message :=
  [.request (.new 7 "shutdown" none), .notification (.new "exit" (some .null)),
    .response (.success (.text "é") .null),
    .response (.failure (.number 7) ⟨-32601, "no", some (.arr [.int 1])⟩)]

theorem built_sampleMessages : ∀ m ∈ sampleMessages, m.Built := by
  have herror : ResponseError.Fits ⟨-32601, "no", some (.arr [.int 1])⟩ := by
    refine ⟨by decide, ?_⟩
    have hone : (Json.int 1).Exact := .int (by decide) (by decide)
    have harr : (Json.arr [.int 1]).Exact := .arr (by simpa using hone)
    simpa using harr
  simp only [sampleMessages, List.forall_mem_cons, List.not_mem_nil, false_imp_iff, implies_true,
    and_true]
  refine ⟨.request _ (by decide) (by simp), .notification _ ?_, .success trivial .null,
    .failure (show 7 < bound64 by decide) herror⟩
  simpa using Json.Exact.null

theorem arrives_feedAll_sample :
    let stream := sampleMessages.flatMap fun m => Frame.encode m.toJson
    (∀ m ∈ sampleMessages, m.Built) ∧ (∀ m ∈ sampleMessages, m.toJson.depth < 128) ∧
      (∀ m ∈ sampleMessages, m.body.length ≤ Frame.maxLength) ∧
      [stream.take 50, [], stream.drop 50].flatten = stream ∧
      List.Forall₂ Message.Arrives sampleMessages
        (feedAll empty [stream.take 50, [], stream.drop 50]).1.flatten := by
  intro stream
  have hdepth : ∀ m ∈ sampleMessages, m.toJson.depth < 128 := by decide
  have hshort : ∀ m ∈ sampleMessages, m.body.length ≤ Frame.maxLength := by decide
  have hp : [stream.take 50, [], stream.drop 50].flatten = stream := by simp
  exact ⟨built_sampleMessages, hdepth, hshort, hp,
    (arrives_feedAll built_sampleMessages hdepth hshort hp).1⟩

/-! ## Messages that are too long -/

/-- A notification with a text of `n` characters. -/
def textMessage (n : Nat) : Message :=
  .notification (.new "telemetry/event" (some (.str (String.ofList (List.replicate n 'x')))))

theorem built_textMessage (n : Nat) : (textMessage n).Built :=
  .notification _ (by simpa using Json.Exact.str _)

theorem length_body_textMessage (n : Nat) :
    n < (textMessage n).body.length ∧ (textMessage n).body.length ≤ 4 * n + 400 := by
  have hlen : (textMessage n).toJson.chars.length = n + 56 := by
    simp [textMessage, Message.toJson, Notification.toJson, Notification.new, paramsOrEmpty,
      protocolVersion, Json.chars, Json.fieldChars, Json.quoted, Json.escapeChar]
  have hbounds := Utf8.length_encode_bounds (textMessage n).toJson.chars
  rw [hlen] at hbounds
  rw [Message.body]
  omega

theorem depth_textMessage (n : Nat) : (textMessage n).toJson.depth = 1 := by
  simp [textMessage, Message.toJson, Notification.toJson, Notification.new, paramsOrEmpty,
    Json.depth, Json.depthFields]

/-- The header of a message that is too long is rejected. -/
theorem not_arrives_textMessage {n : Nat} (h : Frame.maxLength ≤ n) (hbound : n ≤ bound32) :
    ¬ List.Forall₂ Message.Arrives [textMessage n]
      (feedAll empty [Frame.encode (textMessage n).toJson]).1.flatten := by
  obtain ⟨hlong, hlength⟩ := length_body_textMessage n
  have hbounds : 4 * bound32 + 400 < bound64 := by decide
  have hrejected := step_wrap_of_long (Nat.lt_of_le_of_lt h hlong) (by omega) []
  rw [List.append_nil] at hrejected
  intro harrives
  obtain ⟨hfeed, -⟩ := drains_feed valid_empty (Frame.encode (textMessage n).toJson)
  obtain ⟨rest, hrest⟩ := hfeed.eq_cons hrejected
  rw [feedAll, List.flatten_cons, hrest, List.cons_append] at harrives
  cases harrives with
  | cons hfirst _ =>
    obtain ⟨v, read, hok, -⟩ := hfirst
    cases hok

/-- **A message whose body is longer than the limit does not arrive**, though it was built and
nests no deeper than others. -/
theorem not_arrives_feedAll_long :
    (textMessage Frame.maxLength).Built ∧ (textMessage Frame.maxLength).toJson.depth < 128 ∧
      ¬ List.Forall₂ Message.Arrives [textMessage Frame.maxLength]
        (feedAll empty [Frame.encode (textMessage Frame.maxLength).toJson]).1.flatten := by
  have hdepth : (textMessage Frame.maxLength).toJson.depth < 128 := by
    rw [depth_textMessage]
    decide
  have hbound : Frame.maxLength ≤ bound32 := by decide
  exact ⟨built_textMessage _, hdepth, not_arrives_textMessage (Nat.le_refl _) hbound⟩

end Framer

end LanguageClient
