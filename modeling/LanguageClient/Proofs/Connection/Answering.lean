import LanguageClient.Proofs.Connection.Intake
import LanguageClient.Proofs.Document.Mirror
import LanguageClient.Proofs.Json.Record

/-!
# How requests of the server are answered

A server that asks waits for the answer. What it is owed is said of the bodies as they stand on the
wire, by their fields: which of them ask (`Json.isRequest`), and what each is owed (`Json.Answers`),
down to the settings that an item of a configuration request names by its dotted section
(`Configured`).
A connection that can write pays every debt once, in the order in which the requests came, and
writes nothing else (`Connection.answers_receiveAll`).
-/

namespace LanguageClient

/-! ## Sections of the settings -/

/-- Whether a name is made of keys with dots between them. -/
structure Dotted (name : String) (keys : List String) : Prop where
  nonempty : keys ≠ []
  plain : ∀ key ∈ keys, '.' ∉ key.toList
  joined : name.toList = ['.'].intercalate (keys.map String.toList)

/-- What stands in a value under keys, each looked up in what stands under those before it. -/
inductive Json.Reaches : Json → List String → Json → Prop where
  | here {v : Json} : Reaches v [] v
  | under {v w u : Json} {key : String} {keys : List String} (h : v.get? key = some w)
      (hrest : Reaches w keys u) : Reaches v (key :: keys) u

/-- What an item of a configuration request is owed. -/
inductive Configured : Option Json → Json → Json → Prop where
  /-- Nothing is configured. -/
  | nothing {item : Json} : Configured none item .null
  /-- The item names no section. -/
  | whole {settings item : Json} (h : ∀ name, item.get? "section" ≠ some (.str name)) :
      Configured (some settings) item settings
  | found {settings item v : Json} {name : String} {keys : List String}
      (hitem : item.get? "section" = some (.str name)) (hname : Dotted name keys)
      (h : settings.Reaches keys v) : Configured (some settings) item v
  /-- A key of the section is missing. -/
  | missing {settings item : Json} {name : String} {keys : List String}
      (hitem : item.get? "section" = some (.str name)) (hname : Dotted name keys)
      (h : ∀ v, ¬ settings.Reaches keys v) : Configured (some settings) item .null

theorem not_mem_of_mem_splitOn {α : Type} [BEq α] [LawfulBEq α] {a : α} {xs piece : List α}
    (h : piece ∈ xs.splitOn a) : a ∉ piece := by
  induction xs generalizing piece with
  | nil =>
    rw [List.splitOn_nil, List.mem_singleton] at h
    simp [h]
  | cons x xs ih =>
    rw [List.splitOn_cons_eq_if_modifyHead] at h
    split at h
    · rcases List.mem_cons.1 h with rfl | h
      · simp
      · exact ih h
    · next hx =>
      obtain ⟨first, others, heq⟩ := List.exists_cons_of_ne_nil (List.splitOn_ne_nil a xs)
      rw [heq, List.modifyHead_cons] at h
      rcases List.mem_cons.1 h with rfl | h
      · have hfirst : a ∉ first := ih (by simp [heq])
        have hne : a ≠ x := fun hax => hx (by simp [hax])
        simp [hne, hfirst]
      · exact ih (by simp [heq, h])

theorem dotted_splitOn (name : String) :
    Dotted name ((name.toList.splitOn '.').map String.ofList) where
  nonempty := by simp [List.splitOn_ne_nil]
  plain := by
    intro key hkey
    obtain ⟨piece, hpiece, rfl⟩ := List.mem_map.1 hkey
    rw [String.toList_ofList]
    exact not_mem_of_mem_splitOn hpiece
  joined := by
    have hpieces : ((name.toList.splitOn '.').map String.ofList).map String.toList =
        name.toList.splitOn '.' := by simp [Function.comp_def]
    rw [hpieces, List.intercalate_splitOn]

/-- The keys of a name are its pieces between the dots. -/
theorem Dotted.keys_eq {name : String} {keys : List String} (h : Dotted name keys) :
    keys = (name.toList.splitOn '.').map String.ofList := by
  have hpieces : name.toList.splitOn '.' = keys.map String.toList := by
    rw [h.joined, List.splitOn_intercalate _ (by simpa using h.plain) (by simpa using h.nonempty)]
  rw [hpieces]
  simp [Function.comp_def]

theorem Json.reaches_iff {v w : Json} {keys : List String} :
    v.Reaches keys w ↔ keys.foldlM (fun v key => v.get? key) v = some w := by
  induction keys generalizing v with
  | nil =>
    constructor
    · rintro ⟨⟩
      rfl
    · intro h
      cases h
      exact .here
  | cons key keys ih =>
    rw [List.foldlM_cons, Option.bind_eq_bind, Option.bind_eq_some_iff]
    constructor
    · rintro (_ | ⟨hkey, hrest⟩)
      exact ⟨_, hkey, ih.1 hrest⟩
    · rintro ⟨u, hkey, hrest⟩
      exact .under hkey (ih.2 hrest)

theorem Json.bind_str?_eq_some {v : Option Json} {s : String} :
    v.bind Json.str? = some s ↔ v = some (.str s) := by
  rcases v with _ | v
  · simp
  · cases v <;> simp [Json.str?]

theorem Json.bind_str?_eq_none {v : Option Json} :
    v.bind Json.str? = none ↔ ∀ s, v ≠ some (.str s) := by
  simp [Option.eq_none_iff_forall_ne_some, Json.bind_str?_eq_some]

namespace Connection

theorem settingAt_eq_some {settings v : Json} {name : String} {keys : List String}
    (h : Dotted name keys) : settingAt settings name = some v ↔ settings.Reaches keys v := by
  rw [settingAt, Json.reaches_iff, h.keys_eq, List.foldlM_map]

/-- **An item is answered with what it is owed, and is owed nothing else.** -/
theorem configured_iff {settings : Option Json} {item v : Json} :
    Configured settings item v ↔ v = configurationItem settings item := by
  constructor
  · intro h
    cases h with
    | nothing => rfl
    | whole h =>
      simp only [configurationItem, Json.bind_str?_eq_none.2 h]
    | found hitem hname h =>
      simp only [configurationItem, Json.bind_str?_eq_some.2 hitem, (settingAt_eq_some hname).2 h,
        Option.getD_some]
    | @missing settings _ name _ hitem hname h =>
      have hnone : settingAt settings name = none :=
        Option.eq_none_iff_forall_ne_some.2 fun v hv => h v ((settingAt_eq_some hname).1 hv)
      simp only [configurationItem, Json.bind_str?_eq_some.2 hitem, hnone, Option.getD_none]
  · rintro rfl
    cases settings with
    | none => exact .nothing
    | some settings =>
      cases hitem : (item.get? "section").bind Json.str? with
      | none =>
        simp only [configurationItem, hitem]
        exact .whole (Json.bind_str?_eq_none.1 hitem)
      | some name =>
        have hname := dotted_splitOn name
        simp only [configurationItem, hitem]
        rw [Json.bind_str?_eq_some] at hitem
        cases hfound : settingAt settings name with
        | some v => exact .found hitem hname ((settingAt_eq_some hname).1 hfound)
        | none =>
          refine .missing hitem hname fun v hv => ?_
          rw [← settingAt_eq_some hname, hfound] at hv
          cases hv

end Connection

/-! ## What a request is owed -/

/-- Whether a body asks something of the client. -/
def Json.isRequest (body : Json) : Bool :=
  match Message.decoder body with
  | .ok (.request _) => true
  | _ => false

/-- The items of a configuration request. -/
def Json.configurationItems (body : Json) : List Json :=
  ((Mirror.param? body "items").bind Json.items?).getD []

/-- The one field, a result or an error, that answers a request. -/
inductive Outcome (settings : Option Json) (body : Json) (method : String) :
    String × Json → Prop where
  | acknowledged (h : method ∈ ["client/registerCapability", "client/unregisterCapability",
      "window/workDoneProgress/create", "window/showMessageRequest"]) :
      Outcome settings body method ("result", .null)
  | notApplied (h : method = "workspace/applyEdit") :
      Outcome settings body method ("result", .obj [("applied", .bool false)])
  | configured (h : method = "workspace/configuration") {values : List Json}
      (hvalues : List.Forall₂ (Configured settings) body.configurationItems values) :
      Outcome settings body method ("result", .arr values)
  | unknown (h : method ∉ ["client/registerCapability", "client/unregisterCapability",
      "window/workDoneProgress/create", "window/showMessageRequest", "workspace/applyEdit",
      "workspace/configuration"]) :
      Outcome settings body method ("error",
        .obj [("code", .int (-32601)), ("message", .str s!"Method not found: {method}")])

/-- Whether a message is the answer that the request in a body is owed: besides the version it
gives the identifier as it stands in the body and an outcome. -/
def Json.Answers (settings : Option Json) (body message : Json) : Prop :=
  ∃ (id : RequestId) (method : String) (outcome : String × Json),
    body.get? "id" = some id.toJson ∧ body.get? "method" = some (.str method) ∧
      Outcome settings body method outcome ∧
      message = .obj [("jsonrpc", .str "2.0"), ("id", id.toJson), outcome]

theorem Decoder.string_eq_ok {v : Json} {s : String} : Decoder.string v = .ok s ↔ v = .str s := by
  cases v <;> simp [Decoder.string]

/-- An identifier stands in a body as it is written back. -/
theorem RequestId.eq_of_decoder {v : Json} {id : RequestId} (h : RequestId.decoder v = .ok id) :
    v = id.toJson := by
  cases v with
  | int n =>
    rw [RequestId.decoder] at h
    split at h
    · next hn =>
      cases h
      rw [RequestId.toJson, Int.toNat_of_nonneg hn]
    · cases h
  | str s =>
    cases h
    rfl
  | _ => cases h

theorem Message.request_of_decoder {body : Json} {r : Request}
    (h : Message.decoder body = .ok (.request r)) : Request.decoder body = .ok r := by
  unfold Message.decoder at h
  split at h
  · cases hr : Request.decoder body with
    | error e => simp [hr] at h
    | ok r' => simpa [hr] using h
  · cases hr : Response.decoder body <;> simp [hr] at h
  · cases hn : Notification.decoder body <;> simp [hn] at h
  · cases h

/-- A request that was read stands in its body, field by field. -/
theorem Request.fields_of_decoder {body : Json} {r : Request}
    (h : Message.decoder body = .ok (.request r)) :
    body.get? "id" = some r.id.toJson ∧ body.get? "method" = some (.str r.method) ∧
      r.params = (body.get? "params").getD .null := by
  have hread := Message.request_of_decoder h
  cases body with
  | obj fields =>
    rw [Request.decoder, Layout.decoder_obj] at hread
    simp only [Layout.ofFields_also, Layout.ofFields_start, Layout.ofFields_required,
      Layout.ofFields_defaulted] at hread
    obtain ⟨_, params, ⟨_, method, ⟨_, id, ⟨_, version, rfl, -, rfl⟩, hid, rfl⟩, hmethod, rfl⟩,
      hparams, rfl⟩ := hread
    obtain ⟨v, hv, hid⟩ := hid
    obtain ⟨m, hm, hmethod⟩ := hmethod
    refine ⟨hv.trans (congrArg some (RequestId.eq_of_decoder hid)),
      hm.trans (congrArg some (Decoder.string_eq_ok.1 hmethod)), ?_⟩
    rcases hparams with ⟨p, hp, heq⟩ | ⟨hp, heq⟩
    · cases heq
      simp [hp]
    · simp [hp, heq]
  | _ => simp [Message.decoder, Json.get?] at h

namespace Connection

variable {c : Connection}

/-- The answer of a connection is what the request is owed. -/
theorem answers_reply {body : Json} {r : Request} (h : Message.decoder body = .ok (.request r)) :
    Json.Answers c.config.settings body (c.reply r).toJson := by
  obtain ⟨hid, hmethod, hparams⟩ := Request.fields_of_decoder h
  have hitems : ((r.params.get? "items").bind Json.items?).getD [] = body.configurationItems := by
    rw [Json.configurationItems, Mirror.param?, hparams]
    cases body.get? "params" with
    | none => simp [Json.get?]
    | some params => rfl
  unfold reply
  split
  · next hmethod' =>
    refine ⟨r.id, r.method, _, hid, hmethod, .configured hmethod' ?_, rfl⟩
    rw [← hitems, List.forall₂_map_right_iff]
    exact List.forall₂_same.2 fun item _ => configured_iff.2 rfl
  · next hconfiguration =>
    split
    · next hacknowledged =>
      exact ⟨r.id, r.method, _, hid, hmethod, .acknowledged hacknowledged, rfl⟩
    · next hacknowledged =>
      split
      · next hedit => exact ⟨r.id, r.method, _, hid, hmethod, .notApplied hedit, rfl⟩
      · next hedit =>
        have hunknown : r.method ∉ acknowledged ++ [Wire.applyEdit, Wire.configuration] := by
          simp [hacknowledged, hedit, hconfiguration]
        exact ⟨r.id, r.method, _, hid, hmethod, .unknown hunknown, rfl⟩

/-- Of a value that is received, a request is answered and nothing else is. -/
theorem answers_receiveValue (h : c.accepts = true) (body : Json) :
    List.Forall₂ (Json.Answers c.config.settings) ([body].filter Json.isRequest)
      (c.receiveValue body).1.replies := by
  have hother : body.isRequest = false → [body].filter Json.isRequest = [] := by simp
  unfold receiveValue
  split
  · next hread =>
    rw [hother (by simp [Json.isRequest, hread])]
    exact .nil
  · next hread =>
    rw [hother (by simp [Json.isRequest, hread])]
    split <;> exact .nil
  · next hread =>
    rw [hother (by simp [Json.isRequest, hread])]
    split <;> exact .nil
  · next r hread =>
    have hrequest : [body].filter Json.isRequest = [body] := by simp [Json.isRequest, hread]
    rw [hrequest, write, if_pos h]
    exact .cons (answers_reply hread) .nil

end Connection

/-! ## Output in pieces -/

/-- The requests among what the decoder made of some output, in order. -/
def Framer.requestsIn (results : List Framer.Result) : List Json :=
  (results.filterMap Except.toOption).filter Json.isRequest

namespace Connection

variable {c : Connection}

theorem answers_receiveResults (h : c.accepts = true) (results : List Framer.Result) :
    List.Forall₂ (Json.Answers c.config.settings) (Framer.requestsIn results)
      (c.receiveResults results).1.replies := by
  induction results generalizing c with
  | nil => exact .nil
  | cons result rest ih =>
    cases result with
    | error e =>
      rw [receiveResults]
      exact ih h
    | ok body =>
      have hnext := receives_receiveValue c body
      have haccepts : (c.receiveValue body).2.accepts = true := by
        rw [hnext.same]
        exact h
      have hrest := ih haccepts
      have hconfig : (c.receiveValue body).2.config = c.config := by rw [hnext.same]
      rw [hconfig] at hrest
      have hsplit : Framer.requestsIn (.ok body :: rest) =
          [body].filter Json.isRequest ++ Framer.requestsIn rest := by
        rw [Framer.requestsIn, Framer.requestsIn, ← List.filter_append]
        rfl
      rw [hsplit, receiveResults]
      exact List.rel_append (answers_receiveValue h body) hrest

/-- Receives output of the server piece by piece. -/
def receiveAll (c : Connection) : List Bytes → List Received × Connection
  | [] => ([], c)
  | piece :: pieces =>
    let (received, c) := c.receive piece
    let (others, c) := c.receiveAll pieces
    (received :: others, c)

/-- **Every request is answered once.** A connection that has not ended and whose wire is open
writes, for every piece of output, the answers that the requests among its bodies are owed, in the
order in which they came, and nothing else. -/
theorem answers_receiveAll (hstate : c.state = .pending ∨ c.state = .active)
    (hwire : c.wireOpen = true) (pieces : List Bytes) :
    List.Forall₂ (fun results received => List.Forall₂ (Json.Answers c.config.settings)
        (Framer.requestsIn results) received.replies)
      (c.framer.feedAll pieces).1 (c.receiveAll pieces).1 := by
  induction pieces generalizing c with
  | nil => exact .nil
  | cons piece pieces ih =>
    have haccepts : c.accepts = true := by
      rcases hstate with hstate | hstate <;> simp [accepts, hstate, hwire]
    have hnext := receive_snd c piece
    have hconfig : (c.receive piece).2.config = c.config := by rw [hnext]; rfl
    have hrest := ih (c := (c.receive piece).2) (by rw [hnext]; exact hstate)
      (by rw [hnext]; exact hwire)
    rw [framer_receive, hconfig] at hrest
    exact .cons (answers_receiveResults (c := { c with framer := (c.framer.feed piece).2 })
      haccepts _) hrest

namespace Sample

/-- A server of which one setting is known. -/
def configured : Connection :=
  let settings := Json.obj [("a", .obj [("b", .int 1)])]
  .new 1 { ServerConfig.bare "s" [] with settings := some settings } true

/-- It notifies, asks for three settings and names a method that nobody knows. -/
def asking : Bytes :=
  let items := Json.arr [.obj [("section", .str "a.b")], .obj [("section", .str "a.c")], .obj []]
  [Json.obj [("method", .str "$/progress")],
    .obj [("id", .str "q"), ("jsonrpc", .str "2.0"), ("method", .str Wire.configuration),
      ("params", .obj [("items", items)])],
    .obj [("id", .int 7), ("jsonrpc", .str "2.0"), ("method", .str "?")]].flatMap Frame.encode

end Sample

theorem answers_receiveAll_asking :
    (Sample.configured.state = .pending ∨ Sample.configured.state = .active) ∧
      Sample.configured.wireOpen = true ∧
      (Sample.configured.framer.feedAll [Sample.asking.take 90, Sample.asking.drop 90]).1.map
        (fun results => (Framer.requestsIn results).length) = [0, 2] ∧
      List.Forall₂ (fun results received =>
          List.Forall₂ (Json.Answers Sample.configured.config.settings)
            (Framer.requestsIn results) received.replies)
        (Sample.configured.framer.feedAll [Sample.asking.take 90, Sample.asking.drop 90]).1
        (Sample.configured.receiveAll [Sample.asking.take 90, Sample.asking.drop 90]).1 :=
  ⟨.inl rfl, rfl, by decide +kernel, answers_receiveAll (.inl rfl) rfl _⟩

end Connection
end LanguageClient
