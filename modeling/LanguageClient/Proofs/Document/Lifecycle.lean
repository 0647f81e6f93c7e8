import LanguageClient.Proofs.Document.Mirror
import LanguageClient.Proofs.Document.Tracked
import LanguageClient.Proofs.Path.Uri
import LanguageClient.Session.Requests

/-!
# The lifecycle of a document on the wire

A document is opened with version 1, changed with one version after the other, and closed, and only
while it is open does a server get requests about it. `Lifecycle.replay` goes through the messages
that were written to a server and stops at the first that breaks this; a document is told by the
place that its URI leads to. Each kind of message that the client writes is given by what it does to
a replay.
-/

namespace LanguageClient

/-- The version of the document at a place, if it is open. -/
def DocumentTable.versionAt (t : DocumentTable) (place : Place) : Option Nat :=
  (t.documents.get? place).map (·.version)

namespace Lifecycle

/-- The document that a message speaks of. -/
def place? (message : Json) : Option Place :=
  (Mirror.uri? message).map fun uri => (Uri.toPath uri).place

/-- The version that a message gives its document. -/
def version? (message : Json) : Option Nat :=
  ((Mirror.param? message "textDocument").bind (·.get? "version")).bind Mirror.number?

/-- Whether a message asks for a response. -/
def isRequest (message : Json) : Bool :=
  (message.get? "id").isSome && (Mirror.method? message).isSome

/-- The version of a document after one more message, if it is open then; nothing when the message
may not come. -/
def after (place : Place) (version : Option Nat) (message : Json) : Option (Option Nat) :=
  if place? message ≠ some place then some version
  else if Mirror.method? message = some Wire.didOpen then
    if version = none ∧ version? message = some 1 then some (some 1) else none
  else if Mirror.method? message = some Wire.didChange then
    version.bind fun v => if version? message = some (v + 1) then some (some (v + 1)) else none
  else if Mirror.method? message = some Wire.didClose then version.map fun _ => none
  else if isRequest message then version.map some
  else some version

/-- The version of a document after some messages, if it is open then; nothing when one of them may
not come. -/
def replay (place : Place) (messages : List Json) : Option (Option Nat) :=
  messages.foldlM (after place) none

variable {place : Place} {path : Path} {message : Json} {documents documents' : DocumentTable}
  {n : Notification}

theorem replay_append (place : Place) (ms ns : List Json) :
    replay place (ms ++ ns) = (replay place ms).bind fun v => ns.foldlM (after place) v :=
  List.foldlM_append

theorem after_of_ne (h : place? message ≠ some place) (version : Option Nat) :
    after place version message = some version := by
  rw [after, if_pos h]

/-- Messages that speak of no document change none. -/
theorem foldlM_after_of_place?_eq_none {messages : List Json} (h : ∀ m ∈ messages, place? m = none)
    (place : Place) (version : Option Nat) :
    messages.foldlM (after place) version = some version := by
  induction messages with
  | nil => rfl
  | cons m messages ih =>
    have hm : place? m ≠ some place := by simp [h m List.mem_cons_self]
    rw [List.foldlM_cons, after_of_ne hm]
    exact ih fun n hn => h n (List.mem_cons_of_mem _ hn)

/-! ## Messages that speak of no document -/

theorem place?_of_param?_eq_none (h : Mirror.param? message "textDocument" = none) :
    place? message = none := by
  simp [place?, Mirror.uri?, h]

theorem place?_response (r : Response) : place? r.toJson = none := by
  refine place?_of_param?_eq_none ?_
  obtain ⟨version, id, result, error⟩ := r
  cases result <;> cases error <;> simp [Mirror.param?, Response.toJson, Json.get?]

theorem place?_bare (method : String) : place? (Notification.new method none).toJson = none :=
  place?_of_param?_eq_none rfl

theorem place?_settings (settings : Json) : place? (Notification.new Wire.didChangeConfiguration
    (some (Json.object [("settings", settings)]))).toJson = none :=
  place?_of_param?_eq_none (by simp [Mirror.param?_notification, Json.get?_object])

theorem param?_request (id : Nat) (method : String) (fields : List (String × Json))
    (key : String) : Mirror.param? (Request.new id method (some (Json.object fields))).toJson key =
      (Json.object fields).get? key := by
  simp [Mirror.param?, Request.toJson, Request.new, paramsOrEmpty, Json.object, Json.get?]

theorem place?_handshake (c : Connection) (root : Path) (processId : Nat) (id : Nat) :
    place? (Request.new id Method.handshake.name (some (c.handshakeParams root processId))).toJson =
      none := by
  refine place?_of_param?_eq_none ?_
  rw [Connection.handshakeParams, param?_request]
  cases c.config.initializationOptions <;> simp [Json.get?_object]

theorem place?_shutdown (id : Nat) :
    place? (Request.new id Method.shutdown.name (some .null)).toJson = none :=
  place?_of_param?_eq_none rfl

/-! ## The messages of a document -/

theorem uri?_openDocument {s language : String}
    (h : documents.openDocument path s language = some (n, documents')) :
    Mirror.uri? n.toJson = some (Uri.ofPath path) := by
  unfold DocumentTable.openDocument at h
  split at h
  · cases h
  · cases h
    simp [Mirror.uri?, Mirror.param?_notification, Json.get?_object, DocumentTable.identifier,
      Json.str?]

theorem uri?_change {changes : List ContentChange}
    (h : documents.change path changes = some (n, documents')) :
    Mirror.uri? n.toJson = some (Uri.ofPath path) := by
  obtain ⟨document, -, heq⟩ := Option.map_eq_some_iff.1 h
  cases heq
  simp [Mirror.uri?, Mirror.param?_notification, Json.get?_object, DocumentTable.identifier,
    Json.str?]

theorem uri?_close (h : documents.close path = some (n, documents')) :
    Mirror.uri? n.toJson = some (Uri.ofPath path) := by
  unfold DocumentTable.close at h
  split at h
  · cases h
    simp [Mirror.uri?, Mirror.param?_notification, Json.get?_object, DocumentTable.identifier,
      Json.str?]
  · cases h

theorem uri?_save (path : Path) (text : Option String) :
    Mirror.uri? (DocumentTable.save path text).toJson = some (Uri.ofPath path) := by
  cases text <;> simp [Mirror.uri?, DocumentTable.save, Mirror.param?_notification,
    Json.get?_object, DocumentTable.identifier, Json.str?]

theorem uri?_request (id : Nat) (kind : RequestKind) (settings : Settings) (path : Path)
    (b : Buffer) : Mirror.uri? (Request.new id kind.capability.method.name
      (some (Turn.requestParams settings kind path b))).toJson = some (Uri.ofPath path) := by
  cases kind <;> simp [Mirror.uri?, Turn.requestParams, param?_request, Json.get?_object,
    DocumentTable.identifier, Json.str?]

theorem place?_of_uri? (habsolute : path.isAbsolute = true)
    (h : Mirror.uri? message = some (Uri.ofPath path)) : place? message = some path.place := by
  rw [place?, h, Option.map_some, Uri.toPath_ofPath habsolute]

/-- A message bears on the document that it speaks of alone. -/
theorem after_of_uri? (habsolute : path.isAbsolute = true)
    (huri : Mirror.uri? message = some (Uri.ofPath path))
    (hself : after path.place (documents.versionAt path.place) message =
      some (documents'.versionAt path.place))
    (hothers : ∀ place, path.place ≠ place →
      documents'.documents.get? place = documents.documents.get? place) (place : Place) :
    after place (documents.versionAt place) message = some (documents'.versionAt place) := by
  by_cases hplace : path.place = place
  · rw [← hplace, hself]
  · have hne : place? message ≠ some place := by
      rw [place?_of_uri? habsolute huri]
      exact fun h => hplace (Option.some.inj h)
    rw [after_of_ne hne, DocumentTable.versionAt, DocumentTable.versionAt, hothers place hplace]

/-- An opening may come while its document is closed, and opens it with version 1. -/
theorem after_openDocument {s language : String}
    (h : documents.openDocument path s language = some (n, documents'))
    (habsolute : path.isAbsolute = true) (place : Place) :
    after place (documents.versionAt place) n.toJson = some (documents'.versionAt place) := by
  have hopened := DocumentTable.get?_openDocument h
  have huri := uri?_openDocument h
  unfold DocumentTable.openDocument at h
  split at h
  · cases h
  · next hclosed =>
    cases h
    generalize hm : Notification.toJson _ = m at huri ⊢
    have hmethod : Mirror.method? m = some Wire.didOpen := by rw [← hm, Mirror.method?_notification]
    have hversion : version? m = some 1 := by
      simp [← hm, version?, Mirror.param?_notification, Json.get?_object,
        DocumentTable.identifier, Mirror.number?]
    have hnone : documents.documents.get? path.place = none := by
      simpa [DocumentTable.isOpen, Table.contains] using hclosed
    refine after_of_uri? habsolute huri ?_ (fun place hne => ?_) place
    · rw [after, place?_of_uri? habsolute huri, hmethod, hversion]
      simp [DocumentTable.versionAt, hnone, hopened]
    · rw [hopened, if_neg hne]

/-- A change may come while its document is open, and moves it to the next version. -/
theorem after_change {changes : List ContentChange}
    (h : documents.change path changes = some (n, documents'))
    (habsolute : path.isAbsolute = true) (place : Place) :
    after place (documents.versionAt place) n.toJson = some (documents'.versionAt place) := by
  obtain ⟨document, hdocument, hmoved⟩ := DocumentTable.get?_change h
  have huri := uri?_change h
  rw [DocumentTable.change, hdocument, Option.map_some] at h
  cases h
  generalize hm : Notification.toJson _ = m at huri ⊢
  have hmethod : Mirror.method? m = some Wire.didChange := by
    rw [← hm, Mirror.method?_notification]
  have hversion : version? m = some (document.version + 1) := by
    simp [← hm, version?, Mirror.param?_notification, Json.get?_object, DocumentTable.identifier,
      Mirror.number?]
  have hopen : some Wire.didChange ≠ some Wire.didOpen := by decide
  refine after_of_uri? habsolute huri ?_ (fun place hne => ?_) place
  · rw [after, place?_of_uri? habsolute huri, hmethod, hversion, if_neg hopen]
    simp [DocumentTable.versionAt, hdocument, hmoved]
  · rw [hmoved, if_neg hne]

/-- A closing may come while its document is open, and closes it. -/
theorem after_close (h : documents.close path = some (n, documents'))
    (habsolute : path.isAbsolute = true) (place : Place) :
    after place (documents.versionAt place) n.toJson = some (documents'.versionAt place) := by
  have hclosed := DocumentTable.get?_close h
  have huri := uri?_close h
  unfold DocumentTable.close at h
  split at h
  · next hopen =>
    cases h
    generalize hm : Notification.toJson _ = m at huri ⊢
    have hmethod : Mirror.method? m = some Wire.didClose := by
      rw [← hm, Mirror.method?_notification]
    have hne : some Wire.didClose ≠ some Wire.didOpen := by decide
    have hne' : some Wire.didClose ≠ some Wire.didChange := by decide
    obtain ⟨document, hdocument⟩ := Option.isSome_iff_exists.1 hopen
    refine after_of_uri? habsolute huri ?_ (fun place hne => ?_) place
    · rw [after, place?_of_uri? habsolute huri, hmethod, if_neg hne, if_neg hne']
      simp [DocumentTable.versionAt, hdocument, hclosed]
    · rw [hclosed, if_neg hne]
  · cases h

/-- A save may come at any time. -/
theorem after_save (path : Path) (text : Option String) (place : Place) (version : Option Nat) :
    after place version (DocumentTable.save path text).toJson = some version := by
  have hsilent := Mirror.silent_save path text
  have hrequest : isRequest (DocumentTable.save path text).toJson = false := by
    simp [isRequest, DocumentTable.save, Notification.toJson, Json.get?]
  rw [after, if_neg hsilent.1, if_neg hsilent.2.1, if_neg hsilent.2.2, hrequest]
  split
  · rfl
  · rfl

/-- A request may come while its document is open. -/
theorem after_request (id : Nat) (kind : RequestKind) (settings : Settings) (b : Buffer)
    (hopen : documents.isOpen path = true) (habsolute : path.isAbsolute = true) (place : Place) :
    after place (documents.versionAt place) (Request.new id kind.capability.method.name
        (some (Turn.requestParams settings kind path b))).toJson =
      some (documents.versionAt place) := by
  have hsilent := Mirror.silent_request id kind.capability.method
    (some (Turn.requestParams settings kind path b))
  have huri := uri?_request id kind settings path b
  generalize hm : Request.toJson _ = m at hsilent huri ⊢
  have hrequest : isRequest m = true := by
    rw [← hm, isRequest, Mirror.method?_request]
    simp [Request.toJson, Json.get?]
  obtain ⟨document, hdocument⟩ := Option.isSome_iff_exists.1 hopen
  refine after_of_uri? habsolute huri ?_ (fun _ _ => rfl) place
  rw [after, place?_of_uri? habsolute huri, if_neg hsilent.1, if_neg hsilent.2.1,
    if_neg hsilent.2.2, hrequest]
  simp [DocumentTable.versionAt, hdocument]

end Lifecycle
end LanguageClient
