import LanguageClient.Proofs.Document.Lifecycle
import Mathlib.Data.List.Induction

/-!
# What a message is about

A message of the client is of a kind, which its method tells and whether it asks for a response, and
it may be about a document, which its URI tells. The messages about a document are told here from
all others (`Conversation.About`), and `Address.opened` follows, over the messages to a server, the
URI that each document was opened with.
-/

namespace LanguageClient

namespace Conversation

/-- A kind of message: its method, and whether it asks for a response. -/
abbrev Line := String × Bool

/-- The kind of a message that has a method, which the answers to a server's requests have not. -/
def line? (message : Json) : Option Line :=
  (Mirror.method? message).map fun method => (method, (message.get? "id").isSome)

/-- Whether messages of a kind tell a server of a document or ask about one. -/
def OfDocument (line : Line) : Prop :=
  line ∈ [(Wire.didOpen, false), (Wire.didChange, false), (Wire.didSave, false),
    (Wire.didClose, false)] ∨ ∃ kind : RequestKind, line = (kind.capability.method.name, true)

/-- Whether a message is about the document at a path, which it names as the path is written. -/
structure About (path : Path) (message : Json) : Prop where
  line : ∃ l, line? message = some l ∧ OfDocument l
  uri : Mirror.uri? message = some (Uri.ofPath path)

variable {path : Path} {documents documents' : DocumentTable} {n : Notification}

theorem line?_toJson (n : Notification) : line? n.toJson = some (n.method, false) := by
  simp [line?, Mirror.method?, Notification.toJson, Json.get?, Json.str?]

theorem line?_notification (method : String) (params : Option Json) :
    line? (Notification.new method params).toJson = some (method, false) :=
  line?_toJson (Notification.new method params)

theorem line?_request (id : Nat) (method : Method) (params : Option Json) :
    line? (Request.new id method.name params).toJson = some (method.name, true) := by
  rw [line?, Mirror.method?_request]
  simp [Request.toJson, Request.new, Json.get?]

theorem line?_response (r : Response) : line? r.toJson = none := by
  rw [line?, Mirror.method?_response, Option.map_none]

/-! ## The messages about a document -/

theorem about_openDocument {s language : String}
    (h : documents.openDocument path s language = some (n, documents')) : About path n.toJson := by
  refine ⟨⟨(Wire.didOpen, false), ?_, .inl (by simp)⟩, Lifecycle.uri?_openDocument h⟩
  unfold DocumentTable.openDocument at h
  split at h
  · cases h
  · cases h
    exact line?_notification _ _

theorem about_change {changes : List ContentChange}
    (h : documents.change path changes = some (n, documents')) : About path n.toJson := by
  refine ⟨⟨(Wire.didChange, false), ?_, .inl (by simp)⟩, Lifecycle.uri?_change h⟩
  obtain ⟨document, -, heq⟩ := Option.map_eq_some_iff.1 h
  cases heq
  exact line?_notification _ _

theorem about_close (h : documents.close path = some (n, documents')) : About path n.toJson := by
  refine ⟨⟨(Wire.didClose, false), ?_, .inl (by simp)⟩, Lifecycle.uri?_close h⟩
  unfold DocumentTable.close at h
  split at h
  · cases h
    exact line?_notification _ _
  · cases h

theorem about_save (path : Path) (text : Option String) :
    About path (DocumentTable.save path text).toJson :=
  ⟨⟨(Wire.didSave, false), line?_notification _ _, .inl (by simp)⟩, Lifecycle.uri?_save path text⟩

theorem about_request (id : Nat) (kind : RequestKind) (settings : Settings) (path : Path)
    (b : Buffer) : About path (Request.new id kind.capability.method.name
      (some (Turn.requestParams settings kind path b))).toJson :=
  ⟨⟨(kind.capability.method.name, true), line?_request _ _ _, .inr ⟨kind, rfl⟩⟩,
    Lifecycle.uri?_request id kind settings path b⟩

end Conversation

namespace Address

/-- The URI that the document at a place was opened with, after one more message. -/
def after (place : Place) (uri : Option String) (message : Json) : Option String :=
  if Lifecycle.place? message ≠ some place then uri
  else if Mirror.method? message = some Wire.didOpen then Mirror.uri? message
  else if Mirror.method? message = some Wire.didClose then none
  else uri

/-- The URI that the document at a place was opened with, while it is open. -/
def opened (place : Place) (messages : List Json) : Option String :=
  messages.foldl (after place) none

/-- A document is open under the URI of a message that opened it. -/
theorem mem_of_opened {place : Place} {messages : List Json} {uri : String}
    (h : opened place messages = some uri) :
    ∃ m ∈ messages, Lifecycle.place? m = some place ∧ Mirror.method? m = some Wire.didOpen ∧
      Mirror.uri? m = some uri := by
  induction messages using List.reverseRecOn with
  | nil => cases h
  | append_singleton messages m ih =>
    have hbefore : opened place messages = some uri → ∃ m' ∈ messages ++ [m],
        Lifecycle.place? m' = some place ∧ Mirror.method? m' = some Wire.didOpen ∧
          Mirror.uri? m' = some uri := by
      intro hopened
      obtain ⟨m', hmem, hm'⟩ := ih hopened
      exact ⟨m', List.mem_append_left _ hmem, hm'⟩
    rw [opened, List.foldl_append, List.foldl_cons, List.foldl_nil, after] at h
    split at h
    · exact hbefore h
    · next hplace =>
      split at h
      · next hmethod => exact ⟨m, by simp, not_not.1 hplace, hmethod, h⟩
      · split at h
        · cases h
        · exact hbefore h

end Address
end LanguageClient
