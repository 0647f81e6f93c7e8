import LanguageClient.Document.Tracked
import LanguageClient.Proofs.Json.Object

/-!
# What a server takes a document for

A server knows a document by what is written to it alone: the text that came with the opening, and
the changes since, applied in order. `Mirror.text` reads this back from the messages as they stand
on the wire. Each kind of message that the client writes is given by what it does to the mirror.
-/

namespace LanguageClient

namespace Mirror

/-- A count as the wire gives it. -/
def number? : Json → Option Nat
  | .int n => some n.toNat
  | _ => none

def position? (v : Json) : Option Position := do
  let line ← (v.get? "line").bind number?
  let character ← (v.get? "character").bind number?
  return ⟨line, character⟩

def range? (v : Json) : Option Range := do
  let start ← (v.get? "start").bind position?
  let stop ← (v.get? "end").bind position?
  return ⟨start, stop⟩

/-- A change as the wire gives it: without a range it gives the whole text. -/
def change? (v : Json) : Option ContentChange := do
  let text ← (v.get? "text").bind Json.str?
  match v.get? "range" with
  | none => return .full text
  | some r => return .replace (← range? r) text

/-- The method of a message, if it has one. -/
def method? (message : Json) : Option String := (message.get? "method").bind Json.str?

/-- A field of the parameters of a message. -/
def param? (message : Json) (key : String) : Option Json :=
  (message.get? "params").bind (·.get? key)

/-- The document that a message speaks of. -/
def uri? (message : Json) : Option String :=
  ((param? message "textDocument").bind (·.get? "uri")).bind Json.str?

/-- The text that a message opens a document with. -/
def opened? (message : Json) : Option (List Char) :=
  (((param? message "textDocument").bind (·.get? "text")).bind Json.str?).map String.toList

/-- The changes that a message gives, in order. -/
def changes? (message : Json) : Option (List ContentChange) :=
  ((param? message "contentChanges").bind Json.items?).bind (·.mapM change?)

/-- What a server takes a document for after one more message. -/
def after (uri : String) (text : Option (List Char)) (message : Json) : Option (List Char) :=
  if method? message = some Wire.didOpen then
    if uri? message = some uri then opened? message else text
  else if method? message = some Wire.didChange then
    if uri? message = some uri then
      text.bind fun cs => (changes? message).map fun changes => changes.foldl ContentChange.apply cs
    else text
  else if method? message = some Wire.didClose then
    if uri? message = some uri then none else text
  else text

/-- What a server takes a document for that was written some messages. -/
def text (uri : String) (messages : List Json) : Option (List Char) :=
  messages.foldl (after uri) none

theorem text_append (uri : String) (ms ns : List Json) :
    text uri (ms ++ ns) = ns.foldl (after uri) (text uri ms) :=
  List.foldl_append

/-! ## Messages that say nothing of documents -/

/-- Whether a message leaves every document as it is. -/
def Silent (message : Json) : Prop :=
  method? message ≠ some Wire.didOpen ∧ method? message ≠ some Wire.didChange ∧
    method? message ≠ some Wire.didClose

theorem after_of_silent {message : Json} (h : Silent message) (uri : String)
    (text : Option (List Char)) : after uri text message = text := by
  rw [after, if_neg h.1, if_neg h.2.1, if_neg h.2.2]

theorem foldl_after_of_silent {messages : List Json} (h : ∀ m ∈ messages, Silent m)
    (uri : String) (text : Option (List Char)) : messages.foldl (after uri) text = text := by
  induction messages with
  | nil => rfl
  | cons m messages ih =>
    rw [List.foldl_cons, after_of_silent (h m (by simp)), ih fun n hn => h n (by simp [hn])]

theorem method?_notification (method : String) (params : Option Json) :
    method? (Notification.new method params).toJson = some method := by
  simp [method?, Notification.toJson, Notification.new, Json.get?, Json.str?]

theorem method?_request (r : Request) : method? r.toJson = some r.method := by
  simp [method?, Request.toJson, Json.get?, Json.str?]

theorem method?_response (r : Response) : method? r.toJson = none := by
  obtain ⟨version, id, result, error⟩ := r
  cases result <;> cases error <;> simp [method?, Response.toJson, Json.get?]

theorem silent_notification {method : String} (h : method ≠ Wire.didOpen ∧
    method ≠ Wire.didChange ∧ method ≠ Wire.didClose) (params : Option Json) :
    Silent (Notification.new method params).toJson := by
  simpa [Silent, method?_notification] using h

theorem silent_request (id : Nat) (method : Method) (params : Option Json) :
    Silent (Request.new id method.name params).toJson := by
  have hname : method.name ≠ Wire.didOpen ∧ method.name ≠ Wire.didChange ∧
      method.name ≠ Wire.didClose := by
    cases method <;> decide
  simpa [Silent, method?_request, Request.new] using hname

theorem silent_response (r : Response) : Silent r.toJson := by
  simp [Silent, method?_response]

/-! ## The messages of a document -/

theorem param?_notification (method : String) (fields : List (String × Json)) (key : String) :
    param? (Notification.new method (some (Json.object fields))).toJson key =
      (Json.object fields).get? key := by
  simp [param?, Notification.toJson, Notification.new, paramsOrEmpty, Json.object, Json.get?]

theorem position?_toJson (p : Position) : position? p.toJson = some p := by
  simp [position?, Position.toJson, Json.get?_object, number?]

theorem range?_toJson (r : Range) : range? r.toJson = some r := by
  simp [range?, Range.toJson, Json.get?_object, position?_toJson]

theorem change?_toJson (change : ContentChange) : change? change.toJson = some change := by
  cases change with
  | full text => simp [change?, ContentChange.toJson, Json.get?_object, Json.str?]
  | replace range text =>
    simp [change?, ContentChange.toJson, Json.get?_object, Json.str?, range?_toJson]

theorem mapM_change?_toJson (changes : List ContentChange) :
    changes.mapM (fun change => change? change.toJson) = some changes := by
  induction changes with
  | nil => rfl
  | cons change changes ih =>
    rw [List.mapM_cons, ih, change?_toJson]
    rfl

/-- An opening sets the text of its document. -/
theorem after_openDocument {documents opened : DocumentTable} {path : Path} {s language : String}
    {n : Notification} (h : documents.openDocument path s language = some (n, opened))
    (uri : String) (text : Option (List Char)) :
    after uri text n.toJson = if Uri.ofPath path = uri then some s.toList else text := by
  unfold DocumentTable.openDocument at h
  split at h
  · cases h
  · cases h
    rw [after, method?_notification, if_pos rfl]
    simp [uri?, opened?, param?_notification, Json.get?_object, DocumentTable.identifier,
      Json.str?]

/-- A change applies its edits to the text of its document. -/
theorem after_change {documents moved : DocumentTable} {path : Path} {changes : List ContentChange}
    {n : Notification} (h : documents.change path changes = some (n, moved))
    (uri : String) (text : Option (List Char)) :
    after uri text n.toJson =
      if Uri.ofPath path = uri then text.map (changes.foldl ContentChange.apply) else text := by
  obtain ⟨document, -, heq⟩ := Option.map_eq_some_iff.1 h
  cases heq
  have hother : some Wire.didChange ≠ some Wire.didOpen := by decide
  rw [after, method?_notification, if_neg hother, if_pos rfl]
  simp [uri?, changes?, param?_notification, Json.get?_object, DocumentTable.identifier,
    Json.str?, Json.items?, mapM_change?_toJson, Option.map_eq_bind, Function.comp_def]

/-- A closing forgets its document. -/
theorem after_close {documents left : DocumentTable} {path : Path} {n : Notification}
    (h : documents.close path = some (n, left)) (uri : String) (text : Option (List Char)) :
    after uri text n.toJson = if Uri.ofPath path = uri then none else text := by
  unfold DocumentTable.close at h
  split at h
  · cases h
    have hopen : some Wire.didClose ≠ some Wire.didOpen := by decide
    have hchange : some Wire.didClose ≠ some Wire.didChange := by decide
    rw [after, method?_notification, if_neg hopen, if_neg hchange, if_pos rfl]
    simp [uri?, param?_notification, Json.get?_object, DocumentTable.identifier, Json.str?]
  · cases h

/-- A save says nothing of the text of its document. -/
theorem silent_save (path : Path) (text : Option String) :
    Silent (DocumentTable.save path text).toJson :=
  silent_notification (by decide) _

end Mirror
end LanguageClient
