import LanguageClient.Session.Basic

/-!
# The host of a command

A command stands in for an editor with one view. It keeps what the session shows it: answers in the
order they came, what the server calls itself and says to the user, and the diagnostics of its view.
-/

namespace LanguageClient

/-- What a session shows in return for a request. -/
inductive Answer where
  | notice (level : NoticeLevel) (message : String)
  | text (title text : String)
  | location (location : Location)
  | replaced (text : String) (cursor : Nat)
  | completions (items : List String)
  | locations (title : String) (entries : List LocationEntry)
  deriving DecidableEq, Repr, Inhabited

/-- Warnings and errors make a command fail. -/
def Answer.outcome : Answer → Except String Answer
  | notice .warning message => .error message
  | notice .error message => .error message
  | answer => .ok answer

/-- The view that a command shows its file in. -/
def commandView : ViewId := 1

/-- What a command has and was told. -/
structure CommandHost where
  buffers : Buffers
  answers : List Answer
  serverInfo : Option String
  messages : List (MessageType × String)
  /-- The diagnostics of the command's view by server. -/
  diagnostics : Table String (List RenderedDiagnostic)
  /-- How often diagnostics were shown in the command's view. -/
  publications : Nat

namespace CommandHost

/-- A host that was told nothing. -/
def empty : CommandHost := ⟨.empty, [], none, [], .empty, 0⟩

instance : Inhabited CommandHost := ⟨empty⟩

/-- The text of the last notice. -/
def lastNotice (h : CommandHost) : Option String :=
  h.answers.reverse.findSome? fun
    | .notice _ message => some message
    | _ => none

/-- The last answer as an outcome. -/
def lastOutcome (h : CommandHost) : Option (Except String Answer) :=
  h.answers.getLast?.map Answer.outcome

/-- One more answer. -/
def answer (h : CommandHost) (a : Answer) : CommandHost := { h with answers := h.answers ++ [a] }

/-- Keeps a buffer. -/
def setBuffer (h : CommandHost) (path : Path) (b : Buffer) : CommandHost :=
  { h with buffers := h.buffers.set path.place b }

/-- Takes what the session tells. -/
def hear (h : CommandHost) : Callback → CommandHost
  | .notify level message => h.answer (.notice level message)
  | .connected _ server => { h with serverInfo := server.map ServerInfo.display }
  | .serverMessage _ level message => { h with messages := h.messages ++ [(level, message)] }
  | .showText title text => h.answer (.text title text)
  | .openLocation location => h.answer (.location location)
  | .replaceDocument path text cursor =>
    (h.setBuffer path ⟨text, cursor, none⟩).answer (.replaced text cursor)
  | .showCompletions items => h.answer (.completions items)
  | .dismissCompletion => h
  | .showLocations title entries => h.answer (.locations title entries)
  | .setDiagnostics view identity diagnostics =>
    if view ≠ commandView then h
    else
      { h with
        publications := h.publications + 1
        diagnostics :=
          if diagnostics.isEmpty then h.diagnostics.erase identity
          else h.diagnostics.set identity diagnostics }

end CommandHost

end LanguageClient
