import LanguageClient.Proofs.Connection.Basic
import LanguageClient.Proofs.Document.Address

/-!
# Conversations with servers

The messages that a client sends of its own accord to one server make up a conversation, which is
looked at here by the kinds of its messages (`Conversation.lines`); answers to the server's requests
are no part of it. The protocol asks for an order: a greeting that begins with the handshake, then
messages about documents, and a farewell at the end (`Conversation.Ordered`).
-/

namespace LanguageClient

namespace Conversation

/-- The kinds of the messages, in order, that are no answers. -/
def lines (messages : List Json) : List Line := messages.filterMap line?

/-- The request that a conversation begins with. -/
def handshake : Line := (Method.handshake.name, true)

/-- How a server is greeted: the handshake, the notice that it is done, and the settings if any are
configured. -/
def greeting (config : ServerConfig) : List Line :=
  handshake :: (Wire.initialized, false) ::
    (config.settings.map fun _ => (Wire.didChangeConfiguration, false)).toList

/-- How a server is taken leave of. -/
def farewell : List Line := [(Method.shutdown.name, true), (Wire.exit, false)]

/-- Whether a conversation has kept to the order of the protocol, given whether the handshake was
answered with success. -/
structure Ordered (config : ServerConfig) (answered : Prop) (conversation : List Line) : Prop where
  /-- Between the greeting and the farewell, documents alone are spoken of. -/
  order : ∃ body, (∀ line ∈ body, OfDocument line) ∧
    conversation <+: greeting config ++ body ++ farewell
  /-- Until the handshake is answered nothing follows it. -/
  waits : conversation <+: [handshake] ∨ answered
  /-- What follows the handshake begins with the rest of the greeting. -/
  greets : conversation <+: [handshake] ∨ greeting config <+: conversation
  /-- The farewell is said as a whole. -/
  parts : (Method.shutdown.name, true) ∈ conversation → farewell <:+ conversation

/-- How far a conversation has come. -/
inductive Stage (config : ServerConfig) (answered : Prop) : List Line → Prop where
  | starts {conversation : List Line} (h : conversation <+: [handshake]) :
      Stage config answered conversation
  | goesOn {body : List Line} (h : answered) (documents : ∀ line ∈ body, OfDocument line) :
      Stage config answered (greeting config ++ body)
  | ends {body : List Line} (h : answered) (documents : ∀ line ∈ body, OfDocument line) :
      Stage config answered (greeting config ++ body ++ farewell)

variable {config : ServerConfig} {answered answered' : Prop} {conversation body : List Line}
  {messages more : List Json}

/-! ## The kinds of messages -/

@[simp] theorem lines_append (messages more : List Json) :
    lines (messages ++ more) = lines messages ++ lines more :=
  List.filterMap_append

theorem lines_greetings (c : Connection) :
    handshake :: lines c.greetings = greeting c.config := by
  cases hsettings : c.config.settings with
  | none => simp [lines, greeting, Connection.greetings, hsettings, line?_notification]
  | some settings => simp [lines, greeting, Connection.greetings, hsettings, line?_notification]

/-- An active server whose wire takes messages is taken leave of, and no other. -/
theorem lines_shutdown (c : Connection) :
    lines c.shutdown.1 = [] ∨ (c.isActive = true ∧ lines c.shutdown.1 = farewell) := by
  cases hactive : c.isActive with
  | false =>
    left
    simp [Connection.shutdown, hactive, lines]
  | true =>
    cases haccepts : c.accepts with
    | false =>
      left
      simp [Connection.shutdown, hactive, Connection.sendRequest, Connection.write, haccepts, lines]
    | true =>
      right
      -- the wire takes the request and, as it is not heard in between, the notice after it
      have hstill : Connection.accepts { c with
          requests := (c.requests.register .shutdown none).2 } = true := haccepts
      simp [Connection.shutdown, hactive, Connection.sendRequest, Connection.notify,
        Connection.write, haccepts, hstill, lines, line?_request, line?_notification, farewell,
        Except.toOption]

/-- The handshake is sent to a server whose wire takes messages. -/
theorem lines_handshake (c : Connection) (root : Path) (processId : Nat) :
    lines ((c.handshake root processId).1.toOption.map (·.2)).toList =
      if c.accepts then [handshake] else [] := by
  rw [Connection.handshake, Connection.sendRequest_fst]
  split
  · simp [lines, line?_request, handshake, Except.toOption]
  · rfl

/-! ## Stages -/

theorem Stage.mono (h : Stage config answered conversation) (hanswered : answered → answered') :
    Stage config answered' conversation := by
  cases h with
  | starts h => exact .starts h
  | goesOn h documents => exact .goesOn (hanswered h) documents
  | ends h documents => exact .ends (hanswered h) documents

theorem handshake_prefix_greeting (config : ServerConfig) : [handshake] <+: greeting config :=
  ⟨_, rfl⟩

/-- A farewell is not said among messages about documents. -/
theorem not_ofDocument_shutdown : ¬ OfDocument (Method.shutdown.name, true) := by
  rintro (h | ⟨kind, h⟩)
  · simp at h
  · have hname : kind.capability.method.name ≠ Method.shutdown.name := by
      cases kind <;> decide
    exact hname (congrArg Prod.fst h).symm

theorem shutdown_not_mem (documents : ∀ line ∈ body, OfDocument line) :
    (Method.shutdown.name, true) ∉ greeting config ++ body := by
  intro hmem
  rcases List.mem_append.1 hmem with hmem | hmem
  · cases hsettings : config.settings with
    | none => simp [greeting, hsettings, handshake, Method.name] at hmem
    | some settings => simp [greeting, hsettings, handshake, Method.name] at hmem
  · exact not_ofDocument_shutdown (documents _ hmem)

theorem Stage.ordered (h : Stage config answered conversation) :
    Ordered config answered conversation := by
  cases h with
  | starts h =>
    refine ⟨⟨[], by simp, ?_⟩, .inl h, .inl h, fun hmem => ?_⟩
    · rw [List.append_nil]
      exact (h.trans (handshake_prefix_greeting config)).trans (List.prefix_append _ _)
    · have hfirst := List.mem_singleton.1 (h.subset hmem)
      exact absurd hfirst (by decide)
  | goesOn h documents =>
    refine ⟨⟨_, documents, List.prefix_append _ _⟩, .inr h, .inr (List.prefix_append _ _), ?_⟩
    exact fun hmem => absurd hmem (shutdown_not_mem documents)
  | ends h documents =>
    refine ⟨⟨_, documents, List.prefix_rfl⟩, .inr h, .inr ?_, fun _ => List.suffix_append _ _⟩
    rw [List.append_assoc]
    exact List.prefix_append _ _

end Conversation
end LanguageClient
