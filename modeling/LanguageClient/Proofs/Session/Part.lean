import LanguageClient.Proofs.Diagnostic.Store
import LanguageClient.Proofs.Session.Deed

/-!
# What a session knows of one server

The connection of a server, its capabilities and its diagnostics are all that a session knows of it,
apart from its log (`Turn.part`). Two sessions that know the same of every server and otherwise are
the same are the same (`Session.eq_of_part`), so that it is enough to say of each operation which
servers' parts it changes.
-/

namespace LanguageClient

/-- What a session knows of one server, apart from its log. -/
structure Part where
  connection : Option Connection
  capabilities : Option ServerCapabilities
  diagnostics : Place → Option DiagnosticEntry

/-- What a session knows of a server that does not run. -/
def Part.unknown : Part := ⟨none, none, fun _ => none⟩

/-- What a session knows of the server with an identity. -/
def Session.part (s : Session) (identity : String) : Part where
  connection := s.connections.get? identity
  capabilities := s.capabilities.get? identity
  diagnostics place := s.diagnostics.entries.get? (identity, place)

/-- Whether two sessions are the same but for what they know of servers. -/
def Session.Frames (s s' : Session) : Prop :=
  s' = { s with
    connections := s'.connections
    capabilities := s'.capabilities
    diagnostics := s'.diagnostics }

theorem Session.Frames.symm {s s' : Session} (h : s.Frames s') : s'.Frames s := by
  rw [Frames, h]

theorem Session.Frames.trans {s s' s'' : Session} (h : s.Frames s') (h' : s'.Frames s'') :
    s.Frames s'' := by
  rw [Frames, h', h]

/-- **A session is known by what it knows of each server**, and by the rest. -/
theorem Session.eq_of_part {s s' : Session} (h : s.Frames s')
    (hparts : ∀ identity, s'.part identity = s.part identity) : s' = s := by
  have hconnections : s'.connections = s.connections :=
    Table.eq_of_get? fun identity => congrArg Part.connection (hparts identity)
  have hcapabilities : s'.capabilities = s.capabilities :=
    Table.eq_of_get? fun identity => congrArg Part.capabilities (hparts identity)
  have hdiagnostics : s'.diagnostics = s.diagnostics :=
    DiagnosticStore.eq_of_get? fun (identity, place) =>
      congrFun (congrArg Part.diagnostics (hparts identity)) place
  rw [h, hconnections, hcapabilities, hdiagnostics]

namespace Turn

variable {t : Turn} {identity other : String} {c : Connection}

/-- What the session of a turn knows of the server with an identity. -/
def part (t : Turn) (identity : String) : Part := t.session.part identity

theorem part_advance (t : Turn) (key : String) (c : Connection) (messages : List Json)
    (other : String) : (t.advance key c messages).part other =
      if key = other then { t.part other with connection := some c } else t.part other := by
  have hpart : (t.advance key c messages).part other =
      { t.part other with connection := (t.advance key c messages).connection other } := rfl
  rw [hpart, connection_advance]
  split
  · rfl
  · rfl

theorem part_ended (t : Turn) (identity : String) (c : Connection) (other : String) :
    (t.ended identity c).part other =
      if identity = other then .unknown else t.part other := by
  have hpart : (t.ended identity c).part other =
      ⟨(t.ended identity c).connection other, (t.session.capabilities.erase identity).get? other,
        fun place =>
          (t.session.diagnostics.removeConnection identity).2.entries.get? (other, place)⟩ := rfl
  simp only [hpart, connection_ended, Table.get?_erase, DiagnosticStore.get?_removeConnection]
  by_cases heq : identity = other
  · simp [heq, Part.unknown]
  · simp only [if_neg heq, if_neg (Ne.symm heq)]
    rfl

theorem part_teardown (hc : t.connection identity = some c) (other : String) :
    (t.teardown identity).part other =
      if identity = other then .unknown else t.part other := by
  rw [teardown_eq hc]
  exact part_ended t identity c other

theorem part_published_of_ne (t : Turn) (p : Publication) (hne : identity ≠ other) :
    (t.published identity p).part other = t.part other := by
  cases haccepts : t.accepts identity p with
  | false => rw [published_of_not_accepts haccepts]
  | true =>
    have hdiagnostics : ∀ place, (t.session.diagnostics.replace identity (Uri.toPath p.uri)
        (p.diagnostics.map Diagnostic.ofPublished)).entries.get? (other, place) =
          t.session.diagnostics.entries.get? (other, place) := by
      intro place
      rw [DiagnosticStore.get?_replace, if_neg fun heq => hne (congrArg Prod.fst heq)]
    rw [published_of_accepts haccepts]
    exact congrArg (fun diagnostics => { t.part other with diagnostics := diagnostics })
      (funext hdiagnostics)

theorem part_activated_of_ne (t : Turn) (c : Connection) (capabilities : ServerCapabilities)
    (hne : identity ≠ other) : (t.activated identity c capabilities).part other = t.part other := by
  have hadvanced := part_advance t identity { c with state := .active } c.greetings other
  have hpart : (t.activated identity c capabilities).part other =
      { (t.advance identity { c with state := .active } c.greetings).part other with
        capabilities := (t.session.capabilities.set identity capabilities).get? other } := rfl
  rw [hpart, hadvanced, if_neg hne, Table.get?_set_of_ne _ _ hne]
  rfl

end Turn
end LanguageClient
