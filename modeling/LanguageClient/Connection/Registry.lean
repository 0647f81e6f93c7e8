import LanguageClient.Connection.Basic

/-!
# The registry of connections

The connections by identity. An identity is free unless a connection that has not stopped holds it.
-/

namespace LanguageClient

/-- The connections by identity. -/
abbrev Registry := Table String Connection

namespace Registry

/-- Refuses an identity that a connection holds. -/
def ensureAvailable (r : Registry) (identity : String) : Except Failure Unit :=
  match r.get? identity with
  | some c => if c.state = .stopped then .ok () else .error (.duplicateStart identity)
  | none => .ok ()

/-- Enters a connection under its identity, if that is free. -/
def insert (r : Registry) (c : Connection) : Except Failure Registry := do
  r.ensureAvailable c.identity
  return r.set c.identity c

/-- The connection with a launch number; numbers of earlier launches find nothing. -/
def findById (r : Registry) (id : ConnectionId) : Option Connection :=
  r.values.find? (·.id = id)

/-- The identities in order. -/
def identities (r : Registry) : List String := r.keys

/-- The active connections, by identity. -/
def active (r : Registry) : List Connection := r.values.filter (·.isActive)

end Registry

end LanguageClient
