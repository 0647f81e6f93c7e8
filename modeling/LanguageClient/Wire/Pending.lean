import LanguageClient.Path.Basic
import LanguageClient.Wire.Message
import LanguageClient.Wire.Method

/-!
# Pending requests

Numbers requests from one upwards and remembers what each unanswered one was for. An answer with an
error does not say which method failed, so this record alone tells.
-/

namespace LanguageClient

/-- What an unanswered request was for. -/
structure PendingRequest where
  method : Method
  document : Option Path
  deriving DecidableEq, Repr, Inhabited

/-- The unanswered requests by number, and the number of the next one. Numbers have no bound here; a
counter of 64 bits agrees with them until it overflows. -/
structure PendingTable where
  nextId : Nat
  requests : Table Nat PendingRequest

namespace PendingTable

/-- No request was sent. -/
def empty : PendingTable := ⟨1, .empty⟩

instance : Inhabited PendingTable := ⟨empty⟩

/-- Takes the next number for a request. -/
def register (t : PendingTable) (method : Method) (document : Option Path) :
    Nat × PendingTable :=
  (t.nextId, ⟨t.nextId + 1, t.requests.set t.nextId ⟨method, document⟩⟩)

/-- The request that an identifier answers, which is then no longer pending. -/
def resolve (t : PendingTable) (id : RequestId) : Option (PendingRequest × PendingTable) :=
  id.number?.bind fun n =>
    (t.requests.get? n).map fun request => (request, { t with requests := t.requests.erase n })

/-- Forgets a request that could not be sent. -/
def discard (t : PendingTable) (id : Nat) : PendingTable :=
  { t with requests := t.requests.erase id }

/-- How many requests are unanswered. -/
def count (t : PendingTable) : Nat := t.requests.size

/-- Forgets every request; numbers go on. -/
def clear (t : PendingTable) : PendingTable := { t with requests := .empty }

end PendingTable

end LanguageClient
