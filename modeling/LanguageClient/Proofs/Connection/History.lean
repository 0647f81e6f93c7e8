import LanguageClient.Proofs.Connection.Basic
import LanguageClient.Proofs.Document.Mirror
import LanguageClient.Proofs.Wire.RoundTrip

/-!
# The requests of a connection and their answers

A connection keeps a log: which requests it wrote under which numbers, which responses came and what
was handed on for each of them, and when it was activated and ended. The log alone says which
requests are owed an answer (`Owes`), and the pending table holds just those. So each response that
is handed on answers a request of the log, and no request is answered twice
(`History.accounts_run`), whatever is done with the connection in whatever order.
-/

namespace LanguageClient

/-- Whether a list has an item with one property, behind which none has another. -/
def Since {α : Type} (P Q : α → Prop) (l : List α) : Prop :=
  ∃ earlier x later, l = earlier ++ x :: later ∧ P x ∧ ∀ y ∈ later, ¬ Q y

theorem since_nil {α : Type} (P Q : α → Prop) : ¬ Since P Q [] := by
  rintro ⟨earlier, x, later, h, -⟩
  simp at h

theorem since_concat {α : Type} {P Q : α → Prop} {l : List α} {x : α} :
    Since P Q (l ++ [x]) ↔ P x ∨ (Since P Q l ∧ ¬ Q x) := by
  constructor
  · rintro ⟨earlier, y, later, h, hy, hlater⟩
    rcases later.eq_nil_or_concat with rfl | ⟨middle, z, rfl⟩
    · obtain ⟨-, hxy⟩ := List.append_inj' h rfl
      cases hxy
      exact .inl hy
    · rw [List.concat_eq_append] at h hlater
      rw [← List.cons_append, ← List.append_assoc] at h
      obtain ⟨rfl, hxz⟩ := List.append_inj' h rfl
      cases hxz
      exact .inr ⟨⟨earlier, y, middle, rfl, hy, fun w hw => hlater w (by simp [hw])⟩,
        hlater x (by simp)⟩
  · rintro (hx | ⟨⟨earlier, y, later, rfl, hy, hlater⟩, hx⟩)
    · exact ⟨l, x, [], rfl, hx, by simp⟩
    · refine ⟨earlier, y, later ++ [x], by simp, hy, fun w hw => ?_⟩
      rcases List.mem_append.1 hw with hw | hw
      · exact hlater w hw
      · rw [List.mem_singleton.1 hw]
        exact hx

theorem since_cons {α : Type} {P Q : α → Prop} {l : List α} {x : α} :
    Since P Q (x :: l) ↔ Since P Q l ∨ (P x ∧ ∀ y ∈ l, ¬ Q y) := by
  constructor
  · rintro ⟨earlier, y, later, h, hy, hlater⟩
    cases earlier with
    | nil =>
      cases h
      exact .inr ⟨hy, hlater⟩
    | cons z earlier =>
      cases h
      exact .inl ⟨earlier, y, later, rfl, hy, hlater⟩
  · rintro (⟨earlier, y, later, rfl, hy, hlater⟩ | ⟨hx, hlater⟩)
    · exact ⟨x :: earlier, y, later, rfl, hy, hlater⟩
    · exact ⟨[], x, l, rfl, hx, hlater⟩

instance Since.decidable {α : Type} {P Q : α → Prop} [DecidablePred P] [DecidablePred Q] :
    (l : List α) → Decidable (Since P Q l)
  | [] => isFalse (since_nil P Q)
  | _ :: l =>
    have := Since.decidable (P := P) (Q := Q) l
    decidable_of_iff _ since_cons.symm

/-- The number of the request that a response answers. -/
def Response.number? (r : Response) : Option Nat := r.id.bind RequestId.number?

/-- Whether a message is a response. -/
def Inbound.isResponse : Inbound → Bool
  | .response _ _ => true
  | _ => false

/-- What is noted of a connection. -/
inductive Record where
  /-- A request was written under a number. -/
  | asked (number : Nat) (request : PendingRequest)
  /-- A response came, and some messages were handed on for it. -/
  | heard (response : Response) (handed : List Inbound)
  | activated
  | ended

namespace Record

/-- The number of a request that was written. -/
def number? : Record → Option Nat
  | asked n _ => some n
  | _ => none

/-- What was handed on for a response. -/
def handed : Record → List Inbound
  | heard _ items => items
  | _ => []

/-- Whether a record settles the request of a number: its response came, or the connection ended. -/
def Settles (n : Nat) : Record → Prop
  | heard r _ => r.number? = some n
  | ended => True
  | _ => False

end Record

/-- Whether a request was written under a number, and neither has its response come since nor was
the connection ended. -/
def Owes (log : List Record) (n : Nat) (request : PendingRequest) : Prop :=
  Since (· = .asked n request) (Record.Settles n) log

/-- Whether the connection was ended and not activated since. -/
def Stopped (log : List Record) : Prop := Since (· = .ended) (· = .activated) log

theorem owes_concat {log : List Record} {x : Record} {n : Nat} {request : PendingRequest} :
    Owes (log ++ [x]) n request ↔
      x = .asked n request ∨ (Owes log n request ∧ ¬ x.Settles n) :=
  since_concat

theorem stopped_concat {log : List Record} {x : Record} :
    Stopped (log ++ [x]) ↔ x = .ended ∨ (Stopped log ∧ x ≠ .activated) :=
  since_concat

/-- What a response that comes behind a log is handed on as: with the request that is owed under its
number, and not at all when there is none. -/
def Answers (earlier : List Record) (r : Response) (handed : List Inbound) : Prop :=
  (∃ n request, r.number? = some n ∧ Owes earlier n request ∧
    handed = [.response request r.outcome]) ∨
  (handed = [] ∧ ∀ n request, r.number? = some n → ¬ Owes earlier n request)

/-- What a log says of requests and responses. -/
structure Correlates (log : List Record) : Prop where
  /-- Every request gets a number above all those before. -/
  rising : (log.filterMap Record.number?).Pairwise (· < ·)
  /-- Every response is handed on with the request that is owed under its number, or not at all. -/
  answers : ∀ earlier r handed later, log = earlier ++ .heard r handed :: later →
    Answers earlier r handed
  /-- No two responses that are handed on bear one number. -/
  once : ∀ earlier r handed middle r' handed' later,
    log = earlier ++ .heard r handed :: (middle ++ .heard r' handed' :: later) →
      handed ≠ [] → handed' ≠ [] → r.number? ≠ r'.number?
  /-- Nothing is handed on for a response that comes to a stopped connection. -/
  silent : ∀ earlier r handed later, log = earlier ++ .heard r handed :: later →
    Stopped earlier → handed = []

/-! ## Logs and pending tables -/

/-- `Kept log t`: the log was kept while the pending table became `t`, one record at a time. -/
inductive Kept : List Record → PendingTable → Prop where
  | start : Kept [] .empty
  | asked {log : List Record} {t : PendingTable} (method : Method) (document : Option Path) :
      Kept log t → ¬ Stopped log →
        Kept (log ++ [.asked t.nextId ⟨method, document⟩]) (t.register method document).2
  | skipped {log : List Record} {t : PendingTable} :
      Kept log t → Kept log { t with nextId := t.nextId + 1 }
  | answered {log : List Record} {t : PendingTable} {r : Response} {n : Nat}
      {request : PendingRequest} : Kept log t → r.number? = some n →
        t.requests.get? n = some request →
          Kept (log ++ [.heard r [.response request r.outcome]])
            { t with requests := t.requests.erase n }
  | ignored {log : List Record} {t : PendingTable} {r : Response} :
      Kept log t → (∀ n, r.number? = some n → t.requests.get? n = none) →
        Kept (log ++ [.heard r []]) t
  | activated {log : List Record} {t : PendingTable} :
      Kept log t → Kept (log ++ [.activated]) t
  | ended {log : List Record} {t : PendingTable} : Kept log t → Kept (log ++ [.ended]) t.clear

namespace Kept

variable {log : List Record} {t : PendingTable}

theorem number_lt (h : Kept log t) {n : Nat} (hn : n ∈ log.filterMap Record.number?) :
    n < t.nextId := by
  induction h with
  | start => cases hn
  | asked method document _ _ ih =>
    rw [List.filterMap_append, List.mem_append] at hn
    rcases hn with hn | hn
    · exact Nat.lt_succ_of_lt (ih hn)
    · obtain rfl : n = _ := by simpa [Record.number?] using hn
      exact Nat.lt_succ_self _
  | skipped _ ih => exact Nat.lt_succ_of_lt (ih hn)
  | answered _ _ _ ih | ignored _ _ ih | activated _ ih | ended _ ih =>
    exact ih (by simpa [Record.number?] using hn)

theorem rising (h : Kept log t) : (log.filterMap Record.number?).Pairwise (· < ·) := by
  induction h with
  | start => exact .nil
  | asked method document h _ ih =>
    rw [List.filterMap_append]
    refine List.pairwise_append.2 ⟨ih, List.pairwise_singleton _ _, fun a ha b hb => ?_⟩
    obtain rfl : b = _ := by simpa [Record.number?] using hb
    exact h.number_lt ha
  | skipped _ ih => exact ih
  | answered _ _ _ ih | ignored _ _ ih | activated _ ih | ended _ ih =>
    simpa [List.filterMap_cons, Record.number?] using ih

theorem mem_number?_of_owes {n : Nat} {request : PendingRequest} (h : Owes log n request) :
    n ∈ log.filterMap Record.number? := by
  obtain ⟨earlier, x, later, rfl, rfl, -⟩ := h
  simp [Record.number?]

/-- **The pending table holds the requests that are owed an answer.** -/
theorem get?_eq_some_iff (h : Kept log t) (n : Nat) (request : PendingRequest) :
    t.requests.get? n = some request ↔ Owes log n request := by
  induction h with
  | start => simp [PendingTable.empty, Owes, since_nil]
  | @asked log t method document h _ ih =>
    rw [PendingTable.register, Table.get?_set, owes_concat]
    split
    · next hn =>
      -- the number is new, so nothing was owed under it
      have hfresh : ¬ Owes log n request := fun howes =>
        absurd (h.number_lt (mem_number?_of_owes howes)) (by omega)
      simp [hn, hfresh]
    · next hn => simp [ih, hn, Record.Settles]
  | skipped _ ih => exact ih
  | @answered log t r k request' _ hr _ ih =>
    rw [Table.get?_erase, owes_concat]
    split
    · next hk => simp [hk ▸ hr, Record.Settles]
    · next hk => simp [ih, hr, hk, Record.Settles]
  | @ignored log t r _ hr ih =>
    rw [owes_concat, ← ih]
    by_cases hn : r.number? = some n
    · simp [hn, hr n hn, Record.Settles]
    · simp [hn, Record.Settles]
  | activated _ ih => simp [owes_concat, ih, Record.Settles]
  | ended _ _ => simp [owes_concat, PendingTable.clear, Record.Settles]

/-- A connection that is stopped owes nothing. -/
theorem not_owes_of_stopped (h : Kept log t) (hstopped : Stopped log) (n : Nat)
    (request : PendingRequest) : ¬ Owes log n request := by
  induction h with
  | start => exact since_nil _ _
  | asked method document _ hrunning =>
    exact absurd (by simpa [stopped_concat] using hstopped) hrunning
  | skipped _ ih => exact ih hstopped
  | answered _ _ _ ih | ignored _ _ ih =>
    have hbefore := ih (by simpa [stopped_concat] using hstopped)
    simp [owes_concat, hbefore]
  | activated => simp [stopped_concat] at hstopped
  | ended => simp [owes_concat, Record.Settles]

/-- A log with one more record is cut at a record that is the last, or stands before it. -/
theorem concat_eq_append_cons {log earlier later : List Record} {x y : Record}
    (h : log ++ [x] = earlier ++ y :: later) :
    (log = earlier ∧ x = y) ∨ ∃ later', log = earlier ++ y :: later' := by
  rcases later.eq_nil_or_concat with rfl | ⟨middle, z, rfl⟩
  · obtain ⟨hlog, hx⟩ := List.append_inj' h rfl
    exact .inl ⟨hlog, List.head_eq_of_cons_eq hx⟩
  · rw [List.concat_eq_append, ← List.cons_append, ← List.append_assoc] at h
    exact .inr ⟨middle, (List.append_inj' h rfl).1⟩

/-- Whatever stands in a log was noted behind what was kept before. -/
theorem prefix_of_heard (h : Kept log t) {earlier : List Record} {r : Response}
    {handed : List Inbound} {later : List Record}
    (hlog : log = earlier ++ .heard r handed :: later) :
    (∃ t', Kept earlier t') ∧ Answers earlier r handed := by
  induction h generalizing later with
  | start => simp at hlog
  | skipped _ ih => exact ih hlog
  | asked _ _ _ _ ih | activated _ ih | ended _ ih =>
    rcases concat_eq_append_cons hlog with ⟨-, hx⟩ | ⟨later', hrest⟩
    · cases hx
    · exact ih hrest
  | @answered log t r' n request h hr hn ih =>
    rcases concat_eq_append_cons hlog with ⟨rfl, hx⟩ | ⟨later', hrest⟩
    · cases hx
      exact ⟨⟨t, h⟩, .inl ⟨n, request, hr, (h.get?_eq_some_iff n request).1 hn, rfl⟩⟩
    · exact ih hrest
  | @ignored log t r' h hr ih =>
    rcases concat_eq_append_cons hlog with ⟨rfl, hx⟩ | ⟨later', hrest⟩
    · cases hx
      refine ⟨⟨t, h⟩, .inr ⟨rfl, fun n request hn howes => ?_⟩⟩
      rw [← h.get?_eq_some_iff, hr n hn] at howes
      cases howes
    · exact ih hrest

/-- Once its response came a request is owed no answer, and its number is not given again. -/
theorem not_owes_of_heard (h : Kept log t) {earlier later : List Record} {r : Response}
    {handed : List Inbound} (hlog : log = earlier ++ .heard r handed :: later) {n : Nat}
    (hn : r.number? = some n) (hasked : n ∈ earlier.filterMap Record.number?)
    (request : PendingRequest) : ¬ Owes log n request := by
  induction h generalizing later with
  | start => simp at hlog
  | skipped _ ih => exact ih hlog
  | @asked log t method document h _ ih =>
    rw [owes_concat]
    rcases concat_eq_append_cons hlog with ⟨-, hx⟩ | ⟨later', hrest⟩
    · cases hx
    · rintro (hx | ⟨howes, -⟩)
      -- a new number stands above that of the request
      · have hmem : n ∈ log.filterMap Record.number? := by
          rw [hrest, List.filterMap_append]
          exact List.mem_append_left _ hasked
        cases hx
        exact Nat.lt_irrefl _ (h.number_lt hmem)
      · exact ih hrest howes
  | answered _ _ _ ih | ignored _ _ ih =>
    rw [owes_concat]
    rintro (hx | ⟨howes, hsettles⟩)
    · cases hx
    · rcases concat_eq_append_cons hlog with ⟨-, hx⟩ | ⟨later', hrest⟩
      · cases hx
        exact hsettles hn
      · exact ih hrest howes
  | activated _ ih | ended _ ih =>
    rw [owes_concat]
    rintro (hx | ⟨howes, -⟩)
    · cases hx
    · rcases concat_eq_append_cons hlog with ⟨-, hx⟩ | ⟨later', hrest⟩
      · cases hx
      · exact ih hrest howes

theorem once (h : Kept log t) {earlier middle later : List Record} {r r' : Response}
    {handed handed' : List Inbound}
    (hlog : log = earlier ++ .heard r handed :: (middle ++ .heard r' handed' :: later))
    (hhanded : handed ≠ []) (hhanded' : handed' ≠ []) : r.number? ≠ r'.number? := by
  have hlog' : log = (earlier ++ .heard r handed :: middle) ++ .heard r' handed' :: later := by
    simp [hlog]
  obtain ⟨-, hfirst⟩ := h.prefix_of_heard hlog
  obtain ⟨⟨t', ht'⟩, hsecond⟩ := h.prefix_of_heard hlog'
  rcases hfirst with ⟨n, request, hn, howes, -⟩ | ⟨hnil, -⟩
  · rcases hsecond with ⟨n', request', hn', howes', -⟩ | ⟨hnil, -⟩
    · intro hsame
      obtain rfl : n = n' := Option.some.inj (hn.symm.trans (hsame.trans hn'))
      exact ht'.not_owes_of_heard rfl hn (mem_number?_of_owes howes) request' howes'
    · exact absurd hnil hhanded'
  · exact absurd hnil hhanded

theorem silent (h : Kept log t) {earlier later : List Record} {r : Response}
    {handed : List Inbound} (hlog : log = earlier ++ .heard r handed :: later)
    (hstopped : Stopped earlier) : handed = [] := by
  obtain ⟨⟨t', ht'⟩, hanswers⟩ := h.prefix_of_heard hlog
  rcases hanswers with ⟨n, request, -, howes, -⟩ | ⟨hnil, -⟩
  · exact absurd howes (ht'.not_owes_of_stopped hstopped n request)
  · exact hnil

theorem correlates (h : Kept log t) : Correlates log where
  rising := h.rising
  answers _ _ _ _ hlog := (h.prefix_of_heard hlog).2
  once _ _ _ _ _ _ _ hlog hhanded hhanded' := h.once hlog hhanded hhanded'
  silent _ _ _ _ hlog hstopped := h.silent hlog hstopped

end Kept

/-! ## Histories -/

/-- The number of a request as it stands on the wire. -/
def Request.wireNumber? (message : Json) : Option Nat :=
  (Mirror.method? message).bind fun _ => (message.get? "id").bind Mirror.number?

theorem Request.wireNumber?_toJson (n : Nat) (method : String) (params : Option Json) :
    wireNumber? (Request.new n method params).toJson = some n := by
  rw [wireNumber?, Mirror.method?_request]
  simp [Request.toJson, Request.new, RequestId.toJson, Json.get?, Mirror.number?]

theorem Notification.wireNumber?_toJson (n : Notification) :
    Request.wireNumber? n.toJson = none := by
  simp [Request.wireNumber?, Notification.toJson, Json.get?]

theorem Response.wireNumber?_toJson (r : Response) : Request.wireNumber? r.toJson = none := by
  rw [Request.wireNumber?, Mirror.method?_response, Option.bind_none]

/-- What can be done with a connection. -/
inductive Connection.Operation where
  | handshake (root : Path) (processId : Nat)
  | activate
  | send (method : Method) (params : Json) (document : Option Path)
  | notify (n : Notification)
  | receive (bytes : Bytes)
  | shutdown
  | terminate
  /-- The wire to the server takes no more messages. -/
  | cut

/-- A connection, the messages that were written to its server, the messages that were handed on, and
its log. -/
structure History where
  connection : Connection
  written : List Json
  handed : List Inbound
  log : List Record

namespace History

/-- A server was just launched. -/
def start (id : ConnectionId) (config : ServerConfig) (wireOpen : Bool) : History :=
  ⟨.new id config wireOpen, [], [], []⟩

/-- What is noted of one value that comes. -/
def heardOf (c : Connection) (v : Json) : List Record :=
  match Message.decoder v with
  | .ok (.response r) => [.heard r (c.receiveValue v).1.inbound]
  | _ => []

/-- What is noted of what the decoder made of some output. -/
def heard (c : Connection) : List Framer.Result → List Record
  | [] => []
  | .error _ :: rest => heard c rest
  | .ok v :: rest => heardOf c v ++ heard (c.receiveValue v).2 rest

/-- A history after the connection has come to stand as given. -/
def note (h : History) (c : Connection) (messages : List Json) (items : List Inbound)
    (records : List Record) : History :=
  ⟨c, h.written ++ messages, h.handed ++ items, h.log ++ records⟩

/-- What becomes of a history when a request was tried: it is noted if it was written. -/
def ask (h : History) (request : PendingRequest)
    (asked : Except Failure (Nat × Json) × Connection) : History :=
  match asked.1 with
  | .ok (n, message) => h.note asked.2 [message] [] [.asked n request]
  | .error _ => h.note asked.2 [] [] []

/-- What becomes of a history when something is done with the connection. -/
def perform (h : History) : Connection.Operation → History
  | .handshake root processId =>
    h.ask ⟨.handshake, none⟩ (h.connection.handshake root processId)
  | .activate =>
    let (greetings, c) := h.connection.activate
    h.note c (greetings.toOption.getD []) [] [.activated]
  | .send method params document =>
    h.ask ⟨method, document⟩ (h.connection.sendRequest method params document)
  | .notify n => h.note h.connection (h.connection.notify n).toOption.toList [] []
  | .receive bytes =>
    let (results, framer) := h.connection.framer.feed bytes
    let (received, c) := h.connection.receive bytes
    h.note c received.replies received.inbound
      (heard { h.connection with framer := framer } results)
  | .shutdown =>
    let (messages, c) := h.connection.shutdown
    h.note c messages []
      ((messages.filterMap Request.wireNumber?).map (.asked · ⟨.shutdown, none⟩))
  | .terminate => h.note h.connection.terminate [] [] [.ended]
  | .cut => h.note { h.connection with wireOpen := false } [] [] []

/-- What becomes of a history when one thing is done after another. -/
def run (h : History) (operations : List Connection.Operation) : History :=
  operations.foldl perform h

theorem run_append (h : History) (operations more : List Connection.Operation) :
    h.run (operations ++ more) = (h.run operations).run more :=
  List.foldl_append

theorem run_singleton (h : History) (operation : Connection.Operation) :
    h.run [operation] = h.perform operation :=
  rfl

/-- What is so at every point of a history. -/
structure Accounts (h : History) : Prop where
  correlates : Correlates h.log
  /-- The log has the requests that stand on the wire. -/
  written : h.written.filterMap Request.wireNumber? = h.log.filterMap Record.number?
  /-- The log has the responses that were handed on. -/
  handed : h.handed.filter Inbound.isResponse = h.log.flatMap Record.handed
  /-- A request is pending as long as it is owed an answer. -/
  pending : ∀ n request,
    h.connection.requests.requests.get? n = some request ↔ Owes h.log n request
  /-- A response that answers no request is ignored. -/
  ignores : ∀ v r, Message.decoder v = .ok (.response r) →
    (∀ n request, r.number? = some n → ¬ Owes h.log n request) →
      h.connection.receiveValue v = (⟨[], []⟩, h.connection)
  /-- A request that cannot be written leaves the pending table as it was. -/
  restores : ∀ method params document failure,
    (h.connection.sendRequest method params document).1 = .error failure →
      (h.connection.sendRequest method params document).2.requests.requests =
        h.connection.requests.requests

/-! ## What every operation keeps -/

/-- A log that was kept of a connection. -/
structure Held (log : List Record) (c : Connection) : Prop where
  kept : Kept log c.requests
  stopped : Stopped log → c.state = .stopped

namespace Held

variable {log : List Record} {c : Connection}

theorem accepts (h : Held log c) (haccepts : c.accepts = true) : ¬ Stopped log := by
  intro hstopped
  simp [Connection.accepts, h.stopped hstopped] at haccepts

/-- The next number is not in use. -/
theorem get?_nextId (h : Held log c) : c.requests.requests.get? c.requests.nextId = none := by
  cases hn : c.requests.requests.get? c.requests.nextId with
  | none => rfl
  | some request =>
    have howes := (h.kept.get?_eq_some_iff _ request).1 hn
    exact absurd (h.kept.number_lt (Kept.mem_number?_of_owes howes)) (Nat.lt_irrefl _)

/-- A request that was not written is taken out again. -/
theorem discard_register (h : Held log c) (method : Method) (document : Option Path) :
    (c.requests.register method document).2.discard c.requests.nextId =
      { c.requests with nextId := c.requests.nextId + 1 } := by
  rw [PendingTable.register, PendingTable.discard, Table.erase_set,
    Table.erase_of_get?_eq_none h.get?_nextId]

theorem sendRequest (h : Held log c) (method : Method) (params : Json) (document : Option Path) :
    ((c.sendRequest method params document).1 = .ok (c.requests.nextId,
        (Request.new c.requests.nextId method.name (some params)).toJson) ∧
      Held (log ++ [.asked c.requests.nextId ⟨method, document⟩])
        (c.sendRequest method params document).2) ∨
    ((c.sendRequest method params document).1 = .error .notConnected ∧
      (c.sendRequest method params document).2 =
        { c with requests := { c.requests with nextId := c.requests.nextId + 1 } }) := by
  rw [Connection.sendRequest_fst, Connection.sendRequest_snd]
  cases haccepts : c.accepts with
  | true =>
    refine .inl ⟨rfl, h.kept.asked method document (h.accepts haccepts), fun hstopped => ?_⟩
    exact h.stopped (by simpa [stopped_concat] using hstopped)
  | false => exact .inr ⟨rfl, by rw [← h.discard_register method document]; rfl⟩

/-- A response that no pending request waits for is ignored. -/
theorem receiveValue_of_not_owes (h : Held log c) {v : Json} {r : Response}
    (hv : Message.decoder v = .ok (.response r))
    (hr : ∀ n request, r.number? = some n → ¬ Owes log n request) :
    c.receiveValue v = (⟨[], []⟩, c) := by
  have hnone : r.id.bind c.requests.resolve = none := by
    refine Option.eq_none_iff_forall_ne_some.2 fun found hfound => ?_
    obtain ⟨id, hid, hfound⟩ := Option.bind_eq_some_iff.1 hfound
    obtain ⟨n, hn, hfound⟩ := Option.bind_eq_some_iff.1 hfound
    obtain ⟨request, hrequest, -⟩ := Option.map_eq_some_iff.1 hfound
    exact hr n request (by simp [Response.number?, hid, hn])
      ((h.kept.get?_eq_some_iff n request).1 hrequest)
  rw [Connection.receiveValue, hv]
  simp only [hnone]

/-- A response that a pending request waits for takes it out of the table. -/
theorem receiveValue_of_owes {v : Json} {r : Response} {n : Nat} {request : PendingRequest}
    (hv : Message.decoder v = .ok (.response r)) (hr : r.number? = some n)
    (hn : c.requests.requests.get? n = some request) :
    c.receiveValue v = (⟨[.response request r.outcome], []⟩,
      { c with requests := { c.requests with requests := c.requests.requests.erase n } }) := by
  obtain ⟨id, hid, hnumber⟩ := Option.bind_eq_some_iff.1 hr
  have hresolve : r.id.bind c.requests.resolve =
      some (request, { c.requests with requests := c.requests.requests.erase n }) := by
    simp [hid, PendingTable.resolve, hnumber, hn]
  rw [Connection.receiveValue, hv]
  simp only [hresolve]

theorem heardOf (h : Held log c) (v : Json) :
    Held (log ++ History.heardOf c v) (c.receiveValue v).2 ∧
      (c.receiveValue v).1.inbound.filter Inbound.isResponse =
        (History.heardOf c v).flatMap Record.handed := by
  unfold History.heardOf
  split
  · next r hv =>
    have hstopped : ∀ items, Stopped (log ++ [.heard r items]) → c.state = .stopped :=
      fun items hs => h.stopped (by simpa [stopped_concat] using hs)
    by_cases howes : ∃ n request, r.number? = some n ∧ c.requests.requests.get? n = some request
    · obtain ⟨n, request, hr, hn⟩ := howes
      rw [receiveValue_of_owes hv hr hn]
      exact ⟨⟨h.kept.answered hr hn, hstopped _⟩, by simp [Inbound.isResponse, Record.handed]⟩
    · have hnone : ∀ n request, r.number? = some n → ¬ Owes log n request := by
        intro n request hr hlog
        exact howes ⟨n, request, hr, (h.kept.get?_eq_some_iff n request).2 hlog⟩
      rw [h.receiveValue_of_not_owes hv hnone]
      refine ⟨⟨h.kept.ignored fun n hr => ?_, hstopped _⟩, by simp [Record.handed]⟩
      exact Option.eq_none_iff_forall_ne_some.2 fun request hn => howes ⟨n, request, hr, hn⟩
  · next hother =>
    -- what is no response is handed on as no response, and leaves the pending requests alone
    rw [List.append_nil, List.flatMap_nil]
    unfold Connection.receiveValue
    split
    · exact ⟨h, rfl⟩
    · next r hv => exact absurd hv (hother r)
    · split <;> exact ⟨h, rfl⟩
    · next r _ =>
      refine ⟨h, ?_⟩
      unfold Connection.surfaced
      split
      · cases (MessageParams.decoder r.params).toOption <;> rfl
      · rfl

theorem heard (h : Held log c) (results : List Framer.Result) :
    Held (log ++ History.heard c results) (c.receiveResults results).2 ∧
      (c.receiveResults results).1.inbound.filter Inbound.isResponse =
        (History.heard c results).flatMap Record.handed := by
  induction results generalizing log c with
  | nil =>
    rw [History.heard, List.append_nil]
    exact ⟨h, rfl⟩
  | cons result rest ih =>
    cases result with
    | error e =>
      rw [History.heard, Connection.receiveResults]
      exact ih h
    | ok v =>
      rw [History.heard, Connection.receiveResults]
      obtain ⟨hfirst, hhanded⟩ := h.heardOf v
      obtain ⟨hrest, hothers⟩ := ih hfirst
      refine ⟨by simpa using hrest, ?_⟩
      rw [List.filter_append, List.flatMap_append, hhanded, hothers]

end Held

/-- What comes asks for nothing. -/
theorem number?_heard (c : Connection) (results : List Framer.Result) :
    (heard c results).filterMap Record.number? = [] := by
  induction results generalizing c with
  | nil => rfl
  | cons result rest ih =>
    cases result with
    | error e => exact ih c
    | ok v =>
      rw [heard, List.filterMap_append, ih, heardOf]
      split <;> rfl

/-- What is so of a history after every operation. -/
structure Books (h : History) : Prop where
  held : Held h.log h.connection
  written : h.written.filterMap Request.wireNumber? = h.log.filterMap Record.number?
  handed : h.handed.filter Inbound.isResponse = h.log.flatMap Record.handed

theorem books_start (id : ConnectionId) (config : ServerConfig) (wireOpen : Bool) :
    Books (start id config wireOpen) :=
  ⟨⟨.start, fun h => absurd h (since_nil _ _)⟩, rfl, rfl⟩

namespace Books

variable {h : History}

theorem note (hb : Books h) {c : Connection} {messages : List Json} {items : List Inbound}
    {records : List Record} (held : Held (h.log ++ records) c)
    (hmessages : messages.filterMap Request.wireNumber? = records.filterMap Record.number?)
    (hitems : items.filter Inbound.isResponse = records.flatMap Record.handed) :
    Books (h.note c messages items records) := by
  refine ⟨held, ?_, ?_⟩
  · rw [History.note, List.filterMap_append, List.filterMap_append, hb.written, hmessages]
  · rw [History.note, List.filter_append, List.flatMap_append, hb.handed, hitems]

/-- What asks for nothing, and leaves the connection to owe what it owed, is no matter of the log. -/
theorem aside (hb : Books h) {c : Connection} (held : Held h.log c) {messages : List Json}
    (hmessages : messages.filterMap Request.wireNumber? = []) :
    Books (h.note c messages [] []) :=
  hb.note (by rwa [List.append_nil]) hmessages rfl

theorem ask (hb : Books h) (method : Method) (params : Json) (document : Option Path) :
    Books (h.ask ⟨method, document⟩ (h.connection.sendRequest method params document)) := by
  rcases hb.held.sendRequest method params document with ⟨hfst, hheld⟩ | ⟨hfst, hsnd⟩
  · simp only [History.ask, hfst]
    exact hb.note hheld (by simp [Request.wireNumber?_toJson, Record.number?]) rfl
  · simp only [History.ask, hfst, hsnd]
    refine hb.aside ?_ rfl
    exact ⟨hb.held.kept.skipped, hb.held.stopped⟩

theorem wireNumber?_notify (c : Connection) (n : Notification) :
    (c.notify n).toOption.toList.filterMap Request.wireNumber? = [] := by
  unfold Connection.notify Connection.write
  split <;> simp [Except.toOption, Notification.wireNumber?_toJson]

theorem activate (hb : Books h) : Books (h.perform .activate) := by
  refine hb.note ⟨hb.held.kept.activated, fun hs => ?_⟩ ?_ rfl
  · simp [stopped_concat] at hs
  · split
    · cases hsettings : h.connection.config.settings <;>
        simp [Connection.greetings, hsettings, Except.toOption, Record.number?,
          Notification.wireNumber?_toJson]
    · rfl

theorem receive (hb : Books h) (bytes : Bytes) : Books (h.perform (.receive bytes)) := by
  let c := { h.connection with framer := (h.connection.framer.feed bytes).2 }
  have hc : Held h.log c := ⟨hb.held.kept, hb.held.stopped⟩
  obtain ⟨hheld, hhanded⟩ := hc.heard (h.connection.framer.feed bytes).1
  refine hb.note hheld ?_ hhanded
  rw [number?_heard, List.filterMap_eq_nil_iff]
  intro m hm
  obtain ⟨-, r, rfl⟩ := (h.connection.receives_receive bytes).replies m hm
  exact r.wireNumber?_toJson

theorem shutdown (hb : Books h) : Books (h.perform .shutdown) := by
  rw [perform, Connection.shutdown]
  by_cases hactive : h.connection.isActive = true
  · have hsend := hb.held.sendRequest .shutdown .null none
    rw [if_pos hactive]
    rcases heq : h.connection.sendRequest .shutdown .null none with ⟨_ | ⟨n, message⟩, c⟩ <;>
      rw [heq] at hsend
    · rcases hsend with ⟨hfst, -⟩ | ⟨-, rfl⟩
      · cases hfst
      · refine hb.aside ?_ rfl
        exact ⟨hb.held.kept.skipped, hb.held.stopped⟩
    · rcases hsend with ⟨hfst, hheld⟩ | ⟨hfst, -⟩
      · cases hfst
        refine hb.note ?_ ?_ ?_ <;>
          simp [Request.wireNumber?_toJson, wireNumber?_notify, Record.number?, Record.handed]
        exact hheld
      · cases hfst
  · rw [if_neg hactive]
    exact hb.aside hb.held rfl

theorem perform (hb : Books h) (operation : Connection.Operation) :
    Books (h.perform operation) := by
  cases operation with
  | handshake root processId => exact hb.ask .handshake _ none
  | activate => exact hb.activate
  | send method params document => exact hb.ask method params document
  | notify n => exact hb.aside hb.held (wireNumber?_notify h.connection n)
  | receive bytes => exact hb.receive bytes
  | shutdown => exact hb.shutdown
  | terminate => exact hb.note ⟨hb.held.kept.ended, fun _ => rfl⟩ rfl rfl
  | cut =>
    refine hb.aside ?_ rfl
    exact ⟨hb.held.kept, hb.held.stopped⟩

theorem run (hb : Books h) (operations : List Connection.Operation) :
    Books (h.run operations) := by
  induction operations generalizing h with
  | nil => exact hb
  | cons operation operations ih => exact ih (hb.perform operation)

theorem accounts (hb : Books h) : Accounts h where
  correlates := hb.held.kept.correlates
  written := hb.written
  handed := hb.handed
  pending := hb.held.kept.get?_eq_some_iff
  ignores _ _ hv hr := hb.held.receiveValue_of_not_owes hv hr
  restores method params document failure hfailure := by
    rcases hb.held.sendRequest method params document with ⟨hfst, -⟩ | ⟨-, hsnd⟩
    · rw [hfst] at hfailure
      cases hfailure
    · rw [hsnd]

end Books

/-- **Every response that a connection hands on answers one request that it wrote.** Whatever is done
with it in whatever order, request numbers rise, no request is answered twice, and all other
responses are ignored. -/
theorem accounts_run (id : ConnectionId) (config : ServerConfig) (wireOpen : Bool)
    (operations : List Connection.Operation) :
    Accounts ((start id config wireOpen).run operations) :=
  ((books_start id config wireOpen).run operations).accounts

/-- Whether nothing is handed on for any response that comes after an end, also once the connection
was activated again. -/
def SilentAfterEnd (log : List Record) : Prop :=
  ∀ earlier r handed later, log = earlier ++ .heard r handed :: later →
    .ended ∈ earlier → handed = []

/-- The answer to the first request of a connection. -/
def firstAnswer : Json := .obj [("id", .int 1), ("jsonrpc", .str "2.0"), ("result", .null)]

theorem framable_firstAnswer : firstAnswer.Framable := by
  refine ⟨.obj ?_ (by decide), by decide, by decide +kernel⟩
  simp [Json.Exact.str, Json.Exact.null, Json.Exact.int (n := 1) (by decide) (by decide)]

/-- A pending request that is answered in one piece is noted with its answer. -/
theorem log_receive {h : History} {v : Json} {r : Response} {n : Nat} {request : PendingRequest}
    (hframer : h.connection.framer = .empty) (hframable : v.Framable)
    (hv : Message.decoder v = .ok (.response r)) (hr : r.number? = some n)
    (hn : h.connection.requests.requests.get? n = some request) :
    (h.perform (.receive (Frame.encode v))).log =
      h.log ++ [.heard r [.response request r.outcome]] := by
  have hresults : (h.connection.framer.feed (Frame.encode v)).1 = [.ok v] := by
    rw [hframer, Framer.feed_encode hframable]
  simp only [perform, note, hresults, heard, heardOf, hv, List.append_nil]
  rw [Held.receiveValue_of_owes hv hr (by exact hn)]

/-- A connection that is activated again after its end sends requests and hands on their answers. -/
theorem not_silentAfterEnd :
    ¬ SilentAfterEnd ((start 1 default true).run ([.terminate, .activate,
      .send .hover .null none] ++ [.receive (Frame.encode firstAnswer)])).log := by
  intro h
  obtain ⟨before, hbefore⟩ : ∃ before, (start 1 default true).run [.terminate, .activate,
    .send .hover .null none] = before := ⟨_, rfl⟩
  have hlog : before.log = [.ended, .activated, .asked 1 ⟨.hover, none⟩] := by
    rw [← hbefore]
    rfl
  have hframer : before.connection.framer = .empty := by
    rw [← hbefore]
    rfl
  have hpending : before.connection.requests.requests.get? 1 = some ⟨.hover, none⟩ := by
    rw [← hbefore]
    rfl
  have hdecoded : Message.decoder firstAnswer =
      .ok (.response ⟨"2.0", some (.number 1), none, none⟩) := rfl
  rw [run_append, hbefore, run_singleton,
    log_receive hframer framable_firstAnswer hdecoded rfl hpending] at h
  have hnone := h _ _ _ [] rfl (by simp [hlog])
  cases hnone

end History
end LanguageClient
