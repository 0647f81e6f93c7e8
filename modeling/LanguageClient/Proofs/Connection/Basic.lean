import LanguageClient.Connection.Basic
import LanguageClient.Proofs.Table

/-!
# What operations of a connection change

Sending touches the pending requests alone, and receiving the decoder and the pending requests: each
response that is handed on takes one request out of the table (`PendingTable.Resolves`), and what is
written while receiving are responses. Everything else of a connection stays as it is.
-/

namespace LanguageClient

/-- Whether a message answers the handshake. -/
def Inbound.answersHandshake : Inbound → Bool
  | .response request _ => request.method = .handshake
  | _ => false

/-- Whether a message answers a request whose answer edits the document. -/
def Inbound.formats : Inbound → Bool
  | .response request _ => request.method = .formatting || request.method = .rangeFormatting
  | _ => false

/-- Messages handed on one after another, with the requests that are left: a response takes the
request that it answers out of the table. -/
inductive PendingTable.Resolves : PendingTable → List Inbound → PendingTable → Prop where
  | done {t : PendingTable} : Resolves t [] t
  | answer {t t' : PendingTable} {n : Nat} {request : PendingRequest}
      {outcome : Except ResponseError Json} {rest : List Inbound}
      (h : t.requests.get? n = some request)
      (hrest : Resolves { t with requests := t.requests.erase n } rest t') :
      Resolves t (.response request outcome :: rest) t'
  | other {t t' : PendingTable} {item : Inbound} {rest : List Inbound}
      (h : ∀ request outcome, item ≠ .response request outcome) (hrest : Resolves t rest t') :
      Resolves t (item :: rest) t'

namespace PendingTable.Resolves

variable {t t' u : PendingTable} {items more : List Inbound}

theorem append (h : Resolves t items t') (h' : Resolves t' more u) :
    Resolves t (items ++ more) u := by
  induction h with
  | done => exact h'
  | answer hn _ ih => exact .answer hn (ih h')
  | other ho _ ih => exact .other ho (ih h')

theorem nextId_eq (h : Resolves t items t') : t'.nextId = t.nextId := by
  induction h with
  | done => rfl
  | answer _ _ ih => exact ih
  | other _ _ ih => exact ih

theorem get?_of_erase {requests : Table Nat PendingRequest} {n k : Nat} {request : PendingRequest}
    (h : (requests.erase n).get? k = some request) : requests.get? k = some request ∧ k ≠ n := by
  rw [Table.get?_erase] at h
  split at h
  · cases h
  · next hne => exact ⟨h, Ne.symm hne⟩

/-- No request is pending afterwards that was not before. -/
theorem get?_of_get? (h : Resolves t items t') {k : Nat} {request : PendingRequest}
    (hk : t'.requests.get? k = some request) : t.requests.get? k = some request := by
  induction h with
  | done => exact hk
  | answer _ _ ih => exact (get?_of_erase (ih hk)).1
  | other _ _ ih => exact ih hk

/-- A request that was pending is so afterwards, or one of the messages answers it. -/
theorem get?_or_answered (h : Resolves t items t') {k : Nat} {request : PendingRequest}
    (hk : t.requests.get? k = some request) :
    t'.requests.get? k = some request ∨ ∃ outcome, .response request outcome ∈ items := by
  induction h with
  | done => exact .inl hk
  | @answer t t' n r outcome rest hn _ ih =>
    by_cases hne : n = k
    · obtain rfl := hne
      obtain rfl := Option.some.inj (hn.symm.trans hk)
      exact .inr ⟨outcome, List.mem_cons_self⟩
    · rcases ih ((Table.get?_erase_of_ne _ hne).trans hk) with hleft | ⟨outcome, hmem⟩
      · exact .inl hleft
      · exact .inr ⟨outcome, List.mem_cons_of_mem _ hmem⟩
  | other _ _ ih =>
    rcases ih hk with hleft | ⟨outcome, hmem⟩
    · exact .inl hleft
    · exact .inr ⟨outcome, List.mem_cons_of_mem _ hmem⟩

/-- What is answered was pending, and is no longer. -/
theorem exists_of_mem (h : Resolves t items t') {request : PendingRequest}
    {outcome : Except ResponseError Json} (hmem : .response request outcome ∈ items) :
    ∃ n, t.requests.get? n = some request ∧ t'.requests.get? n = none := by
  induction h with
  | done => cases hmem
  | @answer t t' n r o rest hn hrest ih =>
    rcases List.mem_cons.1 hmem with heq | hmem
    · cases heq
      refine ⟨n, hn, ?_⟩
      cases hleft : t'.requests.get? n with
      | none => rfl
      | some left => exact absurd rfl (get?_of_erase (hrest.get?_of_get? hleft)).2
    · obtain ⟨k, hk, hgone⟩ := ih hmem
      exact ⟨k, (get?_of_erase hk).1, hgone⟩
  | other ho _ ih =>
    rcases List.mem_cons.1 hmem with heq | hmem
    · exact absurd heq.symm (ho _ _)
    · exact ih hmem

theorem exists_of_answersHandshake (h : Resolves t items t') {item : Inbound} (hmem : item ∈ items)
    (hitem : item.answersHandshake = true) :
    ∃ n request, t.requests.get? n = some request ∧ request.method = .handshake := by
  cases item with
  | response request outcome =>
    obtain ⟨n, hn, -⟩ := h.exists_of_mem hmem
    exact ⟨n, request, hn, by simpa [Inbound.answersHandshake] using hitem⟩
  | notification n => cases hitem
  | messageRequest m => cases hitem

/-- A handshake that has one number is answered once at most. -/
theorem countP_answersHandshake_le (h : Resolves t items t') {k : Nat}
    (hone : ∀ n request, t.requests.get? n = some request → request.method = .handshake → n = k) :
    items.countP Inbound.answersHandshake ≤ 1 := by
  induction h with
  | done => exact Nat.zero_le 1
  | @answer t t' n request outcome rest hn hrest ih =>
    by_cases hr : request.method = .handshake
    -- the one number is answered here, so it is not pending behind
    · have hnone : rest.countP Inbound.answersHandshake = 0 := by
        refine List.countP_eq_zero.2 fun item hmem hitem => ?_
        obtain ⟨m, r, hm, hmethod⟩ := hrest.exists_of_answersHandshake hmem hitem
        obtain ⟨hm, hne⟩ := get?_of_erase hm
        exact hne ((hone m r hm hmethod).trans (hone n request hn hr).symm)
      rw [List.countP_cons, hnone]
      split <;> omega
    · have hrest := ih fun m r hm hmethod => hone m r (get?_of_erase hm).1 hmethod
      rwa [List.countP_cons_of_neg (by simpa [Inbound.answersHandshake] using hr)]
  | @other t t' item rest ho _ ih =>
    have hitem : ¬ item.answersHandshake = true := by
      cases item with
      | response request outcome => exact absurd rfl (ho _ _)
      | notification n => simp [Inbound.answersHandshake]
      | messageRequest m => simp [Inbound.answersHandshake]
    rw [List.countP_cons_of_neg hitem]
    exact ih hone

end PendingTable.Resolves

namespace Connection

/-! ## Sending -/

theorem sendRequest_snd (c : Connection) (method : Method) (params : Json)
    (document : Option Path) :
    (c.sendRequest method params document).2 = { c with
      requests := if c.accepts then (c.requests.register method document).2
        else (c.requests.register method document).2.discard c.requests.nextId } := by
  by_cases h : c.accepts = true <;> simp [sendRequest, write, h, PendingTable.register]

theorem sendRequest_fst (c : Connection) (method : Method) (params : Json)
    (document : Option Path) :
    (c.sendRequest method params document).1 =
      if c.accepts then
        .ok (c.requests.nextId, (Request.new c.requests.nextId method.name (some params)).toJson)
      else .error .notConnected := by
  by_cases h : c.accepts = true <;> simp [sendRequest, write, h, PendingTable.register]

/-- A request that is pending after one was sent is that one or was pending before. -/
theorem get?_sendRequest {c : Connection} {method : Method} {params : Json}
    {document : Option Path} {n : Nat} {request : PendingRequest}
    (h : (c.sendRequest method params document).2.requests.requests.get? n = some request) :
    (n = c.requests.nextId ∧ request = ⟨method, document⟩) ∨
      c.requests.requests.get? n = some request := by
  rw [sendRequest_snd] at h
  dsimp only at h
  split at h
  · rw [PendingTable.register, Table.get?_set] at h
    split at h
    · next hn =>
      cases h
      exact .inl ⟨hn.symm, rfl⟩
    · exact .inr h
  · obtain ⟨h, hne⟩ := PendingTable.Resolves.get?_of_erase h
    rw [PendingTable.register, Table.get?_set_of_ne _ _ (Ne.symm hne)] at h
    exact .inr h

/-- Sending a request leaves those before it as they are. -/
theorem get?_sendRequest_of_lt {c : Connection} {method : Method} {params : Json}
    {document : Option Path} {n : Nat} (h : n < c.requests.nextId) :
    (c.sendRequest method params document).2.requests.requests.get? n =
      c.requests.requests.get? n := by
  have hne : c.requests.nextId ≠ n := Nat.ne_of_gt h
  rw [sendRequest_snd]
  dsimp only
  split
  · exact Table.get?_set_of_ne _ _ hne
  · rw [PendingTable.discard, Table.get?_erase_of_ne _ hne]
    exact Table.get?_set_of_ne _ _ hne

theorem nextId_sendRequest (c : Connection) (method : Method) (params : Json)
    (document : Option Path) :
    (c.sendRequest method params document).2.requests.nextId = c.requests.nextId + 1 := by
  rw [sendRequest_snd]
  dsimp only
  split <;> rfl

theorem shutdown_snd (c : Connection) :
    c.shutdown.2 = if c.isActive then (c.sendRequest .shutdown .null none).2 else c := by
  unfold shutdown
  split
  · split <;> next heq => simp [heq]
  · rfl

/-- A connection that parts changes in its requests alone. -/
theorem shutdown_same (c : Connection) :
    c.shutdown.2 = { c with requests := c.shutdown.2.requests } := by
  rw [shutdown_snd]
  split
  · rw [sendRequest_snd]
  · rfl

/-! ## Receiving -/

/-- What receiving some values does, but for the decoder. -/
structure Receives (c : Connection) (received : Received) (c' : Connection) : Prop where
  same : c' = { c with requests := c'.requests }
  resolves : c.requests.Resolves received.inbound c'.requests
  replies : ∀ m ∈ received.replies, c.accepts = true ∧ ∃ r : Response, m = r.toJson

theorem receives_receiveValue (c : Connection) (v : Json) :
    Receives c (c.receiveValue v).1 (c.receiveValue v).2 := by
  have hnothing : Receives c ⟨[], []⟩ c := ⟨rfl, .done, by simp⟩
  unfold receiveValue
  split
  · exact hnothing
  · next r _ =>
    split
    · exact hnothing
    · next request requests hresolve =>
      obtain ⟨id, -, hresolve⟩ := Option.bind_eq_some_iff.1 hresolve
      obtain ⟨n, -, hresolve⟩ := Option.bind_eq_some_iff.1 hresolve
      obtain ⟨found, hfound, heq⟩ := Option.map_eq_some_iff.1 hresolve
      cases heq
      exact ⟨rfl, .answer hfound .done, by simp⟩
  · split
    · exact hnothing
    · exact hnothing
    · exact ⟨rfl, .other (by simp) .done, by simp⟩
  · next r _ =>
    refine ⟨rfl, ?_, ?_⟩
    · unfold surfaced
      split
      · cases (MessageParams.decoder r.params).toOption with
        | none => exact .done
        | some m => exact .other (by simp) .done
      · exact .done
    · intro m hm
      unfold write at hm
      split at hm
      · next haccepts => exact ⟨haccepts, c.reply r, by simpa [Except.toOption] using hm⟩
      · simp [Except.toOption] at hm

theorem Receives.trans {c c₁ c₂ : Connection} {first others : Received}
    (h : Receives c first c₁) (h' : Receives c₁ others c₂) :
    Receives c ⟨first.inbound ++ others.inbound, first.replies ++ others.replies⟩ c₂ := by
  refine ⟨?_, h.resolves.append h'.resolves, ?_⟩
  · rw [h'.same, h.same]
  · intro m hm
    rcases List.mem_append.1 hm with hm | hm
    · exact h.replies m hm
    · have hlater := h'.replies m hm
      rw [h.same] at hlater
      exact hlater

theorem receives_receiveResults (c : Connection) (results : List Framer.Result) :
    Receives c (c.receiveResults results).1 (c.receiveResults results).2 := by
  induction results generalizing c with
  | nil => exact ⟨rfl, .done, by simp [receiveResults]⟩
  | cons result rest ih =>
    cases result with
    | error e =>
      rw [receiveResults]
      exact ih c
    | ok v =>
      rw [receiveResults]
      exact (receives_receiveValue c v).trans (ih _)

theorem receiveResults_append (c : Connection) (results more : List Framer.Result) :
    c.receiveResults (results ++ more) =
      (⟨(c.receiveResults results).1.inbound ++
            ((c.receiveResults results).2.receiveResults more).1.inbound,
          (c.receiveResults results).1.replies ++
            ((c.receiveResults results).2.receiveResults more).1.replies⟩,
        ((c.receiveResults results).2.receiveResults more).2) := by
  induction results generalizing c with
  | nil => rfl
  | cons result rest ih =>
    cases result with
    | error e =>
      rw [List.cons_append, receiveResults, ih, receiveResults]
    | ok v =>
      simp only [List.cons_append, receiveResults, ih, List.append_assoc]

/-- **Receiving changes the decoder, takes answered requests out of the table and replies.** -/
theorem receives_receive (c : Connection) (bytes : Bytes) :
    Receives { c with framer := (c.framer.feed bytes).2 } (c.receive bytes).1
      (c.receive bytes).2 :=
  receives_receiveResults { c with framer := (c.framer.feed bytes).2 } (c.framer.feed bytes).1

end Connection
end LanguageClient
