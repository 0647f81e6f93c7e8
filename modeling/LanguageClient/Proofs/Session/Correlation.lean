import LanguageClient.Proofs.Session.Run

/-!
# What an answer answers

Between a request and its answer anything can happen to a session. A request that is still owed an
answer then is the one that was made (`Turn.Continues.pending_eq`), for the same document.
-/

namespace LanguageClient

namespace Turn

variable {named : Path → Prop} {t t' u : Turn} {identity other : String} {c d : Connection}

/-! ## Making requests -/

/-- Whether the only requests that came to be owed an answer are like one given. -/
def AsksOnly (request : PendingRequest) (t t' : Turn) : Prop :=
  ∀ identity c' n r, t'.connection identity = some c' → c'.requests.requests.get? n = some r →
    r = request ∨ ∃ c, t.connection identity = some c ∧ c.requests.requests.get? n = some r

theorem AsksOnly.refl (request : PendingRequest) (t : Turn) : AsksOnly request t t :=
  fun _ c' _ _ hc hn => .inr ⟨c', hc, hn⟩

theorem AsksOnly.trans {request : PendingRequest} (h : AsksOnly request t t')
    (h' : AsksOnly request t' u) : AsksOnly request t u := by
  intro identity c' n r hc hn
  rcases h' identity c' n r hc hn with heq | ⟨c, hc, hn⟩
  · exact .inl heq
  · exact h identity c n r hc hn

theorem asksOnly_advance {request : PendingRequest} {c' : Connection} {messages : List Json}
    (hc : t.connection identity = some c) (h : ∀ n r, c'.requests.requests.get? n = some r →
      r = request ∨ c.requests.requests.get? n = some r) :
    AsksOnly request t (t.advance identity c' messages) := by
  intro other d n r hd hn
  rcases connection_advance_cases hd with ⟨rfl, rfl⟩ | ⟨-, hd⟩
  · rcases h n r hn with hr | hr
    · exact .inl hr
    · exact .inr ⟨c, hc, hr⟩
  · exact .inr ⟨d, hd, hn⟩

theorem asksOnly_openDocument (request : PendingRequest) (t : Turn) (identity : String)
    (path : Path) : AsksOnly request t (t.openDocument identity path) := by
  rcases openDocument_cases t identity path with heq |
    ⟨c, s, language, n, documents, hc, -, -, -, -, heq⟩
  · rw [heq]
    exact .refl request t
  · rw [heq]
    exact asksOnly_advance hc fun n r => .inr

theorem asksOnly_ask (t : Turn) (kind : RequestKind) (path : Path) (params : Json)
    (identity : String) :
    AsksOnly ⟨kind.capability.method, some path⟩ t (t.ask kind path params identity).2 := by
  have hopen := asksOnly_openDocument ⟨kind.capability.method, some path⟩ t identity path
  rw [ask_snd]
  split
  · exact hopen
  · next c hc =>
    refine hopen.trans (asksOnly_advance hc fun n r hn => ?_)
    rcases Connection.get?_sendRequest hn with ⟨-, hr⟩ | hn
    · exact .inl hr
    · exact .inr hn

theorem asksOnly_request (t : Turn) (kind : RequestKind) (path : Path) :
    AsksOnly ⟨kind.capability.method, some path⟩ t (t.request kind path) := by
  have hall : ∀ params identities,
      AsksOnly ⟨kind.capability.method, some path⟩ t (t.askAll kind path params identities) := by
    intro params identities
    induction identities generalizing t with
    | nil => exact .refl _ t
    | cons identity rest ih =>
      have hask := asksOnly_ask t kind path params identity
      rw [askAll]
      rcases heq : t.ask kind path params identity with ⟨failure, u⟩
      rw [heq] at hask
      cases failure with
      | none => exact hask.trans (ih u)
      | some e => exact hask
  unfold request
  split
  · exact .refl _ t
  · split
    · exact .refl _ t
    · exact hall _ _

/-- What is owed an answer after a request and has a new number is that request. -/
theorem eq_of_pending_request (ht : t.Coherent named) {kind : RequestKind} {path : Path} {n : Nat}
    {r : PendingRequest} (hc : (t.request kind path).connection identity = some c)
    (hn : c.requests.requests.get? n = some r)
    (hnew : ∀ d, t.connection identity = some d → d.requests.nextId ≤ n) :
    r = ⟨kind.capability.method, some path⟩ := by
  rcases asksOnly_request t kind path identity c n r hc hn with heq | ⟨d, hd, hbefore⟩
  · exact heq
  · have hlt := (ht.sound identity d hd).numbered n r hbefore
    exact absurd hlt (Nat.not_lt_of_le (hnew d hd))

/-! ## From the request to the answer -/

/-- A request that was made and is still owed an answer is what it was. -/
theorem Continues.pending_eq (h : t.Continues t') (ht : t.Coherent named) {n : Nat}
    {r r' : PendingRequest} (hc : t.connection identity = some c)
    (hn : c.requests.requests.get? n = some r) (hd : t'.connection other = some d)
    (hid : d.id = c.id) (hn' : d.requests.requests.get? n = some r') : r' = r := by
  have hlt : n < c.requests.nextId := (ht.sound identity c hc).numbered n r hn
  rcases h.connections other d hd with ⟨e, he, hcontinues⟩ | hle
  -- numbers tell connections apart, so the one that goes on is the one that was asked
  · obtain rfl := ht.distinct other identity e c he hc (hcontinues.id.symm.trans hid)
    obtain rfl := Option.some.inj (he.symm.trans hc)
    rcases hcontinues.pending n r' hn' with hsame | ⟨hle, -⟩
    · exact Option.some.inj (hsame.symm.trans hn)
    · exact absurd hlt (Nat.not_lt_of_le hle)
  -- a connection that was entered since has another number
  · have hfresh := ht.fresh identity c hc
    rw [hid] at hle
    exact absurd hfresh (Nat.not_lt_of_le hle)

end Turn

/-! ## The answer -/

/-- A value that answers a request gives the answer with what the request was for. -/
theorem Connection.receiveResults_answer {c : Connection} {v : Json} {r : Response} {id : RequestId}
    {n : Nat} {request : PendingRequest} (hv : Message.decoder v = .ok (.response r))
    (hid : r.id = some id) (hn : id.number? = some n)
    (hrequest : c.requests.requests.get? n = some request) :
    (c.receiveResults [.ok v]).1.inbound = [.response request r.outcome] := by
  simp [receiveResults, receiveValue, hv, hid, PendingTable.resolve, hn, hrequest]

end LanguageClient
