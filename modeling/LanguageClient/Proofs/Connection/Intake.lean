import LanguageClient.Proofs.Connection.Basic
import LanguageClient.Proofs.Wire.Pieces

/-!
# What a connection hears with

A connection hears with its decoder and its pending requests, which are its intake. What it makes of
some output hangs on the intake, on the configuration, and on whether it can reply
(`Connection.receive_congr`), and so receiving two pieces of output in a row is receiving them at
once (`Connection.receive_append`).
-/

namespace LanguageClient.Connection

/-- The connection with another intake. -/
def withIntake (c : Connection) (framer : Framer) (requests : PendingTable) : Connection :=
  { c with framer := framer, requests := requests }

/-- Whether two connections make the same of what they hear. -/
structure HearsAs (c d : Connection) : Prop where
  framer : c.framer = d.framer
  requests : c.requests = d.requests
  config : c.config = d.config
  accepts : c.accepts = d.accepts

variable {c d : Connection}

theorem HearsAs.write_eq (h : HearsAs c d) (message : Json) : c.write message = d.write message := by
  rw [write, write, h.accepts]

theorem HearsAs.receiveValue (h : HearsAs c d) (v : Json) :
    (c.receiveValue v).1 = (d.receiveValue v).1 ∧
      HearsAs (c.receiveValue v).2 (d.receiveValue v).2 := by
  unfold Connection.receiveValue
  split
  · exact ⟨rfl, h⟩
  · next r _ =>
    rw [h.requests]
    split
    · exact ⟨rfl, h⟩
    · exact ⟨rfl, h.framer, rfl, h.config, h.accepts⟩
  · split
    · exact ⟨rfl, h⟩
    · exact ⟨rfl, h⟩
    · exact ⟨rfl, h⟩
  · next r _ =>
    have hreply : c.reply r = d.reply r := by rw [reply, reply, h.config]
    rw [hreply, h.write_eq]
    exact ⟨rfl, h⟩

theorem HearsAs.receiveResults (h : HearsAs c d) (results : List Framer.Result) :
    (c.receiveResults results).1 = (d.receiveResults results).1 ∧
      HearsAs (c.receiveResults results).2 (d.receiveResults results).2 := by
  induction results generalizing c d with
  | nil => exact ⟨rfl, h⟩
  | cons result rest ih =>
    cases result with
    | error e =>
      rw [Connection.receiveResults, Connection.receiveResults]
      exact ih h
    | ok v =>
      obtain ⟨hfirst, hnext⟩ := h.receiveValue v
      obtain ⟨hrest, hlast⟩ := ih hnext
      rw [Connection.receiveResults, Connection.receiveResults]
      dsimp only
      rw [hfirst, hrest]
      exact ⟨rfl, hlast⟩

/-- **What a connection makes of output hangs on what it hears with.** -/
theorem receive_congr (h : HearsAs c d) (bytes : Bytes) :
    (c.receive bytes).1 = (d.receive bytes).1 ∧
      HearsAs (c.receive bytes).2 (d.receive bytes).2 := by
  have hfed : HearsAs { c with framer := (c.framer.feed bytes).2 }
      { d with framer := (d.framer.feed bytes).2 } :=
    ⟨by rw [h.framer], h.requests, h.config, h.accepts⟩
  have hresults := hfed.receiveResults (c.framer.feed bytes).1
  rw [receive, receive]
  dsimp only
  rw [← h.framer] at hresults ⊢
  exact hresults

/-! ## The intake -/

/-- Receiving changes the intake alone. -/
theorem receive_snd (c : Connection) (bytes : Bytes) : (c.receive bytes).2 =
    c.withIntake (c.framer.feed bytes).2 (c.receive bytes).2.requests :=
  (receives_receive c bytes).same

theorem framer_receive (c : Connection) (bytes : Bytes) :
    (c.receive bytes).2.framer = (c.framer.feed bytes).2 := by
  rw [receive_snd]
  rfl

/-- Values are received whatever the decoder holds. -/
theorem receiveValue_withFramer (c : Connection) (framer : Framer) (v : Json) :
    { c with framer := framer }.receiveValue v =
      ((c.receiveValue v).1, { (c.receiveValue v).2 with framer := framer }) := by
  unfold receiveValue
  split
  · rfl
  · next r _ =>
    dsimp only
    split
    · rfl
    · rfl
  · split
    · rfl
    · rfl
    · rfl
  · rfl

theorem receiveResults_withFramer (c : Connection) (framer : Framer)
    (results : List Framer.Result) :
    { c with framer := framer }.receiveResults results =
      ((c.receiveResults results).1, { (c.receiveResults results).2 with framer := framer }) := by
  induction results generalizing c with
  | nil => rfl
  | cons result rest ih =>
    cases result with
    | error e =>
      rw [receiveResults, receiveResults]
      exact ih c
    | ok v =>
      simp only [receiveResults, receiveValue_withFramer, ih]

/-- **Two pieces of output in a row are received like both at once**, as long as the header blocks
are brief. -/
theorem receive_append (hsettled : c.framer.Settled) {bytes more : Bytes}
    (hbrief : Decoder.Brief (c.framer.view.push (bytes ++ more))) :
    c.receive (bytes ++ more) =
      (⟨(c.receive bytes).1.inbound ++ ((c.receive bytes).2.receive more).1.inbound,
          (c.receive bytes).1.replies ++ ((c.receive bytes).2.receive more).1.replies⟩,
        ((c.receive bytes).2.receive more).2) := by
  have hpieces : [bytes, more].flatten = bytes ++ more := by simp
  have hwhole : Decoder.Brief (c.framer.view.push [bytes, more].flatten) := by rwa [hpieces]
  have hfeed := hsettled.feed_flatten hwhole
  rw [hpieces] at hfeed
  simp only [Framer.feedAll, List.flatten_cons, List.flatten_nil, List.append_nil] at hfeed
  have hsecond : (c.receive bytes).2.receive more =
      { (c.receive bytes).2 with
        framer := ((c.framer.feed bytes).2.feed more).2 }.receiveResults
          ((c.framer.feed bytes).2.feed more).1 := by
    rw [receive, framer_receive]
  have hfirst : ∀ framer, { c with framer := framer }.receiveResults (c.framer.feed bytes).1 =
      ((c.receive bytes).1, { (c.receive bytes).2 with framer := framer }) := fun framer =>
    receiveResults_withFramer { c with framer := (c.framer.feed bytes).2 } framer _
  rw [receive, hfeed]
  dsimp only
  rw [receiveResults_append, hfirst, hsecond]

end LanguageClient.Connection
