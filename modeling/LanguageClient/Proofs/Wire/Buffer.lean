import LanguageClient.Proofs.Wire.Pieces

/-!
# The buffer of a decoder

What holds of the bytes that a decoder has not used, whatever feeds it had, each followed to its end
or given up after some of its results (`Framer.followAll`). No terminator lies in what counts as
searched, so that the search that goes on from there finds the first terminator of the buffer; every
result uses up bytes from the front, so that each feed ends; and when it has ended, what is left is
short (`Framer.wellKept_followAll`).
-/

namespace LanguageClient

namespace Decoder

/-- What waits for more holds less than a body, or than a header may take up. -/
theorem length_of_waits {s : State} (h : s.step = (none, s)) :
    match s.awaited with
    | none => s.buffer.length ≤ Frame.maxHeader
    | some n => s.buffer.length < n := by
  cases goes_of_step h with
  | quiet hnone hshort => exact hshort
  | part hawaits hlt => exact hlt

end Decoder

namespace Framer

open Decoder

variable {f g : Framer}

/-! ## What is used up -/

/-- **Every result uses up bytes from the front of the buffer.** -/
theorem exists_used_of_next {r : Result} (h : f.Valid) (hnext : f.next = (some r, g)) :
    ∃ used, used ≠ [] ∧ f.buffer = used ++ g.buffer := by
  have hshort := next_shorter h hnext
  obtain ⟨used, hused⟩ : g.buffer <:+ f.buffer := step_suffix (step_of_next h hnext).1
  refine ⟨used, ?_, hused.symm⟩
  rintro rfl
  rw [← hused, List.nil_append] at hshort
  exact Nat.lt_irrefl _ hshort

/-- The results and the bytes that are left are no more than the bytes there were. -/
theorem length_take_add_le (h : f.Valid) (limit : Nat) :
    (take limit f).1.length + (take limit f).2.buffer.length ≤ f.buffer.length := by
  induction limit generalizing f with
  | zero => exact Nat.le_of_eq (Nat.zero_add _)
  | succ limit ih =>
    cases hnext : f.next with
    | mk out g =>
      obtain ⟨hstep, hvalid⟩ := step_of_next h hnext
      cases out with
      | none =>
        have hsuffix : g.buffer <:+ f.buffer := step_suffix hstep
        rw [take_of_none hnext, List.length_nil, Nat.zero_add]
        exact hsuffix.length_le
      | some r =>
        have hshort := next_shorter h hnext
        have hrest := ih hvalid
        simp only [take_of_some hnext, List.length_cons]
        omega

/-! ## The end of a feed -/

/-- A decoder between two pieces has no result and stays as it is. -/
theorem Settled.next_eq (h : f.Settled) : f.next = (none, f) := by
  cases hnext : f.next with
  | mk out g =>
    obtain ⟨hstep, hvalid⟩ := step_of_next h.valid hnext
    obtain ⟨rfl, hview⟩ := Prod.mk.inj (h.waits.symm.trans hstep)
    have hsettled : g.Settled := ⟨hvalid, hview ▸ h.waits, searched_next hnext⟩
    rw [hsettled.eq_of_view h hview.symm]

/-- Whether a decoder holds no more than may wait for the end of a header, or less than the body
that it awaits, which is not too long. -/
def Bounded (f : Framer) : Prop :=
  match f.awaited with
  | none => f.buffer.length ≤ Frame.maxHeader
  | some n => f.buffer.length < n ∧ n ≤ Frame.maxLength

theorem Settled.bounded (h : f.Settled) : f.Bounded := by
  have hlength := length_of_waits h.waits
  have hvalid := h.valid
  cases f with
  | seeking searched count fresh => exact hlength
  | collecting length arrived count => exact ⟨hlength, hvalid.2.2⟩

/-! ## Feeds that are followed or given up -/

/-- A piece of output, and how many of its results are asked for before the feed is given up; `none`
if it is followed to its end. -/
structure Feeding where
  piece : Bytes
  asked : Option Nat
  deriving DecidableEq, Repr

/-- The results of a feed that are asked for, and the decoder after them. -/
def follow (f : Framer) (feeding : Feeding) : List Result × Framer :=
  match feeding.asked with
  | none => f.feed feeding.piece
  | some n => take n (f.push feeding.piece)

/-- The decoder after feeds, one after another. -/
def followAll (f : Framer) (feedings : List Feeding) : Framer :=
  feedings.foldl (fun f feeding => (f.follow feeding).2) f

theorem valid_follow (h : f.Valid) (feeding : Feeding) : (f.follow feeding).2.Valid := by
  unfold follow
  cases feeding.asked with
  | none => exact (drains_feed h feeding.piece).2
  | some n => exact valid_take (valid_push h feeding.piece) n

theorem valid_followAll (h : f.Valid) (feedings : List Feeding) :
    (f.followAll feedings).Valid := by
  induction feedings generalizing f with
  | nil => exact h
  | cons feeding feedings ih => exact ih (valid_follow h feeding)

/-- What holds of the buffer of a decoder at all times. -/
structure WellKept (f : Framer) : Prop where
  scanned_le : f.scanned ≤ f.buffer.length
  /-- No terminator lies in the bytes that count as searched. -/
  searched : ¬ Frame.terminator <:+: f.buffer.take f.scanned
  /-- The search that goes on finds the first terminator of the buffer. -/
  found : ∀ i, f.search = some i ↔
    Frame.terminator <+: f.buffer.drop i ∧ ∀ j < i, ¬ Frame.terminator <+: f.buffer.drop j
  /-- It finds nothing where no terminator is. -/
  missed : f.search = none ↔ ¬ Frame.terminator <:+: f.buffer
  /-- The next result hangs on what it finds. -/
  proceeds : f.awaited = none → f.next = proceed f.buffer f.search
  /-- Every result uses up bytes from the front of the buffer. -/
  uses : ∀ r g, f.next = (some r, g) → ∃ used, used ≠ [] ∧ f.buffer = used ++ g.buffer

theorem Valid.wellKept (h : f.Valid) : f.WellKept where
  scanned_le := by
    cases f with
    | seeking searched count fresh => simp [scanned, buffer, h.1]
    | collecting length arrived count => exact Nat.zero_le _
  searched := by
    rw [← Frame.findTerminator_eq_none_iff]
    cases f with
    | seeking searched count fresh =>
      obtain ⟨rfl, hnone⟩ := h
      rwa [scanned, buffer, List.reverseAux_eq, List.take_left' List.length_reverse]
    | collecting length arrived count => rfl
  found i := by rw [search_eq h, Frame.findTerminator_eq_some_iff]
  missed := by rw [search_eq h, Frame.findTerminator_eq_none_iff]
  proceeds := next_eq_proceed h
  uses r g := exists_used_of_next h

/-- **Whatever feeds a decoder had, followed to their ends or given up, its buffer is well kept.**
The feed that comes next has no more results than there are bytes, however many are asked for; at
its end there is none left, and the buffer is short. -/
theorem wellKept_followAll (feedings : List Feeding) :
    (followAll empty feedings).WellKept ∧
    ∀ piece,
      (∀ n, (take n ((followAll empty feedings).push piece)).1.length +
          (take n ((followAll empty feedings).push piece)).2.buffer.length ≤
        (followAll empty feedings).buffer.length + piece.length) ∧
      ((followAll empty feedings).feed piece).2.next =
        (none, ((followAll empty feedings).feed piece).2) ∧
      ((followAll empty feedings).feed piece).2.Bounded := by
  have hvalid := valid_followAll valid_empty feedings
  refine ⟨hvalid.wellKept, fun piece => ⟨fun n => ?_, ?_, ?_⟩⟩
  · have hlength := length_take_add_le (valid_push hvalid piece) n
    have hpush : ((followAll empty feedings).push piece).buffer =
        (followAll empty feedings).buffer ++ piece := congrArg State.buffer (view_push _ piece)
    rwa [hpush, List.length_append] at hlength
  · exact (settled_feed hvalid piece).next_eq
  · exact (settled_feed hvalid piece).bounded

/-- A terminator that begins in bytes searched before is found, and the header that it closes, which
gives no length, is used up. -/
theorem wellKept_followAll_straddling :
    let f := followAll empty
      [⟨Utf8.ofString "a\r\n\r", none⟩, ⟨Utf8.ofString "\n7", some 0⟩]
    f.scanned = 4 ∧ f.search = some 1 ∧ Frame.terminator <+: f.buffer.drop 1 ∧
      f.next = (some (.error .missingLength), seeking [] 0 [55]) ∧
      ∃ used, used ≠ [] ∧ f.buffer = used ++ [55] := by
  intro f
  have hkept : f.WellKept := (wellKept_followAll _).1
  have hsearch : f.search = some 1 := by decide
  have hnext : f.next = (some (.error .missingLength), seeking [] 0 [55]) := rfl
  exact ⟨by decide, hsearch, ((hkept.found 1).1 hsearch).1, hnext, hkept.uses _ _ hnext⟩

end Framer

end LanguageClient
