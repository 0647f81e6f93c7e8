import LanguageClient.Proofs.Wire.RoundTrip

/-!
# Streams in pieces

What a decoder makes of a stream does not hang on the pieces it comes in, also where the stream is
malformed, as long as no header block is so long that a part of it can pass for noise. A stream is
`Brief` when decoding it whole meets no such block. Then no piece of it gives noise
(`Brief.drains`), so that draining before the next piece comes changes nothing, and a feed of all
pieces is a feed of the whole (`Framer.feedAll_eq_feed`). Between two pieces a decoder is `Settled`,
and then it is known by its bytes and what it awaits, so that it comes out the same as well
(`Framer.Settled.feed_flatten`).
-/

namespace LanguageClient

namespace Frame

/-- How many bytes a header block takes up: those before its terminator, or all of them if none
ends it. -/
def blockLength (bytes : Bytes) : Nat := (findTerminator bytes).getD bytes.length

/-- The beginning of a header block, with what of its terminator is there, is hardly longer than
the block. -/
theorem length_le_blockLength_append {bytes : Bytes} (h : findTerminator bytes = none)
    (more : Bytes) : bytes.length ≤ blockLength (bytes ++ more) + 3 := by
  rw [blockLength, findTerminator_append_of_none h]
  cases findTerminator (bytes.drop (bytes.length - 3) ++ more) with
  | none =>
    rw [Option.map_none, Option.getD_none, List.length_append]
    omega
  | some i =>
    rw [Option.map_some, Option.getD_some]
    omega

end Frame

namespace Decoder

open State

/-- `Passes s t`: decoding what `s` holds comes through `t`, one result after another. -/
inductive Passes : State → State → Prop where
  | here {s : State} : Passes s s
  | next {s t u : State} {r : Framer.Result} : s.step = (some r, t) → Passes t u → Passes s u

/-- Whether every header block that decoding meets, and what is left at the end without a
terminator, is at most three bytes shorter than what may wait for the end of a header. -/
def Brief (s : State) : Prop :=
  ∀ t, Passes s t → t.awaited = none → Frame.blockLength t.buffer ≤ Frame.maxHeader - 3

/-! ## Short streams -/

theorem Passes.length_le {s t : State} (h : Passes s t) : t.buffer.length ≤ s.buffer.length := by
  induction h with
  | here => exact Nat.le_refl _
  | next hstep _ ih => exact Nat.le_trans ih (step_suffix hstep).length_le

theorem blockLength_le (bytes : Bytes) : Frame.blockLength bytes ≤ bytes.length := by
  rw [Frame.blockLength]
  cases hi : Frame.findTerminator bytes with
  | none => exact Nat.le_refl _
  | some i =>
    have hle := Frame.findTerminator_le hi
    rw [Option.getD_some]
    omega

/-- A stream that could itself be a header block is brief, whatever stands in it. -/
theorem brief_of_length_le {s : State} (h : s.buffer.length ≤ Frame.maxHeader - 3) : Brief s :=
  fun t ht _ => Nat.le_trans (blockLength_le t.buffer) (Nat.le_trans ht.length_le h)

/-! ## No piece gives noise -/

theorem sound_readBody (body : Bytes) : Sound (readBody body) := by
  intro k h
  unfold readBody at h
  split at h
  · cases h
  · cases h

theorem sound_contentLength {header : Bytes} {e : FrameError}
    (h : Frame.contentLength header = .error e) : Sound (.error e) := by
  intro k hk
  cases hk
  unfold Frame.contentLength at h
  split at h
  · next hlines =>
    cases h
    obtain ⟨value, hvalue⟩ := Frame.lengthOf_eq_error hlines
    cases hvalue
  · cases h
  · split at h
    · cases h
    · cases h

variable {s t : State} {more : Bytes}

/-- What comes first of a brief stream is no noise. -/
theorem Brief.sound {r : Framer.Result} (h : Brief (s.push more)) (hstep : s.step = (some r, t)) :
    Sound r := by
  cases goes_of_step hstep with
  | @noise buffer hnone hlong =>
    -- the whole block is brief, so what is there of it is not too much
    have hblock := h _ .here rfl
    have hlen := Frame.length_le_blockLength_append hnone more
    have hmax : Frame.maxHeader = 8192 := rfl
    simp only [push] at hblock
    omega
  | rejected hfind herr => exact sound_contentLength herr
  | whole => exact sound_readBody _

theorem Brief.next {r : Framer.Result} (h : Brief s) (hstep : s.step = (some r, t)) : Brief t :=
  fun u hu => h u (.next hstep hu)

/-- What waits for more is as brief as it was, with what comes. -/
theorem Brief.waiting (h : Brief (s.push more)) (hstep : s.step = (none, t)) :
    Brief (t.push more) := by
  have hsame := step_push_of_none hstep more
  intro u hu hawaited
  cases hu with
  | next hnext hrest => exact h u (.next (hsame.trans hnext) hrest) hawaited
  | here =>
    cases goes_of_step hstep with
    | quiet => exact h _ .here hawaited
    | part => cases hawaited

/-- **The beginning of a brief stream gives no noise**, and leaves a brief stream. -/
theorem Brief.drains {rs : List Framer.Result} (hdrains : Drains s rs t)
    (h : Brief (s.push more)) : (∀ r ∈ rs, Sound r) ∧ Brief (t.push more) := by
  induction hdrains with
  | rest hstep => exact ⟨by simp, h.waiting hstep⟩
  | more hstep _ ih =>
    have hsound := h.sound hstep
    obtain ⟨hrest, hbrief⟩ := ih (h.next (step_push_of_some hstep hsound more))
    refine ⟨fun r hr => ?_, hbrief⟩
    rcases List.mem_cons.1 hr with rfl | hr
    · exact hsound
    · exact hrest r hr

theorem push_nil (s : State) : s.push [] = s := by
  rw [push, List.append_nil]

theorem push_push (s : State) (bytes more : Bytes) :
    (s.push bytes).push more = s.push (bytes ++ more) := by
  simp only [push, List.append_assoc]

/-- What was drained waits for more. -/
theorem Drains.waits {rs : List Framer.Result} (h : Drains s rs t) : t.step = (none, t) := by
  induction h with
  | rest hstep =>
    have hsame := step_push_of_none hstep []
    rw [push_nil, push_nil] at hsame
    rw [← hsame, hstep]
  | more _ _ ih => exact ih

end Decoder

namespace Framer

open Decoder

/-- The run lemma of a stream in pieces, from any decoder that waits for more. -/
theorem drains_feedAll {f : Framer} (hf : f.Valid) (hwaits : f.view.step = (none, f.view))
    {pieces : List Bytes} (h : Brief (f.view.push pieces.flatten)) :
    Drains (f.view.push pieces.flatten) (feedAll f pieces).1.flatten
      (feedAll f pieces).2.view := by
  induction pieces generalizing f with
  | nil =>
    rw [List.flatten_nil, push_nil]
    exact .rest hwaits
  | cons piece pieces ih =>
    obtain ⟨hdrains, hvalid⟩ := drains_feed hf piece
    rw [List.flatten_cons, ← push_push] at h ⊢
    obtain ⟨hsound, hbrief⟩ := h.drains hdrains
    exact hdrains.append hsound (ih hvalid hdrains.waits hbrief)

/-- Pieces come to what the whole of them drains to. -/
theorem feedAll_of_drains {f : Framer} (hf : f.Valid) (hwaits : f.view.step = (none, f.view))
    {pieces : List Bytes} {s t : State} (hpush : f.view.push pieces.flatten = s) (hbrief : Brief s)
    {rs : List Result} (hdrains : Drains s rs t) :
    (feedAll f pieces).1.flatten = rs ∧ (feedAll f pieces).2.view = t := by
  subst hpush
  exact (drains_feedAll hf hwaits hbrief).unique hdrains

/-- **What is made of a stream does not hang on its pieces**: as long as its header blocks are
brief, the results are the same in the same order, and so are the bytes that are left and the body
that is awaited. -/
theorem feedAll_eq_feed {stream : Bytes} (h : Brief ⟨stream, none⟩) {pieces : List Bytes}
    (hp : pieces.flatten = stream) :
    (feedAll empty pieces).1.flatten = (empty.feed stream).1 ∧
      (feedAll empty pieces).2.buffer = (empty.feed stream).2.buffer ∧
      (feedAll empty pieces).2.awaited = (empty.feed stream).2.awaited := by
  subst hp
  have hpieces : Drains ⟨pieces.flatten, none⟩ _ _ := drains_feedAll valid_empty rfl h
  have hwhole : Drains ⟨pieces.flatten, none⟩ _ _ := (drains_feed valid_empty pieces.flatten).1
  obtain ⟨hresults, hview⟩ := hpieces.unique hwhole
  exact ⟨hresults, congrArg State.buffer hview, congrArg State.awaited hview⟩

/-- A bad length, a frame whose body is no JSON, a sound frame and the beginning of another. -/
def malformedStream : Bytes :=
  Utf8.ofString "Content-Length: x\r\n\r\nContent-Length: 1\r\n\r\n]Content-Length: 1\r\n\r\n7Conte"

theorem feedAll_eq_feed_malformed :
    Brief ⟨malformedStream, none⟩ ∧
      [malformedStream.take 20, [], malformedStream.drop 20].flatten = malformedStream ∧
      (feedAll empty [malformedStream.take 20, [], malformedStream.drop 20]).1.flatten =
        (empty.feed malformedStream).1 := by
  have hbrief : Brief ⟨malformedStream, none⟩ := brief_of_length_le (by decide)
  have hp : [malformedStream.take 20, [], malformedStream.drop 20].flatten = malformedStream := by
    simp
  exact ⟨hbrief, hp, (feedAll_eq_feed hbrief hp).1⟩

/-! ## Decoders between two pieces -/

/-- Whether a decoder has looked at all the bytes that it holds. -/
def Searched : Framer → Prop
  | seeking _ _ fresh => fresh = []
  | collecting _ _ _ => True

/-- What holds of a decoder between two pieces of output: it waits for more. -/
structure Settled (f : Framer) : Prop where
  valid : f.Valid
  waits : f.view.step = (none, f.view)
  searched : f.Searched

theorem settled_empty : empty.Settled := ⟨valid_empty, rfl, rfl⟩

theorem searched_takeBody {buffer : Bytes} {n : Nat} {f : Framer}
    (h : takeBody buffer n = (none, f)) : f.Searched := by
  unfold takeBody at h
  dsimp only at h
  split at h
  · cases h
    trivial
  · cases h

theorem searched_next {f g : Framer} (h : f.next = (none, g)) : g.Searched := by
  cases f with
  | collecting n arrived count =>
    rw [next] at h
    split at h
    · cases h
      trivial
    · exact searched_takeBody h
  | seeking searched count fresh =>
    rw [next] at h
    dsimp only at h
    split at h
    · unfold dropNoise at h
      split at h
      · cases h
        rfl
      · cases h
    · split at h
      · cases h
      · exact searched_takeBody h

theorem searched_take {limit : Nat} {f : Framer} (h : f.Valid) (hlimit : f.size < limit) :
    (take limit f).2.Searched := by
  induction limit generalizing f with
  | zero => omega
  | succ limit ih =>
    cases hnext : f.next with
    | mk out g =>
      have hvalid := (step_of_next h hnext).2
      cases out with
      | none =>
        rw [take_of_none hnext]
        exact searched_next hnext
      | some r =>
        have hshort := next_shorter h hnext
        rw [size_eq h] at hlimit
        have hsize : g.size < limit := by
          rw [size_eq hvalid]
          omega
        rw [take_of_some hnext]
        exact ih hvalid hsize

/-- A feed leaves nothing that could be decoded at once. -/
theorem settled_feed {f : Framer} (h : f.Valid) (bytes : Bytes) : (f.feed bytes).2.Settled := by
  obtain ⟨hdrains, hvalid⟩ := drains_feed h bytes
  exact ⟨hvalid, hdrains.waits, searched_take (valid_push h bytes) (Nat.lt_succ_self _)⟩

/-- A decoder between two pieces is known by its bytes and the body that it awaits. -/
theorem Settled.eq_of_view {f g : Framer} (hf : f.Settled) (hg : g.Settled)
    (h : f.view = g.view) : f = g := by
  obtain ⟨hbuffer, hawaited⟩ : f.buffer = g.buffer ∧ f.awaited = g.awaited :=
    ⟨congrArg State.buffer h, congrArg State.awaited h⟩
  have hfv := hf.valid
  have hgv := hg.valid
  have hfs := hf.searched
  have hgs := hg.searched
  cases f with
  | seeking searched count fresh =>
    cases g with
    | seeking searched' count' fresh' =>
      obtain rfl : fresh = [] := hfs
      obtain rfl : fresh' = [] := hgs
      obtain ⟨rfl, -⟩ := hfv
      obtain ⟨rfl, -⟩ := hgv
      obtain rfl : searched = searched' := by simpa [buffer] using hbuffer
      rfl
    | collecting length arrived count' => cases hawaited
  | collecting length arrived count =>
    cases g with
    | seeking searched count' fresh => cases hawaited
    | collecting length' arrived' count' =>
      obtain ⟨rfl, -⟩ := hfv
      obtain ⟨rfl, -⟩ := hgv
      obtain rfl : arrived = arrived' := by simpa [buffer] using hbuffer
      obtain rfl : length = length' := Option.some.inj hawaited
      rfl

/-- Nothing more is made of no more bytes. -/
theorem Settled.feed_nil {f : Framer} (h : f.Settled) : f.feed [] = ([], f) := by
  have hfed := (drains_feed h.valid []).1
  rw [push_nil] at hfed
  obtain ⟨hresults, hview⟩ := hfed.unique (.rest h.waits)
  exact Prod.ext hresults ((settled_feed h.valid []).eq_of_view h hview)

theorem Settled.feedAll {f : Framer} (h : f.Settled) (pieces : List Bytes) :
    (feedAll f pieces).2.Settled := by
  induction pieces generalizing f with
  | nil => exact h
  | cons piece pieces ih => exact ih (settled_feed h.valid piece)

/-- **Between two pieces a feed of the whole is the feed of its pieces**, decoder and all, as long
as its header blocks are brief. -/
theorem Settled.feed_flatten {f : Framer} (h : f.Settled) {pieces : List Bytes}
    (hbrief : Brief (f.view.push pieces.flatten)) :
    f.feed pieces.flatten = ((Framer.feedAll f pieces).1.flatten, (Framer.feedAll f pieces).2) := by
  have hpieces := drains_feedAll h.valid h.waits hbrief
  have hwhole := (drains_feed h.valid pieces.flatten).1
  obtain ⟨hresults, hview⟩ := hwhole.unique hpieces
  exact Prod.ext hresults ((settled_feed h.valid _).eq_of_view (h.feedAll pieces) hview)

end Framer

end LanguageClient
