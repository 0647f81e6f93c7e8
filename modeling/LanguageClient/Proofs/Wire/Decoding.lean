import LanguageClient.Proofs.Wire.Header

/-!
# Decoding as steps on a buffer

What a decoder does, said of the bytes it has not used and the body it awaits alone: `Decoder.step`
searches the whole buffer each time and keeps nothing else. `Framer.simulates_next` shows that the
decoder, whose search goes on where it left off (`Framer.search_eq`), takes the same steps, so that
`Drains` says what a feed gives. A step goes in one of five ways (`Decoder.goes_step`), and proofs
about any step are by these cases. The last section cuts streams into pieces: without noise a piece
more only adds steps (`Drains.append`).
-/

namespace LanguageClient

/-- A decoder by what it means: the bytes not yet used and the length of the awaited body. -/
structure Decoder.State where
  buffer : Bytes
  awaited : Option Nat
  deriving DecidableEq, Repr

namespace Framer

/-- What a decoder means. -/
def view (f : Framer) : Decoder.State := ⟨f.buffer, f.awaited⟩

/-- The bytes a decoder counts as searched hold no terminator, its counts are right, and it awaits
only bodies that are not too long. -/
def Valid : Framer → Prop
  | seeking searched count _ =>
    count = searched.length ∧ Frame.findTerminator searched.reverse = none
  | collecting length arrived count =>
    count = arrived.length ∧ 0 < length ∧ length ≤ Frame.maxLength

theorem valid_empty : empty.Valid := ⟨rfl, rfl⟩

end Framer

namespace Decoder

/-- A body as it is read. -/
def readBody (body : Bytes) : Framer.Result :=
  match Json.ofBytes? body with
  | some v => .ok v
  | none => .error .malformedBody

namespace State

/-- The state with more output behind what it holds. -/
def push (s : State) (bytes : Bytes) : State := ⟨s.buffer ++ bytes, s.awaited⟩

/-- The step of a state whose header is read. -/
def takeBody (buffer : Bytes) (n : Nat) : Option Framer.Result × State :=
  if buffer.length < n then (none, ⟨buffer, some n⟩)
  else (some (readBody (buffer.take n)), ⟨buffer.drop n, none⟩)

/-- The next result, if the buffer holds one, and the state after it. -/
def step (s : State) : Option Framer.Result × State :=
  match s.awaited with
  | some n => takeBody s.buffer n
  | none =>
    match Frame.findTerminator s.buffer with
    | none =>
      if s.buffer.length ≤ Frame.maxHeader then (none, s)
      else
        (some (.error (.noHeader (Framer.noiseLength s.buffer))),
          ⟨s.buffer.drop (Framer.noiseLength s.buffer), none⟩)
    | some i =>
      match Frame.contentLength (s.buffer.take i) with
      | .error e => (some (.error e), ⟨s.buffer.drop (i + 4), none⟩)
      | .ok n => takeBody (s.buffer.drop (i + 4)) n

end State
end Decoder

namespace Framer

open Decoder Decoder.State

theorem size_eq {f : Framer} (h : f.Valid) : f.size = f.buffer.length := by
  cases f with
  | seeking searched count fresh => simp [size, buffer, h.1]
  | collecting length arrived count => simp [size, buffer, h.1]

theorem view_push (f : Framer) (bytes : Bytes) : (f.push bytes).view = f.view.push bytes := by
  cases f <;> simp [view, push, State.push, buffer, awaited]

theorem valid_push {f : Framer} (h : f.Valid) (bytes : Bytes) : (f.push bytes).Valid := by
  cases f with
  | seeking searched count fresh => exact h
  | collecting length arrived count =>
    refine ⟨?_, h.2⟩
    simp [h.1, Nat.add_comm]

/-! ## The decoder takes these steps -/

/-- A step and what is left by it: the result is the same and the decoder stays valid. -/
def Simulates (out : Option Result × Framer) (next : Option Result × State) : Prop :=
  out.1 = next.1 ∧ out.2.view = next.2 ∧ out.2.Valid

theorem simulates_takeBody {buffer : Bytes} {n : Nat} (h : n ≤ Frame.maxLength) :
    Simulates (takeBody buffer n) (State.takeBody buffer n) := by
  have hcount : (buffer.take n).length < n ↔ buffer.length < n := by
    rw [List.length_take]
    omega
  unfold takeBody State.takeBody
  by_cases hlt : buffer.length < n
  · simp only [if_pos hlt, if_pos (hcount.2 hlt)]
    refine ⟨rfl, by simp [view, Framer.buffer, awaited], ?_, by omega, h⟩
    rw [List.length_take, List.length_reverse]
    omega
  · simp only [if_neg hlt, if_neg fun h => hlt (hcount.1 h)]
    exact ⟨rfl, by simp [view, Framer.buffer, awaited], rfl, rfl⟩

theorem contentLength_le {header : Bytes} {n : Nat} (h : Frame.contentLength header = .ok n) :
    n ≤ Frame.maxLength := by
  unfold Frame.contentLength at h
  split at h
  · cases h
  · cases h
  · split at h
    · cases h
    · cases h
      omega

/-- What is dropped of too much noise is something. -/
theorem noiseLength_pos {buffer : Bytes} (h : Frame.maxHeader < buffer.length) :
    0 < noiseLength buffer := by
  have hmax : Frame.maxHeader = 8192 := rfl
  unfold noiseLength
  split
  · split
    · next hi =>
      simp only [Bool.and_eq_true, decide_eq_true_eq] at hi
      exact hi.1
    · omega
  · omega

theorem reverse_take_sub (l : Bytes) (k : Nat) :
    (l.take (l.length - k)).reverse = l.reverse.drop k := by
  rw [List.reverse_take]
  rcases Nat.le_total k l.length with hk | hk
  · congr 1
    omega
  · rw [List.drop_eq_nil_of_le (by rw [List.length_reverse]; omega),
      List.drop_eq_nil_of_le (by rw [List.length_reverse]; omega)]

theorem simulates_dropNoise {searched : Bytes}
    (h : Frame.findTerminator searched.reverse = none) :
    Simulates (dropNoise searched searched.length) (State.step ⟨searched.reverse, none⟩) := by
  unfold dropNoise State.step
  simp only [h, List.length_reverse]
  split
  · exact ⟨rfl, by simp [view, buffer, awaited], rfl, h⟩
  · refine ⟨rfl, ?_, ?_, ?_⟩
    · simp [view, buffer, awaited, reverse_take_sub]
    · rw [List.length_take]
      omega
    · rw [reverse_take_sub]
      exact Frame.findTerminator_drop_of_none h _

/-- Where the terminator that comes next starts. The search goes on where it left off, but for the
last three bytes that were searched: they may begin a terminator. -/
def search (f : Framer) : Option Nat :=
  (Frame.findTerminator (f.buffer.drop (f.scanned - 3))).map (· + (f.scanned - 3))

/-- The step of a decoder without an awaited body, by where the terminator of its buffer starts. -/
def proceed (buffer : Bytes) : Option Nat → Option Result × Framer
  | none => dropNoise buffer.reverse buffer.length
  | some i =>
    match Frame.contentLength (buffer.take i) with
    | .error e => (some (.error e), seeking [] 0 (buffer.drop (i + 4)))
    | .ok n => takeBody (buffer.drop (i + 4)) n

theorem search_seeking (searched fresh : Bytes) :
    (seeking searched searched.length fresh).search =
      (Frame.findTerminator ((searched.take 3).reverse ++ fresh)).map
        (· + (searched.length - 3)) := by
  have hsub : searched.length - 3 ≤ searched.reverse.length := by
    rw [List.length_reverse]
    omega
  simp only [search, buffer, scanned, List.reverseAux_eq, List.drop_append_of_le_length hsub,
    List.reverse_take]

/-- **The search that goes on finds what a search of the whole buffer does.** -/
theorem search_eq {f : Framer} (h : f.Valid) : f.search = Frame.findTerminator f.buffer := by
  cases f with
  | collecting length arrived count => simp [search, scanned]
  | seeking searched count fresh =>
    obtain ⟨rfl, hnone⟩ := h
    have hfind := Frame.findTerminator_append_of_none hnone fresh
    rw [List.length_reverse, ← List.reverse_take] at hfind
    rw [search_seeking, buffer, List.reverseAux_eq, hfind]

/-- What a decoder without an awaited body does hangs on that search alone. -/
theorem next_eq_proceed {f : Framer} (h : f.Valid) (hf : f.awaited = none) :
    f.next = proceed f.buffer f.search := by
  cases f with
  | collecting length arrived count => cases hf
  | seeking searched count fresh =>
    obtain ⟨rfl, -⟩ := h
    have hlen : (searched.take 3).reverse.length = min 3 searched.length := by simp
    rw [search_seeking, next]
    cases hi : Frame.findTerminator ((searched.take 3).reverse ++ fresh) with
    | none => simp [proceed, buffer]
    | some i =>
      have hat : searched.length - (searched.take 3).reverse.length + i =
          i + (searched.length - 3) := by omega
      have hrest : (searched.reverse ++ fresh).drop (i + (searched.length - 3) + 4) =
          fresh.drop (i + 4 - (searched.take 3).reverse.length) := by
        have hpast : searched.reverse.length ≤ i + (searched.length - 3) + 4 := by
          rw [List.length_reverse]
          omega
        rw [List.drop_append, List.drop_eq_nil_of_le hpast, List.nil_append, List.length_reverse]
        congr 1
        omega
      simp only [Option.map_some, proceed, buffer, List.reverseAux_eq]
      cases hlength : Frame.contentLength
          ((searched.reverse ++ fresh).take (i + (searched.length - 3))) with
      | error e => simp only [hat, hrest, hlength]
      | ok n => simp only [hat, hrest, hlength]

/-- **A valid decoder takes the step of what it means.** -/
theorem simulates_next {f : Framer} (h : f.Valid) : Simulates f.next f.view.step := by
  cases hf : f.awaited with
  | some n =>
    cases f with
    | seeking searched count fresh => cases hf
    | collecting n arrived count =>
      obtain ⟨rfl, hpos, hmax⟩ := h
      have hstep : (collecting n arrived arrived.length).view.step =
          State.takeBody arrived.reverse n := rfl
      rw [hstep, next]
      split
      · next hlt =>
        rw [State.takeBody, List.length_reverse, if_pos hlt]
        exact ⟨rfl, rfl, rfl, hpos, hmax⟩
      · exact simulates_takeBody hmax
  | none =>
    have hview : f.view = ⟨f.buffer, none⟩ := by rw [view, hf]
    rw [next_eq_proceed h hf, search_eq h, hview]
    cases hi : Frame.findTerminator f.buffer with
    | none =>
      have hdrop := @simulates_dropNoise f.buffer.reverse (by simpa using hi)
      simpa only [proceed, List.reverse_reverse, List.length_reverse] using hdrop
    | some i =>
      simp only [proceed, State.step, hi]
      cases hlength : Frame.contentLength (f.buffer.take i) with
      | error e => exact ⟨rfl, by simp [view, buffer, awaited], rfl, rfl⟩
      | ok n => exact simulates_takeBody (contentLength_le hlength)

end Framer

namespace Decoder

open State

variable {s t : State} {rest : Bytes} {n : Nat} {r : Framer.Result}

/-! ## The ways in which a step goes -/

/-- `Awaits s rest n`: in `s` a body of `n` bytes comes next, and `rest` is what is there of it and
of what follows it. -/
inductive Awaits : State → Bytes → Nat → Prop where
  | collecting (rest : Bytes) (n : Nat) : Awaits ⟨rest, some n⟩ rest n
  | header {buffer : Bytes} {i n : Nat} (hfind : Frame.findTerminator buffer = some i)
      (hlength : Frame.contentLength (buffer.take i) = .ok n) :
      Awaits ⟨buffer, none⟩ (buffer.drop (i + 4)) n

/-- `Goes s out t`: the step of `s` gives `out` and leaves `t`. -/
inductive Goes : State → Option Framer.Result → State → Prop where
  /-- No header is closed, and more may come. -/
  | quiet {buffer : Bytes} (hnone : Frame.findTerminator buffer = none)
      (hshort : buffer.length ≤ Frame.maxHeader) : Goes ⟨buffer, none⟩ none ⟨buffer, none⟩
  /-- No header is closed, and too much has come. -/
  | noise {buffer : Bytes} (hnone : Frame.findTerminator buffer = none)
      (hlong : Frame.maxHeader < buffer.length) :
      Goes ⟨buffer, none⟩ (some (.error (.noHeader (Framer.noiseLength buffer))))
        ⟨buffer.drop (Framer.noiseLength buffer), none⟩
  | rejected {buffer : Bytes} {i : Nat} {e : FrameError}
      (hfind : Frame.findTerminator buffer = some i)
      (herr : Frame.contentLength (buffer.take i) = .error e) :
      Goes ⟨buffer, none⟩ (some (.error e)) ⟨buffer.drop (i + 4), none⟩
  /-- A part of the body is there. -/
  | part {s : State} {rest : Bytes} {n : Nat} (hawaits : Awaits s rest n)
      (hlt : rest.length < n) : Goes s none ⟨rest, some n⟩
  /-- The whole body is there. -/
  | whole {s : State} {rest : Bytes} {n : Nat} (hawaits : Awaits s rest n)
      (hle : n ≤ rest.length) : Goes s (some (readBody (rest.take n))) ⟨rest.drop n, none⟩

theorem Awaits.step_eq (h : Awaits s rest n) : s.step = takeBody rest n := by
  cases h with
  | collecting => rfl
  | header hfind hlength => simp only [step, hfind, hlength]

/-- **A step goes in one of these ways.** -/
theorem goes_step (s : State) : Goes s s.step.1 s.step.2 := by
  have hbody : ∀ {rest : Bytes} {n : Nat}, Awaits s rest n → Goes s s.step.1 s.step.2 := by
    intro rest n h
    rw [h.step_eq, takeBody]
    split
    · next hlt => exact .part h hlt
    · next hle => exact .whole h (Nat.le_of_not_lt hle)
  obtain ⟨buffer, awaited⟩ := s
  cases awaited with
  | some n => exact hbody (.collecting buffer n)
  | none =>
    cases hfind : Frame.findTerminator buffer with
    | none =>
      simp only [step, hfind]
      split
      · next hshort => exact .quiet hfind hshort
      · next hlong => exact .noise hfind (Nat.lt_of_not_le hlong)
    | some i =>
      cases hlength : Frame.contentLength (buffer.take i) with
      | error e =>
        simp only [step, hfind, hlength]
        exact .rejected hfind hlength
      | ok n => exact hbody (.header hfind hlength)

theorem goes_of_step {out : Option Framer.Result} (h : s.step = (out, t)) : Goes s out t := by
  have hgoes := goes_step s
  rwa [h] at hgoes

/-- What is there of a body and behind it is taken from the front of the buffer. -/
theorem Awaits.suffix (h : Awaits s rest n) : rest <:+ s.buffer := by
  cases h with
  | collecting => exact List.suffix_rfl
  | header => exact List.drop_suffix _ _

/-- What comes stands behind what is there of the body. -/
theorem Awaits.push (h : Awaits s rest n) (more : Bytes) :
    Awaits (s.push more) (rest ++ more) n := by
  cases h with
  | collecting => exact .collecting _ _
  | @header buffer i n hfind hlength =>
    have hle := Frame.findTerminator_le hfind
    have htake : (buffer ++ more).take i = buffer.take i :=
      List.take_append_of_le_length (by omega)
    rw [← List.drop_append_of_le_length hle]
    exact .header (Frame.findTerminator_append hfind more) (by rw [htake, hlength])

/-- A step takes what it uses up from the front of the buffer. -/
theorem step_suffix {out : Option Framer.Result} (h : s.step = (out, t)) :
    t.buffer <:+ s.buffer := by
  cases goes_of_step h with
  | quiet => exact List.suffix_rfl
  | noise => exact List.drop_suffix _ _
  | rejected => exact List.drop_suffix _ _
  | part hawaits => exact hawaits.suffix
  | whole hawaits => exact (List.drop_suffix _ _).trans hawaits.suffix

/-- `Drains s rs s'`: from `s` the results are `rs`, one after another, and `s'` holds no more. -/
inductive Drains : State → List Framer.Result → State → Prop where
  | rest {s s' : State} : s.step = (none, s') → Drains s [] s'
  | more {s t s' : State} {r : Framer.Result} {rs : List Framer.Result} :
      s.step = (some r, t) → Drains t rs s' → Drains s (r :: rs) s'

/-- A state drains in one way only. -/
theorem Drains.unique {s t t' : State} {rs rs' : List Framer.Result} (h : Drains s rs t)
    (h' : Drains s rs' t') : rs = rs' ∧ t = t' := by
  induction h generalizing rs' with
  | rest hs =>
    cases h' with
    | rest hs' =>
      rw [hs] at hs'
      cases hs'
      exact ⟨rfl, rfl⟩
    | more hs' _ =>
      rw [hs] at hs'
      cases hs'
  | more hs _ ih =>
    cases h' with
    | rest hs' =>
      rw [hs] at hs'
      cases hs'
    | more hs' hrest =>
      rw [hs] at hs'
      cases hs'
      obtain ⟨rfl, rfl⟩ := ih hrest
      exact ⟨rfl, rfl⟩

/-- What comes first of a state that drains is the result of its first step. -/
theorem Drains.eq_cons {s t u : State} {r : Framer.Result} {rs : List Framer.Result}
    (h : Drains s rs t) (hstep : s.step = (some r, u)) : ∃ rest, rs = r :: rest := by
  cases h with
  | rest hrest =>
    rw [hstep] at hrest
    cases hrest
  | more hmore _ =>
    rw [hstep] at hmore
    cases hmore
    exact ⟨_, rfl⟩

/-- Behind a header block the body that it announces comes next. -/
theorem awaits_frame {block more : Bytes} {n : Nat}
    (hfind : Frame.findTerminator (block ++ (Frame.terminator ++ more)) = some block.length)
    (hlength : Frame.contentLength block = .ok n) :
    Awaits ⟨block ++ (Frame.terminator ++ more), none⟩ more n := by
  have hawaits := Awaits.header hfind (by rw [List.take_left, hlength])
  rwa [Frame.drop_terminator] at hawaits

/-- A header block and the body that it announces are the next result. -/
theorem step_frame {block body more : Bytes}
    (hfind : Frame.findTerminator (block ++ (Frame.terminator ++ (body ++ more))) =
      some block.length) (hlength : Frame.contentLength block = .ok body.length) :
    State.step ⟨block ++ (Frame.terminator ++ (body ++ more)), none⟩ =
      (some (readBody body), ⟨more, none⟩) := by
  rw [(awaits_frame hfind hlength).step_eq, takeBody, if_neg (by rw [List.length_append]; omega),
    List.take_left, List.drop_left]

/-- A header block that is rejected gives its error, and what stands behind it is left over. -/
theorem step_frame_rejected {block more : Bytes} {e : FrameError}
    (hfind : Frame.findTerminator (block ++ (Frame.terminator ++ more)) = some block.length)
    (herr : Frame.contentLength block = .error e) :
    State.step ⟨block ++ (Frame.terminator ++ more), none⟩ = (some (.error e), ⟨more, none⟩) := by
  simp only [step, hfind, List.take_left, herr, Frame.drop_terminator]

/-- A body in its frame is the next result, whether it is JSON or not. -/
theorem step_wrap {body : Bytes} (h : body.length ≤ Frame.maxLength) (more : Bytes) :
    State.step ⟨Frame.wrap body ++ more, none⟩ = (some (readBody body), ⟨more, none⟩) := by
  have hmem := Frame.not_mem_encode (Frame.not_mem_headerText body.length)
  rw [Frame.wrap_eq, List.append_assoc, List.append_assoc]
  exact step_frame (Frame.findTerminator_block hmem _) (Frame.contentLength_headerText h)

/-- The header of a body that is too long is rejected, and the body is left over. -/
theorem step_wrap_of_long {body : Bytes} (h : Frame.maxLength < body.length)
    (hbound : body.length < bound64) (more : Bytes) :
    State.step ⟨Frame.wrap body ++ more, none⟩ =
      (some (.error (.tooLarge body.length)), ⟨body ++ more, none⟩) := by
  have hmem := Frame.not_mem_encode (Frame.not_mem_headerText body.length)
  rw [Frame.wrap_eq, List.append_assoc, List.append_assoc]
  refine step_frame_rejected (Frame.findTerminator_block hmem _) ?_
  rw [Frame.contentLength_headerText_of_lt hbound, if_pos h]

/-- A result uses up at least one byte, unless an empty body is awaited. -/
theorem step_shorter (h : s.step = (some r, t)) (hs : s.awaited ≠ some 0) :
    t.buffer.length < s.buffer.length := by
  cases goes_of_step h with
  | @noise buffer hnone hlong =>
    have hpos := Framer.noiseLength_pos hlong
    simp only [List.length_drop]
    omega
  | @rejected buffer i e hfind herr =>
    have hle := Frame.findTerminator_le hfind
    simp only [List.length_drop]
    omega
  | @whole _ rest n hawaits hle =>
    cases hawaits with
    | collecting =>
      have hn : n ≠ 0 := fun hn => hs (congrArg some hn)
      simp only [List.length_drop]
      omega
    | header hfind hlength =>
      have hheader := Frame.findTerminator_le hfind
      simp only [List.length_drop] at hle ⊢
      omega

end Decoder

namespace Framer

open Decoder

theorem awaited_ne_zero {f : Framer} (h : f.Valid) : f.view.awaited ≠ some 0 := by
  cases f with
  | seeking searched count fresh => simp [view, awaited]
  | collecting n arrived count =>
    have := h.2.1
    simp only [view, awaited, ne_eq, Option.some.injEq]
    omega

variable {f g : Framer} {r : Result}

/-- What a decoder gives next is what the step of its meaning gives. -/
theorem step_of_next {out : Option Result} (h : f.Valid) (hnext : f.next = (out, g)) :
    f.view.step = (out, g.view) ∧ g.Valid := by
  obtain ⟨hresult, hview, hvalid⟩ := simulates_next h
  rw [hnext] at hresult hview hvalid
  exact ⟨Prod.ext hresult.symm hview.symm, hvalid⟩

theorem next_shorter (h : f.Valid) (hnext : f.next = (some r, g)) :
    g.buffer.length < f.buffer.length :=
  step_shorter (step_of_next h hnext).1 (awaited_ne_zero h)

/-! ## One result after another -/

theorem take_of_none (hnext : f.next = (none, g)) (limit : Nat) :
    take (limit + 1) f = ([], g) := by
  rw [take, hnext]

theorem take_of_some (hnext : f.next = (some r, g)) (limit : Nat) :
    take (limit + 1) f = (r :: (take limit g).1, (take limit g).2) := by
  rw [take, hnext]

theorem valid_take (h : f.Valid) (limit : Nat) : (take limit f).2.Valid := by
  induction limit generalizing f with
  | zero => exact h
  | succ limit ih =>
    cases hnext : f.next with
    | mk out g =>
      have hvalid := (step_of_next h hnext).2
      cases out with
      | none => rwa [take_of_none hnext]
      | some r =>
        rw [take_of_some hnext]
        exact ih hvalid

theorem drains_take {limit : Nat} (h : f.Valid) (hlimit : f.size < limit) :
    Drains f.view (take limit f).1 (take limit f).2.view := by
  induction limit generalizing f with
  | zero => omega
  | succ limit ih =>
    cases hnext : f.next with
    | mk out g =>
      obtain ⟨hstep, hvalid⟩ := step_of_next h hnext
      cases out with
      | none =>
        rw [take_of_none hnext]
        exact .rest hstep
      | some r =>
        have hshort := next_shorter h hnext
        rw [size_eq h] at hlimit
        have hsize : g.size < limit := by
          rw [size_eq hvalid]
          omega
        rw [take_of_some hnext]
        exact .more hstep (ih hvalid hsize)

/-- **A feed drains what the decoder means with the new bytes behind it.** -/
theorem drains_feed (h : f.Valid) (bytes : Bytes) :
    Drains (f.view.push bytes) (f.feed bytes).1 (f.feed bytes).2.view ∧
      (f.feed bytes).2.Valid := by
  rw [← view_push]
  exact ⟨drains_take (valid_push h bytes) (Nat.lt_succ_self _), valid_take (valid_push h bytes) _⟩

end Framer

namespace Decoder

open State

variable {s t : State} {r : Framer.Result}

/-! ## Streams in pieces -/

/-- A result that is no dropped noise. -/
def Sound (r : Framer.Result) : Prop := ∀ k, r ≠ .error (.noHeader k)

theorem sound_ok (v : Json) : Sound (.ok v) := by
  intro k h
  cases h

/-- What waits for more goes on as if nothing had been tried. -/
theorem step_push_of_none (h : s.step = (none, t)) (more : Bytes) :
    (s.push more).step = (t.push more).step := by
  cases goes_of_step h with
  | quiet => rfl
  | part hawaits => exact (hawaits.push more).step_eq

/-- A sound result comes the same whatever follows. -/
theorem step_push_of_some (h : s.step = (some r, t)) (hr : Sound r) (more : Bytes) :
    (s.push more).step = (some r, t.push more) := by
  cases goes_of_step h with
  | noise => exact absurd rfl (hr _)
  | @rejected buffer i e hfind herr =>
    have hle := Frame.findTerminator_le hfind
    simp only [step, push, Frame.findTerminator_append hfind more,
      List.take_append_of_le_length (show i ≤ buffer.length by omega), herr,
      List.drop_append_of_le_length hle]
  | @whole _ rest n hawaits hle =>
    rw [(hawaits.push more).step_eq, takeBody, if_neg (by rw [List.length_append]; omega),
      List.take_append_of_le_length hle, List.drop_append_of_le_length hle]
    rfl

/-- **Without noise a piece more only adds steps**: draining before it comes changes nothing. -/
theorem Drains.append {s t u : State} {rs rs' : List Framer.Result} {more : Bytes}
    (h : Drains s rs t) (hsound : ∀ r ∈ rs, Sound r) (hmore : Drains (t.push more) rs' u) :
    Drains (s.push more) (rs ++ rs') u := by
  induction h with
  | rest hs =>
    -- what was found last waited for more, and the piece is what it waited for
    have hstep := step_push_of_none hs more
    cases hmore with
    | rest hu => exact .rest (hstep.trans hu)
    | more hu hrest => exact .more (hstep.trans hu) hrest
  | more hs _ ih =>
    exact .more (step_push_of_some hs (hsound _ (by simp)) more)
      (ih (fun r hr => hsound r (by simp [hr])) hmore)

end Decoder

end LanguageClient
