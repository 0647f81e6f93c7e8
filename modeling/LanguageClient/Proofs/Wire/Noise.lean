import LanguageClient.Proofs.Wire.Pieces
import LanguageClient.Proofs.Wire.Stray
import Mathlib.Data.List.Induction

/-!
# Noise before a frame

What becomes of a frame that stray output stands before, whatever pieces the two come in. Until the
header's terminator is there in full nothing is made of them but that some bytes are dropped as
noise (`Framer.Waiting`), and the piece that completes it decides: the header block that is left is
read, and then the body (`Framer.feedAll_block`), or it is rejected. So the frame is lost exactly
where a piece cut its header, or cut a line of the stray output so that the rest of the line passes
for a length field without a number (`Framer.delivers_iff_not_cut`).
-/

namespace LanguageClient

namespace Decoder

open State

/-- What awaits a body and holds it has no header block to meet. -/
theorem brief_awaited (body : Bytes) : Brief ⟨body, some body.length⟩ := by
  intro t ht hawaited
  cases ht with
  | here => cases hawaited
  | next hnext hrest =>
    have hbody : State.step ⟨body, some body.length⟩ = (some (readBody body), ⟨[], none⟩) := by
      simp [step, takeBody]
    rw [hbody] at hnext
    cases hnext
    have hempty : Brief ⟨[], none⟩ := brief_of_length_le (Nat.zero_le _)
    exact hempty t hrest hawaited

end Decoder

namespace Framer

open Decoder

variable {stray header body : Bytes}

theorem feedAll_append (f : Framer) (pieces more : List Bytes) :
    feedAll f (pieces ++ more) =
      ((feedAll f pieces).1 ++ (feedAll (feedAll f pieces).2 more).1,
        (feedAll (feedAll f pieces).2 more).2) := by
  induction pieces generalizing f with
  | nil => rfl
  | cons piece pieces ih => simp only [List.cons_append, feedAll, ih]

theorem valid_feedAll {f : Framer} (h : f.Valid) (pieces : List Bytes) :
    (feedAll f pieces).2.Valid := by
  induction pieces generalizing f with
  | nil => exact h
  | cons piece pieces ih => exact ih (drains_feed h piece).2

/-! ## From the end of the header on -/

/-- A header block that ends within a piece and announces the bytes that follow it gives them as the
one result, whatever pieces the others come in. -/
theorem feedAll_block {f : Framer} (hf : f.Valid) {block part piece : Bytes} {pieces : List Bytes}
    (hview : f.view.push piece = ⟨block ++ (Frame.terminator ++ part), none⟩)
    (hfind : ∀ more, Frame.findTerminator (block ++ (Frame.terminator ++ more)) =
      some block.length) (hbody : part ++ pieces.flatten = body)
    (hlength : Frame.contentLength block = .ok body.length) :
    (feedAll f (piece :: pieces)).1.flatten = [readBody body] ∧
      (feedAll f (piece :: pieces)).2.view = ⟨[], none⟩ := by
  have hend : Drains ⟨[], none⟩ [] ⟨[], none⟩ := .rest rfl
  obtain ⟨hfeed, hvalid⟩ := drains_feed hf piece
  rw [hview] at hfeed
  rw [feedAll, List.flatten_cons]
  by_cases hlen : part.length < body.length
  · -- the body is awaited, and comes with the other pieces
    have hstep : State.step ⟨block ++ (Frame.terminator ++ part), none⟩ =
        (none, ⟨part, some body.length⟩) := by
      rw [(awaits_frame (hfind part) hlength).step_eq, State.takeBody, if_pos hlen]
    have hread : Drains ⟨body, some body.length⟩ [readBody body] ⟨[], none⟩ :=
      .more (by simp [State.step, State.takeBody]) hend
    obtain ⟨hresults, hafter⟩ := hfeed.unique (.rest hstep)
    obtain ⟨hmore, hfinal⟩ := feedAll_of_drains hvalid hfeed.waits
      (by rw [hafter, State.push, hbody]) (brief_awaited body) hread
    exact ⟨by rw [hresults, hmore, List.nil_append], hfinal⟩
  · -- the body is there, and the other pieces are empty
    have htotal : part.length + pieces.flatten.length = body.length := by
      rw [← hbody, List.length_append]
    have hnone : pieces.flatten = [] := List.length_eq_zero_iff.1 (by omega)
    rw [hnone, List.append_nil] at hbody
    subst hbody
    have hstep := step_frame (hfind (part ++ [])) hlength
    rw [List.append_nil] at hstep
    obtain ⟨hresults, hafter⟩ := hfeed.unique (.more hstep hend)
    obtain ⟨hmore, hfinal⟩ := feedAll_of_drains hvalid hfeed.waits
      (by rw [hafter, State.push, hnone, List.append_nil]) (brief_of_length_le (Nat.zero_le _)) hend
    exact ⟨by rw [hresults, hmore, List.append_nil], hfinal⟩

/-- A header block that is rejected gives its error first. -/
theorem feedAll_rejected {f : Framer} (hf : f.Valid) {block part piece : Bytes} {e : FrameError}
    (hview : f.view.push piece = ⟨block ++ (Frame.terminator ++ part), none⟩)
    (hfind : Frame.findTerminator (block ++ (Frame.terminator ++ part)) = some block.length)
    (herr : Frame.contentLength block = .error e) (pieces : List Bytes) :
    ∃ more, (feedAll f (piece :: pieces)).1.flatten = .error e :: more := by
  obtain ⟨hfeed, -⟩ := drains_feed hf piece
  rw [hview] at hfeed
  obtain ⟨rest, hrest⟩ := hfeed.eq_cons (step_frame_rejected hfind herr)
  exact ⟨rest ++ (feedAll (f.feed piece).2 pieces).1.flatten, by
    rw [feedAll, List.flatten_cons, hrest, List.cons_append]⟩

/-! ## Until the end of the header -/

/-- How many bytes the results say were dropped as noise before any other result. -/
def dropped : List Result → Nat
  | .error (.noHeader k) :: rs => k + dropped rs
  | _ => 0

/-- Whether results say of nothing but noise that it was dropped. -/
def OnlyNoise (rs : List Result) : Prop := ∀ r ∈ rs, ∃ k, r = .error (.noHeader k)

theorem OnlyNoise.dropped_append {rs : List Result} (h : OnlyNoise rs) (more : List Result) :
    dropped (rs ++ more) = dropped rs + dropped more := by
  induction rs with
  | nil => rw [List.nil_append, dropped.eq_def [], Nat.zero_add]
  | cons r rs ih =>
    obtain ⟨k, rfl⟩ := h r (by simp)
    rw [List.cons_append, dropped, dropped, ih fun r hr => h r (by simp [hr]), Nat.add_assoc]

theorem dropped_of_sound {r : Result} (h : Sound r) (rs : List Result) : dropped (r :: rs) = 0 := by
  unfold dropped
  split
  · next heq =>
    cases heq
    exact absurd rfl (h _)
  · rfl

/-- Whether some piece ends within the terminator of a header that ends after `stop` bytes, behind
the first line break of it, when more is held than may wait for the end of a header. -/
def CutsHeader (stop : Nat) (pieces : List Bytes) : Prop :=
  ∃ before piece, before ++ [piece] <+: pieces ∧
    stop + 2 ≤ (before ++ [piece]).flatten.length ∧
    (before ++ [piece]).flatten.length < stop + 4 ∧
    Frame.maxHeader < ((feedAll empty before).2.buffer ++ piece).length

theorem cutsHeader_nil (stop : Nat) : ¬ CutsHeader stop [] := by
  rintro ⟨before, piece, hprefix, -⟩
  simpa using hprefix.length_le

theorem cutsHeader_concat {stop : Nat} {done : List Bytes} {piece : Bytes} :
    CutsHeader stop (done ++ [piece]) ↔ CutsHeader stop done ∨
      (stop + 2 ≤ (done ++ [piece]).flatten.length ∧ (done ++ [piece]).flatten.length < stop + 4 ∧
        Frame.maxHeader < ((feedAll empty done).2.buffer ++ piece).length) := by
  constructor
  · rintro ⟨before, last, hprefix, hrest⟩
    rcases List.prefix_concat_iff.1 hprefix with heq | hprefix
    · obtain ⟨rfl, hlast⟩ := List.append_inj' heq rfl
      cases hlast
      exact .inr hrest
    · exact .inl ⟨before, last, hprefix, hrest⟩
  · rintro (⟨before, last, hprefix, hrest⟩ | hrest)
    · exact ⟨before, last, hprefix.trans (List.prefix_append done [piece]), hrest⟩
    · exact ⟨done, piece, List.prefix_rfl, hrest⟩

/-- Pieces that come when the terminator is there in full cut nothing. -/
theorem cutsHeader_append {stop : Nat} {done after : List Bytes} {piece : Bytes}
    (h : stop + 4 ≤ (done ++ [piece]).flatten.length) :
    CutsHeader stop (done ++ piece :: after) ↔ CutsHeader stop done := by
  constructor
  · rintro ⟨before, last, hprefix, hlow, hhigh, hover⟩
    have hdone : done ++ [piece] <+: done ++ piece :: after := ⟨after, by simp⟩
    rcases List.prefix_or_prefix_of_prefix hprefix hdone with hshort | ⟨more, hmore⟩
    · rcases List.prefix_concat_iff.1 hshort with heq | hshort
      · rw [heq] at hhigh
        omega
      · exact ⟨before, last, hshort, hlow, hhigh, hover⟩
    · rw [← hmore, List.flatten_append, List.length_append] at hhigh
      omega
  · rintro ⟨before, last, hprefix, hrest⟩
    exact ⟨before, last, hprefix.trans (List.prefix_append done _), hrest⟩

/-- The terminator is not found before it is there in full. -/
theorem findTerminator_incomplete (hstray : Frame.Stray stray) (hheader : Frame.HeaderLine header)
    {p : Bytes} (hp : p <+: stray ++ (header ++ (Frame.terminator ++ body)))
    (hlen : p.length < stray.length + header.length + 4) : Frame.findTerminator p = none := by
  cases hfind : Frame.findTerminator p with
  | none => rfl
  | some i =>
    obtain ⟨more, hmore⟩ := hp
    have hle := Frame.findTerminator_le hfind
    have hwhole := Frame.findTerminator_append hfind more
    rw [hmore, Frame.findTerminator_behind_stray hstray.ends hstray.clean hheader] at hwhole
    have := Option.some.inj hwhole
    omega

/-- What holds when the bytes `p` have come and the terminator is not there in full: all that is
made of them is that some are dropped as noise, up to a line break of the stray output or up to the
one behind the header. -/
structure Waiting (stray header p : Bytes) (rs : List Result) (s : State) : Prop where
  state : s = ⟨p.drop (dropped rs), none⟩
  only : OnlyNoise rs
  within : dropped rs ≤ p.length
  place : dropped rs + 2 ≤ stray.length ∨ dropped rs = stray.length + header.length

/-- The step lemma: one more piece that leaves the terminator incomplete. Its header is dropped only
by a piece that ends behind the line break of the header. -/
theorem Waiting.push (hstray : Frame.Stray stray) (hheader : Frame.HeaderLine header)
    {p piece : Bytes} {rs new : List Result} {s t : State} (h : Waiting stray header p rs s)
    (hp : p ++ piece <+: stray ++ (header ++ (Frame.terminator ++ body)))
    (hlen : (p ++ piece).length < stray.length + header.length + 4)
    (hdrains : Drains (s.push piece) new t) :
    Waiting stray header (p ++ piece) (rs ++ new) t ∧
      (dropped (rs ++ new) = stray.length + header.length ↔
        dropped rs = stray.length + header.length ∨
          stray.length + header.length + 2 ≤ (p ++ piece).length ∧
            Frame.maxHeader < (s.buffer ++ piece).length) := by
  obtain ⟨rfl, honly, hwithin, hplace⟩ := h
  have hmax : Frame.maxHeader = 8192 := rfl
  have hlonger : p.length ≤ (p ++ piece).length := by simp
  -- no terminator is there, so that what is held with the piece is kept or cut
  have hheld : p.drop (dropped rs) ++ piece = (p ++ piece).drop (dropped rs) :=
    (List.drop_append_of_le_length hwithin).symm
  have hlength : ((p ++ piece).drop (dropped rs)).length = (p ++ piece).length - dropped rs :=
    List.length_drop
  have hnone := Frame.findTerminator_drop_of_none
    (findTerminator_incomplete hstray hheader hp hlen) (dropped rs)
  rw [State.push, hheld] at hdrains
  rw [hheld]
  generalize hq : (p ++ piece).drop (dropped rs) = q at *
  obtain ⟨rfl, rfl⟩ := hdrains.unique (drains_noise hnone)
  by_cases hover : q.length ≤ Frame.maxHeader
  · have hnothing : noise q = [] := if_pos hover
    have hsame : kept q = q := if_pos hover
    rw [hnothing, hsame, List.append_nil]
    exact ⟨⟨by rw [hq], honly, by omega, hplace⟩, by omega⟩
  · have hcut : noise q = [.error (.noHeader (noiseLength q))] := if_neg hover
    have hrest : kept q = q.drop (noiseLength q) := if_neg hover
    have htotal : dropped (rs ++ noise q) = dropped rs + noiseLength q := by
      rw [honly.dropped_append, hcut]
      rfl
    have hd : dropped rs + 2 ≤ stray.length := hplace.resolve_right fun hlost => by omega
    have hleft := Frame.noiseLength_add_two_le (Nat.not_le.1 hover)
    have hover' : Frame.maxHeader < ((p ++ piece).drop (dropped rs)).length := by
      rw [hq]
      exact Nat.not_le.1 hover
    obtain ⟨hearly, hlate⟩ := Frame.place_of_overflow hstray.ends hheader hp hlen hd hover'
    rw [hq] at hearly hlate
    refine ⟨⟨by rw [htotal, hrest, ← hq, List.drop_drop], ?_, by omega, by omega⟩, by omega⟩
    intro r hr
    rw [hcut] at hr
    rcases List.mem_append.1 hr with hr | hr
    · exact honly r hr
    · exact ⟨_, List.mem_singleton.1 hr⟩

/-- The piece that completes the terminator leaves a header block at the front of what is held. -/
theorem Waiting.completes {p piece part : Bytes} {rs : List Result} {s : State}
    (h : Waiting stray header p rs s)
    (hpart : p ++ piece = stray ++ header ++ (Frame.terminator ++ part)) :
    s.push piece =
      ⟨(stray ++ header).drop (dropped rs) ++ (Frame.terminator ++ part), none⟩ := by
  have hle : dropped rs ≤ (stray ++ header).length := by
    have := h.place
    rw [List.length_append]
    omega
  rw [h.state, State.push, ← List.drop_append_of_le_length h.within, hpart,
    List.drop_append_of_le_length hle]

/-- The run lemma: any pieces that leave the terminator incomplete. -/
theorem waiting_feedAll (hstray : Frame.Stray stray) (hheader : Frame.HeaderLine header)
    {done : List Bytes} (hp : done.flatten <+: stray ++ (header ++ (Frame.terminator ++ body)))
    (hlen : done.flatten.length < stray.length + header.length + 4) :
    Waiting stray header done.flatten (feedAll empty done).1.flatten (feedAll empty done).2.view ∧
      (dropped (feedAll empty done).1.flatten = stray.length + header.length ↔
        CutsHeader (stray.length + header.length) done) := by
  induction done using List.reverseRecOn with
  | nil =>
    have htwo : 2 ≤ stray.length := hstray.ends.length_le
    have hplace : dropped [] + 2 ≤ stray.length := by simpa [dropped]
    refine ⟨⟨rfl, by simp [feedAll, OnlyNoise], Nat.le_refl _, .inl hplace⟩, ?_⟩
    refine iff_of_false ?_ (cutsHeader_nil _)
    simp [feedAll, dropped]
    omega
  | append_singleton done piece ih =>
    have hflatten : (done ++ [piece]).flatten = done.flatten ++ piece := by simp
    have hshorter : done.flatten.length ≤ (done ++ [piece]).flatten.length := by simp
    rw [cutsHeader_concat]
    rw [hflatten] at hp hlen hshorter ⊢
    obtain ⟨hwaiting, hcuts⟩ := ih ((List.prefix_append _ _).trans hp) (by omega)
    obtain ⟨hfeed, -⟩ := drains_feed (valid_feedAll valid_empty done) piece
    obtain ⟨hnext, hlost⟩ := hwaiting.push hstray hheader hp hlen hfeed
    rw [feedAll_append]
    simp only [feedAll, List.flatten_append, List.flatten_cons, List.flatten_nil, List.append_nil]
    refine ⟨hnext, hlost.trans ?_⟩
    rw [hcuts, and_iff_right hlen]
    exact Iff.rfl

/-! ## Whether the frame is read -/

/-- Whether the last result is a value, every other one says that noise was dropped, and nothing is
left over. -/
def Delivers (v : Json) (out : List (List Result) × Framer) : Prop :=
  ∃ errors, out.1.flatten = errors ++ [.ok v] ∧ OnlyNoise errors ∧ out.2.buffer = []

/-- A sound error among the results is no noise and no value. -/
theorem not_delivers_of_mem {v : Json} {out : List (List Result) × Framer} {e : FrameError}
    (h : .error e ∈ out.1.flatten) (hsound : Sound (.error e)) : ¬ Delivers v out := by
  rintro ⟨errors, hresults, honly, -⟩
  rw [hresults, List.mem_append, List.mem_singleton] at h
  rcases h with h | h
  · obtain ⟨k, hk⟩ := honly _ h
    exact hsound k hk
  · cases h

theorem exists_split {pieces : List Bytes} {n : Nat} (hpos : 0 < n)
    (h : n ≤ pieces.flatten.length) :
    ∃ done piece after, pieces = done ++ piece :: after ∧ done.flatten.length < n ∧
      n ≤ (done ++ [piece]).flatten.length := by
  induction pieces generalizing n with
  | nil => simp at h; omega
  | cons piece pieces ih =>
    by_cases hlen : n ≤ piece.length
    · exact ⟨[], piece, pieces, rfl, hpos, by simpa using hlen⟩
    · rw [List.flatten_cons, List.length_append] at h
      obtain ⟨done, next, after, rfl, hlow, hhigh⟩ :=
        ih (n := n - piece.length) (by omega) (by omega)
      refine ⟨piece :: done, next, after, rfl, ?_, ?_⟩
      · rw [List.flatten_cons, List.length_append]
        omega
      · rw [List.cons_append, List.flatten_cons, List.length_append]
        omega

/-- One of the pieces completes the terminator and brings a part of the body. -/
theorem exists_completing {pieces : List Bytes}
    (hp : pieces.flatten = stray ++ (header ++ (Frame.terminator ++ body))) :
    ∃ done piece after part, pieces = done ++ piece :: after ∧
      done.flatten.length < stray.length + header.length + 4 ∧
      done.flatten ++ piece = stray ++ header ++ (Frame.terminator ++ part) ∧
      part ++ after.flatten = body := by
  have hlong : stray.length + header.length + 4 ≤ pieces.flatten.length := by
    rw [hp]
    simp [Frame.terminator]
    omega
  obtain ⟨done, piece, after, rfl, hlow, hhigh⟩ := exists_split (Nat.succ_pos _) hlong
  have hsplit : (done ++ [piece]).flatten = done.flatten ++ piece := by simp
  have hwhole : (done.flatten ++ piece) ++ after.flatten =
      (stray ++ header ++ Frame.terminator) ++ body := by
    simpa using hp
  obtain ⟨part, hpart⟩ : stray ++ header ++ Frame.terminator <+: done.flatten ++ piece :=
    List.prefix_of_prefix_length_le ⟨body, hwhole.symm⟩ ⟨after.flatten, rfl⟩
      (by simpa [hsplit, Frame.terminator, Nat.add_assoc] using hhigh)
  refine ⟨done, piece, after, part, rfl, hlow, by rw [← hpart, List.append_assoc], ?_⟩
  rw [← hpart, List.append_assoc] at hwhole
  exact List.append_cancel_left hwhole

/-- The header block that is left when the terminator is there in full ends at it. -/
theorem findTerminator_left (hstray : Frame.Stray stray) (hheader : Frame.HeaderLine header)
    {d : Nat} (hd : d + 2 ≤ stray.length ∨ d = stray.length + header.length) (more : Bytes) :
    Frame.findTerminator ((stray ++ header).drop d ++ (Frame.terminator ++ more)) =
      some ((stray ++ header).drop d).length := by
  rcases hd with hd | rfl
  · have hclean : ¬ Frame.terminator <:+: stray.drop d := fun hin =>
      hstray.clean (hin.trans (List.drop_suffix d stray).isInfix)
    rw [List.drop_append_of_le_length (by omega), List.append_assoc,
      Frame.findTerminator_behind_stray (hstray.ends_drop hd) hclean hheader, List.length_append]
  · have hempty : (stray ++ header).drop (stray.length + header.length) = [] := by simp
    rw [hempty]
    exact Frame.findTerminator_block List.not_mem_nil more

section Arrival

variable {done after : List Bytes} {piece part : Bytes}

/-- A header block that is rejected after what was dropped as noise loses the frame. -/
theorem not_delivers_of_rejected {v : Json} {block : Bytes} {e : FrameError}
    (honly : OnlyNoise (feedAll empty done).1.flatten)
    (hview : (feedAll empty done).2.view.push piece = ⟨block ++ (Frame.terminator ++ part), none⟩)
    (hfind : ∀ more, Frame.findTerminator (block ++ (Frame.terminator ++ more)) = some block.length)
    (herr : Frame.contentLength block = .error e) :
    ¬ Delivers v (feedAll empty (done ++ piece :: after)) ∧
      dropped (feedAll empty (done ++ piece :: after)).1.flatten =
        dropped (feedAll empty done).1.flatten := by
  obtain ⟨more, hmore⟩ := feedAll_rejected (valid_feedAll valid_empty done) hview (hfind part) herr
    after
  have hresults : (feedAll empty (done ++ piece :: after)).1.flatten =
      (feedAll empty done).1.flatten ++ .error e :: more := by
    rw [feedAll_append, List.flatten_append, hmore]
  have hsound : Sound (.error e) := sound_contentLength herr
  refine ⟨not_delivers_of_mem (by rw [hresults]; simp) hsound, ?_⟩
  rw [hresults, honly.dropped_append, dropped_of_sound hsound, Nat.add_zero]

/-- A header block that announces the body behind it delivers the frame. -/
theorem delivers_of_read {v : Json} {block : Bytes}
    (honly : OnlyNoise (feedAll empty done).1.flatten)
    (hview : (feedAll empty done).2.view.push piece = ⟨block ++ (Frame.terminator ++ part), none⟩)
    (hfind : ∀ more, Frame.findTerminator (block ++ (Frame.terminator ++ more)) = some block.length)
    (hbody : part ++ after.flatten = body) (hlength : Frame.contentLength block = .ok body.length)
    (hread : readBody body = .ok v) :
    Delivers v (feedAll empty (done ++ piece :: after)) ∧
      dropped (feedAll empty (done ++ piece :: after)).1.flatten =
        dropped (feedAll empty done).1.flatten := by
  obtain ⟨hlast, hview⟩ := feedAll_block (valid_feedAll valid_empty done) hview hfind hbody hlength
  have hresults : (feedAll empty (done ++ piece :: after)).1.flatten =
      (feedAll empty done).1.flatten ++ [.ok v] := by
    rw [feedAll_append, List.flatten_append, hlast, hread]
  refine ⟨⟨_, hresults, honly, ?_⟩, ?_⟩
  · rw [feedAll_append]
    exact congrArg State.buffer hview
  · rw [hresults, honly.dropped_append, dropped_of_sound (sound_ok v), Nat.add_zero]

end Arrival

/-- **The frame behind stray output is read, and nothing but noise is reported before it, exactly
when the pieces neither cut its header nor a line of the output so that the rest of the line passes
for a length field without a number.** -/
theorem delivers_iff_not_cut (hstray : Frame.Stray stray) {v : Json}
    (hread : Json.ofBytes? (Utf8.encode v.chars) = some v)
    (hshort : (Utf8.encode v.chars).length ≤ Frame.maxLength) {pieces : List Bytes}
    (hp : pieces.flatten = stray ++ Frame.encode v) :
    Delivers v (feedAll empty pieces) ↔
      ¬ CutsHeader (stray.length + (Frame.header v).length) pieces ∧
        ¬ Frame.CutsLine stray (dropped (feedAll empty pieces).1.flatten) := by
  have hheader : Frame.HeaderLine (Frame.header v) := Frame.headerLine_headerText hshort
  have hvalue : readBody (Utf8.encode v.chars) = .ok v := by rw [readBody, hread]
  rw [Frame.encode_eq] at hp
  obtain ⟨done, piece, after, part, rfl, hlow, hpart, hrest⟩ := exists_completing hp
  have hprefix : done.flatten <+:
      stray ++ (Frame.header v ++ (Frame.terminator ++ Utf8.encode v.chars)) :=
    ⟨piece ++ after.flatten, by rw [← hp]; simp⟩
  obtain ⟨hwaiting, hcuts⟩ := waiting_feedAll hstray hheader hprefix hlow
  have hlong : stray.length + (Frame.header v).length + 4 ≤ (done ++ [piece]).flatten.length := by
    have hlength := congrArg List.length hpart
    simp [Frame.terminator] at hlength ⊢
    omega
  rw [cutsHeader_append hlong, ← hcuts]
  have hview := hwaiting.completes hpart
  have hfind := findTerminator_left hstray hheader hwaiting.place
  rcases hstray.contentLength_left hshort hwaiting.place with
    ⟨hwhole, hline, hlength⟩ | ⟨hcut, e, herr⟩
  · obtain ⟨hdelivers, hsame⟩ := delivers_of_read hwaiting.only hview hfind hrest hlength hvalue
    rw [hsame]
    exact iff_of_true hdelivers ⟨hwhole, hline⟩
  · obtain ⟨hlost, hsame⟩ := not_delivers_of_rejected hwaiting.only hview hfind herr
    rw [hsame]
    exact iff_of_false hlost fun h => hcut.elim h.1 h.2

/-- A line of `n` letters. -/
def noiseLine (n : Nat) : Bytes := List.replicate n 120 ++ [13, 10]

theorem length_noiseLine (n : Nat) : (noiseLine n).length = n + 2 := by
  simp [noiseLine]

theorem stray_noiseLine (n : Nat) : Frame.Stray (noiseLine n) where
  ends := List.suffix_append _ _
  clean := by
    rw [← Frame.findTerminator_eq_none_iff]
    induction n with
    | zero => decide
    | succ n ih =>
      have hp : ¬ Frame.terminator.isPrefixOf (120 :: noiseLine n) = true := by
        simp [Frame.terminator, List.isPrefixOf]
      rw [noiseLine, List.replicate_succ, List.cons_append, ← noiseLine, Frame.findTerminator,
        if_neg hp, ih, Option.map_none]
  plain := by
    have htext : Utf8.lossy (List.replicate n 120) = List.replicate n 'x' := by
      induction n with
      | zero => rfl
      | succ n ih =>
        rw [List.replicate_succ, List.replicate_succ, Utf8.lossy_cons (by decide), ih]
        rfl
    have hcr : '\r' ∉ List.replicate n 'x' := by simp
    have hcolon : ':' ∉ List.replicate n 'x' := by simp
    have hlast : Frame.headerLines (Utf8.lossy []) = [[]] := rfl
    rw [noiseLine, Frame.headerLines_lossy_append_crlf, htext, Frame.headerLines_of_not_mem hcr,
      hlast]
    intro line hline
    rw [List.cons_append, List.nil_append, List.mem_cons, List.mem_singleton] at hline
    rcases hline with rfl | rfl
    · exact Frame.lengthValue?_of_not_mem hcolon
    · exact Frame.lengthValue?_of_not_mem List.not_mem_nil

/-- A line of noise that fills the buffer, and an empty object whose header ends with the piece. -/
def cutPieces : List Bytes :=
  [noiseLine 8190 ++ (Frame.header Json.emptyObject ++ [13, 10]),
    [13, 10] ++ Utf8.encode Json.emptyObject.chars]

theorem delivers_iff_not_cut_cutting :
    Frame.Stray (noiseLine 8190) ∧
      Json.ofBytes? (Utf8.encode Json.emptyObject.chars) = some Json.emptyObject ∧
      (Utf8.encode Json.emptyObject.chars).length ≤ Frame.maxLength ∧
      cutPieces.flatten = noiseLine 8190 ++ Frame.encode Json.emptyObject ∧
      ¬ Delivers Json.emptyObject (feedAll empty cutPieces) := by
  have hread : Json.ofBytes? (Utf8.encode Json.emptyObject.chars) = some Json.emptyObject := by
    rfl
  have hshort : (Utf8.encode Json.emptyObject.chars).length ≤ Frame.maxLength := by decide
  have hp : cutPieces.flatten = noiseLine 8190 ++ Frame.encode Json.emptyObject := by
    rw [Frame.encode_eq]
    simp [cutPieces, Frame.terminator]
  have hnoise : (noiseLine 8190).length = 8192 := length_noiseLine 8190
  have hheader : (Frame.header Json.emptyObject).length = 17 := by decide
  have hcut : CutsHeader ((noiseLine 8190).length + (Frame.header Json.emptyObject).length)
      cutPieces := by
    refine ⟨[], _, List.prefix_append [_] [_], ?_⟩
    have hbuffer : (feedAll empty []).2.buffer = [] := rfl
    simp [hnoise, hheader, hbuffer, Frame.maxHeader]
  refine ⟨stray_noiseLine 8190, hread, hshort, hp, fun hdelivers => ?_⟩
  exact ((delivers_iff_not_cut (stray_noiseLine 8190) hread hshort hp).1 hdelivers).1 hcut

end Framer
end LanguageClient
