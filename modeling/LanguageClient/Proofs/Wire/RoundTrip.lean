import LanguageClient.Proofs.Json.RoundTrip
import LanguageClient.Proofs.Wire.Decoding

/-!
# The framing round trip

A stream of written frames, cut into pieces anywhere, is decoded to the values that were written:
each with the piece that holds its last byte, none earlier and none twice. The invariant is what
draining a prefix of the stream in one go gives: the values whose frames lie in it whole
(`drains_prefix`); a piece more extends the prefix.
-/

namespace LanguageClient

/-- A value that a frame can carry and a decoder gives back: numbers are integers of 64 bits, it
nests less than 128 deep, and its text is not too long for a body. -/
structure Json.Framable (v : Json) : Prop where
  exact : v.Exact
  shallow : v.depth < 128
  short : (Utf8.encode v.chars).length ≤ Frame.maxLength

namespace Frame

/-- How many of the frames of `vs`, written one after another, the first `n` bytes hold whole. -/
def within : Nat → List Json → Nat
  | _, [] => 0
  | n, v :: vs =>
    if (encode v).length ≤ n then within (n - (encode v).length) vs + 1 else 0

theorem within_all (vs : List Json) : within (vs.flatMap encode).length vs = vs.length := by
  induction vs with
  | nil => rfl
  | cons v vs ih =>
    rw [List.flatMap_cons, List.length_append, within, if_pos (by omega), Nat.add_sub_cancel_left,
      ih, List.length_cons]

/-- The bytes of the header of a value's frame. -/
def header (v : Json) : Bytes := Utf8.encode (headerText (Utf8.encode v.chars).length)

theorem encode_eq (v : Json) :
    encode v = header v ++ (terminator ++ Utf8.encode v.chars) :=
  wrap_eq (Utf8.encode v.chars)

theorem findTerminator_encode (v : Json) (more : Bytes) :
    findTerminator (encode v ++ more) = some (header v).length := by
  rw [encode_eq, List.append_assoc, List.append_assoc]
  exact findTerminator_block (not_mem_encode (not_mem_headerText _)) _

theorem within_zero (vs : List Json) : within 0 vs = 0 := by
  cases vs with
  | nil => rfl
  | cons v vs =>
    rw [within, if_neg]
    rw [encode_eq, List.length_append, List.length_append]
    simp [terminator]

/-- What stands before a frame's body is read in full, whatever of the body is there. -/
theorem contentLength_encode {v : Json} (h : (Utf8.encode v.chars).length ≤ maxLength) :
    contentLength (header v) = .ok (Utf8.encode v.chars).length :=
  contentLength_headerText h

/-- Where the first bytes of a frame hold no terminator, the header's is not there in full. -/
theorem length_lt_of_findTerminator_eq_none {v : Json} {p : Bytes} (hp : p <+: encode v)
    (hnone : findTerminator p = none) : p.length < (header v).length + 4 := by
  refine Nat.lt_of_not_le fun hlong => findTerminator_eq_none_iff.1 hnone ?_
  have hwhole : header v ++ terminator <+: encode v :=
    ⟨Utf8.encode v.chars, by rw [encode_eq, List.append_assoc]⟩
  have hhead : header v ++ terminator <+: p := by
    refine List.prefix_of_prefix_length_le hwhole hp ?_
    rw [List.length_append]
    exact hlong
  exact (List.suffix_append _ _).isInfix.trans hhead.isInfix

/-- Where they hold one, it closes the header. -/
theorem take_of_findTerminator_eq_some {v : Json} {p : Bytes} {i : Nat} (hp : p <+: encode v)
    (hi : findTerminator p = some i) : i = (header v).length ∧ p.take i = header v := by
  obtain ⟨more, hmore⟩ := hp
  have hle := findTerminator_le hi
  obtain rfl : i = (header v).length := by
    have hfind := findTerminator_encode v []
    rw [List.append_nil, ← hmore, findTerminator_append hi] at hfind
    exact Option.some.inj hfind
  have hboth : (p ++ more).take (header v).length = header v := by
    rw [hmore, encode_eq, List.take_left]
  rw [List.take_append_of_le_length (by omega)] at hboth
  exact ⟨rfl, hboth⟩

end Frame

namespace Decoder

open State

/-- A whole frame at the start of a buffer is the next result. -/
theorem step_encode {v : Json} (h : v.Framable) (more : Bytes) :
    State.step ⟨Frame.encode v ++ more, none⟩ = (some (.ok v), ⟨more, none⟩) := by
  have hread : readBody (Utf8.encode v.chars) = .ok v := by
    rw [readBody, Json.ofBytes?_chars h.exact (Nat.le_of_lt_succ h.shallow)]
  rw [Frame.encode, step_wrap h.short, hread]

/-- A frame that is not there in full gives no result. -/
theorem step_partial {v : Json} (h : v.Framable) {p : Bytes} (hp : p <+: Frame.encode v)
    (hlen : p.length < (Frame.encode v).length) : ∃ s, State.step ⟨p, none⟩ = (none, s) := by
  cases hi : Frame.findTerminator p with
  | none =>
    -- headers are short
    have hshort := Frame.length_lt_of_findTerminator_eq_none hp hi
    have hmax : (Frame.header v).length + 4 ≤ Frame.maxHeader := Frame.length_headerText_le h.short
    exact ⟨⟨p, none⟩, by simp only [step, hi, if_pos (show p.length ≤ Frame.maxHeader by omega)]⟩
  | some i =>
    obtain ⟨hat, htake⟩ := Frame.take_of_findTerminator_eq_some hp hi
    have hawaits : Awaits ⟨p, none⟩ (p.drop (i + 4)) (Utf8.encode v.chars).length :=
      .header hi (by rw [htake, Frame.contentLength_encode h.short])
    have hframe : (Frame.encode v).length =
        (Frame.header v).length + (4 + (Utf8.encode v.chars).length) := by
      rw [Frame.encode_eq, List.length_append, List.length_append]
      rfl
    have hpart : (p.drop (i + 4)).length < (Utf8.encode v.chars).length := by
      have hle := Frame.findTerminator_le hi
      rw [List.length_drop]
      omega
    exact ⟨_, by rw [hawaits.step_eq, takeBody, if_pos hpart]⟩

/-- **The first bytes of a stream of frames drain to the values whose frames they hold.** -/
theorem drains_prefix {vs : List Json} (h : ∀ v ∈ vs, v.Framable) {p : Bytes}
    (hp : p <+: vs.flatMap Frame.encode) :
    ∃ s, Drains ⟨p, none⟩ ((vs.take (Frame.within p.length vs)).map .ok) s ∧
      (p.length = (vs.flatMap Frame.encode).length → s = ⟨[], none⟩) := by
  induction vs generalizing p with
  | nil =>
    obtain rfl : p = [] := List.prefix_nil.1 hp
    exact ⟨_, .rest rfl, fun _ => rfl⟩
  | cons v vs ih =>
    have hv : v.Framable := h v (by simp)
    rw [List.flatMap_cons] at hp
    rw [Frame.within, List.flatMap_cons, List.length_append]
    by_cases hwhole : (Frame.encode v).length ≤ p.length
    -- the first frame is there in full, and what is behind it is a stream of the others
    · obtain ⟨q, rfl⟩ : Frame.encode v <+: p :=
        List.prefix_of_prefix_length_le (List.prefix_append _ _) hp hwhole
      have hq : q <+: vs.flatMap Frame.encode := (List.prefix_append_right_inj _).1 hp
      obtain ⟨s, hs, hend⟩ := ih (fun w hw => h w (by simp [hw])) hq
      refine ⟨s, ?_, ?_⟩
      · rw [if_pos hwhole, List.length_append, Nat.add_sub_cancel_left, List.take_succ_cons,
          List.map_cons]
        exact .more (step_encode hv q) hs
      · intro hall
        rw [List.length_append] at hall
        exact hend (by omega)
    -- the first frame is not there in full, so no value is
    · have hlt : p.length < (Frame.encode v).length := Nat.not_le.1 hwhole
      have hpart : p <+: Frame.encode v :=
        List.prefix_of_prefix_length_le hp (List.prefix_append _ _) (Nat.le_of_lt hlt)
      obtain ⟨s, hs⟩ := step_partial hv hpart hlt
      rw [if_neg hwhole]
      exact ⟨s, .rest hs, fun hall => absurd hall (by omega)⟩

end Decoder

namespace Framer

open Decoder

/-- Feeds pieces of output one by one: what each of them gives, and the decoder after them all. -/
def feedAll (f : Framer) : List Bytes → List (List Result) × Framer
  | [] => ([], f)
  | piece :: pieces =>
    let (rs, f) := f.feed piece
    let (rss, f) := feedAll f pieces
    (rs :: rss, f)

theorem length_feedAll (f : Framer) (pieces : List Bytes) :
    (feedAll f pieces).1.length = pieces.length := by
  induction pieces generalizing f with
  | nil => rfl
  | cons piece pieces ih =>
    rw [feedAll, List.length_cons, List.length_cons, ih]

/-- A feed of a piece of the stream gives the values whose last byte lies in it. -/
theorem feed_prefix {vs : List Json} (h : ∀ v ∈ vs, v.Framable) {f : Framer} (hf : f.Valid)
    {p piece : Bytes}
    (hdone : Drains ⟨p, none⟩ ((vs.take (Frame.within p.length vs)).map .ok) f.view)
    (hp : p ++ piece <+: vs.flatMap Frame.encode) :
    (vs.take (Frame.within p.length vs)).map .ok ++ (f.feed piece).1 =
        (vs.take (Frame.within (p ++ piece).length vs)).map .ok ∧
      Drains ⟨p ++ piece, none⟩ ((vs.take (Frame.within (p ++ piece).length vs)).map .ok)
        (f.feed piece).2.view := by
  have hsound : ∀ r ∈ (vs.take (Frame.within p.length vs)).map .ok, Sound r := by
    intro r hr
    obtain ⟨v, -, rfl⟩ := List.mem_map.1 hr
    exact sound_ok v
  have hall := hdone.append hsound (drains_feed hf piece).1
  obtain ⟨s, hs, -⟩ := drains_prefix h hp
  obtain ⟨hrs, hst⟩ := hall.unique hs
  exact ⟨hrs, hst ▸ hs⟩

/-- A frame that comes in one piece. -/
theorem feed_encode {v : Json} (h : v.Framable) : (empty.feed (Frame.encode v)).1 = [.ok v] := by
  have hall : ∀ w ∈ [v], w.Framable := by simpa using h
  have hstart : Drains ⟨[], none⟩ (([v].take (Frame.within 0 [v])).map .ok) empty.view := by
    rw [Frame.within_zero]
    exact .rest rfl
  have hpiece : [] ++ Frame.encode v <+: [v].flatMap Frame.encode := by simp
  obtain ⟨hresults, -⟩ := feed_prefix hall valid_empty hstart hpiece
  have hwhole := Frame.within_all [v]
  simp only [List.flatMap_cons, List.flatMap_nil, List.append_nil, List.length_singleton] at hwhole
  simpa [Frame.within_zero, hwhole] using hresults

/-- The run lemma of a stream in pieces, from any point of it on. -/
theorem feedAll_prefix {vs : List Json} (h : ∀ v ∈ vs, v.Framable) {pieces : List Bytes}
    {f : Framer} (hf : f.Valid) {p : Bytes}
    (hdone : Drains ⟨p, none⟩ ((vs.take (Frame.within p.length vs)).map .ok) f.view)
    (hp : p ++ pieces.flatten = vs.flatMap Frame.encode) :
    (∀ k, (vs.take (Frame.within p.length vs)).map .ok ++
        ((feedAll f pieces).1.take k).flatten =
      (vs.take (Frame.within (p ++ (pieces.take k).flatten).length vs)).map .ok) ∧
      (feedAll f pieces).2.view = ⟨[], none⟩ := by
  induction pieces generalizing f p with
  | nil =>
    rw [List.flatten_nil, List.append_nil] at hp
    refine ⟨fun k => by simp [feedAll], ?_⟩
    obtain ⟨s, hs, hend⟩ := drains_prefix h (p := p) (hp ▸ List.prefix_rfl)
    obtain ⟨-, hst⟩ := hdone.unique hs
    exact hst.trans (hend (by rw [hp]))
  | cons piece pieces ih =>
    rw [List.flatten_cons, ← List.append_assoc] at hp
    have hpiece : p ++ piece <+: vs.flatMap Frame.encode := ⟨_, hp⟩
    obtain ⟨hrs, hnext⟩ := feed_prefix h hf hdone hpiece
    obtain ⟨hresults, hend⟩ := ih (drains_feed hf piece).2 hnext hp
    refine ⟨fun k => ?_, hend⟩
    cases k with
    | zero => simp
    | succ k =>
      have hk := hresults k
      rw [← hrs] at hk
      rw [feedAll, List.take_succ_cons, List.flatten_cons, List.take_succ_cons, List.flatten_cons]
      simpa only [List.append_assoc] using hk

/-- **Whatever pieces a stream of frames comes in, it decodes to its values in order**, each of
them with the piece that holds its last byte, and nothing is left over. -/
theorem feedAll_encode {vs : List Json} (h : ∀ v ∈ vs, v.Framable) {pieces : List Bytes}
    (hp : pieces.flatten = vs.flatMap Frame.encode) :
    (feedAll empty pieces).1.flatten = vs.map .ok ∧
      (∀ k, ((feedAll empty pieces).1.take k).flatten =
        (vs.take (Frame.within (pieces.take k).flatten.length vs)).map .ok) ∧
      (feedAll empty pieces).2.buffer = [] ∧ (feedAll empty pieces).2.awaited = none := by
  have hstart : Drains ⟨[], none⟩ ((vs.take (Frame.within 0 vs)).map .ok) empty.view := by
    rw [Frame.within_zero]
    exact .rest rfl
  obtain ⟨hresults, hend⟩ := feedAll_prefix h valid_empty hstart (p := []) hp
  have hempty : Frame.within ([] : Bytes).length vs = 0 := Frame.within_zero vs
  simp only [hempty, List.take_zero, List.map_nil, List.nil_append] at hresults
  refine ⟨?_, hresults, congrArg State.buffer hend, congrArg State.awaited hend⟩
  have hall := hresults pieces.length
  rwa [← length_feedAll empty pieces, List.take_length, length_feedAll, List.take_length,
    hp, Frame.within_all, List.take_length] at hall

/-- A request and its answer. -/
def sampleStream : List Json :=
  [.obj [("id", .int 1), ("method", .str "é")], .obj [("id", .int 1), ("result", .arr [.null])]]

theorem sampleStream_framable : ∀ v ∈ sampleStream, v.Framable := by
  intro v hv
  have hexact : v.Exact := by
    simp only [sampleStream, List.mem_cons, List.not_mem_nil, or_false] at hv
    rcases hv with rfl | rfl
    · refine .obj ?_ (by decide)
      simp [Json.Exact.int (n := 1) (by decide) (by decide), Json.Exact.str]
    · refine .obj ?_ (by decide)
      have harr : Json.Exact (.arr [.null]) := .arr (by simp [Json.Exact.null])
      simp [Json.Exact.int (n := 1) (by decide) (by decide), harr]
  have hbounds : ∀ v ∈ sampleStream,
      v.depth < 128 ∧ (Utf8.encode v.chars).length ≤ Frame.maxLength := by decide
  exact ⟨hexact, (hbounds v hv).1, (hbounds v hv).2⟩

theorem feedAll_encode_sample :
    let stream := sampleStream.flatMap Frame.encode
    (∀ v ∈ sampleStream, v.Framable) ∧
      (feedAll empty [stream.take 50, [], stream.drop 50]).1.flatten = sampleStream.map .ok ∧
      (feedAll empty [stream.take 50, [], stream.drop 50]).2.buffer = [] := by
  intro stream
  have hp : [stream.take 50, [], stream.drop 50].flatten = stream := by simp
  obtain ⟨hresults, -, hbuffer, -⟩ := feedAll_encode sampleStream_framable hp
  exact ⟨sampleStream_framable, hresults, hbuffer⟩

end Framer
end LanguageClient
