import LanguageClient.Proofs.Json.RoundTrip
import LanguageClient.Proofs.Wire.Decoding

/-!
# What follows a rejected header

A header that gives no length is used up, but its body is not: the body is taken for the beginning
of the next header. Compact texts hold no line break, so the body and the name of the next length
field stand on one line, which therefore gives no length either. The same then happens to the next
body. `drains_behind_body` is the loop of it; `feed_rejected` says how a stream goes on in full.
-/

namespace LanguageClient

namespace Json

/-! ## Compact texts hold no line break -/

theorem not_mem_escapeChar (c : Char) : '\r' ∉ escapeChar c := by
  have hhex : ∀ n < 0x20, hexDigit (n / 16) ≠ '\r' ∧ hexDigit (n % 16) ≠ '\r' := by decide
  unfold escapeChar
  repeat' split
  · decide
  · decide
  · decide
  · decide
  · decide
  · decide
  · decide
  · next hc =>
    obtain ⟨h1, h2⟩ := hhex c.toNat hc
    simp [h1.symm, h2.symm]
  · next hc _ _ =>
    simpa using Ne.symm hc

theorem not_mem_quoted (s : String) : '\r' ∉ quoted s := by
  simp only [quoted, List.mem_cons, List.mem_append, List.mem_flatMap]
  rintro (h | ⟨c, -, hc⟩ | h | h)
  · exact absurd h (by decide)
  · exact not_mem_escapeChar c hc
  · exact absurd h (by decide)
  · cases h

theorem not_mem_natDigits (n : Nat) : '\r' ∉ natDigits n := by
  intro h
  exact absurd (isDigit_of_mem_natDigits h) (by decide)

theorem not_mem_intText (n : Int) : '\r' ∉ intText n := by
  cases n with
  | ofNat n => exact not_mem_natDigits n
  | negSucc n => simp [intText, not_mem_natDigits]

theorem not_mem_scaledText (s : Decimal.Scaled) : '\r' ∉ scaledText s := by
  have hdigits := not_mem_natDigits s.digits
  have htake : ∀ k, '\r' ∉ (natDigits s.digits).take k := fun k h =>
    hdigits (List.mem_of_mem_take h)
  have hdrop : ∀ k, '\r' ∉ (natDigits s.digits).drop k := fun k h =>
    hdigits (List.mem_of_mem_drop h)
  have htail : '\r' ∉ (natDigits s.digits).tail := fun h => hdigits (List.mem_of_mem_tail h)
  unfold scaledText
  dsimp only
  repeat' split
  all_goals simp [not_mem_natDigits, htake, hdrop, htail]

theorem not_mem_floatText (x : Float) : '\r' ∉ floatText x := by
  have htext : ∀ m : Nat,
      '\r' ∉ (if m = 0 then "0.0".toList else scaledText (Decimal.shortest m)) := by
    intro m
    split
    · decide
    · exact not_mem_scaledText _
  unfold floatText
  dsimp only
  split
  · decide
  · split
    · exact List.not_mem_cons_of_ne_of_not_mem (by decide) (htext _)
    · exact htext _

/-- **The compact text of a value holds no carriage return.** -/
theorem not_mem_chars (v : Json) : '\r' ∉ chars v := by
  induction v using inductionOn with
  | null => decide
  | bool b => cases b <;> decide
  | int n => exact not_mem_intText n
  | float x => exact not_mem_floatText x
  | str s => exact not_mem_quoted s
  | arr items ih =>
    have hitems : ∀ vs : List Json, (∀ v ∈ vs, '\r' ∉ chars v) → '\r' ∉ itemChars vs := by
      intro vs h
      induction vs with
      | nil => decide
      | cons v vs ihvs => simp [itemChars, h v, ihvs fun w hw => h w (by simp [hw])]
    cases items with
    | nil => decide
    | cons v vs => simp [chars, ih v, hitems vs fun w hw => ih w (by simp [hw])]
  | obj fields ih =>
    have hfields : ∀ fs : List (String × Json), (∀ f ∈ fs, '\r' ∉ chars f.2) →
        '\r' ∉ fieldChars fs := by
      intro fs h
      induction fs with
      | nil => decide
      | cons f fs ihfs =>
        obtain ⟨k, v⟩ := f
        have hv : '\r' ∉ chars v := h (k, v) (by simp)
        simp [fieldChars, not_mem_quoted, hv, ihfs fun g hg => h g (by simp [hg])]
    cases fields with
    | nil => decide
    | cons f fs =>
      obtain ⟨k, v⟩ := f
      have hv : '\r' ∉ chars v := ih (k, v) (by simp)
      simp [chars, not_mem_quoted, hv, hfields fs fun g hg => ih g (by simp [hg])]

end Json

namespace Frame

/-! ## The rejected header -/

/-- A header block ends at the terminator behind it, unless its own last line break is the first
half of one. -/
theorem findTerminator_behind {header : Bytes} (h : ¬ terminator <:+: header) (more : Bytes) :
    findTerminator (header ++ (terminator ++ more)) = some header.length ∨
      ∃ short, header = short ++ [13, 10] ∧
        findTerminator (header ++ (terminator ++ more)) = some short.length := by
  induction header with
  | nil => exact .inl rfl
  | cons a header ih =>
    have htail : ¬ terminator <:+: header := fun hin => h (hin.trans (List.suffix_cons a _).isInfix)
    rw [List.cons_append, findTerminator]
    split
    · next hp =>
      -- the terminator begins in the header and ends behind it
      rcases header with _ | ⟨b, _ | ⟨c, _ | ⟨d, rest⟩⟩⟩
      · simp [terminator, List.isPrefixOf] at hp
      · refine .inr ⟨[], ?_, rfl⟩
        simp [terminator, List.isPrefixOf] at hp
        simp [hp.1, hp.2]
      · simp [terminator, List.isPrefixOf] at hp
      · rw [← List.cons_append, terminator_isPrefixOf_append (by simp)] at hp
        exact absurd (List.isPrefixOf_iff_prefix.1 hp).isInfix h
    · rcases ih htail with hfind | ⟨short, rfl, hfind⟩
      · exact .inl (by rw [hfind]; rfl)
      · exact .inr ⟨a :: short, rfl, by rw [hfind]; rfl⟩

/-- A line break begins a terminator only if another one follows. -/
theorem findTerminator_crlf {bs : Bytes} (h : 13 ∉ bs.head?) :
    findTerminator (13 :: 10 :: bs) = (findTerminator bs).map (· + 2) := by
  have hfirst : terminator.isPrefixOf (13 :: 10 :: bs) = false := by
    cases bs with
    | nil => rfl
    | cons a bs =>
      have ha : 13 ≠ a := fun heq => h (by simp [heq])
      simp [terminator, List.isPrefixOf, ha]
  have hsecond : terminator.isPrefixOf (10 :: bs) = false := rfl
  rw [findTerminator, hfirst, findTerminator, hsecond]
  cases findTerminator bs <;> rfl

/-! ## A body in front of a header -/

theorem not_isBlank_of_opensValue {c : Char} (h : Json.opensValue c = true) :
    isBlank c = false ∧ c.toLower ≠ 'c' ∧ c ≠ ':' := by
  have hdigits : ∀ n < 58, 48 ≤ n → isBlank (Char.ofNat n) = false ∧
      (Char.ofNat n).toLower ≠ 'c' ∧ Char.ofNat n ≠ ':' := by decide
  simp only [Json.opensValue, Bool.or_eq_true, decide_eq_true_eq] at h
  rcases h with ((((((h | rfl) | rfl) | rfl) | rfl) | rfl) | rfl) | rfl
  · simp only [Char.isDigit, Bool.and_eq_true, decide_eq_true_eq, ge_iff_le,
      UInt32.le_iff_toNat_le] at h
    change 48 ≤ c.toNat ∧ c.toNat ≤ 57 at h
    have hc := hdigits c.toNat (by omega) h.1
    rwa [Char.ofNat_toNat] at hc
  all_goals decide

/-- A line that begins as a JSON text does has no field for a length. -/
theorem lengthValue?_of_opensValue {c : Char} (h : Json.opensValue c = true) (cs : List Char) :
    lengthValue? (c :: cs) = none := by
  obtain ⟨hblank, hname, hcolon⟩ := not_isBlank_of_opensValue h
  rw [lengthValue?, splitAtFirst]
  split
  · rfl
  · have hlower : (trimBlanks ((c :: cs).takeWhile (· ≠ ':'))).map Char.toLower ≠
        "content-length".toList := by
      rw [List.takeWhile_cons, if_pos (by simpa using hcolon), trimBlanks_cons hblank,
        List.map_cons]
      intro heq
      exact hname (List.head_eq_of_cons_eq heq)
    simp only [Option.bind_eq_bind, Option.bind_some, if_neg hlower]

/-- **A body that is left in front of a header takes its length from it.** -/
theorem contentLength_behind_body {gap : List Char} (hgap : gap = [] ∨ gap = ['\r', '\n'])
    (w : Json) (n : Nat) :
    contentLength (Utf8.encode (gap ++ w.chars ++ headerText n)) = .error .missingLength := by
  obtain ⟨c, cs, hcs, hopens⟩ := Json.chars_eq_cons w
  have hline : headerLines (w.chars ++ headerText n) = [w.chars ++ headerText n] := by
    refine headerLines_of_not_mem ?_
    rw [List.mem_append]
    rintro (h | h)
    · exact Json.not_mem_chars w h
    · exact not_mem_headerText n h
  have hlost : lengthOf none (headerLines (w.chars ++ headerText n)) = .ok none := by
    rw [hline, hcs, List.cons_append, lengthOf, lengthValue?_of_opensValue hopens]
    rfl
  rw [contentLength, Utf8.lossy_encode]
  rcases hgap with rfl | rfl
  · rw [List.nil_append, hlost]
  · have hempty : lengthValue? [] = none := by decide
    rw [List.append_assoc, List.cons_append, List.cons_append, List.nil_append, headerLines_crlf,
      lengthOf, hempty]
    simp only [hlost]

theorem head?_encode_chars (v : Json) (more : Bytes) :
    13 ∉ (Utf8.encode v.chars ++ more).head? := by
  obtain ⟨c, cs, hcs, -⟩ := Json.chars_eq_cons v
  have hmem := not_mem_encode (Json.not_mem_chars v)
  cases hbytes : Utf8.encode v.chars with
  | nil =>
    have hnil : v.chars = [] := Utf8.encode_injective hbytes
    rw [hcs] at hnil
    cases hnil
  | cons a bytes =>
    rw [hbytes] at hmem
    intro h
    exact hmem (by simp [Option.some.inj h])

/-- A line break that is left over in front of a body only moves the terminator that is found. -/
theorem findTerminator_gap {gap : List Char} (hgap : gap = [] ∨ gap = ['\r', '\n']) (w : Json)
    (more : Bytes) :
    findTerminator (Utf8.encode gap ++ (Utf8.encode w.chars ++ more)) =
      (findTerminator (Utf8.encode w.chars ++ more)).map (· + (Utf8.encode gap).length) := by
  rcases hgap with rfl | rfl
  · exact Option.map_id'.symm
  · exact findTerminator_crlf (head?_encode_chars w more)

end Frame

namespace Decoder

open State

/-! ## How the stream goes on -/

/-- A rejected header is used up, but for a line break that ends its terminator again. -/
theorem step_rejected {header : Bytes} {e : FrameError}
    (hnone : ¬ Frame.terminator <:+: header) (herr : Frame.contentLength header = .error e)
    (more : Bytes) : ∃ gap : List Char, (gap = [] ∨ gap = ['\r', '\n']) ∧
      State.step ⟨header ++ (Frame.terminator ++ more), none⟩ =
        (some (.error e), ⟨Utf8.encode gap ++ more, none⟩) := by
  rcases Frame.findTerminator_behind hnone more with hfind | ⟨short, rfl, hfind⟩
  · exact ⟨[], .inl rfl, step_frame_rejected hfind herr⟩
  · refine ⟨['\r', '\n'], .inr rfl, ?_⟩
    have htake : (short ++ [13, 10] ++ (Frame.terminator ++ more)).take short.length = short := by
      rw [List.append_assoc, List.take_left]
    have hdrop : (short ++ [13, 10] ++ (Frame.terminator ++ more)).drop (short.length + 4) =
        [13, 10] ++ more := by
      rw [List.append_assoc, List.drop_append, List.drop_eq_nil_of_le (Nat.le_add_right _ _),
        Nat.add_sub_cancel_left]
      rfl
    rw [Frame.contentLength_append_crlf] at herr
    simp only [step, hfind, htake, herr, hdrop]
    rfl

/-- A body that is left over makes the next frame a rejected one, whose body is left over. -/
theorem step_behind_body {gap : List Char} (hgap : gap = [] ∨ gap = ['\r', '\n']) (w v : Json)
    (more : Bytes) :
    State.step ⟨Utf8.encode (gap ++ w.chars) ++ (Frame.encode v ++ more), none⟩ =
      (some (.error .missingLength), ⟨Utf8.encode v.chars ++ more, none⟩) := by
  let line := w.chars ++ Frame.headerText (Utf8.encode v.chars).length
  have hbytes : Utf8.encode (gap ++ w.chars) ++ (Frame.encode v ++ more) =
      Utf8.encode (gap ++ line) ++ (Frame.terminator ++ (Utf8.encode v.chars ++ more)) := by
    rw [Frame.encode, Frame.wrap_eq, ← List.append_assoc gap, Utf8.encode_append (gap ++ w.chars)]
    simp only [List.append_assoc]
  have hmem : '\r' ∉ line := by
    rw [List.mem_append]
    rintro (h | h)
    · exact Json.not_mem_chars w h
    · exact Frame.not_mem_headerText _ h
  have hfind : Frame.findTerminator
      (Utf8.encode (gap ++ line) ++ (Frame.terminator ++ (Utf8.encode v.chars ++ more))) =
      some (Utf8.encode (gap ++ line)).length := by
    have hline := Frame.findTerminator_block (Frame.not_mem_encode hmem)
      (Utf8.encode v.chars ++ more)
    have hgapped := Frame.findTerminator_gap hgap w
      (Utf8.encode (Frame.headerText (Utf8.encode v.chars).length) ++
        (Frame.terminator ++ (Utf8.encode v.chars ++ more)))
    rw [← List.append_assoc (Utf8.encode w.chars), ← Utf8.encode_append, hline, ← List.append_assoc,
      ← Utf8.encode_append, Option.map_some] at hgapped
    rw [hgapped, Utf8.encode_append gap, List.length_append, Nat.add_comm]
  have hlost : Frame.contentLength (Utf8.encode (gap ++ line)) = .error .missingLength := by
    rw [← List.append_assoc]
    exact Frame.contentLength_behind_body hgap w _
  rw [hbytes]
  exact step_frame_rejected hfind hlost

/-- The bytes left over when the frames of some values have followed bytes left over. -/
def leftOver (bytes : Bytes) : List Json → Bytes
  | [] => bytes
  | v :: vs => leftOver (Utf8.encode v.chars) vs

/-- What a decoder says of bytes that hold no terminator and to which nothing is added. -/
def noise (bytes : Bytes) : List Framer.Result :=
  if bytes.length ≤ Frame.maxHeader then []
  else [.error (.noHeader (Framer.noiseLength bytes))]

/-- What is kept of too much noise is not too much. -/
theorem length_sub_noiseLength_le (bytes : Bytes) :
    bytes.length - Framer.noiseLength bytes ≤ Frame.maxHeader := by
  have hmax : Frame.maxHeader = 8192 := rfl
  unfold Framer.noiseLength
  split
  · split
    · next hi =>
      simp only [Bool.and_eq_true, decide_eq_true_eq] at hi
      exact hi.2
    · omega
  · omega

/-- What a decoder keeps of such bytes. -/
def kept (bytes : Bytes) : Bytes :=
  if bytes.length ≤ Frame.maxHeader then bytes else bytes.drop (Framer.noiseLength bytes)

/-- Bytes that hold no terminator are kept, or dropped as noise but for a part that is kept. -/
theorem drains_noise {bytes : Bytes} (h : Frame.findTerminator bytes = none) :
    Drains ⟨bytes, none⟩ (noise bytes) ⟨kept bytes, none⟩ := by
  unfold noise kept
  split
  · next hlen => exact .rest (by simp only [step, h, if_pos hlen])
  · next hlen =>
    have hrest : Frame.findTerminator (bytes.drop (Framer.noiseLength bytes)) = none :=
      Frame.findTerminator_drop_of_none h _
    have hkept : (bytes.drop (Framer.noiseLength bytes)).length ≤ Frame.maxHeader := by
      rw [List.length_drop]
      exact length_sub_noiseLength_le bytes
    have hdrop : State.step ⟨bytes, none⟩ =
        (some (.error (.noHeader (Framer.noiseLength bytes))),
          ⟨bytes.drop (Framer.noiseLength bytes), none⟩) := by
      simp only [step, h, if_neg hlen]
    exact .more hdrop (.rest (by simp only [step, hrest, if_pos hkept]))

/-- **Behind a body that is left over no frame is read**, however many follow. -/
theorem drains_behind_body {gap : List Char} (hgap : gap = [] ∨ gap = ['\r', '\n']) (w : Json)
    (vs : List Json) :
    ∃ s, Drains ⟨Utf8.encode (gap ++ w.chars) ++ vs.flatMap Frame.encode, none⟩
      (vs.map (fun _ => .error .missingLength) ++
        noise (leftOver (Utf8.encode (gap ++ w.chars)) vs)) s := by
  induction vs generalizing gap w with
  | nil =>
    have hbody : Frame.findTerminator (Utf8.encode w.chars) = none :=
      Frame.findTerminator_of_not_mem (Frame.not_mem_encode (Json.not_mem_chars w))
    have hnone : Frame.findTerminator (Utf8.encode (gap ++ w.chars)) = none := by
      have hgapped := Frame.findTerminator_gap hgap w []
      rwa [List.append_nil, hbody, ← Utf8.encode_append] at hgapped
    exact ⟨_, by simpa [leftOver] using drains_noise hnone⟩
  | cons v vs ih =>
    obtain ⟨s, hs⟩ := ih (.inl rfl) v
    rw [List.nil_append] at hs
    exact ⟨s, .more (step_behind_body hgap w v _) hs⟩

end Decoder

namespace Framer

open Decoder

/-- A rejected header with its body, and the frames of some values behind it. -/
def rejectedStream (header : Bytes) (w : Json) (vs : List Json) : Bytes :=
  header ++ (Frame.terminator ++ (Utf8.encode w.chars ++ vs.flatMap Frame.encode))

/-- What is read of a stream that begins with a rejected header: one more error for each frame,
and noise if the last body is long. -/
theorem feed_rejected {header : Bytes} {e : FrameError} (hnone : ¬ Frame.terminator <:+: header)
    (herr : Frame.contentLength header = .error e) (w : Json) (vs : List Json) :
    ∃ bytes, (empty.feed (rejectedStream header w vs)).1 =
      .error e :: (vs.map (fun _ => .error .missingLength) ++ noise (leftOver bytes vs)) := by
  obtain ⟨gap, hgap, hstep⟩ :=
    step_rejected hnone herr (Utf8.encode w.chars ++ vs.flatMap Frame.encode)
  rw [← List.append_assoc (Utf8.encode gap), ← Utf8.encode_append] at hstep
  obtain ⟨s, hs⟩ := drains_behind_body hgap w vs
  obtain ⟨hfeed, -⟩ := drains_feed valid_empty (rejectedStream header w vs)
  exact ⟨_, (hfeed.unique (.more hstep hs)).1⟩

/-- Whether a decoder that has met an error finds back: what it reads afterwards are all the values
that follow, or all but the first. -/
def Recovers (e : FrameError) (vs : List Json) (results : List Result) : Prop :=
  ∃ rest, results = .error e :: rest ∧
    (rest.filterMap Except.toOption = vs ∨ rest.filterMap Except.toOption = vs.drop 1)

/-- **After a rejected header with a body no frame is read any more**, so that the stream finds
back only where at most one follows. -/
theorem recovers_iff_length_le_one {header : Bytes} {e : FrameError}
    (hnone : ¬ Frame.terminator <:+: header) (herr : Frame.contentLength header = .error e)
    (w : Json) (vs : List Json) :
    (empty.feed (rejectedStream header w vs)).1.filterMap Except.toOption = [] ∧
      (Recovers e vs (empty.feed (rejectedStream header w vs)).1 ↔ vs.length ≤ 1) := by
  obtain ⟨bytes, hresults⟩ := feed_rejected hnone herr w vs
  have hlost : (vs.map (fun _ => Except.error FrameError.missingLength) ++
      noise (leftOver bytes vs)).filterMap Except.toOption = ([] : List Json) := by
    rw [List.filterMap_append, List.filterMap_map, noise]
    split <;> simp [Function.comp_def, Except.toOption]
  rw [hresults]
  refine ⟨by rw [List.filterMap_cons, hlost]; rfl, ?_⟩
  constructor
  · rintro ⟨rest, hrest, hread⟩
    cases hrest
    rw [hlost] at hread
    rcases hread with hread | hread
    · rw [← hread]
      exact Nat.zero_le 1
    · exact List.drop_eq_nil_iff.1 hread.symm
  · intro hlen
    exact ⟨_, rfl, .inr (by rw [hlost, List.drop_eq_nil_of_le hlen])⟩

theorem recovers_iff_length_le_one_invalid :
    ¬ Frame.terminator <:+: Utf8.ofString "Content-Length: nope" ∧
      Frame.contentLength (Utf8.ofString "Content-Length: nope") =
        .error (.invalidLength "nope") ∧
      ¬ Recovers (.invalidLength "nope") [.int 2, .int 3]
        (empty.feed (rejectedStream (Utf8.ofString "Content-Length: nope") (.int 1)
          [.int 2, .int 3])).1 := by
  have hnone : ¬ Frame.terminator <:+: Utf8.ofString "Content-Length: nope" := by
    rw [← Frame.findTerminator_eq_none_iff]
    exact Frame.findTerminator_of_not_mem (Frame.not_mem_encode (by decide))
  have herr : Frame.contentLength (Utf8.ofString "Content-Length: nope") =
      .error (.invalidLength "nope") := by
    have hlines : Frame.headerLines "Content-Length: nope".toList =
        ["Content-Length: nope".toList] := Frame.headerLines_of_not_mem (by decide)
    have hvalue : Frame.lengthValue? "Content-Length: nope".toList = some "nope".toList := by decide
    have hnumber : readNatural bound64 "nope".toList = none := by decide
    rw [Frame.contentLength, Utf8.ofString, Utf8.lossy_encode, hlines, Frame.lengthOf, hvalue]
    simp only [hnumber]
    rfl
  refine ⟨hnone, herr, ?_⟩
  rw [(recovers_iff_length_le_one hnone herr (.int 1) [.int 2, .int 3]).2]
  decide

end Framer

end LanguageClient
