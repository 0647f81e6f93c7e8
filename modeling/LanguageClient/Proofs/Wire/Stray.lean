import LanguageClient.Proofs.Wire.Rejection

/-!
# Stray output

What a server writes beside its frames, and where it is cut. Too much output before the end of a
header is dropped up to its last line break (`Frame.place_of_overflow`). As long as that is a line
break of the stray output, the header that follows stays whole, and it is read unless what is left
of the line that was cut passes for a length field (`Frame.Stray.contentLength_left`).
-/

namespace LanguageClient

namespace Frame

/-! ## The last line break -/

theorem lastLineBreak_append {bs : Bytes} {i : Nat} (h : lastLineBreak bs = some i) (as : Bytes) :
    lastLineBreak (as ++ bs) = some (as.length + i) := by
  induction as with
  | nil => simpa using h
  | cons a as ih =>
    rw [List.cons_append, lastLineBreak, ih, List.length_cons, Nat.add_right_comm]

theorem lastLineBreak_le {bs : Bytes} {i : Nat} (h : lastLineBreak bs = some i) :
    i + 2 ≤ bs.length := by
  induction bs generalizing i with
  | nil => cases h
  | cons a bs ih =>
    rw [lastLineBreak] at h
    split at h
    · next j hj =>
      cases h
      have := ih hj
      rw [List.length_cons]
      omega
    · split at h
      · next hp =>
        cases h
        simpa using (List.isPrefixOf_iff_prefix.1 hp).length_le
      · cases h

/-- A carriage return at the very end is no line break yet. -/
theorem lastLineBreak_of_not_mem {bs : Bytes} (h : 13 ∉ bs.dropLast) : lastLineBreak bs = none := by
  induction bs with
  | nil => rfl
  | cons a bs ih =>
    cases bs with
    | nil => simp [lastLineBreak, List.isPrefixOf]
    | cons b bs =>
      rw [List.dropLast_cons_cons, List.mem_cons, not_or] at h
      have hp : ¬ [13, 10].isPrefixOf (a :: b :: bs) = true := by
        simp [List.isPrefixOf, h.1]
      rw [lastLineBreak, ih h.2]
      exact if_neg hp

/-- What is dropped of too much noise leaves at least two bytes. -/
theorem noiseLength_add_two_le {bs : Bytes} (h : maxHeader < bs.length) :
    Framer.noiseLength bs + 2 ≤ bs.length := by
  have hmax : maxHeader = 8192 := rfl
  unfold Framer.noiseLength
  split
  · next i hi =>
    have := lastLineBreak_le hi
    split <;> omega
  · omega

/-- Noise is dropped up to its last line break, if little follows it. -/
theorem noiseLength_of_lastLineBreak {as bs : Bytes} (has : 0 < as.length)
    (hbs : bs.length + 2 ≤ maxHeader) (hlast : lastLineBreak (10 :: bs) = none) :
    Framer.noiseLength (as ++ 13 :: 10 :: bs) = as.length := by
  have hbreak : lastLineBreak (13 :: 10 :: bs) = some 0 := by
    rw [lastLineBreak, hlast]
    rfl
  have hkept : (0 < as.length && (as ++ 13 :: 10 :: bs).length - as.length ≤ maxHeader) = true := by
    simp only [List.length_append, List.length_cons, Bool.and_eq_true, decide_eq_true_eq]
    omega
  rw [Framer.noiseLength, lastLineBreak_append hbreak]
  exact if_pos hkept

/-! ## Stray output -/

/-- Output beside the frames: it ends with a line, none of its lines closes a header block, and none
of them is a length field. -/
structure Stray (stray : Bytes) : Prop where
  ends : [13, 10] <:+ stray
  clean : ¬ terminator <:+: stray
  plain : ∀ line ∈ headerLines (Utf8.lossy stray), lengthValue? line = none

/-- A header of one line that is far shorter than what may wait for the end of one. -/
structure HeaderLine (header : Bytes) : Prop where
  single : 13 ∉ header
  filled : header ≠ []
  short : header.length + 4 ≤ maxHeader

theorem headerLine_headerText {n : Nat} (h : n ≤ maxLength) :
    HeaderLine (Utf8.encode (headerText n)) where
  single := not_mem_encode (not_mem_headerText n)
  filled := by
    intro heq
    have hname : lengthField = [] := (List.append_eq_nil_iff.1 (Utf8.encode_injective heq)).1
    exact absurd hname (by decide)
  short := length_headerText_le h

/-- The terminator behind a header is the first one also with stray output before the header. -/
theorem findTerminator_behind_stray {stray header : Bytes} (hends : [13, 10] <:+ stray)
    (hclean : ¬ terminator <:+: stray) (hheader : HeaderLine header) (more : Bytes) :
    findTerminator (stray ++ (header ++ (terminator ++ more))) =
      some (stray.length + header.length) := by
  induction stray with
  | nil => exact absurd hends.length_le (by simp)
  | cons a stray ih =>
    rcases List.suffix_cons_iff.1 hends with heq | hrest
    · -- nothing but the line break is left, and no other one follows it
      cases heq
      have hhead : 13 ∉ (header ++ (terminator ++ more)).head? := by
        cases header with
        | nil => exact absurd rfl hheader.filled
        | cons b header => exact fun h => hheader.single (by simp [Option.some.inj h])
      rw [List.cons_append, List.cons_append, List.nil_append, findTerminator_crlf hhead,
        findTerminator_block hheader.single, Option.map_some, Nat.add_comm]
      rfl
    · have hfirst : ¬ terminator.isPrefixOf (a :: (stray ++ (header ++ (terminator ++ more)))) =
          true := by
        intro hp
        by_cases hlen : 4 ≤ (a :: stray).length
        · rw [← List.cons_append, terminator_isPrefixOf_append hlen] at hp
          exact hclean (List.isPrefixOf_iff_prefix.1 hp).isInfix
        · obtain rfl : [13, 10] = stray :=
            hrest.eq_of_length (by have := hrest.length_le; simp at this hlen ⊢; omega)
          simp [terminator, List.isPrefixOf] at hp
      have hstray := ih hrest fun hin => hclean (hin.trans (List.suffix_cons a stray).isInfix)
      rw [List.cons_append, findTerminator, if_neg hfirst, hstray, Option.map_some,
        List.length_cons, Nat.add_right_comm]

theorem lengthValue?_of_not_mem {line : List Char} (h : ':' ∉ line) : lengthValue? line = none := by
  have hall : ∀ c ∈ line, decide (c ≠ ':') = true := by
    intro c hc
    simpa using fun heq : c = ':' => h (heq ▸ hc)
  have hnone : line.dropWhile (· ≠ ':') = [] := by
    rw [← List.append_nil line, List.dropWhile_append_of_pos hall]
    rfl
  rw [lengthValue?, splitAtFirst, hnone]
  rfl

/-! ## The line that a cut goes through -/

/-- Whether stray output whose first `dropped` bytes are gone begins with the rest of a line that
passes for a length field without a number. -/
def CutsLine (stray : Bytes) (dropped : Nat) : Prop :=
  ∃ line rest value, stray.drop dropped = line ++ 13 :: 10 :: rest ∧ ¬ [13, 10] <:+: line ∧
    contentLength line = .error (.invalidLength value)

theorem exists_firstLine {bs : Bytes} (h : [13, 10] <:+: bs) :
    ∃ line rest, bs = line ++ 13 :: 10 :: rest ∧ ¬ [13, 10] <:+: line := by
  induction bs with
  | nil => simp at h
  | cons a bs ih =>
    by_cases hp : [13, 10] <+: a :: bs
    · obtain ⟨rest, hrest⟩ := hp
      exact ⟨[], rest, hrest.symm, by simp⟩
    · obtain ⟨line, rest, rfl, hline⟩ := ih ((List.infix_cons_iff.1 h).resolve_left hp)
      refine ⟨a :: line, rest, rfl, fun hin => ?_⟩
      rcases List.infix_cons_iff.1 hin with hin | hin
      · exact hp (hin.trans ⟨13 :: 10 :: rest, rfl⟩)
      · exact hline hin

theorem contentLength_eq_invalidLength {header : Bytes} {value : String} :
    contentLength header = .error (.invalidLength value) ↔
      lengthOf none (headerLines (Utf8.lossy header)) = .error (.invalidLength value) := by
  unfold contentLength
  split
  · next e h => simp [h]
  · next h => simp [h]
  · next n h => split <;> simp [h]

/-- The header is the last line behind lines that end with a line break, and its length counts
unless one of them is at fault. -/
theorem contentLength_behind_lines {lines : Bytes} (hends : [13, 10] <:+ lines) {n : Nat}
    (hn : n ≤ maxLength) :
    contentLength (lines ++ Utf8.encode (headerText n)) =
      (lengthOf none (headerLines (Utf8.lossy lines))).map fun _ => n := by
  obtain ⟨as, rfl⟩ := hends
  have hbound : n < bound64 := Nat.lt_of_le_of_lt hn (by decide)
  have hlast : headerLines (Utf8.lossy []) = [[]] := rfl
  have hheader : headerLines (Utf8.lossy (Utf8.encode (headerText n))) = [headerText n] := by
    rw [Utf8.lossy_encode, headerLines_of_not_mem (not_mem_headerText n)]
  have hsplit : as ++ [13, 10] ++ Utf8.encode (headerText n) =
      as ++ 13 :: 10 :: Utf8.encode (headerText n) := List.append_assoc as [13, 10] _
  rw [hsplit, contentLength, headerLines_lossy_append_crlf, hheader, lengthOf_append,
    headerLines_lossy_append_crlf as [], hlast, lengthOf_append_nil]
  cases lengthOf none (headerLines (Utf8.lossy as)) with
  | error e => rfl
  | ok found =>
    simp only [Except.bind, Except.map, lengthOf, lengthValue?_headerText,
      readNatural_natDigits hbound, if_neg (Nat.not_lt.2 hn)]

namespace Stray

variable {stray : Bytes} {dropped : Nat}

theorem ends_drop (h : Stray stray) (hd : dropped + 2 ≤ stray.length) :
    [13, 10] <:+ stray.drop dropped := by
  refine List.suffix_of_suffix_length_le h.ends (List.drop_suffix dropped stray) ?_
  rw [List.length_drop, List.length_cons, List.length_singleton]
  omega

/-- Of what is left of stray output only the first line can be a length field: the others are lines
of it. -/
theorem lengthOf_drop (h : Stray stray) {line rest : Bytes}
    (hdrop : stray.drop dropped = line ++ 13 :: 10 :: rest) :
    lengthOf none (headerLines (Utf8.lossy (stray.drop dropped))) =
      lengthOf none (headerLines (Utf8.lossy line)) := by
  have hplain : ∀ l ∈ headerLines (Utf8.lossy rest), lengthValue? l = none := by
    intro l hl
    have hwhole : stray = (stray.take dropped ++ line) ++ 13 :: 10 :: rest := by
      rw [List.append_assoc, ← hdrop, List.take_append_drop]
    refine h.plain l ?_
    rw [hwhole, headerLines_lossy_append_crlf]
    exact List.mem_append_right _ hl
  rw [hdrop, headerLines_lossy_append_crlf, lengthOf_append]
  cases lengthOf none (headerLines (Utf8.lossy line)) with
  | error e => rfl
  | ok found => exact lengthOf_of_plain hplain found

theorem cutsLine_iff (h : Stray stray) (hd : dropped + 2 ≤ stray.length) :
    CutsLine stray dropped ↔ ∃ value,
      lengthOf none (headerLines (Utf8.lossy (stray.drop dropped))) =
        .error (.invalidLength value) := by
  constructor
  · rintro ⟨line, rest, value, hdrop, -, hvalue⟩
    exact ⟨value, (h.lengthOf_drop hdrop).trans (contentLength_eq_invalidLength.1 hvalue)⟩
  · rintro ⟨value, hvalue⟩
    obtain ⟨line, rest, hdrop, hline⟩ := exists_firstLine (h.ends_drop hd).isInfix
    rw [h.lengthOf_drop hdrop] at hvalue
    exact ⟨line, rest, value, hdrop, hline, contentLength_eq_invalidLength.2 hvalue⟩

variable {n : Nat}

/-- A header that is whole is read, unless a line before it was cut. -/
theorem contentLength_of_not_cutsLine (h : Stray stray) (hd : dropped + 2 ≤ stray.length)
    (hn : n ≤ maxLength) (hcuts : ¬ CutsLine stray dropped) :
    contentLength (stray.drop dropped ++ Utf8.encode (headerText n)) = .ok n := by
  rw [contentLength_behind_lines (h.ends_drop hd) hn]
  cases hlines : lengthOf none (headerLines (Utf8.lossy (stray.drop dropped))) with
  | ok found => rfl
  | error e =>
    obtain ⟨value, rfl⟩ := lengthOf_eq_error hlines
    exact absurd ((h.cutsLine_iff hd).2 ⟨value, hlines⟩) hcuts

theorem contentLength_of_cutsLine (h : Stray stray) (hd : dropped + 2 ≤ stray.length)
    (hn : n ≤ maxLength) (hcuts : CutsLine stray dropped) :
    ∃ e, contentLength (stray.drop dropped ++ Utf8.encode (headerText n)) = .error e := by
  obtain ⟨value, hvalue⟩ := (h.cutsLine_iff hd).1 hcuts
  rw [contentLength_behind_lines (h.ends_drop hd) hn, hvalue]
  exact ⟨_, rfl⟩

/-- The header block that is left is read if the header is whole and no line before it was cut so
that it passes for a length field, and rejected otherwise. -/
theorem contentLength_left (h : Stray stray) (hn : n ≤ maxLength)
    (hplace : dropped + 2 ≤ stray.length ∨
      dropped = stray.length + (Utf8.encode (headerText n)).length) :
    (¬ dropped = stray.length + (Utf8.encode (headerText n)).length ∧ ¬ CutsLine stray dropped ∧
      contentLength ((stray ++ Utf8.encode (headerText n)).drop dropped) = .ok n) ∨
    ((dropped = stray.length + (Utf8.encode (headerText n)).length ∨ CutsLine stray dropped) ∧
      ∃ e, contentLength ((stray ++ Utf8.encode (headerText n)).drop dropped) = .error e) := by
  rcases hplace with hd | rfl
  · rw [List.drop_append_of_le_length (by omega)]
    by_cases hline : CutsLine stray dropped
    · exact .inr ⟨.inr hline, h.contentLength_of_cutsLine hd hn hline⟩
    · exact .inl ⟨by omega, hline, h.contentLength_of_not_cutsLine hd hn hline⟩
  · -- nothing of the header is left
    rw [← List.length_append, List.drop_length]
    exact .inr ⟨.inl rfl, .missingLength, rfl⟩

end Stray

/-! ## Where a cut goes -/

/-- Behind a line break no other one is complete before the end of the next line. -/
theorem lastLineBreak_take {line more : Bytes} (h : 13 ∉ line) {k : Nat}
    (hk : k ≤ line.length + 1) :
    lastLineBreak (10 :: (line ++ 13 :: 10 :: more).take k) = none := by
  refine lastLineBreak_of_not_mem fun hmem => ?_
  have hlast : ((line ++ 13 :: 10 :: more).take k).dropLast = line.take (k - 1) := by
    rw [List.dropLast_take (by rw [List.length_append, List.length_cons, List.length_cons]; omega),
      List.take_append_of_le_length (by omega)]
  cases hpart : (line ++ 13 :: 10 :: more).take k with
  | nil => simp [hpart] at hmem
  | cons b part =>
    rw [hpart, List.dropLast_cons_cons, List.mem_cons, ← hpart, hlast] at hmem
    rcases hmem with hmem | hmem
    · exact absurd hmem (by decide)
    · exact h (List.mem_of_mem_take hmem)

/-- Too much output that ends within a line or with its carriage return is cut at the line break
before the line. -/
theorem add_noiseLength_drop {as line more p : Bytes} {dropped : Nat} (hline : 13 ∉ line)
    (hshort : line.length + 3 ≤ maxHeader) (hp : p <+: as ++ 13 :: 10 :: (line ++ 13 :: 10 :: more))
    (hlow : as.length + 2 ≤ p.length) (hhigh : p.length ≤ as.length + line.length + 3)
    (hd : dropped ≤ as.length) (hover : maxHeader < (p.drop dropped).length) :
    dropped + Framer.noiseLength (p.drop dropped) = as.length := by
  let part := (line ++ 13 :: 10 :: more).take (p.length - (as.length + 2))
  have hlast : lastLineBreak (10 :: part) = none := lastLineBreak_take hline (by omega)
  have hpart : p = as ++ 13 :: 10 :: part := by
    have htake := List.prefix_iff_eq_take.1 hp
    obtain ⟨k, hk⟩ := Nat.exists_eq_add_of_le hlow
    have hrest : p.length - (as.length + 2) = k := by omega
    rw [List.take_append, List.take_of_length_le (by omega),
      show p.length - as.length = k + 2 by omega, List.take_succ_cons, List.take_succ_cons] at htake
    simpa only [part, hrest] using htake
  have hlength : p.length = as.length + part.length + 2 := by
    rw [hpart, List.length_append, List.length_cons, List.length_cons]
    rfl
  rw [List.length_drop] at hover
  have hpos : 0 < (as.drop dropped).length := by
    rw [List.length_drop]
    omega
  rw [hpart, List.drop_append_of_le_length hd, noiseLength_of_lastLineBreak hpos (by omega) hlast,
    List.length_drop]
  omega

/-- **Too much output before the end of a header is cut at a line break of the stray output**, as
long as the line break behind the header is not there; then it is cut at that one. -/
theorem place_of_overflow {stray header more p : Bytes} {dropped : Nat}
    (hends : [13, 10] <:+ stray) (hheader : HeaderLine header)
    (hp : p <+: stray ++ (header ++ (terminator ++ more)))
    (hlen : p.length < stray.length + header.length + 4) (hd : dropped + 2 ≤ stray.length)
    (hover : maxHeader < (p.drop dropped).length) :
    (p.length < stray.length + header.length + 2 →
      dropped + Framer.noiseLength (p.drop dropped) + 2 ≤ stray.length) ∧
    (stray.length + header.length + 2 ≤ p.length →
      dropped + Framer.noiseLength (p.drop dropped) = stray.length + header.length) := by
  have hall := noiseLength_add_two_le hover
  have hshort := hheader.short
  rw [List.length_drop] at hall
  refine ⟨fun hlow => ?_, fun hhigh => ?_⟩
  · by_cases hin : p.length ≤ stray.length
    · omega
    · -- the last line break is the one that ends the stray output
      obtain ⟨as, rfl⟩ := hends
      have hlength : (as ++ [13, 10]).length = as.length + 2 := List.length_append
      rw [List.append_assoc] at hp
      have hplace := add_noiseLength_drop hheader.single (by omega) hp (by omega) (by omega)
        (by omega) hover
      omega
  · -- the last line break is the one behind the header
    rw [← List.append_assoc] at hp
    have hlength : (stray ++ header).length = stray.length + header.length := List.length_append
    have hempty : 13 ∉ ([] : Bytes) := List.not_mem_nil
    rw [← hlength]
    exact add_noiseLength_drop hempty (by decide) hp (by omega) (by simp; omega) (by omega) hover

end Frame

end LanguageClient
