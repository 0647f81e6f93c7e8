import LanguageClient.Wire.Frame
import LanguageClient.Proofs.Text.Blank
import LanguageClient.Proofs.Text.Numeral
import LanguageClient.Proofs.Text.Utf8

/-!
# Header blocks

Where a header block ends and what length it gives. The search for the terminator is characterised
by what it finds (the leftmost occurrence), by what more output does to it (nothing, once it has
found one) and by how it resumes (from the last three bytes of what was searched in vain).
-/

namespace LanguageClient.Frame

/-! ## The search for the terminator -/

theorem terminator_isPrefixOf_append {bs : Bytes} (h : 4 ≤ bs.length) (more : Bytes) :
    terminator.isPrefixOf (bs ++ more) = terminator.isPrefixOf bs := by
  rw [Bool.eq_iff_iff, List.isPrefixOf_iff_prefix, List.isPrefixOf_iff_prefix]
  constructor
  · intro hp
    exact List.prefix_of_prefix_length_le hp (List.prefix_append bs more) h
  · intro hp
    exact hp.trans (List.prefix_append bs more)

theorem terminator_length_le {bs : Bytes} (h : terminator.isPrefixOf bs = true) :
    4 ≤ bs.length :=
  (List.isPrefixOf_iff_prefix.1 h).length_le

/-- What was found lies in the searched bytes as a whole. -/
theorem findTerminator_le {bs : Bytes} {i : Nat} (h : findTerminator bs = some i) :
    i + 4 ≤ bs.length := by
  induction bs generalizing i with
  | nil => cases h
  | cons a bs ih =>
    rw [findTerminator] at h
    split at h
    · next hp =>
      cases h
      simpa using terminator_length_le hp
    · obtain ⟨j, hj, rfl⟩ := Option.map_eq_some_iff.1 h
      have := ih hj
      rw [List.length_cons]
      omega

/-- A terminator that was found is found again when more output follows. -/
theorem findTerminator_append {bs : Bytes} {i : Nat} (h : findTerminator bs = some i)
    (more : Bytes) : findTerminator (bs ++ more) = some i := by
  induction bs generalizing i with
  | nil => cases h
  | cons a bs ih =>
    have hlen := findTerminator_le h
    rw [findTerminator] at h
    rw [List.cons_append, findTerminator, ← List.cons_append,
      terminator_isPrefixOf_append (by omega)]
    split at h
    · next hp => rw [if_pos hp, h]
    · next hp =>
      obtain ⟨j, hj, rfl⟩ := Option.map_eq_some_iff.1 h
      rw [if_neg hp, ih hj, Option.map_some]

/-- Bytes searched in vain need no second search, but for the last three: they may begin a
terminator that what follows completes. -/
theorem findTerminator_append_of_none {bs : Bytes} (h : findTerminator bs = none)
    (more : Bytes) :
    findTerminator (bs ++ more) =
      (findTerminator (bs.drop (bs.length - 3) ++ more)).map (· + (bs.length - 3)) := by
  induction bs with
  | nil => simp
  | cons a bs ih =>
    by_cases hlen : 4 ≤ (a :: bs).length
    · rw [findTerminator] at h
      split at h
      · cases h
      · next hp =>
        have hnone : findTerminator bs = none := Option.map_eq_none_iff.1 h
        have hk : (a :: bs).length - 3 = bs.length - 3 + 1 := by
          rw [List.length_cons] at hlen ⊢
          omega
        rw [hk, List.drop_succ_cons, List.cons_append, findTerminator, ← List.cons_append,
          terminator_isPrefixOf_append hlen, if_neg hp, ih hnone, Option.map_map]
        rfl
    · have hk : (a :: bs).length - 3 = 0 := by omega
      rw [hk, List.drop_zero]
      simp

theorem findTerminator_drop_of_none {bs : Bytes} (h : findTerminator bs = none) (k : Nat) :
    findTerminator (bs.drop k) = none := by
  induction k generalizing bs with
  | zero => exact h
  | succ k ih =>
    cases bs with
    | nil => rfl
    | cons a bs =>
      rw [List.drop_succ_cons]
      refine ih ?_
      rw [findTerminator] at h
      split at h
      · cases h
      · exact Option.map_eq_none_iff.1 h

/-- The search finds nothing exactly where no terminator stands. -/
theorem findTerminator_eq_none_iff {bs : Bytes} :
    findTerminator bs = none ↔ ¬ terminator <:+: bs := by
  induction bs with
  | nil => simp [findTerminator, terminator]
  | cons a bs ih =>
    rw [findTerminator, List.infix_cons_iff, ← List.isPrefixOf_iff_prefix]
    by_cases hp : terminator.isPrefixOf (a :: bs) = true
    · simp [hp]
    · rw [if_neg hp, Option.map_eq_none_iff, ih]
      simp [hp]

/-- The search finds the first of the terminators that stand in the bytes. -/
theorem findTerminator_eq_some_iff {bs : Bytes} {i : Nat} :
    findTerminator bs = some i ↔
      terminator <+: bs.drop i ∧ ∀ j < i, ¬ terminator <+: bs.drop j := by
  induction bs generalizing i with
  | nil => simp [findTerminator, terminator]
  | cons a bs ih =>
    by_cases hp : terminator <+: a :: bs
    · rw [findTerminator, if_pos (List.isPrefixOf_iff_prefix.2 hp), Option.some.injEq]
      constructor
      · rintro rfl
        exact ⟨hp, fun j hj => absurd hj (Nat.not_lt_zero j)⟩
      · rintro ⟨-, hfirst⟩
        cases i with
        | zero => rfl
        | succ k => exact absurd hp (hfirst 0 (Nat.succ_pos k))
    · rw [findTerminator, if_neg fun h => hp (List.isPrefixOf_iff_prefix.1 h),
        Option.map_eq_some_iff]
      constructor
      · rintro ⟨k, hk, rfl⟩
        obtain ⟨hat, hfirst⟩ := ih.1 hk
        refine ⟨hat, fun j hj => ?_⟩
        cases j with
        | zero => exact hp
        | succ j => exact hfirst j (by omega)
      · rintro ⟨hat, hfirst⟩
        cases i with
        | zero => exact absurd hat hp
        | succ k => exact ⟨k, ih.2 ⟨hat, fun j hj => hfirst (j + 1) (by omega)⟩, rfl⟩

/-- The terminator is found right behind bytes that hold no carriage return. -/
theorem findTerminator_block {header : Bytes} (h : 13 ∉ header) (more : Bytes) :
    findTerminator (header ++ (terminator ++ more)) = some header.length := by
  induction header with
  | nil => rfl
  | cons a header ih =>
    have ha : a ≠ 13 := fun heq => h (by simp [heq])
    have hp : ¬ terminator.isPrefixOf (a :: (header ++ (terminator ++ more))) = true := by
      simp [terminator, List.isPrefixOf, Ne.symm ha]
    rw [List.cons_append, findTerminator, if_neg hp, ih (fun hmem => h (by simp [hmem]))]
    rfl

/-- What stands behind a header and its terminator. -/
theorem drop_terminator (header more : Bytes) :
    (header ++ (terminator ++ more)).drop (header.length + 4) = more := by
  rw [← List.append_assoc]
  exact List.drop_left' (by rw [List.length_append]; rfl)

theorem findTerminator_of_not_mem {bs : Bytes} (h : 13 ∉ bs) : findTerminator bs = none := by
  rw [findTerminator_eq_none_iff]
  intro hin
  exact h (hin.subset (by simp [terminator]))

/-! ## Lines and their values -/

theorem headerLines_of_not_mem {cs : List Char} (h : '\r' ∉ cs) : headerLines cs = [cs] := by
  induction cs with
  | nil => rfl
  | cons c cs ih =>
    have hc : c ≠ '\r' := fun heq => h (by simp [heq])
    rw [headerLines.eq_def]
    split
    · next heq => cases heq
    · next heq => cases heq; exact absurd rfl hc
    · next heq =>
      cases heq
      rw [ih fun hmem => h (by simp [hmem])]

theorem headerLines_crlf (cs : List Char) :
    headerLines ('\r' :: '\n' :: cs) = [] :: headerLines cs := by
  rw [headerLines]

theorem headerLines_ne_nil (cs : List Char) : headerLines cs ≠ [] := by
  fun_cases headerLines cs <;> simp

/-- The lines of two texts with a line break between them are those of one and then the other. -/
theorem headerLines_append_crlf (cs ds : List Char) :
    headerLines (cs ++ '\r' :: '\n' :: ds) = headerLines cs ++ headerLines ds := by
  fun_induction headerLines cs with
  | case1 => exact headerLines_crlf ds
  | case2 cs ih =>
    rw [List.cons_append, List.cons_append, headerLines_crlf, ih, List.cons_append]
  | case3 c cs hc h ih => exact absurd h (headerLines_ne_nil cs)
  | case4 c cs hc line lines h ih =>
    rw [List.cons_append, headerLines.eq_def]
    split
    · next heq => cases heq
    · next heq =>
      cases cs with
      | nil => cases heq
      | cons d cs => cases heq; exact (hc _ rfl rfl).elim
    · next heq =>
      cases heq
      rw [ih, h]
      rfl

/-- The same of the lines that bytes spell. -/
theorem headerLines_lossy_append_crlf (as bs : Bytes) :
    headerLines (Utf8.lossy (as ++ 13 :: 10 :: bs)) =
      headerLines (Utf8.lossy as) ++ headerLines (Utf8.lossy bs) := by
  have htext : Utf8.lossy (as ++ 13 :: 10 :: bs) =
      Utf8.lossy as ++ '\r' :: '\n' :: Utf8.lossy bs := by
    rw [Utf8.lossy_append_cons as (10 :: bs) (by decide), Utf8.lossy_cons (by decide),
      Utf8.lossy_cons (by decide)]
    rfl
  rw [htext, headerLines_append_crlf]

theorem lengthOf_append (found : Option Nat) (lines more : List (List Char)) :
    lengthOf found (lines ++ more) =
      (lengthOf found lines).bind fun found => lengthOf found more := by
  induction lines generalizing found with
  | nil => rfl
  | cons line lines ih =>
    rw [List.cons_append, lengthOf, lengthOf]
    cases lengthValue? line with
    | none => exact ih found
    | some value =>
      dsimp only
      cases readNatural bound64 value with
      | none => rfl
      | some n => exact ih (some n)

/-- Lines that are no length field change nothing. -/
theorem lengthOf_of_plain {lines : List (List Char)} (h : ∀ line ∈ lines, lengthValue? line = none)
    (found : Option Nat) : lengthOf found lines = .ok found := by
  induction lines with
  | nil => rfl
  | cons line lines ih =>
    rw [lengthOf, h line (by simp)]
    exact ih fun l hl => h l (by simp [hl])

/-- The only fault of header lines by themselves is a length that is no number. -/
theorem lengthOf_eq_error {found : Option Nat} {lines : List (List Char)} {e : FrameError}
    (h : lengthOf found lines = .error e) : ∃ value, e = .invalidLength value := by
  induction lines generalizing found with
  | nil => cases h
  | cons line lines ih =>
    rw [lengthOf] at h
    split at h
    · exact ih h
    · split at h
      · cases h
        exact ⟨_, rfl⟩
      · exact ih h

theorem lengthOf_append_nil (found : Option Nat) (lines : List (List Char)) :
    lengthOf found (lines ++ [[]]) = lengthOf found lines := by
  have hempty : ∀ line ∈ [([] : List Char)], lengthValue? line = none := by decide
  rw [lengthOf_append]
  cases lengthOf found lines with
  | error e => rfl
  | ok found => exact lengthOf_of_plain hempty found

/-- A header gives the same length with a line break behind it. -/
theorem contentLength_append_crlf (header : Bytes) :
    contentLength (header ++ [13, 10]) = contentLength header := by
  have hlast : headerLines (Utf8.lossy []) = [[]] := rfl
  rw [contentLength, contentLength, headerLines_lossy_append_crlf, hlast, lengthOf_append_nil]

/-! ## The header that is written -/

/-- The name of the length field, with its colon and the blank behind it. -/
def lengthField : List Char := "Content-Length: ".toList

/-- The characters of the header of a body of `n` bytes. -/
def headerText (n : Nat) : List Char := lengthField ++ Json.natDigits n

/-- A frame is its header, the terminator and its body. -/
theorem wrap_eq (body : Bytes) :
    wrap body = Utf8.encode (headerText body.length) ++ (terminator ++ body) :=
  List.append_assoc (Utf8.encode (headerText body.length)) terminator body

theorem not_mem_headerText (n : Nat) : '\r' ∉ headerText n := by
  rw [headerText, List.mem_append]
  rintro (h | h)
  · exact absurd h (by decide)
  · exact absurd (Json.isDigit_of_mem_natDigits h) (by decide)

/-- No carriage return among the characters is none among the bytes. -/
theorem not_mem_encode {cs : List Char} (h : '\r' ∉ cs) : 13 ∉ Utf8.encode cs :=
  fun hmem => h (Utf8.mem_of_mem_encode hmem (by decide))

/-- Digits have no blanks to trim. -/
theorem trimBlanks_natDigits (n : Nat) :
    trimBlanks (Json.natDigits n) = Json.natDigits n := by
  have hblank : ∀ c ∈ Json.natDigits n, isBlank c = false :=
    fun c hc => isBlank_of_isDigit (Json.isDigit_of_mem_natDigits hc)
  exact trimBlanks_eq_self (fun c hc => hblank c (List.mem_of_mem_head? hc))
    fun c hc => hblank c (List.mem_of_mem_getLast? hc)

theorem lengthValue?_headerText (n : Nat) :
    lengthValue? (headerText n) = some (Json.natDigits n) := by
  have hsplit : splitAtFirst ':' (headerText n) =
      some ("Content-Length".toList, ' ' :: Json.natDigits n) := by
    have hfield : lengthField = "Content-Length".toList ++ [':', ' '] := by decide
    rw [headerText, hfield, List.append_assoc]
    exact splitAtFirst_append (by decide) (' ' :: Json.natDigits n)
  have htrim : trimBlanks (' ' :: Json.natDigits n) = trimBlanks (Json.natDigits n) := by
    rw [trimBlanks, trimBlanks, List.dropWhile_cons, if_pos (by decide)]
  have hname : (trimBlanks "Content-Length".toList).map Char.toLower =
      "content-length".toList := by decide
  rw [lengthValue?, hsplit]
  simp only [Option.bind_eq_bind, Option.bind_some, htrim, trimBlanks_natDigits, hname, if_true]

/-- The header of a body gives its length, unless the body is too long. -/
theorem contentLength_headerText_of_lt {n : Nat} (h : n < bound64) :
    contentLength (Utf8.encode (headerText n)) =
      if maxLength < n then .error (.tooLarge n) else .ok n := by
  rw [contentLength, Utf8.lossy_encode, headerLines_of_not_mem (not_mem_headerText n), lengthOf,
    lengthValue?_headerText]
  simp only [readNatural_natDigits h, lengthOf]

/-- **The header of a body that is not too long gives its length.** -/
theorem contentLength_headerText {n : Nat} (h : n ≤ maxLength) :
    contentLength (Utf8.encode (headerText n)) = .ok n := by
  have hbound : n < bound64 := Nat.lt_of_le_of_lt h (by decide)
  rw [contentLength_headerText_of_lt hbound, if_neg (Nat.not_lt.2 h)]

/-- Headers that are written are far shorter than what may wait for the end of one. -/
theorem length_headerText_le {n : Nat} (h : n ≤ maxLength) :
    (Utf8.encode (headerText n)).length + 4 ≤ maxHeader := by
  have hmax : maxLength < 10 ^ 8 := by decide
  have hdigits : (Json.natDigits n).length ≤ 8 :=
    (Nat.length_toDigits_le_iff (by decide) (by decide)).2 (Nat.lt_of_le_of_lt h hmax)
  have hname : lengthField.length = 16 := by decide
  have hlen := (Utf8.length_encode_bounds (headerText n)).2
  rw [headerText, List.length_append, hname] at hlen
  have hheader : maxHeader = 8192 := rfl
  rw [headerText]
  omega

end LanguageClient.Frame
