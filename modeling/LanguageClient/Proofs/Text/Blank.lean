import LanguageClient.Text.Blank

/-!
# Trimming blanks

A text is as trimming leaves it just when no blank starts or ends it; digits never do.
-/

namespace LanguageClient

variable {c : Char} {cs : List Char}

theorem isBlank_of_isDigit (h : c.isDigit = true) : isBlank c = false := by
  simp only [Char.isDigit, Bool.and_eq_true, decide_eq_true_eq, ge_iff_le,
    UInt32.le_iff_toNat_le] at h
  change 48 ≤ c.toNat ∧ c.toNat ≤ 57 at h
  simp [isBlank]
  omega

theorem dropWhile_isBlank_of_head (h : ∀ c ∈ cs.head?, isBlank c = false) :
    cs.dropWhile isBlank = cs := by
  cases cs with
  | nil => rfl
  | cons c cs => rw [List.dropWhile_cons, if_neg (by simp [h c rfl])]

theorem dropEndWhile_isBlank_of_getLast (h : ∀ c ∈ cs.getLast?, isBlank c = false) :
    dropEndWhile isBlank cs = cs := by
  rw [dropEndWhile, dropWhile_isBlank_of_head, List.reverse_reverse]
  rwa [List.head?_reverse]

/-- Where no blank starts or ends a text there is none to trim. -/
theorem trimBlanks_eq_self (hhead : ∀ c ∈ cs.head?, isBlank c = false)
    (hlast : ∀ c ∈ cs.getLast?, isBlank c = false) : trimBlanks cs = cs := by
  rw [trimBlanks, dropWhile_isBlank_of_head hhead, dropEndWhile_isBlank_of_getLast hlast]

theorem trimBlanks_cons (h : isBlank c = false) (cs : List Char) :
    trimBlanks (c :: cs) = c :: dropEndWhile isBlank cs := by
  have hhead : (c :: cs).dropWhile isBlank = c :: cs :=
    dropWhile_isBlank_of_head fun d hd => Option.some.inj hd ▸ h
  rw [trimBlanks, hhead, dropEndWhile, List.reverse_cons, List.dropWhile_append, dropEndWhile]
  split
  · next hnil => simp [List.isEmpty_iff.1 hnil, h]
  · rw [List.reverse_append]
    rfl

/-- A text that trimming leaves as it is starts with no blank. -/
theorem isBlank_head_of_trimBlanks (h : trimBlanks cs = cs) :
    ∀ c ∈ cs.head?, isBlank c = false := by
  cases cs with
  | nil => exact fun c hc => by cases hc
  | cons c cs =>
    intro d hd
    obtain rfl : c = d := Option.some.inj hd
    cases hblank : isBlank c with
    | false => rfl
    | true =>
      -- a text that lost its first character is shorter, whatever it lost at its end
      have hlength := congrArg List.length h
      have hdrop := (List.dropWhile_suffix isBlank (l := cs)).length_le
      have hend := (List.dropWhile_suffix isBlank (l := (cs.dropWhile isBlank).reverse)).length_le
      rw [trimBlanks, List.dropWhile_cons, if_pos hblank, dropEndWhile, List.length_reverse,
        List.length_cons] at hlength
      rw [List.length_reverse] at hend
      omega

end LanguageClient
