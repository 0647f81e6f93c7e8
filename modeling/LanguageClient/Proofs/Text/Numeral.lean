import LanguageClient.Json.Parser
import LanguageClient.Json.Number

/-!
# Reading numerals back

The decimal digits of a number below the bound read back as that number, for the readers of whole
numerals and of JSON numbers alike. Both follow the digits with a bound check at each; since the
value read so far only grows, the check on the whole number covers them all. A text with a character
that no numeral holds is none, and texts of several numerals are cut at such a character.
-/

namespace LanguageClient

/-- Digits read onto a number never make it smaller. -/
theorem le_ofDigitChars (cs : List Char) (n : Nat) : n ≤ Nat.ofDigitChars 10 cs n := by
  induction cs generalizing n with
  | nil => simp
  | cons c cs ih =>
    rw [Nat.ofDigitChars_cons]
    have := ih (10 * n + (c.toNat - '0'.toNat))
    omega

theorem scanDigits_eq {bound n : Nat} {cs : List Char} (hd : ∀ c ∈ cs, c.isDigit = true)
    (h : Nat.ofDigitChars 10 cs n < bound) :
    scanDigits bound n cs = .ok (Nat.ofDigitChars 10 cs n) := by
  induction cs generalizing n with
  | nil => simp [scanDigits]
  | cons c cs ih =>
    rw [Nat.ofDigitChars_cons, Nat.mul_comm] at h ⊢
    have hlt : n * 10 + (c.toNat - '0'.toNat) < bound :=
      Nat.lt_of_le_of_lt (le_ofDigitChars cs _) h
    rw [scanDigits, if_neg (by simp [hd c]), if_pos hlt]
    exact ih (fun x hx => hd x (by simp [hx])) h

namespace Json

theorem accumulate_eq {n : Nat} {cs : List Char} (h : Nat.ofDigitChars 10 cs n < bound64) :
    accumulate n cs = (Nat.ofDigitChars 10 cs n, 0) := by
  induction cs generalizing n with
  | nil => simp [accumulate]
  | cons c cs ih =>
    rw [Nat.ofDigitChars_cons, Nat.mul_comm] at h ⊢
    have hlt : n * 10 + digitValue c < bound64 := Nat.lt_of_le_of_lt (le_ofDigitChars cs _) h
    rw [accumulate, if_pos hlt]
    exact ih h

/-! ## The digits of a number -/

theorem natDigits_ne_nil (n : Nat) : natDigits n ≠ [] := Nat.toDigits_ne_nil

theorem isDigit_of_mem_natDigits {n : Nat} {c : Char} (h : c ∈ natDigits n) :
    c.isDigit = true :=
  Nat.isDigit_of_mem_toDigits (by decide) (by decide) h

theorem ofDigitChars_natDigits (n : Nat) : Nat.ofDigitChars 10 (natDigits n) 0 = n :=
  Nat.ofDigitChars_ten_toDigits

/-- Only the number zero has a zero for its first digit. -/
theorem head?_natDigits {n : Nat} (h : 0 < n) : (natDigits n).head? ≠ some '0' := by
  induction n using Nat.strongRecOn with
  | _ n ih =>
    by_cases hn : n < 10
    · rw [natDigits, Nat.toDigits_of_lt_base hn]
      simp only [List.head?_cons, ne_eq, Option.some.injEq, Nat.digitChar_eq_zero]
      omega
    · have hhead := ih (n / 10) (by omega) (by omega)
      obtain ⟨c, cs, hcs⟩ := List.exists_cons_of_ne_nil (natDigits_ne_nil (n / 10))
      rw [natDigits, Nat.toDigits_of_base_le (by decide) (by omega), ← natDigits, hcs]
      rwa [hcs] at hhead

/-- The digits that could be a number with a needless zero in front are those of no number. -/
theorem not_leadingZero_natDigits (n : Nat) :
    ((natDigits n).head? = some '0' && 1 < (natDigits n).length) = false := by
  by_cases hn : 0 < n
  · simp [head?_natDigits hn]
  · have h0 : n = 0 := by omega
    subst h0
    rfl

end Json

/-- A number below the bound reads back from its digits. -/
theorem readNumeral_natDigits {bound n : Nat} (h : n < bound) :
    readNumeral bound (Json.natDigits n) = .ok n := by
  have hd : ∀ c ∈ Json.natDigits n, c.isDigit = true := fun c => Json.isDigit_of_mem_natDigits
  have hread : readDigits bound .empty (Json.natDigits n) = .ok n := by
    rw [readDigits, if_neg (by simp [Json.natDigits_ne_nil]), scanDigits_eq hd,
      Json.ofDigitChars_natDigits]
    rwa [Json.ofDigitChars_natDigits]
  unfold readNumeral
  split
  · next digits heq =>
    have := hd '+' (by simp [heq])
    exact absurd this (by decide)
  · exact hread

theorem readNatural_natDigits {bound n : Nat} (h : n < bound) :
    readNatural bound (Json.natDigits n) = some n := by
  rw [readNatural, readNumeral_natDigits h]
  rfl

/-! ## Texts that are no numerals -/

theorem exists_scanDigits_fault {bound n : Nat} {c : Char} {cs : List Char}
    (hc : c.isDigit = false) (h : c ∈ cs) : ∃ fault, scanDigits bound n cs = .error fault := by
  induction cs generalizing n with
  | nil => cases h
  | cons d cs ih =>
    rw [scanDigits]
    split
    · exact ⟨_, rfl⟩
    · next hdigit =>
      split
      · rcases List.mem_cons.1 h with rfl | hmem
        · exact absurd (by rw [hc]; rfl) hdigit
        · exact ih hmem
      · exact ⟨_, rfl⟩

/-- No numeral holds a character that is neither a digit nor a plus sign. -/
theorem exists_readNumeral_fault (bound : Nat) {c : Char} {cs : List Char}
    (hc : c.isDigit = false) (hplus : c ≠ '+') (h : c ∈ cs) :
    ∃ fault, readNumeral bound cs = .error fault := by
  have hread : ∀ none, ∀ ds : List Char, c ∈ ds →
      ∃ fault, readDigits bound none ds = .error fault := by
    intro none ds hmem
    rw [readDigits, if_neg (by simpa using List.ne_nil_of_mem hmem)]
    exact exists_scanDigits_fault hc hmem
  unfold readNumeral
  split
  · exact hread _ _ ((List.mem_cons.1 h).resolve_left hplus)
  · exact hread _ _ h

/-! ## Cutting a text at a character -/

/-- A text is cut where the character stands that it does not hold before. -/
theorem splitAtFirst_append {c : Char} {name : List Char} (h : c ∉ name) (rest : List Char) :
    splitAtFirst c (name ++ c :: rest) = some (name, rest) := by
  have hname : ∀ d ∈ name, decide (d ≠ c) = true := by
    intro d hd
    simpa using fun heq : d = c => h (heq ▸ hd)
  rw [splitAtFirst, List.dropWhile_append_of_pos hname, List.takeWhile_append_of_pos hname]
  simp

/-- What follows a character that stands in a text is behind the place where it is cut. -/
theorem exists_splitAtFirst_append (c : Char) (as bs : List Char) :
    ∃ before after, splitAtFirst c (as ++ c :: bs) = some (before, after) ∧ bs <:+ after := by
  by_cases hmem : c ∈ as
  · obtain ⟨before, more, rfl, hbefore⟩ := List.eq_append_cons_of_mem hmem
    refine ⟨before, more ++ c :: bs, ?_, ?_⟩
    · rw [List.append_assoc, List.cons_append]
      exact splitAtFirst_append hbefore _
    · exact (List.suffix_cons c bs).trans (List.suffix_append _ _)
  · exact ⟨as, bs, splitAtFirst_append hmem bs, List.suffix_refl _⟩

end LanguageClient
