import LanguageClient.Json.Printer
import LanguageClient.Proofs.Text.Numeral
import LanguageClient.Proofs.Text.Utf8

/-!
# Reading compact JSON texts back

The compact text of a value whose numbers are integers of 64 bits reads back as that value, within
the bound on nesting, whatever stands behind it. Arrays and objects go by induction on the value:
the fuel of the reader is at least the length of the text, and each bracket, comma or quote that is
read pays for the call that follows.
-/

namespace LanguageClient.Json

/-- What holds of scalars, and of arrays and objects when it holds of what they contain, holds of
every value. -/
theorem inductionOn {P : Json → Prop} (null : P .null) (bool : ∀ b, P (.bool b))
    (int : ∀ n, P (.int n)) (float : ∀ x, P (.float x)) (str : ∀ s, P (.str s))
    (arr : ∀ items, (∀ v ∈ items, P v) → P (.arr items))
    (obj : ∀ fields : List (String × Json), (∀ f ∈ fields, P f.2) → P (.obj fields)) (v : Json) :
    P v :=
  Json.rec (motive_1 := P) (motive_2 := fun items => ∀ v ∈ items, P v)
    (motive_3 := fun fields => ∀ f ∈ fields, P f.2) (motive_4 := fun f => P f.2)
    null bool int float str arr obj (by simp)
    (fun v rest hv hrest => by simpa using ⟨hv, hrest⟩) (by simp)
    (fun f rest hf hrest => by
      rintro g hg
      rcases List.mem_cons.1 hg with rfl | hg
      · exact hf
      · exact hrest g hg)
    (fun _ _ hv => hv) v

/-- A value whose numbers are integers of 64 bits and whose objects are as a reader builds them:
each key once, in ascending order. -/
inductive Exact : Json → Prop where
  | null : Exact .null
  | bool (b : Bool) : Exact (.bool b)
  | int {n : Int} : -(bound63 : Int) ≤ n → n < bound64 → Exact (.int n)
  | str (s : String) : Exact (.str s)
  | arr {items : List Json} : (∀ v ∈ items, Exact v) → Exact (.arr items)
  | obj {fields : List (String × Json)} : (∀ f ∈ fields, Exact f.2) →
      fields.Pairwise (fun f g => f.1 < g.1) → Exact (.obj fields)

/-! ## Strings -/

theorem hexUnit_control : ∀ n < 0x20,
    hexUnit '0' '0' (hexDigit (n / 16)) (hexDigit (n % 16)) = some n := by
  decide

/-- A character that needs no escape stands for itself. -/
theorem stringParts_char {c : Char} (h1 : c ≠ '"') (h2 : c ≠ '\\') (h3 : ¬ c.toNat < 0x20)
    (rest : List Char) :
    stringParts (c :: rest) =
      (stringParts rest).bind fun p => some (.char c :: p.1, p.2) := by
  rw [stringParts.eq_def]
  split
  · next heq => cases heq
  · next heq => cases heq; exact absurd rfl h1
  · next heq => cases heq; exact absurd rfl h2
  · next heq => cases heq; exact absurd rfl h2
  · next heq =>
    cases heq
    rw [if_neg h3]
    rfl

/-- An escaped character is read as one part, which joins as that character. -/
theorem stringParts_escapeChar {rest : List Char} {parts : List StringPart} {left : List Char}
    (c : Char) (h : stringParts rest = some (parts, left)) :
    ∃ part, stringParts (escapeChar c ++ rest) = some (part :: parts, left) ∧
      ∀ ps, joinParts (part :: ps) = (joinParts ps).map (c :: ·) := by
  have hchar : ∀ ps, joinParts (.char c :: ps) = (joinParts ps).map (c :: ·) := fun _ => rfl
  unfold escapeChar
  split
  · next hc => exact ⟨.char c, by simp [stringParts, simpleEscape, h, hc], hchar⟩
  split
  · next hc => exact ⟨.char c, by simp [stringParts, simpleEscape, h, hc], hchar⟩
  split
  · next hc => exact ⟨.char c, by simp [stringParts, simpleEscape, h, hc], hchar⟩
  split
  · next hc => exact ⟨.char c, by simp [stringParts, simpleEscape, h, hc], hchar⟩
  split
  · next hc => exact ⟨.char c, by simp [stringParts, simpleEscape, h, hc], hchar⟩
  split
  · next hc => exact ⟨.char c, by simp [stringParts, simpleEscape, h, hc], hchar⟩
  split
  · next hc => exact ⟨.char c, by simp [stringParts, simpleEscape, h, hc], hchar⟩
  split
  · next hc =>
    refine ⟨.unit c.toNat, ?_, fun ps => ?_⟩
    · simp [stringParts, hexUnit_control c.toNat hc, h]
    · have hlow : (c.toNat < 0xD800 || 0xE000 ≤ c.toNat) = true := by
        simp
        omega
      rw [joinParts.eq_def]
      simp only [if_pos hlow, Char.ofNat_toNat]
  · next h1 h2 _ _ _ _ _ h3 =>
    refine ⟨.char c, ?_, hchar⟩
    rw [List.singleton_append, stringParts_char h1 h2 h3, h]
    rfl

/-- **A quoted text reads back** up to its closing quote. -/
theorem readString_escaped (cs rest : List Char) :
    readString (cs.flatMap escapeChar ++ '"' :: rest) = some (String.ofList cs, rest) := by
  have hparts : ∃ parts, stringParts (cs.flatMap escapeChar ++ '"' :: rest) = some (parts, rest) ∧
      joinParts parts = some cs := by
    induction cs with
    | nil => exact ⟨[], by simp [stringParts], rfl⟩
    | cons c cs ih =>
      obtain ⟨parts, hread, hjoin⟩ := ih
      obtain ⟨part, hpart, hcons⟩ := stringParts_escapeChar c hread
      refine ⟨part :: parts, ?_, ?_⟩
      · rw [List.flatMap_cons, List.append_assoc, hpart]
      · rw [hcons, hjoin, Option.map_some]
  obtain ⟨parts, hread, hjoin⟩ := hparts
  simp [readString, hread, hjoin]

/-! ## Numbers -/

/-- Whether a number that stands before a text ends there. -/
def endsNumber : List Char → Bool
  | [] => true
  | c :: _ => !c.isDigit && c ≠ '.' && c ≠ 'e' && c ≠ 'E'

theorem someDigits_append {ds rest : List Char} (hne : ds ≠ [])
    (hd : ∀ c ∈ ds, c.isDigit = true) (hr : endsNumber rest = true) :
    someDigits (ds ++ rest) = some (ds, rest) := by
  have hhead : rest.takeWhile Char.isDigit = [] ∧ rest.dropWhile Char.isDigit = rest := by
    cases rest with
    | nil => simp
    | cons c rest => simp_all [endsNumber]
  rw [someDigits, List.takeWhile_append_of_pos hd, List.dropWhile_append_of_pos hd, hhead.1,
    hhead.2, List.append_nil]
  simp [hne]

theorem readFraction_none {rest : List Char} (hr : endsNumber rest = true) :
    readFraction rest = some (none, rest) := by
  unfold readFraction
  split
  · simp [endsNumber] at hr
  · rfl

theorem readExponent_none {rest : List Char} (hr : endsNumber rest = true) :
    readExponent rest = some (none, rest) := by
  unfold readExponent
  split <;> simp_all [endsNumber]

/-- The digits of a number below `2 ^ 64`, alone between a sign and what ends them. -/
theorem readUnsigned_natDigits {negative : Bool} {n : Nat} {v : Json} {rest : List Char}
    (hr : endsNumber rest = true) (hv : numberOf negative (natDigits n) none none = some v) :
    readUnsigned negative (natDigits n ++ rest) = some (v, rest) := by
  have hdigits := someDigits_append (natDigits_ne_nil n) (fun _ => isDigit_of_mem_natDigits) hr
  have hzero : ¬ ((natDigits n).head? = some '0' && 1 < (natDigits n).length) = true := by
    rw [not_leadingZero_natDigits n]
    decide
  rw [readUnsigned, hdigits]
  simp only [Option.bind_eq_bind, Option.bind_some, if_neg hzero, readFraction_none hr,
    readExponent_none hr, hv]
  rfl

theorem numberOf_nat {n : Nat} (h : n < bound64) :
    numberOf false (natDigits n) none none = some (.int n) := by
  have hread : accumulate 0 (natDigits n) = (n, 0) := by
    rw [accumulate_eq (by rwa [ofDigitChars_natDigits]), ofDigitChars_natDigits]
  simp [numberOf, hread]

theorem numberOf_neg {n : Nat} (hpos : 0 < n) (h : n ≤ bound63) :
    numberOf true (natDigits n) none none = some (.int (-(n : Int))) := by
  have hlt : n < bound64 := Nat.lt_of_le_of_lt h (by decide)
  have hread : accumulate 0 (natDigits n) = (n, 0) := by
    rw [accumulate_eq (by rwa [ofDigitChars_natDigits]), ofDigitChars_natDigits]
  simp [numberOf, hread, hpos, h]

/-- **An integer of 64 bits reads back** before anything that ends a number. -/
theorem readNumber_intText {n : Int} {rest : List Char} (hlow : -(bound63 : Int) ≤ n)
    (hhigh : n < bound64) (hr : endsNumber rest = true) :
    readNumber (intText n ++ rest) = some (.int n, rest) := by
  cases n with
  | ofNat n =>
    have hread : readUnsigned false (natDigits n ++ rest) = some (.int n, rest) :=
      readUnsigned_natDigits hr (numberOf_nat (n := n) (Int.ofNat_lt.1 hhigh))
    have htext : intText (.ofNat n) = natDigits n := rfl
    rw [htext]
    unfold readNumber
    split
    · next heq =>
      obtain ⟨c, cs, hcs⟩ := List.exists_cons_of_ne_nil (natDigits_ne_nil n)
      rw [hcs, List.cons_append] at heq
      cases heq
      have := isDigit_of_mem_natDigits (n := n) (c := '-') (by simp [hcs])
      exact absurd this (by decide)
    · exact hread
  | negSucc n =>
    have hle : n + 1 ≤ bound63 := by omega
    have hread : readUnsigned true (natDigits (n + 1) ++ rest) = some (.int (.negSucc n), rest) :=
      readUnsigned_natDigits hr (numberOf_neg (Nat.succ_pos n) hle)
    rw [intText, List.cons_append, readNumber]
    exact hread

end LanguageClient.Json
