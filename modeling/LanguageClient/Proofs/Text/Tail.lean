import LanguageClient.Proofs.Text.Boundary

/-!
# Tails of a text

The tail of a text for a limit is its longest suffix of no more bytes (`Text.IsTail`); there is just
one (`Text.isTail_iff`). Cutting a text down to its tail before more is added loses nothing of the
tail that is had in the end (`Text.keepLast_append`).
-/

namespace LanguageClient.Text

variable {limit : Nat} {cs as bs : List Char}

/-- The longest suffix of at most `limit` bytes. -/
def keepLast (limit : Nat) : List Char → List Char
  | [] => []
  | c :: cs => if byteLength (c :: cs) ≤ limit then c :: cs else keepLast limit cs

/-- Whether `s` is the longest suffix of a text that has at most `limit` bytes. -/
structure IsTail (limit : Nat) (cs s : List Char) : Prop where
  suffix : s <:+ cs
  fits : byteLength s ≤ limit
  longest : ∀ s', s' <:+ cs → byteLength s' ≤ limit → s' <:+ s

theorem keepLast_of_le (h : byteLength cs ≤ limit) : keepLast limit cs = cs := by
  cases cs with
  | nil => rfl
  | cons c cs => exact if_pos h

theorem keepLast_cons_of_lt {c : Char} (h : limit < byteLength (c :: cs)) :
    keepLast limit (c :: cs) = keepLast limit cs :=
  if_neg (Nat.not_le.2 h)

theorem isTail_keepLast (limit : Nat) (cs : List Char) : IsTail limit cs (keepLast limit cs) := by
  induction cs with
  | nil => exact ⟨List.suffix_refl _, Nat.zero_le _, fun s' hs' _ => hs'⟩
  | cons c cs ih =>
    by_cases h : byteLength (c :: cs) ≤ limit
    · rw [keepLast_of_le h]
      exact ⟨List.suffix_refl _, h, fun s' hs' _ => hs'⟩
    · rw [keepLast_cons_of_lt (Nat.not_le.1 h)]
      refine ⟨ih.suffix.trans (List.suffix_cons c cs), ih.fits, fun s' hs' hfits => ?_⟩
      rcases List.suffix_cons_iff.1 hs' with rfl | hs'
      · exact absurd hfits h
      · exact ih.longest s' hs' hfits

theorem isTail_iff {s : List Char} : IsTail limit cs s ↔ s = keepLast limit cs := by
  refine ⟨fun h => ?_, fun h => h ▸ isTail_keepLast limit cs⟩
  have hkeep := isTail_keepLast limit cs
  have hle := hkeep.longest s h.suffix h.fits
  have hge := h.longest _ hkeep.suffix hkeep.fits
  exact hle.eq_of_length (Nat.le_antisymm hle.length_le hge.length_le)

/-- In bytes, a tail is what stands behind the first boundary that leaves no more than the limit. -/
theorem IsTail.exists_start {s : List Char} (h : IsTail limit cs s) :
    ∃ start, IsBoundary start cs ∧ byteLength cs ≤ start + limit ∧
      (∀ n, IsBoundary n cs → byteLength cs ≤ n + limit → start ≤ n) ∧
      Utf8.encode s = (Utf8.encode cs).drop start := by
  obtain ⟨front, rfl⟩ := h.suffix
  have hlength := byteLength_append front s
  have hfits := h.fits
  refine ⟨byteLength front, isBoundary_append_left front s, by omega, fun n hn hle => ?_, ?_⟩
  · obtain ⟨front', back, heq, rfl⟩ := hn
    have hlength' := byteLength_append front' back
    rw [← heq] at hlength'
    obtain ⟨more, hmore⟩ := h.longest back ⟨front', heq.symm⟩ (by omega)
    have hback := byteLength_append more back
    rw [hmore] at hback
    omega
  · rw [Utf8.encode_append, ← length_encode front, List.drop_left]

/-- Dropping what is too much leaves the tail. -/
theorem dropAtLeast_byteLength_sub (limit : Nat) (cs : List Char) :
    dropAtLeast (byteLength cs - limit) cs = keepLast limit cs := by
  induction cs with
  | nil => simp [dropAtLeast, keepLast]
  | cons c cs ih =>
    by_cases h : byteLength (c :: cs) ≤ limit
    · rw [keepLast_of_le h, Nat.sub_eq_zero_of_le h]
      rfl
    · obtain ⟨k, hk⟩ := Nat.exists_eq_add_one_of_ne_zero
        (Nat.sub_ne_zero_of_lt (Nat.not_le.1 h))
      have hrest : k + 1 - c.utf8Size = byteLength cs - limit := by
        rw [← hk, byteLength]
        omega
      rw [keepLast_cons_of_lt (Nat.not_le.1 h), hk, dropAtLeast, hrest, ih]

/-- **What a tail has lost is not missed later**: with more behind it, it has the same tail as the
whole. -/
theorem keepLast_append (limit : Nat) (as bs : List Char) :
    keepLast limit (keepLast limit as ++ bs) = keepLast limit (as ++ bs) := by
  induction as with
  | nil => rfl
  | cons a as ih =>
    by_cases h : byteLength (a :: as) ≤ limit
    · rw [keepLast_of_le h]
    · have hmore : limit < byteLength (a :: (as ++ bs)) := by
        rw [← List.cons_append, byteLength_append]
        omega
      rw [keepLast_cons_of_lt (Nat.not_le.1 h), ih, List.cons_append, keepLast_cons_of_lt hmore]

/-! ## Tails from the end -/

theorem keepLast_concat (limit : Nat) (cs : List Char) (c : Char) :
    keepLast limit (cs ++ [c]) =
      if c.utf8Size ≤ limit then keepLast (limit - c.utf8Size) cs ++ [c] else [] := by
  induction cs with
  | nil =>
    by_cases h : c.utf8Size ≤ limit <;> simp [keepLast, byteLength, h]
  | cons a cs ih =>
    have hlength : byteLength (a :: (cs ++ [c])) = byteLength (a :: cs) + c.utf8Size := by
      rw [← List.cons_append, byteLength_append]
      rfl
    rw [List.cons_append, keepLast, keepLast, ih, hlength]
    by_cases h : c.utf8Size ≤ limit
    · have hiff : byteLength (a :: cs) + c.utf8Size ≤ limit ↔
          byteLength (a :: cs) ≤ limit - c.utf8Size := by omega
      simp only [if_pos h, hiff]
      split <;> rfl
    · rw [if_neg h, if_neg h, if_neg (by omega)]

/-- Seen from the end of the text, a tail is a front. -/
theorem keepLast_reverse (limit : Nat) (cs : List Char) :
    keepLast limit cs.reverse = (takeBytes limit cs).reverse := by
  induction cs generalizing limit with
  | nil => rfl
  | cons c cs ih =>
    rw [List.reverse_cons, keepLast_concat, ih, takeBytes]
    split
    · rw [List.reverse_cons]
    · rfl

theorem keepLast_eq_iff :
    keepLast limit as = keepLast limit bs ↔
      takeBytes limit as.reverse = takeBytes limit bs.reverse := by
  rw [← as.reverse_reverse, ← bs.reverse_reverse, keepLast_reverse, keepLast_reverse,
    List.reverse_inj, List.reverse_reverse, List.reverse_reverse]

end LanguageClient.Text
