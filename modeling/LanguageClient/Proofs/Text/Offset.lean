import LanguageClient.Proofs.Text.Boundary
import LanguageClient.Text.Position

/-!
# Offsets of positions

Whatever position is asked for, its offset is a boundary of the text (`Position.isBoundary_offset`),
and positions further on have offsets further on (`Position.offset_mono`): a position past the end
of its line is clipped to that end and so stays before the next line.
-/

namespace LanguageClient

namespace Text

variable {n m : Nat}

/-! ## Columns of a line -/

theorem firstLine_append (cs : List Char) : ∃ rest, cs = firstLine cs ++ rest := by
  have hline : cs.takeWhile (· ≠ '\n') ++ cs.dropWhile (· ≠ '\n') = cs :=
    List.takeWhile_append_dropWhile
  have hprefix : firstLine cs <+: cs.takeWhile (· ≠ '\n') := by
    unfold firstLine
    dsimp only
    split
    · exact List.dropLast_prefix _
    · exact List.prefix_refl _
  obtain ⟨more, hmore⟩ := hprefix
  exact ⟨more ++ cs.dropWhile (· ≠ '\n'), by rw [← List.append_assoc, hmore, hline]⟩

theorem isBoundary_columnOffset (n : Nat) (cs : List Char) : IsBoundary (columnOffset n cs) cs := by
  induction cs generalizing n with
  | nil =>
    cases n with
    | zero => exact isBoundary_zero []
    | succ n => exact isBoundary_zero []
  | cons c cs ih =>
    cases n with
    | zero => exact isBoundary_zero (c :: cs)
    | succ n => exact (ih (n + 1 - charUnits c)).cons c

theorem columnOffset_mono (h : n ≤ m) (cs : List Char) :
    columnOffset n cs ≤ columnOffset m cs := by
  induction cs generalizing n m with
  | nil =>
    cases n with
    | zero => exact Nat.zero_le _
    | succ n => exact Nat.zero_le _
  | cons c cs ih =>
    cases n with
    | zero => exact Nat.zero_le _
    | succ n =>
      obtain ⟨m, rfl⟩ := Nat.exists_eq_add_of_lt h
      exact Nat.add_le_add_left (ih (by omega)) _

/-! ## Lines of a text -/

theorem isBoundary_offsetAt (line column : Nat) (cs : List Char) :
    IsBoundary (offsetAt line column cs) cs := by
  induction cs generalizing line with
  | nil =>
    cases line with
    | zero => exact isBoundary_columnOffset column []
    | succ line => exact isBoundary_zero []
  | cons c cs ih =>
    cases line with
    | zero =>
      obtain ⟨rest, hrest⟩ := firstLine_append (c :: cs)
      have hcolumn := (isBoundary_columnOffset column (firstLine (c :: cs))).append_right rest
      rw [← hrest] at hcolumn
      exact hcolumn
    | succ line =>
      rw [offsetAt]
      split
      · exact (ih line).cons c
      · exact (ih (line + 1)).cons c

theorem offsetAt_le_of_column_le (h : n ≤ m) (line : Nat) (cs : List Char) :
    offsetAt line n cs ≤ offsetAt line m cs := by
  induction cs generalizing line with
  | nil =>
    cases line with
    | zero => exact columnOffset_mono h (firstLine [])
    | succ line => exact Nat.le_refl _
  | cons c cs ih =>
    cases line with
    | zero => exact columnOffset_mono h (firstLine (c :: cs))
    | succ line =>
      simp only [offsetAt]
      split
      · exact Nat.add_le_add_left (ih line) _
      · exact Nat.add_le_add_left (ih (line + 1)) _

/-- A line ends before every position of the lines behind it. -/
theorem byteLength_takeWhile_le (line column : Nat) (cs : List Char) :
    byteLength (cs.takeWhile (· ≠ '\n')) ≤ offsetAt (line + 1) column cs := by
  induction cs with
  | nil => exact Nat.zero_le _
  | cons c cs ih =>
    by_cases hc : c = '\n'
    · simp [hc, byteLength]
    · simp only [List.takeWhile_cons, ne_eq, hc, not_false_eq_true, decide_true, if_true,
        byteLength, offsetAt, if_false]
      exact Nat.add_le_add_left ih _

theorem byteLength_firstLine_le (cs : List Char) :
    byteLength (firstLine cs) ≤ byteLength (cs.takeWhile (· ≠ '\n')) := by
  unfold firstLine
  dsimp only
  split
  · obtain ⟨last, hlast⟩ := List.dropLast_prefix (cs.takeWhile (· ≠ '\n'))
    calc byteLength (cs.takeWhile (· ≠ '\n')).dropLast
        ≤ byteLength (cs.takeWhile (· ≠ '\n')).dropLast + byteLength last := Nat.le_add_right _ _
      _ = byteLength (cs.takeWhile (· ≠ '\n')) := by rw [← byteLength_append, hlast]
  · exact Nat.le_refl _

theorem offsetAt_le_of_lt {line line' : Nat} (h : line < line') (column column' : Nat)
    (cs : List Char) : offsetAt line column cs ≤ offsetAt line' column' cs := by
  induction cs generalizing line line' with
  | nil =>
    cases line with
    | zero => cases column <;> exact Nat.zero_le _
    | succ line => exact Nat.zero_le _
  | cons c cs ih =>
    obtain ⟨line', rfl⟩ := Nat.exists_eq_add_of_lt h
    cases line with
    | zero =>
      calc columnOffset column (firstLine (c :: cs))
          ≤ byteLength (firstLine (c :: cs)) := (isBoundary_columnOffset column _).le
        _ ≤ byteLength ((c :: cs).takeWhile (· ≠ '\n')) := byteLength_firstLine_le _
        _ ≤ offsetAt (0 + line' + 1) column' (c :: cs) := byteLength_takeWhile_le _ _ _
    | succ line =>
      simp only [offsetAt]
      split
      · exact Nat.add_le_add_left (ih (by omega)) _
      · exact Nat.add_le_add_left (ih (by omega)) _

end Text

namespace Position

variable {p q r : Position}

/-! ## Reading order -/

theorem le_iff : p.le q = true ↔
    p.line < q.line ∨ (p.line = q.line ∧ p.character ≤ q.character) := by
  simp [le]

theorem le_refl (p : Position) : p.le p = true := le_iff.2 (.inr ⟨rfl, Nat.le_refl _⟩)

theorem le_trans (hpq : p.le q = true) (hqr : q.le r = true) : p.le r = true := by
  rw [le_iff] at *
  omega

theorem le_total (p q : Position) : (p.le q || q.le p) = true := by
  rw [Bool.or_eq_true, le_iff, le_iff]
  omega

theorem le_antisymm (hpq : p.le q = true) (hqp : q.le p = true) : p = q := by
  rw [le_iff] at *
  obtain ⟨line, character⟩ := p
  obtain ⟨line', character'⟩ := q
  simp only [mk.injEq]
  simp only at hpq hqp
  omega

/-! ## Offsets -/

theorem isBoundary_offset (p : Position) (text : List Char) :
    Text.IsBoundary (p.offset text) text :=
  Text.isBoundary_offsetAt p.line p.character text

theorem offset_mono (h : p.le q = true) (text : List Char) : p.offset text ≤ q.offset text := by
  rcases le_iff.1 h with hline | ⟨hline, hcolumn⟩
  · exact Text.offsetAt_le_of_lt hline _ _ text
  · unfold offset
    rw [hline]
    exact Text.offsetAt_le_of_column_le hcolumn q.line text

end Position
end LanguageClient
