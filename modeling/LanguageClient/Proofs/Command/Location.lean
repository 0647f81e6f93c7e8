import LanguageClient.Command.Location
import LanguageClient.Proofs.Text.Blank
import LanguageClient.Proofs.Text.Numeral

/-!
# Locations read back

A location that is written as `file:line:column` reads back as itself just when its file has no
colon, behind its first character, that a digit or a minus sign follows (`HoldsMark`): reading takes
the first such colon for the end of the file. Otherwise it is refused, and never read as another
one, since the column is then a text with a colon in it.
-/

namespace LanguageClient

/-! ## Coordinates -/

theorem readCoordinate_natDigits (what : Coordinate) {n : Nat} (hpos : 0 < n) (h : n < bound32) :
    readCoordinate what (Json.natDigits n) = .ok n := by
  obtain ⟨k, rfl⟩ := Nat.exists_eq_add_one.2 hpos
  rw [readCoordinate, readNumeral_natDigits h]
  rfl

/-- No coordinate is written with a colon. -/
theorem exists_readCoordinate_error (what : Coordinate) {cs : List Char} (h : ':' ∈ cs) :
    ∃ e, readCoordinate what cs = .error e := by
  obtain ⟨fault, hfault⟩ := exists_readNumeral_fault bound32 (by decide) (by decide) h
  exact ⟨_, by rw [readCoordinate, hfault]⟩

namespace FileLocation

variable {c : Char} {cs file rest : List Char}

/-! ## Where a position starts -/

/-- Whether a text starts with a colon that a digit or a minus sign follows. -/
def startsMark : List Char → Bool
  | c :: d :: _ => c = ':' && (d.isDigit || d = '-')
  | _ => false

/-- Whether a text has a colon behind its first character that a digit or a minus sign follows. -/
def HoldsMark (cs : List Char) : Prop :=
  ∃ front back, front ≠ [] ∧ cs = front ++ back ∧ startsMark back = true

theorem not_holdsMark_nil : ¬ HoldsMark [] := by
  rintro ⟨front, back, hfront, heq, -⟩
  exact hfront (List.append_eq_nil_iff.1 heq.symm).1

theorem holdsMark_cons : HoldsMark (c :: cs) ↔ startsMark cs = true ∨ HoldsMark cs := by
  constructor
  · rintro ⟨front, back, hfront, heq, hback⟩
    obtain ⟨d, front, rfl⟩ := List.exists_cons_of_ne_nil hfront
    obtain ⟨rfl, rfl⟩ := List.cons.inj heq
    cases front with
    | nil => exact .inl hback
    | cons d front => exact .inr ⟨d :: front, back, List.cons_ne_nil _ _, rfl, hback⟩
  · rintro (hstart | ⟨front, back, -, rfl, hback⟩)
    · exact ⟨[c], cs, List.cons_ne_nil _ _, rfl, hstart⟩
    · exact ⟨c :: front, back, List.cons_ne_nil _ _, rfl, hback⟩

instance decidableHoldsMark : (cs : List Char) → Decidable (HoldsMark cs)
  | [] => .isFalse not_holdsMark_nil
  | _ :: cs =>
    have := decidableHoldsMark cs
    decidable_of_iff _ holdsMark_cons.symm

theorem exists_of_startsMark (h : startsMark cs = true) :
    ∃ d rest, cs = ':' :: d :: rest ∧ (d.isDigit || d = '-') = true := by
  match cs, h with
  | c :: d :: rest, h =>
    rw [startsMark, Bool.and_eq_true, decide_eq_true_eq] at h
    exact ⟨d, rest, by rw [h.1], h.2⟩

theorem splitPosition_cons (c : Char) (cs : List Char) :
    splitPosition (c :: cs) =
      if startsMark cs then some ([c], cs.tail)
      else (splitPosition cs).map fun (file, position) => (c :: file, position) := by
  by_cases hcolon : ∃ d rest, cs = ':' :: d :: rest
  · obtain ⟨d, rest, rfl⟩ := hcolon
    rfl
  · have hnone : ¬ startsMark cs = true := fun hstart => by
      obtain ⟨d, rest, heq, -⟩ := exists_of_startsMark hstart
      exact hcolon ⟨d, rest, heq⟩
    rw [if_neg hnone, splitPosition]
    rintro d rest rfl
    exact hcolon ⟨d, rest, rfl⟩

/-- A file without a mark ends at the colon behind it, if a position follows that. -/
theorem splitPosition_append (hfile : file ≠ []) (h : ¬ HoldsMark file)
    (hrest : startsMark (':' :: rest) = true) :
    splitPosition (file ++ ':' :: rest) = some (file, rest) := by
  induction file with
  | nil => exact absurd rfl hfile
  | cons c file ih =>
    obtain ⟨hstart, hmark⟩ := not_or.1 fun hor => h (holdsMark_cons.2 hor)
    rw [List.cons_append, splitPosition_cons]
    cases file with
    | nil =>
      rw [List.nil_append, if_pos hrest]
      rfl
    | cons d file =>
      have hnone : ¬ startsMark ((d :: file) ++ ':' :: rest) = true := by
        -- a colon that the file ends with is no mark, since another colon follows it
        cases file with
        | nil => simp [startsMark]
        | cons e file => exact hstart
      rw [if_neg hnone, ih (List.cons_ne_nil _ _) hmark]
      rfl

/-- A file with a mark ends at its first one. -/
theorem exists_splitPosition_append (h : HoldsMark file) (rest : List Char) :
    ∃ front back, file = front ++ ':' :: back ∧
      splitPosition (file ++ rest) = some (front, back ++ rest) := by
  induction file with
  | nil => exact absurd h not_holdsMark_nil
  | cons c file ih =>
    rw [List.cons_append, splitPosition_cons]
    by_cases hstart : startsMark file = true
    · obtain ⟨d, more, rfl, -⟩ := exists_of_startsMark hstart
      have hmore : startsMark ((':' :: d :: more) ++ rest) = true := hstart
      exact ⟨[c], d :: more, rfl, by rw [if_pos hmore]; rfl⟩
    · have hmark : HoldsMark file := (holdsMark_cons.1 h).resolve_left hstart
      have hnone : ¬ startsMark (file ++ rest) = true := by
        obtain ⟨front, back, hfront, rfl, hback⟩ := hmark
        obtain ⟨e, front, rfl⟩ := List.exists_cons_of_ne_nil hfront
        obtain ⟨d, more, rfl, -⟩ := exists_of_startsMark hback
        cases front with
        | nil => exact hstart
        | cons e' front => exact hstart
      obtain ⟨front, back, heq, hsplit⟩ := ih hmark
      refine ⟨c :: front, back, by rw [heq, List.cons_append], ?_⟩
      rw [if_neg hnone, hsplit]
      rfl

/-! ## Reading what was written -/

theorem toList_display (l : FileLocation) :
    l.display.toList =
      l.file.text.toList ++ ':' :: (Json.natDigits l.line ++ ':' :: Json.natDigits l.column) := by
  simp [display, Json.natDigits]
  rfl

/-- The written location has no blanks to trim: its file starts with none and a digit ends it. -/
theorem trimBlanks_display {l : FileLocation} (hfile : l.file.text ≠ "")
    (htrim : trimmed l.file.text = l.file.text) :
    trimBlanks l.display.toList = l.display.toList := by
  have hhead : ∀ c ∈ l.file.text.toList.head?, isBlank c = false := by
    refine isBlank_head_of_trimBlanks ?_
    rw [← String.toList_ofList (l := trimBlanks _)]
    exact congrArg String.toList htrim
  have hne : l.file.text.toList ≠ [] := fun hnil => hfile (String.toList_eq_nil_iff.1 hnil)
  obtain ⟨first, file, hfirst⟩ := List.exists_cons_of_ne_nil hne
  have hlast := List.getLast?_eq_some_getLast (Json.natDigits_ne_nil l.column)
  rw [toList_display]
  refine trimBlanks_eq_self (fun c hc => hhead c ?_) fun c hc => ?_
  · rwa [hfirst, List.cons_append, List.head?_cons, ← List.head?_cons (l := file), ← hfirst] at hc
  · have hdigit : c ∈ Json.natDigits l.column := by
      rw [List.getLast?_append, List.getLast?_cons, List.getLast?_append, List.getLast?_cons,
        hlast] at hc
      obtain rfl : _ = c := Option.some.inj hc
      exact List.getLast_mem _
    exact isBlank_of_isDigit (Json.isDigit_of_mem_natDigits hdigit)

theorem read_display {l : FileLocation} (hfile : l.file.text ≠ "")
    (htrim : trimmed l.file.text = l.file.text) (hline : 0 < l.line ∧ l.line < bound32)
    (hcolumn : 0 < l.column ∧ l.column < bound32) (h : ¬ HoldsMark l.file.text.toList) :
    read l.display = .ok l := by
  have hne : l.file.text.toList ≠ [] := fun hnil => hfile (String.toList_eq_nil_iff.1 hnil)
  have hmark : startsMark (':' :: (Json.natDigits l.line ++ ':' :: Json.natDigits l.column)) =
      true := by
    obtain ⟨d, ds, hds⟩ := List.exists_cons_of_ne_nil (Json.natDigits_ne_nil l.line)
    have hdigit : d.isDigit = true := Json.isDigit_of_mem_natDigits (n := l.line) (by simp [hds])
    simp [hds, startsMark, hdigit]
  have hcolon : ':' ∉ Json.natDigits l.line := fun hmem => by
    exact absurd (Json.isDigit_of_mem_natDigits hmem) (by decide)
  have hsome : ¬ l.display.toList.isEmpty = true := by simp [toList_display, hne]
  rw [read, trimBlanks_display hfile htrim, if_neg hsome, toList_display,
    splitPosition_append hne h hmark]
  simp only [splitAtFirst_append hcolon, readCoordinate_natDigits .line hline.1 hline.2,
    readCoordinate_natDigits .column hcolumn.1 hcolumn.2, String.ofList_toList]
  rfl

/-- What a mark in the file leaves of the location is refused: a colon is left in the column. -/
theorem exists_read_display_error {l : FileLocation} (hfile : l.file.text ≠ "")
    (htrim : trimmed l.file.text = l.file.text) (h : HoldsMark l.file.text.toList) :
    ∃ e, read l.display = .error e := by
  obtain ⟨front, back, -, hsplit⟩ := exists_splitPosition_append h
    (':' :: (Json.natDigits l.line ++ ':' :: Json.natDigits l.column))
  obtain ⟨before, after, hcut, hsuffix⟩ := exists_splitAtFirst_append ':' back
    (Json.natDigits l.line ++ ':' :: Json.natDigits l.column)
  have hcolon : ':' ∈ after := hsuffix.subset (by simp)
  obtain ⟨e, he⟩ := exists_readCoordinate_error .column hcolon
  have hsome : ¬ l.display.toList.isEmpty = true := by simp [toList_display]
  rw [read, trimBlanks_display hfile htrim, if_neg hsome, toList_display, hsplit]
  simp only [hcut]
  cases readCoordinate .line before with
  | error e => exact ⟨e, rfl⟩
  | ok line => exact ⟨e, by simp only [he]; rfl⟩

/-- **A written location reads back as itself just when its file holds no mark**; with one it is
refused, and never read as another location. -/
theorem read_display_iff_not_holdsMark {l : FileLocation} (hfile : l.file.text ≠ "")
    (htrim : trimmed l.file.text = l.file.text) (hline : 0 < l.line ∧ l.line < bound32)
    (hcolumn : 0 < l.column ∧ l.column < bound32) :
    (read l.display = .ok l ↔ ¬ HoldsMark l.file.text.toList) ∧
      (HoldsMark l.file.text.toList → ∃ e, read l.display = .error e) := by
  refine ⟨⟨fun hread hmark => ?_, read_display hfile htrim hline hcolumn⟩,
    exists_read_display_error hfile htrim⟩
  obtain ⟨e, he⟩ := exists_read_display_error hfile htrim hmark
  rw [he] at hread
  cases hread

/-- A file whose name begins and ends with colons and has a drive letter in it comes back; one in a
folder named for an hour, or with a minus sign behind a colon, does not. -/
theorem read_display_iff_not_holdsMark_colons :
    read (display ⟨⟨":C:\\a:b/c:"⟩, 10, 4294967295⟩) = .ok ⟨⟨":C:\\a:b/c:"⟩, 10, 4294967295⟩ ∧
      (∃ e, read (display ⟨⟨"logs/10:30/main.rs"⟩, 1, 5⟩) = .error e) ∧
      ∃ e, read (display ⟨⟨"src:-old/main.rs"⟩, 10, 5⟩) = .error e := by
  refine ⟨?_, ?_, ?_⟩
  · refine (read_display_iff_not_holdsMark ?_ ?_ ?_ ?_).1.2 ?_ <;> decide +kernel
  · refine (read_display_iff_not_holdsMark ?_ ?_ ?_ ?_).2 ?_ <;> decide +kernel
  · refine (read_display_iff_not_holdsMark ?_ ?_ ?_ ?_).2 ?_ <;> decide +kernel

end FileLocation
end LanguageClient
