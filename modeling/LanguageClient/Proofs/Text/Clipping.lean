import LanguageClient.Proofs.Text.Offset
import Mathlib.Data.List.TakeWhile

/-!
# Positions and offsets back and forth

The position of an offset has that offset again, and the offset of a position has that position
again, as far as a line has room for it (`Position.inverse_up_to_clipping`). All the functions
concerned skip the lines before the one that they are about: a text is taken apart into those lines
(`WholeLines`) and the rest, and each function is told by what it does with the two parts.
-/

namespace LanguageClient

namespace Text

variable {n : Nat} {cs front rest line : List Char}

/-! ## Lines before a place -/

/-- Texts of so many whole lines, each with its line feed. -/
inductive WholeLines : Nat → List Char → Prop
  | nil : WholeLines 0 []
  | feed {n : Nat} {cs : List Char} (h : WholeLines n cs) : WholeLines (n + 1) ('\n' :: cs)
  | char {n : Nat} {cs : List Char} {c : Char} (hc : c ≠ '\n') (h : WholeLines (n + 1) cs) :
      WholeLines (n + 1) (c :: cs)

theorem WholeLines.eq_nil (h : WholeLines 0 front) : front = [] := by
  cases h
  rfl

/-- A line that is there starts behind whole lines, one for each number below its own. -/
theorem fromLine_eq_some_iff :
    fromLine n cs = some rest ↔ ∃ front, cs = front ++ rest ∧ WholeLines n front := by
  fun_induction fromLine n cs with
  | case1 cs =>
    constructor
    · intro h
      exact ⟨[], Option.some.inj h, .nil⟩
    · rintro ⟨front, rfl, hfront⟩
      rw [hfront.eq_nil, List.nil_append]
  | case2 n =>
    constructor
    · intro h
      cases h
    · rintro ⟨front, heq, hfront⟩
      rw [(List.append_eq_nil_iff.1 heq.symm).1] at hfront
      cases hfront
  | case3 n cs ih =>
    rw [ih]
    constructor
    · rintro ⟨front, rfl, hfront⟩
      exact ⟨'\n' :: front, rfl, hfront.feed⟩
    · rintro ⟨front, heq, hfront⟩
      cases hfront with
      | feed h => exact ⟨_, (List.cons.inj heq).2, h⟩
      | char hc _ => exact absurd (List.cons.inj heq).1.symm hc
  | case4 n c cs hc ih =>
    rw [ih]
    constructor
    · rintro ⟨front, rfl, hfront⟩
      exact ⟨c :: front, rfl, hfront.char hc⟩
    · rintro ⟨front, heq, hfront⟩
      cases hfront with
      | feed _ => exact absurd (List.cons.inj heq).1 hc
      | char _ h => exact ⟨_, (List.cons.inj heq).2, h⟩

theorem WholeLines.eq_of_mem_getLast? (h : WholeLines n front) :
    ∀ c ∈ front.getLast?, c = '\n' := by
  induction h with
  | nil => exact fun c hc => by cases hc
  | @feed _ cs _ ih =>
    cases hlast : cs.getLast? with
    | none => simp [List.getLast?_cons, hlast]
    | some d => simpa [List.getLast?_cons, hlast] using ih
  | @char _ cs c _ h ih =>
    cases hlast : cs.getLast? with
    | none =>
      rw [List.getLast?_eq_none_iff.1 hlast] at h
      cases h
    | some d => simpa [List.getLast?_cons, hlast] using ih

/-- Every text is so many whole lines, one for each line feed, and one that goes on. -/
theorem exists_wholeLines (cs : List Char) :
    ∃ front last, cs = front ++ last ∧ WholeLines (cs.count '\n') front ∧ '\n' ∉ last := by
  induction cs with
  | nil => exact ⟨[], [], rfl, .nil, List.not_mem_nil⟩
  | cons c cs ih =>
    obtain ⟨front, last, heq, hfront, hlast⟩ := ih
    by_cases hc : c = '\n'
    · subst hc
      refine ⟨'\n' :: front, last, by rw [List.cons_append, ← heq], ?_, hlast⟩
      rw [List.count_cons_self]
      exact hfront.feed
    · rw [List.count_cons_of_ne hc]
      -- whether there is a line feed at all says where the character goes
      cases hcount : cs.count '\n' with
      | zero =>
        rw [hcount] at hfront
        rw [hfront.eq_nil, List.nil_append] at heq
        refine ⟨[], c :: last, by rw [heq, List.nil_append], .nil, ?_⟩
        simp [hlast, Ne.symm hc]
      | succ n =>
        rw [hcount] at hfront
        exact ⟨c :: front, last, by rw [List.cons_append, ← heq], hfront.char hc, hlast⟩

/-- A text has a line for each line feed and one more. -/
theorem isSome_fromLine_iff (n : Nat) (cs : List Char) :
    (fromLine n cs).isSome = true ↔ n ≤ cs.count '\n' := by
  fun_induction fromLine n cs with
  | case1 => simp
  | case2 => simp
  | case3 n cs ih => rw [ih, List.count_cons_self, Nat.succ_le_succ_iff]
  | case4 n c cs hc ih => rw [ih, List.count_cons_of_ne hc]

theorem fromLine_eq_none_iff : fromLine n cs = none ↔ cs.count '\n' < n := by
  rw [← Nat.not_le, ← isSome_fromLine_iff, Bool.not_eq_true, Option.isSome_eq_false_iff,
    Option.isNone_iff_eq_none]

/-- A carriage return behind whole lines is one of the line that goes on. -/
theorem WholeLines.getLast?_append_eq_return (h : WholeLines n front) :
    (front ++ rest).getLast? = some '\r' ↔ rest.getLast? = some '\r' := by
  rw [List.getLast?_append]
  cases hrest : rest.getLast? with
  | some c => rfl
  | none =>
    rw [Option.none_or]
    refine ⟨fun hreturn => ?_, fun hnone => by cases hnone⟩
    exact absurd (h.eq_of_mem_getLast? '\r' hreturn) (by decide)

/-! ## What the functions do with whole lines -/

theorem WholeLines.offsetAt_append (h : WholeLines n front) (column : Nat) (rest : List Char) :
    offsetAt n column (front ++ rest) =
      byteLength front + columnOffset column (firstLine rest) := by
  induction h with
  | nil => cases rest <;> simp [offsetAt, byteLength]
  | feed _ ih => rw [List.cons_append, offsetAt, if_pos rfl, ih, byteLength, Nat.add_assoc]
  | char hc _ ih => rw [List.cons_append, offsetAt, if_neg hc, ih, byteLength, Nat.add_assoc]

theorem offsetAt_of_count_lt (h : cs.count '\n' < n) (column : Nat) :
    offsetAt n column cs = byteLength cs := by
  induction cs generalizing n with
  | nil =>
    cases n with
    | zero => cases h
    | succ n => rfl
  | cons c cs ih =>
    obtain ⟨n, rfl⟩ := Nat.exists_eq_add_of_lt h
    by_cases hc : c = '\n'
    · subst hc
      rw [List.count_cons_self] at h ⊢
      rw [offsetAt, if_pos rfl, ih (by omega), byteLength]
    · rw [List.count_cons_of_ne hc] at h ⊢
      rw [offsetAt, if_neg hc, ih (by omega), byteLength]

theorem advance_append (p : Position) (as bs : List Char) :
    advance p (as ++ bs) = advance (advance p as) bs := by
  induction as generalizing p with
  | nil => rfl
  | cons a as ih => exact ih _

theorem advance_of_not_mem (p : Position) (h : '\n' ∉ cs) :
    advance p cs = ⟨p.line, p.character + units cs⟩ := by
  induction cs generalizing p with
  | nil => rfl
  | cons c cs ih =>
    obtain ⟨hc, hcs⟩ := not_or.1 (fun hmem => h (List.mem_cons.2 hmem))
    rw [advance, if_neg (Ne.symm hc), ih _ hcs, units, Nat.add_assoc]

theorem WholeLines.advance_eq (h : WholeLines n front) (p : Position) :
    advance p front = ⟨p.line + n, if n = 0 then p.character else 0⟩ := by
  induction h generalizing p with
  | nil => rfl
  | feed _ ih =>
    rw [advance, if_pos rfl, ih]
    simp [Nat.add_assoc, Nat.add_comm 1]
  | char hc _ ih =>
    rw [advance, if_neg hc, ih]
    simp

/-- The position behind whole lines and a part of the next. -/
theorem WholeLines.ofOffset_append (h : WholeLines n front) {part : List Char}
    (hpart : '\n' ∉ part) (back : List Char) :
    Position.ofOffset (front ++ (part ++ back)) (byteLength front + byteLength part) =
      ⟨n, units part⟩ := by
  rw [Position.ofOffset, takeBytes_add, takeBytes_byteLength, advance_append, h.advance_eq,
    advance_of_not_mem _ hpart]
  simp [Position.zero]

/-! ## The lines of a text -/

/-- What a line holds besides its break, of which a carriage return before the line feed is part. -/
def content (line : List Char) : List Char :=
  if line.getLast? = some '\r' then line.dropLast else line

theorem firstLine_eq (cs : List Char) : firstLine cs = content (cs.takeWhile (· ≠ '\n')) := rfl

theorem lines_feed (cs : List Char) : lines ('\n' :: cs) = [] :: lines cs := by
  rw [lines, List.splitOn_cons_eq_if_modifyHead, if_pos (by simp), lines]

theorem lines_char {c : Char} (hc : c ≠ '\n') (cs : List Char) :
    lines (c :: cs) = (lines cs).modifyHead (c :: ·) := by
  rw [lines, List.splitOn_cons_eq_if_modifyHead, if_neg (by simpa using hc), lines]

theorem length_lines (cs : List Char) : (lines cs).length = cs.count '\n' + 1 := by
  induction cs with
  | nil => rfl
  | cons c cs ih =>
    by_cases hc : c = '\n'
    · subst hc
      rw [lines_feed, List.length_cons, ih, List.count_cons_self]
    · rw [lines_char hc, List.length_modifyHead, ih, List.count_cons_of_ne hc]

theorem lines_zero (cs : List Char) : (lines cs)[0]? = some (cs.takeWhile (· ≠ '\n')) := by
  induction cs with
  | nil => rfl
  | cons c cs ih =>
    by_cases hc : c = '\n'
    · subst hc
      rw [lines_feed]
      simp
    · rw [lines_char hc, List.getElem?_modifyHead_zero, ih]
      simp [hc]

/-- The line behind whole lines runs to the next line feed. -/
theorem WholeLines.lines_append (h : WholeLines n front) (rest : List Char) :
    (lines (front ++ rest))[n]? = some (rest.takeWhile (· ≠ '\n')) := by
  induction h with
  | nil => exact lines_zero rest
  | feed _ ih => rw [List.cons_append, lines_feed, List.getElem?_cons_succ, ih]
  | char hc _ ih => rw [List.cons_append, lines_char hc, List.getElem?_modifyHead_succ, ih]

/-! ## Columns of a line -/

/-- The columns between the characters of a line and at its ends. -/
def IsColumn (column : Nat) (line : List Char) : Prop :=
  ∃ front back, line = front ++ back ∧ units front = column

/-- Whether a column is the least one of a line at or above `wanted`, or the line's length if
`wanted` is past it. -/
def ClipsColumn (line : List Char) (wanted column : Nat) : Prop :=
  (IsColumn column line ∧ wanted ≤ column ∧
      ∀ other, IsColumn other line → wanted ≤ other → column ≤ other) ∨
    (units line < wanted ∧ column = units line)

theorem units_append (as bs : List Char) : units (as ++ bs) = units as + units bs := by
  induction as with
  | nil => simp [units]
  | cons a as ih => rw [List.cons_append, units, ih, units, Nat.add_assoc]

theorem charUnits_pos (c : Char) : 0 < charUnits c := by
  unfold charUnits
  split
  · exact Nat.zero_lt_one
  · exact Nat.zero_lt_two

theorem isColumn_cons_iff {c : Char} {column : Nat} :
    IsColumn column (c :: cs) ↔
      column = 0 ∨ ∃ other, IsColumn other cs ∧ column = charUnits c + other := by
  constructor
  · rintro ⟨front, back, heq, rfl⟩
    cases front with
    | nil => exact .inl rfl
    | cons d front =>
      obtain ⟨rfl, rfl⟩ := List.cons.inj heq
      exact .inr ⟨units front, ⟨front, back, rfl, rfl⟩, rfl⟩
  · rintro (rfl | ⟨other, ⟨front, back, rfl, rfl⟩, rfl⟩)
    · exact ⟨[], c :: cs, rfl, rfl⟩
    · exact ⟨c :: front, back, rfl, rfl⟩

/-- The offset of a column is behind the part of the line whose units it is clipped to. -/
theorem exists_columnOffset_eq (wanted : Nat) (line : List Char) :
    ∃ front back, line = front ++ back ∧ columnOffset wanted line = byteLength front ∧
      ClipsColumn line wanted (units front) := by
  induction line generalizing wanted with
  | nil =>
    refine ⟨[], [], rfl, ?_, ?_⟩
    · cases wanted <;> rfl
    · cases wanted with
      | zero => exact .inl ⟨⟨[], [], rfl, rfl⟩, Nat.le_refl _, fun _ _ _ => Nat.zero_le _⟩
      | succ k => exact .inr ⟨Nat.zero_lt_succ k, rfl⟩
  | cons c cs ih =>
    cases wanted with
    | zero =>
      exact ⟨[], c :: cs, rfl, rfl,
        .inl ⟨⟨[], c :: cs, rfl, rfl⟩, Nat.le_refl _, fun _ _ _ => Nat.zero_le _⟩⟩
    | succ k =>
      obtain ⟨front, back, heq, hoffset, hclips⟩ := ih (k + 1 - charUnits c)
      refine ⟨c :: front, back, by rw [heq, List.cons_append],
        by rw [columnOffset, hoffset, byteLength], ?_⟩
      rcases hclips with ⟨hcolumn, hreach, hleast⟩ | ⟨hpast, hend⟩
      · refine .inl ⟨isColumn_cons_iff.2 (.inr ⟨_, hcolumn, rfl⟩), by rw [units]; omega, ?_⟩
        intro other hother hle
        rcases isColumn_cons_iff.1 hother with rfl | ⟨rest, hrest, rfl⟩
        · omega
        · exact Nat.add_le_add_left (hleast rest hrest (by omega)) _
      · exact .inr ⟨by rw [units]; omega, by rw [units, units, hend]⟩

/-- A column between two characters of a line has its offset there. -/
theorem columnOffset_units_append (front back : List Char) :
    columnOffset (units front) (front ++ back) = byteLength front := by
  induction front with
  | nil =>
    rw [units, List.nil_append, byteLength]
    cases back <;> rfl
  | cons c front ih =>
    obtain ⟨k, hk⟩ := Nat.exists_eq_add_one.2 (charUnits_pos c)
    have hunits : units (c :: front) = k + units front + 1 := by
      rw [units, hk]
      omega
    have hrest : k + units front + 1 - charUnits c = units front := by omega
    rw [List.cons_append, hunits, columnOffset, hrest, ih, byteLength]

/-- A column past the end of a line has the line's end for its offset. -/
theorem columnOffset_of_units_lt {wanted : Nat} (h : units line < wanted) :
    columnOffset wanted line = byteLength line := by
  induction line generalizing wanted with
  | nil => cases wanted <;> rfl
  | cons c cs ih =>
    rw [units] at h
    obtain ⟨k, rfl⟩ := Nat.exists_eq_add_of_lt h
    rw [columnOffset, ih (by omega), byteLength]

/-! ## Line breaks -/

/-- Whether an offset lies behind a carriage return that ends its line, by a line feed that follows
or because the text ends there. -/
def BehindReturn (n : Nat) (cs : List Char) : Prop :=
  (takeBytes n cs).getLast? = some '\r' ∧
    (dropBytes n cs = [] ∨ (dropBytes n cs).head? = some '\n')

instance (n : Nat) (cs : List Char) : Decidable (BehindReturn n cs) :=
  inferInstanceAs (Decidable (_ ∧ (_ ∨ _)))

theorem takeWhile_append_of_not_mem (h : '\n' ∉ line) (back : List Char) :
    (line ++ back).takeWhile (· ≠ '\n') = line ++ back.takeWhile (· ≠ '\n') := by
  rw [List.takeWhile_append_of_pos]
  intro c hc
  simpa using fun heq : c = '\n' => h (heq ▸ hc)

theorem takeWhile_eq_nil_iff {back : List Char} :
    back.takeWhile (· ≠ '\n') = [] ↔ back = [] ∨ back.head? = some '\n' := by
  cases back with
  | nil => simp
  | cons c back => by_cases hc : c = '\n' <;> simp [hc]

/-- Before a line feed or the end of the text, a carriage return is part of the break. -/
theorem firstLine_of_return {part back : List Char} (h : '\n' ∉ part)
    (hback : back = [] ∨ back.head? = some '\n') :
    firstLine (part ++ '\r' :: back) = part := by
  have hmem : '\n' ∉ part ++ ['\r'] := by simpa using h
  have happend : part ++ '\r' :: back = (part ++ ['\r']) ++ back := by simp
  rw [firstLine_eq, happend, takeWhile_append_of_not_mem hmem, takeWhile_eq_nil_iff.2 hback]
  simp [content]

/-- Elsewhere a line holds what comes before an offset in it. -/
theorem exists_firstLine_append {part back : List Char} (h : '\n' ∉ part)
    (hbreak : ¬ (part.getLast? = some '\r' ∧ (back = [] ∨ back.head? = some '\n'))) :
    ∃ more, firstLine (part ++ back) = part ++ more := by
  rw [firstLine_eq, takeWhile_append_of_not_mem h, content]
  split
  · next hlast =>
    by_cases htail : back.takeWhile (· ≠ '\n') = []
    · rw [htail, List.append_nil] at hlast
      exact absurd ⟨hlast, takeWhile_eq_nil_iff.1 htail⟩ hbreak
    · exact ⟨_, List.dropLast_append_of_ne_nil htail⟩
  · exact ⟨_, rfl⟩

theorem not_mem_firstLine (cs : List Char) : '\n' ∉ firstLine cs := by
  have hline : '\n' ∉ cs.takeWhile (· ≠ '\n') := fun hmem => by
    simpa using List.mem_takeWhile_imp hmem
  rw [firstLine_eq, content]
  split
  · exact fun hmem => hline (List.dropLast_subset _ hmem)
  · exact hline

/-! ## Lengths of lines -/

theorem lineLength_eq (n : Nat) (cs : List Char) :
    lineLength n cs = (lines cs)[n]?.map fun line => units (content line) := by
  cases hline : fromLine n cs with
  | some rest =>
    obtain ⟨front, rfl, hfront⟩ := fromLine_eq_some_iff.1 hline
    rw [lineLength, hline, hfront.lines_append, Option.map_some, Option.map_some, firstLine_eq]
  | none =>
    have hshort : (lines cs).length ≤ n := by
      rw [length_lines]
      exact fromLine_eq_none_iff.1 hline
    rw [lineLength, hline, List.getElem?_eq_none hshort, Option.map_none, Option.map_none]

/-- No line is longer than the text. -/
theorem lineLength_bound {length : Nat} (h : lineLength n cs = some length) :
    length ≤ units cs := by
  obtain ⟨rest, hrest, rfl⟩ := Option.map_eq_some_iff.1 h
  obtain ⟨front, rfl, -⟩ := fromLine_eq_some_iff.1 hrest
  obtain ⟨more, hmore⟩ := firstLine_append rest
  have hunits := units_append (firstLine rest) more
  rw [← hmore] at hunits
  rw [units_append]
  omega

/-- Reading on never gives more lines and columns than there are units. -/
theorem advance_bound (p : Position) (cs : List Char) :
    (advance p cs).line + (advance p cs).character ≤ p.line + p.character + units cs := by
  induction cs generalizing p with
  | nil => exact Nat.le_refl _
  | cons c cs ih =>
    have hpos := charUnits_pos c
    rw [advance, units]
    split
    · have h := ih ⟨p.line + 1, 0⟩
      simp only at h
      omega
    · have h := ih ⟨p.line, p.character + charUnits c⟩
      simp only at h
      omega

end Text

namespace Position

open Text

variable {text : List Char} {n : Nat}

/-- Whether `q` is where `p` is clipped to in a text: to a column of its line, if there is one, and
else to the end of the text, which is behind its last line with all that it holds. -/
structure ClipsTo (text : List Char) (p q : Position) : Prop where
  within : ∀ line, (lines text)[p.line]? = some line →
    q.line = p.line ∧ ClipsColumn (content line) p.character q.character
  outside : (lines text)[p.line]? = none →
    ∃ last, (lines text).getLast? = some last ∧ q = ⟨text.count '\n', units last⟩

/-- The position of the end of a text. -/
theorem exists_ofOffset_byteLength (text : List Char) :
    ∃ last, (lines text).getLast? = some last ∧
      ofOffset text (byteLength text) = ⟨text.count '\n', units last⟩ := by
  obtain ⟨front, last, heq, hfront, hlast⟩ := exists_wholeLines text
  refine ⟨last, ?_, ?_⟩
  · have hline := hfront.lines_append last
    have hall := takeWhile_append_of_not_mem hlast []
    simp only [List.append_nil, List.takeWhile_nil] at hall
    rw [← heq, hall] at hline
    rw [List.getLast?_eq_getElem?, length_lines, Nat.add_sub_cancel, hline]
  · have hend := hfront.ofOffset_append hlast []
    rwa [List.append_nil, ← heq, ← byteLength_append, ← heq] at hend

/-- The offset of a position has the position again, clipped to the text. -/
theorem clipsTo_ofOffset_offset (text : List Char) (p : Position) :
    ClipsTo text p (ofOffset text (p.offset text)) := by
  cases hline : fromLine p.line text with
  | some rest =>
    obtain ⟨front, rfl, hfront⟩ := fromLine_eq_some_iff.1 hline
    obtain ⟨part, back, hpart, hoffset, hclips⟩ :=
      exists_columnOffset_eq p.character (firstLine rest)
    obtain ⟨more, hmore⟩ := firstLine_append rest
    have hrest : rest = part ++ (back ++ more) := by
      rw [← List.append_assoc, ← hpart, ← hmore]
    have hfeed : '\n' ∉ part := fun hmem => by
      refine not_mem_firstLine rest ?_
      rw [hpart]
      exact List.mem_append_left _ hmem
    have hplace : ofOffset (front ++ rest) (p.offset (front ++ rest)) = ⟨p.line, units part⟩ := by
      rw [offset, hfront.offsetAt_append, hoffset]
      rw [hrest]
      exact hfront.ofOffset_append hfeed _
    rw [hplace]
    refine ⟨?_, ?_⟩
    · intro line hthere
      rw [hfront.lines_append] at hthere
      rw [← Option.some.inj hthere, ← firstLine_eq]
      exact ⟨rfl, hclips⟩
    · intro hmissing
      rw [hfront.lines_append] at hmissing
      cases hmissing
  | none =>
    have hcount : text.count '\n' < p.line := by
      rw [← Nat.not_le, ← isSome_fromLine_iff, hline]
      simp
    have hshort : (lines text)[p.line]? = none := by
      apply List.getElem?_eq_none
      rw [length_lines]
      omega
    refine ⟨?_, fun _ => ?_⟩
    · intro line hthere
      rw [hshort] at hthere
      cases hthere
    · rw [offset, offsetAt_of_count_lt hcount]
      exact exists_ofOffset_byteLength text

/-- The position of an offset between two characters has the offset again, or, behind a carriage
return that ends its line, the one before that. -/
theorem offset_ofOffset (h : IsBoundary n text) :
    (¬ BehindReturn n text → (ofOffset text n).offset text = n) ∧
      (BehindReturn n text → (ofOffset text n).offset text + 1 = n) := by
  obtain ⟨before, back, rfl, rfl⟩ := h
  obtain ⟨front, part, rfl, hfront, hpart⟩ := exists_wholeLines before
  have hplace : ofOffset ((front ++ part) ++ back) (byteLength (front ++ part)) =
      ⟨(front ++ part).count '\n', units part⟩ := by
    rw [List.append_assoc, byteLength_append]
    exact hfront.ofOffset_append hpart back
  have hoffset : (ofOffset ((front ++ part) ++ back) (byteLength (front ++ part))).offset
      ((front ++ part) ++ back) =
        byteLength front + columnOffset (units part) (firstLine (part ++ back)) := by
    rw [hplace, offset, List.append_assoc]
    exact hfront.offsetAt_append _ _
  have hbreak : BehindReturn (byteLength (front ++ part)) ((front ++ part) ++ back) ↔
      part.getLast? = some '\r' ∧ (back = [] ∨ back.head? = some '\n') := by
    rw [BehindReturn, takeBytes_byteLength, dropBytes_byteLength, hfront.getLast?_append_eq_return]
  rw [hoffset, hbreak, byteLength_append]
  constructor
  · intro hnone
    obtain ⟨more, hmore⟩ := exists_firstLine_append hpart hnone
    rw [hmore, columnOffset_units_append]
  · rintro ⟨hlast, hback⟩
    obtain ⟨line, rfl⟩ : ∃ line, part = line ++ ['\r'] := List.getLast?_eq_some_iff.1 hlast
    have hline : '\n' ∉ line := fun hmem => hpart (List.mem_append_left _ hmem)
    have hpast : units line < units (line ++ ['\r']) := by
      rw [units_append]
      exact Nat.lt_add_of_pos_right (by decide)
    rw [List.append_assoc, List.singleton_append, firstLine_of_return hline hback,
      columnOffset_of_units_lt hpast, byteLength_append, Nat.add_assoc]
    rfl

/-- No text has a position of more lines and columns than it has units. -/
theorem ofOffset_bound (text : List Char) (n : Nat) :
    (ofOffset text n).line + (ofOffset text n).character ≤ units text := by
  have hbound := advance_bound zero (takeBytes n text)
  have hunits := units_append (takeBytes n text) (dropBytes n text)
  rw [takeBytes_append_dropBytes] at hunits
  simp only [zero] at hbound
  rw [ofOffset, zero]
  omega

/-- **Positions and offsets undo each other up to clipping.** An offset between two characters comes
back, but for one behind a carriage return that ends its line, which comes back as the one before
it; a position comes back clipped to the text. A text has the lines up to the number of its line
feeds, each with the length of what it holds besides its break, and no line, column or length is
more than the units of the text. -/
theorem inverse_up_to_clipping (text : List Char) :
    (∀ n, IsBoundary n text →
      (¬ BehindReturn n text → (ofOffset text n).offset text = n) ∧
      (BehindReturn n text → (ofOffset text n).offset text + 1 = n)) ∧
    (∀ p, ClipsTo text p (ofOffset text (p.offset text))) ∧
    (∀ line, (lineLength line text).isSome = true ↔ line ≤ text.count '\n') ∧
    (∀ line, lineLength line text = (lines text)[line]?.map fun cs => units (content cs)) ∧
    (∀ n, (ofOffset text n).line + (ofOffset text n).character ≤ units text) ∧
    ∀ line length, lineLength line text = some length → length ≤ units text := by
  refine ⟨fun n => offset_ofOffset, clipsTo_ofOffset_offset text, fun line => ?_,
    fun line => lineLength_eq line text, ofOffset_bound text, fun line length => ?_⟩
  · rw [lineLength, Option.isSome_map, isSome_fromLine_iff]
  · exact lineLength_bound

/-- Where the second line starts the offset comes back, at the end, behind a carriage return, it
does not, and a column within the emoji is clipped to the one behind it. -/
theorem inverse_up_to_clipping_emoji :
    let text := ['a', '\r', '\n', '😀', '\r']
    (IsBoundary 3 text ∧ ¬ BehindReturn 3 text ∧ (ofOffset text 3).offset text = 3) ∧
    (IsBoundary 8 text ∧ BehindReturn 8 text ∧ (ofOffset text 8).offset text + 1 = 8) ∧
    ClipsTo text ⟨1, 1⟩ ⟨1, 2⟩ := by
  intro text
  obtain ⟨hoffset, hposition, -⟩ := inverse_up_to_clipping text
  have hstart : IsBoundary 3 text := ⟨['a', '\r', '\n'], ['😀', '\r'], rfl, by decide⟩
  have hend : IsBoundary 8 text := ⟨text, [], rfl, by decide⟩
  have hinside : ofOffset text (offset ⟨1, 1⟩ text) = ⟨1, 2⟩ := by decide
  refine ⟨⟨hstart, by decide, (hoffset 3 hstart).1 (by decide)⟩,
    ⟨hend, by decide, (hoffset 8 hend).2 (by decide)⟩, ?_⟩
  rw [← hinside]
  exact hposition ⟨1, 1⟩

end Position
end LanguageClient
