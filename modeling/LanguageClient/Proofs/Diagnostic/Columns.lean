import LanguageClient.Command.Run
import LanguageClient.Proofs.Json.Object
import LanguageClient.Proofs.Text.Clipping

/-!
# Columns of diagnostics

A diagnostic is shown by a span of its first line, which ends where the line does. Where the line is
missing, the column past every line stands for its end. That is the last number of 32 bits, so that
counted from one it is none any more: the columns of a printed diagnostic are numbers of 32 bits but
for those of a diagnostic that goes on behind a missing line (`Diagnostic.columns_fit_iff`).
-/

namespace LanguageClient

/-- Whether the lines and columns of a range are numbers of 32 bits when they are counted from
one. -/
def Range.Countable (r : Range) : Prop :=
  ∀ p ∈ [r.start, r.stop], p.line < bound32 - 1 ∧ p.character < bound32 - 1

instance (r : Range) : Decidable r.Countable :=
  inferInstanceAs (Decidable (∀ p ∈ [r.start, r.stop], _))

namespace Diagnostic

variable {d : Diagnostic} {document : Option (List Char)} {length : Nat}

/-! ## The span -/

theorem start_render_le_stop (d : Diagnostic) (document : Option (List Char)) :
    (d.render document).start ≤ (d.render document).stop :=
  Nat.le_max_right _ _

/-- The span does not run past the end of its line. -/
theorem stop_render_le (h : document.bind (Text.lineLength d.range.start.line) = some length) :
    (d.render document).stop ≤ length := by
  rw [render, h]
  dsimp only [Option.getD_some]
  split <;> omega

/-- The span of a diagnostic on one line ends where the diagnostic does, or before. -/
theorem stop_render_of_line_eq (h : d.range.stop.line = d.range.start.line)
    (document : Option (List Char)) :
    (d.render document).stop ≤ max d.range.stop.character d.range.start.character := by
  rw [render]
  dsimp only
  rw [if_pos h]
  omega

/-- The span of any other one ends with its line, or in the column past every line. -/
theorem stop_render_of_line_ne (h : d.range.stop.line ≠ d.range.start.line)
    (document : Option (List Char)) :
    (d.render document).stop =
      (document.bind (Text.lineLength d.range.start.line)).getD lastColumn := by
  rw [render]
  dsimp only
  rw [if_neg h]
  omega

/-! ## Printed columns -/

/-- Whether a diagnostic goes on behind a line that ends nowhere: there is no document, or the
document has no such line, or none whose end 32 bits can count. -/
def RunsOver (d : Diagnostic) (document : Option (List Char)) : Prop :=
  d.range.stop.line ≠ d.range.start.line ∧
    ∀ text line, document = some text → (Text.lines text)[d.range.start.line]? = some line →
      bound32 - 1 ≤ Text.units (Text.content line)

theorem bind_lineLength_eq_some_iff {n : Nat} :
    document.bind (Text.lineLength n) = some length ↔
      ∃ text line, document = some text ∧ (Text.lines text)[n]? = some line ∧
        Text.units (Text.content line) = length := by
  cases document with
  | none => simp
  | some text => simp [Text.lineLength_eq]

theorem stop_render_lt_iff (h : d.range.Countable) :
    (d.render document).stop < bound32 - 1 ↔ ¬ d.RunsOver document := by
  have hstart := h d.range.start (by simp)
  have hstop := h d.range.stop (by simp)
  by_cases hline : d.range.stop.line = d.range.start.line
  · have hle := stop_render_of_line_eq hline document
    exact iff_of_true (by omega) fun hover => hover.1 hline
  · rw [stop_render_of_line_ne hline]
    cases hlength : document.bind (Text.lineLength d.range.start.line) with
    | none =>
      have hover : d.RunsOver document := by
        refine ⟨hline, fun text line htext hthere => ?_⟩
        rw [bind_lineLength_eq_some_iff.2 ⟨text, line, htext, hthere, rfl⟩] at hlength
        cases hlength
      exact iff_of_false (Nat.lt_irrefl _) (not_not_intro hover)
    | some length =>
      obtain ⟨text, line, htext, hthere, rfl⟩ := bind_lineLength_eq_some_iff.1 hlength
      rw [Option.getD_some]
      constructor
      · intro hlt hover
        exact absurd (hover.2 text line htext hthere) (Nat.not_le.2 hlt)
      · intro hover
        refine Nat.not_le.1 fun hle => hover ⟨hline, fun text' line' htext' hthere' => ?_⟩
        obtain rfl := Option.some.inj (htext.symm.trans htext')
        obtain rfl := Option.some.inj (hthere.symm.trans hthere')
        exact hle

/-- A printed diagnostic counts its line and columns from one. -/
theorem get?_printedDiagnostic (server : String) (r : RenderedDiagnostic) :
    (Command.printedDiagnostic server r).get? "line" = some (.int (r.line + 1 : Nat)) ∧
      (Command.printedDiagnostic server r).get? "column" = some (.int (r.start + 1 : Nat)) ∧
      (Command.printedDiagnostic server r).get? "end_column" = some (.int (r.stop + 1 : Nat)) := by
  simp [Command.printedDiagnostic, Json.get?_object]

/-- **The columns of a printed diagnostic are numbers of 32 bits just when it does not go on behind
a missing line.** Its span is ordered and keeps to its line, and its line and first column are
always such numbers. -/
theorem columns_fit_iff (h : d.range.Countable) (document : Option (List Char)) (server : String) :
    let r := d.render document
    let printed := Command.printedDiagnostic server r
    r.start ≤ r.stop ∧
    (∀ text line, document = some text → (Text.lines text)[r.line]? = some line →
      r.stop ≤ Text.units (Text.content line)) ∧
    ∃ line column endColumn : Nat, printed.get? "line" = some (.int line) ∧
      printed.get? "column" = some (.int column) ∧
      printed.get? "end_column" = some (.int endColumn) ∧
      line < bound32 ∧ column < bound32 ∧ column ≤ endColumn ∧
      (endColumn < bound32 ↔ ¬ d.RunsOver document) := by
  intro r printed
  have hstart := h d.range.start (by simp)
  have hordered : r.start ≤ r.stop := start_render_le_stop d document
  have hcolumn : r.start ≤ d.range.start.character := Nat.min_le_left _ _
  have hstop : r.stop < bound32 - 1 ↔ ¬ d.RunsOver document := stop_render_lt_iff h
  obtain ⟨hline, hfirst, hlast⟩ := get?_printedDiagnostic server r
  refine ⟨hordered, fun text line htext hthere => ?_, r.line + 1, r.start + 1, r.stop + 1, hline,
    hfirst, hlast, ?_, by omega, by omega, ?_⟩
  · exact stop_render_le (bind_lineLength_eq_some_iff.2 ⟨text, line, htext, hthere, rfl⟩)
  · have hsame : r.line = d.range.start.line := rfl
    omega
  · rw [← hstop]
    omega

/-- A diagnostic that goes on behind its line fits a document with that line and does not fit one
that is too short. -/
theorem columns_fit_iff_short :
    let d : Diagnostic := ⟨⟨⟨1, 4294967294⟩, ⟨2, 0⟩⟩, .error, "m", none, none⟩
    d.range.Countable ∧
    (∃ endColumn : Nat, endColumn < bound32 ∧
      (Command.printedDiagnostic "s" (d.render (some ['a', '\n', 'b']))).get? "end_column" =
        some (.int endColumn)) ∧
    ∃ endColumn : Nat, bound32 ≤ endColumn ∧
      (Command.printedDiagnostic "s" (d.render (some ['a']))).get? "end_column" =
        some (.int endColumn) := by
  intro d
  have hcountable : d.range.Countable := by decide
  refine ⟨hcountable, ?_, ?_⟩
  · obtain ⟨-, -, -, -, endColumn, -, -, hprinted, -, -, -, hfits⟩ :=
      columns_fit_iff hcountable (some ['a', '\n', 'b']) "s"
    refine ⟨endColumn, hfits.2 fun hover => ?_, hprinted⟩
    exact absurd (hover.2 _ ['b'] rfl (by decide)) (by decide)
  · obtain ⟨-, -, -, -, endColumn, -, -, hprinted, -, -, -, hfits⟩ :=
      columns_fit_iff hcountable (some ['a']) "s"
    have hmissing : (Text.lines ['a'])[d.range.start.line]? = none := by decide
    refine ⟨endColumn, Nat.not_lt.1 fun hlt => hfits.1 hlt ⟨by decide, ?_⟩, hprinted⟩
    rintro text line htext hthere
    obtain rfl := Option.some.inj htext
    rw [hmissing] at hthere
    cases hthere

end Diagnostic
end LanguageClient
