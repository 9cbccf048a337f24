import Mathlib.Order.Interval.Finset.Nat
import TemplateCompiler.Proofs.Text.Lines
import TemplateCompiler.Report.Sheet

/-! What is relied on when a sheet is drawn. A drawing is a parameter: nothing is known of
its rows but the marks that can be seen in them, and of these only what its laws say. -/
namespace TemplateCompiler.Report

/-- A labelled line of the source, as it can be seen in a report: its number, the column
that is named with it, and the columns that are underlined. All are counted from one. -/
@[ext]
structure Mark where
  number : Nat
  column : Nat
  underlined : Finset Nat
  deriving DecidableEq

/-- The mark of a range of characters, each of which is one column wide. -/
def Mark.ofRange (source : String) (range : Span) : Mark :=
  let before := source.toList.take range.start
  let column := (Text.openLine before).length + 1
  { number := before.count '\n' + 1
    column := column
    underlined := Finset.Ico column (column + (range.stop - range.start)) }

/-- Line and column tell where a range starts, and the underlined columns how long it is. -/
theorem Mark.ofRange_inj {source : String} {range other : Span}
    (hRange : range.start < range.stop ∧ range.stop ≤ source.length)
    (hOther : other.start < other.stop ∧ other.stop ≤ source.length)
    (hMarks : Mark.ofRange source range = Mark.ofRange source other) : range = other := by
  rw [Mark.ofRange, Mark.ofRange, Mark.mk.injEq, Nat.add_left_inj, Nat.add_left_inj] at hMarks
  obtain ⟨hNumber, hColumn, hUnderlined⟩ := hMarks
  have hStart : range.start = other.start := by
    rw [← String.length_toList] at hRange hOther
    exact Text.eq_of_line_and_column (by omega) (by omega) hNumber hColumn
  have hLength := congrArg Finset.card hUnderlined
  rw [Nat.card_Ico, Nat.card_Ico, Nat.add_sub_cancel_left, Nat.add_sub_cancel_left] at hLength
  obtain ⟨start, stop⟩ := range
  obtain ⟨first, last⟩ := other
  dsimp only at hStart hLength hRange hOther
  rw [Span.mk.injEq]
  omega

/-- A line feed in a range of characters that is not its last one. -/
def HasBreak (source : String) (range : Span) : Prop :=
  '\n' ∈ (source.toList.take (range.stop - 1)).drop range.start

instance (source : String) (range : Span) : Decidable (HasBreak source range) :=
  inferInstanceAs (Decidable ('\n' ∈ (source.toList.take (range.stop - 1)).drop range.start))

/-- Nothing but a line feed ends a line, and every other character takes one column: there
are no tabs, and no characters of another width. -/
def IsPlain (width : Char → Nat) (source : String) : Prop :=
  ∀ c ∈ source.toList, c = '\n' ∨ (c ∉ Text.lineEnds ∧ c ≠ '\t' ∧ width c = 1)

instance (width : Char → Nat) (source : String) : Decidable (IsPlain width source) :=
  decidable_of_iff (source.toList.all fun c =>
    decide (c = '\n' ∨ (c ∉ Text.lineEnds ∧ c ≠ '\t' ∧ width c = 1)))
    (by simp only [List.all_eq_true, decide_eq_true_eq, IsPlain])

/-- In a plain source only a line feed ends a line. -/
theorem IsPlain.eq_of_mem_lineEnds {width : Char → Nat} {source : String}
    (hPlain : IsPlain width source) {c : Char} (hMem : c ∈ source.toList)
    (hEnd : c ∈ Text.lineEnds) : c = '\n' :=
  (hPlain c hMem).resolve_right fun hOther => hOther.1 hEnd

/-- A way to draw sheets, for sources that take one column for each character. -/
structure Drawing where
  /-- The rows for a sheet on a source. There are none if the drawing breaks off. -/
  draw : String → Sheet → Option (List String)
  /-- The columns that a character takes. -/
  width : Char → Nat
  /-- A mark can be seen in the rows of a report. -/
  Shows : List String → Mark → Prop
  /-- The range of a label is read in characters of the source, as is the place of the report.
  A label on one line is seen as the mark of its range, and no other mark is seen. -/
  reads_characters {source : String} {sheet : Sheet} {label : Label}
    (hPlain : IsPlain width source) (hLabel : sheet.label = some label)
    (hPlace : sheet.place = label.span) (hRange : label.span.start < label.span.stop)
    (hInside : label.span.stop ≤ source.length) (hLine : ¬HasBreak source label.span) :
    ∃ rows, draw source sheet = some rows ∧
      ∀ mark, Shows rows mark ↔ mark = .ofRange source label.span
  /-- A label whose range lies outside the source is not drawn. -/
  omits_outside {source : String} {sheet : Sheet} {label : Label} {rows : List String}
    (hLabel : sheet.label = some label) (hRange : label.span.start < label.span.stop)
    (hOutside : source.length < label.span.stop) (hRows : draw source sheet = some rows)
    (mark : Mark) : ¬Shows rows mark

/-- A label over several lines is drawn beside them, so that no part of a line is marked. The
laws do not say so, and no label needs it that is to be seen. -/
def Drawing.SetsApart (drawing : Drawing) : Prop :=
  ∀ {source sheet label rows}, IsPlain drawing.width source → sheet.label = some label →
    label.span.stop ≤ source.length → HasBreak source label.span →
    drawing.draw source sheet = some rows → ∀ mark, ¬drawing.Shows rows mark

/-- Every mark that is seen is the one of the range, which then lies inside the source. -/
theorem Drawing.eq_ofRange_of_shows {drawing : Drawing} {source : String} {sheet : Sheet}
    {label : Label} {rows : List String} {mark : Mark} (hPlain : IsPlain drawing.width source)
    (hLabel : sheet.label = some label) (hPlace : sheet.place = label.span)
    (hRange : label.span.start < label.span.stop)
    (hApart : HasBreak source label.span → drawing.SetsApart)
    (hRows : drawing.draw source sheet = some rows) (hShown : drawing.Shows rows mark) :
    label.span.stop ≤ source.length ∧ mark = .ofRange source label.span := by
  have hInside : label.span.stop ≤ source.length := by
    by_contra hOutside
    exact drawing.omits_outside hLabel hRange (Nat.lt_of_not_le hOutside) hRows mark hShown
  have hLine : ¬HasBreak source label.span := fun hBreak =>
    hApart hBreak hPlain hLabel hInside hBreak hRows mark hShown
  obtain ⟨drawn, hDrawn, hMarks⟩ :=
    drawing.reads_characters hPlain hLabel hPlace hRange hInside hLine
  obtain rfl : rows = drawn := Option.some.inj (hRows.symm.trans hDrawn)
  exact ⟨hInside, (hMarks mark).mp hShown⟩

end TemplateCompiler.Report
