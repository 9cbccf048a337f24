import TemplateCompiler.Proofs.Report.Framed

/-! Whether the label of a report is under the part of the source that is meant. A diagnostic
counts bytes and a drawing counts characters, so the label is in its place exactly as long as
no longer character comes before the end of the part. -/
namespace TemplateCompiler.Report

/-! ### What is handed to the drawing -/

/-- The clamping leaves a span inside the source alone, so the ends of the label are those of
the diagnostic, in bytes. -/
theorem sheet_of_span {source : String} {d : Diagnostic} {span : Span}
    (hSpan : d.span = some span) (hOrder : span.start ≤ span.stop)
    (hInside : span.stop ≤ source.utf8ByteSize) :
    (sheet source d).place = span ∧ (sheet source d).label = some ⟨span, d.message⟩ := by
  have hClamp : span.clamp source.utf8ByteSize = span := by
    rw [Span.clamp, Nat.min_eq_left (hOrder.trans hInside), Nat.min_eq_left hInside]
  simp only [sheet, Diagnostic.notice, hSpan, Option.map_some, hClamp, Option.getD_some, and_self]

/-- The report on one diagnostic consists of its rows. -/
theorem write?_singleton {draw : String → Sheet → Option (List String)} {source : String}
    {d : Diagnostic} {rows : List String} (hRows : lines? draw source d = some rows) :
    write? draw (.rejected ⟨[d], source⟩) = some (unlines rows) := by
  simp [write?, hRows]

theorem unlines_append (rows others : List String) :
    unlines (rows ++ others) = unlines rows ++ unlines others := by
  rw [unlines, List.map_append, String.join_append, unlines, unlines]

/-- The rows for a diagnostic are in the report on every rejection with it. -/
theorem write?_of_mem {draw : String → Sheet → Option (List String)} {source text : String}
    {d : Diagnostic} {ds : List Diagnostic} {rows : List String}
    (hRows : lines? draw source d = some rows) (hMem : d ∈ ds)
    (hText : write? draw (.rejected ⟨ds, source⟩) = some text) :
    ∃ first last, text = first ++ unlines rows ++ last := by
  obtain ⟨earlier, later, rfl⟩ := List.append_of_mem hMem
  simp only [write?, List.mapM_append, List.mapM_cons, hRows, Option.bind_eq_bind, Option.pure_def,
    Option.bind_some, Option.bind_eq_some_iff, Option.some.injEq] at hText
  obtain ⟨_, ⟨first, _, _, ⟨last, _, rfl⟩, rfl⟩, rfl⟩ := hText
  refine ⟨unlines first.flatten, unlines last.flatten, ?_⟩
  rw [List.flatten_append, List.flatten_cons, unlines_append, unlines_append, String.append_assoc]

/-! ### Parts of a source -/

/-- The mark that is to be seen for a part of a source. The line is the one of its first byte,
the column comes after the characters in front of it on this line, and the columns of its own
characters are underlined. -/
def Mark.ofPart (before part after : String) : Mark :=
  let column := (Text.openLine before.toList).length + 1
  { number := Text.lineAt (before ++ part ++ after) before.utf8ByteSize
    column := column
    underlined := Finset.Ico column (column + part.length) }

/-- The ends of a part, counted in characters. -/
def characters (before part : String) : Span := ⟨before.length, (before ++ part).length⟩

theorem take_characters (before part after : String) :
    (before ++ part ++ after).toList.take before.length = before.toList := by
  rw [String.append_assoc, String.toList_append, ← String.length_toList, List.take_left]

/-- The mark of a part is that of its range of characters. -/
theorem Mark.ofRange_characters (before part after : String) :
    Mark.ofRange (before ++ part ++ after) (characters before part) =
      Mark.ofPart before part after := by
  simp only [Mark.ofRange, Mark.ofPart, characters, take_characters]
  rw [String.append_assoc, Text.lineAt_append, String.length_append, Nat.add_sub_cancel_left]

/-- A part inside one line has a range without a line feed inside it. -/
theorem not_hasBreak_characters {before part after : String} (hLine : '\n' ∉ part.toList.dropLast) :
    ¬HasBreak (before ++ part ++ after) (characters before part) := by
  have hPart : ((before ++ part ++ after).toList.take ((before ++ part).length - 1)).drop
      before.length = part.toList.dropLast := by
    rw [List.drop_take, String.append_assoc, String.toList_append, String.toList_append,
      String.length_append, ← String.length_toList, ← String.length_toList, List.drop_left,
      Nat.sub_right_comm, Nat.add_sub_cancel_left, List.dropLast_eq_take,
      List.take_append_of_le_length (Nat.sub_le _ _)]
  rwa [HasBreak, characters, hPart]

/-- The report on a diagnostic has rows in which the mark of a part is seen, and these rows are
also in the report on every rejection with this diagnostic. -/
def Drawing.PointsAt (drawing : Drawing) (before part after : String) (d : Diagnostic) : Prop :=
  ∃ rows, lines? drawing.draw (before ++ part ++ after) d = some rows ∧
    drawing.Shows rows (.ofPart before part after) ∧
    write? drawing.draw (.rejected ⟨[d], before ++ part ++ after⟩) = some (unlines rows) ∧
    ∀ {ds text}, d ∈ ds →
      write? drawing.draw (.rejected ⟨ds, before ++ part ++ after⟩) = some text →
      ∃ first last, text = first ++ unlines rows ++ last

/-- Whatever draws it, the report on a part of a plain source shows the mark of the part if no
character up to the end of the part is longer than one byte. In every other case the mark is not
seen, unless the bytes of the part, read as characters, go over several lines and the drawing
does not set such a label apart. -/
theorem label_shown_iff_single_bytes {drawing : Drawing} {before part after : String}
    {d : Diagnostic} (hPlain : IsPlain drawing.width (before ++ part ++ after)) (hPart : part ≠ "")
    (hLine : '\n' ∉ part.toList.dropLast)
    (hSpan : d.span = some ⟨before.utf8ByteSize, (before ++ part).utf8ByteSize⟩) :
    ((∀ c ∈ (before ++ part).toList, c.utf8Size = 1) → drawing.PointsAt before part after d) ∧
      ((HasBreak (before ++ part ++ after) ⟨before.utf8ByteSize, (before ++ part).utf8ByteSize⟩ →
          drawing.SetsApart) →
        drawing.PointsAt before part after d → ∀ c ∈ (before ++ part).toList, c.utf8Size = 1) := by
  have hChars : 0 < part.length := by
    rw [← String.length_toList, List.length_pos_iff]
    exact fun hNil => hPart (String.toList_eq_nil_iff.mp hNil)
  have hSize := hChars.trans_le (Text.length_le_utf8ByteSize part)
  have hBytes : before.utf8ByteSize < (before ++ part).utf8ByteSize ∧
      (before ++ part).utf8ByteSize ≤ (before ++ part ++ after).utf8ByteSize := by
    rw [@String.utf8ByteSize_append (before ++ part), @String.utf8ByteSize_append before]
    omega
  have hRange : (characters before part).start < (characters before part).stop ∧
      (characters before part).stop ≤ (before ++ part ++ after).length := by
    simp only [characters, String.length_append]
    omega
  obtain ⟨hPlace, hLabel⟩ := sheet_of_span hSpan hBytes.1.le hBytes.2
  rw [← Text.utf8ByteSize_eq_length_iff]
  constructor
  · intro hSingle
    have hFirst : before.utf8ByteSize = before.length := by
      have hBefore := Text.length_le_utf8ByteSize before
      have hMore := Text.length_le_utf8ByteSize part
      rw [String.utf8ByteSize_append, String.length_append] at hSingle
      omega
    rw [hFirst, hSingle] at hPlace hLabel
    obtain ⟨rows, hRows, hMarks⟩ := drawing.reads_characters hPlain hLabel hPlace hRange.1
      hRange.2 (not_hasBreak_characters hLine)
    exact ⟨rows, hRows, (hMarks _).mpr (Mark.ofRange_characters before part after).symm,
      write?_singleton hRows, write?_of_mem hRows⟩
  · rintro hApart ⟨rows, hRows, hShown, _⟩
    rw [← Mark.ofRange_characters] at hShown
    -- the one mark that is seen tells the range that was read
    obtain ⟨hInside, hMark⟩ :=
      Drawing.eq_ofRange_of_shows hPlain hLabel hPlace hBytes.1 hApart hRows hShown
    have hSame := Mark.ofRange_inj hRange ⟨hBytes.1, hInside⟩ hMark
    exact (congrArg Span.stop hSame).symm

/-- A sum of two terms on two lines, of which the name in the second one is not known. -/
def unknownPrice : Diagnostic where
  snippet := "prize"
  line := 2
  message := "Undefined variable 'prize'"
  span := some ⟨9, 14⟩

/-- The name in the second line is marked in a frame, for it comes after ASCII characters
only. -/
theorem label_shown_iff_single_bytes_unknownPrice :
    IsPlain framedDrawing.width ("amount *\n" ++ "prize" ++ " + 1") ∧
      framedDrawing.SetsApart ∧
      framedDrawing.PointsAt "amount *\n" "prize" " + 1" unknownPrice := by
  have hPlain : IsPlain framedDrawing.width ("amount *\n" ++ "prize" ++ " + 1") := by decide
  have hSingle : ("amount *\n" ++ "prize").utf8ByteSize = ("amount *\n" ++ "prize").length := by
    decide
  obtain ⟨hShown, _⟩ := @label_shown_iff_single_bytes framedDrawing "amount *\n" "prize" " + 1"
    unknownPrice hPlain (by decide) (by decide) rfl
  exact ⟨hPlain, framedDrawing_setsApart, hShown (Text.utf8ByteSize_eq_length_iff.mp hSingle)⟩

/-- What is said about the name in a line that begins with a character of two bytes. -/
def unknownName : Diagnostic where
  snippet := "x"
  line := 1
  message := "bad"
  span := some ⟨4, 5⟩

/-- After a longer character the label is too far to the right, whatever draws it. -/
theorem label_not_shown_after_accent :
    unknownName.span = some ⟨"é: ".utf8ByteSize, ("é: " ++ "x").utf8ByteSize⟩ ∧
      IsPlain framedDrawing.width "é: x!" ∧
      ∀ drawing : Drawing, IsPlain drawing.width "é: x!" →
        ∃ rows, lines? drawing.draw "é: x!" unknownName = some rows ∧
          drawing.Shows rows (.ofPart "é: x" "!" "") ∧
          ¬drawing.Shows rows (.ofPart "é: " "x" "!") := by
  refine ⟨by decide, by decide, fun drawing hPlain => ?_⟩
  obtain ⟨hPlace, hLabel⟩ : (sheet "é: x!" unknownName).place = ⟨4, 5⟩ ∧
      (sheet "é: x!" unknownName).label = some ⟨⟨4, 5⟩, "bad"⟩ :=
    sheet_of_span rfl (by decide) (by decide)
  obtain ⟨rows, hRows, hMarks⟩ := drawing.reads_characters hPlain hLabel hPlace (by decide)
    (by decide) (by decide)
  refine ⟨rows, hRows, (hMarks _).mpr (Mark.ofRange_characters "é: x" "!" "").symm, fun hShown => ?_⟩
  have hMark := (Mark.ofRange_characters "é: " "x" "!").trans ((hMarks _).mp hShown)
  have hSame := Mark.ofRange_inj (by decide) (by decide) hMark
  exact absurd hSame (by decide)

end TemplateCompiler.Report
