import TemplateCompiler.Proofs.Report.Drawing
import TemplateCompiler.Report.Framed

/-! Sheets drawn in frames are drawn as the laws of drawings say. -/
namespace TemplateCompiler.Report

/-! ### The line of an offset -/

/-- Nothing is lost in the cuts. -/
theorem flatten_displayLines (row : List Char) : (displayLines row).flatten = row := by
  fun_induction displayLines row with
  | case1 => rfl
  | case2 rest ih => simp [ih]
  | case3 c rest _ _ ih => simp [ih]
  | case4 c rest _ _ hNone ih => simpa [hNone] using ih
  | case5 c rest _ _ line lines hSome ih => simpa [hSome] using ih

/-- If nothing but a line feed ends a line, every line has one at its end and nowhere else. -/
theorem lined_displayLines {cs : List Char} (hEnds : ∀ c ∈ cs, c ∈ Text.lineEnds → c = '\n') :
    Text.Lined (displayLines cs) := by
  fun_induction displayLines cs with
  | case1 => exact .nil
  | case2 rest => exact absurd (hEnds '\x0d' (by simp) (by decide)) (by decide)
  | case3 c rest _ hEnd ih =>
      rw [hEnds c (by simp) hEnd]
      exact @Text.Lined.cons [] _ (by simp) (ih fun d hMem => hEnds d (by simp [hMem]))
  | case4 c rest _ hNoEnd _ _ =>
      refine .last ?_
      rw [List.mem_singleton]
      rintro rfl
      exact hNoEnd (by decide)
  | case5 c rest _ hNoEnd line lines hLines ih =>
      have hChar : '\n' ≠ c := by
        rintro rfl
        exact hNoEnd (by decide)
      have hRest : Text.Lined (line :: lines) := hLines ▸ ih fun d hMem => hEnds d (by simp [hMem])
      cases hRest with
      | last hNone => exact .last (List.not_mem_cons_of_ne_of_not_mem hChar hNone)
      | cons hNone hMore => exact .cons (List.not_mem_cons_of_ne_of_not_mem hChar hNone) hMore

/-- One of the lines of a text, with the number and the start that it has there. -/
def Line.IsIn (line : Line) (lines : List (List Char)) : Prop :=
  ∃ earlier later, lines = earlier ++ line.text :: later ∧
    line.number = earlier.length + 1 ∧ line.start = earlier.flatten.length

/-- A line ends with its text, at the latest. -/
theorem Line.IsIn.stop_le {line : Line} {lines : List (List Char)} (hLine : line.IsIn lines) :
    line.stop ≤ lines.flatten.length := by
  obtain ⟨earlier, later, rfl, _, hStart⟩ := hLine
  rw [Line.stop, hStart, List.flatten_append, List.flatten_cons, List.length_append,
    List.length_append]
  omega

/-- The walk ends on a line that starts no later than the offset. It passes the offset
unless the text ends before. -/
theorem findLine_isIn {offset : Nat} {here : Line} {earlier rest : List (List Char)}
    (hNumber : here.number = earlier.length + 1) (hHere : here.start = earlier.flatten.length)
    (hStart : here.start ≤ offset) :
    (findLine offset here rest).IsIn (earlier ++ here.text :: rest) ∧
      (findLine offset here rest).start ≤ offset ∧
      (offset < (earlier ++ here.text :: rest).flatten.length →
        offset < (findLine offset here rest).stop) := by
  induction rest generalizing here earlier with
  | nil =>
      refine ⟨⟨earlier, [], rfl, hNumber, hHere⟩, hStart, fun hInside => ?_⟩
      simpa [findLine, Line.stop, hHere] using hInside
  | cons next rest ih =>
      rw [findLine]
      split
      · rename_i hStop
        have hWalk := @ih ⟨here.number + 1, here.stop, next⟩ (earlier ++ [here.text])
          (by simp [hNumber]) (by simp [Line.stop, hHere]) hStop
        rwa [List.append_assoc] at hWalk
      · rename_i hStop
        exact ⟨⟨earlier, next :: rest, rfl, hNumber, hHere⟩, hStart, fun _ => Nat.lt_of_not_le hStop⟩

/-- The line of an offset is one of the lines of the source, and the offset lies on it. -/
theorem lineOf_isIn {source : String} (hSource : source ≠ "") (offset : Nat) :
    (lineOf source offset).IsIn (displayLines source.toList) ∧
      (lineOf source offset).start ≤ offset ∧
      (offset < source.length → offset < (lineOf source offset).stop) := by
  have hFlatten := flatten_displayLines source.toList
  rw [lineOf]
  cases hLines : displayLines source.toList with
  | nil =>
      rw [hLines] at hFlatten
      exact absurd (String.toList_eq_nil_iff.mp hFlatten.symm) hSource
  | cons first rest =>
      rw [hLines] at hFlatten
      rw [← String.length_toList, ← hFlatten]
      exact @findLine_isIn offset ⟨1, 0, first⟩ [] rest rfl rfl (Nat.zero_le offset)

/-- No line goes on after the source. -/
theorem lineOf_stop_le (source : String) (offset : Nat) :
    (lineOf source offset).stop ≤ source.length := by
  by_cases hSource : source = ""
  · subst hSource
    exact Nat.le_refl 0
  · rw [← String.length_toList, ← congrArg List.length (flatten_displayLines source.toList)]
    exact (lineOf_isIn hSource offset).1.stop_le

section Plain
variable {source : String} {offset : Nat}

/-- An offset divides its line into the open line in front of it and a tail, if a line feed
ends a line and nothing else does. -/
theorem exists_division (hEnds : ∀ c ∈ source.toList, c ∈ Text.lineEnds → c = '\n')
    (hOffset : offset < source.length) :
    ∃ (earlier : List (List Char)) (tail rest : List Char),
      (lineOf source offset).number = earlier.length + 1 ∧
      (lineOf source offset).start = earlier.flatten.length ∧
      (lineOf source offset).text = Text.openLine (source.toList.take offset) ++ tail ∧
      source.toList.take offset =
        earlier.flatten ++ Text.openLine (source.toList.take offset) ∧
      source.toList.drop offset = tail ++ rest ∧
      earlier.flatten.count '\n' = earlier.length ∧
      (rest = [] ∧ '\n' ∉ tail ∨ ∃ body, tail = body ++ ['\n'] ∧ '\n' ∉ body) := by
  have hSource : source ≠ "" := by
    rintro rfl
    exact Nat.not_lt_zero offset hOffset
  obtain ⟨⟨earlier, later, hLines, hNumber, hStart⟩, hBefore, hInside⟩ :=
    lineOf_isIn hSource offset
  have hBehind := hInside hOffset
  have hLined := hLines ▸ lined_displayLines hEnds
  have hCut := hLines ▸ flatten_displayLines source.toList
  rw [← String.length_toList] at hOffset
  have hFront : (source.toList.take offset).length = offset := by
    rw [List.length_take, Nat.min_eq_left hOffset.le]
  rw [← List.take_append_drop offset source.toList] at hCut
  rw [Line.stop, hStart] at hBehind
  rw [hStart] at hBefore
  obtain ⟨tail, hText, hOpen, hBack, hTail⟩ :=
    hLined.divide hCut (hFront.symm ▸ hBefore) (hFront.symm ▸ hBehind)
  exact ⟨earlier, tail, later.flatten, hNumber, hStart, hText, hOpen, hBack, hLined.count_flatten,
    hTail.imp_left fun hLast => ⟨by rw [hLast.1, List.flatten_nil], hLast.2⟩⟩

/-- The line feeds in front of an offset tell the number of its line. -/
theorem lineOf_number (hEnds : ∀ c ∈ source.toList, c ∈ Text.lineEnds → c = '\n')
    (hOffset : offset < source.length) :
    (lineOf source offset).number = (source.toList.take offset).count '\n' + 1 := by
  obtain ⟨earlier, _, _, hNumber, _, _, hOpen, _, hCount, _⟩ := exists_division hEnds hOffset
  rw [hNumber, hOpen, List.count_append, hCount, List.count_eq_zero.mpr (Text.notMem_openLine _),
    Nat.add_zero]

/-- The line of an offset starts with the open line in front of the offset. -/
theorem lineOf_start (hEnds : ∀ c ∈ source.toList, c ∈ Text.lineEnds → c = '\n')
    (hOffset : offset < source.length) :
    (lineOf source offset).start + (Text.openLine (source.toList.take offset)).length =
      offset := by
  obtain ⟨earlier, _, _, _, hStart, _, hOpen, _⟩ := exists_division hEnds hOffset
  rw [hStart, ← List.length_append, ← hOpen, List.length_take, String.length_toList,
    Nat.min_eq_left hOffset.le]

/-- A range ends on the line that it starts on unless there is a line feed inside it. -/
theorem le_lineOf_stop_iff (hEnds : ∀ c ∈ source.toList, c ∈ Text.lineEnds → c = '\n')
    (hOffset : offset < source.length) {stop : Nat} (hStop : offset < stop) :
    stop ≤ (lineOf source offset).stop ↔
      stop ≤ source.length ∧ ¬HasBreak source ⟨offset, stop⟩ := by
  have hStart := lineOf_start hEnds hOffset
  obtain ⟨_, tail, rest, _, _, hText, _, hBack, _, hTail⟩ := exists_division hEnds hOffset
  have hLine : stop ≤ (lineOf source offset).stop ↔ stop - offset ≤ tail.length := by
    rw [Line.stop, hText, List.length_append]
    omega
  rw [hLine, Text.le_length_iff_of_line hTail, ← hBack, List.length_drop, String.length_toList,
    HasBreak, List.drop_take, Nat.sub_right_comm]
  refine and_congr_left fun _ => ?_
  omega

end Plain

/-! ### Marks -/

/-- A row has something other than a space in a column, counted from one. -/
def IsMarked (row : String) (column : Nat) : Prop :=
  ∃ i c, column = i + 1 ∧ row.toList[i]? = some c ∧ c ≠ ' '

/-- The marks of a span that is not empty are in its columns. The hook of the message is
one of them. -/
theorem isMarked_underline {line : Line} {span : Span} (hLine : line.start ≤ span.start)
    (hSpan : span.start < span.stop) (column : Nat) :
    IsMarked (underline line span) column ↔
      span.start - line.start + 1 ≤ column ∧ column < span.stop - line.start + 1 := by
  have hEmpty : span.isEmpty = false := by simpa [Span.isEmpty] using hSpan
  have hMiddle : span.start ≤ line.start + middle line span ∧
      line.start + middle line span < span.stop := by
    rw [middle]
    omega
  have hChar : ∀ i, (∃ c, (underline line span).toList[i]? = some c ∧ c ≠ ' ') ↔
      span.start ≤ line.start + i ∧ line.start + i < span.stop := by
    intro i
    rw [underline, String.toList_ofList, List.getElem?_map, columns]
    by_cases hColumn : i < span.stop - line.start + 2
    · rw [List.getElem?_range hColumn, Option.map_some, hEmpty]
      by_cases hHook : i = middle line span
      · simp [hHook, hMiddle]
      · by_cases hInside : span.start ≤ line.start + i ∧ line.start + i < span.stop
        · simp [hHook, hInside]
        · simp [hHook, hInside]
    · rw [List.getElem?_eq_none (by simpa using hColumn), Option.map_none]
      constructor
      · rintro ⟨c, hNone, _⟩
        cases hNone
      · omega
  constructor
  · rintro ⟨i, c, rfl, hMarked⟩
    have hInside := (hChar i).mp ⟨c, hMarked⟩
    omega
  · intro hInside
    obtain ⟨c, hMarked⟩ := (hChar (column - 1)).mpr (by omega)
    exact ⟨column - 1, c, by omega, hMarked⟩

theorem spaces_inj {m n : Nat} : spaces m = spaces n ↔ m = n := by
  rw [spaces, spaces, String.ofList_inj, List.replicate_left_inj]

theorem toList_toString (n : Nat) : (toString n).toList = Nat.toDigits 10 n := Nat.toList_repr

theorem toDigits_inj {m n : Nat} : Nat.toDigits 10 m = Nat.toDigits 10 n ↔ m = n := by
  constructor
  · intro hDigits
    rw [← @Nat.ofDigitChars_ten_toDigits m, hDigits, Nat.ofDigitChars_ten_toDigits]
  · rintro rfl
    rfl

/-- Numbers of the same width can be told apart, whatever comes after them. -/
theorem toString_append_inj {m n : Nat} {s t : String}
    (hWidth : (toString m).length = (toString n).length)
    (hText : toString m ++ s = toString n ++ t) : m = n ∧ s = t := by
  rw [← String.length_toList, ← String.length_toList, toList_toString, toList_toString] at hWidth
  rw [← String.toList_inj, String.toList_append, String.toList_append, toList_toString,
    toList_toString] at hText
  obtain ⟨hDigits, hRest⟩ := List.append_inj hText hWidth
  exact ⟨toDigits_inj.mp hDigits, String.toList_inj.mp hRest⟩

/-- A number begins with a digit, so the row of a line does not begin with two spaces. -/
theorem space_toString_ne (n width : Nat) (s t : String) :
    " " ++ toString n ++ s ≠ spaces (width + 2) ++ t := by
  intro hText
  have hChars := congrArg String.toList hText
  simp only [spaces, String.toList_append, String.toList_ofList, toList_toString,
    List.replicate_succ, List.append_assoc, List.cons_append] at hChars
  have hRow := (List.cons.inj hChars).2
  cases hDigits : Nat.toDigits 10 n with
  | nil => exact Nat.toDigits_ne_nil hDigits
  | cons digit digits =>
      have hDigit : digit.isDigit = true :=
        Nat.isDigit_of_mem_toDigits (by decide) (by decide) (hDigits ▸ List.mem_cons_self)
      rw [hDigits] at hRow
      rw [(List.cons.inj hRow).1] at hDigit
      exact absurd hDigit (by decide)

/-- A framed report names line and column of the mark, repeats the line, and has something
under the underlined columns and nowhere else. -/
def InFrame (report : List String) (mark : Mark) : Prop :=
  ∃ first line marks rest,
    report = first :: placeRow mark.number mark.column :: (margin mark.number ++ "│") ::
      (" " ++ toString mark.number ++ " │ " ++ line) ::
      (margin mark.number ++ "│ " ++ marks) :: rest ∧
    ∀ column, column ∈ mark.underlined ↔ IsMarked marks column

/-- In a headline alone no mark can be seen. -/
theorem not_inFrame_singleton (first : String) (mark : Mark) : ¬InFrame [first] mark := by
  rintro ⟨_, _, _, _, hReport, _⟩
  cases hReport

/-- The two rows above a line tell its number and the column. -/
theorem placeRow_inj {number column other place : Nat}
    (hPlace : placeRow number column = placeRow other place)
    (hBar : margin number ++ "│" = margin other ++ "│") : number = other ∧ column = place := by
  rw [String.append_left_inj] at hBar
  have hWidth : (toString number).length = (toString other).length := by
    rw [margin, margin, spaces_inj] at hBar
    omega
  rw [placeRow, placeRow, hBar] at hPlace
  simp only [String.append_assoc, String.append_right_inj] at hPlace
  obtain ⟨hNumber, hColumns⟩ := toString_append_inj hWidth hPlace
  rw [String.append_right_inj, String.append_left_inj, ← String.toList_inj, toList_toString,
    toList_toString, toDigits_inj] at hColumns
  exact ⟨hNumber, hColumns⟩

/-- One mark can be seen in a framed line. -/
theorem inFrame_line_iff {first line marks : String} {rest : List String} {number column : Nat}
    {mark : Mark} :
    InFrame (first :: placeRow number column :: (margin number ++ "│") ::
        (" " ++ toString number ++ " │ " ++ line) :: (margin number ++ "│ " ++ marks) :: rest) mark ↔
      mark.number = number ∧ mark.column = column ∧
        ∀ column, column ∈ mark.underlined ↔ IsMarked marks column := by
  constructor
  · rintro ⟨_, _, _, _, hReport, hMarks⟩
    simp only [List.cons.injEq] at hReport
    obtain ⟨_, hPlace, hBar, _, hRow, _⟩ := hReport
    obtain ⟨rfl, rfl⟩ := placeRow_inj hPlace hBar
    rw [String.append_right_inj] at hRow
    subst hRow
    exact ⟨rfl, rfl, hMarks⟩
  · rintro ⟨rfl, rfl, hMarks⟩
    exact ⟨first, line, marks, rest, rfl, hMarks⟩

/-- No mark can be seen where an empty row stands in place of the line. -/
theorem not_inFrame_empty {first : String} {rest : List String} {number column : Nat}
    (mark : Mark) :
    ¬InFrame (first :: placeRow number column :: (margin number ++ "│") ::
      (margin number ++ "│ ") :: rest) mark := by
  rintro ⟨_, _, _, _, hReport, _⟩
  simp only [List.cons.injEq] at hReport
  obtain ⟨_, _, _, hRow, _⟩ := hReport
  rw [margin, @String.append_assoc (" " ++ toString mark.number)] at hRow
  exact space_toString_ne _ _ _ _ hRow.symm

/-! ### The laws -/

section Framed
variable {source : String} {sheet : Sheet} {label : Label}

/-- What is drawn for a label that is not empty. -/
theorem framed_of_label (hLabel : sheet.label = some label)
    (hRange : label.span.start < label.span.stop) :
    framed source sheet =
      if label.span.stop - 1 ≤ source.length then
        (frame? source sheet label).map fun rows => headline sheet :: rows
      else some [headline sheet] := by
  have hShown : isShown label.span source.length = true ↔ label.span.stop - 1 ≤ source.length := by
    rw [isShown, Span.isEmpty, decide_eq_true hRange, Bool.not_true, Bool.false_or,
      Bool.and_eq_true, decide_eq_true_eq, decide_eq_true_eq]
    omega
  simp only [framed, hLabel, hShown, if_neg (Nat.not_lt.mpr hRange.le)]

/-- A label on one line is drawn under it. -/
theorem mark?_of_inside {margin : String}
    (hStop : label.span.stop ≤ (lineOf source label.span.start).stop) :
    ∃ pointers, mark? source margin label =
      some [" " ++ toString (lineOf source label.span.start).number ++ " │ " ++
          (lineOf source label.span.start).shown,
        margin ++ "│ " ++ underline (lineOf source label.span.start) label.span, pointers] :=
  ⟨_, if_pos hStop⟩

/-- What is drawn for a label on one line is the mark of its range of characters. -/
theorem framed_reads_characters (hEnds : ∀ c ∈ source.toList, c ∈ Text.lineEnds → c = '\n')
    (hLabel : sheet.label = some label) (hPlace : sheet.place = label.span)
    (hRange : label.span.start < label.span.stop) (hInside : label.span.stop ≤ source.length)
    (hLine : ¬HasBreak source label.span) :
    ∃ rows, framed source sheet = some rows ∧
      ∀ mark, InFrame rows mark ↔ mark = .ofRange source label.span := by
  have hOffset := hRange.trans_le hInside
  have hNumber := lineOf_number hEnds hOffset
  have hStart := lineOf_start hEnds hOffset
  obtain ⟨pointers, hMark⟩ :=
    mark?_of_inside ((le_lineOf_stop_iff hEnds hOffset hRange).mpr ⟨hInside, hLine⟩)
  rw [framed_of_label hLabel hRange, if_pos (by omega), frame?, hPlace, hMark]
  refine ⟨_, rfl, fun mark => ?_⟩
  have hFirst : (lineOf source label.span.start).start ≤ label.span.start := by omega
  have hColumn : label.span.start - (lineOf source label.span.start).start =
      (Text.openLine (source.toList.take label.span.start)).length := by
    omega
  have hEnd : label.span.stop - (lineOf source label.span.start).start + 1 =
      (Text.openLine (source.toList.take label.span.start)).length + 1 +
        (label.span.stop - label.span.start) := by
    omega
  refine inFrame_line_iff.trans ?_
  simp only [isMarked_underline hFirst hRange, hColumn, hEnd]
  rw [Mark.ofRange, Mark.ext_iff, ← hNumber, Finset.ext_iff]
  simp only [Finset.mem_Ico]

/-- Nothing can be seen of a label whose range goes on after the source. -/
theorem framed_omits_outside {rows : List String} (hLabel : sheet.label = some label)
    (hRange : label.span.start < label.span.stop) (hOutside : source.length < label.span.stop)
    (hRows : framed source sheet = some rows) (mark : Mark) : ¬InFrame rows mark := by
  have hStop := lineOf_stop_le source label.span.start
  rw [framed_of_label hLabel hRange] at hRows
  split at hRows
  · rw [frame?, mark?, if_neg (by omega), if_pos hOutside] at hRows
    cases hRows
    exact not_inFrame_empty mark
  · cases hRows
    exact not_inFrame_singleton _ mark

/-- A label over several lines is not drawn in frames. -/
theorem framed_eq_none_of_break (hEnds : ∀ c ∈ source.toList, c ∈ Text.lineEnds → c = '\n')
    (hLabel : sheet.label = some label) (hInside : label.span.stop ≤ source.length)
    (hBreak : HasBreak source label.span) : framed source sheet = none := by
  have hRange : label.span.start < label.span.stop := by
    have hLength := List.length_pos_of_mem hBreak
    rw [List.length_drop, List.length_take] at hLength
    omega
  have hLine := mt (le_lineOf_stop_iff hEnds (hRange.trans_le hInside) hRange).mp
    fun hOne => hOne.2 hBreak
  rw [framed_of_label hLabel hRange, if_pos (by omega), frame?, mark?, if_neg hLine,
    if_neg (Nat.not_lt.mpr hInside)]
  rfl

end Framed

/-- Drawing in frames, for characters of one column. -/
def framedDrawing : Drawing where
  draw := framed
  width := fun _ => 1
  Shows := InFrame
  reads_characters hPlain hLabel hPlace hRange hInside hLine :=
    framed_reads_characters (fun _ => hPlain.eq_of_mem_lineEnds) hLabel hPlace hRange hInside hLine
  omits_outside hLabel hRange hOutside hRows mark :=
    framed_omits_outside hLabel hRange hOutside hRows mark

/-- No mark can be seen of a label over several lines, for it is not drawn. -/
theorem framedDrawing_setsApart : framedDrawing.SetsApart := by
  intro source sheet label rows hPlain hLabel hInside hBreak hRows
  have hNone : framedDrawing.draw source sheet = none :=
    framed_eq_none_of_break (fun _ => hPlain.eq_of_mem_lineEnds) hLabel hInside hBreak
  rw [hNone] at hRows
  cases hRows

end TemplateCompiler.Report
