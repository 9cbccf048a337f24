import Mathlib.Data.List.DropRight
import TemplateCompiler.Proofs.Text.Cut
import TemplateCompiler.Text.Lines

/-! Lines of texts in which nothing but a line feed ends a line. Their numbers are the same
in bytes and in characters, but an offset is the same only after ASCII characters. -/
namespace TemplateCompiler.Text

/-- What stands after the last line feed. -/
def openLine (cs : List Char) : List Char := cs.rtakeWhile (· ≠ '\n')

theorem notMem_openLine (cs : List Char) : '\n' ∉ openLine cs := by
  intro hMem
  have hFeed := List.mem_rtakeWhile_imp hMem
  simp at hFeed

/-- More characters on the same line stay on the open line. -/
theorem openLine_append (before : List Char) {more : List Char} (hNone : '\n' ∉ more) :
    openLine (before ++ more) = openLine before ++ more := by
  induction more using List.reverseRecOn with
  | nil => simp
  | append_singleton more c ih =>
      rw [List.mem_append, List.mem_singleton, not_or] at hNone
      rw [← List.append_assoc, openLine,
        List.rtakeWhile_concat_pos (· ≠ '\n') _ _ (decide_eq_true (Ne.symm hNone.2)),
        ← List.append_assoc]
      exact congrArg (· ++ [c]) (ih hNone.1)

theorem openLine_eq_self {cs : List Char} (hNone : '\n' ∉ cs) : openLine cs = cs :=
  openLine_append [] hNone

/-- A line feed begins a new line, however long the text before it is. -/
theorem openLine_append_feed (before : List Char) {line : List Char} (hNone : '\n' ∉ line) :
    openLine (before ++ '\n' :: line) = line := by
  rw [← List.singleton_append, ← List.append_assoc, openLine_append _ hNone, openLine,
    List.rtakeWhile_concat_neg _ _ _ (by simp), List.nil_append]

/-- No offset is beyond another one with the same line feeds before it and an open line of the
same length. -/
theorem le_of_line_and_column {cs : List Char} {m n : Nat} (hStop : n ≤ cs.length)
    (hNumber : (cs.take m).count '\n' = (cs.take n).count '\n')
    (hColumn : (openLine (cs.take m)).length = (openLine (cs.take n)).length) : n ≤ m := by
  by_contra hOrder
  have hCut : cs.take n = cs.take m ++ (cs.drop m).take (n - m) := by
    rw [← List.take_add, Nat.add_sub_cancel' (Nat.le_of_not_le hOrder)]
  rw [hCut, List.count_append, Nat.left_eq_add, List.count_eq_zero] at hNumber
  rw [hCut, openLine_append _ hNumber, List.length_append, List.length_take,
    List.length_drop] at hColumn
  omega

/-- An offset is known from the line feeds before it and the length of the open line. -/
theorem eq_of_line_and_column {cs : List Char} {m n : Nat} (hFirst : m ≤ cs.length)
    (hSecond : n ≤ cs.length) (hNumber : (cs.take m).count '\n' = (cs.take n).count '\n')
    (hColumn : (openLine (cs.take m)).length = (openLine (cs.take n)).length) : m = n :=
  Nat.le_antisymm (le_of_line_and_column hFirst hNumber.symm hColumn.symm)
    (le_of_line_and_column hSecond hNumber hColumn)

/-- Lines that have a line feed at their end and nowhere else. The last one can lack it. -/
inductive Lined : List (List Char) → Prop
  | nil : Lined []
  | last {line : List Char} (hNone : '\n' ∉ line) : Lined [line]
  | cons {body : List Char} {lines : List (List Char)} (hNone : '\n' ∉ body)
      (hLines : Lined lines) : Lined ((body ++ ['\n']) :: lines)

namespace Lined
variable {earlier later : List (List Char)} {line lead : List Char}

/-- A first line is the last one as well, or it has a line feed at its end. -/
theorem cases_cons (h : Lined (line :: later)) :
    (later = [] ∧ '\n' ∉ line) ∨ ∃ body, line = body ++ ['\n'] ∧ '\n' ∉ body ∧ Lined later := by
  cases h with
  | last hNone => exact .inl ⟨rfl, hNone⟩
  | cons hNone hLines => exact .inr ⟨_, rfl, hNone, hLines⟩

theorem exists_body (h : Lined (line :: earlier ++ lead :: later)) :
    ∃ body, line = body ++ ['\n'] ∧ '\n' ∉ body ∧ Lined (earlier ++ lead :: later) := by
  rcases h.cases_cons with ⟨hNil, _⟩ | hBody
  · simp at hNil
  · exact hBody

theorem drop (h : Lined (earlier ++ line :: later)) : Lined (line :: later) := by
  induction earlier with
  | nil => exact h
  | cons first earlier ih =>
      obtain ⟨body, _, _, hLines⟩ := h.exists_body
      exact ih hLines

/-- A line has the number of line feeds before it, if the first line has zero. -/
theorem count_flatten (h : Lined (earlier ++ line :: later)) :
    earlier.flatten.count '\n' = earlier.length := by
  induction earlier with
  | nil => rfl
  | cons first earlier ih =>
      obtain ⟨body, rfl, hNone, hLines⟩ := h.exists_body
      rw [List.flatten_cons, List.count_append, List.count_append, ih hLines,
        List.count_eq_zero.mpr hNone, List.length_cons]
      simp [Nat.add_comm]

/-- After whole lines the open line is what follows them. -/
theorem openLine_flatten (h : Lined (earlier ++ line :: later)) (hNone : '\n' ∉ lead) :
    openLine (earlier.flatten ++ lead) = lead := by
  rcases List.eq_nil_or_concat earlier with rfl | ⟨before, last, rfl⟩
  · exact openLine_eq_self hNone
  · rw [List.concat_eq_append, List.append_assoc] at h
    rcases h.drop.cases_cons with ⟨hNil, _⟩ | ⟨body, rfl, _⟩
    · cases hNil
    · have hFeed : (before.concat (body ++ ['\n'])).flatten ++ lead =
          (before.flatten ++ body) ++ '\n' :: lead := by simp
      rw [hFeed, openLine_append_feed _ hNone]

end Lined

/-- The line on which a text goes on is divided where the text does. The rest of the line has
a line feed at its end, or there is none any more. -/
theorem Lined.divide {front back : List Char} {earlier later : List (List Char)}
    {line : List Char} (hLined : Lined (earlier ++ line :: later))
    (hCut : (earlier ++ line :: later).flatten = front ++ back)
    (hStart : earlier.flatten.length ≤ front.length)
    (hStop : front.length < earlier.flatten.length + line.length) :
    ∃ tail, line = openLine front ++ tail ∧ front = earlier.flatten ++ openLine front ∧
      back = tail ++ later.flatten ∧
      (later = [] ∧ '\n' ∉ tail ∨ ∃ body, tail = body ++ ['\n'] ∧ '\n' ∉ body) := by
  rw [List.flatten_append, List.flatten_cons] at hCut
  obtain ⟨lead, rfl⟩ := List.prefix_of_prefix_length_le
    (List.prefix_append _ _) (hCut ▸ List.prefix_append front back) hStart
  rw [List.append_assoc, List.append_cancel_left_eq] at hCut
  rw [List.length_append, Nat.add_lt_add_iff_left] at hStop
  obtain ⟨tail, rfl⟩ := List.prefix_of_prefix_length_le
    (hCut ▸ List.prefix_append lead back) (List.prefix_append _ _) hStop.le
  rw [List.append_assoc, List.append_cancel_left_eq] at hCut
  have hTail : '\n' ∉ lead ∧
      (later = [] ∧ '\n' ∉ tail ∨ ∃ body, tail = body ++ ['\n'] ∧ '\n' ∉ body) := by
    rcases hLined.drop.cases_cons with ⟨hNil, hNone⟩ | ⟨body, hBody, hNone, _⟩
    · rw [List.mem_append, not_or] at hNone
      exact ⟨hNone.1, .inl ⟨hNil, hNone.2⟩⟩
    · rcases List.eq_nil_or_concat tail with rfl | ⟨rest, last, rfl⟩
      · simp at hStop
      · rw [List.concat_eq_append, ← List.append_assoc] at hBody
        obtain ⟨rfl, hLast⟩ := List.append_inj' hBody rfl
        rw [List.mem_append, not_or] at hNone
        exact ⟨hNone.1, .inr ⟨rest, by rw [List.concat_eq_append, hLast], hNone.2⟩⟩
  rw [hLined.openLine_flatten hTail.1]
  exact ⟨tail, rfl, rfl, hCut.symm, hTail.2⟩

/-- How far the first line of a text goes: up to its end there is no line feed but the last
character, and after it there is one. -/
theorem le_length_iff_of_line {tail rest : List Char} {size : Nat}
    (hTail : rest = [] ∧ '\n' ∉ tail ∨ ∃ body, tail = body ++ ['\n'] ∧ '\n' ∉ body) :
    size ≤ tail.length ↔
      size ≤ (tail ++ rest).length ∧ '\n' ∉ (tail ++ rest).take (size - 1) := by
  rcases hTail with ⟨rfl, hNone⟩ | ⟨body, rfl, hNone⟩
  · rw [List.append_nil]
    exact ⟨fun hSize => ⟨hSize, fun hMem => hNone (List.mem_of_mem_take hMem)⟩, And.left⟩
  · rw [List.append_assoc, List.length_append, List.length_append, List.length_append]
    constructor
    · intro hSize
      rw [List.length_singleton] at hSize ⊢
      rw [List.take_append_of_le_length (by omega)]
      exact ⟨by omega, fun hMem => hNone (List.mem_of_mem_take hMem)⟩
    · rintro ⟨_, hBefore⟩
      by_contra hSize
      rw [List.length_singleton] at hSize
      refine hBefore (List.mem_iff_getElem?.mpr ⟨body.length, ?_⟩)
      rw [List.getElem?_take_of_lt (by omega), List.getElem?_append_right (Nat.le_refl _)]
      simp

theorem length_le_flatMap_utf8EncodeChar (cs : List Char) :
    cs.length ≤ (cs.flatMap String.utf8EncodeChar).length := by
  induction cs with
  | nil => exact Nat.le_refl 0
  | cons c cs ih =>
      have hSize := c.utf8Size_pos
      rw [List.flatMap_cons, List.length_append, String.length_utf8EncodeChar, List.length_cons]
      omega

/-- No character is shorter than a byte. -/
theorem length_le_utf8ByteSize (s : String) : s.length ≤ s.utf8ByteSize := by
  rw [← length_bytes, bytes_eq_flatMap, ← String.length_toList]
  exact length_le_flatMap_utf8EncodeChar s.toList

/-- Offsets in bytes and in characters are the same after ASCII characters only. -/
theorem utf8ByteSize_eq_length_iff {s : String} :
    s.utf8ByteSize = s.length ↔ ∀ c ∈ s.toList, c.utf8Size = 1 := by
  rw [← length_bytes, bytes_eq_flatMap, ← String.length_toList]
  induction s.toList with
  | nil => simp
  | cons c cs ih =>
      have hSize := c.utf8Size_pos
      have hSizes := length_le_flatMap_utf8EncodeChar cs
      rw [List.flatMap_cons, List.length_append, String.length_utf8EncodeChar, List.length_cons,
        List.forall_mem_cons, ← ih]
      omega

/-- In bytes a line feed is one byte, and no other character has that byte in it. -/
theorem count_utf8EncodeChar (c : Char) :
    (String.utf8EncodeChar c).count 0x0A = if c = '\n' then 1 else 0 := by
  by_cases hFeed : c = '\n'
  · rw [hFeed]
    decide
  · rw [if_neg hFeed, List.count_eq_zero]
    intro hMem
    have hEncode := utf8EncodeChar_eq_of_mem hMem (by decide)
    exact hFeed (utf8EncodeChar_inj.mp (hEncode.trans (by decide)))

/-- The line of an offset, counted over characters in place of bytes. -/
theorem lineAt_append (before after : String) :
    lineAt (before ++ after) before.utf8ByteSize = before.toList.count '\n' + 1 := by
  rw [lineAt, bytes_append, List.take_left' (length_bytes before), bytes_eq_flatMap]
  refine congrArg (· + 1) ?_
  induction before.toList with
  | nil => rfl
  | cons c cs ih =>
      rw [List.flatMap_cons, List.count_append, count_utf8EncodeChar, ih, List.count_cons,
        Nat.add_comm]
      simp only [beq_iff_eq]

end TemplateCompiler.Text
