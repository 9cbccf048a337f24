import TemplateCompiler.Proofs.SourceMap
import TemplateCompiler.Proofs.Template.Lossless
import TemplateCompiler.Request

/-! Requests for parts of other requests, and for parts of those. However far down it is, the
text of such a request is a piece of the source, and the map of the request says where that
piece stands. So the offsets of a diagnostic that are counted in the source point at the
bytes that the host saw, and on the line on which it saw them. -/
namespace TemplateCompiler

namespace Text

/-- A piece of a part is a piece of the whole, as far behind as the part starts. -/
theorem extract_bytes_append (before s after : String) {a b : Nat} (hOrder : a ≤ b)
    (hInside : b ≤ s.utf8ByteSize) :
    (bytes (before ++ s ++ after)).extract (before.utf8ByteSize + a) (before.utf8ByteSize + b) =
      (bytes s).extract a b := by
  have hDrop : (bytes (before ++ s ++ after)).drop (before.utf8ByteSize + a) =
      (bytes s).drop a ++ bytes after := by
    rw [String.append_assoc, bytes_append, ← length_bytes, List.drop_length_add_append,
      bytes_append, List.drop_append_of_le_length (by simpa using Nat.le_trans hOrder hInside)]
  have hLength : b - a ≤ ((bytes s).drop a).length := by
    rw [List.length_drop, length_bytes]
    omega
  rw [List.extract_eq_take_drop, List.extract_eq_take_drop, hDrop, Nat.add_sub_add_left,
    List.take_append_of_le_length hLength]

/-- Inside a part of a text, lines go on from the line on which the part starts. -/
theorem lineAt_append_add (before s after : String) {offset : Nat}
    (hInside : offset ≤ s.utf8ByteSize) :
    lineAt (before ++ s ++ after) (before.utf8ByteSize + offset) =
      lineAt (before ++ s ++ after) before.utf8ByteSize + lineAt s offset - 1 := by
  have hStart : (bytes (before ++ s ++ after)).take before.utf8ByteSize = bytes before := by
    rw [String.append_assoc, bytes_append, List.take_left' (length_bytes before)]
  have hTake : (bytes (before ++ s ++ after)).take (before.utf8ByteSize + offset) =
      bytes before ++ (bytes s).take offset := by
    rw [String.append_assoc, bytes_append, ← length_bytes, List.take_length_add_append,
      bytes_append, List.take_append_of_le_length (by simpa using hInside)]
  rw [lineAt, lineAt, lineAt, hTake, hStart, List.count_append]
  omega

end Text

namespace Request

/-- A request that was taken from others: for a part of a request, whose text is the slice
between two offsets, and so on up to a request whose text is its own source. The requests
around it are listed from the inside out. -/
inductive Derived (source : String) : List Request → Request → Prop where
  | whole {r : Request} (hText : r.text = source) (hSource : r.source = source)
      (hMap : r.map = .identity) : Derived source [] r
  | part {enclosing : List Request} {outer : Request} {text : String} (span : Span)
      (prior : Derived source enclosing outer) (hSlice : span.text? outer.text = some text) :
      Derived source (outer :: enclosing) (outer.nested text span.start)

/-- The text of a request is a piece of the source, and stands where its map says. -/
structure Anchored (source : String) (r : Request) : Prop where
  source_eq : r.source = source
  stands : ∃ before after, source = before ++ r.text ++ after ∧
    before.utf8ByteSize = r.map.toSource 0

/-- One request stands in the source where another one does, or inside that. -/
structure Within (inner outer : Request) : Prop where
  start_le : outer.map.toSource 0 ≤ inner.map.toSource 0
  stop_le : inner.map.toSource inner.text.utf8ByteSize ≤
    outer.map.toSource outer.text.utf8ByteSize

/-- What stands inside a request stands inside everything around that one. -/
theorem Within.trans {inner middle outer : Request} (h : inner.Within middle)
    (h' : middle.Within outer) : inner.Within outer :=
  ⟨Nat.le_trans h'.start_le h.start_le, Nat.le_trans h.stop_le h'.stop_le⟩

/-- A part of the text stands as far behind the start of the request as it does in the text. -/
theorem toSource_zero_nested (r : Request) (text : String) (start : Nat) :
    (r.nested text start).map.toSource 0 = r.map.toSource 0 + start :=
  r.map.toSource_nested_zero start

section Nested
variable {source text : String} {outer : Request} {span : Span}
  (hSlice : span.text? outer.text = some text)
include hSlice

/-- A request that is made from a piece of another one stands in the source where its map
says. -/
theorem Anchored.nested (h : outer.Anchored source) :
    (outer.nested text span.start).Anchored source := by
  obtain ⟨before, after, hSource, hBefore⟩ := h.stands
  obtain ⟨front, back, hText, hFront⟩ := Text.exists_append_of_slice? hSlice
  refine ⟨h.source_eq, before ++ front, back ++ after, ?_, ?_⟩
  · rw [hSource, hText]
    simp only [Request.nested, String.append_assoc]
  · rw [String.utf8ByteSize_append, toSource_zero_nested, hBefore, hFront]

theorem within_nested : (outer.nested text span.start).Within outer := by
  obtain ⟨front, back, hText, hFront⟩ := Text.exists_append_of_slice? hSlice
  have hSize : outer.text.utf8ByteSize =
      span.start + text.utf8ByteSize + back.utf8ByteSize := by
    rw [hText, String.utf8ByteSize_append, String.utf8ByteSize_append, hFront]
  constructor
  · rw [toSource_zero_nested]
    exact Nat.le_add_right _ _
  · rw [SourceMap.toSource_eq_add, toSource_zero_nested,
      SourceMap.toSource_eq_add outer.map outer.text.utf8ByteSize, hSize]
    simp only [Request.nested]
    omega

end Nested

namespace Derived
variable {source : String} {enclosing : List Request} {r : Request}

/-- Every derived request stands in the source where its map says, by induction on its
derivation. -/
theorem anchored (h : Derived source enclosing r) : r.Anchored source := by
  induction h with
  | whole hText hSource hMap =>
      refine ⟨hSource, "", "", ?_, ?_⟩
      · rw [String.empty_append, String.append_empty, hText]
      · rw [hMap]
        rfl
  | part _ _ hSlice ih => exact ih.nested hSlice

/-- Every derived request stands inside all the requests that it was derived through. -/
theorem within (h : Derived source enclosing r) : ∀ outer ∈ r :: enclosing, r.Within outer := by
  induction h with
  | @whole r => exact List.forall_mem_singleton.mpr ⟨Nat.le_refl _, Nat.le_refl _⟩
  | part _ _ hSlice ih =>
      rw [List.forall_mem_cons]
      refine ⟨⟨Nat.le_refl _, Nat.le_refl _⟩, ?_⟩
      intro outer hMem
      exact (within_nested hSlice).trans (ih outer hMem)

/-- The request for a placeholder of the text is a request for a part of it. -/
theorem ofPlaceholder (h : Derived source enclosing r) {template : Template}
    (hText : Template.ofText? r.text = some template) {p : Placeholder String}
    (hMem : p ∈ template.placeholders) :
    Derived source (r :: enclosing) (r.ofPlaceholder p) := by
  obtain ⟨found, _, hFound, _, _, _, hCut, _⟩ := Template.ofText?_lossless r.text
  cases hText.symm.trans hFound
  exact .part ⟨p.start, p.stop⟩ h (hCut p hMem).1

end Derived

/-- Requests that were taken from a source, however deep, stay anchored in it. Between any
two offsets of such a request there are the same bytes in its text and in the source; they
stand inside every request around it, and so the offsets never grow beyond the source. Lines
go on from the line on which the text starts. All this is true of the placeholders of any
of these texts. -/
theorem derived_stays_anchored {source : String} {enclosing : List Request} {r : Request}
    (h : Derived source enclosing r) :
    r.source = source ∧
    (∀ a b, a ≤ b → b ≤ r.text.utf8ByteSize →
      (Text.bytes source).extract (r.map.toSource a) (r.map.toSource b) =
        (Text.bytes r.text).extract a b ∧
      r.map.toSource b ≤ source.utf8ByteSize ∧
      ∀ outer ∈ r :: enclosing, outer.map.toSource 0 ≤ r.map.toSource a ∧
        r.map.toSource b ≤ outer.map.toSource outer.text.utf8ByteSize) ∧
    (∀ a, a ≤ r.text.utf8ByteSize →
      Text.lineAt source (r.map.toSource a) =
        Text.lineAt source (r.map.toSource 0) + Text.lineAt r.text a - 1) ∧
    ∀ template, Template.ofText? r.text = some template → ∀ p ∈ template.placeholders,
      Derived source (r :: enclosing) (r.ofPlaceholder p) := by
  obtain ⟨hSource, before, after, hStands, hBefore⟩ := h.anchored
  refine ⟨hSource, ?_, ?_, fun template hText p hMem => h.ofPlaceholder hText hMem⟩
  · intro a b hOrder hInside
    refine ⟨?_, ?_, ?_⟩
    · rw [r.map.toSource_eq_add a, r.map.toSource_eq_add b, ← hBefore, hStands]
      exact Text.extract_bytes_append before r.text after hOrder hInside
    · rw [r.map.toSource_eq_add b, ← hBefore, hStands, String.utf8ByteSize_append,
        String.utf8ByteSize_append]
      omega
    · intro outer hMem
      obtain ⟨hStart, hStop⟩ := h.within outer hMem
      exact ⟨Nat.le_trans hStart (SourceMap.toSource_le_toSource_iff.mpr (Nat.zero_le a)),
        Nat.le_trans (SourceMap.toSource_le_toSource_iff.mpr hInside) hStop⟩
  · intro a hInside
    rw [r.map.toSource_eq_add a, ← hBefore, hStands]
    exact Text.lineAt_append_add before r.text after hInside

/-- A letter in which one placeholder is inside another, over several lines. -/
def letter : Request where
  profile := { name := "letter", context := .named "Person" }
  text := "é\n$\x7bb $\x7b\nc\x7d\x7d d"
  isTemplate := true
  result := .text

/-- The inner placeholder of the letter, taken from the outer one. -/
def innerOfLetter : Request :=
  (letter.nested "$\x7bb $\x7b\nc\x7d\x7d" 3).nested "$\x7b\nc\x7d" 4

theorem derived_innerOfLetter :
    Derived letter.text [letter.nested "$\x7bb $\x7b\nc\x7d\x7d" 3, letter] innerOfLetter := by
  have hOuter : Span.text? ⟨3, 13⟩ letter.text = some "$\x7bb $\x7b\nc\x7d\x7d" := by decide +kernel
  have hInner : Span.text? ⟨4, 9⟩ "$\x7bb $\x7b\nc\x7d\x7d" = some "$\x7b\nc\x7d" := by
    decide +kernel
  exact .part ⟨4, 9⟩ (.part ⟨3, 13⟩ (.whole rfl rfl rfl) hOuter) hInner

/-- The name in the inner placeholder stands on the third line of the letter. -/
theorem derived_stays_anchored_letter :
    (Text.bytes letter.text).extract 7 12 = (Text.bytes "$\x7b\nc\x7d").extract 0 5 ∧
      12 ≤ letter.text.utf8ByteSize ∧
      Text.lineAt letter.text 10 = Text.lineAt letter.text 7 + Text.lineAt "$\x7b\nc\x7d" 3 - 1 := by
  obtain ⟨_, hBytes, hLines, _⟩ := derived_stays_anchored derived_innerOfLetter
  obtain ⟨hSame, hSize, _⟩ := hBytes 0 5 (by decide) (by decide)
  exact ⟨hSame, hSize, hLines 3 (by decide)⟩

end Request
end TemplateCompiler
