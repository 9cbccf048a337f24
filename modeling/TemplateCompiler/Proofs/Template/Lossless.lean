import TemplateCompiler.Proofs.Evaluation
import TemplateCompiler.Proofs.Template.Layout

/-! Where the placeholders of a text stand, and that nothing of the text is lost around
them. Only the backslashes of escaped openers are missing from the literals; the gaps
that the literals were read from have them. -/
namespace TemplateCompiler.Template

theorem opener_prefix_text (p : Placeholder String) : ['$', '\x7b'] <+: p.text.toList := by
  refine ⟨p.body.toList ++ ['\x7d'], ?_⟩
  simp [Placeholder.text]

theorem closeBrace_suffix_text (p : Placeholder String) : ['\x7d'] <:+ p.text.toList := by
  refine ⟨['$', '\x7b'] ++ p.body.toList, ?_⟩
  simp [Placeholder.text]

/-- A text without a dollar sign is one literal, and this is the text itself. -/
theorem ofText?_of_not_mem {text : String} (hNone : '$' ∉ text.toList) :
    ofText? text = some ⟨text, []⟩ := by
  obtain ⟨gaps, t, hText, hSpelled⟩ := exists_ofText? text
  cases hSpelled with
  | last =>
      rw [unescape_of_not_mem hNone] at hText
      exact hText
  | @placeholder _ gap rest p =>
      have hDollar : '$' ∈ p.text.toList := (opener_prefix_text p).subset List.mem_cons_self
      simp [hDollar] at hNone

/-- The body is cut out of its placeholder, wherever that stands. -/
theorem slice?_body (front back : String) (p : Placeholder String)
    (hStart : front.utf8ByteSize = p.start) :
    Text.slice? (front ++ p.text ++ back) p.bodyStart p.bodyStop = some p.body := by
  have hSlice := Text.slice?_append (front ++ "$\x7b") p.body ("\x7d" ++ back)
  have hSize : (front ++ "$\x7b").utf8ByteSize = p.bodyStart := by
    rw [String.utf8ByteSize_append, hStart]
    rfl
  rw [hSize] at hSlice
  simpa only [Placeholder.text, Placeholder.bodyStop, String.append_assoc] using hSlice

/-- The body is what is left of a placeholder without its delimiters. -/
theorem slice?_body_text (p : Placeholder String) :
    Text.slice? p.text 2 (p.text.utf8ByteSize - 1) = some p.body := by
  have hSlice := slice?_body "" "" ⟨0, p.body⟩ rfl
  have hStop : Placeholder.bodyStop ⟨0, p.body⟩ = p.text.utf8ByteSize - 1 := by
    simp only [Placeholder.bodyStop, Placeholder.bodyStart, Placeholder.utf8ByteSize_text]
    omega
  rwa [hStop, String.empty_append, String.append_empty] at hSlice

theorem placeholders_eq_nil_of_literal {t : Template} {literal : String}
    (hShape : t.shape = .literal literal) : t.placeholders = [] := by
  obtain ⟨head, tail⟩ := t
  unfold shape at hShape
  split at hShape
  · rename_i hTail
    exact congrArg (List.map Prod.fst) hTail
  · split at hShape <;> cases hShape
  · cases hShape

/-- A wrapper is one placeholder between empty literals. -/
theorem shape_eq_wrapper_iff_literals {t : Template} {p : Placeholder String} :
    t.shape = .wrapper p ↔ t.placeholders = [p] ∧ ∀ literal ∈ t.literals, literal = "" := by
  obtain ⟨head, tail⟩ := t
  match tail with
  | [] => simp [shape, Pieces.placeholders]
  | [(q, last)] =>
      by_cases hEmpty : head = "" ∧ last = ""
      · simp [shape, hEmpty, Pieces.placeholders, Pieces.literals]
      · simp [shape, hEmpty, Pieces.placeholders, Pieces.literals]
  | one :: two :: rest => simp [shape, Pieces.placeholders]

namespace Spelled
variable {start : Nat} {text : String} {gaps : List String} {t : Template}

/-- A placeholder stands in the text at its offset. -/
theorem exists_split (h : Spelled start text gaps t) :
    ∀ p ∈ t.placeholders, ∃ front back,
      text = front ++ p.text ++ back ∧ start + front.utf8ByteSize = p.start := by
  induction h with
  | last => simp [Pieces.placeholders]
  | @placeholder start gap rest p gaps after hStart _ _ _ ih =>
      rw [Pieces.placeholders_join, List.forall_mem_cons]
      refine ⟨⟨gap, rest, rfl, hStart.symm⟩, ?_⟩
      intro q hMem
      obtain ⟨front, back, rfl, hFront⟩ := ih q hMem
      refine ⟨gap ++ p.text ++ front, back, by simp only [String.append_assoc], ?_⟩
      simp only [String.utf8ByteSize_append, Placeholder.utf8ByteSize_text, Placeholder.stop]
        at hFront ⊢
      omega

/-- No placeholder begins before the one in front of it has ended. -/
theorem pairwise (h : Spelled start text gaps t) :
    t.placeholders.Pairwise fun p q => p.stop ≤ q.start := by
  induction h with
  | last => simp [Pieces.placeholders]
  | placeholder _ _ _ hRest ih =>
      rw [Pieces.placeholders_join, List.pairwise_cons]
      refine ⟨?_, ih⟩
      intro q hMem
      obtain ⟨front, _, _, hFront⟩ := hRest.exists_split q hMem
      omega

/-- The text is its gaps with the texts of the placeholders between them. -/
theorem interleave_eq (h : Spelled start text gaps t) :
    interleave gaps (t.placeholders.map Placeholder.text) = text := by
  induction h with
  | last => rfl
  | placeholder _ _ _ _ ih =>
      rw [Pieces.placeholders_join, List.map_cons, interleave, ih]

/-- A text with one placeholder is a gap, the placeholder and another gap. -/
theorem eq_of_placeholders_eq_singleton {p : Placeholder String} (h : Spelled start text gaps t)
    (hOnly : t.placeholders = [p]) :
    ∃ gap last, text = gap ++ p.text ++ last ∧ p.start = start + gap.utf8ByteSize ∧
      t.literals = [unescape gap, unescape last] := by
  cases h with
  | last => cases hOnly
  | @placeholder _ gap rest q gaps after hStart _ _ hRest =>
      rw [Pieces.placeholders_join] at hOnly
      obtain ⟨rfl, hNone⟩ := List.cons.inj hOnly
      refine ⟨gap, rest, rfl, hStart, ?_⟩
      rw [hRest.eq_of_placeholders_eq_nil hNone]
      rfl

/-- A literal is what is read of a text without placeholders. -/
theorem shape_eq_literal_iff (h : Spelled start text gaps t) (literal : String) :
    t.shape = .literal literal ↔ t.placeholders = [] ∧ literal = unescape text := by
  constructor
  · intro hShape
    have hNone : t.placeholders = [] := placeholders_eq_nil_of_literal hShape
    obtain rfl := h.eq_of_placeholders_eq_nil hNone
    cases hShape
    exact ⟨rfl, rfl⟩
  · rintro ⟨hNone, rfl⟩
    rw [h.eq_of_placeholders_eq_nil hNone]
    rfl

/-- Whether the gaps around a lone placeholder are empty can be told from its offsets. -/
theorem shape_eq_wrapper_iff (h : Spelled 0 text gaps t) (p : Placeholder String) :
    t.shape = .wrapper p ↔
      t.placeholders = [p] ∧ p.start = 0 ∧ p.stop = text.utf8ByteSize := by
  rw [shape_eq_wrapper_iff_literals]
  apply and_congr_right
  intro hOnly
  obtain ⟨gap, last, rfl, hStart, hLiterals⟩ := h.eq_of_placeholders_eq_singleton hOnly
  have hSize : (gap ++ p.text ++ last).utf8ByteSize =
      gap.utf8ByteSize + (p.body.utf8ByteSize + 3) + last.utf8ByteSize := by
    simp only [String.utf8ByteSize_append, Placeholder.utf8ByteSize_text]
  rw [hLiterals, List.forall_mem_cons, List.forall_mem_singleton, unescape_eq_empty_iff,
    unescape_eq_empty_iff, ← String.utf8ByteSize_eq_zero_iff, ← String.utf8ByteSize_eq_zero_iff,
    hSize, Placeholder.stop]
  omega

end Spelled

/-- Reading a text loses nothing. The placeholders are found in their order, apart from
each other, and each is the part of the text at its offsets, delimiters included, with
its body between them. What stands between them makes up the text with them, and is read
as the literals, only without the backslashes of escaped openers. A text without
placeholders is one literal, and a text is a wrapper if one placeholder covers it. -/
theorem ofText?_lossless (text : String) :
    ∃ t gaps, ofText? text = some t ∧
      t.literals.length = t.placeholders.length + 1 ∧
      (∀ p ∈ t.placeholders, p.start < p.stop ∧ p.stop ≤ text.utf8ByteSize) ∧
      (t.placeholders.Pairwise fun p q => p.stop ≤ q.start) ∧
      (∀ p ∈ t.placeholders,
        Text.slice? text p.start p.stop = some p.text ∧
        ['$', '\x7b'] <+: p.text.toList ∧ ['\x7d'] <:+ p.text.toList ∧
        p.bodyStart = p.start + 2 ∧ p.bodyStop + 1 = p.stop ∧
        Text.slice? text p.bodyStart p.bodyStop = some p.body ∧
        Text.slice? p.text 2 (p.text.utf8ByteSize - 1) = some p.body) ∧
      gaps? text 0 t.placeholders = some gaps ∧
      t.literals = gaps.map unescape ∧
      interleave gaps (t.placeholders.map Placeholder.text) = text ∧
      (∀ literal, t.shape = .literal literal ↔
        t.placeholders = [] ∧ literal = unescape text) ∧
      ∀ p, t.shape = .wrapper p ↔
        t.placeholders = [p] ∧ p.start = 0 ∧ p.stop = text.utf8ByteSize := by
  obtain ⟨gaps, t, hText, hSpelled⟩ := exists_ofText? text
  have hGaps := hSpelled.gaps?_eq "" rfl
  rw [String.empty_append] at hGaps
  refine ⟨t, gaps, hText, t.length_literals, ?_, hSpelled.pairwise, ?_, hGaps,
    hSpelled.literals_eq, hSpelled.interleave_eq, hSpelled.shape_eq_literal_iff,
    hSpelled.shape_eq_wrapper_iff⟩
  · intro p hMem
    obtain ⟨front, back, rfl, hFront⟩ := hSpelled.exists_split p hMem
    simp only [String.utf8ByteSize_append, Placeholder.utf8ByteSize_text, Placeholder.stop]
    omega
  · intro p hMem
    obtain ⟨front, back, rfl, hFront⟩ := hSpelled.exists_split p hMem
    rw [Nat.zero_add] at hFront
    have hStop : p.stop = front.utf8ByteSize + p.text.utf8ByteSize := by
      rw [Placeholder.utf8ByteSize_text, Placeholder.stop]
      omega
    refine ⟨?_, opener_prefix_text p, closeBrace_suffix_text p, rfl, ?_,
      slice?_body front back p hFront, slice?_body_text p⟩
    · rw [hStop, ← hFront]
      exact Text.slice?_append front p.text back
    · simp only [Placeholder.bodyStop, Placeholder.bodyStart, Placeholder.stop]
      omega

end TemplateCompiler.Template
