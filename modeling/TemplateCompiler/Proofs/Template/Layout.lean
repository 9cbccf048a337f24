import TemplateCompiler.Proofs.Template.Escaping
import TemplateCompiler.Proofs.Template.Tokens
import TemplateCompiler.Template.Basic

/-! How a text is laid out: gaps with placeholders between them. Every text is read as
a template, whose literals are the gaps without the backslashes of escaped openers. -/
namespace TemplateCompiler

/-- A placeholder as it was before its body was read as text. -/
def Placeholder.inBytes (p : Placeholder String) : Placeholder (List UInt8) :=
  ⟨p.start, Text.bytes p.body⟩

namespace Pieces
variable {α : Type}

/-- Pieces with one more literal and placeholder in front. -/
def join (head : α) (found : Placeholder α) (after : Pieces α) : Pieces α :=
  ⟨head, (found, after.head) :: after.tail⟩

@[simp] theorem literals_join (head : α) (found : Placeholder α) (after : Pieces α) :
    (join head found after).literals = head :: after.literals := rfl

@[simp] theorem placeholders_join (head : α) (found : Placeholder α) (after : Pieces α) :
    (join head found after).placeholders = found :: after.placeholders := rfl

theorem prepend_join (bs head : List UInt8) (found : Placeholder (List UInt8))
    (after : Pieces (List UInt8)) :
    (join head found after).prepend bs = join (bs ++ head) found after := rfl

/-- Pieces as they were before they were read as text. -/
def inBytes (t : Template) : Pieces (List UInt8) :=
  ⟨Text.bytes t.head, t.tail.map fun (found, literal) => (found.inBytes, Text.bytes literal)⟩

@[simp] theorem placeholders_inBytes (t : Template) :
    t.inBytes.placeholders = t.placeholders.map Placeholder.inBytes := by
  simp [inBytes, placeholders]

private theorem mapM_eq_some_iff {β γ : Type} {read : β → Option γ} {write : γ → β}
    (hRead : ∀ b c, read b = some c ↔ write c = b) {bs : List β} {cs : List γ} :
    bs.mapM read = some cs ↔ cs.map write = bs := by
  induction bs generalizing cs with
  | nil => simp [eq_comm]
  | cons b bs ih =>
      simp only [List.mapM_cons, Option.pure_def, Option.bind_eq_bind, Option.bind_eq_some_iff,
        Option.some.injEq, hRead, ih, List.map_eq_cons_iff]
      constructor
      · rintro ⟨c, hFirst, rest, hRest, rfl⟩
        exact ⟨c, rest, rfl, hFirst, hRest⟩
      · rintro ⟨c, rest, rfl, hFirst, hRest⟩
        exact ⟨c, hFirst, rest, hRest, rfl⟩

/-- Bytes are read as pieces of text in one way at most: the pieces have these bytes. -/
theorem decode?_eq_some_iff {p : Pieces (List UInt8)} {t : Template} :
    p.decode? = some t ↔ t.inBytes = p := by
  obtain ⟨head, tail⟩ := p
  obtain ⟨first, others⟩ := t
  have hPart : ∀ (part : Placeholder (List UInt8) × List UInt8)
      (read : Placeholder String × String),
      ((Text.ofBytes? part.1.body).bind fun body => (Text.ofBytes? part.2).bind fun literal =>
        some ((⟨part.1.start, body⟩, literal) : Placeholder String × String)) = some read ↔
        (read.1.inBytes, Text.bytes read.2) = part := by
    rintro ⟨⟨start, body⟩, literal⟩ ⟨⟨start', inner⟩, last⟩
    simp only [Option.bind_eq_some_iff, Text.ofBytes?_eq_some_iff, Placeholder.inBytes,
      Option.some.injEq, Prod.mk.injEq, Placeholder.mk.injEq]
    constructor
    · rintro ⟨_, rfl, _, rfl, ⟨rfl, rfl⟩, rfl⟩
      exact ⟨⟨rfl, rfl⟩, rfl⟩
    · rintro ⟨⟨rfl, rfl⟩, rfl⟩
      exact ⟨_, rfl, _, rfl, ⟨rfl, rfl⟩, rfl⟩
  simp only [decode?, Option.pure_def, Option.bind_eq_bind, Option.bind_eq_some_iff,
    Text.ofBytes?_eq_some_iff, Option.some.injEq, inBytes, Pieces.mk.injEq]
  constructor
  · rintro ⟨_, rfl, read, hTail, rfl, rfl⟩
    exact ⟨rfl, (mapM_eq_some_iff hPart).mp hTail⟩
  · rintro ⟨rfl, hTail⟩
    exact ⟨first, rfl, others, (mapM_eq_some_iff hPart).mpr hTail, rfl, rfl⟩

theorem decode?_last {bs : List UInt8} {s : String} (hLast : Text.bytes s = bs) :
    decode? ⟨bs, []⟩ = some ⟨s, []⟩ := by
  rw [decode?_eq_some_iff, ← hLast]
  rfl

/-- Pieces are decoded one by one. -/
theorem decode?_join {head body : List UInt8} {first inner : String} {start : Nat}
    {after : Pieces (List UInt8)} {t : Template} (hHead : Text.bytes first = head)
    (hBody : Text.bytes inner = body) (hAfter : after.decode? = some t) :
    (join head ⟨start, body⟩ after).decode? = some (join first ⟨start, inner⟩ t) := by
  rw [decode?_eq_some_iff] at hAfter ⊢
  rw [← hAfter, ← hHead, ← hBody]
  rfl

end Pieces

namespace Template

private theorem unescapeBytes_cons {b : UInt8} {rest : List UInt8}
    (hPlain : b = backslash → ¬opener <+: rest) :
    unescapeBytes (b :: rest) = b :: unescapeBytes rest :=
  replaceBefore_cons_of_not fun h => hPlain h.1 h.2

private theorem unescapeBytes_escape (rest : List UInt8) :
    unescapeBytes (backslash :: (opener ++ rest)) = opener ++ unescapeBytes rest := by
  have hOpener : ∀ b ∈ opener, b ≠ backslash :=
    List.forall_mem_cons.mpr ⟨by decide, List.forall_mem_singleton.mpr (by decide)⟩
  rw [unescapeBytes, replaceBefore_cons_lead (List.prefix_append _ _), List.nil_append,
    replaceBefore_append_of_ne hOpener]

/-- Either the whole text is one gap, or its first placeholder stands behind a gap that
does not end in a backslash, and what follows the placeholder is read on its own. -/
theorem ofTokens_tokens_cases (start : Nat) (bs : List UInt8) :
    Pieces.ofTokens start (tokens bs) = ⟨unescapeBytes bs, []⟩ ∨
    ∃ gap body rest, bs = gap ++ (opener ++ body ++ closeBrace :: rest) ∧ IsBody body ∧
      gap.getLast? ≠ some backslash ∧
      Pieces.ofTokens start (tokens bs) =
        .join (unescapeBytes gap) ⟨start + gap.length, body⟩
          (Pieces.ofTokens (start + gap.length + (body.length + 3)) (tokens rest)) := by
  induction bs using tokens_induction generalizing start with
  | nil => exact .inl (by rw [tokens]; rfl)
  | plain b rest hLead ih =>
      obtain ⟨_, hEscape, _⟩ := Token.of_lead_plain hLead
      rw [tokens_plain hLead, Pieces.ofTokens]
      rcases ih (start + 1) with hNone | ⟨gap, body, after, rfl, hBody, hGap, hSome⟩
      · left
        rw [hNone, unescapeBytes_cons hEscape]
        rfl
      · right
        -- the gap grows at its front, where no backslash escapes what comes next
        refine ⟨b :: gap, body, after, rfl, hBody, ?_, ?_⟩
        · cases gap with
          | nil =>
              rintro hLast
              obtain rfl : b = backslash := by simpa using hLast
              exact hEscape rfl (by simp)
          | cons c gap => rwa [List.getLast?_cons_cons]
        · have hGapEscape : b = backslash → ¬opener <+: gap := fun hEq hPrefix =>
            hEscape hEq (hPrefix.trans (List.prefix_append _ _))
          rw [hSome, Pieces.prepend_join, unescapeBytes_cons hGapEscape, List.length_cons,
            Nat.add_assoc, Nat.add_comm 1]
          rfl
  | escape rest ih =>
      rw [tokens_escape, Pieces.ofTokens]
      rcases ih (start + 3) with hNone | ⟨gap, body, after, rfl, hBody, hGap, hSome⟩
      · left
        rw [hNone, unescapeBytes_escape]
        rfl
      · right
        refine ⟨backslash :: (opener ++ gap), body, after, rfl, hBody, ?_, ?_⟩
        · cases gap with
          | nil => decide
          | cons c gap => simpa using hGap
        · rw [hSome, Pieces.prepend_join, unescapeBytes_escape, List.length_cons,
            List.length_append,
            show start + 3 + gap.length = start + (opener.length + gap.length + 1) by
              simp only [List.length_cons, List.length_nil]; omega]
  | placeholder body rest hBody ih =>
      right
      refine ⟨[], body, rest, rfl, hBody, by simp, ?_⟩
      rw [tokens_placeholder hBody, Pieces.ofTokens]
      rfl

/-- A text that is read from an offset on, with the gaps between its placeholders and the
template it is read as. A placeholder closes itself, and no gap in front of one ends in
a backslash, which would have escaped its opener. -/
inductive Spelled : Nat → String → List String → Template → Prop where
  | last (start : Nat) (gap : String) : Spelled start gap [gap] ⟨unescape gap, []⟩
  | placeholder {start : Nat} {gap rest : String} {p : Placeholder String} {gaps : List String}
      {after : Template} (hStart : p.start = start + gap.utf8ByteSize)
      (hBody : IsBody (Text.bytes p.body)) (hGap : gap.toList.getLast? ≠ some '\\')
      (hRest : Spelled p.stop rest gaps after) :
      Spelled start (gap ++ p.text ++ rest) (gap :: gaps) (.join (unescape gap) p after)

/-- The text of a placeholder is its body between an opener and a closing brace. -/
theorem bytes_text (p : Placeholder String) :
    Text.bytes p.text = opener ++ Text.bytes p.body ++ [closeBrace] := by
  rw [Placeholder.text, Text.bytes_append, Text.bytes_append]
  rfl

/-- The parts of a text around a placeholder are texts: they are cut beside delimiters. -/
theorem exists_texts_of_cut {text : String} {gap body rest : List UInt8}
    (hCut : Text.bytes text = gap ++ (opener ++ body ++ closeBrace :: rest)) :
    ∃ first inner last,
      Text.bytes first = gap ∧ Text.bytes inner = body ∧ Text.bytes last = rest := by
  obtain ⟨first, _, hFirst, _⟩ := Text.bytes_cut (b := dollar) (by decide)
    (hCut.trans (by rw [List.append_assoc]; rfl))
  obtain ⟨_, behind, _, hBehind⟩ := Text.bytes_cut (b := openBrace) (by decide)
    (hCut.trans (show _ = gap ++ [dollar] ++ openBrace :: (body ++ closeBrace :: rest) by simp))
  obtain ⟨inner, last, hInner, hLast⟩ := Text.bytes_cut (by decide) hBehind
  exact ⟨first, inner, last, hFirst, hInner, hLast⟩

/-- Every text is read, from any offset on. -/
theorem exists_spelled (start : Nat) (text : String) :
    ∃ gaps t, (Pieces.ofTokens start (tokens (Text.bytes text))).decode? = some t ∧
      Spelled start text gaps t := by
  rcases ofTokens_tokens_cases start (Text.bytes text) with
    hNone | ⟨gapBytes, bodyBytes, restBytes, hCut, hBody, hGap, hSome⟩
  · refine ⟨[text], ⟨unescape text, []⟩, ?_, .last start text⟩
    rw [hNone, Pieces.decode?_last (bytes_unescape text)]
  · obtain ⟨gap, body, rest, rfl, rfl, rfl⟩ := exists_texts_of_cut hCut
    let p : Placeholder String := ⟨start + gap.utf8ByteSize, body⟩
    have hText : text = gap ++ p.text ++ rest := by
      rw [← Text.bytes_inj, Text.bytes_append, Text.bytes_append, bytes_text, hCut]
      simp [p]
    have hShorter : rest.utf8ByteSize < text.utf8ByteSize := by
      rw [hText, String.utf8ByteSize_append, String.utf8ByteSize_append,
        Placeholder.utf8ByteSize_text]
      omega
    obtain ⟨gaps, after, hAfter, hSpelled⟩ := exists_spelled p.stop rest
    refine ⟨gap :: gaps, .join (unescape gap) p after, ?_, ?_⟩
    · rw [hSome]
      exact Pieces.decode?_join (bytes_unescape gap) rfl hAfter
    · rw [hText]
      refine .placeholder rfl hBody ?_ hSpelled
      rwa [Ne, ← Text.getLast?_bytes_eq_some_iff (b := backslash) (by decide) (by decide)]
termination_by text.utf8ByteSize

namespace Spelled
variable {start : Nat} {text : String} {gaps : List String} {t : Template}

/-- The literals are the gaps without the backslashes that escape an opener. -/
theorem literals_eq (h : Spelled start text gaps t) : t.literals = gaps.map unescape := by
  induction h with
  | last => rfl
  | placeholder _ _ _ _ ih => rw [Pieces.literals_join, ih, List.map_cons]

theorem isBody (h : Spelled start text gaps t) :
    ∀ p ∈ t.placeholders, IsBody (Text.bytes p.body) := by
  induction h with
  | last => simp [Pieces.placeholders]
  | placeholder _ hBody _ _ ih =>
      rw [Pieces.placeholders_join, List.forall_mem_cons]
      exact ⟨hBody, ih⟩

/-- A text without placeholders is one literal. -/
theorem eq_of_placeholders_eq_nil (h : Spelled start text gaps t) (hNone : t.placeholders = []) :
    t = ⟨unescape text, []⟩ := by
  cases h with
  | last => rfl
  | placeholder => cases hNone

end Spelled

/-- The parts of a text between placeholders, found by the offsets of the placeholders. -/
def gaps? (text : String) : Nat → List (Placeholder String) → Option (List String)
  | start, [] => do return [← Text.slice? text start text.utf8ByteSize]
  | start, p :: rest => do
    let gap ← Text.slice? text start p.start
    return gap :: (← gaps? text p.stop rest)

/-- The gaps can be cut out of a text by the placeholders alone. -/
theorem Spelled.gaps?_eq {start : Nat} {text : String} {gaps : List String} {t : Template}
    (h : Spelled start text gaps t) (before : String) (hBefore : before.utf8ByteSize = start) :
    gaps? (before ++ text) start t.placeholders = some gaps := by
  induction h generalizing before with
  | last start gap =>
      subst hBefore
      have hSlice := Text.slice?_append before gap ""
      rw [String.append_empty] at hSlice
      rw [Pieces.placeholders, List.map_nil, gaps?, String.utf8ByteSize_append, hSlice]
      rfl
  | @placeholder start gap rest p gaps after hStart hBody hGap hRest ih =>
      have hSlice := Text.slice?_append before gap (p.text ++ rest)
      have hStop : (before ++ gap ++ p.text).utf8ByteSize = p.stop := by
        simp only [String.utf8ByteSize_append, Placeholder.utf8ByteSize_text, Placeholder.stop]
        omega
      have hGaps := ih (before ++ gap ++ p.text) hStop
      rw [hBefore, ← hStart] at hSlice
      simp only [String.append_assoc] at hSlice hGaps ⊢
      simp [gaps?, hSlice, hGaps]

/-- Every text is read as a template. -/
theorem exists_ofText? (text : String) :
    ∃ gaps t, ofText? text = some t ∧ Spelled 0 text gaps t :=
  exists_spelled 0 text

/-- A text that is read is spelled by its gaps and placeholders. -/
theorem spelled_of_ofText? {text : String} {t : Template} (hText : ofText? text = some t) :
    ∃ gaps, Spelled 0 text gaps t := by
  obtain ⟨gaps, found, hFound, hSpelled⟩ := exists_ofText? text
  rw [hText] at hFound
  cases hFound
  exact ⟨gaps, hSpelled⟩

/-- A placeholder read on its own is a template of that one placeholder. -/
theorem ofText?_text {p : Placeholder String} (hBody : IsBody (Text.bytes p.body)) :
    ofText? p.text = some (.join "" ⟨0, p.body⟩ ⟨"", []⟩) := by
  have hTokens : tokens (Text.bytes p.text) = [.placeholder (Text.bytes p.body)] := by
    rw [bytes_text, tokens_placeholder hBody, tokens]
  rw [ofText?, hTokens]
  exact Pieces.decode?_join rfl rfl (Pieces.decode?_last rfl)

end Template
end TemplateCompiler
