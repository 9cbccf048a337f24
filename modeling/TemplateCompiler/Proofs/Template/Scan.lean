import TemplateCompiler.Proofs.Template.Openers
import TemplateCompiler.Span

/-! The reading of a template as one pass with offsets, which cuts its pieces out of the text
as it goes. A cut is refused if its ends are out of order, outside the text or inside a
character. None is: the offset of the pass can be inside a character, but it is a plain byte
then, and a cut is only made beside a delimiter. -/
namespace TemplateCompiler

/-- A placeholder as it is cut out, with the offsets of the whole and of its body. -/
structure Occurrence where
  text : String
  span : Span
  body : Span
  deriving DecidableEq, Repr

namespace Occurrence

def ofPlaceholder (p : Placeholder String) : Occurrence :=
  ⟨p.text, ⟨p.start, p.stop⟩, ⟨p.bodyStart, p.bodyStop⟩⟩

/-- The text without its delimiters. -/
def bodyText? (o : Occurrence) : Option String :=
  Text.slice? o.text 2 (o.text.utf8ByteSize - 1)

end Occurrence

namespace Pieces

theorem prepend_prepend (bs cs : List UInt8) (p : Pieces (List UInt8)) :
    (p.prepend bs).prepend cs = p.prepend (cs ++ bs) := by
  simp only [prepend, List.append_assoc]

/-- Plain bytes in front of tokens go into their first literal. -/
theorem ofTokens_plain (start : Nat) (bs : List UInt8) (ts : List Template.Token) :
    ofTokens start (bs.map .plain ++ ts) = (ofTokens (start + bs.length) ts).prepend bs := by
  induction bs generalizing start with
  | nil => rfl
  | cons b bs ih =>
      rw [List.map_cons, List.cons_append, ofTokens, ih, prepend_prepend, List.singleton_append,
        List.length_cons, Nat.add_assoc, Nat.add_comm 1]

end Pieces

namespace Template

/-- What stands at an offset: an escaped opener, an opener with the offset of the brace that
closes it, an opener that nothing closes, or none of these. -/
inductive Sight where
  | escape
  | placeholder (close : Nat)
  | unclosed
  | other
  deriving DecidableEq, Repr

def sightAt (bs : List UInt8) (i : Nat) : Sight :=
  if bs[i]? = some backslash ∧ opener <+: bs.drop (i + 1) then .escape
  else if opener <+: bs.drop i then
    match closingAt? bs (i + 2) with
    | some close => .placeholder close
    | none => .unclosed
  else .other

theorem drop_add_of_append {bs front rest : List UInt8} {i : Nat}
    (hBytes : bs.drop i = front ++ rest) : bs.drop (i + front.length) = rest := by
  rw [← List.drop_drop, hBytes, List.drop_left]

/-- The bytes from an offset on, for each sight. -/
inductive Seen (bs : List UInt8) (i : Nat) : Sight → Prop where
  | escape (hBytes : bs.drop i = backslash :: (opener ++ bs.drop (i + 3))) : Seen bs i .escape
  | placeholder {body : List UInt8} {close : Nat} (hBody : IsBody body)
      (hClose : close = i + 2 + body.length)
      (hBytes : bs.drop i = opener ++ body ++ closeBrace :: bs.drop (close + 1)) :
      Seen bs i (.placeholder close)
  | unclosed (hBytes : bs.drop i = opener ++ bs.drop (i + 2))
      (hOpen : closing 0 .bare (bs.drop (i + 2)) = none) : Seen bs i .unclosed
  | other {b : UInt8} (hBytes : bs.drop i = b :: bs.drop (i + 1))
      (hLead : Token.lead b (bs.drop (i + 1)) = .plain b) : Seen bs i .other

/-- What a look at an offset says is what stands there. -/
theorem seen_sightAt {bs : List UInt8} {i : Nat} (hInside : i < bs.length) :
    Seen bs i (sightAt bs i) := by
  have hFirst : bs.drop i = bs[i] :: bs.drop (i + 1) := List.drop_eq_getElem_cons hInside
  unfold sightAt
  split
  · rename_i hEscape
    obtain ⟨hBackslash, rest, hRest⟩ := hEscape
    rw [List.getElem?_eq_getElem hInside, Option.some.injEq] at hBackslash
    have hBehind : bs.drop (i + 3) = rest := drop_add_of_append hRest.symm
    exact .escape (by rw [hFirst, hBackslash, ← hRest, hBehind])
  · rename_i hEscape
    split
    · rename_i hOpener
      obtain ⟨rest, hRest⟩ := hOpener
      have hBehind : bs.drop (i + 2) = rest := drop_add_of_append hRest.symm
      split
      · rename_i close hClosed
        obtain ⟨n, hFound, rfl⟩ := Option.map_eq_some_iff.mp hClosed
        rw [hBehind] at hFound
        have hCut := take_append_closeBrace_of_closing hFound
        have hLength := length_take_of_closing hFound
        have hBody : IsBody (rest.take n) := isBody_take_of_closing hFound
        have hAfter : bs.drop (i + 2 + n + 1) = rest.drop (n + 1) := by
          rw [Nat.add_assoc (i + 2), ← List.drop_drop, hBehind]
        exact .placeholder hBody (by rw [hLength])
          (by rw [hAfter, List.append_assoc, hCut, hRest])
      · rename_i hClosed
        exact .unclosed (by rw [hBehind, hRest]) (Option.map_eq_none_iff.mp hClosed)
    · rename_i hOpener
      refine .other hFirst (Token.lead_plain ?_ ?_)
      · intro hByte hPrefix
        exact hEscape ⟨by rw [List.getElem?_eq_getElem hInside, hByte], hPrefix⟩
      · intro hByte hPrefix
        rw [hFirst, hByte] at hOpener
        exact hOpener (List.cons_prefix_cons.mpr ⟨rfl, hPrefix⟩)

/-- Beside an ASCII byte a text can be cut. -/
theorem isBoundary_of_drop {text : String} {i : Nat} (front : List UInt8) {rest : List UInt8}
    {b : UInt8} (hAscii : b < 0x80) (hBytes : (Text.bytes text).drop i = front ++ b :: rest) :
    Text.isBoundary text (i + front.length) ∧ Text.isBoundary text (i + front.length + 1) :=
  Text.isBoundary_of_ascii hAscii (drop_add_of_append hBytes)

/-- An escape begins and ends between characters. -/
theorem Seen.boundaries_of_escape {text : String} {i : Nat}
    (h : Seen (Text.bytes text) i .escape) :
    Text.isBoundary text i ∧ Text.isBoundary text (i + 3) := by
  cases h with
  | escape hBytes =>
      exact ⟨(isBoundary_of_drop [] (by decide) hBytes).1,
        (isBoundary_of_drop [backslash, dollar] (by decide) hBytes).2⟩

/-- A placeholder and its body begin and end between characters. -/
theorem Seen.boundaries_of_placeholder {text : String} {i close : Nat}
    (h : Seen (Text.bytes text) i (.placeholder close)) :
    i + 2 ≤ close ∧ Text.isBoundary text i ∧ Text.isBoundary text (i + 2) ∧
      Text.isBoundary text close ∧ Text.isBoundary text (close + 1) := by
  cases h with
  | @placeholder body _ hBody hClose hBytes =>
      have hOpener := hBytes
      rw [List.append_assoc] at hOpener
      have hBrace := isBoundary_of_drop (opener ++ body) (by decide) hBytes
      rw [List.length_append, ← Nat.add_assoc] at hBrace
      refine ⟨by omega, (isBoundary_of_drop [] (by decide) hOpener).1,
        (isBoundary_of_drop [dollar] (by decide) hOpener).2, ?_⟩
      rw [hClose]
      exact hBrace

/-- The pass before it looks at an offset: where the part of the text starts that was not cut
out yet, what the present literal has so far, and what is complete. -/
structure Scan where
  offset : Nat := 0
  literalStart : Nat := 0
  current : String := ""
  literals : List String := []
  occurrences : List Occurrence := []
  deriving DecidableEq, Repr

/-- What a pass comes to. -/
structure Scanned where
  literals : List String
  occurrences : List Occurrence
  deriving DecidableEq, Repr

namespace Scan

/-- One step of the pass. There is no next state if a cut was refused. -/
def step? (text : String) (s : Scan) : Option Scan :=
  match sightAt (Text.bytes text) s.offset with
  | .escape => do
    let part ← Text.slice? text s.literalStart s.offset
    return { s with
      offset := s.offset + 3
      literalStart := s.offset + 3
      current := s.current ++ part ++ "$\x7b" }
  | .placeholder close => do
    let part ← Text.slice? text s.literalStart s.offset
    let found ← Text.slice? text s.offset (close + 1)
    return {
      offset := close + 1
      literalStart := close + 1
      literals := s.literals ++ [s.current ++ part]
      occurrences := s.occurrences ++ [⟨found, ⟨s.offset, close + 1⟩, ⟨s.offset + 2, close⟩⟩] }
  | .unclosed => some { s with offset := s.offset + 2 }
  | .other => some { s with offset := s.offset + 1 }

/-- The offset grows with every step, so the pass comes to an end. -/
theorem offset_lt_of_step? {text : String} {s next : Scan}
    (hInside : s.offset < text.utf8ByteSize) (hStep : s.step? text = some next) :
    s.offset < next.offset := by
  have hSeen : Seen (Text.bytes text) s.offset _ := seen_sightAt hInside
  unfold step? at hStep
  split at hStep
  · obtain ⟨_, _, hNext⟩ := Option.bind_eq_some_iff.mp hStep
    cases hNext
    exact Nat.lt_add_of_pos_right (by decide)
  · rename_i close hSight
    obtain ⟨_, _, hFound⟩ := Option.bind_eq_some_iff.mp hStep
    obtain ⟨_, _, hNext⟩ := Option.bind_eq_some_iff.mp hFound
    cases hNext
    rw [hSight] at hSeen
    cases hSeen with
    | placeholder hBody hClose hBytes =>
        simp only
        omega
  · cases hStep
    exact Nat.lt_add_of_pos_right (by decide)
  · cases hStep
    exact Nat.lt_succ_self _

/-- The pass from a state to the end of the text. -/
def run? (text : String) (s : Scan) : Option Scanned :=
  if _hInside : s.offset < text.utf8ByteSize then
    match _hStep : s.step? text with
    | some next => run? text next
    | none => none
  else do
    let part ← Text.slice? text s.literalStart text.utf8ByteSize
    return ⟨s.literals ++ [s.current ++ part], s.occurrences⟩
termination_by text.utf8ByteSize - s.offset
decreasing_by
  have hForward := offset_lt_of_step? _hInside _hStep
  omega

/-- The states of the pass over a text, as long as no cut is refused. -/
inductive Reached (text : String) : Scan → Prop where
  | start : Reached text {}
  | step {s next : Scan} (prior : Reached text s) (hInside : s.offset < text.utf8ByteSize)
      (hStep : s.step? text = some next) : Reached text next

/-- The part that was not cut out yet is in order, inside the text, and starts with a
character. Nothing is said about the character that the offset is in. -/
structure Safe (text : String) (s : Scan) : Prop where
  ordered : s.literalStart ≤ s.offset
  inside : s.offset ≤ text.utf8ByteSize
  boundary : Text.isBoundary text s.literalStart

/-- The present literal as far as the offset. -/
def pending (text : String) (s : Scan) : List UInt8 :=
  Text.bytes s.current ++ ((Text.bytes text).take s.offset).drop s.literalStart

/-- What is found in the rest of the text, with the present literal in front. -/
def ahead (text : String) (s : Scan) : Pieces (List UInt8) :=
  (Pieces.ofTokens s.offset (tokens ((Text.bytes text).drop s.offset))).prepend (s.pending text)

/-- A result is what is complete and what is ahead. -/
def Delivers (text : String) (s : Scan) (result : Scanned) : Prop :=
  ∃ t : Template, t.inBytes = s.ahead text ∧
    result = ⟨s.literals ++ t.literals,
      s.occurrences ++ t.placeholders.map Occurrence.ofPlaceholder⟩

variable {text : String} {s : Scan}

/-- The pass goes on from a state, and the next state has all of its result. -/
def Proceeds (text : String) (s : Scan) : Prop :=
  ∃ next, s.step? text = some next ∧ next.Safe text ∧
    ∀ result, next.Delivers text result → s.Delivers text result

/-- Plain bytes are passed over. -/
theorem proceeds_of_plain (hSafe : s.Safe text) (passed : List UInt8)
    (hStep : s.step? text = some { s with offset := s.offset + passed.length })
    (hBytes : (Text.bytes text).drop s.offset =
      passed ++ (Text.bytes text).drop (s.offset + passed.length))
    (hTokens : tokens ((Text.bytes text).drop s.offset) =
      passed.map .plain ++ tokens ((Text.bytes text).drop (s.offset + passed.length))) :
    s.Proceeds text := by
  have hPending : { s with offset := s.offset + passed.length }.pending text =
      s.pending text ++ passed := by
    have hSize : ((Text.bytes text).take s.offset).length = s.offset :=
      List.length_take_of_le hSafe.inside
    have hOrdered : s.literalStart ≤ ((Text.bytes text).take s.offset).length := by
      rw [hSize]
      exact hSafe.ordered
    rw [pending, List.take_add, hBytes, List.take_left, List.drop_append_of_le_length hOrdered,
      ← List.append_assoc, pending]
  have hAhead : { s with offset := s.offset + passed.length }.ahead text = s.ahead text := by
    rw [ahead, hPending, ahead, hTokens, Pieces.ofTokens_plain, Pieces.prepend_prepend]
  have hInside : s.offset + passed.length ≤ text.utf8ByteSize := by
    have hLength := congrArg List.length hBytes
    have hBefore := hSafe.inside
    rw [List.length_drop, List.length_append, List.length_drop, Text.length_bytes] at hLength
    omega
  refine ⟨_, hStep, ⟨Nat.le_add_right_of_le hSafe.ordered, hInside, hSafe.boundary⟩, ?_⟩
  rintro result ⟨t, hFound, hResult⟩
  exact ⟨t, hFound.trans hAhead, hResult⟩

/-- The pass gets over an escape without cutting a character. -/
theorem proceeds_of_escape (hSafe : s.Safe text)
    (hSight : sightAt (Text.bytes text) s.offset = .escape)
    (hSeen : Seen (Text.bytes text) s.offset .escape) : s.Proceeds text := by
  obtain ⟨hStop, hBehind⟩ := hSeen.boundaries_of_escape
  obtain ⟨part, hPart⟩ := Text.exists_slice? hSafe.ordered hSafe.boundary hStop
  let next : Scan := { s with
    offset := s.offset + 3
    literalStart := s.offset + 3
    current := s.current ++ part ++ "$\x7b" }
  have hStep : s.step? text = some next := by
    rw [step?, hSight]
    simp only [hPart]
    rfl
  have hPending : next.pending text = s.pending text ++ opener := by
    have hNone : ((Text.bytes text).take next.offset).drop next.literalStart = [] :=
      List.drop_eq_nil_of_le (List.length_take_le _ _)
    have hOpener : Text.bytes "$\x7b" = opener := rfl
    rw [pending, hNone, List.append_nil, Text.bytes_append, Text.bytes_append,
      Text.bytes_of_slice? hPart, hOpener, pending]
  have hAhead : next.ahead text = s.ahead text := by
    cases hSeen with
    | escape hBytes =>
        rw [ahead, hPending, ahead, hBytes, tokens_escape, Pieces.ofTokens, Pieces.prepend_prepend]
  refine ⟨next, hStep, ⟨Nat.le_refl _, Text.le_of_isBoundary hBehind, hBehind⟩, ?_⟩
  rintro result ⟨t, hFound, hResult⟩
  exact ⟨t, hFound.trans hAhead, hResult⟩

/-- A placeholder is the slice from its opener to its closing brace. -/
theorem exists_placeholder {body : List UInt8} {i close : Nat} (hClose : close = i + 2 + body.length)
    (hBytes : (Text.bytes text).drop i =
      opener ++ body ++ closeBrace :: (Text.bytes text).drop (close + 1))
    {found : String} (hFound : Text.slice? text i (close + 1) = some found) :
    ∃ p : Placeholder String, p.inBytes = ⟨i, body⟩ ∧
      Occurrence.ofPlaceholder p = ⟨found, ⟨i, close + 1⟩, ⟨i + 2, close⟩⟩ := by
  have hCut : Text.bytes text = (Text.bytes text).take i ++
      (opener ++ body ++ closeBrace :: (Text.bytes text).drop (close + 1)) := by
    rw [← hBytes, List.take_append_drop]
  obtain ⟨_, inner, _, _, rfl, _⟩ := exists_texts_of_cut hCut
  rw [Text.length_bytes] at hClose
  have hText : found = Placeholder.text ⟨i, inner⟩ := by
    have hSplit : opener ++ Text.bytes inner ++ closeBrace :: (Text.bytes text).drop (close + 1) =
        Text.bytes (Placeholder.text ⟨i, inner⟩) ++ (Text.bytes text).drop (close + 1) := by
      rw [bytes_text, List.append_assoc _ [closeBrace]]
      rfl
    have hSize : (Text.bytes (Placeholder.text ⟨i, inner⟩)).length = close + 1 - i := by
      simp only [Text.length_bytes, Placeholder.utf8ByteSize_text]
      omega
    rw [← Text.bytes_inj, Text.bytes_of_slice? hFound, List.drop_take, hBytes, hSplit,
      List.take_left' hSize]
  have hStop : Placeholder.stop ⟨i, inner⟩ = close + 1 := by
    simp only [Placeholder.stop]
    omega
  have hBodyStop : Placeholder.bodyStop ⟨i, inner⟩ = close := hClose.symm
  refine ⟨⟨i, inner⟩, rfl, ?_⟩
  rw [Occurrence.ofPlaceholder, hStop, hBodyStop, hText]
  rfl

theorem proceeds_of_placeholder (hSafe : s.Safe text) {close : Nat}
    (hSight : sightAt (Text.bytes text) s.offset = .placeholder close)
    (hSeen : Seen (Text.bytes text) s.offset (.placeholder close)) : s.Proceeds text := by
  obtain ⟨hOrder, hStop, _, _, hBehind⟩ := hSeen.boundaries_of_placeholder
  obtain ⟨part, hPart⟩ := Text.exists_slice? hSafe.ordered hSafe.boundary hStop
  obtain ⟨found, hFound⟩ := Text.exists_slice? (by omega) hStop hBehind
  let next : Scan := {
    offset := close + 1
    literalStart := close + 1
    literals := s.literals ++ [s.current ++ part]
    occurrences := s.occurrences ++ [⟨found, ⟨s.offset, close + 1⟩, ⟨s.offset + 2, close⟩⟩] }
  have hStep : s.step? text = some next := by
    rw [step?, hSight]
    simp only [hPart, hFound]
    rfl
  refine ⟨next, hStep, ⟨Nat.le_refl _, Text.le_of_isBoundary hBehind, hBehind⟩, ?_⟩
  rintro result ⟨t, hAhead, rfl⟩
  cases hSeen with
  | @placeholder body _ hBody hClose hBytes =>
      obtain ⟨p, hBytesOf, hOccurrence⟩ := exists_placeholder hClose hBytes hFound
      have hPending : Text.bytes (s.current ++ part) = s.pending text := by
        rw [Text.bytes_append, Text.bytes_of_slice? hPart, pending]
      -- behind the placeholder nothing is pending
      have hNone : next.pending text = [] :=
        List.drop_eq_nil_of_le (List.length_take_le _ _)
      refine ⟨.join (s.current ++ part) p t, ?_, ?_⟩
      · have hJoin : (Pieces.join (s.current ++ part) p t).inBytes =
            .join (s.pending text) p.inBytes t.inBytes := by
          rw [← hPending]
          rfl
        have hOffset : s.offset + (body.length + 3) = close + 1 := by omega
        have hPlaceholder : ∀ ts, Pieces.ofTokens s.offset (.placeholder body :: ts) =
            .join [] ⟨s.offset, body⟩ (Pieces.ofTokens (close + 1) ts) := by
          intro ts
          rw [Pieces.ofTokens, hOffset]
          rfl
        rw [hJoin, hAhead, hBytesOf, ahead, hNone, ahead, hBytes, tokens_placeholder hBody,
          hPlaceholder, Pieces.prepend_join, List.append_nil]
        rfl
      · rw [Pieces.literals_join, Pieces.placeholders_join, List.map_cons, hOccurrence]
        simp only [next, List.append_assoc, List.singleton_append]

/-- No cut is refused on the way, and none loses anything. -/
theorem proceeds_of_safe (hSafe : s.Safe text) (hInside : s.offset < text.utf8ByteSize) :
    s.Proceeds text := by
  have hSeen : Seen (Text.bytes text) s.offset _ := seen_sightAt hInside
  cases hSight : sightAt (Text.bytes text) s.offset with
  | escape => exact proceeds_of_escape hSafe hSight (hSight ▸ hSeen)
  | placeholder close => exact proceeds_of_placeholder hSafe hSight (hSight ▸ hSeen)
  | unclosed =>
      rw [hSight] at hSeen
      cases hSeen with
      | unclosed hBytes hOpen =>
          have hBrace : Token.lead openBrace ((Text.bytes text).drop (s.offset + 2)) =
              .plain openBrace :=
            Token.lead_plain (fun h => absurd h (by decide)) (fun h => absurd h (by decide))
          refine proceeds_of_plain hSafe opener (by rw [step?, hSight]; rfl) hBytes ?_
          rw [hBytes, List.cons_append, List.singleton_append,
            tokens_plain (Token.lead_unclosed hOpen), tokens_plain hBrace]
          rfl
  | other =>
      rw [hSight] at hSeen
      cases hSeen with
      | @other b hBytes hLead =>
          refine proceeds_of_plain hSafe [b] (by rw [step?, hSight]; rfl) hBytes ?_
          rw [hBytes, tokens_plain hLead]
          rfl

/-- Every state that the pass reaches is safe. -/
theorem safe_of_reached (h : Reached text s) : s.Safe text := by
  induction h with
  | start => exact ⟨Nat.le_refl 0, Nat.zero_le _, Text.isBoundary_zero text⟩
  | step _ hInside hStep ih =>
      obtain ⟨_, hNext, hSafe, _⟩ := proceeds_of_safe ih hInside
      cases hStep.symm.trans hNext
      exact hSafe

/-- From a safe state the pass comes to its end. -/
theorem exists_run? (text : String) (s : Scan) (hSafe : s.Safe text) :
    ∃ result, run? text s = some result ∧ s.Delivers text result := by
  by_cases hInside : s.offset < text.utf8ByteSize
  · obtain ⟨next, hStep, hNext, hDelivers⟩ := proceeds_of_safe hSafe hInside
    have hForward := offset_lt_of_step? hInside hStep
    obtain ⟨result, hRun, hResult⟩ := exists_run? text next hNext
    refine ⟨result, ?_, hDelivers result hResult⟩
    rw [run?, dif_pos hInside]
    split
    · rename_i hFound
      cases hStep.symm.trans hFound
      exact hRun
    · rename_i hNone
      cases hStep.symm.trans hNone
  · have hEnd : s.offset = text.utf8ByteSize :=
      Nat.le_antisymm hSafe.inside (Nat.le_of_not_lt hInside)
    have hStop : Text.isBoundary text s.offset := by
      rw [hEnd]
      exact Text.isBoundary_utf8ByteSize text
    obtain ⟨part, hPart⟩ := Text.exists_slice? hSafe.ordered hSafe.boundary hStop
    have hAhead : s.ahead text = ⟨s.pending text, []⟩ := by
      have hNone : (Text.bytes text).drop s.offset = [] :=
        List.drop_eq_nil_of_le (Nat.le_of_not_lt hInside)
      rw [ahead, hNone, tokens, Pieces.ofTokens, Pieces.prepend, List.append_nil]
    refine ⟨⟨s.literals ++ [s.current ++ part], s.occurrences⟩, ?_, ⟨s.current ++ part, []⟩, ?_, ?_⟩
    · rw [run?, dif_neg hInside, ← hEnd, hPart]
      rfl
    · rw [hAhead, pending, ← Text.bytes_of_slice? hPart, ← Text.bytes_append]
      rfl
    · simp [Pieces.literals, Pieces.placeholders]
termination_by text.utf8ByteSize - s.offset

end Scan

/-- A placeholder is a slice of the text, and its body is a slice of both. -/
theorem slices_of_ofText? {text : String} {t : Template} (hText : ofText? text = some t) :
    ∀ p ∈ t.placeholders, Text.slice? text p.start p.stop = some p.text ∧
      Text.slice? text p.bodyStart p.bodyStop = some p.body ∧
      Text.slice? p.text 2 (p.text.utf8ByteSize - 1) = some p.body := by
  intro p hMem
  obtain ⟨gaps, hSpelled⟩ := spelled_of_ofText? hText
  obtain ⟨front, back, rfl, hFront⟩ := hSpelled.exists_split p hMem
  rw [Nat.zero_add] at hFront
  have hStop : p.stop = front.utf8ByteSize + p.text.utf8ByteSize := by
    rw [Placeholder.utf8ByteSize_text, ← Nat.add_assoc, hFront, Placeholder.stop]
  refine ⟨?_, slice?_body front back p hFront, slice?_body_text p⟩
  rw [hStop, ← hFront]
  exact Text.slice?_append front p.text back

/-- Reading never cuts a character. Wherever the pass comes, the ends of a cut are in order and
inside the text, and each of them is the start of a character or the end of the text: the
start of what was not cut out yet, the offset where an opener or an escape stands, and the
closing brace with the offset behind it. So the pass comes to an end, and what it returns are
the literals and the placeholders of the template; each placeholder and its body can be cut
out of the text again by their spans, and the body out of the placeholder. -/
theorem scan_cuts_no_character (text : String) :
    (∀ s, Scan.Reached text s →
      s.literalStart ≤ s.offset ∧ s.offset ≤ text.utf8ByteSize ∧
      Text.isBoundary text s.literalStart ∧
      (s.offset < text.utf8ByteSize →
        (sightAt (Text.bytes text) s.offset = .escape → Text.isBoundary text s.offset) ∧
        (∀ close, sightAt (Text.bytes text) s.offset = .placeholder close →
          s.offset + 2 ≤ close ∧ close + 1 ≤ text.utf8ByteSize ∧
          Text.isBoundary text s.offset ∧ Text.isBoundary text (s.offset + 2) ∧
          Text.isBoundary text close ∧ Text.isBoundary text (close + 1)) ∧
        ∃ next, s.step? text = some next)) ∧
    ∃ result t, Scan.run? text {} = some result ∧ ofText? text = some t ∧
      result.literals = t.literals ∧
      result.occurrences = t.placeholders.map Occurrence.ofPlaceholder ∧
      ∀ o ∈ result.occurrences, ∃ body,
        o.span.text? text = some o.text ∧ o.body.text? text = some body ∧
        o.bodyText? = some body := by
  constructor
  · intro s hReached
    have hSafe := Scan.safe_of_reached hReached
    refine ⟨hSafe.ordered, hSafe.inside, hSafe.boundary, fun hInside => ?_⟩
    have hSeen : Seen (Text.bytes text) s.offset _ := seen_sightAt hInside
    obtain ⟨next, hStep, _⟩ := Scan.proceeds_of_safe hSafe hInside
    refine ⟨?_, ?_, next, hStep⟩
    · intro hSight
      rw [hSight] at hSeen
      exact hSeen.boundaries_of_escape.1
    · intro close hSight
      rw [hSight] at hSeen
      obtain ⟨hOrder, hBoundaries⟩ := hSeen.boundaries_of_placeholder
      exact ⟨hOrder, Text.le_of_isBoundary hBoundaries.2.2.2, hBoundaries⟩
  · obtain ⟨result, hRun, t, hAhead, rfl⟩ := Scan.exists_run? text {} (Scan.safe_of_reached .start)
    have hText : ofText? text = some t := Pieces.decode?_eq_some_iff.mpr hAhead
    refine ⟨_, t, hRun, hText, rfl, rfl, ?_⟩
    intro o hMem
    obtain ⟨p, hPlaceholder, rfl⟩ := List.mem_map.mp hMem
    exact ⟨p.body, slices_of_ofText? hText p hPlaceholder⟩

end Template
end TemplateCompiler
