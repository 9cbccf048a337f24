import TemplateCompiler.Proofs.Template.Lossless

/-! Which openers open a placeholder. The scan goes from the left and jumps over whole
tokens, but where placeholders start can be told without it: at every opener that is not
escaped, has a closing brace, and does not stand inside a placeholder. -/
namespace TemplateCompiler

@[simp] theorem Pieces.placeholders_prepend (bs : List UInt8) (p : Pieces (List UInt8)) :
    (p.prepend bs).placeholders = p.placeholders := rfl

/-- Decoding the pieces moves no placeholder. -/
theorem Pieces.placeholders_of_decode? {p : Pieces (List UInt8)} {t : Template}
    (h : p.decode? = some t) : p.placeholders = t.placeholders.map Placeholder.inBytes := by
  rw [← decode?_eq_some_iff.mp h, placeholders_inBytes]

namespace Template

/-- The offset of the brace that closes a body, if the body starts at an offset. -/
def closingAt? (bs : List UInt8) (start : Nat) : Option Nat :=
  (closing 0 .bare (bs.drop start)).map (start + ·)

/-- A closing brace is found in the same place whatever stands before the start of the search. -/
theorem closingAt?_append (front rest : List UInt8) (start : Nat) :
    closingAt? (front ++ rest) (front.length + start) =
      (closingAt? rest start).map (front.length + ·) := by
  rw [closingAt?, closingAt?, List.drop_length_add_append, Option.map_map]
  congr 1
  funext n
  exact Nat.add_assoc _ _ _

/-- The brace that closes a placeholder is the one that the search finds. -/
theorem closingAt?_placeholder {body : List UInt8} (hBody : IsBody body)
    (front rest : List UInt8) :
    closingAt? (front ++ (opener ++ body ++ closeBrace :: rest)) (front.length + 2) =
      some (front.length + 2 + body.length) := by
  have hBehind : (opener ++ body ++ closeBrace :: rest).drop 2 = body ++ closeBrace :: rest := by
    rw [List.append_assoc]
    rfl
  rw [closingAt?, List.drop_length_add_append, hBehind, closing_of_isBody hBody]
  rfl

/-- There is an opener at an offset; it has no backslash in front of it, and a brace that
closes it. -/
structure Opens (bs : List UInt8) (i : Nat) : Prop where
  stands : opener <+: bs.drop i
  unescaped : i = 0 ∨ bs[i - 1]? ≠ some backslash
  closed : (closingAt? bs (i + 2)).isSome = true

variable {start : Nat} {front rest body bs : List UInt8}

/-- An opener in the back of a text is escaped in the whole text exactly if it is escaped in
the back on its own, unless the cut separates it from its backslash. -/
theorem unescaped_append_iff (hSeam : opener <+: rest → front.getLast? ≠ some backslash) {i : Nat}
    (hOpener : opener <+: rest.drop i) :
    (front.length + i = 0 ∨ (front ++ rest)[front.length + i - 1]? ≠ some backslash) ↔
      (i = 0 ∨ rest[i - 1]? ≠ some backslash) := by
  cases i with
  | zero =>
      refine iff_of_true ?_ (.inl rfl)
      rcases List.eq_nil_or_concat front with rfl | ⟨before, last, rfl⟩
      · exact .inl rfl
      · have hLast := hSeam hOpener
        right
        simpa using hLast
  | succ j =>
      have hSame : (front ++ rest)[front.length + (j + 1) - 1]? = rest[j + 1 - 1]? := by
        rw [← Nat.add_assoc, Nat.add_sub_cancel,
          List.getElem?_append_right (Nat.le_add_right _ _), Nat.add_sub_cancel_left,
          Nat.add_sub_cancel]
      rw [hSame]
      simp

/-- What opens in the back of a text is what opens there if it is read on its own, unless
the cut separates an opener from its backslash. -/
theorem opens_append_iff (hSeam : opener <+: rest → front.getLast? ≠ some backslash) {i : Nat} :
    Opens (front ++ rest) (front.length + i) ↔ Opens rest i := by
  have hStands : opener <+: (front ++ rest).drop (front.length + i) ↔ opener <+: rest.drop i := by
    rw [List.drop_length_add_append]
  have hClosed : (closingAt? (front ++ rest) (front.length + i + 2)).isSome =
      (closingAt? rest (i + 2)).isSome := by
    rw [Nat.add_assoc, closingAt?_append, Option.isSome_map]
  constructor
  · intro h
    have hOpener := hStands.mp h.stands
    exact ⟨hOpener, (unescaped_append_iff hSeam hOpener).mp h.unescaped, hClosed ▸ h.closed⟩
  · intro h
    exact ⟨hStands.mpr h.stands, (unescaped_append_iff hSeam h.stands).mpr h.unescaped,
      hClosed ▸ h.closed⟩

/-- A placeholder begins with an opener that opens. -/
theorem opens_placeholder (hBody : IsBody body) (rest : List UInt8) :
    Opens (opener ++ body ++ closeBrace :: rest) 0 where
  stands := by
    rw [List.append_assoc]
    exact List.prefix_append _ _
  unescaped := .inl rfl
  closed := by
    have hClosed := closingAt?_placeholder hBody [] rest
    exact (congrArg Option.isSome hClosed).trans rfl

/-- The placeholders of a text that is read from an offset on. -/
def placeholdersFrom (start : Nat) (bs : List UInt8) : List (Placeholder (List UInt8)) :=
  (Pieces.ofTokens start (tokens bs)).placeholders

theorem placeholdersFrom_plain {b : UInt8} (hLead : Token.lead b rest = .plain b) :
    placeholdersFrom start (b :: rest) = placeholdersFrom (start + 1) rest := by
  rw [placeholdersFrom, tokens_plain hLead, Pieces.ofTokens, Pieces.placeholders_prepend,
    placeholdersFrom]

theorem placeholdersFrom_escape (start : Nat) (rest : List UInt8) :
    placeholdersFrom start (backslash :: (opener ++ rest)) = placeholdersFrom (start + 3) rest := by
  rw [placeholdersFrom, tokens_escape, Pieces.ofTokens, Pieces.placeholders_prepend,
    placeholdersFrom]

/-- A placeholder is the first one of the text that it begins. -/
theorem placeholdersFrom_placeholder (start : Nat) (hBody : IsBody body) (rest : List UInt8) :
    placeholdersFrom start (opener ++ body ++ closeBrace :: rest) =
      ⟨start, body⟩ :: placeholdersFrom (start + (body.length + 3)) rest := by
  rw [placeholdersFrom, tokens_placeholder hBody, Pieces.ofTokens]
  rfl

theorem le_start_of_mem_placeholdersFrom {p : Placeholder (List UInt8)}
    (hMem : p ∈ placeholdersFrom start bs) : start ≤ p.start := by
  induction bs using tokens_induction generalizing start with
  | nil => simp [placeholdersFrom, tokens, Pieces.ofTokens, Pieces.placeholders] at hMem
  | plain b rest hLead ih =>
      rw [placeholdersFrom_plain hLead] at hMem
      exact Nat.le_of_succ_le (ih hMem)
  | escape rest ih =>
      rw [placeholdersFrom_escape] at hMem
      exact Nat.le_trans (Nat.le_add_right _ _) (ih hMem)
  | placeholder body rest hBody ih =>
      rw [placeholdersFrom_placeholder start hBody] at hMem
      rcases List.mem_cons.mp hMem with rfl | hMem
      · exact Nat.le_refl _
      · exact Nat.le_trans (Nat.le_add_right _ _) (ih hMem)

/-- A part that can be cut off the front of a text. What is found in it does not go beyond it,
and the cut separates no opener from its backslash. -/
structure CutsOff (start : Nat) (front rest : List UInt8)
    (passed : List (Placeholder (List UInt8))) : Prop where
  seam : opener <+: rest → front.getLast? ≠ some backslash
  found : placeholdersFrom start (front ++ rest) =
    passed ++ placeholdersFrom (start + front.length) rest
  inside : ∀ p ∈ passed, p.start + (p.body.length + 3) ≤ start + front.length

/-- After a plain byte a text can be cut: no opener goes over the seam. -/
theorem cutsOff_plain {b : UInt8} (hLead : Token.lead b rest = .plain b) :
    CutsOff start [b] rest [] where
  seam hOpener hLast := (Token.of_lead_plain hLead).2.1 (Option.some.inj hLast) hOpener
  found := placeholdersFrom_plain hLead
  inside := by simp

theorem cutsOff_escape (start : Nat) (rest : List UInt8) :
    CutsOff start (backslash :: opener) rest [] where
  seam _ := by decide
  found := placeholdersFrom_escape start rest
  inside := by simp

theorem append_closeBrace_cons (body rest : List UInt8) :
    opener ++ body ++ closeBrace :: rest = (opener ++ body ++ [closeBrace]) ++ rest := by simp

theorem length_source_placeholder (body : List UInt8) :
    (opener ++ body ++ [closeBrace]).length = body.length + 3 := by simp

/-- After a placeholder a text can be cut, and the part cut off has that one placeholder. -/
theorem cutsOff_placeholder (start : Nat) (hBody : IsBody body) (rest : List UInt8) :
    CutsOff start (opener ++ body ++ [closeBrace]) rest [⟨start, body⟩] where
  seam _ := by
    rw [List.getLast?_concat]
    decide
  found := by
    rw [← append_closeBrace_cons, placeholdersFrom_placeholder start hBody,
      length_source_placeholder]
    rfl
  inside := List.forall_mem_singleton.mpr (Nat.le_of_eq (by rw [length_source_placeholder]))

/-- An offset is strictly inside a placeholder. -/
def Covers (p : Placeholder (List UInt8)) (i : Nat) : Prop :=
  p.start < i ∧ i < p.start + (p.body.length + 3)

/-- An offset is covered if it lies after the start of a placeholder and before its end. -/
theorem covers_inBytes_iff {p : Placeholder String} {i : Nat} :
    Covers p.inBytes i ↔ p.start < i ∧ i < p.stop := by
  rw [Covers, Placeholder.stop, Nat.add_assoc]
  rfl

/-- Placeholders start exactly where one opens, unless another one covers the place. -/
def StartsWhereOpened (start : Nat) (bs : List UInt8) : Prop :=
  ∀ i, (∃ p ∈ placeholdersFrom start bs, p.start = start + i) ↔
    Opens bs i ∧ ∀ q ∈ placeholdersFrom start bs, ¬Covers q (start + i)

/-- Nothing opens at a plain byte. -/
theorem not_opens_of_lead_plain {b : UInt8} (hLead : Token.lead b rest = .plain b) :
    ¬Opens (b :: rest) 0 := by
  intro h
  obtain ⟨_, _, hUnclosed⟩ := Token.of_lead_plain hLead
  obtain ⟨after, hOpener⟩ := h.stands
  obtain ⟨rfl, rfl⟩ := List.cons.inj hOpener
  have hClosed := h.closed
  rw [closingAt?, Option.isSome_map] at hClosed
  have hNone : closing 0 .bare after = none := hUnclosed rfl after rfl
  have hBehind : (dollar :: ([openBrace].append after)).drop (0 + 2) = after := rfl
  rw [hBehind, hNone] at hClosed
  cases hClosed

theorem not_opens_of_escape (rest : List UInt8) {i : Nat} (hInside : i < 3) :
    ¬Opens (backslash :: (opener ++ rest)) i := by
  intro h
  match i with
  | 0 =>
      have hFirst := (List.cons_prefix_cons.mp h.stands).1
      exact absurd hFirst (by decide)
  | 1 => simpa using h.unescaped
  | 2 =>
      have hFirst := (List.cons_prefix_cons.mp h.stands).1
      exact absurd hFirst (by decide)

/-- A front part and the rest can be looked at one by one. -/
theorem StartsWhereOpened.append {passed : List (Placeholder (List UInt8))}
    (hCut : CutsOff start front rest passed)
    (hFront : ∀ i < front.length, (∃ p ∈ passed, p.start = start + i) ↔
      Opens (front ++ rest) i ∧ ∀ q ∈ passed, ¬Covers q (start + i))
    (h : StartsWhereOpened (start + front.length) rest) :
    StartsWhereOpened start (front ++ rest) := by
  intro i
  rw [hCut.found]
  by_cases hInside : i < front.length
  · -- in front of the cut, what is found behind it neither starts nor covers anything
    have hLater : ∀ q ∈ placeholdersFrom (start + front.length) rest, start + i < q.start := by
      intro q hMem
      have hStart := le_start_of_mem_placeholdersFrom hMem
      omega
    constructor
    · rintro ⟨p, hMem, hStart⟩
      rcases List.mem_append.mp hMem with hMem | hMem
      · obtain ⟨hOpens, hOutside⟩ := (hFront i hInside).mp ⟨p, hMem, hStart⟩
        refine ⟨hOpens, List.forall_mem_append.mpr ⟨hOutside, ?_⟩⟩
        exact fun q hMem hCovers => Nat.lt_asymm hCovers.1 (hLater q hMem)
      · exact absurd hStart (Nat.ne_of_gt (hLater p hMem))
    · rintro ⟨hOpens, hOutside⟩
      obtain ⟨p, hMem, hStart⟩ :=
        (hFront i hInside).mpr ⟨hOpens, (List.forall_mem_append.mp hOutside).1⟩
      exact ⟨p, List.mem_append_left _ hMem, hStart⟩
  · -- behind the cut, what was passed is over
    obtain ⟨j, rfl⟩ := Nat.exists_eq_add_of_le (Nat.le_of_not_lt hInside)
    have hEarlier : ∀ q ∈ passed, q.start + (q.body.length + 3) ≤ start + front.length + j :=
      fun q hMem => Nat.le_add_right_of_le (hCut.inside q hMem)
    rw [opens_append_iff hCut.seam, ← Nat.add_assoc]
    constructor
    · rintro ⟨p, hMem, hStart⟩
      rcases List.mem_append.mp hMem with hMem | hMem
      · have hStop := hEarlier p hMem
        omega
      · obtain ⟨hOpens, hOutside⟩ := (h j).mp ⟨p, hMem, hStart⟩
        refine ⟨hOpens, List.forall_mem_append.mpr ⟨?_, hOutside⟩⟩
        exact fun q hMem hCovers => Nat.not_lt.mpr (hEarlier q hMem) hCovers.2
    · rintro ⟨hOpens, hOutside⟩
      obtain ⟨p, hMem, hStart⟩ := (h j).mpr ⟨hOpens, (List.forall_mem_append.mp hOutside).2⟩
      exact ⟨p, List.mem_append_right _ hMem, hStart⟩

/-- A token that is no placeholder is passed over. -/
theorem StartsWhereOpened.append_of_none (hCut : CutsOff start front rest [])
    (hNone : ∀ i < front.length, ¬Opens (front ++ rest) i)
    (h : StartsWhereOpened (start + front.length) rest) :
    StartsWhereOpened start (front ++ rest) := by
  refine append hCut ?_ h
  intro i hInside
  exact iff_of_false (by simp) fun hOpens => hNone i hInside hOpens.1

/-- In a placeholder nothing opens but the placeholder, since it covers the rest of itself. -/
theorem starts_iff_of_placeholder (start : Nat) (hBody : IsBody body) (rest : List UInt8) {i : Nat}
    (hInside : i < body.length + 3) :
    (∃ p ∈ [(⟨start, body⟩ : Placeholder (List UInt8))], p.start = start + i) ↔
      Opens (opener ++ body ++ closeBrace :: rest) i ∧
        ∀ q ∈ [(⟨start, body⟩ : Placeholder (List UInt8))], ¬Covers q (start + i) := by
  rw [List.forall_mem_singleton]
  rcases Nat.eq_zero_or_pos i with rfl | hPositive
  · refine iff_of_true ⟨_, List.mem_cons_self, rfl⟩ ⟨opens_placeholder hBody rest, ?_⟩
    exact fun hCovers => Nat.lt_irrefl _ hCovers.1
  · refine iff_of_false ?_ ?_
    · rintro ⟨p, hMem, hStart⟩
      rw [List.mem_singleton.mp hMem] at hStart
      exact Nat.ne_of_lt (Nat.lt_add_of_pos_right hPositive) hStart
    · rintro ⟨_, hOutside⟩
      exact hOutside ⟨Nat.lt_add_of_pos_right hPositive, Nat.add_lt_add_left hInside start⟩

/-- Placeholders start at the openers that are not escaped, are closed, and are not inside
another placeholder. -/
theorem startsWhereOpened (start : Nat) (bs : List UInt8) : StartsWhereOpened start bs := by
  induction bs using tokens_induction generalizing start with
  | nil =>
      intro i
      refine iff_of_false ?_ ?_
      · simp [placeholdersFrom, tokens, Pieces.ofTokens, Pieces.placeholders]
      · rintro ⟨hOpens, _⟩
        simpa using hOpens.stands
  | plain b rest hLead ih =>
      refine .append_of_none (cutsOff_plain hLead) ?_ (ih (start + 1))
      intro i hInside
      obtain rfl : i = 0 := Nat.lt_one_iff.mp hInside
      exact not_opens_of_lead_plain hLead
  | escape rest ih =>
      refine .append_of_none (cutsOff_escape start rest) ?_ (ih (start + 3))
      intro i hInside
      exact not_opens_of_escape rest hInside
  | placeholder body rest hBody ih =>
      rw [append_closeBrace_cons]
      refine .append (cutsOff_placeholder start hBody rest) ?_ (ih _)
      intro i hInside
      rw [length_source_placeholder] at hInside
      rw [← append_closeBrace_cons]
      exact starts_iff_of_placeholder start hBody rest hInside

/-- The search for a closing brace finds the end of every placeholder. -/
theorem Spelled.closingAt?_eq {text : String} {gaps : List String} {t : Template}
    (h : Spelled 0 text gaps t) {p : Placeholder String} (hMem : p ∈ t.placeholders) :
    ∃ close, closingAt? (Text.bytes text) (p.start + 2) = some close ∧ p.stop = close + 1 := by
  obtain ⟨front, back, rfl, hFront⟩ := h.exists_split p hMem
  have hBytes : Text.bytes (front ++ p.text ++ back) = Text.bytes front ++
      (opener ++ Text.bytes p.body ++ closeBrace :: Text.bytes back) := by
    rw [Text.bytes_append, Text.bytes_append, bytes_text]
    simp
  have hClosing := closingAt?_placeholder (h.isBody p hMem) (Text.bytes front) (Text.bytes back)
  rw [← hBytes, Text.length_bytes, Text.length_bytes, ← Nat.zero_add front.utf8ByteSize,
    hFront] at hClosing
  refine ⟨_, hClosing, ?_⟩
  rw [Placeholder.stop]
  omega

/-- Placeholders start exactly at the openers that open and lie in no other placeholder. -/
theorem starts_iff {text : String} {t : Template} (hText : ofText? text = some t) (i : Nat) :
    (∃ p ∈ t.placeholders, p.start = i) ↔
      Opens (Text.bytes text) i ∧ ∀ q ∈ t.placeholders, ¬(q.start < i ∧ i < q.stop) := by
  have hFound : placeholdersFrom 0 (Text.bytes text) = t.placeholders.map Placeholder.inBytes :=
    Pieces.placeholders_of_decode? hText
  have hStarts := startsWhereOpened 0 (Text.bytes text) i
  rw [hFound, Nat.zero_add, List.forall_mem_map] at hStarts
  simp only [covers_inBytes_iff] at hStarts
  rw [← hStarts]
  constructor
  · rintro ⟨p, hMem, hStart⟩
    exact ⟨p.inBytes, List.mem_map_of_mem hMem, hStart⟩
  · rintro ⟨_, hFoundMem, hStart⟩
    obtain ⟨p, hMem, rfl⟩ := List.mem_map.mp hFoundMem
    exact ⟨p, hMem, hStart⟩

/-- The opener at an offset is part of a literal. A gap holds it, at this offset of the text,
and the literal holds it with what the gap has in front of it and behind it; only a backslash
that stands right in front of it is left out. -/
def InLiteral (start : Nat) (gaps : List String) (t : Template) (i : Nat) : Prop :=
  ∃ (k offset : Nat) (before front after : String),
    (start :: t.placeholders.map Placeholder.stop)[k]? = some offset ∧
    gaps[k]? = some (before ++ "$\x7b" ++ after) ∧ offset + before.utf8ByteSize = i ∧
    (before = front ++ "\\" ∨ before = front ∧ front.toList.getLast? ≠ some '\\') ∧
    t.literals[k]? = some (unescape front ++ "$\x7b" ++ unescape after)

/-- An opener in a text, escaped or not, is still there in what is read of the text. Of what
stands before it only a backslash that escapes it is lost. -/
theorem exists_unescape_eq (before after : String) :
    ∃ front, (before = front ++ "\\" ∨ before = front ∧ front.toList.getLast? ≠ some '\\') ∧
      unescape (before ++ "$\x7b" ++ after) = unescape front ++ "$\x7b" ++ unescape after := by
  by_cases hLast : before.toList.getLast? = some '\\'
  · obtain ⟨front, hFront⟩ := List.getLast?_eq_some_iff.mp hLast
    have hBefore : before = String.ofList front ++ "\\" := by
      rw [← String.toList_inj, hFront, String.toList_append, String.toList_ofList]
      rfl
    have hEscaped : "\\$\x7b" = "\\" ++ "$\x7b" := rfl
    refine ⟨String.ofList front, .inl hBefore, ?_⟩
    have hJoin : String.ofList front ++ "\\" ++ "$\x7b" = String.ofList front ++ "\\$\x7b" := by
      rw [hEscaped, String.append_assoc]
    rw [hBefore, hJoin, unescape_append_escape]
  · exact ⟨before, .inr ⟨rfl, hLast⟩, unescape_append_opener hLast after⟩

/-- Around an opener among the bytes of a text there are texts. -/
theorem exists_append_of_opener {gap : String} {i : Nat}
    (hOpener : opener <+: (Text.bytes gap).drop i) :
    ∃ before after, gap = before ++ "$\x7b" ++ after ∧ before.utf8ByteSize = i := by
  obtain ⟨rest, hRest⟩ := hOpener
  have hCut : Text.bytes gap = (Text.bytes gap).take i ++ dollar :: openBrace :: rest := by
    have hSplit := (List.take_append_drop i (Text.bytes gap)).symm
    rwa [← hRest] at hSplit
  obtain ⟨before, behind, hBefore, hBehind⟩ := Text.bytes_cut (by decide) hCut
  obtain ⟨_, after, _, hAfter⟩ := @Text.bytes_cut behind [] rest openBrace (by decide) hBehind
  have hInside : i ≤ (Text.bytes gap).length := by
    have hLength := congrArg List.length hRest
    simp only [List.length_append, List.length_cons, List.length_drop] at hLength
    omega
  refine ⟨before, after, ?_, ?_⟩
  · rw [← Text.bytes_inj, hCut, Text.bytes_append, Text.bytes_append, hBefore, hAfter]
    simp only [List.append_assoc]
    rfl
  · rw [← Text.length_bytes, hBefore, List.length_take, Nat.min_eq_left hInside]

/-- An opener in the first gap is in the first literal. -/
theorem inLiteral_of_gap {gap : String} {gaps : List String} {t : Template} {i : Nat}
    (hLiteral : t.literals[0]? = some (unescape gap))
    (hOpener : opener <+: (Text.bytes gap).drop i) :
    InLiteral start (gap :: gaps) t (start + i) := by
  obtain ⟨before, after, rfl, rfl⟩ := exists_append_of_opener hOpener
  obtain ⟨front, hFront, hUnescape⟩ := exists_unescape_eq before after
  rw [hUnescape] at hLiteral
  exact ⟨0, start, before, front, after, rfl, rfl, rfl, hFront, hLiteral⟩

/-- An opener that begins in front of a placeholder ends there too. -/
theorem opener_in_gap {gap : String} {p : Placeholder String} {rest : String} {i : Nat}
    (hInside : i < gap.utf8ByteSize)
    (hOpener : opener <+: (Text.bytes (gap ++ p.text ++ rest)).drop i) :
    opener <+: (Text.bytes gap).drop i := by
  have hNonempty : (Text.bytes gap).drop i ≠ [] := by
    rw [Ne, List.drop_eq_nil_iff, Text.length_bytes]
    omega
  have hLength : i ≤ (Text.bytes gap).length := Nat.le_of_lt hInside
  rw [String.append_assoc, Text.bytes_append, List.drop_append_of_le_length hLength] at hOpener
  have hNe : openBrace ≠ dollar := by decide
  refine pair_prefix_of_append hNonempty ?_ hOpener
  rw [Text.bytes_append, bytes_text]
  simpa using hNe

/-- An opener that no placeholder holds is in a literal. -/
theorem Spelled.inLiteral {gaps : List String} {text : String} {t : Template}
    (h : Spelled start text gaps t) {i : Nat} (hOpener : opener <+: (Text.bytes text).drop i)
    (hOutside : ∀ p ∈ t.placeholders, ¬(p.start ≤ start + i ∧ start + i < p.stop)) :
    InLiteral start gaps t (start + i) := by
  induction h generalizing i with
  | last start gap => exact inLiteral_of_gap rfl hOpener
  | @placeholder start gap rest p gaps after hStart hBody hGap hRest ih =>
      rw [Pieces.placeholders_join, List.forall_mem_cons] at hOutside
      obtain ⟨hAway, hLater⟩ := hOutside
      by_cases hInside : i < gap.utf8ByteSize
      · exact inLiteral_of_gap rfl (opener_in_gap hInside hOpener)
      · have hSize : (gap ++ p.text).utf8ByteSize =
            gap.utf8ByteSize + (p.body.utf8ByteSize + 3) := by
          rw [String.utf8ByteSize_append, Placeholder.utf8ByteSize_text]
        have hStop : p.stop = start + (gap ++ p.text).utf8ByteSize := by
          rw [hSize, Placeholder.stop, hStart]
          omega
        have hBehind : (gap ++ p.text).utf8ByteSize ≤ i := by omega
        obtain ⟨j, rfl⟩ := Nat.exists_eq_add_of_le hBehind
        rw [Text.bytes_append, ← Text.length_bytes, List.drop_length_add_append] at hOpener
        rw [← Nat.add_assoc, ← hStop] at hLater ⊢
        obtain ⟨k, offset, before, front, behind, hOffset, hHeld, hAt, hFront, hLiteral⟩ :=
          ih hOpener hLater
        exact ⟨k + 1, offset, before, front, behind, hOffset, hHeld, hAt, hFront, hLiteral⟩

/-- Which openers open a placeholder, and what becomes of the others. A placeholder starts at
an offset of the text exactly if there is an opener there, strictly inside no placeholder,
that has no backslash in front of it and a brace that closes it; and this brace is its end.
Every other opener that no placeholder holds is part of a literal, and takes nothing of what
follows it away from the placeholders. -/
theorem placeholders_start_at_openers (text : String) :
    ∃ t gaps, ofText? text = some t ∧ gaps? text 0 t.placeholders = some gaps ∧
      (∀ i, (∃ p ∈ t.placeholders, p.start = i) ↔
        opener <+: (Text.bytes text).drop i ∧
        (∀ q ∈ t.placeholders, ¬(q.start < i ∧ i < q.stop)) ∧
        (i = 0 ∨ (Text.bytes text)[i - 1]? ≠ some backslash) ∧
        ∃ close, closingAt? (Text.bytes text) (i + 2) = some close) ∧
      (∀ p ∈ t.placeholders, ∃ close,
        closingAt? (Text.bytes text) (p.start + 2) = some close ∧ p.stop = close + 1) ∧
      ∀ i, opener <+: (Text.bytes text).drop i →
        (∀ p ∈ t.placeholders, ¬(p.start ≤ i ∧ i < p.stop)) → InLiteral 0 gaps t i := by
  obtain ⟨gaps, t, hText, hSpelled⟩ := exists_ofText? text
  have hGaps := hSpelled.gaps?_eq "" rfl
  rw [String.empty_append] at hGaps
  refine ⟨t, gaps, hText, hGaps, ?_, fun p hMem => hSpelled.closingAt?_eq hMem, ?_⟩
  · intro i
    rw [starts_iff hText i]
    constructor
    · rintro ⟨hOpens, hOutside⟩
      exact ⟨hOpens.stands, hOutside, hOpens.unescaped,
        Option.isSome_iff_exists.mp hOpens.closed⟩
    · rintro ⟨hStands, hOutside, hUnescaped, hClosed⟩
      exact ⟨⟨hStands, hUnescaped, Option.isSome_iff_exists.mpr hClosed⟩, hOutside⟩
  · intro i hOpener hOutside
    have hLiteral := hSpelled.inLiteral hOpener (by simpa using hOutside)
    rwa [Nat.zero_add] at hLiteral

end Template
end TemplateCompiler
