import TemplateCompiler.Proofs.Template.Openers

/-! Texts that are put together. If nothing at the end of the first text is left open, both
are read as they are read on their own, and only the literals beside the cut become one. What
is left open is an opener that nothing closes, or the first part of an opener or an escape. -/
namespace TemplateCompiler

/-- The same placeholder further back, behind so many bytes. -/
def Placeholder.moved {α : Type} (p : Placeholder α) (offset : Nat) : Placeholder α :=
  { p with start := p.start + offset }

namespace Placeholder

theorem stop_moved (p : Placeholder String) (offset : Nat) :
    (p.moved offset).stop = p.stop + offset := by
  simp only [stop, moved]
  omega

theorem bodyStart_moved (p : Placeholder String) (offset : Nat) :
    (p.moved offset).bodyStart = p.bodyStart + offset := Nat.add_right_comm p.start offset 2

theorem bodyStop_moved (p : Placeholder String) (offset : Nat) :
    (p.moved offset).bodyStop = p.bodyStop + offset := by
  rw [bodyStop, bodyStart_moved, Nat.add_right_comm]
  rfl

end Placeholder

namespace Pieces
variable {α : Type}

/-- The same pieces further back. -/
def moved (p : Pieces α) (offset : Nat) : Pieces α :=
  ⟨p.head, p.tail.map fun (found, literal) => (found.moved offset, literal)⟩

@[simp] theorem literals_moved (p : Pieces α) (offset : Nat) :
    (p.moved offset).literals = p.literals := by
  simp [literals, moved]

@[simp] theorem placeholders_moved (p : Pieces α) (offset : Nat) :
    (p.moved offset).placeholders = p.placeholders.map (·.moved offset) := by
  simp [placeholders, moved]

/-- Pieces behind others. The literals that meet become one. -/
def append [Append α] (p q : Pieces α) : Pieces α :=
  go p.head p.tail
where
  go (head : α) : List (Placeholder α × α) → Pieces α
    | [] => ⟨head ++ q.head, q.tail⟩
    | (found, literal) :: rest => join head found (go literal rest)

section Append
variable [Append α]

/-- Pieces without a placeholder go into the first literal of what they are put in front of. -/
theorem append_last (head : α) (q : Pieces α) :
    append ⟨head, []⟩ q = ⟨head ++ q.head, q.tail⟩ := rfl

/-- The first placeholder stays the first one when pieces are appended. -/
theorem append_join (head : α) (found : Placeholder α) (after q : Pieces α) :
    (join head found after).append q = join head found (after.append q) := rfl

/-- Pieces are a last literal, or a literal and a placeholder in front of other pieces. -/
@[elab_as_elim]
theorem join_induction {α : Type} {motive : Pieces α → Prop} (p : Pieces α)
    (last : ∀ head, motive ⟨head, []⟩)
    (join : ∀ head found after, motive after → motive (join head found after)) : motive p := by
  obtain ⟨head, tail⟩ := p
  induction tail generalizing head with
  | nil => exact last head
  | cons part rest ih =>
      obtain ⟨found, literal⟩ := part
      exact join head found ⟨literal, rest⟩ (ih literal)

/-- The placeholders of the whole are those of the two parts, one after the other. -/
theorem placeholders_append (p q : Pieces α) :
    (p.append q).placeholders = p.placeholders ++ q.placeholders := by
  induction p using join_induction with
  | last => rfl
  | join head found after ih =>
      rw [append_join, placeholders_join, ih, placeholders_join, List.cons_append]

/-- At the seam the last literal of the first part and the first one of the second are joined. -/
theorem literals_append (p : Pieces α) {q : Pieces α} {first : α} {others : List α}
    (hLiterals : q.literals = first :: others) :
    ∃ firsts last, p.literals = firsts ++ [last] ∧
      (p.append q).literals = firsts ++ (last ++ first) :: others := by
  induction p using join_induction with
  | last head =>
      obtain ⟨rfl, rfl⟩ := List.cons.inj hLiterals
      exact ⟨[], head, rfl, rfl⟩
  | join head found after ih =>
      obtain ⟨firsts, last, hAfter, hAppend⟩ := ih
      refine ⟨head :: firsts, last, ?_, ?_⟩
      · rw [literals_join, hAfter, List.cons_append]
      · rw [append_join, literals_join, hAppend, List.cons_append]

end Append

/-- Bytes in front of the first part are in front of the whole. -/
theorem prepend_append (bs : List UInt8) (p q : Pieces (List UInt8)) :
    (p.prepend bs).append q = (p.append q).prepend bs := by
  cases p using join_induction with
  | last head => simp only [prepend, append_last, List.append_assoc]
  | join head found after => rfl

theorem moved_prepend (bs : List UInt8) (p : Pieces (List UInt8)) (offset : Nat) :
    (p.prepend bs).moved offset = (p.moved offset).prepend bs := rfl

/-- Tokens behind others are collected as pieces behind others. -/
theorem ofTokens_append (start : Nat) (ts us : List Template.Token) :
    ofTokens start (ts ++ us) = (ofTokens start ts).append
      (ofTokens (start + (ts.flatMap Template.Token.source).length) us) := by
  induction ts generalizing start with
  | nil => rfl
  | cons t ts ih =>
      rw [List.cons_append, List.flatMap_cons, List.length_append, ← Nat.add_assoc]
      cases t with
      | plain b => rw [ofTokens, ih, ofTokens, prepend_append]; rfl
      | escape => rw [ofTokens, ih, ofTokens, prepend_append]; rfl
      | placeholder body =>
          have hSize : (Template.Token.placeholder body).source.length = body.length + 3 := by
            simp [Template.Token.source]
          rw [ofTokens, ih, hSize]
          rfl

/-- Tokens that start later give the same pieces, with their placeholders moved. -/
theorem ofTokens_moved (start offset : Nat) (ts : List Template.Token) :
    ofTokens (start + offset) ts = (ofTokens start ts).moved offset := by
  induction ts generalizing start with
  | nil => rfl
  | cons t ts ih =>
      cases t with
      | plain b => rw [ofTokens, Nat.add_right_comm, ih, ofTokens, moved_prepend]
      | escape => rw [ofTokens, Nat.add_right_comm, ih, ofTokens, moved_prepend]
      | placeholder body =>
          rw [ofTokens, Nat.add_right_comm, ih, ofTokens]
          rfl

theorem inBytes_moved (t : Template) (offset : Nat) :
    (t.moved offset).inBytes = t.inBytes.moved offset := by
  simp [inBytes, moved, Placeholder.inBytes, Placeholder.moved]

theorem inBytes_append (t u : Template) : (t.append u).inBytes = t.inBytes.append u.inBytes := by
  induction t using join_induction with
  | last head => simp only [append_last, inBytes, List.map_nil, Text.bytes_append]
  | join head found after ih =>
      have hJoin : ∀ t : Template,
          (join head found t).inBytes = join (Text.bytes head) found.inBytes t.inBytes :=
        fun _ => rfl
      rw [append_join, hJoin, hJoin, ih, append_join]

end Pieces

namespace Template
variable {start : Nat} {front rest : List UInt8}

/-- Nothing at the end of a text is left open: every opener has a backslash in front of it,
or a placeholder holds it, and the last byte begins neither an opener nor an escape. -/
structure Sealed (start : Nat) (bs : List UInt8) : Prop where
  held : ∀ i, opener <+: bs.drop i → (i = 0 ∨ bs[i - 1]? ≠ some backslash) →
    ∃ p ∈ placeholdersFrom start bs, p.start ≤ start + i ∧ start + i < p.start + (p.body.length + 3)
  noBackslash : bs.getLast? ≠ some backslash
  noDollar : bs.getLast? ≠ some dollar

namespace Sealed

private theorem getLast?_ne_of_append {b : UInt8} (h : (front ++ rest).getLast? ≠ some b) :
    rest.getLast? ≠ some b := by
  intro hLast
  exact h (by simp [List.getLast?_append, hLast])

/-- The back of a sealed text is sealed. -/
theorem of_append {passed : List (Placeholder (List UInt8))}
    (hCut : CutsOff start front rest passed) (h : Sealed start (front ++ rest)) :
    Sealed (start + front.length) rest where
  held i hOpener hUnescaped := by
    obtain ⟨p, hMem, hStart, hStop⟩ := h.held (front.length + i)
      (by rwa [List.drop_length_add_append])
      ((unescaped_append_iff hCut.seam hOpener).mpr hUnescaped)
    rw [hCut.found] at hMem
    rcases List.mem_append.mp hMem with hMem | hMem
    · have hOver := hCut.inside p hMem
      omega
    · exact ⟨p, hMem, by omega, by omega⟩
  noBackslash := getLast?_ne_of_append h.noBackslash
  noDollar := getLast?_ne_of_append h.noDollar

/-- A plain byte does not begin an opener. -/
theorem not_opener_of_lead_plain {b : UInt8} (hLead : Token.lead b rest = .plain b)
    (h : Sealed start (b :: rest)) : ¬opener <+: b :: rest := by
  intro hOpener
  obtain ⟨p, hMem, hStart, _⟩ := h.held 0 hOpener (.inl rfl)
  rw [placeholdersFrom_plain hLead] at hMem
  have hBehind := le_start_of_mem_placeholdersFrom hMem
  omega

/-- A plain byte stays plain, whatever follows. -/
theorem lead_plain_append {b : UInt8} (hLead : Token.lead b rest = .plain b)
    (h : Sealed start (b :: rest)) (back : List UInt8) : Token.lead b (rest ++ back) = .plain b := by
  obtain ⟨_, hEscape, _⟩ := Token.of_lead_plain hLead
  have hOpener := h.not_opener_of_lead_plain hLead
  apply Token.lead_plain
  · rintro rfl hPrefix
    match rest with
    | [] => exact h.noBackslash rfl
    | [c] =>
        obtain ⟨rfl, _⟩ := List.cons_prefix_cons.mp hPrefix
        exact h.noDollar rfl
    | c :: d :: more =>
        refine hEscape rfl (List.prefix_of_prefix_length_le hPrefix (List.prefix_append _ back) ?_)
        simp
  · rintro rfl hPrefix
    match rest with
    | [] => exact h.noDollar rfl
    | c :: more =>
        obtain ⟨rfl, _⟩ := List.cons_prefix_cons.mp hPrefix
        exact hOpener (List.prefix_append opener more)

end Sealed

/-- The tokens of a sealed text do not depend on what follows it. -/
theorem tokens_append (h : Sealed start front) (back : List UInt8) :
    tokens (front ++ back) = tokens front ++ tokens back := by
  induction front using tokens_induction generalizing start with
  | nil => rw [tokens, List.nil_append, List.nil_append]
  | plain b rest hLead ih =>
      have hRest : Sealed (start + 1) rest := .of_append (cutsOff_plain hLead) h
      rw [List.cons_append, tokens_plain (h.lead_plain_append hLead back), ih hRest,
        tokens_plain hLead, List.cons_append]
  | escape rest ih =>
      have hRest : Sealed (start + 3) rest := .of_append (cutsOff_escape start rest) h
      rw [List.cons_append, List.append_assoc, tokens_escape, ih hRest, tokens_escape,
        List.cons_append]
  | placeholder body rest hBody ih =>
      rw [append_closeBrace_cons] at h
      have hRest := Sealed.of_append (cutsOff_placeholder start hBody rest) h
      have hBehind : opener ++ body ++ closeBrace :: rest ++ back =
          opener ++ body ++ closeBrace :: (rest ++ back) := by simp
      rw [hBehind, tokens_placeholder hBody, ih hRest, tokens_placeholder hBody, List.cons_append]

/-- What seals a text, told by what it is read as. -/
theorem sealed_of_ofText? {text : String} {t : Template} (hText : ofText? text = some t)
    (hBackslash : text.toList.getLast? ≠ some '\\') (hDollar : text.toList.getLast? ≠ some '$')
    (hEscaped : ∀ i, opener <+: (Text.bytes text).drop i →
      (∀ p ∈ t.placeholders, ¬(p.start ≤ i ∧ i < p.stop)) →
        0 < i ∧ (Text.bytes text)[i - 1]? = some backslash) :
    Sealed 0 (Text.bytes text) where
  held i hOpener hUnescaped := by
    have hFound : placeholdersFrom 0 (Text.bytes text) = t.placeholders.map Placeholder.inBytes :=
      Pieces.placeholders_of_decode? hText
    refine Classical.byContradiction fun hNone => ?_
    have hOutside : ∀ p ∈ t.placeholders, ¬(p.start ≤ i ∧ i < p.stop) := by
      rintro p hMem ⟨hStart, hStop⟩
      refine hNone ⟨p.inBytes, hFound ▸ List.mem_map_of_mem hMem, ?_, ?_⟩
      · simpa only [Nat.zero_add, Placeholder.inBytes] using hStart
      · simpa only [Nat.zero_add, Placeholder.inBytes, Text.length_bytes, Placeholder.stop,
          Nat.add_assoc] using hStop
    obtain ⟨hPositive, hBefore⟩ := hEscaped i hOpener hOutside
    rcases hUnescaped with rfl | hUnescaped
    · exact Nat.lt_irrefl 0 hPositive
    · exact hUnescaped hBefore
  noBackslash := by rwa [Ne, Text.getLast?_bytes_eq_some_iff (c := '\\') (by decide) (by decide)]
  noDollar := by rwa [Ne, Text.getLast?_bytes_eq_some_iff (c := '$') (by decide) (by decide)]

/-- Reading is compatible with putting texts together. If the first text does not end in a
backslash or a dollar sign, and of its openers those that no placeholder holds have a backslash
in front of them, then both texts are read as they are on their own: the placeholders of the
second stand behind those of the first, further back by the size of the first text, and the
literals beside the cut become one. -/
theorem ofText?_append {front : String} {t : Template} (hText : ofText? front = some t)
    (hBackslash : front.toList.getLast? ≠ some '\\') (hDollar : front.toList.getLast? ≠ some '$')
    (hEscaped : ∀ i, opener <+: (Text.bytes front).drop i →
      (∀ p ∈ t.placeholders, ¬(p.start ≤ i ∧ i < p.stop)) →
        0 < i ∧ (Text.bytes front)[i - 1]? = some backslash) (back : String) :
    ∃ u w firsts last first others, ofText? back = some u ∧ ofText? (front ++ back) = some w ∧
      t.literals = firsts ++ [last] ∧ u.literals = first :: others ∧
      w.literals = firsts ++ (last ++ first) :: others ∧
      w.placeholders = t.placeholders ++ u.placeholders.map (·.moved front.utf8ByteSize) ∧
      ∀ p : Placeholder String,
        (p.moved front.utf8ByteSize).text = p.text ∧
        (p.moved front.utf8ByteSize).start = p.start + front.utf8ByteSize ∧
        (p.moved front.utf8ByteSize).stop = p.stop + front.utf8ByteSize ∧
        (p.moved front.utf8ByteSize).bodyStart = p.bodyStart + front.utf8ByteSize ∧
        (p.moved front.utf8ByteSize).bodyStop = p.bodyStop + front.utf8ByteSize := by
  have hSealed := sealed_of_ofText? hText hBackslash hDollar hEscaped
  obtain ⟨_, u, hBack, _⟩ := exists_ofText? back
  have hWhole : ofText? (front ++ back) = some (t.append (u.moved front.utf8ByteSize)) := by
    rw [ofText?, Pieces.decode?_eq_some_iff] at hText hBack ⊢
    rw [Pieces.inBytes_append, Pieces.inBytes_moved, hText, hBack, Text.bytes_append,
      tokens_append hSealed, Pieces.ofTokens_append, flatMap_source_tokens, Pieces.ofTokens_moved,
      Text.length_bytes]
  obtain ⟨firsts, last, hLiterals, hAppend⟩ :=
    t.literals_append (u.literals_moved front.utf8ByteSize)
  refine ⟨u, _, firsts, last, u.head, u.tail.map Prod.snd, hBack, hWhole, hLiterals, rfl, hAppend,
    ?_, ?_⟩
  · rw [Pieces.placeholders_append, Pieces.placeholders_moved]
  · intro p
    exact ⟨rfl, rfl, p.stop_moved _, p.bodyStart_moved _, p.bodyStop_moved _⟩

/-- The first line of a letter, with an opener in it that stands for itself. -/
def salutation : String := "Dear $\x7ba\x7d, \\$\x7bé"

theorem ofText?_salutation : ofText? salutation = some ⟨"Dear ", [(⟨5, "a"⟩, ", $\x7bé")]⟩ := by
  decide +kernel

/-- Every opener of the example outside its placeholder is escaped. -/
theorem escaped_salutation (i : Nat) (hOpener : opener <+: (Text.bytes salutation).drop i)
    (hOutside : ∀ p ∈ [(⟨5, "a"⟩ : Placeholder String)], ¬(p.start ≤ i ∧ i < p.stop)) :
    0 < i ∧ (Text.bytes salutation)[i - 1]? = some backslash := by
  have hInside : i < 16 := by
    refine Nat.lt_of_not_le fun hBeyond => ?_
    have hSize : (Text.bytes salutation).length = 16 := by decide +kernel
    rw [List.drop_of_length_le (hSize ▸ hBeyond)] at hOpener
    exact absurd hOpener (by decide)
  revert hOpener hOutside
  revert i
  decide +kernel

/-- The brace in the second text does not close the opener in the first, and the placeholder
of the second is found sixteen bytes further back. -/
theorem ofText?_append_salutation :
    ∃ w, ofText? (salutation ++ "\x7d and $\x7bb\x7d") = some w ∧
      w.literals = ["Dear ", ", $\x7bé\x7d and ", ""] ∧
      w.placeholders = [⟨5, "a"⟩, ⟨22, "b"⟩] := by
  obtain ⟨u, w, firsts, last, first, others, hBack, hWhole, hLiterals, hOthers, hJoined,
      hPlaceholders, _⟩ :=
    ofText?_append ofText?_salutation (by decide) (by decide) escaped_salutation "\x7d and $\x7bb\x7d"
  have hRead : ofText? "\x7d and $\x7bb\x7d" = some ⟨"\x7d and ", [(⟨6, "b"⟩, "")]⟩ := by
    decide +kernel
  cases hRead.symm.trans hBack
  have hFirsts : ["Dear "] ++ [", $\x7bé"] = firsts ++ [last] := hLiterals
  obtain ⟨rfl, hLast⟩ := List.append_inj' hFirsts rfl
  cases hLast
  cases hOthers
  refine ⟨w, hWhole, hJoined, ?_⟩
  rw [hPlaceholders]
  decide +kernel

end Template
end TemplateCompiler
