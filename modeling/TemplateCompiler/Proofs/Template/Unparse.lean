import TemplateCompiler.Proofs.Template.Layout

/-! Writing a template. Literals are escaped and placeholders are copied, and reading the
result gives both back. This is possible exactly for the literals and placeholders that
some text is read as. -/
namespace TemplateCompiler.Template

/-- Escaped literals with occurrences between them: the first literal, and each occurrence
with the literal that follows it. -/
def unparse (literal : String) : List (String × String) → String
  | [] => escape literal
  | (occurrence, next) :: rest => escape literal ++ occurrence ++ unparse next rest

/-- A template written anew. -/
def rerender (t : Template) : String :=
  unparse t.head (t.tail.map fun (p, literal) => (p.text, literal))

/-- A text is read as these literals, with these occurrences between them. -/
def Yields (text : String) (literals occurrences : List String) : Prop :=
  ∃ t, ofText? text = some t ∧ t.literals = literals ∧
    t.placeholders.map Placeholder.text = occurrences

/-- A text that is one placeholder and nothing else. -/
def IsWrapper (text : String) : Prop :=
  ∃ t p, ofText? text = some t ∧ t.shape = .wrapper p ∧ p.text = text

/-- What a text can be read as: every occurrence is a placeholder on its own, and only
the last literal may end in a backslash. -/
structure Writable (first : String) (rest : List (String × String)) : Prop where
  wrappers : ∀ occurrence ∈ rest.map Prod.fst, IsWrapper occurrence
  noBackslash : ∀ literal ∈ (first :: rest.map Prod.snd).dropLast,
    literal.toList.getLast? ≠ some '\\'

theorem mem_placeholders_of_wrapper {t : Template} {p : Placeholder String}
    (hShape : t.shape = .wrapper p) : p ∈ t.placeholders := by
  obtain ⟨head, tail⟩ := t
  unfold shape at hShape
  split at hShape
  · cases hShape
  · rename_i found last hTail
    split at hShape
    · cases hShape
      simp only at hTail
      simp [Pieces.placeholders, hTail]
    · cases hShape
  · cases hShape

/-- The texts that are one placeholder are the bodies between an opener and a closing brace. -/
theorem isWrapper_iff {text : String} :
    IsWrapper text ↔ ∃ p : Placeholder String, p.text = text ∧ IsBody (Text.bytes p.body) := by
  constructor
  · rintro ⟨t, p, hText, hShape, hAll⟩
    obtain ⟨gaps, hSpelled⟩ := spelled_of_ofText? hText
    exact ⟨p, hAll, hSpelled.isBody p (mem_placeholders_of_wrapper hShape)⟩
  · rintro ⟨p, rfl, hBody⟩
    exact ⟨_, ⟨0, p.body⟩, ofText?_text hBody, rfl, rfl⟩

private theorem escapeBytes_of_pair (rest : List UInt8) :
    escapeBytes (dollar :: openBrace :: rest) = backslash :: (opener ++ escapeBytes rest) := by
  have hFollow : [openBrace] <+: openBrace :: rest := List.prefix_append [openBrace] rest
  have hBrace : ¬(openBrace = dollar ∧ [openBrace] <+: rest) := fun h => absurd h.1 (by decide)
  rw [escapeBytes, replaceBefore_cons_lead hFollow, replaceBefore_cons_of_not hBrace]
  rfl

private theorem escapeBytes_of_not_pair {b : UInt8} {rest : List UInt8}
    (hPair : ¬(b = dollar ∧ [openBrace] <+: rest)) :
    escapeBytes (b :: rest) = b :: escapeBytes rest :=
  replaceBefore_cons_of_not hPair

/-- The first byte of an escaped literal is its own, or else a backslash. -/
private theorem escapeBytes_cons_of_prefix {b c : UInt8} {literal rest more : List UInt8}
    (hNe : c ≠ backslash) (hPrefix : c :: more <+: escapeBytes (b :: literal) ++ rest) :
    c = b ∧ ¬(b = dollar ∧ [openBrace] <+: literal) ∧ more <+: escapeBytes literal ++ rest := by
  by_cases hPair : b = dollar ∧ [openBrace] <+: literal
  · obtain ⟨rfl, behind, rfl⟩ := hPair
    rw [List.singleton_append, escapeBytes_of_pair] at hPrefix
    exact absurd (List.cons_prefix_cons.mp hPrefix).1 hNe
  · rw [escapeBytes_of_not_pair hPair, List.cons_append, List.cons_prefix_cons] at hPrefix
    exact ⟨hPrefix.1, hPair, hPrefix.2⟩

/-- Escaping puts no brace at the front of a literal. -/
private theorem openBrace_prefix_of_escape {literal rest : List UInt8}
    (hRest : ¬[openBrace] <+: rest) (hPrefix : [openBrace] <+: escapeBytes literal ++ rest) :
    [openBrace] <+: literal := by
  cases literal with
  | nil => exact absurd hPrefix hRest
  | cons b literal =>
      obtain ⟨rfl, _, _⟩ := escapeBytes_cons_of_prefix (by decide) hPrefix
      exact List.prefix_append [openBrace] literal

/-- An escaped literal does not begin with an opener. -/
private theorem not_opener_prefix_escape {literal rest : List UInt8} (hNe : literal ≠ [])
    (hRest : ¬[openBrace] <+: rest) : ¬opener <+: escapeBytes literal ++ rest := by
  intro hPrefix
  cases literal with
  | nil => exact hNe rfl
  | cons b literal =>
      obtain ⟨rfl, hPair, hBrace⟩ := escapeBytes_cons_of_prefix (by decide) hPrefix
      exact hPair ⟨rfl, openBrace_prefix_of_escape hRest hBrace⟩

/-- An escaped literal is read as the literal, if the text ends behind it or an occurrence
follows whose opener the literal does not escape. -/
theorem ofTokens_tokens_escape (start : Nat) (literal : List UInt8) {rest : List UInt8}
    (hRest : rest = [] ∨ opener <+: rest)
    (hLast : rest ≠ [] → literal.getLast? ≠ some backslash) :
    Pieces.ofTokens start (tokens (escapeBytes literal ++ rest)) =
      (Pieces.ofTokens (start + (escapeBytes literal).length) (tokens rest)).prepend literal := by
  have hBrace : ¬[openBrace] <+: rest := by
    rcases hRest with rfl | ⟨more, rfl⟩
    · simp
    · intro hPrefix
      exact absurd (List.cons_prefix_cons.mp hPrefix).1 (by decide)
  -- an opener takes two bytes of the literal at once, so the induction is on its length
  match literal with
  | [] => rfl
  | b :: literal =>
      by_cases hPair : b = dollar ∧ [openBrace] <+: literal
      · obtain ⟨rfl, more, rfl⟩ := hPair
        have hMore : rest ≠ [] → more.getLast? ≠ some backslash := fun hNe hEq =>
          hLast hNe (by simp [List.getLast?_cons, hEq])
        rw [List.singleton_append, escapeBytes_of_pair, List.cons_append, List.append_assoc,
          tokens_escape, Pieces.ofTokens, ofTokens_tokens_escape (start + 3) more hRest hMore]
        have hLength : start + 3 + (escapeBytes more).length =
            start + (backslash :: (opener ++ escapeBytes more)).length := by
          simp only [List.length_cons, List.length_append, List.length_nil]
          omega
        rw [hLength]
        rfl
      · have hMore : rest ≠ [] → literal.getLast? ≠ some backslash := fun hNe hEq =>
          hLast hNe (by simp [List.getLast?_cons, hEq])
        have hEscape : b = backslash → ¬opener <+: escapeBytes literal ++ rest := by
          rintro rfl
          cases literal with
          | nil =>
              intro hPrefix
              have hNe : rest ≠ [] := by
                rintro rfl
                simp [escapeBytes, replaceBefore] at hPrefix
              exact hLast hNe rfl
          | cons c literal => exact not_opener_prefix_escape (List.cons_ne_nil c literal) hBrace
        have hOpener : b = dollar → ¬[openBrace] <+: escapeBytes literal ++ rest := by
          intro hEq hPrefix
          exact hPair ⟨hEq, openBrace_prefix_of_escape hBrace hPrefix⟩
        rw [escapeBytes_of_not_pair hPair, List.cons_append,
          tokens_plain (Token.lead_plain hEscape hOpener), Pieces.ofTokens,
          ofTokens_tokens_escape (start + 1) literal hRest hMore, List.length_cons, Nat.add_assoc,
          Nat.add_comm 1]
        rfl
termination_by literal.length

theorem Writable.tail {first occurrence next : String} {rest : List (String × String)}
    (hWritable : Writable first ((occurrence, next) :: rest)) : Writable next rest where
  wrappers o hMem := hWritable.wrappers o (List.mem_cons_of_mem _ hMem)
  noBackslash literal hMem := hWritable.noBackslash literal (List.mem_cons_of_mem _ hMem)

/-- What is written is read back, from any offset on. -/
theorem decode?_unparse (start : Nat) {first : String} {rest : List (String × String)}
    (hWritable : Writable first rest) :
    ∃ t, (Pieces.ofTokens start (tokens (Text.bytes (unparse first rest)))).decode? = some t ∧
      t.literals = first :: rest.map Prod.snd ∧
      t.placeholders.map Placeholder.text = rest.map Prod.fst := by
  induction rest generalizing start first with
  | nil =>
      have hTokens := ofTokens_tokens_escape start (Text.bytes first) (.inl rfl)
        fun hNe => absurd rfl hNe
      rw [List.append_nil] at hTokens
      refine ⟨⟨first, []⟩, ?_, rfl, rfl⟩
      rw [unparse, bytes_escape, hTokens, tokens]
      exact Pieces.decode?_last (List.append_nil _).symm
  | cons pair rest ih =>
      obtain ⟨occurrence, next⟩ := pair
      obtain ⟨p, rfl, hBody⟩ := isWrapper_iff.mp (hWritable.wrappers occurrence (by simp))
      have hFirst : (Text.bytes first).getLast? ≠ some backslash := by
        rw [Ne, Text.getLast?_bytes_eq_some_iff (c := '\\') (by decide) (by decide)]
        exact hWritable.noBackslash first (by simp)
      have hTokens := ofTokens_tokens_escape start (Text.bytes first)
        (.inr ⟨_, List.append_assoc opener (Text.bytes p.body)
          (closeBrace :: Text.bytes (unparse next rest)) |>.symm⟩) fun _ => hFirst
      -- the escaped literal is read back up to the occurrence, which is read as itself
      rw [tokens_placeholder hBody, Pieces.ofTokens] at hTokens
      obtain ⟨t, hDecode, hLiterals, hOccurrences⟩ :=
        ih (start + (escapeBytes (Text.bytes first)).length + ((Text.bytes p.body).length + 3))
          hWritable.tail
      let found : Placeholder String := ⟨start + (escapeBytes (Text.bytes first)).length, p.body⟩
      refine ⟨.join first found t, ?_, ?_, ?_⟩
      · have hBytes : Text.bytes (unparse first ((p.text, next) :: rest)) =
            escapeBytes (Text.bytes first) ++
              (opener ++ Text.bytes p.body ++ closeBrace :: Text.bytes (unparse next rest)) := by
          simp [unparse, bytes_text]
        rw [hBytes, hTokens]
        exact Pieces.decode?_join (List.append_nil _).symm rfl hDecode
      · rw [Pieces.literals_join, hLiterals, List.map_cons]
      · rw [Pieces.placeholders_join, List.map_cons, hOccurrences, List.map_cons]
        rfl

/-- Only the last literal of a text can end in a backslash. -/
theorem Spelled.noBackslash {start : Nat} {text : String} {gaps : List String} {t : Template}
    (h : Spelled start text gaps t) :
    ∀ literal ∈ t.literals.dropLast, literal.toList.getLast? ≠ some '\\' := by
  induction h with
  | last => simp [Pieces.literals]
  | @placeholder start gap rest p gaps after hStart hBody hGap hRest ih =>
      have hDrop : (Pieces.join (unescape gap) p after).literals.dropLast =
          unescape gap :: after.literals.dropLast := by
        rw [Pieces.literals_join, Pieces.literals, List.dropLast_cons_cons]
      rw [hDrop, List.forall_mem_cons]
      refine ⟨?_, ih⟩
      rwa [unescape, String.toList_ofList, getLast?_replaceBefore (List.cons_ne_nil _ _)]

/-- What a text is read as can be written. -/
theorem writable_of_yields {text first : String} {rest : List (String × String)}
    (hYields : Yields text (first :: rest.map Prod.snd) (rest.map Prod.fst)) :
    Writable first rest := by
  obtain ⟨t, hText, hLiterals, hOccurrences⟩ := hYields
  obtain ⟨gaps, hSpelled⟩ := spelled_of_ofText? hText
  constructor
  · rw [← hOccurrences, List.forall_mem_map]
    intro p hMem
    exact isWrapper_iff.mpr ⟨p, rfl, hSpelled.isBody p hMem⟩
  · rw [← hLiterals]
    exact hSpelled.noBackslash

/-- What is writable is read back as it was written. -/
theorem yields_unparse {first : String} {rest : List (String × String)}
    (hWritable : Writable first rest) :
    Yields (unparse first rest) (first :: rest.map Prod.snd) (rest.map Prod.fst) :=
  decode?_unparse 0 hWritable

/-- Escaping and reading are inverse, and what can be read is exactly what can be written:
occurrences that are placeholders on their own, and literals of which only the last may
end in a backslash. So a text may be written anew without changing what it is read as,
and every text is the literal of some template. -/
theorem yields_iff_writable (first : String) (rest : List (String × String)) :
    ((∃ text, Yields text (first :: rest.map Prod.snd) (rest.map Prod.fst)) ↔
      Writable first rest) ∧
    (Writable first rest →
      Yields (unparse first rest) (first :: rest.map Prod.snd) (rest.map Prod.fst)) ∧
    (∀ text, ∃ t, ofText? text = some t ∧
      Yields (rerender t) t.literals (t.placeholders.map Placeholder.text)) ∧
    ∀ s, Yields (escape s) [s] [] := by
  refine ⟨⟨?_, fun hWritable => ⟨_, yields_unparse hWritable⟩⟩, yields_unparse, ?_, ?_⟩
  · rintro ⟨text, hYields⟩
    exact writable_of_yields hYields
  · intro text
    obtain ⟨gaps, t, hText, -⟩ := exists_ofText? text
    have hOccurrences : t.placeholders.map Placeholder.text =
        (t.tail.map fun (p, literal) => (p.text, literal)).map Prod.fst := by
      simp [Pieces.placeholders]
    have hLiterals : t.literals =
        t.head :: (t.tail.map fun (p, literal) => (p.text, literal)).map Prod.snd := by
      simp [Pieces.literals]
    refine ⟨t, hText, ?_⟩
    rw [rerender, hLiterals, hOccurrences]
    exact yields_unparse (writable_of_yields ⟨t, hText, hLiterals, hOccurrences⟩)
  · intro s
    have hYields := yields_unparse (⟨by simp, by simp⟩ : Writable s [])
    rwa [unparse] at hYields

end TemplateCompiler.Template
