import TemplateCompiler.Template.Token

/-! What the tokens of a text depend on. The search for a closing brace reads nothing
behind the brace it finds, so a placeholder is the same token wherever it stands. -/
namespace TemplateCompiler.Template

private theorem map_succ_eq_some_iff {x y : Option Nat} {n length : Nat}
    (hRest : ∀ m < length, x = some m ↔ y = some m) (hInside : n < length + 1) :
    x.map (· + 1) = some n ↔ y.map (· + 1) = some n := by
  cases n with
  | zero => simp [Option.map_eq_some_iff]
  | succ m => simpa [Option.map_eq_some_iff] using hRest m (by omega)

/-- A brace that is opened has to be closed first. -/
theorem closing_openBrace (depth : Nat) (rest : List UInt8) :
    closing depth .bare (openBrace :: rest) = (closing (depth + 1) .bare rest).map (· + 1) := by
  simp [closing]

/-- A byte that is no brace does not change the depth. -/
theorem closing_other {b : UInt8} (hOpen : b ≠ openBrace) (hClose : b ≠ closeBrace)
    (depth : Nat) (rest : List UInt8) :
    closing depth .bare (b :: rest) = (closing depth (.afterBare b) rest).map (· + 1) := by
  simp [closing, hOpen, hClose]

/-- Only the bytes up to the closing brace decide where it is. -/
theorem closing_append_of_lt {depth n : Nat} {mode : Mode} {bs : List UInt8} (more : List UInt8)
    (hInside : n < bs.length) :
    closing depth mode (bs ++ more) = some n ↔ closing depth mode bs = some n := by
  fun_induction closing depth mode bs generalizing n with
  | case1 => simp at hInside
  | case2 depth quote b rest ih =>
      rw [List.cons_append, closing]
      exact map_succ_eq_some_iff (fun m hm => ih hm) hInside
  | case3 depth quote b rest ih =>
      rw [List.cons_append, closing]
      exact map_succ_eq_some_iff (fun m hm => ih hm) hInside
  | case4 depth rest ih =>
      rw [List.cons_append, closing_openBrace]
      exact map_succ_eq_some_iff (fun m hm => ih hm) hInside
  | case5 rest hBrace => rw [List.cons_append, closing, if_neg hBrace, if_pos rfl]
  | case6 rest inner hBrace ih =>
      rw [List.cons_append, closing, if_neg hBrace, if_pos rfl]
      exact map_succ_eq_some_iff (fun m hm => ih hm) hInside
  | case7 depth b rest hOpen hClose ih =>
      rw [List.cons_append, closing_other hOpen hClose]
      exact map_succ_eq_some_iff (fun m hm => ih hm) hInside

/-- The bytes that can stand between the delimiters of a placeholder: the brace put
after them is the one that closes. -/
def IsBody (body : List UInt8) : Prop :=
  closing 0 .bare (body ++ [closeBrace]) = some body.length

/-- The brace after a body closes it. -/
theorem closing_of_isBody {body : List UInt8} (hBody : IsBody body) (rest : List UInt8) :
    closing 0 .bare (body ++ closeBrace :: rest) = some body.length := by
  have hAppend := (closing_append_of_lt rest (by simp)).mpr hBody
  rwa [List.append_assoc] at hAppend

/-- What stands before the closing brace is a body. -/
theorem isBody_of_closing {body : List UInt8} (rest : List UInt8)
    (hFound : closing 0 .bare (body ++ closeBrace :: rest) = some body.length) : IsBody body := by
  refine (closing_append_of_lt rest (by simp)).mp ?_
  rwa [List.append_assoc]

theorem length_take_of_closing {depth : Nat} {mode : Mode} {bs : List UInt8} {n : Nat}
    (hFound : closing depth mode bs = some n) : (bs.take n).length = n :=
  List.length_take_of_le (Nat.le_of_lt (closing_lt hFound))

/-- What the search finds is a closing brace. -/
theorem getElem?_of_closing {depth : Nat} {mode : Mode} {bs : List UInt8} {n : Nat}
    (hFound : closing depth mode bs = some n) : bs[n]? = some closeBrace := by
  have hLength := length_take_of_closing hFound
  rw [← take_append_closeBrace_of_closing hFound, List.getElem?_append_right (Nat.le_of_eq hLength),
    hLength, Nat.sub_self, List.getElem?_cons_zero]

/-- The bytes in front of the brace that was found are a body. -/
theorem isBody_take_of_closing {bs : List UInt8} {n : Nat} (hFound : closing 0 .bare bs = some n) :
    IsBody (bs.take n) := by
  have hCut := take_append_closeBrace_of_closing hFound
  refine isBody_of_closing (bs.drop (n + 1)) ?_
  rw [hCut, hFound, length_take_of_closing hFound]

namespace Token

/-- A backslash and an opener are an escape. -/
theorem lead_escape (rest : List UInt8) : lead backslash (opener ++ rest) = .escape := by
  rw [lead, if_pos ⟨rfl, List.prefix_append _ _⟩]

/-- An opener, a body and a closing brace are a placeholder. -/
theorem lead_placeholder {body : List UInt8} (hBody : IsBody body) (rest : List UInt8) :
    lead dollar (openBrace :: (body ++ closeBrace :: rest)) = .placeholder body := by
  have hNotEscape :
      ¬(dollar = backslash ∧ opener <+: openBrace :: (body ++ closeBrace :: rest)) := by
    intro h
    exact absurd h.1 (by decide)
  rw [lead, if_neg hNotEscape, if_pos ⟨rfl, _, rfl⟩, List.tail_cons, closing_of_isBody hBody]
  simp

/-- A byte is plain if it neither begins an escaped opener nor an opener. -/
theorem lead_plain {b : UInt8} {rest : List UInt8} (hEscape : b = backslash → ¬opener <+: rest)
    (hOpener : b = dollar → ¬[openBrace] <+: rest) : lead b rest = .plain b := by
  rw [lead, if_neg fun h => hEscape h.1 h.2, if_neg fun h => hOpener h.1 h.2]

/-- An opener that nothing closes is only a dollar sign, to begin with. -/
theorem lead_unclosed {rest : List UInt8} (hOpen : closing 0 .bare rest = none) :
    lead dollar (openBrace :: rest) = .plain dollar := by
  have hNotEscape : ¬(dollar = backslash ∧ opener <+: openBrace :: rest) := by
    intro h
    exact absurd h.1 (by decide)
  rw [lead, if_neg hNotEscape, if_pos ⟨rfl, _, rfl⟩, List.tail_cons, hOpen]

/-- What a plain byte is not: the beginning of an escaped opener, or of an opener that
has its closing brace. -/
theorem of_lead_plain {b c : UInt8} {rest : List UInt8} (hLead : lead b rest = .plain c) :
    c = b ∧ (b = backslash → ¬opener <+: rest) ∧
      (b = dollar → ∀ after, rest = openBrace :: after → closing 0 .bare after = none) := by
  unfold lead at hLead
  split at hLead
  · cases hLead
  · rename_i hEscape
    refine ⟨?_, fun hEq hPrefix => hEscape ⟨hEq, hPrefix⟩, ?_⟩
    · split at hLead
      · split at hLead <;> cases hLead
        rfl
      · cases hLead
        rfl
    · rintro rfl after rfl
      rw [if_pos ⟨rfl, _, rfl⟩, List.tail_cons] at hLead
      split at hLead
      · cases hLead
      · assumption

theorem of_lead_escape {b : UInt8} {rest : List UInt8} (hLead : lead b rest = .escape) :
    ∃ after, b :: rest = backslash :: opener ++ after := by
  unfold lead at hLead
  split at hLead
  · rename_i hEscape
    obtain ⟨rfl, after, rfl⟩ := hEscape
    exact ⟨after, rfl⟩
  · split at hLead
    · split at hLead <;> cases hLead
    · cases hLead

/-- Only an opener, a body and a closing brace are a placeholder. -/
theorem of_lead_placeholder {b : UInt8} {rest body : List UInt8}
    (hLead : lead b rest = .placeholder body) :
    IsBody body ∧ ∃ after, b :: rest = opener ++ body ++ closeBrace :: after := by
  unfold lead at hLead
  split at hLead
  · cases hLead
  · split at hLead
    · rename_i hOpener
      obtain ⟨rfl, after, rfl⟩ := hOpener
      rw [List.singleton_append, List.tail_cons] at hLead
      split at hLead
      · rename_i n hFound
        cases hLead
        have hCut := take_append_closeBrace_of_closing hFound
        refine ⟨isBody_take_of_closing hFound, after.drop (n + 1), ?_⟩
        simpa using hCut.symm
      · cases hLead
    · cases hLead

end Token

theorem tokens_escape (rest : List UInt8) :
    tokens (backslash :: (opener ++ rest)) = .escape :: tokens rest := by
  rw [tokens, Token.lead_escape]
  rfl

private theorem drop_placeholder (body rest : List UInt8) :
    (openBrace :: (body ++ closeBrace :: rest)).drop ((Token.placeholder body).size - 1) =
      rest := by
  have hAssoc : openBrace :: (body ++ closeBrace :: rest) =
      (openBrace :: (body ++ [closeBrace])) ++ rest := by simp
  rw [hAssoc]
  exact List.drop_left' (by simp [Token.size])

theorem tokens_placeholder {body : List UInt8} (hBody : IsBody body) (rest : List UInt8) :
    tokens (opener ++ body ++ closeBrace :: rest) = .placeholder body :: tokens rest := by
  rw [List.append_assoc, List.cons_append, List.singleton_append, tokens,
    Token.lead_placeholder hBody, drop_placeholder]

theorem tokens_plain {b : UInt8} {rest : List UInt8} (hLead : Token.lead b rest = .plain b) :
    tokens (b :: rest) = .plain b :: tokens rest := by
  rw [tokens, hLead]
  rfl

/-- Induction over the tokens of a text together with the bytes they were cut from. -/
@[elab_as_elim]
theorem tokens_induction {motive : List UInt8 → Prop} (bs : List UInt8) (nil : motive [])
    (plain : ∀ b rest, Token.lead b rest = .plain b → motive rest → motive (b :: rest))
    (escape : ∀ rest, motive rest → motive (backslash :: (opener ++ rest)))
    (placeholder : ∀ body rest, IsBody body → motive rest →
      motive (opener ++ body ++ closeBrace :: rest)) : motive bs := by
  induction bs using tokens.induct with
  | case1 => exact nil
  | case2 b rest ih =>
      cases hLead : Token.lead b rest with
      | plain c =>
          obtain rfl := (Token.of_lead_plain hLead).1
          rw [hLead] at ih
          exact plain c rest hLead ih
      | escape =>
          obtain ⟨after, hBytes⟩ := Token.of_lead_escape hLead
          obtain ⟨rfl, rfl⟩ := List.cons.inj hBytes
          rw [hLead] at ih
          exact escape after ih
      | placeholder body =>
          obtain ⟨hBody, after, hBytes⟩ := Token.of_lead_placeholder hLead
          rw [hBytes]
          rw [List.append_assoc, List.cons_append, List.singleton_append] at hBytes
          obtain ⟨rfl, rfl⟩ := List.cons.inj hBytes
          rw [hLead, drop_placeholder] at ih
          exact placeholder body after hBody ih

end TemplateCompiler.Template
