import TemplateCompiler.Proofs.Text.Cut
import TemplateCompiler.Template.Token

/-! Escaped openers. A backslash is put in front of an opener to keep it literal, and
dropped again when the literal is read. Both are said on characters and on bytes, and
come to the same. -/
namespace TemplateCompiler.Template

section Replacing
variable {α : Type} [DecidableEq α] (lead : α) (follow put : List α)

/-- Put a row in the place of an element wherever another row stands behind it. -/
def replaceBefore : List α → List α
  | [] => []
  | a :: rest =>
    if a = lead ∧ follow <+: rest then put ++ replaceBefore rest else a :: replaceBefore rest

variable {lead follow put}

/-- Nothing is replaced at the front unless the lead and what has to follow it stand there. -/
theorem replaceBefore_cons_of_not {a : α} {rest : List α} (hNot : ¬(a = lead ∧ follow <+: rest)) :
    replaceBefore lead follow put (a :: rest) = a :: replaceBefore lead follow put rest := by
  rw [replaceBefore, if_neg hNot]

theorem replaceBefore_cons_lead {rest : List α} (hFollow : follow <+: rest) :
    replaceBefore lead follow put (lead :: rest) = put ++ replaceBefore lead follow put rest := by
  rw [replaceBefore, if_pos ⟨rfl, hFollow⟩]

/-- A front without the lead is left as it is. -/
theorem replaceBefore_append_of_ne {front : List α} (hFront : ∀ a ∈ front, a ≠ lead)
    (rest : List α) :
    replaceBefore lead follow put (front ++ rest) =
      front ++ replaceBefore lead follow put rest := by
  induction front with
  | nil => rfl
  | cons a front ih =>
      have hNe := hFront a List.mem_cons_self
      rw [List.cons_append, replaceBefore_cons_of_not fun h => hNe h.1,
        ih fun b hb => hFront b (List.mem_cons_of_mem _ hb), List.cons_append]

/-- Nothing is replaced across a cut, if what can follow a lead in front of the cut does not
go on behind it. -/
theorem replaceBefore_append {front back : List α}
    (hSeam : ∀ middle, (lead :: middle) <:+ front → follow <+: middle ++ back →
      follow <+: middle) :
    replaceBefore lead follow put (front ++ back) =
      replaceBefore lead follow put front ++ replaceBefore lead follow put back := by
  induction front with
  | nil => rfl
  | cons a front ih =>
      have hRest := ih fun middle hSuffix => hSeam middle (hSuffix.trans (List.suffix_cons a front))
      rw [List.cons_append]
      by_cases hLead : a = lead ∧ follow <+: front ++ back
      · obtain ⟨rfl, hFollow⟩ := hLead
        have hInside := hSeam front List.suffix_rfl hFollow
        rw [replaceBefore_cons_lead hFollow, replaceBefore_cons_lead hInside, hRest,
          List.append_assoc]
      · have hInside : ¬(a = lead ∧ follow <+: front) := fun h =>
          hLead ⟨h.1, h.2.trans (List.prefix_append _ _)⟩
        rw [replaceBefore_cons_of_not hLead, replaceBefore_cons_of_not hInside, hRest,
          List.cons_append]

/-- What is replaced has something behind it, so the last element stays. -/
theorem getLast?_replaceBefore (hFollow : follow ≠ []) (row : List α) :
    (replaceBefore lead follow put row).getLast? = row.getLast? := by
  induction row with
  | nil => rfl
  | cons a rest ih =>
      by_cases hLead : a = lead ∧ follow <+: rest
      · obtain ⟨rfl, hPrefix⟩ := hLead
        obtain ⟨c, more, rfl⟩ := List.exists_cons_of_ne_nil hFollow
        obtain ⟨behind, rfl⟩ := hPrefix
        rw [replaceBefore_cons_lead (List.prefix_append _ _), List.getLast?_append, ih]
        simp [List.getLast?_cons]
      · rw [replaceBefore_cons_of_not hLead, List.getLast?_cons, List.getLast?_cons, ih]

theorem replaceBefore_eq_nil_iff (hFollow : follow ≠ []) {row : List α} :
    replaceBefore lead follow put row = [] ↔ row = [] := by
  rw [← List.getLast?_eq_none_iff, getLast?_replaceBefore hFollow, List.getLast?_eq_none_iff]

/-- To replace by nothing is to leave out. -/
theorem replaceBefore_nil_sublist (row : List α) :
    (replaceBefore lead follow [] row).Sublist row := by
  induction row with
  | nil => exact .slnil
  | cons a rest ih =>
      rw [replaceBefore]
      split
      · exact .cons a ih
      · exact .cons_cons a ih

/-- Nothing was left out of a row, if what would still stand there is not in it. -/
theorem replaceBefore_nil_eq_self {a : α} (hFollow : a ∈ follow) {row : List α}
    (hNone : a ∉ replaceBefore lead follow [] row) : replaceBefore lead follow [] row = row := by
  induction row with
  | nil => rfl
  | cons b rest ih =>
      by_cases hLead : b = lead ∧ follow <+: rest
      · obtain ⟨rfl, hPrefix⟩ := hLead
        rw [replaceBefore_cons_lead hPrefix, List.nil_append] at hNone
        rw [ih hNone] at hNone
        exact absurd (hPrefix.subset hFollow) hNone
      · rw [replaceBefore_cons_of_not hLead] at hNone ⊢
        rw [ih (List.not_mem_of_not_mem_cons hNone)]

omit [DecidableEq α] in
/-- A pair that begins in front of a cut ends there, if its second element does not stand
behind the cut. -/
theorem pair_prefix_of_append {a b : α} {front back : List α} (hNonempty : front ≠ [])
    (hSecond : ¬[b] <+: back) (hPair : [a, b] <+: front ++ back) : [a, b] <+: front := by
  match front with
  | [] => exact absurd rfl hNonempty
  | [_] => exact absurd (List.cons_prefix_cons.mp hPair).2 hSecond
  | _ :: _ :: more =>
      obtain ⟨rfl, hRest⟩ := List.cons_prefix_cons.mp hPair
      obtain ⟨rfl, _⟩ := List.cons_prefix_cons.mp hRest
      exact List.prefix_append [a, b] more

end Replacing

/-- A backslash in front of every opener. -/
def escapeBytes : List UInt8 → List UInt8 :=
  replaceBefore dollar [openBrace] [backslash, dollar]

/-- Every escaped opener without its backslash. -/
def unescapeBytes : List UInt8 → List UInt8 := replaceBefore backslash opener []

/-- A literal as it is written in a template: with a backslash in front of every opener. -/
def escape (s : String) : String :=
  String.ofList (replaceBefore '$' ['\x7b'] ['\\', '$'] s.toList)

/-- What is written between placeholders, read as a literal: every escaped opener without
its backslash, and nothing else changed. -/
def unescape (s : String) : String :=
  String.ofList (replaceBefore '\\' ['$', '\x7b'] [] s.toList)

private theorem prefix_flatMap_iff (front row : List Char) :
    front.flatMap String.utf8EncodeChar <+: row.flatMap String.utf8EncodeChar ↔ front <+: row := by
  constructor
  · rintro ⟨rest, hRow⟩
    apply List.isPrefix_of_utf8Encode_append_eq_utf8Encode rest.toByteArray
    rw [List.utf8Encode, List.utf8Encode, ← hRow]
    simp
  · rintro ⟨rest, rfl⟩
    rw [List.flatMap_append]
    exact List.prefix_append _ _

private theorem ne_of_mem_utf8EncodeChar {c d : Char} {b e : UInt8}
    (hChar : String.utf8EncodeChar d = [e]) (hAscii : e < 0x80) (hNe : c ≠ d)
    (hMem : b ∈ String.utf8EncodeChar c) : b ≠ e := by
  rintro rfl
  have hEncode := Text.utf8EncodeChar_eq_of_mem hMem hAscii
  exact hNe (Text.utf8EncodeChar_inj.mp (hEncode.trans hChar.symm))

/-- Replacing an ASCII character is replacing its byte. -/
private theorem replaceBefore_flatMap {lead : Char} {b : UInt8} (follow put : List Char)
    (hLead : String.utf8EncodeChar lead = [b]) (hAscii : b < 0x80) (row : List Char) :
    replaceBefore b (follow.flatMap String.utf8EncodeChar) (put.flatMap String.utf8EncodeChar)
        (row.flatMap String.utf8EncodeChar) =
      (replaceBefore lead follow put row).flatMap String.utf8EncodeChar := by
  induction row with
  | nil => rfl
  | cons c row ih =>
      rw [List.flatMap_cons]
      by_cases hChar : c = lead
      · subst hChar
        rw [hLead, List.singleton_append]
        by_cases hFollow : follow <+: row
        · rw [replaceBefore_cons_lead ((prefix_flatMap_iff follow row).mpr hFollow), ih,
            replaceBefore_cons_lead hFollow, List.flatMap_append]
        · rw [replaceBefore_cons_of_not fun h => hFollow ((prefix_flatMap_iff follow row).mp h.2),
            ih, replaceBefore_cons_of_not fun h => hFollow h.2, List.flatMap_cons, hLead,
            List.singleton_append]
      · have hNe : ∀ e ∈ String.utf8EncodeChar c, e ≠ b := by
          intro e hMem
          exact ne_of_mem_utf8EncodeChar hLead hAscii hChar hMem
        rw [replaceBefore_append_of_ne hNe, ih, replaceBefore_cons_of_not fun h => hChar h.1,
          List.flatMap_cons]

@[simp] theorem bytes_escape (s : String) : Text.bytes (escape s) = escapeBytes (Text.bytes s) := by
  rw [escape, Text.bytes_ofList, ← replaceBefore_flatMap _ _ (b := dollar) (by decide) (by decide),
    ← Text.bytes_eq_flatMap]
  rfl

@[simp] theorem bytes_unescape (s : String) :
    Text.bytes (unescape s) = unescapeBytes (Text.bytes s) := by
  rw [unescape, Text.bytes_ofList,
    ← replaceBefore_flatMap _ _ (b := backslash) (by decide) (by decide), ← Text.bytes_eq_flatMap]
  rfl

/-- Unescaping leaves something of every text but the empty one. -/
theorem unescape_eq_empty_iff {s : String} : unescape s = "" ↔ s = "" := by
  rw [← Text.bytes_eq_nil_iff, ← Text.bytes_eq_nil_iff, bytes_unescape, unescapeBytes,
    replaceBefore_eq_nil_iff (List.cons_ne_nil _ _)]

private theorem toList_unescape (s : String) :
    (unescape s).toList = replaceBefore '\\' ['$', '\x7b'] [] s.toList := String.toList_ofList

/-- A literal without a dollar sign was written as it is. -/
theorem unescape_eq_self {s : String} (hNone : '$' ∉ (unescape s).toList) : unescape s = s := by
  rw [toList_unescape] at hNone
  rw [unescape, replaceBefore_nil_eq_self List.mem_cons_self hNone, String.ofList_toList]

/-- Without a dollar sign there is no opener that could be escaped. -/
theorem unescape_of_not_mem {s : String} (hNone : '$' ∉ s.toList) : unescape s = s := by
  apply unescape_eq_self
  rw [toList_unescape]
  exact fun hMem => hNone ((replaceBefore_nil_sublist s.toList).subset hMem)

private theorem replaceBefore_opener (after : List Char) :
    replaceBefore '\\' ['$', '\x7b'] [] (['$', '\x7b'] ++ after) =
      ['$', '\x7b'] ++ replaceBefore '\\' ['$', '\x7b'] [] after := by
  have hOpener : ∀ c ∈ ['$', '\x7b'], c ≠ '\\' :=
    List.forall_mem_cons.mpr ⟨by decide, List.forall_mem_singleton.mpr (by decide)⟩
  exact replaceBefore_append_of_ne hOpener after

/-- An opener is read as it is, unless there is a backslash in front of it. -/
theorem unescape_append_opener {before : String} (hLast : before.toList.getLast? ≠ some '\\')
    (after : String) :
    unescape (before ++ "$\x7b" ++ after) = unescape before ++ "$\x7b" ++ unescape after := by
  have hSeam : ∀ middle, ('\\' :: middle) <:+ before.toList →
      ['$', '\x7b'] <+: middle ++ (['$', '\x7b'] ++ after.toList) → ['$', '\x7b'] <+: middle := by
    intro middle hSuffix
    refine pair_prefix_of_append ?_ (by simp)
    rintro rfl
    obtain ⟨front, hFront⟩ := hSuffix
    exact hLast (by rw [← hFront, List.getLast?_concat])
  have hList : "$\x7b".toList = ['$', '\x7b'] := rfl
  rw [← String.toList_inj]
  simp only [toList_unescape, String.toList_append, List.append_assoc, hList]
  rw [replaceBefore_append hSeam, replaceBefore_opener]

/-- Of an opener with a backslash in front of it, the backslash is left out. -/
theorem unescape_append_escape (before after : String) :
    unescape (before ++ "\\$\x7b" ++ after) = unescape before ++ "$\x7b" ++ unescape after := by
  have hSeam : ∀ middle, ('\\' :: middle) <:+ before.toList →
      ['$', '\x7b'] <+: middle ++ (['\\'] ++ (['$', '\x7b'] ++ after.toList)) →
      ['$', '\x7b'] <+: middle := by
    intro middle _ hOpener
    refine pair_prefix_of_append ?_ (by simp) hOpener
    rintro rfl
    simp at hOpener
  have hList : "$\x7b".toList = ['$', '\x7b'] := rfl
  have hEscaped : "\\$\x7b".toList = ['\\'] ++ ['$', '\x7b'] := rfl
  rw [← String.toList_inj]
  simp only [toList_unescape, String.toList_append, List.append_assoc, hList, hEscaped]
  rw [replaceBefore_append hSeam, List.singleton_append,
    replaceBefore_cons_lead (List.prefix_append _ _), List.nil_append, replaceBefore_opener]

end TemplateCompiler.Template
