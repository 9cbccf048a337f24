import TemplateCompiler.Template.Token

/-! Templates: literal pieces with placeholders between them. There is always one
literal more than there are placeholders, since the first literal is kept apart and
each placeholder is stored with the literal that follows it. -/
namespace TemplateCompiler

/-- A placeholder, and the offset at which it was found. The delimiters are not stored. -/
structure Placeholder (α : Type) where
  start : Nat
  body : α
  deriving DecidableEq, Repr

/-- Literals of one kind with placeholders of the same kind between them. -/
structure Pieces (α : Type) where
  head : α
  tail : List (Placeholder α × α)
  deriving DecidableEq, Repr

abbrev Template := Pieces String

namespace Placeholder

/-- The whole placeholder, delimiters included. -/
def text (p : Placeholder String) : String := "$\x7b" ++ p.body ++ "\x7d"

/-- The offset just after the closing brace. -/
def stop (p : Placeholder String) : Nat := p.start + p.body.utf8ByteSize + 3

/-- The offsets between which the body stands. -/
def bodyStart (p : Placeholder String) : Nat := p.start + 2

def bodyStop (p : Placeholder String) : Nat := p.bodyStart + p.body.utf8ByteSize

@[simp] theorem utf8ByteSize_text (p : Placeholder String) :
    p.text.utf8ByteSize = p.body.utf8ByteSize + 3 := by
  have hOpen : "$\x7b".utf8ByteSize = 2 := by decide
  have hClose : "\x7d".utf8ByteSize = 1 := by decide
  simp only [text, String.utf8ByteSize_append, hOpen, hClose]
  omega

end Placeholder

namespace Pieces
variable {α : Type}

/-- The literals in order. -/
def literals (p : Pieces α) : List α := p.head :: p.tail.map Prod.snd

/-- The placeholders in order. -/
def placeholders (p : Pieces α) : List (Placeholder α) := p.tail.map Prod.fst

@[simp] theorem length_literals (p : Pieces α) :
    p.literals.length = p.placeholders.length + 1 := by
  simp [literals, placeholders]

/-- Put bytes in front of the first literal. -/
def prepend (bs : List UInt8) (p : Pieces (List UInt8)) : Pieces (List UInt8) :=
  { p with head := bs ++ p.head }

/-- Collect tokens that start at an offset. An escaped opener contributes the
opener without its backslash, so a literal can be shorter than its source. -/
def ofTokens : Nat → List Template.Token → Pieces (List UInt8)
  | _, [] => ⟨[], []⟩
  | offset, .plain b :: rest => (ofTokens (offset + 1) rest).prepend [b]
  | offset, .escape :: rest => (ofTokens (offset + 3) rest).prepend Template.opener
  | offset, .placeholder body :: rest =>
    let after := ofTokens (offset + (body.length + 3)) rest
    ⟨[], (⟨offset, body⟩, after.head) :: after.tail⟩

/-- Read every piece as text. There is no result if one of the cuts fell inside a
character. -/
def decode? (p : Pieces (List UInt8)) : Option Template := do
  let head ← Text.ofBytes? p.head
  let tail ← p.tail.mapM fun (found, literal) => do
    let body ← Text.ofBytes? found.body
    let literal ← Text.ofBytes? literal
    return (⟨found.start, body⟩, literal)
  return ⟨head, tail⟩

/-- How much room placeholders and the literals after them take when they are written
out, delimiters included. -/
def tailWeight (size : α → Nat) : List (Placeholder α × α) → Nat
  | [] => 0
  | (found, literal) :: rest => size found.body + 3 + size literal + tailWeight size rest

/-- How much room the pieces take when they are written out. -/
def weight (size : α → Nat) (p : Pieces α) : Nat := size p.head + tailWeight size p.tail

/-- One placeholder and the literal after it take no more room than all of them. -/
theorem size_le_tailWeight (size : α → Nat) {tail : List (Placeholder α × α)}
    {part : Placeholder α × α} (hMem : part ∈ tail) :
    size part.1.body + 3 + size part.2 ≤ tailWeight size tail := by
  induction tail with
  | nil => cases hMem
  | cons first rest ih =>
    simp only [tailWeight]
    rcases List.mem_cons.mp hMem with rfl | hMem
    · exact Nat.le_add_right _ _
    · exact Nat.le_add_left_of_le (ih hMem)

/-- The pieces are no longer than the text that they come from. -/
theorem weight_ofTokens_le (offset : Nat) (ts : List Template.Token) :
    (ofTokens offset ts).weight List.length ≤ (ts.flatMap Template.Token.source).length := by
  induction ts generalizing offset with
  | nil => simp [ofTokens, weight, tailWeight]
  | cons t rest ih =>
    cases t with
    | plain b =>
      have := ih (offset + 1)
      simp only [weight, ofTokens, prepend, Template.Token.source, List.flatMap_cons,
        List.length_append, List.length_cons, List.length_nil] at this ⊢
      omega
    | escape =>
      have := ih (offset + 3)
      simp only [weight, ofTokens, prepend, Template.Token.source, List.flatMap_cons,
        List.length_append, List.length_cons, List.length_nil] at this ⊢
      omega
    | placeholder body =>
      have := ih (offset + (body.length + 3))
      simp only [weight, tailWeight, ofTokens, Template.Token.source, List.flatMap_cons,
        List.length_append, List.length_cons, List.length_nil] at this ⊢
      omega

theorem utf8ByteSize_of_ofBytes? {bs : List UInt8} {s : String} (h : Text.ofBytes? bs = some s) :
    s.utf8ByteSize = bs.length := by
  rw [← Text.length_bytes, Text.bytes_of_ofBytes? h]

/-- Reading pieces as text does not change how much room they take. -/
theorem weight_of_decode? {p : Pieces (List UInt8)} {t : Template} (h : p.decode? = some t) :
    t.weight String.utf8ByteSize = p.weight List.length := by
  obtain ⟨head, tail⟩ := p
  simp only [decode?, Option.pure_def, Option.bind_eq_bind, Option.bind_eq_some_iff] at h
  obtain ⟨first, hFirst, others, hOthers, hEq⟩ := h
  cases hEq
  simp only [weight, utf8ByteSize_of_ofBytes? hFirst, Nat.add_left_cancel_iff]
  clear hFirst
  induction tail generalizing others with
  | nil => simp_all [tailWeight]
  | cons part rest ih =>
    simp only [List.mapM_cons, Option.pure_def, Option.bind_eq_bind, Option.bind_eq_some_iff,
      Option.some.injEq] at hOthers
    obtain ⟨_, ⟨body, hBody, literal, hLiteral, rfl⟩, later, hLater, rfl⟩ := hOthers
    simp only [tailWeight, utf8ByteSize_of_ofBytes? hBody, utf8ByteSize_of_ofBytes? hLiteral,
      ih later hLater]

end Pieces

namespace Template

/-- How a template is to be compiled. -/
inductive Shape where
  /-- No placeholder: one literal, possibly empty. -/
  | literal (text : String)
  /-- One placeholder and nothing around it. -/
  | wrapper (placeholder : Placeholder String)
  /-- Everything else. -/
  | mixed
  deriving DecidableEq, Repr

def shape (t : Template) : Shape :=
  match t.tail with
  | [] => .literal t.head
  | [(placeholder, last)] =>
    if t.head = "" ∧ last = "" then .wrapper placeholder else .mixed
  | _ => .mixed

/-- Find the placeholders of a text. No text is malformed: what opens no placeholder
is literal. There is no result only if a cut fell inside a character. -/
def ofText? (text : String) : Option Template :=
  (Pieces.ofTokens 0 (tokens (Text.bytes text))).decode?

/-- A template is no longer than the text that it is read from. -/
theorem weight_le_of_ofText? {text : String} {t : Template} (h : ofText? text = some t) :
    t.weight String.utf8ByteSize ≤ text.utf8ByteSize := by
  have hLe := Pieces.weight_ofTokens_le 0 (tokens (Text.bytes text))
  rwa [flatMap_source_tokens, Text.length_bytes, ← Pieces.weight_of_decode? h] at hLe

/-- In a mixed template every placeholder is shorter than the template, so compiling
the placeholders on their own comes to an end. -/
theorem utf8ByteSize_text_lt_of_mixed {text : String} {t : Template} {p : Placeholder String}
    (hText : ofText? text = some t) (hShape : t.shape = .mixed) (hMem : p ∈ t.placeholders) :
    p.text.utf8ByteSize < text.utf8ByteSize := by
  refine Nat.lt_of_lt_of_le ?_ (weight_le_of_ofText? hText)
  rw [Placeholder.utf8ByteSize_text]
  obtain ⟨head, tail⟩ := t
  simp only [shape] at hShape
  simp only [Pieces.placeholders, List.mem_map] at hMem
  obtain ⟨⟨found, literal⟩, hMem, rfl⟩ := hMem
  simp only [Pieces.weight]
  match tail, hMem, hShape with
  | [(only, last)], hMem, hShape =>
    obtain ⟨rfl, rfl⟩ := Prod.mk.inj (List.mem_singleton.mp hMem)
    have hSize : head.utf8ByteSize + literal.utf8ByteSize ≠ 0 := by
      intro hZero
      simp only [Nat.add_eq_zero_iff, String.utf8ByteSize_eq_zero_iff] at hZero
      simp [hZero] at hShape
    simp only [Pieces.tailWeight]
    omega
  | one :: two :: rest, hMem, _ =>
    simp only [Pieces.tailWeight]
    rcases List.mem_cons.mp hMem with rfl | hMem
    · simp only
      omega
    · have := Pieces.size_le_tailWeight String.utf8ByteSize hMem
      simp only [Pieces.tailWeight] at this
      omega

end Template
end TemplateCompiler
