import TemplateCompiler.Text.Bytes

/-! The bytes of a template, cut into tokens. A token is one plain byte, an escaped
opener, or a whole placeholder. No byte is lost: the tokens of a text, written one
after another, are the text.

Only ASCII bytes decide anything here, and in UTF-8 no byte of a longer character is
ASCII. The search for a closing brace can still step into the middle of a character,
when a backslash inside quotes stands before one. -/
namespace TemplateCompiler.Template

abbrev backslash : UInt8 := 0x5C
abbrev dollar : UInt8 := 0x24
abbrev singleQuote : UInt8 := 0x27
abbrev doubleQuote : UInt8 := 0x22
abbrev openBrace : UInt8 := 0x7B
abbrev closeBrace : UInt8 := 0x7D

/-- The two bytes that open a placeholder. -/
abbrev opener : List UInt8 := [dollar, openBrace]

/-- Where the search for a closing brace stands: outside quotes, inside quotes, or
inside quotes just after a backslash, where one byte of any kind is passed over. -/
inductive Mode where
  | bare
  | quoted (quote : UInt8)
  | escaped (quote : UInt8)
  deriving DecidableEq, Repr

/-- The mode after a byte that is neither brace, when outside quotes. -/
def Mode.afterBare (b : UInt8) : Mode :=
  if b = singleQuote ∨ b = doubleQuote then .quoted b else .bare

/-- The mode after a byte, when inside quotes. -/
def Mode.afterQuoted (quote b : UInt8) : Mode :=
  if b = backslash then .escaped quote else if b = quote then .bare else .quoted quote

/-- How many bytes stand before the brace that closes a body, with `depth` inner
braces still open. Braces nest, and those inside quotes do not count. -/
def closing : Nat → Mode → List UInt8 → Option Nat
  | _, _, [] => none
  | depth, .escaped quote, _ :: rest => (closing depth (.quoted quote) rest).map (· + 1)
  | depth, .quoted quote, b :: rest => (closing depth (.afterQuoted quote b) rest).map (· + 1)
  | depth, .bare, b :: rest =>
    if b = openBrace then (closing (depth + 1) .bare rest).map (· + 1)
    else if b = closeBrace then
      match depth with
      | 0 => some 0
      | inner + 1 => (closing inner .bare rest).map (· + 1)
    else (closing depth (.afterBare b) rest).map (· + 1)

/-- The closing brace is inside the bytes that were searched. -/
theorem closing_lt {depth : Nat} {mode : Mode} {bs : List UInt8} {n : Nat}
    (h : closing depth mode bs = some n) : n < bs.length := by
  fun_induction closing depth mode bs generalizing n
  case case1 => cases h
  case case5 => cases h; simp
  all_goals
    rename_i ih
    obtain ⟨k, hk, rfl⟩ := Option.map_eq_some_iff.mp h
    simpa using ih hk

/-- What a template consists of, byte by byte. -/
inductive Token where
  | plain (byte : UInt8)
  | escape
  | placeholder (body : List UInt8)
  deriving DecidableEq, Repr

namespace Token

/-- The bytes a token was cut from. -/
def source : Token → List UInt8
  | plain b => [b]
  | escape => backslash :: opener
  | placeholder body => opener ++ body ++ [closeBrace]

/-- How many bytes a token was cut from. -/
def size : Token → Nat
  | plain _ => 1
  | escape => 3
  | placeholder body => body.length + 3

/-- The token at the front. An opener that is never closed is plain text, and so
is what follows it: only its first byte is taken here. -/
def lead (b : UInt8) (rest : List UInt8) : Token :=
  if b = backslash ∧ opener <+: rest then .escape
  else if b = dollar ∧ [openBrace] <+: rest then
    match closing 0 .bare rest.tail with
    | some n => .placeholder (rest.tail.take n)
    | none => .plain b
  else .plain b

end Token

/-- All tokens of a text, in order. -/
def tokens : List UInt8 → List Token
  | [] => []
  | b :: rest => Token.lead b rest :: tokens (rest.drop ((Token.lead b rest).size - 1))
termination_by bs => bs.length
decreasing_by
  simp only [List.length_drop, List.length_cons]
  omega

/-- The bytes after an opening brace, cut at the closing brace that the search
found. The brace itself stands between the two parts. -/
theorem take_append_closeBrace_of_closing {depth : Nat} {mode : Mode} {bs : List UInt8} {n : Nat}
    (h : closing depth mode bs = some n) : bs.take n ++ closeBrace :: bs.drop (n + 1) = bs := by
  fun_induction closing depth mode bs generalizing n
  case case1 => cases h
  case case5 => cases h; simp
  all_goals
    rename_i ih
    obtain ⟨k, hk, rfl⟩ := Option.map_eq_some_iff.mp h
    simpa using ih hk

/-- The front token and what is left make up the text. -/
theorem Token.source_lead_append (b : UInt8) (rest : List UInt8) :
    (lead b rest).source ++ rest.drop ((lead b rest).size - 1) = b :: rest := by
  unfold lead
  split
  · rename_i h
    obtain ⟨rfl, tail, rfl⟩ := h
    simp [source, size]
  · split
    · rename_i h
      obtain ⟨rfl, tail, rfl⟩ := h
      split
      · rename_i n hn
        have hLength := closing_lt hn
        have hCut := take_append_closeBrace_of_closing hn
        simp only [List.cons_append, List.nil_append, List.tail_cons] at hn hLength hCut ⊢
        have hMin : min n tail.length = n := by omega
        simp only [source, size, List.length_take, hMin]
        rw [show n + 3 - 1 = (n + 1) + 1 by omega]
        simpa using hCut
      · simp [source, size]
    · simp [source, size]

/-- No byte is lost or moved. -/
theorem flatMap_source_tokens (bs : List UInt8) : (tokens bs).flatMap Token.source = bs := by
  induction bs using tokens.induct with
  | case1 => simp [tokens]
  | case2 b rest ih =>
    rw [tokens, List.flatMap_cons, ih]
    exact Token.source_lead_append b rest

end TemplateCompiler.Template
