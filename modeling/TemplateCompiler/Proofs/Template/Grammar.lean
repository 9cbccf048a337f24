import TemplateCompiler.Proofs.Template.Tokens

/-! The grammar of bodies. Braces stand in pairs, and what is quoted is passed over: inside
quotes a brace, the other quotation mark, or anything behind a backslash means nothing. The
grammar knows neither a depth nor a mode. The search for a closing brace gets over every body,
so that a brace put after a body closes it. -/
namespace TemplateCompiler.Template

/-- A quotation mark of either kind. -/
abbrev IsQuote (b : UInt8) : Prop := b = singleQuote ∨ b = doubleQuote

/-- One item inside quotes: a byte that is neither the quotation mark nor a backslash, or a
backslash with the byte behind it, whatever that is. -/
inductive QuotedItem (quote : UInt8) : List UInt8 → Prop where
  | byte {b : UInt8} (hQuote : b ≠ quote) (hBackslash : b ≠ backslash) : QuotedItem quote [b]
  | escape (b : UInt8) : QuotedItem quote [backslash, b]

/-- Items between two quotation marks of one kind. -/
inductive QuotedString : List UInt8 → Prop where
  | intro {quote : UInt8} {items : List (List UInt8)} (hQuote : IsQuote quote)
      (hItems : ∀ item ∈ items, QuotedItem quote item) :
      QuotedString (quote :: (items.flatten ++ [quote]))

/-- The bodies that can stand in a placeholder. -/
inductive Body : List UInt8 → Prop where
  | nil : Body []
  | byte {body : List UInt8} {b : UInt8} (prior : Body body) (hQuote : ¬IsQuote b)
      (hOpen : b ≠ openBrace) (hClose : b ≠ closeBrace) : Body (body ++ [b])
  | quoted {body string : List UInt8} (prior : Body body) (hString : QuotedString string) :
      Body (body ++ string)
  | braces {body inner : List UInt8} (prior : Body body) (hInner : Body inner) :
      Body (body ++ openBrace :: (inner ++ [closeBrace]))

/-- The brace at an offset closes the body that starts at another. -/
structure ClosesBody (bs : List UInt8) (start close : Nat) : Prop where
  ordered : start ≤ close
  brace : bs[close]? = some closeBrace
  body : Body ((bs.take close).drop start)

theorem IsQuote.ne_backslash {b : UInt8} (h : IsQuote b) : b ≠ backslash := by
  rcases h with rfl | rfl <;> decide

theorem IsQuote.ne_openBrace {b : UInt8} (h : IsQuote b) : b ≠ openBrace := by
  rcases h with rfl | rfl <;> decide

theorem IsQuote.ne_closeBrace {b : UInt8} (h : IsQuote b) : b ≠ closeBrace := by
  rcases h with rfl | rfl <;> decide

/-- The search gets over a part, whatever follows. It finds no closing brace there, and it goes
on behind the part with another depth and in another mode. -/
def GetsOver (depth : Nat) (mode : Mode) (part : List UInt8) (after : Nat) (next : Mode) : Prop :=
  ∀ rest, closing depth mode (part ++ rest) = (closing after next rest).map (· + part.length)

namespace GetsOver
variable {depth between after : Nat} {mode middle next : Mode} {part more : List UInt8}
  {quote b : UInt8}

theorem nil (depth : Nat) (mode : Mode) : GetsOver depth mode [] depth mode := by
  intro rest
  exact Option.map_id'.symm

theorem append (hFirst : GetsOver depth mode part between middle)
    (hSecond : GetsOver between middle more after next) :
    GetsOver depth mode (part ++ more) after next := by
  intro rest
  have hLength : (fun n => n + part.length) ∘ (fun n => n + more.length) =
      fun n => n + (part ++ more).length := by
    funext n
    rw [Function.comp_apply, List.length_append]
    omega
  rw [List.append_assoc, hFirst, hSecond, Option.map_map, hLength]

/-- A byte that means nothing is got over, whatever the depth. -/
theorem plain (depth : Nat) (hQuote : ¬IsQuote b) (hOpen : b ≠ openBrace)
    (hClose : b ≠ closeBrace) : GetsOver depth .bare [b] depth .bare := by
  intro rest
  have hMode : Mode.afterBare b = .bare := if_neg hQuote
  rw [List.singleton_append, closing_other hOpen hClose, hMode]
  rfl

theorem quoteStart (depth : Nat) (hQuote : IsQuote b) :
    GetsOver depth .bare [b] depth (.quoted b) := by
  intro rest
  have hMode : Mode.afterBare b = .quoted b := if_pos hQuote
  rw [List.singleton_append, closing_other hQuote.ne_openBrace hQuote.ne_closeBrace, hMode]
  rfl

/-- An opened brace makes the depth greater. -/
theorem braceOpened (depth : Nat) : GetsOver depth .bare [openBrace] (depth + 1) .bare :=
  closing_openBrace depth

/-- A closed brace makes the depth smaller again, unless it is the one that is looked for. -/
theorem braceClosed (depth : Nat) : GetsOver (depth + 1) .bare [closeBrace] depth .bare := by
  intro rest
  rw [List.singleton_append, closing, if_neg (by decide), if_pos rfl]
  rfl

/-- In quotes a brace is a byte like any other. -/
theorem quotedByte (depth : Nat) (hQuote : b ≠ quote) (hBackslash : b ≠ backslash) :
    GetsOver depth (.quoted quote) [b] depth (.quoted quote) := by
  intro rest
  have hMode : Mode.afterQuoted quote b = .quoted quote := by
    rw [Mode.afterQuoted, if_neg hBackslash, if_neg hQuote]
  rw [List.singleton_append, closing, hMode]
  rfl

/-- In quotes a backslash takes the next byte with it. -/
theorem quotedEscape (depth : Nat) (quote b : UInt8) :
    GetsOver depth (.quoted quote) [backslash, b] depth (.quoted quote) := by
  have hBackslash : GetsOver depth (.quoted quote) [backslash] depth (.escaped quote) := by
    intro rest
    rw [List.singleton_append, closing, Mode.afterQuoted, if_pos rfl]
    rfl
  have hAny : GetsOver depth (.escaped quote) [b] depth (.quoted quote) := by
    intro rest
    rw [List.singleton_append, closing]
    rfl
  exact hBackslash.append hAny

theorem quoteEnd (depth : Nat) (hBackslash : quote ≠ backslash) :
    GetsOver depth (.quoted quote) [quote] depth .bare := by
  intro rest
  have hMode : Mode.afterQuoted quote quote = .bare := by
    rw [Mode.afterQuoted, if_neg hBackslash, if_pos rfl]
  rw [List.singleton_append, closing, hMode]
  rfl

/-- The inside of a quoted text is got over item by item. -/
theorem quotedItems (depth : Nat) {items : List (List UInt8)}
    (hItems : ∀ item ∈ items, QuotedItem quote item) :
    GetsOver depth (.quoted quote) items.flatten depth (.quoted quote) := by
  induction items with
  | nil => exact nil depth _
  | cons item items ih =>
      rw [List.flatten_cons]
      obtain ⟨hItem, hOthers⟩ := List.forall_mem_cons.mp hItems
      have hFirst : GetsOver depth (.quoted quote) item depth (.quoted quote) := by
        cases hItem with
        | byte hQuote hBackslash => exact quotedByte depth hQuote hBackslash
        | escape b => exact quotedEscape depth quote b
      exact hFirst.append (ih hOthers)

/-- A quoted text leaves the search as it was. -/
theorem quotedString (depth : Nat) (hString : QuotedString part) :
    GetsOver depth .bare part depth .bare := by
  cases hString with
  | intro hQuote hItems =>
      exact (quoteStart depth hQuote).append
        ((quotedItems depth hItems).append (quoteEnd depth hQuote.ne_backslash))

/-- However deep the search is, behind a body it is as deep as before. -/
theorem body (depth : Nat) (hBody : Body part) : GetsOver depth .bare part depth .bare := by
  induction hBody generalizing depth with
  | nil => exact nil depth .bare
  | byte _ hQuote hOpen hClose ih => exact (ih depth).append (plain depth hQuote hOpen hClose)
  | quoted _ hString ih => exact (ih depth).append (quotedString depth hString)
  | braces _ _ ih ihInner =>
      -- the body inside is gone over one brace deeper, so the induction is for every depth
      have hPair := (braceOpened depth).append ((ihInner (depth + 1)).append (braceClosed depth))
      exact (ih depth).append hPair

end GetsOver

/-- A body by the grammar is one by the search. -/
theorem isBody_of_body {body : List UInt8} (hBody : Body body) : IsBody body := by
  have hBrace : closing 0 .bare [closeBrace] = some 0 := by decide
  rw [IsBody, GetsOver.body 0 hBody, hBrace, Option.map_some, Nat.zero_add]

end TemplateCompiler.Template
