import TemplateCompiler.Proofs.Template.Grammar
import TemplateCompiler.Proofs.Template.Openers

/-! The search for a closing brace as one pass, with an offset, a counter of open braces and the
quotation mark that it is inside of. The counter is an integer, so that nothing but the run of
the pass keeps it from going below zero. What the pass has gone over is a part of a body with as
many braces open as the counter says. So a brace that it stops at closes a body, and by the
grammar no other brace does. -/
namespace TemplateCompiler.Template

/-- A part of a body in which so many braces are still open. -/
inductive Unclosed : Nat → List UInt8 → Prop where
  | body {part : List UInt8} (hBody : Body part) : Unclosed 0 part
  | brace {depth : Nat} {outer body : List UInt8} (hOuter : Unclosed depth outer)
      (hBody : Body body) : Unclosed (depth + 1) (outer ++ openBrace :: body)

namespace Unclosed
variable {depth : Nat} {part more : List UInt8}

/-- What can follow every body can follow the innermost one. -/
theorem append (h : Unclosed depth part) (hMore : ∀ body, Body body → Body (body ++ more)) :
    Unclosed depth (part ++ more) := by
  cases h with
  | body hBody => exact .body (hMore _ hBody)
  | brace hOuter hBody =>
      rw [List.append_assoc, List.cons_append]
      exact .brace hOuter (hMore _ hBody)

/-- After an opened brace one more is open. -/
theorem braceOpened (h : Unclosed depth part) : Unclosed (depth + 1) (part ++ [openBrace]) :=
  .brace h .nil

/-- A closing brace closes the innermost of those that are open. -/
theorem braceClosed (h : Unclosed (depth + 1) part) : Unclosed depth (part ++ [closeBrace]) := by
  cases h with
  | brace hOuter hBody =>
      rw [List.append_assoc, List.cons_append]
      exact hOuter.append fun _ hPrior => .braces hPrior hBody

end Unclosed

/-- What a pass has gone over: a part of a body with some braces open, and behind it, inside
quotes, the quotation mark with the items after it. -/
inductive Passed : Nat → Option UInt8 → List UInt8 → Prop where
  | bare {depth : Nat} {part : List UInt8} (hPart : Unclosed depth part) : Passed depth none part
  | quoted {depth : Nat} {part : List UInt8} {quote : UInt8} {items : List (List UInt8)}
      (hPart : Unclosed depth part) (hQuote : IsQuote quote)
      (hItems : ∀ item ∈ items, QuotedItem quote item) :
      Passed depth (some quote) (part ++ quote :: items.flatten)

namespace Passed
variable {depth : Nat} {part : List UInt8} {quote : UInt8}

theorem unclosed (h : Passed depth none part) : Unclosed depth part := by
  cases h with
  | bare hPart => exact hPart

/-- In quotes the next item comes after those that were gone over. -/
theorem quotedItem (h : Passed depth (some quote) part) {item : List UInt8}
    (hItem : QuotedItem quote item) : Passed depth (some quote) (part ++ item) := by
  cases h with
  | @quoted front _ items hPart hQuote hItems =>
      have hFlatten : front ++ quote :: items.flatten ++ item =
          front ++ quote :: (items ++ [item]).flatten := by simp
      rw [hFlatten]
      refine .quoted hPart hQuote ?_
      exact List.forall_mem_append.mpr ⟨hItems, List.forall_mem_singleton.mpr hItem⟩

/-- The second quotation mark makes a quoted text of the items. -/
theorem quoteEnd (h : Passed depth (some quote) part) : Passed depth none (part ++ [quote]) := by
  cases h with
  | quoted hPart hQuote hItems =>
      rw [List.append_assoc, List.cons_append]
      exact .bare (hPart.append fun _ hPrior => .quoted hPrior (.intro hQuote hItems))

end Passed

/-- The pass before it looks at an offset: how many braces are open, and which quotation mark
it is inside of. -/
structure Search where
  offset : Nat
  depth : Int := 0
  quote : Option UInt8 := none
  deriving DecidableEq, Repr

/-- The mode of a search that is inside of a quotation mark, or of none. -/
def Mode.ofQuote : Option UInt8 → Mode
  | none => .bare
  | some quote => .quoted quote

namespace Search

/-- One step of the pass. There is no next state if the byte is the closing brace. -/
def step? (s : Search) (b : UInt8) : Option Search :=
  match s.quote with
  | some quote =>
    if b = backslash then some { s with offset := s.offset + 2 }
    else if b = quote then some { s with offset := s.offset + 1, quote := none }
    else some { s with offset := s.offset + 1 }
  | none =>
    if IsQuote b then some { s with offset := s.offset + 1, quote := some b }
    else if b = openBrace then some { s with offset := s.offset + 1, depth := s.depth + 1 }
    else if b = closeBrace then
      if s.depth = 0 then none
      else some { s with offset := s.offset + 1, depth := s.depth - 1 }
    else some { s with offset := s.offset + 1 }

/-- The bytes that a step goes over, and the state behind them. -/
inductive Reads (s : Search) : List UInt8 → Search → Prop where
  | plain {b : UInt8} (hQuote : s.quote = none) (hByte : ¬IsQuote b) (hOpen : b ≠ openBrace)
      (hClose : b ≠ closeBrace) : Reads s [b] { s with offset := s.offset + 1 }
  | braceOpened (hQuote : s.quote = none) :
      Reads s [openBrace] { s with offset := s.offset + 1, depth := s.depth + 1 }
  | braceClosed (hQuote : s.quote = none) (hDepth : s.depth ≠ 0) :
      Reads s [closeBrace] { s with offset := s.offset + 1, depth := s.depth - 1 }
  | quoteStart {b : UInt8} (hQuote : s.quote = none) (hByte : IsQuote b) :
      Reads s [b] { s with offset := s.offset + 1, quote := some b }
  | quotedByte {quote b : UInt8} (hQuote : s.quote = some quote) (hByte : b ≠ quote)
      (hBackslash : b ≠ backslash) : Reads s [b] { s with offset := s.offset + 1 }
  | quotedEscape {quote : UInt8} (hQuote : s.quote = some quote) (b : UInt8) :
      Reads s [backslash, b] { s with offset := s.offset + 2 }
  | quoteEnd {quote : UInt8} (hQuote : s.quote = some quote) (hBackslash : quote ≠ backslash) :
      Reads s [quote] { s with offset := s.offset + 1, quote := none }

/-- Everything a step can do. A backslash can be the last byte, and then the pass is over. -/
inductive Turn (bs : List UInt8) (s : Search) : Option Search → Prop where
  | reads {part : List UInt8} {next : Search} (hReads : Reads s part next)
      (hBytes : bs.drop s.offset = part ++ bs.drop next.offset) : Turn bs s (some next)
  | cutOff {quote : UInt8} (hQuote : s.quote = some quote)
      (hBytes : bs.drop s.offset = [backslash]) : Turn bs s (some { s with offset := s.offset + 2 })
  | found (hQuote : s.quote = none) (hDepth : s.depth = 0)
      (hBytes : bs.drop s.offset = closeBrace :: bs.drop (s.offset + 1)) : Turn bs s none

variable {bs part before : List UInt8} {start close : Nat} {s next : Search}

/-- A backslash in quotes and the byte after it are passed together. -/
theorem turn_of_backslash {quote : UInt8} (hQuote : s.quote = some quote)
    (hFirst : bs.drop s.offset = backslash :: bs.drop (s.offset + 1)) :
    Turn bs s (some { s with offset := s.offset + 2 }) := by
  cases hMore : bs.drop (s.offset + 1) with
  | nil => exact .cutOff hQuote (by rw [hFirst, hMore])
  | cons b rest =>
      have hRest : bs.drop (s.offset + 2) = rest := by
        rw [← List.drop_drop, hFirst, hMore]
        rfl
      refine .reads (.quotedEscape hQuote b) ?_
      rw [hFirst, hMore, hRest]
      rfl

/-- Each step of the search takes one of its turns. -/
theorem turn_step? (hInside : s.offset < bs.length) : Turn bs s (s.step? bs[s.offset]) := by
  have hFirst : bs.drop s.offset = bs[s.offset] :: bs.drop (s.offset + 1) :=
    List.drop_eq_getElem_cons hInside
  generalize bs[s.offset] = b at hFirst
  unfold step?
  split
  · rename_i quote hQuote
    split
    · rename_i hBackslash
      subst hBackslash
      exact turn_of_backslash hQuote hFirst
    · rename_i hBackslash
      split
      · rename_i hByte
        subst hByte
        exact .reads (.quoteEnd hQuote hBackslash) hFirst
      · rename_i hByte
        exact .reads (.quotedByte hQuote hByte hBackslash) hFirst
  · rename_i hQuote
    split
    · rename_i hByte
      exact .reads (.quoteStart hQuote hByte) hFirst
    · rename_i hByte
      split
      · rename_i hOpen
        subst hOpen
        exact .reads (.braceOpened hQuote) hFirst
      · rename_i hOpen
        split
        · rename_i hClose
          subst hClose
          split
          · rename_i hDepth
            exact .found hQuote hDepth hFirst
          · rename_i hDepth
            exact .reads (.braceClosed hQuote hDepth) hFirst
        · rename_i hClose
          exact .reads (.plain hQuote hByte hOpen hClose) hFirst

theorem turn_of_step? {outcome : Option Search} (hInside : s.offset < bs.length)
    (hStep : s.step? bs[s.offset] = outcome) : Turn bs s outcome :=
  hStep ▸ turn_step? hInside

/-- A step moves the offset over the bytes that it reads. -/
theorem Reads.offset_eq (h : Reads s part next) : next.offset = s.offset + part.length := by
  cases h <;> rfl

theorem Reads.offset_lt (h : Reads s part next) : s.offset < next.offset := by
  cases h <;> simp

/-- The offset grows with every step, so the search comes to an end. -/
theorem offset_lt_of_step? (hInside : s.offset < bs.length)
    (hStep : s.step? bs[s.offset] = some next) : s.offset < next.offset := by
  cases turn_of_step? hInside hStep with
  | reads hReads _ => exact hReads.offset_lt
  | cutOff _ _ => exact Nat.lt_add_of_pos_right (by decide)

/-- The pass from a state to the closing brace. There is none if it comes to the end. -/
def run? (bs : List UInt8) (s : Search) : Option Nat :=
  if _hInside : s.offset < bs.length then
    match _hStep : s.step? bs[s.offset] with
    | some next => run? bs next
    | none => some s.offset
  else none
termination_by bs.length - s.offset
decreasing_by
  have hForward := offset_lt_of_step? _hInside _hStep
  omega

/-- The states of the pass over bytes from an offset on. -/
inductive Reached (bs : List UInt8) (start : Nat) : Search → Prop where
  | start : Reached bs start { offset := start }
  | step {s next : Search} (prior : Reached bs start s) (hInside : s.offset < bs.length)
      (hStep : s.step? bs[s.offset] = some next) : Reached bs start next

/-- A step goes over its bytes as the search does. -/
theorem Reads.getsOver (h : Reads s part next) (hDepth : 0 ≤ s.depth) :
    GetsOver s.depth.toNat (.ofQuote s.quote) part next.depth.toNat (.ofQuote next.quote) := by
  cases h with
  | plain hQuote hByte hOpen hClose =>
      simp only [hQuote]
      exact .plain _ hByte hOpen hClose
  | braceOpened hQuote =>
      have hMore : (s.depth + 1).toNat = s.depth.toNat + 1 := by omega
      simp only [hQuote, hMore]
      exact .braceOpened _
  | braceClosed hQuote hOpen =>
      have hLess : s.depth.toNat = (s.depth - 1).toNat + 1 := by omega
      simp only [hQuote, hLess]
      exact .braceClosed _
  | quoteStart hQuote hByte =>
      simp only [hQuote]
      exact .quoteStart _ hByte
  | quotedByte hQuote hByte hBackslash =>
      simp only [hQuote]
      exact .quotedByte _ hByte hBackslash
  | quotedEscape hQuote b =>
      simp only [hQuote]
      exact .quotedEscape _ _ b
  | quoteEnd hQuote hBackslash =>
      simp only [hQuote]
      exact .quoteEnd _ hBackslash

/-- Behind the bytes of a step, what the pass has gone over fits its counter again. -/
theorem Reads.passed (h : Reads s part next) (hDepth : 0 ≤ s.depth)
    (hPassed : Passed s.depth.toNat s.quote before) :
    Passed next.depth.toNat next.quote (before ++ part) := by
  cases h with
  | plain hQuote hByte hOpen hClose =>
      simp only [hQuote] at hPassed ⊢
      exact .bare (hPassed.unclosed.append fun _ hPrior => .byte hPrior hByte hOpen hClose)
  | braceOpened hQuote =>
      have hMore : (s.depth + 1).toNat = s.depth.toNat + 1 := by omega
      simp only [hQuote, hMore] at hPassed ⊢
      exact .bare hPassed.unclosed.braceOpened
  | braceClosed hQuote hOpen =>
      have hLess : s.depth.toNat = (s.depth - 1).toNat + 1 := by omega
      simp only [hQuote, hLess] at hPassed ⊢
      exact .bare hPassed.unclosed.braceClosed
  | @quoteStart b hQuote hByte =>
      simp only [hQuote] at hPassed ⊢
      have hItems : ∀ item ∈ ([] : List (List UInt8)), QuotedItem b item := List.forall_mem_nil _
      exact .quoted hPassed.unclosed hByte hItems
  | quotedByte hQuote hByte hBackslash =>
      simp only [hQuote] at hPassed ⊢
      exact hPassed.quotedItem (.byte hByte hBackslash)
  | quotedEscape hQuote b =>
      simp only [hQuote] at hPassed ⊢
      exact hPassed.quotedItem (.escape b)
  | quoteEnd hQuote hBackslash =>
      simp only [hQuote] at hPassed ⊢
      exact hPassed.quoteEnd

/-- A step closes at most a brace that is open, and opens no more braces than it goes over. -/
theorem Reads.depth_bounds (h : Reads s part next) (hDepth : 0 ≤ s.depth) :
    0 ≤ next.depth ∧ next.depth ≤ s.depth + part.length := by
  cases h <;> simp only [List.length_cons, List.length_nil] <;> omega

/-- Where the closing brace is, for a search that starts in a state. -/
def ahead (bs : List UInt8) (s : Search) : Option Nat :=
  (closing s.depth.toNat (.ofQuote s.quote) (bs.drop s.offset)).map (s.offset + ·)

/-- A step does not move the closing brace. -/
theorem Turn.ahead_eq (h : Turn bs s (some next)) (hDepth : 0 ≤ s.depth) :
    next.ahead bs = s.ahead bs := by
  cases h with
  | @reads part _ hReads hBytes =>
      have hSum : (fun n => s.offset + n) ∘ (fun n => n + part.length) =
          fun n => next.offset + n := by
        funext n
        rw [Function.comp_apply, hReads.offset_eq]
        omega
      rw [ahead, ahead, hBytes, hReads.getsOver hDepth, Option.map_map, hSum]
  | cutOff hQuote hBytes =>
      have hBehind : bs.drop (s.offset + 2) = [] := by
        rw [← List.drop_drop, hBytes]
        rfl
      rw [ahead, ahead, hBehind, hBytes, hQuote]
      simp [Mode.ofQuote, closing]

/-- At the step that ends the search the brace that is looked for is at hand. -/
theorem Turn.ahead_eq_of_found (h : Turn bs s none) : s.ahead bs = some s.offset := by
  cases h with
  | found hQuote hDepth hBytes =>
      rw [ahead, hQuote, hDepth, hBytes, Mode.ofQuote, Int.toNat_zero, closing, if_neg (by decide),
        if_pos rfl]
      rfl

/-- A step that goes on does not bring the depth below zero. -/
theorem Turn.nonneg (h : Turn bs s (some next)) (hDepth : 0 ≤ s.depth) : 0 ≤ next.depth := by
  cases h with
  | reads hReads _ => exact (hReads.depth_bounds hDepth).1
  | cutOff _ _ => exact hDepth

/-- The pass finds the brace that the search finds. -/
theorem run?_eq_ahead (bs : List UInt8) (s : Search) (hDepth : 0 ≤ s.depth) :
    run? bs s = s.ahead bs := by
  fun_induction run? bs s with
  | case1 s hInside next hStep ih =>
      have hTurn := turn_of_step? hInside hStep
      rw [ih (hTurn.nonneg hDepth), hTurn.ahead_eq hDepth]
  | case2 s hInside hStep =>
      rw [(turn_of_step? hInside hStep).ahead_eq_of_found]
  | case3 s hInside =>
      have hNone : bs.drop s.offset = [] := List.drop_eq_nil_of_le (Nat.le_of_not_lt hInside)
      rw [ahead, hNone, closing]
      rfl

/-- A brace that is found is one that the pass stops at. -/
theorem exists_reached_of_run? (h : Reached bs start s) (hRun : run? bs s = some close) :
    ∃ last, Reached bs start last ∧ last.offset = close ∧ Turn bs last none := by
  fun_induction run? bs s with
  | case1 s hInside next hStep ih => exact ih (h.step hInside hStep) hRun
  | case2 s hInside hStep =>
      exact ⟨s, h, Option.some.inj hRun, turn_of_step? hInside hStep⟩
  | case3 s hInside => cases hRun

/-- The counter is right. It counts braces that were gone over, so it is not larger than the
part, and as long as the pass is inside the bytes, it says how many are open. -/
structure Counts (bs : List UInt8) (start : Nat) (s : Search) : Prop where
  ordered : start ≤ s.offset
  nonneg : 0 ≤ s.depth
  bounded : s.depth ≤ s.offset - start
  passed : s.offset ≤ bs.length →
    Passed s.depth.toNat s.quote ((bs.take s.offset).drop start)

/-- The depth is counted rightly after a step if it was before. -/
theorem Counts.turn (hCounts : s.Counts bs start) (hInside : s.offset < bs.length)
    (hTurn : Turn bs s (some next)) : next.Counts bs start := by
  obtain ⟨hOrdered, hNonneg, hBounded, hPassed⟩ := hCounts
  cases hTurn with
  | @reads part _ hReads hBytes =>
      have hOffset := hReads.offset_eq
      obtain ⟨hNextNonneg, hNextBounded⟩ := hReads.depth_bounds hNonneg
      refine ⟨by omega, hNextNonneg, by omega, fun _ => ?_⟩
      have hSize : (bs.take s.offset).length = s.offset := List.length_take_of_le (by omega)
      have hPart : (bs.take next.offset).drop start = (bs.take s.offset).drop start ++ part := by
        rw [hOffset, List.take_add, hBytes, List.take_left,
          List.drop_append_of_le_length (by rwa [hSize])]
      rw [hPart]
      exact hReads.passed hNonneg (hPassed (by omega))
  | cutOff hQuote hBytes =>
      -- the offset is behind the end now, where nothing is said of the part gone over
      have hLast := congrArg List.length hBytes
      rw [List.length_drop, List.length_singleton] at hLast
      refine ⟨Nat.le_add_right_of_le hOrdered, hNonneg, by simp only; omega, fun hNext => ?_⟩
      simp only at hNext
      omega

/-- The depth is counted rightly in every state that the search reaches. -/
theorem counts_of_reached (h : Reached bs start s) : s.Counts bs start := by
  induction h with
  | start =>
      refine ⟨Nat.le_refl _, Int.le_refl _, by simp, fun _ => ?_⟩
      have hNone : (bs.take start).drop start = [] :=
        List.drop_eq_nil_of_le (List.length_take_le _ _)
      rw [hNone]
      exact .bare (.body .nil)
  | step _ hInside hStep ih => exact ih.turn hInside (turn_of_step? hInside hStep)

end Search

/-- What the search takes for a body is one. -/
theorem body_of_isBody {body : List UInt8} (hBody : IsBody body) : Body body := by
  have hRun : Search.run? (body ++ [closeBrace]) { offset := 0 } = some body.length := by
    rw [Search.run?_eq_ahead _ _ (Int.le_refl 0), Search.ahead, List.drop_zero]
    simpa [IsBody, Mode.ofQuote] using hBody
  obtain ⟨last, hReached, hOffset, hTurn⟩ := Search.exists_reached_of_run? .start hRun
  have hPassed := (Search.counts_of_reached hReached).passed
  rw [hOffset, List.take_left, List.drop_zero] at hPassed
  cases hTurn with
  | found hQuote hDepth _ =>
      rw [hQuote, hDepth] at hPassed
      cases (hPassed (by simp)).unclosed with
      | body hBody => exact hBody

/-- The grammar says what the search takes for a body. -/
theorem isBody_iff_body {body : List UInt8} : IsBody body ↔ Body body :=
  ⟨body_of_isBody, isBody_of_body⟩

/-- The bytes from an offset on, cut at a byte behind it. -/
theorem drop_eq_append_getElem {bs : List UInt8} {start close : Nat} (hOrdered : start ≤ close)
    (hInside : close < bs.length) :
    bs.drop start = (bs.take close).drop start ++ bs[close] :: bs.drop (close + 1) := by
  have hCut := List.take_append_drop (close - start) (bs.drop start)
  rw [List.drop_drop, Nat.add_sub_cancel' hOrdered] at hCut
  rw [← List.drop_eq_getElem_cons hInside, List.drop_take, hCut]

/-- A closing brace is found exactly where it closes a body. -/
theorem closingAt?_eq_some_iff {bs : List UInt8} {start close : Nat} :
    closingAt? bs start = some close ↔ ClosesBody bs start close := by
  constructor
  · intro hFound
    obtain ⟨n, hClosing, rfl⟩ := Option.map_eq_some_iff.mp hFound
    have hPart : (bs.take (start + n)).drop start = (bs.drop start).take n := by
      rw [List.drop_take, Nat.add_sub_cancel_left]
    refine ⟨Nat.le_add_right _ _, ?_, ?_⟩
    · rw [← List.getElem?_drop]
      exact getElem?_of_closing hClosing
    · rw [hPart]
      exact isBody_iff_body.mp (isBody_take_of_closing hClosing)
  · rintro ⟨hOrdered, hBrace, hBody⟩
    obtain ⟨hInside, hByte⟩ := List.getElem?_eq_some_iff.mp hBrace
    have hLength : ((bs.take close).drop start).length = close - start := by
      rw [List.length_drop, List.length_take_of_le (Nat.le_of_lt hInside)]
    rw [closingAt?, drop_eq_append_getElem hOrdered hInside, hByte,
      closing_of_isBody (isBody_iff_body.mpr hBody), hLength, Option.map_some,
      Nat.add_sub_cancel' hOrdered]

/-- The search finds the brace that closes a body: the one with a body in front of it, if there
is one, and there is at most one. Read as a pass with a counter of open braces, it takes
nothing from a counter of zero, and the counter is never larger than the part that was gone
over. -/
theorem closingAt?_closes_body (bs : List UInt8) (start : Nat) :
    (∀ close, closingAt? bs start = some close ↔ ClosesBody bs start close) ∧
    (∀ close other, ClosesBody bs start close → ClosesBody bs start other → close = other) ∧
    (closingAt? bs start = none ↔ ¬∃ close, ClosesBody bs start close) ∧
    Search.run? bs { offset := start } = closingAt? bs start ∧
    ∀ s, Search.Reached bs start s → 0 ≤ s.depth ∧ s.depth ≤ s.offset - start := by
  refine ⟨fun _ => closingAt?_eq_some_iff, ?_, ?_, ?_, ?_⟩
  · intro close other hClose hOther
    rw [← closingAt?_eq_some_iff] at hClose hOther
    exact Option.some.inj (hClose.symm.trans hOther)
  · rw [Option.eq_none_iff_forall_ne_some, not_exists]
    exact forall_congr' fun _ => not_congr closingAt?_eq_some_iff
  · exact Search.run?_eq_ahead bs _ (Int.le_refl 0)
  · intro s hReached
    have hCounts := Search.counts_of_reached hReached
    exact ⟨hCounts.nonneg, hCounts.bounded⟩

/-- A body with a pair of braces, and in it a brace in quotes. -/
def braceInQuotes : List UInt8 := Text.bytes " \x7b'k': \"\x7d\"\x7d['k'] \x7d!"

/-- A body with braces in quotes, and a state in the middle of it. -/
theorem closingAt?_closes_body_braceInQuotes :
    closingAt? braceInQuotes 0 = some 17 ∧ ClosesBody braceInQuotes 0 17 ∧
    (∀ other, ClosesBody braceInQuotes 0 other → other = 17) ∧
    Search.Reached braceInQuotes 0 ⟨8, 1, some doubleQuote⟩ ∧
    (0 : Int) ≤ 1 ∧ (1 : Int) ≤ 8 - 0 := by
  obtain ⟨hFound, hUnique, _, _, hCounter⟩ := closingAt?_closes_body braceInQuotes 0
  have hClosing : closingAt? braceInQuotes 0 = some 17 := by decide +kernel
  have hCloses := (hFound 17).mp hClosing
  have hBrace : Search.Reached braceInQuotes 0 ⟨2, 1, none⟩ :=
    .step (.step .start (by decide) rfl) (by decide) rfl
  have hKey : Search.Reached braceInQuotes 0 ⟨5, 1, none⟩ :=
    .step (.step (.step hBrace (by decide) rfl) (by decide) rfl) (by decide) rfl
  have hQuoted : Search.Reached braceInQuotes 0 ⟨8, 1, some doubleQuote⟩ :=
    .step (.step (.step hKey (by decide) rfl) (by decide) rfl) (by decide) rfl
  exact ⟨hClosing, hCloses, fun other hOther => hUnique other 17 hOther hCloses, hQuoted,
    hCounter _ hQuoted⟩

-- a quotation mark that nothing ends takes every brace behind it
example : closingAt? (Text.bytes "it's \x7d") 0 = none := by decide +kernel

end TemplateCompiler.Template
