import TemplateCompiler.Number.Integer

/-! Which texts are integers of 64 bits. Digits are read one by one, and a number that leaves
the range on the way does not come back: with every digit it moves further away from zero. -/
namespace TemplateCompiler.Number

theorem digit?_eq_none_iff {c : Char} : digit? c = none ↔ ¬c.isDigit = true := by
  simp [digit?]

theorem isDigit_of_digit? {c : Char} {d : Nat} (hDigit : digit? c = some d) :
    c.isDigit = true := by
  refine Decidable.of_not_not fun hNot => ?_
  rw [digit?_eq_none_iff.mpr hNot] at hDigit
  cases hDigit

theorem digit?_digitChar {d : Nat} (hDigit : d < 10) : digit? (digitChar d) = some d := by
  revert d
  decide

theorem isDigit_digitChar {d : Nat} (hDigit : d < 10) : (digitChar d).isDigit = true :=
  isDigit_of_digit? (digit?_digitChar hDigit)

theorem value_cons (n : Nat) (c : Char) (row : List Char) :
    value n (c :: row) = value (10 * n + (digit? c).getD 0) row := rfl

/-- The value of a row of digits goes on where the front of the row has led. -/
theorem value_append (n : Nat) (front back : List Char) :
    value n (front ++ back) = value (value n front) back := List.foldl_append

/-- Reading on never makes a value smaller, so what is out of range stays out of range. -/
theorem le_value (n : Nat) (row : List Char) : n ≤ value n row := by
  induction row generalizing n with
  | nil => exact Nat.le_refl n
  | cons c row ih =>
      rw [value_cons]
      exact Nat.le_trans (by omega) (ih _)

/-- The digits of a number stand for the number. -/
theorem value_digits (n : Nat) : value 0 (digits n) = n := by
  induction n using digits.induct with
  | case1 n hSmall =>
      rw [digits, if_pos hSmall, value_cons, digit?_digitChar hSmall]
      exact Nat.zero_add n
  | case2 n hLarge ih =>
      rw [digits, if_neg hLarge, value_append, ih, value_cons,
        digit?_digitChar (Nat.mod_lt n (by decide))]
      exact Nat.div_add_mod n 10

theorem isDigit_of_mem_digits (n : Nat) : ∀ c ∈ digits n, c.isDigit = true := by
  induction n using digits.induct with
  | case1 n hSmall =>
      rw [digits, if_pos hSmall]
      exact List.forall_mem_singleton.mpr (isDigit_digitChar hSmall)
  | case2 n hLarge ih =>
      rw [digits, if_neg hLarge, List.forall_mem_append]
      exact ⟨ih, List.forall_mem_singleton.mpr (isDigit_digitChar (Nat.mod_lt n (by decide)))⟩

theorem digits_ne_nil (n : Nat) : digits n ≠ [] := by
  rw [digits]
  split <;> simp

/-- A number with a sign in front. -/
def signed (negative : Bool) (n : Nat) : Int := if negative then -n else n

/-- A number that has room in 64 bits. -/
def InRange (n : Int) : Prop := Int64.minValue.toInt ≤ n ∧ n ≤ Int64.maxValue.toInt

/-- A number is in range if it lies between the least and the greatest integer. -/
theorem inRange_iff {n : Int} :
    InRange n ↔ ¬n < Int64.minValue.toInt ∧ ¬Int64.maxValue.toInt < n := by
  rw [InRange, Int.not_lt, Int.not_lt]

/-- The range by its bounds, in the form that linear arithmetic can use. -/
theorem inRange_iff_lt {n : Int} :
    InRange n ↔ -9223372036854775808 ≤ n ∧ n < 9223372036854775808 := by
  have hMin : Int64.minValue.toInt = -9223372036854775808 := by decide
  have hMax : Int64.maxValue.toInt = 9223372036854775807 := by decide
  rw [InRange, hMin, hMax]
  omega

theorem inRange_toInt (n : Int64) : InRange n.toInt :=
  inRange_iff_lt.mpr ⟨n.le_toInt, n.toInt_lt⟩

/-- Numbers nearer to zero than one in the range are in the range. -/
theorem InRange.of_le {negative : Bool} {n m : Nat} (h : InRange (signed negative m))
    (hLe : n ≤ m) : InRange (signed negative n) := by
  rw [inRange_iff_lt] at h ⊢
  cases negative <;> simp only [signed, Bool.false_eq_true, if_true, if_false] at h ⊢ <;> omega

/-- In the range, a number and the integer made of it determine each other. -/
theorem ofInt_eq_iff {m : Int} {n : Int64} (hm : InRange m) : Int64.ofInt m = n ↔ n.toInt = m := by
  obtain ⟨hMin, hMax⟩ := inRange_iff_lt.mp hm
  constructor
  · rintro rfl
    exact Int64.toInt_ofInt_of_le hMin hMax
  · rintro rfl
    exact Int64.ofInt_toInt n

/-- Digits that are read after others are read as one number with them, unless it leaves the
range on the way, which it does exactly if it is out of the range in the end. -/
theorem readDigits_eq_ok_iff {negative : Bool} {n : Nat} {row : List Char} {m : Int}
    (hn : InRange (signed negative n)) :
    readDigits negative (signed negative n) row = .ok m ↔
      (∀ c ∈ row, c.isDigit = true) ∧ InRange m ∧ m = signed negative (value n row) := by
  induction row generalizing n with
  | nil =>
      rw [readDigits, Except.ok.injEq]
      constructor
      · rintro rfl
        exact ⟨by simp, hn, rfl⟩
      · rintro ⟨_, _, rfl⟩
        rfl
  | cons c row ih =>
      rw [readDigits, List.forall_mem_cons, value_cons]
      cases hDigit : digit? c with
      | none =>
          have hNot : ¬c.isDigit = true := digit?_eq_none_iff.mp hDigit
          simp [hNot]
      | some d =>
          have hNext : (if negative then 10 * signed negative n - d
              else 10 * signed negative n + d) = signed negative (10 * n + d) := by
            cases negative <;>
              simp only [signed, Bool.false_eq_true, if_true, if_false] <;> omega
          simp only [hNext, Option.getD_some, isDigit_of_digit? hDigit, true_and]
          -- a value that has left the range never comes back into it
          by_cases hRange : InRange (signed negative (10 * n + d))
          · obtain ⟨hMin, hMax⟩ := inRange_iff.mp hRange
            rw [if_neg hMin, if_neg hMax, ih hRange]
          · have hOut : ¬(InRange m ∧ m = signed negative (value (10 * n + d) row)) := by
              rintro ⟨hm, rfl⟩
              exact hRange (hm.of_le (le_value _ row))
            refine iff_of_false ?_ fun h => hOut h.2
            split
            · simp
            · split
              · simp
              · exact absurd (inRange_iff.mpr ⟨‹_›, ‹_›⟩) hRange

/-- Digits behind a sign are read as the number they stand for, if there are any and the
number is in the range. -/
theorem readSigned_eq_ok_iff {negative : Bool} {row : List Char} {n : Int64} :
    Int64.ofInt <$> readSigned negative row = .ok n ↔
      row ≠ [] ∧ (∀ c ∈ row, c.isDigit = true) ∧ n.toInt = signed negative (value 0 row) := by
  have hZero : InRange (signed negative 0) := by
    cases negative <;> exact ⟨by decide, by decide⟩
  have hStart : row ≠ [] →
      readSigned negative row = readDigits negative (signed negative 0) row := by
    intro hSome
    rw [readSigned]
    · cases negative <;> rfl
    · exact hSome
  constructor
  · intro hRead
    have hSome : row ≠ [] := by
      rintro rfl
      cases hRead
    rw [hStart hSome] at hRead
    cases hDigits : readDigits negative (signed negative 0) row with
    | error e =>
        rw [hDigits] at hRead
        cases hRead
    | ok m =>
        rw [hDigits] at hRead
        obtain ⟨hRow, hRange, rfl⟩ := (readDigits_eq_ok_iff hZero).mp hDigits
        exact ⟨hSome, hRow, (ofInt_eq_iff hRange).mp (Except.ok.inj hRead)⟩
  · rintro ⟨hSome, hRow, hValue⟩
    have hRange : InRange (signed negative (value 0 row)) := by
      rw [← hValue]
      exact inRange_toInt n
    rw [hStart hSome, (readDigits_eq_ok_iff hZero).mpr ⟨hRow, hRange, rfl⟩]
    exact congrArg Except.ok ((ofInt_eq_iff hRange).mpr hValue)

/-- A text is a decimal number: one sign or none, and digits behind it. -/
def Numeral (text : String) (n : Int) : Prop :=
  ∃ row : List Char, row ≠ [] ∧ (∀ c ∈ row, c.isDigit = true) ∧
    ((text.toList = row ∨ text.toList = '+' :: row) ∧ n = value 0 row ∨
      text.toList = '-' :: row ∧ n = -(value 0 row : Int))

section Numeral
variable {text : String} {row : List Char} {n : Int}

/-- After a minus sign a numeral has digits only, at least one, and its value is negated. -/
theorem numeral_iff_of_minus (hText : text.toList = '-' :: row) :
    Numeral text n ↔
      row ≠ [] ∧ (∀ c ∈ row, c.isDigit = true) ∧ n = signed true (value 0 row) := by
  rw [Numeral, hText]
  constructor
  · rintro ⟨rest, hSome, hDigits, ⟨rfl | hPlus, _⟩ | ⟨hMinus, hValue⟩⟩
    · exact absurd (hDigits '-' List.mem_cons_self) (by decide)
    · cases hPlus
    · cases hMinus
      exact ⟨hSome, hDigits, hValue⟩
  · rintro ⟨hSome, hRow, hValue⟩
    exact ⟨row, hSome, hRow, .inr ⟨rfl, hValue⟩⟩

/-- After a plus sign a numeral has digits only, at least one. -/
theorem numeral_iff_of_plus (hText : text.toList = '+' :: row) :
    Numeral text n ↔
      row ≠ [] ∧ (∀ c ∈ row, c.isDigit = true) ∧ n = signed false (value 0 row) := by
  rw [Numeral, hText]
  constructor
  · rintro ⟨rest, hSome, hDigits, ⟨rfl | hPlus, hValue⟩ | ⟨hMinus, _⟩⟩
    · exact absurd (hDigits '+' List.mem_cons_self) (by decide)
    · cases hPlus
      exact ⟨hSome, hDigits, hValue⟩
    · cases hMinus
  · rintro ⟨hSome, hRow, hValue⟩
    exact ⟨row, hSome, hRow, .inl ⟨.inr rfl, hValue⟩⟩

/-- Without a sign a numeral has digits only, at least one. -/
theorem numeral_iff_of_unsigned (hMinus : ∀ row, text.toList ≠ '-' :: row)
    (hPlus : ∀ row, text.toList ≠ '+' :: row) :
    Numeral text n ↔ text.toList ≠ [] ∧ (∀ c ∈ text.toList, c.isDigit = true) ∧
      n = signed false (value 0 text.toList) := by
  constructor
  · rintro ⟨rest, hSome, hDigits, ⟨rfl | hText, hValue⟩ | ⟨hText, _⟩⟩
    · exact ⟨hSome, hDigits, hValue⟩
    · exact absurd hText (hPlus rest)
    · exact absurd hText (hMinus rest)
  · rintro ⟨hSome, hDigits, hValue⟩
    exact ⟨text.toList, hSome, hDigits, .inl ⟨.inl rfl, hValue⟩⟩

theorem not_numeral_empty (n : Int) : ¬Numeral "" n := by
  rw [numeral_iff_of_unsigned (by simp) (by simp)]
  exact fun h => h.1 rfl

/-- A numeral has no dollar sign, so there is no placeholder in it. -/
theorem Numeral.dollar_not_mem (h : Numeral text n) : '$' ∉ text.toList := by
  obtain ⟨row, _, hRow, hSign⟩ := h
  have hDigits : '$' ∉ row := fun hMem => absurd (hRow '$' hMem) (by decide)
  rcases hSign with ⟨hText | hText, _⟩ | ⟨hText, _⟩ <;> rw [hText]
  · exact hDigits
  · exact List.not_mem_cons_of_ne_of_not_mem (by decide) hDigits
  · exact List.not_mem_cons_of_ne_of_not_mem (by decide) hDigits

end Numeral

/-- The texts that are read as an integer are the decimal numbers in the range, with any
number of digits. -/
theorem readInteger_eq_ok_iff {text : String} {n : Int64} :
    readInteger text = .ok n ↔ Numeral text n.toInt := by
  rw [readInteger]
  split
  · rename_i hText
    refine iff_of_false (fun hRead => by cases hRead) ?_
    rw [String.toList_eq_nil_iff.mp hText]
    exact not_numeral_empty _
  · rename_i row hText
    rw [readSigned_eq_ok_iff, numeral_iff_of_minus hText]
  · rename_i row hText
    rw [readSigned_eq_ok_iff, numeral_iff_of_plus hText]
  · rename_i row _ hMinus hPlus
    rw [readSigned_eq_ok_iff, numeral_iff_of_unsigned hMinus hPlus]

/-- What is written for an integer is a decimal number that stands for it. -/
theorem numeral_writeInteger (n : Int64) : Numeral (writeInteger n) n.toInt := by
  refine ⟨digits n.toInt.natAbs, digits_ne_nil _, isDigit_of_mem_digits _, ?_⟩
  rw [writeInteger, String.toList_ofList, value_digits]
  split
  · exact .inr ⟨rfl, by omega⟩
  · exact .inl ⟨.inl rfl, by omega⟩

end TemplateCompiler.Number
