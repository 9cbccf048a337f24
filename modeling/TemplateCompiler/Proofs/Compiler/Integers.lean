import TemplateCompiler.Proofs.Compiler.Conformance
import TemplateCompiler.Proofs.Compiler.Transparency
import TemplateCompiler.Proofs.Conversion.Availability
import TemplateCompiler.Proofs.Number.Integer
import TemplateCompiler.Proofs.Template.Lossless

/-! Integers that are written as literals. With the standard conversions, and a host that
delivers the code for them, the texts that are compiled to an integer are its numerals. A
number that has no room in 64 bits is rejected like any other text that is none. -/
namespace TemplateCompiler

open Number

/-- An integer is displayed as a numeral of its value. -/
theorem Value.numeral_display (n : Int64) : Numeral (Value.integer n).display n.toInt :=
  numeral_writeInteger n

/-- What is registered for integers differs only in whether empty text is absent. -/
theorem Registry.get?_standard_of_integer {type : ValueType}
    (hType : type = .integer ∨ type = .optional .integer) :
    standard.get? type = some ⟨decide (type = .optional .integer), .integer⟩ := by
  rcases hType with rfl | rfl <;> rfl

namespace Conversion
variable {nullable : Bool} {request : Request} {text : String}

/-- A literal is folded into an integer exactly if it is a numeral of its value. -/
theorem fold_integer_eq_ok_iff {n : Int64} :
    fold ⟨nullable, .integer⟩ request text = .ok (.integer n) ↔ Numeral text n.toInt := by
  rw [← readInteger_eq_ok_iff, fold]
  split
  · rename_i hAbsent
    refine iff_of_false (fun hFold => by cases hFold) ?_
    rw [hAbsent.2, readInteger_eq_ok_iff]
    exact not_numeral_empty _
  · simp only [Converter.integer]
    cases readInteger text with
    | ok m => simp
    | error e => simp

/-- An empty literal of an optional type is folded into the absent value. -/
theorem fold_of_absent {conversion : Conversion} (hAbsent : conversion.nullable = true ∧ text = "") :
    conversion.fold request text = .ok .null :=
  if_pos hAbsent

/-- Text that is not absent and no numeral of 64 bits is rejected. -/
theorem fold_integer_of_not_numeral (hPresent : ¬(nullable = true ∧ text = ""))
    (hNone : ∀ n : Int64, ¬Numeral text n.toInt) :
    ∃ d : Diagnostic, d.code = some Diagnostic.literalCode ∧
      fold ⟨nullable, .integer⟩ request text = .error (.rejected ⟨[d], request.source⟩) := by
  cases hRead : readInteger text with
  | ok m => exact absurd (readInteger_eq_ok_iff.mp hRead) (hNone m)
  | error e =>
      refine ⟨rejectedLiteral request text "ParseIntError" e.message, rfl, ?_⟩
      rw [fold, if_neg hPresent]
      simp only [Converter.integer, hRead]

end Conversion

namespace Compiler
variable {σ : Type} {host : Host σ} {options : Options} {request : Request}
  {workspace after : Workspace σ}

/-- What is folded is the text of the request without its escapes. -/
theorem eq_unescape_of_folds {text : String} (hFolds : request.Folds options text) :
    text = Template.unescape request.text := by
  obtain ⟨_, _, template, hText, hShape⟩ := hFolds
  obtain ⟨gaps, hSpelled⟩ := Template.spelled_of_ofText? hText
  exact ((hSpelled.shape_eq_literal_iff text).mp hShape).2

/-- A literal with a numeral in it has no escaped opener, so it is the text of the request. -/
theorem eq_text_of_numeral {text : String} {n : Int} (hFolds : request.Folds options text)
    (hNumeral : Numeral text n) : text = request.text := by
  rw [eq_unescape_of_folds hFolds] at hNumeral ⊢
  exact Template.unescape_eq_self hNumeral.dollar_not_mem

/-- There is no placeholder in a numeral, so nothing keeps a request for it from being folded. -/
theorem folds_of_numeral {n : Int} (hOptimized : request.isOptimized options = true)
    (hAccepts : request.result.acceptsText = false) (hNumeral : Numeral request.text n) :
    request.Folds options request.text :=
  ⟨hOptimized, hAccepts, _, Template.ofText?_of_not_mem hNumeral.dollar_not_mem, rfl⟩

/-- Integers are folded exactly. In the course of any run, with a host that delivers code for
profiles and suppliers, let a template be compiled to an integer, or an integer or nothing,
by the standard conversions. What is displayed for an integer is compiled to this integer. A
text is compiled to an integer exactly if it is a numeral for it, a sign or none and digits
in any number. Any other literal is rejected, with one diagnostic, and so is a numeral for a
number outside the range; only empty text can be the absent value. -/
theorem integers_fold_exactly {made : List Registry} {catalog : Catalog}
    (hMade : catalog.History made) (hIssued : catalog.issued < UInt64.size)
    (hHost : host.Delivers) {events : List (Event σ)} {s : σ} {replies : List Reply}
    (hRun : run host options events (start options s) = (replies, workspace))
    (hEvents : ∀ request ∈ requests events, request.profile.registry ∈ made)
    (hRequest : request.profile.registry ∈ made)
    (hStandard : request.profile.registry = .standard)
    (hOptimized : request.isOptimized options = true)
    (hResult : request.result = .integer ∨ request.result = .optional .integer) :
    (∀ n : Int64, request.text = (Value.integer n).display →
      (compile host options request workspace).1 = .ok (.constant (.integer n))) ∧
    (∀ n : Int64, (compile host options request workspace).1 = .ok (.constant (.integer n)) ↔
      Numeral request.text n.toInt) ∧
    ∀ template literal, Template.ofText? request.text = some template →
      template.shape = .literal literal → (∀ n : Int64, ¬Numeral request.text n.toInt) →
        if request.result = .optional .integer ∧ request.text = "" then
          (compile host options request workspace).1 = .ok (.constant .null)
        else
          ∃ d : Diagnostic, d.code = some "T001" ∧
            (compile host options request workspace).1 =
              .error (.rejected ⟨[d], request.source⟩) := by
  have hSome : request.profile.registry.get? request.result =
      some ⟨decide (request.result = .optional .integer), .integer⟩ := by
    rw [hStandard, Registry.get?_standard_of_integer hResult]
  obtain ⟨descriptor, after, hLookup, hConversion⟩ :=
    exists_lookup_of_run hMade hIssued hHost hRun hEvents hRequest hSome
  have hFold : ∀ text, request.Folds options text →
      (compile host options request workspace).1 =
        (Conversion.fold ⟨decide (request.result = .optional .integer), .integer⟩ request text).map
          .constant := by
    intro text hFolds
    rw [compile_of_descriptor hFolds hLookup, hConversion]
  have hAccepts : request.result.acceptsText = false := by
    rcases hResult with hType | hType <;> rw [hType] <;> rfl
  -- an integer constant can only come from folding, and what is folded has no escapes to lose
  have hInteger : ∀ n : Int64,
      (compile host options request workspace).1 = .ok (.constant (.integer n)) ↔
        Numeral request.text n.toInt := by
    intro n
    constructor
    · intro hCompile
      rcases folded_or_text (Prod.ext hCompile rfl) rfl with
        ⟨text, _, _, _, hFolds, hFound, hValue, hConstant⟩ | ⟨hText, _⟩
      · cases hLookup.symm.trans hFound
        cases hConstant
        rw [hConversion, Conversion.fold_integer_eq_ok_iff] at hValue
        rwa [eq_text_of_numeral hFolds hValue] at hValue
      · rw [hAccepts] at hText
        cases hText
    · intro hNumeral
      rw [hFold _ (folds_of_numeral hOptimized hAccepts hNumeral),
        Conversion.fold_integer_eq_ok_iff.mpr hNumeral]
      rfl
  refine ⟨fun n hText => (hInteger n).mpr (hText ▸ Value.numeral_display n), hInteger, ?_⟩
  intro template literal hText hShape hNone
  have hFolds : request.Folds options literal := ⟨hOptimized, hAccepts, template, hText, hShape⟩
  have hNone : ∀ n : Int64, ¬Numeral literal n.toInt := fun n hNumeral =>
    hNone n (eq_text_of_numeral hFolds hNumeral ▸ hNumeral)
  have hAbsent : decide (request.result = .optional .integer) = true ∧ literal = "" ↔
      request.result = .optional .integer ∧ request.text = "" := by
    rw [decide_eq_true_iff, eq_unescape_of_folds hFolds, Template.unescape_eq_empty_iff]
  rw [hFold literal hFolds]
  split
  · rename_i hText
    rw [Conversion.fold_of_absent (hAbsent.mpr hText)]
    rfl
  · rename_i hText
    obtain ⟨d, hCode, hRejected⟩ :=
      Conversion.fold_integer_of_not_numeral (fun h => hText (hAbsent.mp h)) hNone
    rw [hRejected]
    exact ⟨d, hCode, rfl⟩

/-- A number that may be absent, as it is written. -/
def numberWritten (text : String) : Request where
  profile := { name := "shared", context := .any }
  text := text
  isTemplate := true
  result := .optional .integer

/-- Two other requests, one of which has a registry that accepts no integers. -/
def fortyTwoTwice : List (Event Nat) :=
  [.compile (fortyTwo .standard), .compile (fortyTwo strictRegistry)]

theorem delivers_timed : (timed {}).Delivers where
  profile _ _ := ⟨_, _, rfl⟩
  utilities _ _ _ := ⟨_, _, rfl⟩
  unit _ _ := ⟨_, _, rfl⟩

/-- The smallest integer of 64 bits has room, and its distance from zero has none. -/
theorem integers_fold_exactly_smallest :
    (compile (timed {}) {} (numberWritten "-9223372036854775808")
      (run (timed {}) {} fortyTwoTwice (start {} 0)).2).1 =
        .ok (.constant (.integer Int64.minValue)) ∧
    ∃ d : Diagnostic, d.code = some "T001" ∧
      (compile (timed {}) {} (numberWritten "9223372036854775808")
        (run (timed {}) {} fortyTwoTwice (start {} 0)).2).1 =
          .error (.rejected ⟨[d], "9223372036854775808"⟩) := by
  have hEvents : ∀ request ∈ requests fortyTwoTwice, request.profile.registry ∈
      [.standard, .standard, .standard, .standard, strictRegistry] := by
    simp [requests, fortyTwoTwice, Event.request?, fortyTwo]
  obtain ⟨hSmallest, _, _⟩ := integers_fold_exactly history_strictRegistry (by decide)
    delivers_timed rfl hEvents List.mem_cons_self rfl
    (by decide : (numberWritten "-9223372036854775808").isOptimized {} = true) (.inr rfl)
  obtain ⟨_, _, hRejected⟩ := integers_fold_exactly history_strictRegistry (by decide)
    delivers_timed rfl hEvents List.mem_cons_self rfl
    (by decide : (numberWritten "9223372036854775808").isOptimized {} = true) (.inr rfl)
  refine ⟨hSmallest Int64.minValue (by decide +kernel), ?_⟩
  have hText : Template.ofText? "9223372036854775808" = some ⟨"9223372036854775808", []⟩ := by
    decide +kernel
  have hNone : ∀ n : Int64, ¬Numeral "9223372036854775808" n.toInt := by
    intro n hNumeral
    have hRead : readInteger "9223372036854775808" = .error .tooLarge := by decide +kernel
    cases hRead.symm.trans (readInteger_eq_ok_iff.mpr hNumeral)
  exact hRejected _ _ hText rfl hNone

end Compiler
end TemplateCompiler
