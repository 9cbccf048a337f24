import TemplateCompiler.Proofs.Compiler.Submission
import TemplateCompiler.Proofs.Conversion.Lookup

/-! Requests whose literal has to be converted. They are the only ones for which a
conversion is looked up; all others are compiled as if there were no cache. -/
namespace TemplateCompiler

namespace Request

/-- The text of the request is one literal, and it has to be converted. -/
def Folds (r : Request) (options : Options) (text : String) : Prop :=
  r.isOptimized options = true ∧ r.result.acceptsText = false ∧
    ∃ template, Template.ofText? r.text = some template ∧ template.shape = .literal text

/-- Whether a request is optimized depends on no other option. -/
theorem isOptimized_eq_of_optimize_eq {options options' : Options} (r : Request)
    (hOptimize : options.optimize = options'.optimize) :
    r.isOptimized options = r.isOptimized options' := by
  rw [isOptimized, isOptimized, hOptimize]

end Request

namespace Compiler
variable {σ : Type} {host : Host σ} {options : Options} {request : Request}
  {workspace after : Workspace σ}

open TemplateCompiler.Action Workspace

section Folds
variable {text : String} (hFolds : request.Folds options text)
include hFolds

/-- A request that is folded is compiled by its conversion, or delegated if there is none. -/
theorem compileLiteral_of_folds :
    compile host options request = (do
      match ← Conversion.lookup host request with
      | .ok descriptor =>
        return .constant (← ofExcept (descriptor.conversion.fold request text))
      | .error _ => delegate host request) := by
  obtain ⟨hOptimized, hAccepts, template, hText, hShape⟩ := hFolds
  rw [compile_of_literal host hOptimized hText hShape, compileLiteral, hAccepts]
  rfl

/-- With a descriptor at hand the literal is folded by its conversion. -/
theorem compile_of_descriptor {descriptor : Conversion.Descriptor}
    (hLookup : Conversion.lookup host request workspace = (.ok (.ok descriptor), after)) :
    compile host options request workspace =
      ((descriptor.conversion.fold request text).map .constant, after) := by
  rw [compileLiteral_of_folds hFolds, bind_of_ok hLookup]
  cases hFold : descriptor.conversion.fold request text with
  | error e => exact bind_of_error (congrArg (·, after) hFold)
  | ok value => exact bind_of_ok (congrArg (·, after) hFold)

/-- If no conversion is available the request is delegated. -/
theorem compile_of_unavailable {unavailable : Conversion.Unavailable}
    (hLookup : Conversion.lookup host request workspace = (.ok (.error unavailable), after)) :
    compile host options request workspace = delegate host request after := by
  rw [compileLiteral_of_folds hFolds, bind_of_ok hLookup]

theorem compile_of_lookup_error {e : CompileError}
    (hLookup : Conversion.lookup host request workspace = (.error e, after)) :
    compile host options request workspace = (.error e, after) := by
  rw [compileLiteral_of_folds hFolds, bind_of_error hLookup]

end Folds

/-- A request is either folded, or delegated, or constant, or compiled piece by piece. -/
theorem compile_cases (host : Host σ) (options : Options) (request : Request) :
    (∃ text, request.Folds options text) ∨
    compile host options request = delegate host request ∨
    (∃ text, request.result.acceptsText = true ∧ compile host options request =
      pure (.constant (if text = "" then .null else .text text))) ∨
    ∃ template, request.isOptimized options = true ∧ request.result.acceptsText = true ∧
      Template.ofText? request.text = some template ∧ template.shape = .mixed := by
  by_cases hOptimized : request.isOptimized options = true
  · obtain ⟨_, template, hText, _⟩ := Template.exists_ofText? request.text
    cases hShape : template.shape with
    | literal text =>
        by_cases hAccepts : request.result.acceptsText = true
        · right; right; left
          refine ⟨text, hAccepts, ?_⟩
          rw [compile_of_literal host hOptimized hText hShape, compileLiteral, if_pos hAccepts]
        · exact .inl ⟨text, hOptimized, Bool.eq_false_iff.mpr hAccepts, template, hText,
            hShape⟩
    | wrapper p => exact .inr (.inl (compile_of_wrapper host hOptimized hText hShape))
    | mixed =>
        by_cases hAccepts : request.result.acceptsText = true
        · exact .inr (.inr (.inr ⟨template, hOptimized, hAccepts, hText, hShape⟩))
        · right; left
          rw [compile_of_mixed host hOptimized hText hShape, if_neg hAccepts]
  · exact .inr (.inl (compile_of_not_isOptimized host (Bool.eq_false_iff.mpr hOptimized)))

/-- What is not folded neither reads the cache nor changes it. -/
theorem compile_of_not_folds (host : Host σ) (hNot : ∀ text, ¬request.Folds options text) (s : σ) :
    ∃ result later, ∀ cache, compile host options request ⟨s, cache⟩ = (result, ⟨later, cache⟩) := by
  rcases compile_cases host options request with
    ⟨text, hFolds⟩ | hDelegate | ⟨text, _, hValue⟩ | ⟨template, hOptimized, hAccepts, hText, hShape⟩
  · exact absurd hFolds (hNot text)
  · cases hAnswer : host.compileExpression request s with
    | mk answer later =>
        refine ⟨request.received answer, later, fun cache => ?_⟩
        rw [hDelegate]
        exact delegate_eq hAnswer
  · refine ⟨.ok (.constant (if text = "" then .null else .text text)), s, fun cache => ?_⟩
    rw [hValue]
    rfl
  · obtain ⟨answers, later, hAnswers⟩ :=
      exists_attempts host.compileExpression (request.ofTemplate template) s
    refine ⟨(combine request.source (Request.outcomes (request.ofTemplate template) answers)).map
      (.interpolation template.literals), later, fun cache => ?_⟩
    have hStart : Workspace.host ⟨s, cache⟩ = s := rfl
    rw [← hStart] at hAnswers
    exact compile_of_attempts hOptimized hAccepts hText hShape
      (attempts_compile hOptimized hText hAnswers)

/-- Of the options, only the choice to take requests over matters to compiling. The idle
time matters to the cache alone. -/
theorem compile_eq_of_optimize_eq (host : Host σ) {options options' : Options}
    (hOptimize : options.optimize = options'.optimize) (request : Request) :
    compile host options request = compile host options' request := by
  have hSame := request.isOptimized_eq_of_optimize_eq hOptimize
  by_cases hOptimized : request.isOptimized options = true
  · have hOptimized' : request.isOptimized options' = true := hSame ▸ hOptimized
    obtain ⟨_, template, hText, _⟩ := Template.exists_ofText? request.text
    cases hShape : template.shape with
    | literal text =>
        rw [compile_of_literal host hOptimized hText hShape,
          compile_of_literal host hOptimized' hText hShape]
    | wrapper p =>
        rw [compile_of_wrapper host hOptimized hText hShape,
          compile_of_wrapper host hOptimized' hText hShape]
    | mixed =>
        by_cases hAccepts : request.result.acceptsText = true
        · funext workspace
          obtain ⟨answers, later, hAnswers⟩ :=
            exists_attempts host.compileExpression (request.ofTemplate template) workspace.host
          rw [compile_of_attempts hOptimized hAccepts hText hShape
              (attempts_compile hOptimized hText hAnswers),
            compile_of_attempts hOptimized' hAccepts hText hShape
              (attempts_compile hOptimized' hText hAnswers)]
        · rw [compile_of_mixed host hOptimized hText hShape,
            compile_of_mixed host hOptimized' hText hShape, if_neg hAccepts, if_neg hAccepts]
  · have hOptimized := Bool.eq_false_iff.mpr hOptimized
    rw [compile_of_not_isOptimized host hOptimized,
      compile_of_not_isOptimized host (hSame ▸ hOptimized)]

/-- Diagnosing depends on no option but the one that lets literals be folded. -/
theorem diagnose_eq_of_optimize_eq (host : Host σ) {options options' : Options}
    (hOptimize : options.optimize = options'.optimize) (request : Request) :
    diagnose host options request = diagnose host options' request := by
  rw [diagnose, diagnose, request.isOptimized_eq_of_optimize_eq hOptimize]

/-- An error of the host is located in the source. -/
theorem diagnose_of_error {e : CompileError} {later : σ}
    (hAnswer : host.diagnose request workspace.host = (.error e, later)) :
    diagnose host options request workspace =
      (.error (request.locateError e), { workspace with host := later }) := by
  rw [diagnose]
  apply bind_of_error
  simp only [mapError, onHost_eq hAnswer]
  rfl

private theorem mapError_onHost_of_ok {found : List Diagnostic} {later : σ}
    (hAnswer : host.diagnose request workspace.host = (.ok found, later)) :
    mapError request.locateError (onHost (host.diagnose request)) workspace =
      (.ok found, { workspace with host := later }) := by
  simp only [mapError, onHost_eq hAnswer]
  rfl

/-- What the host finds is all that is reported, unless it finds nothing in a literal. -/
theorem diagnose_of_found {found : List Diagnostic} {later : σ}
    (hAnswer : host.diagnose request workspace.host = (.ok found, later))
    (hDone : ¬(found = [] ∧ ∃ text, request.Folds options text)) :
    diagnose host options request workspace =
      (.ok (request.locate found), { workspace with host := later }) := by
  rw [diagnose, bind_of_ok (mapError_onHost_of_ok hAnswer)]
  split
  · rfl
  · rename_i hElse
    obtain ⟨rfl, hOptimized, hAccepts⟩ : found = [] ∧ request.isOptimized options = true ∧
        request.result.acceptsText = false := by simpa [and_assoc] using hElse
    obtain ⟨_, template, hText, _⟩ := Template.exists_ofText? request.text
    cases hShape : template.shape with
    | literal text =>
        have hFolds : request.Folds options text :=
          ⟨hOptimized, hAccepts, template, hText, hShape⟩
        exact absurd ⟨rfl, text, hFolds⟩ hDone
    | wrapper | mixed =>
        rw [hText]
        dsimp only
        rw [hShape]
        rw [Request.locate_eq_nil_iff.mpr rfl]
        rfl

/-- A literal in which the host finds nothing is checked by its conversion. -/
theorem diagnose_of_folds {text : String} {later : σ} (hFolds : request.Folds options text)
    (hAnswer : host.diagnose request workspace.host = (.ok [], later)) :
    diagnose host options request workspace =
      match Conversion.lookup host request { workspace with host := later } with
      | (.ok (.ok descriptor), after) => (descriptor.conversion.check request text, after)
      | (.ok (.error _), after) => (.ok [], after)
      | (.error e, after) => (.error e, after) := by
  obtain ⟨hOptimized, hAccepts, template, hText, hShape⟩ := hFolds
  rw [diagnose, bind_of_ok (mapError_onHost_of_ok hAnswer),
    if_neg (by simp [hOptimized, hAccepts]), hText]
  dsimp only
  rw [hShape]
  dsimp only
  cases hLookup : Conversion.lookup host request { workspace with host := later } with
  | mk result after =>
      cases result with
      | error e => rw [bind_of_error hLookup]
      | ok outcome =>
          rw [bind_of_ok hLookup]
          cases outcome <;> rfl

end Compiler
end TemplateCompiler
