import TemplateCompiler.Proofs.Compiler.Interpolation

/-! Placeholders on their own. A placeholder closes itself, so it is read in the same way
when it is cut out of its text: as one placeholder with nothing around it. What is compiled
for a placeholder is therefore never a template with placeholders of its own. -/
namespace TemplateCompiler

namespace Template

/-- A placeholder that is read on its own is the placeholder again. -/
theorem exists_wrapper_of_mem {text : String} {t : Template} {p : Placeholder String}
    (hText : ofText? text = some t) (hMem : p ∈ t.placeholders) :
    ∃ nested only, ofText? p.text = some nested ∧ nested.literals = ["", ""] ∧
      nested.placeholders = [only] ∧ nested.shape = .wrapper only ∧ only.text = p.text ∧
      only.start = 0 ∧ only.stop = p.text.utf8ByteSize ∧ only.body = p.body := by
  obtain ⟨gaps, hSpelled⟩ := spelled_of_ofText? hText
  have hStop : (⟨0, p.body⟩ : Placeholder String).stop = p.text.utf8ByteSize := by
    rw [Placeholder.utf8ByteSize_text, Placeholder.stop, Nat.zero_add]
  exact ⟨.join "" ⟨0, p.body⟩ ⟨"", []⟩, ⟨0, p.body⟩, ofText?_text (hSpelled.isBody p hMem),
    rfl, rfl, rfl, rfl, rfl, hStop, rfl⟩

end Template

namespace Compiler
variable {σ : Type} {host : Host σ} {options : Options} {request : Request}
  {template : Template} {p : Placeholder String}

open TemplateCompiler.Action

/-- A placeholder on its own is delegated, whatever the options say. -/
theorem compile_eq_delegate_of_mem (hText : Template.ofText? request.text = some template)
    (hMem : p ∈ template.placeholders) :
    compile host options (request.ofPlaceholder p) =
      delegate host (request.ofPlaceholder p) := by
  cases hOptimized : (request.ofPlaceholder p).isOptimized options with
  | false => exact compile_of_not_isOptimized host hOptimized
  | true =>
      obtain ⟨nested, only, hNested, _, _, hShape, _⟩ := Template.exists_wrapper_of_mem hText hMem
      exact compile_of_wrapper host hOptimized hNested hShape

/-- Below the placeholders of a template there is nothing to compile. -/
theorem compile_of_mixed_eq_delegate (hOptimized : request.isOptimized options = true)
    (hText : Template.ofText? request.text = some template) (hShape : template.shape = .mixed) :
    compile host options request =
      if request.result.acceptsText then do
        let outcomes ← attemptEach (fun p => delegate host (request.ofPlaceholder p))
          template.placeholders
        let expressions ← ofExcept (combine request.source outcomes)
        return .interpolation template.literals expressions
      else delegate host request := by
  have hSame : ∀ p ∈ template.placeholders, compile host options (request.ofPlaceholder p) =
      delegate host (request.ofPlaceholder p) :=
    fun p hMem => compile_eq_delegate_of_mem hText hMem
  rw [compile_of_mixed host hOptimized hText hShape, attemptEach_congr hSame]

/-- A recorded host gets what is delegated, as it is and once. -/
theorem delegate_recorded {s after : σ} {answer : Except CompileError Evaluator}
    (hAnswer : host.compileExpression request s = (answer, after)) (calls : List Call)
    (cache : Conversion.Cache) :
    delegate host.recorded request ⟨(s, calls), cache⟩ =
      (request.received answer, ⟨(after, calls ++ [.expression request]), cache⟩) :=
  delegate_eq (Host.record_eq hAnswer _ _)

/-- What a template is compiled to holds code of the host only. -/
theorem isDelegated_of_mem_expressions {workspace after : Workspace σ} {literals : List String}
    {expressions : List Compiled} {expression : Compiled}
    (hCompile : compile host options request workspace =
      (.ok (.interpolation literals expressions), after)) (hMem : expression ∈ expressions) :
    expression.isDelegated = true := by
  obtain ⟨hOptimized, hAccepts, template, hText, hShape⟩ := mixed_of_not_isSimple hCompile id
  obtain ⟨answers, hostAfter, hAnswers⟩ :=
    exists_attempts host.compileExpression (request.ofTemplate template) workspace.host
  have hOutcomes := attempts_compile hOptimized hText hAnswers
  rw [compile_of_attempts hOptimized hAccepts hText hShape hOutcomes] at hCompile
  cases hCombine : combine request.source
    (Request.outcomes (request.ofTemplate template) answers) with
  | error e =>
      rw [hCombine] at hCompile
      cases hCompile
  | ok results =>
      rw [hCombine] at hCompile
      cases hCompile
      obtain ⟨_, _, rfl⟩ := hOutcomes.of_combine_eq_ok hCombine
      obtain ⟨run, rfl⟩ := exists_run_of_outcome (mem_successes_iff.mp hMem)
      rfl

/-- Compiling goes one level deep. Every text is read as a template, and each of its
placeholders, read on its own, is one placeholder with the same text and the same body, from
the first byte to the last. So the request for a placeholder is left to the host, whatever
is held and whatever the host was asked before: it is submitted as it is and once, and
nothing is looked up. A mixed template is compiled by delegating its placeholders and asks for
nothing else, and what it is compiled to holds code of the host only. -/
theorem placeholders_compiled_as_wrappers (host : Host σ) (options : Options)
    (request : Request) :
    ∃ template, Template.ofText? request.text = some template ∧
      (∀ p ∈ template.placeholders,
        (∃ nested only, Template.ofText? p.text = some nested ∧ nested.literals = ["", ""] ∧
          nested.placeholders = [only] ∧ nested.shape = .wrapper only ∧ only.text = p.text ∧
          only.start = 0 ∧ only.stop = p.text.utf8ByteSize ∧ only.body = p.body) ∧
        ∀ s calls cache answer after,
          host.compileExpression (request.ofPlaceholder p) s = (answer, after) →
          compile host.recorded options (request.ofPlaceholder p) ⟨(s, calls), cache⟩ =
            ((request.ofPlaceholder p).received answer,
              ⟨(after, calls ++ [.expression (request.ofPlaceholder p)]), cache⟩)) ∧
      (request.isOptimized options = true → template.shape = .mixed →
        compile host options request =
          (if request.result.acceptsText then do
            let outcomes ← attemptEach (fun p => delegate host (request.ofPlaceholder p))
              template.placeholders
            let expressions ← ofExcept (combine request.source outcomes)
            return .interpolation template.literals expressions
          else delegate host request) ∧
        (request.result.acceptsText = true → ∀ s calls cache, ∃ answers after,
          Attempts host.compileExpression (request.ofTemplate template) s answers after ∧
          (compile host.recorded options request ⟨(s, calls), cache⟩).2 =
            ⟨(after, calls ++ ((request.ofTemplate template).take answers.length).map .expression),
              cache⟩)) ∧
      (∀ workspace literals expressions after,
        compile host options request workspace =
            (.ok (.interpolation literals expressions), after) →
          ∀ expression ∈ expressions, expression.isDelegated = true) := by
  obtain ⟨_, template, hText, _⟩ := Template.exists_ofText? request.text
  refine ⟨template, hText, ?_, ?_, ?_⟩
  · intro p hMem
    refine ⟨Template.exists_wrapper_of_mem hText hMem, ?_⟩
    intro s calls cache answer after hAnswer
    rw [compile_eq_delegate_of_mem hText hMem]
    exact delegate_recorded hAnswer calls cache
  · intro hOptimized hShape
    refine ⟨compile_of_mixed_eq_delegate hOptimized hText hShape, ?_⟩
    intro hAccepts s calls cache
    obtain ⟨answers, after, hAnswers⟩ :=
      exists_attempts host.compileExpression (request.ofTemplate template) s
    have hRecorded := Host.attempts_recorded hAnswers calls
    have hOutcomes : Attempts (fun p => compile host.recorded options (request.ofPlaceholder p))
        template.placeholders ⟨(s, calls), cache⟩ _ _ :=
      attempts_compile hOptimized hText hRecorded
    exact ⟨answers, after, hAnswers, congrArg Prod.snd
      (compile_of_attempts hOptimized hAccepts hText hShape hOutcomes)⟩
  · intro workspace literals expressions after hCompile expression hMem
    exact isDelegated_of_mem_expressions hCompile hMem

/-- The first placeholder of the greeting, on its own. -/
theorem placeholders_compiled_as_wrappers_greeting :
    compile Host.scripted.recorded {} (greeting.ofPlaceholder ⟨3, "a"⟩)
        ⟨(knownNames, []), .empty 0⟩ =
      (.ok (.delegated (Fixed.evaluate (.lookup "a"))),
        ⟨(knownNames, [.expression (greeting.ofPlaceholder ⟨3, "a"⟩)]), .empty 0⟩) ∧
    ∀ expression ∈ [Compiled.delegated (Fixed.evaluate (.lookup "a")),
      .delegated (Fixed.evaluate (.lookup "b"))], expression.isDelegated = true := by
  obtain ⟨template, hText, hPlaceholders, _, hDelegated⟩ :=
    placeholders_compiled_as_wrappers Host.scripted {} greeting
  cases ofText?_greeting.symm.trans hText
  have hMem : ⟨3, "a"⟩ ∈ greetingTemplate.placeholders := by decide
  exact ⟨(hPlaceholders _ hMem).2 knownNames [] (.empty 0) _ _ rfl,
    hDelegated _ _ _ _ compile_greeting⟩

end Compiler
end TemplateCompiler
