import TemplateCompiler.Proofs.Compiler.Submission
import TemplateCompiler.Proofs.Evaluation

/-! What a mixed template is compiled to, and what that evaluates to. Literals come from
the text and expressions from the host, and they fit together unless the host rejected a
placeholder without a reason. -/
namespace TemplateCompiler

namespace Compiled

/-- An expression that is one value or one piece of the host's code. -/
def IsSimple : Compiled → Prop
  | interpolation _ _ => False
  | _ => True

end Compiled

namespace Compiler
variable {σ : Type} {host : Host σ} {options : Options} {request : Request} {template : Template}
  {workspace after : Workspace σ} {compiled : Compiled}

open TemplateCompiler.Action

/-- A delegated request becomes one piece of the code of the host. -/
theorem isSimple_of_delegate (h : delegate host request workspace = (.ok compiled, after)) :
    compiled.IsSimple := by
  cases hAnswer : host.compileExpression request workspace.host with
  | mk answer later =>
      rw [delegate_eq hAnswer] at h
      cases answer with
      | error => cases h
      | ok run =>
          cases h
          trivial

/-- A literal becomes one value, or one piece of the code of the host. -/
theorem isSimple_of_compileLiteral {text : String}
    (h : compileLiteral host request text workspace = (.ok compiled, after)) :
    compiled.IsSimple := by
  unfold compileLiteral at h
  split at h
  · cases h
    trivial
  · obtain ⟨outcome, middle, _, h⟩ := bind_eq_ok h
    cases outcome with
    | error => exact isSimple_of_delegate h
    | ok descriptor =>
        obtain ⟨value, _, _, h⟩ := bind_eq_ok h
        cases h
        trivial

/-- Only mixed templates with text for their result are compiled to interpolations. -/
theorem mixed_of_not_isSimple (h : compile host options request workspace = (.ok compiled, after))
    (hNot : ¬compiled.IsSimple) :
    request.isOptimized options = true ∧ request.result.acceptsText = true ∧
      ∃ template, Template.ofText? request.text = some template ∧ template.shape = .mixed := by
  have hOptimized : request.isOptimized options = true := by
    rw [← Bool.not_eq_false]
    intro hFalse
    rw [compile_of_not_isOptimized host hFalse] at h
    exact hNot (isSimple_of_delegate h)
  obtain ⟨_, template, hText, _⟩ := Template.exists_ofText? request.text
  cases hShape : template.shape with
  | literal text =>
      rw [compile_of_literal host hOptimized hText hShape] at h
      exact absurd (isSimple_of_compileLiteral h) hNot
  | wrapper p =>
      rw [compile_of_wrapper host hOptimized hText hShape] at h
      exact absurd (isSimple_of_delegate h) hNot
  | mixed =>
      rw [compile_of_mixed host hOptimized hText hShape] at h
      split at h
      · rename_i hAccepts
        exact ⟨hOptimized, hAccepts, template, hText, hShape⟩
      · exact absurd (isSimple_of_delegate h) hNot

/-- A text without placeholders is a constant, and neither the host nor a conversion is
needed for it. -/
theorem compile_text {literal : String} (hOptimized : request.isOptimized options = true)
    (hAccepts : request.result.acceptsText = true)
    (hText : Template.ofText? request.text = some ⟨literal, []⟩) :
    compile host options request workspace =
      (.ok (.constant (if literal = "" then .null else .text literal)), workspace) := by
  rw [compile_of_literal host hOptimized hText rfl, compileLiteral, if_pos hAccepts]
  rfl

/-- If the host has code for every placeholder, the template is compiled. -/
theorem compile_of_runs {runs : List Evaluator} {hostAfter : σ}
    (hOptimized : request.isOptimized options = true) (hAccepts : request.result.acceptsText = true)
    (hText : Template.ofText? request.text = some template) (hShape : template.shape = .mixed)
    (hRuns : Attempts host.compileExpression (request.ofTemplate template) workspace.host
      (runs.map .ok) hostAfter) :
    compile host options request workspace =
      (.ok (.interpolation template.literals (runs.map .delegated)),
        { workspace with host := hostAfter }) := by
  have hLength := hRuns.length_le
  rw [List.length_map] at hLength
  rw [compile_of_attempts hOptimized hAccepts hText hShape
    (attempts_compile hOptimized hText hRuns), Request.outcomes_map_ok hLength,
    combine_map_ok]
  rfl

/-- What a template with text for its result means. Without placeholders it is its text, with
escaped openers read as openers, and the absent value if it is empty; the host is not asked
and the workspace stays as it is. Otherwise, if the host has code for every placeholder, it
is the text between the placeholders, read in the same way, with the values of the
placeholders as they are displayed; or the first failure of a placeholder. -/
theorem text_template_meaning (host : Host σ) (hOptimized : request.isOptimized options = true)
    (hAccepts : request.result.acceptsText = true) :
    ∃ template gaps,
      Template.ofText? request.text = some template ∧
      Template.gaps? request.text 0 template.placeholders = some gaps ∧
      (template.placeholders = [] → ∀ workspace, ∃ value,
        compile host options request workspace = (.ok (.constant value), workspace) ∧
        ∀ environment, (Compiled.constant value).evaluate environment =
          .ok (if request.text = "" then .null else .text (Template.unescape request.text))) ∧
      (template.shape = .mixed →
        ∀ (workspace : Workspace σ) (runs : List Evaluator) (hostAfter : σ),
        Attempts host.compileExpression (request.ofTemplate template) workspace.host
          (runs.map .ok) hostAfter →
        ∃ compiled,
          compile host options request workspace =
            (.ok compiled, { workspace with host := hostAfter }) ∧
          ∀ environment,
            (∀ values : List Value, runs.map (· environment) = values.map .ok →
              compiled.evaluate environment = .ok (.text
                (interleave (gaps.map Template.unescape) (values.map Value.display)))) ∧
            (∀ (values : List Value) e rest,
              runs.map (· environment) = values.map .ok ++ .error e :: rest →
              compiled.evaluate environment = .error e)) := by
  obtain ⟨gaps, template, hText, hSpelled⟩ := Template.exists_ofText? request.text
  have hGaps := hSpelled.gaps?_eq "" rfl
  rw [String.empty_append] at hGaps
  refine ⟨template, gaps, hText, hGaps, ?_, ?_⟩
  · intro hNone workspace
    rw [hSpelled.eq_of_placeholders_eq_nil hNone] at hText
    refine ⟨_, compile_text hOptimized hAccepts hText, ?_⟩
    intro environment
    simp only [Compiled.evaluate, Template.unescape_eq_empty_iff]
  · intro hShape workspace runs hostAfter hRuns
    refine ⟨_, compile_of_runs hOptimized hAccepts hText hShape hRuns, ?_⟩
    intro environment
    have hResults : (runs.map Compiled.delegated).map (Compiled.evaluate · environment) =
        runs.map (· environment) := by
      rw [List.map_map]
      rfl
    have hLength : template.literals.length = (runs.map Compiled.delegated).length + 1 := by
      have hCount := hRuns.length_eq (goesOn_map_ok runs)
      rw [List.length_map, Request.ofTemplate, List.length_map] at hCount
      rw [Pieces.length_literals, List.length_map, hCount]
    rw [← hResults, ← hSpelled.literals_eq]
    exact ⟨fun values => Compiled.evaluate_of_values hLength,
      fun values e rest => Compiled.evaluate_of_failure hLength⟩

/-- A script that reads the placeholders of the greeting as variables. -/
def knownNames : Script where
  answers := [("$\x7ba\x7d", .compile (.lookup "a")), ("$\x7bb\x7d", .compile (.lookup "b"))]

theorem attempts_knownNames :
    Attempts Host.scripted.compileExpression (greeting.ofTemplate greetingTemplate) knownNames
      ([Fixed.evaluate (.lookup "a"), Fixed.evaluate (.lookup "b")].map .ok) knownNames :=
  .next rfl trivial (.next rfl trivial (.done knownNames))

/-- The greeting with one name and without the other. -/
theorem text_template_meaning_greeting :
    ∃ compiled,
      compile Host.scripted {} greeting ⟨knownNames, .empty 0⟩ =
        (.ok compiled, ⟨knownNames, .empty 0⟩) ∧
      compiled.evaluate { bindings := .ofList [("a", .text "Ann"), ("b", .null)] } =
        .ok (.text "Hi Ann,  $\x7bc\x7d!") ∧
      compiled.evaluate { bindings := .ofList [("b", .null)] } =
        .error (.unknownVariable "a") := by
  obtain ⟨template, gaps, hText, hGaps, _, hMixed⟩ :=
    text_template_meaning Host.scripted (by decide : greeting.isOptimized {} = true) rfl
  cases ofText?_greeting.symm.trans hText
  have hCut : Template.gaps? greeting.text 0 greetingTemplate.placeholders =
      some ["Hi ", ", ", " \\$\x7bc\x7d!"] := by decide +kernel
  cases hCut.symm.trans hGaps
  obtain ⟨compiled, hCompile, hMeaning⟩ :=
    hMixed rfl ⟨knownNames, .empty 0⟩ _ knownNames attempts_knownNames
  have hJoined : interleave (["Hi ", ", ", " \\$\x7bc\x7d!"].map Template.unescape)
      ([Value.text "Ann", .null].map Value.display) = "Hi Ann,  $\x7bc\x7d!" := by decide +kernel
  refine ⟨compiled, hCompile, ?_, ?_⟩
  · rw [(hMeaning _).1 [.text "Ann", .null] rfl, hJoined]
  · exact (hMeaning _).2 [] (.unknownVariable "a") _ rfl

/-- What the compiler makes of a result of the host is the host's code. -/
theorem exists_run_of_outcome {answers : List (Except CompileError Evaluator)}
    (hMem : .ok compiled ∈ Request.outcomes (request.ofTemplate template) answers) :
    ∃ run, compiled = .delegated run := by
  obtain ⟨⟨r, answer⟩, _, hReceived⟩ := List.mem_map.mp hMem
  cases answer with
  | error => cases hReceived
  | ok run =>
      cases hReceived
      exact ⟨run, rfl⟩

/-- An interpolation has an expression for each placeholder, unless a placeholder was
rejected without a reason. Then it has fewer, and it cannot be evaluated. -/
theorem compiled_interpolation {literals : List String} {expressions : List Compiled}
    (hCompile : compile host options request workspace =
      (.ok (.interpolation literals expressions), after)) :
    ∃ template outcomes,
      Template.ofText? request.text = some template ∧
      Attempts (fun p => compile host options (request.ofPlaceholder p)) template.placeholders
        workspace outcomes after ∧
      outcomes.length = template.placeholders.length ∧ literals = template.literals ∧
      ((∀ o ∈ outcomes, ¬IsSilent o) →
        outcomes = expressions.map .ok ∧ literals.length = expressions.length + 1 ∧
        ∀ environment e,
          (Compiled.interpolation literals expressions).evaluate environment = .error e →
          ∃ run, .delegated run ∈ expressions ∧ run environment = .error e) ∧
      ((∃ o ∈ outcomes, IsSilent o) →
        literals.length ≠ expressions.length + 1 ∧
        ∀ environment, (Compiled.interpolation literals expressions).evaluate environment =
          .error (.literalCount literals.length expressions.length)) := by
  obtain ⟨hOptimized, hAccepts, template, hText, hShape⟩ := mixed_of_not_isSimple hCompile id
  obtain ⟨answers, hostAfter, hAnswers⟩ :=
    exists_attempts host.compileExpression (request.ofTemplate template) workspace.host
  have hOutcomes := attempts_compile hOptimized hText hAnswers
  rw [compile_of_attempts hOptimized hAccepts hText hShape hOutcomes] at hCompile
  obtain ⟨hMap, rfl⟩ := Prod.mk.inj hCompile
  generalize hEq : Request.outcomes (request.ofTemplate template) answers = outcomes at *
  cases hCombine : combine request.source outcomes with
  | error e =>
      rw [hCombine] at hMap
      cases hMap
  | ok results =>
      rw [hCombine] at hMap
      cases hMap
      obtain ⟨hGoesOn, hNone, rfl⟩ := hOutcomes.of_combine_eq_ok hCombine
      have hLength := hOutcomes.length_eq hGoesOn
      refine ⟨template, outcomes, hText, hOutcomes, hLength, rfl, ?_, ?_⟩
      -- nothing silent: there are as many expressions as placeholders
      · intro hLoud
        have hOk : outcomes = (successes outcomes).map .ok :=
          eq_map_ok_of_forall fun o hMem => exists_ok_of_not_silent (hGoesOn o hMem)
            (List.flatMap_eq_nil_iff.mp hNone o hMem) (hLoud o hMem)
        have hFit : template.literals.length = (successes outcomes).length + 1 := by
          have hCount := congrArg List.length hOk
          rw [List.length_map] at hCount
          rw [Pieces.length_literals, ← hLength, hCount]
        refine ⟨hOk, hFit, ?_⟩
        intro environment e hError
        obtain ⟨expression, hMem, hRun⟩ := Compiled.exists_of_evaluate_eq_error hFit hError
        have hOutcome : .ok expression ∈ outcomes := by
          rw [hOk]
          exact List.mem_map_of_mem hMem
        rw [← hEq] at hOutcome
        obtain ⟨run, rfl⟩ := exists_run_of_outcome hOutcome
        exact ⟨run, hMem, hRun⟩
      -- a silent rejection takes away an expression, and no literal
      · rintro ⟨o, hMem, hSilent⟩
        have hFewer := length_successes_lt hMem hSilent
        have hLength : template.literals.length ≠ (successes outcomes).length + 1 := by
          rw [Pieces.length_literals]
          omega
        exact ⟨hLength, fun environment =>
          Compiled.evaluate_of_length_ne (List.cons_ne_nil _ _) hLength⟩

/-- What the greeting is compiled to if its names are known. -/
def compiledGreeting : Compiled :=
  .interpolation ["Hi ", ", ", " $\x7bc\x7d!"]
    [.delegated (Fixed.evaluate (.lookup "a")), .delegated (Fixed.evaluate (.lookup "b"))]

theorem compile_greeting :
    compile Host.scripted {} greeting ⟨knownNames, .empty 0⟩ =
      (.ok compiledGreeting, ⟨knownNames, .empty 0⟩) := by
  have hOptimized : greeting.isOptimized {} = true := by decide
  rw [compile_of_attempts hOptimized rfl ofText?_greeting rfl
    (attempts_compile hOptimized ofText?_greeting attempts_knownNames)]
  rfl

/-- The greeting fails as the look-up of one of its names does. -/
theorem compiled_interpolation_greeting :
    compile Host.scripted {} greeting ⟨knownNames, .empty 0⟩ =
        (.ok compiledGreeting, ⟨knownNames, .empty 0⟩) ∧
      ∀ environment e, compiledGreeting.evaluate environment = .error e →
        ∃ name, Fixed.evaluate (.lookup name) environment = .error e := by
  refine ⟨compile_greeting, ?_⟩
  intro environment e hError
  obtain ⟨template, outcomes, _, _, _, _, hLoud, hSilent⟩ := compiled_interpolation compile_greeting
  have hNone : ∀ o ∈ outcomes, ¬IsSilent o := by
    intro o hMem hIsSilent
    exact (hSilent ⟨o, hMem, hIsSilent⟩).1 rfl
  obtain ⟨run, hMem, hRun⟩ := (hLoud hNone).2.2 environment e hError
  simp only [List.mem_cons, Compiled.delegated.injEq, List.not_mem_nil, or_false] at hMem
  rcases hMem with rfl | rfl
  · exact ⟨"a", hRun⟩
  · exact ⟨"b", hRun⟩

/-- A host that rejects every request without a reason. -/
def silentHost : Host Script :=
  { Host.scripted with compileExpression := fun request => .fail (.rejected ⟨[], request.text⟩) }

/-- Silent rejections leave an interpolation behind that cannot be evaluated. -/
theorem silent_rejections_unnoticed :
    compile silentHost {} greeting ⟨{}, .empty 0⟩ =
        (.ok (.interpolation ["Hi ", ", ", " $\x7bc\x7d!"] []), ⟨{}, .empty 0⟩) ∧
      ∀ environment,
        (Compiled.interpolation ["Hi ", ", ", " $\x7bc\x7d!"] []).evaluate environment =
          .error (.literalCount 3 0) := by
  have hOptimized : greeting.isOptimized {} = true := by decide
  have hAnswers : Attempts silentHost.compileExpression (greeting.ofTemplate greetingTemplate) {}
      [.error (.rejected ⟨[], "$\x7ba\x7d"⟩), .error (.rejected ⟨[], "$\x7bb\x7d"⟩)] {} :=
    .next rfl id (.next rfl id (.done _))
  constructor
  · rw [compile_of_attempts hOptimized rfl ofText?_greeting rfl
      (attempts_compile hOptimized ofText?_greeting hAnswers)]
    rfl
  · intro environment
    rw [Compiled.evaluate_of_length_ne (List.cons_ne_nil _ _) (by decide)]
    rfl

end Compiler
end TemplateCompiler
