import TemplateCompiler.Proofs.Compiler.Submission
import TemplateCompiler.Proofs.SourceMap
import TemplateCompiler.Proofs.Template.Lossless

/-! On which lines the diagnostics of a mixed template are. The host counts in the text of a
placeholder, and its lines are counted anew together with its spans. A placeholder at the
very start of the source is the exception: no offset moves, so the line stays the one that
the host wrote, even if the span is on another. -/
namespace TemplateCompiler

/-- The line is the one on which the span starts. A diagnostic without a span can have any. -/
def Diagnostic.LineFits (d : Diagnostic) (source : String) : Prop :=
  ∀ span, d.span = some span → d.line = Text.lineAt source span.start

/-- Relocating a diagnostic makes its line fit. -/
theorem Diagnostic.lineFits_relocate (d : Diagnostic) (map : SourceMap) (source : String) :
    (d.relocate map source).LineFits source := by
  intro span hSpan
  rw [relocate] at hSpan ⊢
  cases hFound : d.span with
  | none =>
      rw [hFound] at hSpan
      dsimp only at hSpan
      rw [hFound] at hSpan
      cases hSpan
  | some found =>
      rw [hFound] at hSpan
      cases hSpan
      rfl

namespace Request

/-- The lines of what a moved request locates fit its source. -/
theorem lineFits_of_mem_locate {r : Request} (hMoves : r.map.isIdentity = false)
    {diagnostics : List Diagnostic} :
    ∀ d ∈ r.locate diagnostics, d.LineFits r.source := by
  rw [locate, if_neg (Bool.eq_false_iff.mp hMoves), List.forall_mem_map]
  exact fun d _ => d.lineFits_relocate r.map r.source

theorem lineFits_of_mem_complaints {source : String} {requests : List Request}
    (hRequests : ∀ r ∈ requests, r.map.isIdentity = false ∧ r.source = source)
    (answers : List (Except CompileError Evaluator)) :
    ∀ d ∈ complaints requests answers, d.LineFits source := by
  intro d hMem
  obtain ⟨⟨r, answer⟩, hSubmission, hLocated⟩ := List.mem_flatMap.mp hMem
  obtain ⟨hMoves, rfl⟩ := hRequests r (List.of_mem_zip hSubmission).1
  exact lineFits_of_mem_locate hMoves d hLocated

end Request

namespace Compiler
variable {σ : Type} {host : Host σ} {options : Options}

open TemplateCompiler.Action

/-- The second placeholder of a template and those after it are not at its start. -/
theorem not_isIdentity_of_tail {request : Request} {template : Template}
    {first : Placeholder String} {others : List (Placeholder String)}
    (hText : Template.ofText? request.text = some template)
    (hPlaceholders : template.placeholders = first :: others) :
    ∀ r ∈ others.map request.ofPlaceholder,
      r.map.isIdentity = false ∧ r.source = request.source := by
  obtain ⟨gaps, hSpelled⟩ := Template.spelled_of_ofText? hText
  have hOrder := hSpelled.pairwise
  rw [hPlaceholders, List.pairwise_cons] at hOrder
  rw [List.forall_mem_map]
  intro p hMem
  have hStart := hOrder.1 p hMem
  refine ⟨?_, rfl⟩
  rw [Bool.eq_false_iff]
  intro hMap
  have hZero : p.start = 0 := (SourceMap.isIdentity_nested.mp hMap).1
  rw [hZero, Placeholder.stop] at hStart
  omega

/-- A text that is neither literal nor wrapper has a placeholder. -/
theorem exists_placeholder_of_mixed {text : String} {template : Template}
    (hText : Template.ofText? text = some template) (hShape : template.shape = .mixed) :
    ∃ first others, template.placeholders = first :: others := by
  obtain ⟨gaps, hSpelled⟩ := Template.spelled_of_ofText? hText
  cases hPlaceholders : template.placeholders with
  | nil =>
      rw [hSpelled.eq_of_placeholders_eq_nil hPlaceholders] at hShape
      cases hShape
  | cons first others => exact ⟨first, others, rfl⟩

/-- The diagnostics of a rejected template are the complaints about its placeholders. -/
theorem diagnostics_of_rejected_template {request : Request} {template : Template}
    {workspace after : Workspace σ} {rejection : Rejection}
    (hOptimized : request.isOptimized options = true) (hAccepts : request.result.acceptsText = true)
    (hText : Template.ofText? request.text = some template) (hShape : template.shape = .mixed)
    (hCompile : compile host options request workspace = (.error (.rejected rejection), after)) :
    ∃ answers last,
      Attempts host.compileExpression (request.ofTemplate template) workspace.host answers last ∧
      rejection.diagnostics = Request.complaints (request.ofTemplate template) answers := by
  obtain ⟨answers, last, hAnswers⟩ :=
    exists_attempts host.compileExpression (request.ofTemplate template) workspace.host
  have hOutcomes := attempts_compile hOptimized hText hAnswers
  rw [compile_of_attempts hOptimized hAccepts hText hShape hOutcomes] at hCompile
  refine ⟨answers, last, hAnswers, ?_⟩
  cases hCombine : combine request.source
      (Request.outcomes (request.ofTemplate template) answers) with
  | ok =>
      rw [hCombine] at hCompile
      cases hCompile
  | error e =>
      rw [hCombine] at hCompile
      cases hCompile
      rw [hOutcomes.of_combine_eq_rejected hCombine, Request.flatMap_diagnosticsOf_outcomes]

/-- The diagnostics of a rejected template have lines that fit their spans, but for those of
a placeholder at the very start of the source. They come first, and they are exactly what
the host said, so all lines fit if the host's own lines do there. -/
theorem lines_of_rejected_template {request : Request} {template : Template}
    {workspace after : Workspace σ} {rejection : Rejection}
    (hOptimized : request.isOptimized options = true) (hAccepts : request.result.acceptsText = true)
    (hText : Template.ofText? request.text = some template) (hShape : template.shape = .mixed)
    (hCompile : compile host options request workspace = (.error (.rejected rejection), after)) :
    ∃ first others kept moved, template.placeholders = first :: others ∧
      rejection.diagnostics = kept ++ moved ∧
      (kept = if first.start = 0 ∧ request.map.isIdentity = true then
          diagnosticsOf (host.compileExpression (request.ofPlaceholder first) workspace.host).1
        else []) ∧
      (∀ d ∈ moved, d.LineFits request.source) ∧
      ((∀ d ∈ rejection.diagnostics, d.LineFits request.source) ↔
        ∀ d ∈ kept, d.LineFits request.source) := by
  obtain ⟨first, others, hPlaceholders⟩ := exists_placeholder_of_mixed hText hShape
  obtain ⟨answers, last, hAnswers, hDiagnostics⟩ :=
    diagnostics_of_rejected_template hOptimized hAccepts hText hShape hCompile
  rw [Request.ofTemplate, hPlaceholders, List.map_cons] at hAnswers hDiagnostics
  obtain ⟨rest, rfl⟩ := hAnswers.exists_cons
  have hOthers := Request.lineFits_of_mem_complaints
    (not_isIdentity_of_tail hText hPlaceholders) rest
  rw [Request.complaints, List.zip_cons_cons, List.flatMap_cons] at hDiagnostics
  by_cases hStart : first.start = 0 ∧ request.map.isIdentity = true
  · refine ⟨first, others, _, _, hPlaceholders, hDiagnostics, ?_, hOthers, ?_⟩
    · rw [if_pos hStart]
      exact if_pos (SourceMap.isIdentity_nested.mpr hStart)
    · rw [hDiagnostics, List.forall_mem_append]
      exact and_iff_left hOthers
  · have hMoves : (request.ofPlaceholder first).map.isIdentity = false :=
      Bool.eq_false_iff.mpr fun hMap => hStart (SourceMap.isIdentity_nested.mp hMap)
    have hAll : ∀ d ∈ rejection.diagnostics, d.LineFits request.source := by
      rw [hDiagnostics, List.forall_mem_append]
      exact ⟨Request.lineFits_of_mem_locate hMoves, hOthers⟩
    refine ⟨first, others, [], _, hPlaceholders, rfl, (if_neg hStart).symm, hAll, ?_⟩
    exact iff_of_true hAll (by simp)

/-- A greeting with a line feed in each of its placeholders, and names that nobody knows. -/
def brokenGreeting : Request where
  profile := { name := "greeting", context := .named "Person" }
  text := "$\x7b\nnmae\x7d, you are in $\x7b\ncty\x7d"
  isTemplate := true
  result := .text

theorem ofText?_brokenGreeting : Template.ofText? brokenGreeting.text =
    some ⟨"", [(⟨0, "\nnmae"⟩, ", you are in "), (⟨21, "\ncty"⟩, "")]⟩ := by
  decide +kernel

/-- What is said about an unknown name in a placeholder of its own. -/
def undefinedVariable (name : String) (line start : Nat) : Diagnostic :=
  { snippet := "$\x7b\n" ++ name ++ "\x7d"
    line := line
    message := "Undefined variable '" ++ name ++ "'"
    span := some ⟨start, start + name.utf8ByteSize⟩ }

/-- The failure among the results. -/
def failure? {α : Type} : Except CompileError α → Option CompileError
  | .ok _ => none
  | .error e => some e

theorem eq_error_of_failure? {α : Type} {result : Except CompileError α} {e : CompileError}
    (h : failure? result = some e) : result = .error e := by
  cases result with
  | ok => cases h
  | error => exact congrArg Except.error (Option.some.inj h)

/-- The host puts the first unknown name on the first line of what it was given. -/
theorem answer_brokenGreeting_first :
    (Host.scripted.compileExpression (brokenGreeting.ofPlaceholder ⟨0, "\nnmae"⟩) {}).1 =
      .error (.rejected ⟨[undefinedVariable "nmae" 1 3], "$\x7b\nnmae\x7d"⟩) :=
  eq_error_of_failure? (by decide +kernel)

theorem answer_brokenGreeting_second :
    (Host.scripted.compileExpression (brokenGreeting.ofPlaceholder ⟨21, "\ncty"⟩) {}).1 =
      .error (.rejected ⟨[undefinedVariable "cty" 1 3], "$\x7b\ncty\x7d"⟩) :=
  eq_error_of_failure? (by decide +kernel)

theorem attempts_brokenGreeting :
    Attempts Host.scripted.compileExpression
      ([⟨0, "\nnmae"⟩, ⟨21, "\ncty"⟩].map brokenGreeting.ofPlaceholder) {}
      [.error (.rejected ⟨[undefinedVariable "nmae" 1 3], "$\x7b\nnmae\x7d"⟩),
        .error (.rejected ⟨[undefinedVariable "cty" 1 3], "$\x7b\ncty\x7d"⟩)] {} :=
  .next (Prod.ext answer_brokenGreeting_first rfl) id
    (.next (Prod.ext answer_brokenGreeting_second rfl) id (.done _))

/-- Of two unknown names the second has its line counted in the whole text, the first not. -/
theorem compile_brokenGreeting :
    compile Host.scripted {} brokenGreeting ⟨{}, .empty 0⟩ =
      (.error (.rejected
        ⟨[undefinedVariable "nmae" 1 3, undefinedVariable "cty" 3 24], brokenGreeting.text⟩),
        ⟨{}, .empty 0⟩) := by
  rw [compile_of_attempts (by decide : brokenGreeting.isOptimized {} = true) rfl
    ofText?_brokenGreeting rfl (attempts_compile (by decide) ofText?_brokenGreeting
      attempts_brokenGreeting)]
  rfl

/-- Of the two unknown names, the line of the second one is counted anew. -/
theorem lines_of_rejected_template_brokenGreeting :
    ∃ kept moved,
      [undefinedVariable "nmae" 1 3, undefinedVariable "cty" 3 24] = kept ++ moved ∧
      kept = [undefinedVariable "nmae" 1 3] ∧
      ∀ d ∈ moved, d.LineFits brokenGreeting.source := by
  obtain ⟨first, others, kept, moved, hPlaceholders, hDiagnostics, hKept, hMoved, _⟩ :=
    lines_of_rejected_template (by decide) rfl ofText?_brokenGreeting rfl compile_brokenGreeting
  obtain ⟨rfl, rfl⟩ := List.cons.inj hPlaceholders
  rw [if_pos ⟨rfl, rfl⟩, answer_brokenGreeting_first] at hKept
  exact ⟨kept, moved, hDiagnostics, hKept, hMoved⟩

/-- The line of a placeholder at the start of a template is kept, although the name that it
is about stands on the next one. -/
theorem line_kept_at_start :
    ¬∀ d ∈ diagnosticsOf (compile Host.scripted {} brokenGreeting ⟨{}, .empty 0⟩).1,
      d.LineFits brokenGreeting.source := by
  rw [compile_brokenGreeting]
  intro hFits
  have hLine := hFits _ List.mem_cons_self ⟨3, 7⟩ rfl
  exact absurd hLine (by decide +kernel)

end Compiler
end TemplateCompiler
