import TemplateCompiler.Compiler
import TemplateCompiler.Proofs.Host.Explanations
import TemplateCompiler.Proofs.Template.Layout

/-! What a mixed template asks of the host. Its placeholders are submitted as they are, one
after another, and nothing else is asked and nothing is looked up. -/
namespace TemplateCompiler

namespace Request

/-- The requests for the placeholders of a template, in the order of the text. -/
def ofTemplate (r : Request) (t : Template) : List Request := t.placeholders.map r.ofPlaceholder

/-- What the compiler makes of the host's answer to a request. -/
def received (r : Request) (answer : Except CompileError Evaluator) :
    Except CompileError Compiled :=
  (answer.map .delegated).mapError r.locateError

/-- Receiving an answer turns nothing into a fatal error. -/
theorem goesOn_received {r : Request} {answer : Except CompileError Evaluator}
    (hGoesOn : GoesOn answer) : GoesOn (r.received answer) := by
  rcases hGoesOn.ok_or_rejected with ⟨run, rfl⟩ | ⟨rejection, rfl⟩
  · trivial
  · change ¬(r.locateError (.rejected rejection)).IsFatal
    rw [locateError]
    split <;> exact id

theorem received_of_fatal (r : Request) {e : CompileError} (hFatal : e.IsFatal) :
    r.received (.error e) = .error e := by
  cases e with
  | rejected => exact absurd hFatal id
  | host | conversion | aborted => rfl

/-- Locating diagnostics loses none of them. -/
theorem locate_eq_nil_iff {r : Request} {diagnostics : List Diagnostic} :
    r.locate diagnostics = [] ↔ diagnostics = [] := by
  rw [locate]
  split
  · exact Iff.rfl
  · exact List.map_eq_nil_iff

/-- The diagnostics of an answer are counted in the source, and none is lost. -/
theorem diagnosticsOf_received (r : Request) (answer : Except CompileError Evaluator) :
    diagnosticsOf (r.received answer) = r.locate (diagnosticsOf answer) := by
  cases answer with
  | ok run => exact (locate_eq_nil_iff.mpr rfl).symm
  | error e =>
      cases e with
      | rejected rejection =>
          change (r.locateError (.rejected rejection)).diagnostics = r.locate rejection.diagnostics
          rw [locateError, locate]
          split <;> rfl
      | host | conversion | aborted => exact (locate_eq_nil_iff.mpr rfl).symm

variable {requests : List Request} {answers : List (Except CompileError Evaluator)}

/-- What the compiler makes of the answers to a row of requests. There can be fewer
answers than requests, if the host was not asked any further. -/
def outcomes (requests : List Request) (answers : List (Except CompileError Evaluator)) :
    List (Except CompileError Compiled) :=
  (requests.zip answers).map fun submission => submission.1.received submission.2

/-- The diagnostics of all answers to a row of requests, in the order of the requests. -/
def complaints (requests : List Request) (answers : List (Except CompileError Evaluator)) :
    List Diagnostic :=
  (requests.zip answers).flatMap fun submission =>
    submission.1.locate (diagnosticsOf submission.2)

/-- What is complained of are the diagnostics of the outcomes, in order. -/
theorem flatMap_diagnosticsOf_outcomes :
    (outcomes requests answers).flatMap diagnosticsOf = complaints requests answers := by
  simp only [outcomes, complaints, List.flatMap_map, diagnosticsOf_received]

/-- Where every answer is an evaluator every outcome is a delegated expression. -/
theorem outcomes_map_ok {runs : List Evaluator} (hLength : runs.length ≤ requests.length) :
    outcomes requests (runs.map .ok) = (runs.map Compiled.delegated).map .ok := by
  conv => rhs; rw [← List.map_snd_zip hLength]
  rw [outcomes, List.zip_map_right]
  simp only [List.map_map]
  rfl

/-- The outcomes of answers that go on do so too. -/
theorem goesOn_outcomes (hGoesOn : ∀ answer ∈ answers, GoesOn answer) :
    ∀ o ∈ outcomes requests answers, GoesOn o := by
  rw [outcomes, List.forall_mem_map]
  rintro ⟨r, answer⟩ hMem
  exact goesOn_received (hGoesOn answer (List.of_mem_zip hMem).2)

theorem exists_submission (hLength : answers.length ≤ requests.length)
    {answer : Except CompileError Evaluator} (hMem : answer ∈ answers) :
    ∃ r, (r, answer) ∈ requests.zip answers := by
  rw [← List.map_snd_zip hLength, List.mem_map] at hMem
  obtain ⟨⟨r, _⟩, hSubmission, rfl⟩ := hMem
  exact ⟨r, hSubmission⟩

/-- A fatal answer is among the outcomes, unchanged. -/
theorem fatal_mem_outcomes (hLength : answers.length ≤ requests.length) {e : CompileError}
    (hMem : .error e ∈ answers) (hFatal : e.IsFatal) : .error e ∈ outcomes requests answers := by
  obtain ⟨r, hSubmission⟩ := exists_submission hLength hMem
  exact List.mem_map.mpr ⟨_, hSubmission, received_of_fatal r hFatal⟩

/-- A diagnostic in any answer is complained of. -/
theorem complaints_ne_nil (hLength : answers.length ≤ requests.length)
    {answer : Except CompileError Evaluator} (hMem : answer ∈ answers)
    (hSome : diagnosticsOf answer ≠ []) : complaints requests answers ≠ [] := by
  obtain ⟨r, hSubmission⟩ := exists_submission hLength hMem
  rw [complaints, Ne, List.flatMap_eq_nil_iff]
  intro hNone
  exact hSome (locate_eq_nil_iff.mp (hNone _ hSubmission))

end Request

namespace Compiler
variable {σ : Type} {host : Host σ} {options : Options}

open TemplateCompiler.Action

/-- A delegated request is answered by the host and leaves the cache alone. -/
theorem delegate_eq {request : Request} {workspace : Workspace σ} {after : σ}
    {answer : Except CompileError Evaluator}
    (hAnswer : host.compileExpression request workspace.host = (answer, after)) :
    delegate host request workspace =
      (request.received answer, { workspace with host := after }) := by
  simp only [delegate, mapError, Workspace.onHost, within, Host.compile, bind, andThen, hAnswer]
  cases answer <;> rfl

/-- A placeholder is not taken apart again: the host gets it as it is. -/
theorem compile_ofPlaceholder {request : Request} {p : Placeholder String}
    (hOptimize : options.optimize = true) (hBody : Template.IsBody (Text.bytes p.body)) :
    compile host options (request.ofPlaceholder p) =
      delegate host (request.ofPlaceholder p) := by
  have hOptimized : (request.ofPlaceholder p).isOptimized options = true := by
    simp [Request.isOptimized, Request.ofPlaceholder, Request.nested, hOptimize]
  have hText : Template.ofText? (request.ofPlaceholder p).text =
      some (.join "" ⟨0, p.body⟩ ⟨"", []⟩) := Template.ofText?_text hBody
  have hShape : Template.shape (.join "" ⟨0, p.body⟩ ⟨"", []⟩) = .wrapper ⟨0, p.body⟩ := rfl
  exact compile_of_wrapper host hOptimized hText hShape

/-- Handing requests over in turn changes nothing but the state of the host. -/
theorem attempts_delegate {requests : List Request} {workspace : Workspace σ} {after : σ}
    {answers : List (Except CompileError Evaluator)}
    (h : Attempts host.compileExpression requests workspace.host answers after) :
    Attempts (delegate host) requests workspace (Request.outcomes requests answers)
      { workspace with host := after } := by
  generalize hStart : workspace.host = start at h
  induction h generalizing workspace with
  | done s =>
      subst hStart
      exact .done workspace
  | next hStep hGoesOn _ ih =>
      subst hStart
      exact .next (delegate_eq hStep) (Request.goesOn_received hGoesOn) (ih rfl)
  | @stop request rest s after e hStep hFatal =>
      subst hStart
      have hDelegate := delegate_eq hStep
      rw [Request.received_of_fatal request hFatal] at hDelegate
      have hOutcomes : Request.outcomes (request :: rest) [.error e] = [.error e] := by
        rw [Request.outcomes, List.zip_cons_cons, List.zip_nil_right, List.map_singleton,
          Request.received_of_fatal request hFatal]
      rw [hOutcomes]
      exact .stop hDelegate hFatal

/-- The placeholders of a template are attempted as the host answers them, one after the other,
and the cache is left alone. -/
theorem attempts_compile {request : Request} {template : Template} {workspace : Workspace σ}
    {answers : List (Except CompileError Evaluator)} {after : σ}
    (hOptimized : request.isOptimized options = true)
    (hText : Template.ofText? request.text = some template)
    (hAnswers : Attempts host.compileExpression (request.ofTemplate template) workspace.host
      answers after) :
    Attempts (fun p => compile host options (request.ofPlaceholder p)) template.placeholders
      workspace (Request.outcomes (request.ofTemplate template) answers)
      { workspace with host := after } := by
  have hOptimize : options.optimize = true := by
    simp only [Request.isOptimized, Bool.and_eq_true] at hOptimized
    exact hOptimized.1.1
  obtain ⟨gaps, hSpelled⟩ := Template.spelled_of_ofText? hText
  refine (attempts_delegate hAnswers).of_map fun p hMem => ?_
  exact compile_ofPlaceholder hOptimize (hSpelled.isBody p hMem)

/-- A mixed template with text for its result is compiled from what its placeholders
are compiled to. -/
theorem compile_of_attempts {request : Request} {template : Template}
    {workspace after : Workspace σ} {outcomes : List (Except CompileError Compiled)}
    (hOptimized : request.isOptimized options = true) (hAccepts : request.result.acceptsText = true)
    (hText : Template.ofText? request.text = some template) (hShape : template.shape = .mixed)
    (hOutcomes : Attempts (fun p => compile host options (request.ofPlaceholder p))
      template.placeholders workspace outcomes after) :
    compile host options request workspace =
      ((combine request.source outcomes).map (.interpolation template.literals), after) := by
  rw [compile_of_mixed host hOptimized hText hShape, if_pos hAccepts]
  simp only [bind, Action.andThen, Action.ofExcept, attemptEach_of_attempts hOutcomes]
  cases combine request.source outcomes <;> rfl

end Compiler

namespace Host
variable {σ : Type}

open TemplateCompiler.Action

/-- A recorded host writes down the requests it answered, in order. -/
theorem attempts_recorded {host : Host σ} {requests : List Request} {s after : σ}
    {answers : List (Except CompileError Evaluator)}
    (h : Attempts host.compileExpression requests s answers after) (calls : List Call) :
    Attempts host.recorded.compileExpression requests (s, calls) answers
      (after, calls ++ (requests.take answers.length).map .expression) := by
  -- every step starts with the calls of the steps before it
  induction h generalizing calls with
  | done s => simpa using Attempts.done (s, calls)
  | @next request rest s middle after answer answers hStep hGoesOn _ ih =>
      have hRest := ih (calls ++ [.expression request])
      rw [List.append_assoc] at hRest
      exact .next (record_eq hStep _ calls) hGoesOn hRest
  | @stop request rest s after e hStep hFatal =>
      have hStop : Attempts host.recorded.compileExpression (request :: rest) (s, calls) [.error e]
          (after, calls ++ [.expression request]) := .stop (record_eq hStep _ calls) hFatal
      simpa using hStop

end Host

namespace Compiler
variable {σ : Type}

open TemplateCompiler.Action

/-- The placeholders of a mixed template are submitted as they are, in the order of the text
and once each, and the host is asked nothing else. A failure that is no rejection ends this
and is the result. If there is none, every placeholder is submitted, and the diagnostics of
all rejections make up the result, none lost. Conversions are neither looked up nor kept. -/
theorem mixed_submissions {host : Host σ} {options : Options} {request : Request}
    {template : Template} (workspace : Workspace (σ × List Call))
    (hExplains : host.ExplainsRejections) (hOptimized : request.isOptimized options = true)
    (hAccepts : request.result.acceptsText = true)
    (hText : Template.ofText? request.text = some template) (hShape : template.shape = .mixed) :
    ∃ answers after result,
      Attempts host.compileExpression (request.ofTemplate template) workspace.host.1
        answers after ∧
      compile host.recorded options request workspace =
        (result, { workspace with host := (after, workspace.host.2 ++
          ((request.ofTemplate template).take answers.length).map .expression) }) ∧
      (∀ e, .error e ∈ answers → e.IsFatal →
        result = .error e ∧ ∃ front, answers = front ++ [.error e]) ∧
      ((∀ answer ∈ answers, GoesOn answer) →
        answers.length = (request.ofTemplate template).length ∧
        ((∃ e, .error e ∈ answers) → result = .error (.rejected
          ⟨Request.complaints (request.ofTemplate template) answers, request.source⟩))) := by
  obtain ⟨answers, after, hAnswers⟩ :=
    exists_attempts host.compileExpression (request.ofTemplate template) workspace.host.1
  have hLength := hAnswers.length_le
  have hRecorded := Host.attempts_recorded hAnswers workspace.host.2
  have hOutcomes := attempts_compile hOptimized hText hRecorded
  refine ⟨answers, after, _, hAnswers,
    compile_of_attempts hOptimized hAccepts hText hShape hOutcomes, ?_, ?_⟩
  · intro e hMem hFatal
    obtain ⟨front, hEq, hFront⟩ :=
      hOutcomes.eq_append_of_fatal (Request.fatal_mem_outcomes hLength hMem hFatal) hFatal
    obtain ⟨before, hAnswersEq, _⟩ := hAnswers.eq_append_of_fatal hMem hFatal
    rw [hEq, combine_of_fatal request.source hFront hFatal]
    exact ⟨rfl, before, hAnswersEq⟩
  · intro hGoesOn
    refine ⟨hAnswers.length_eq hGoesOn, ?_⟩
    rintro ⟨e, hMem⟩
    -- the host gives a reason for every rejection, so the complaints are not empty
    have hSome : diagnosticsOf (.error e : Except CompileError Evaluator) ≠ [] := by
      have hReason := hAnswers.forall_outcomes
        (P := fun answer => ∀ e, answer = .error e → e.Explains)
        (fun r s e => hExplains r s e) (.error e) hMem e rfl
      rcases (hGoesOn _ hMem).ok_or_rejected with ⟨_, hOk⟩ | ⟨rejection, hRejected⟩
      · cases hOk
      · cases hRejected
        exact hReason
    rw [combine_of_goesOn request.source (Request.goesOn_outcomes hGoesOn),
      Request.flatMap_diagnosticsOf_outcomes,
      if_neg (Request.complaints_ne_nil hLength hMem hSome)]
    rfl

/-- A greeting with two placeholders and an escaped opener, taken from a longer text. -/
def greeting : Request where
  profile := { name := "greeting", context := .named "Person" }
  text := "Hi $\x7ba\x7d, $\x7bb\x7d \\$\x7bc\x7d!"
  isTemplate := true
  result := .text
  source := "To: Hi $\x7ba\x7d, $\x7bb\x7d \\$\x7bc\x7d!"
  map := ⟨[4]⟩

/-- The greeting as a template. -/
def greetingTemplate : Template := ⟨"Hi ", [(⟨3, "a"⟩, ", "), (⟨9, "b"⟩, " $\x7bc\x7d!")]⟩

theorem ofText?_greeting : Template.ofText? greeting.text = some greetingTemplate := by
  decide +kernel

/-- A name that is not known. -/
def unknownName (name : String) (start : Nat) : Diagnostic :=
  { snippet := name, line := 1, message := "unknown name", span := some ⟨start, start + 1⟩ }

/-- A script that rejects both placeholders of the greeting. -/
def unknownNames : Script where
  answers := [("$\x7ba\x7d", .reject [unknownName "a" 2] none false),
    ("$\x7bb\x7d", .reject [unknownName "b" 2] none false)]

/-- Of two unknown names both are reported, each at its place, after one call for each. -/
theorem mixed_submissions_greeting :
    compile Host.scripted.recorded {} greeting ⟨(unknownNames, []), .empty 0⟩ =
      (.error (.rejected ⟨[unknownName "a" 9, unknownName "b" 15], greeting.source⟩),
        ⟨(unknownNames, [.expression (greeting.ofPlaceholder ⟨3, "a"⟩),
          .expression (greeting.ofPlaceholder ⟨9, "b"⟩)]), .empty 0⟩) := by
  have hFirst : Host.scripted.compileExpression (greeting.ofPlaceholder ⟨3, "a"⟩) unknownNames =
      (.error (.rejected ⟨[unknownName "a" 2], "$\x7ba\x7d"⟩), unknownNames) := rfl
  have hSecond : Host.scripted.compileExpression (greeting.ofPlaceholder ⟨9, "b"⟩) unknownNames =
      (.error (.rejected ⟨[unknownName "b" 2], "$\x7bb\x7d"⟩), unknownNames) := rfl
  obtain ⟨answers, after, result, hAnswers, hCompile, _, hRest⟩ :=
    mixed_submissions ⟨(unknownNames, []), .empty 0⟩ Host.explainsRejections_scripted
      (by decide : greeting.isOptimized {} = true) rfl ofText?_greeting rfl
  change Attempts _ [_, _] _ _ _ at hAnswers
  cases hAnswers with
  | stop hStep hFatal =>
      cases hFirst.symm.trans hStep
      exact absurd hFatal id
  | next hStep _ hNext =>
      cases hFirst.symm.trans hStep
      cases hNext with
      | stop hStep hFatal =>
          cases hSecond.symm.trans hStep
          exact absurd hFatal id
      | next hStep _ hNext =>
          cases hSecond.symm.trans hStep
          cases hNext
          obtain ⟨_, hResult⟩ := hRest (by simp [GoesOn, CompileError.IsFatal])
          rw [hCompile, hResult ⟨_, List.mem_cons_self⟩]
          rfl

end Compiler
end TemplateCompiler
