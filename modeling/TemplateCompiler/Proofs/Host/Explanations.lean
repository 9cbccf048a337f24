import TemplateCompiler.Host.Scripted
import TemplateCompiler.Proofs.Compiler.Attempts

/-! Hosts that say what is wrong whenever they reject a request. The language of variables
always does, and so does the scripted host. -/
namespace TemplateCompiler

/-- A rejection says what is wrong. -/
def CompileError.Explains : CompileError → Prop
  | rejected rejection => rejection.diagnostics ≠ []
  | _ => True

/-- A fatal error is no rejection, so it owes no reason. -/
theorem CompileError.IsFatal.explains {e : CompileError} (hFatal : e.IsFatal) : e.Explains := by
  cases e with
  | rejected => exact absurd hFatal id
  | host | conversion | aborted => trivial

/-- Code that has found nothing wrong breaks off and does not reject. -/
theorem CompileError.explains_ofDiagnostics (diagnostics : List Diagnostic) (source : String) :
    (ofDiagnostics diagnostics source).Explains := by
  cases diagnostics with
  | nil => trivial
  | cons d rest => exact List.cons_ne_nil d rest

section Collect
variable {α : Type} {outcomes : List (Except CompileError α)} {e : CompileError}

/-- Collecting never fails with a rejection: those are what is collected. -/
theorem explains_of_collect (h : collect outcomes = .error e) : e.Explains := by
  induction outcomes with
  | nil => cases h
  | cons outcome outcomes ih =>
      by_cases hGoesOn : GoesOn outcome
      · rw [collect_cons_of_goesOn hGoesOn] at h
        cases hRest : collect outcomes with
        | ok found =>
            rw [hRest] at h
            cases h
        | error e' =>
            rw [hRest] at h
            cases h
            exact ih hRest
      · obtain ⟨e', rfl, hFatal⟩ := exists_fatal_of_not_goesOn hGoesOn
        rw [collect_cons_of_fatal hFatal] at h
        cases h
        exact hFatal.explains

/-- What is combined from outcomes is rejected with their diagnostics, and there is at least
one. -/
theorem explains_of_combine {source : String} (h : combine source outcomes = .error e) :
    e.Explains := by
  rw [combine] at h
  cases hCollect : collect outcomes with
  | error e' =>
      rw [hCollect] at h
      cases h
      exact explains_of_collect hCollect
  | ok found =>
      obtain ⟨results, diagnostics⟩ := found
      rw [hCollect] at h
      cases diagnostics with
      | nil => cases h
      | cons d rest => cases h; exact List.cons_ne_nil d rest

end Collect

namespace Variables
variable {explosive : Option String} {request : Request} {e : CompileError}

theorem explains_of_readTerm {place : Place} {text : String}
    (h : readTerm explosive request place text = .error e) : e.Explains := by
  unfold readTerm at h
  dsimp only at h
  split at h
  · cases h
    trivial
  · split at h
    · cases h
    · cases h
    · split at h
      · cases h
      · cases h
        exact List.cons_ne_nil _ _

theorem explains_of_readConcat {template : Template}
    (h : readConcat explosive request template = .error e) : e.Explains := by
  unfold readConcat at h
  cases hTerms : combine request.text
      (template.placeholders.map (readPlaceholder explosive request)) with
  | ok terms => rw [hTerms] at h; cases h
  | error e' =>
      rw [hTerms] at h
      cases h
      exact explains_of_combine hTerms

private theorem explains_of_map {α β : Type} {f : α → β} {result : Except CompileError α}
    (hResult : ∀ e, result = .error e → e.Explains) (h : f <$> result = .error e) :
    e.Explains := by
  cases result with
  | ok a => cases h
  | error e' => cases h; exact hResult e rfl

/-- A text of the language of variables is rejected with a reason. -/
theorem explains_of_read (h : read explosive request = .error e) : e.Explains := by
  unfold read at h
  split at h
  · split at h
    · cases h
      trivial
    · split at h
      · exact explains_of_map (fun _ => explains_of_readTerm) h
      · split at h
        · cases h
        · exact explains_of_readConcat h
      · exact explains_of_readConcat h
  · exact explains_of_map (fun _ => explains_of_readTerm) h

end Variables

namespace Host
variable {σ : Type}

/-- Every request that is rejected is rejected with a reason. -/
def ExplainsRejections (host : Host σ) : Prop :=
  ∀ request s e, (host.compileExpression request s).1 = .error e → e.Explains

/-- The scripted host never rejects without a reason. -/
theorem explainsRejections_scripted : scripted.ExplainsRejections := by
  intro request script e h
  change script.compileExpression request = .error e at h
  unfold Script.compileExpression at h
  split at h
  · cases h
    trivial
  · cases h
    trivial
  · cases h
    exact CompileError.explains_ofDiagnostics _ _
  · cases h
  · cases hRead : Variables.read script.explosive request with
    | ok program => rw [hRead] at h; cases h
    | error e' =>
        rw [hRead] at h
        cases h
        exact Variables.explains_of_read hRead

end Host
end TemplateCompiler
