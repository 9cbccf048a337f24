import TemplateCompiler.Host.Scripted
import TemplateCompiler.Proofs.Compiler.Folding
import TemplateCompiler.Service

/-! Requests that are left to the host. Whoever has only such requests cannot tell the
template compiler from the host, and neither can the host. The compiler may look for a
conversion, but as there is none it takes no help of the host to find that out. -/
namespace TemplateCompiler

namespace Request

/-- A template of this shape is left to the host, under the request as it is. -/
def LeavesShape (r : Request) : Template.Shape → Prop
  | .wrapper _ => True
  | .mixed => r.result.acceptsText = false
  | .literal _ => r.result.acceptsText = false ∧ r.profile.registry.get? r.result = none

/-- There is nothing about a request that the compiler takes over. -/
def IsPassedOn (r : Request) (options : Options) : Prop :=
  options.optimize = false ∨ r.isTemplate = false ∨ r.isSetter = true ∨
    ∃ template, Template.ofText? r.text = some template ∧ r.LeavesShape template.shape

/-- Diagnostics of a request that is not moved stay as the host wrote them. -/
theorem locate_of_isIdentity {r : Request} (hMap : r.map.isIdentity = true)
    (diagnostics : List Diagnostic) : r.locate diagnostics = diagnostics := if_pos hMap

theorem locateError_of_isIdentity {r : Request} (hMap : r.map.isIdentity = true)
    (e : CompileError) : r.locateError e = e := by
  cases e with
  | rejected => exact if_pos hMap
  | host | conversion | aborted => rfl

end Request

namespace Conversion
variable {σ : Type} {host : Host σ} {request : Request} {workspace after : Workspace σ}

/-- A cache that holds nothing but the knowledge that there are no conversions. -/
def Cache.HoldsNone (cache : Cache) : Prop :=
  ∀ key entry, cache.entries.get? key = some entry →
    ∃ unavailable, entry.outcome = .error unavailable

theorem Cache.holdsNone_empty (idle : Nat) : (Cache.empty idle).HoldsNone := by
  intro key entry hEntry
  cases hEntry

/-- Without a conversion, a look-up asks the host for nothing. What is found is that there
is none, be it now or earlier. -/
theorem LookedUp.of_unregistered {result : Except CompileError Outcome}
    (h : LookedUp host request workspace result after)
    (hNone : request.profile.registry.get? request.result = none)
    (hHolds : workspace.cache.HoldsNone) :
    (∃ unavailable, result = .ok (.error unavailable)) ∧ after.host = workspace.host := by
  cases h with
  | hit hFresh =>
      obtain ⟨unavailable, hOutcome⟩ := hHolds _ _ (Cache.get?_of_fresh? hFresh)
      exact ⟨⟨unavailable, by rw [hOutcome]⟩, rfl⟩
  | unregistered => exact ⟨⟨_, rfl⟩, rfl⟩
  | supplied hSome | rejected hSome | failed hSome =>
      rw [hNone] at hSome
      cases hSome

/-- Without a conversion a look-up leaves the host alone, and still no conversion is held. -/
theorem lookup_of_unregistered (host : Host σ) {cache : Cache} (hHolds : cache.HoldsNone)
    (hNone : request.profile.registry.get? request.result = none) (s : σ) :
    ∃ unavailable later, later.HoldsNone ∧
      lookup host request ⟨s, cache⟩ = (.ok (.error unavailable), ⟨s, later⟩) := by
  have hLookedUp := lookedUp_lookup host request ⟨s, cache⟩
  cases hLookup : lookup host request ⟨s, cache⟩ with
  | mk result after =>
      rw [hLookup] at hLookedUp
      obtain ⟨⟨unavailable, rfl⟩, rfl⟩ := hLookedUp.of_unregistered hNone hHolds
      refine ⟨unavailable, after.cache, ?_, rfl⟩
      intro key entry hEntry
      rcases hLookedUp.get?_entries hEntry with hOld | ⟨_, hFound⟩
      · exact hHolds key entry hOld
      · exact ⟨unavailable, (Except.ok.inj hFound).symm⟩

end Conversion

namespace Compiler
variable {σ : Type} {options : Options} {request : Request}

open TemplateCompiler.Action

/-- If no offset moves, what the host says is passed on as it is. -/
theorem delegate_of_isIdentity (host : Host σ) (hMap : request.map.isIdentity = true) (s : σ)
    (cache : Conversion.Cache) :
    delegate host request ⟨s, cache⟩ =
      ((host.compile request s).1, ⟨(host.compile request s).2, cache⟩) := by
  cases hAnswer : host.compileExpression request s with
  | mk answer after =>
      rw [delegate_eq hAnswer]
      cases answer with
      | ok run =>
          rw [Host.compile, bind_of_ok hAnswer]
          rfl
      | error e =>
          rw [Host.compile, bind_of_error hAnswer]
          show (Except.error (request.locateError e), _) = _
          rw [Request.locateError_of_isIdentity hMap]

/-- The compiler looks for a conversion in vain, or it does not even look. -/
theorem isPassedOn_cases (host : Host σ) (hPassedOn : request.IsPassedOn options) :
    (∃ text, request.Folds options text ∧
      request.profile.registry.get? request.result = none) ∨
    ((∀ text, ¬request.Folds options text) ∧
      compile host options request = delegate host request) := by
  by_cases hOptimized : request.isOptimized options = true
  · obtain ⟨template, hText, hLeaves⟩ :
        ∃ template, Template.ofText? request.text = some template ∧
          request.LeavesShape template.shape := by
      simp only [Request.isOptimized, Bool.and_eq_true, Bool.not_eq_true'] at hOptimized
      simpa [Request.IsPassedOn, hOptimized] using hPassedOn
    have hNot : (∀ text, template.shape ≠ .literal text) →
        ∀ text, ¬request.Folds options text := by
      rintro hOther text ⟨_, _, found, hFound, hLiteral⟩
      cases hText.symm.trans hFound
      exact hOther text hLiteral
    cases hShape : template.shape with
    | literal text =>
        rw [hShape] at hLeaves
        exact .inl ⟨text, ⟨hOptimized, hLeaves.1, template, hText, hShape⟩, hLeaves.2⟩
    | wrapper p =>
        exact .inr ⟨hNot (by simp [hShape]), compile_of_wrapper host hOptimized hText hShape⟩
    | mixed =>
        rw [hShape] at hLeaves
        refine .inr ⟨hNot (by simp [hShape]), ?_⟩
        rw [compile_of_mixed host hOptimized hText hShape, if_neg (Bool.eq_false_iff.mp hLeaves)]
  · refine .inr ⟨fun text hFolds => hOptimized hFolds.1, ?_⟩
    exact compile_of_not_isOptimized host (Bool.eq_false_iff.mpr hOptimized)

section PassedOn
variable (host : Host σ) (hMap : request.map.isIdentity = true)
  (hPassedOn : request.IsPassedOn options) {cache : Conversion.Cache} (hHolds : cache.HoldsNone)
  (s : σ)
include hMap hPassedOn hHolds

/-- A request that is passed on is compiled by the host alone. -/
theorem compile_eq_host :
    ∃ later, later.HoldsNone ∧ compile host options request ⟨s, cache⟩ =
      ((host.compile request s).1, ⟨(host.compile request s).2, later⟩) := by
  rcases isPassedOn_cases host hPassedOn with ⟨text, hFolds, hNone⟩ | ⟨_, hDelegate⟩
  · obtain ⟨unavailable, later, hLater, hLookup⟩ :=
      Conversion.lookup_of_unregistered host hHolds hNone s
    refine ⟨later, hLater, ?_⟩
    rw [compile_of_unavailable hFolds hLookup, delegate_of_isIdentity host hMap]
  · refine ⟨cache, hHolds, ?_⟩
    rw [hDelegate, delegate_of_isIdentity host hMap]

/-- The compiler has a second look at a literal only if the host found nothing wrong with
it, and then it finds nothing wrong either. -/
theorem diagnose_eq_host :
    ∃ later, later.HoldsNone ∧ diagnose host options request ⟨s, cache⟩ =
      ((host.diagnose request s).1, ⟨(host.diagnose request s).2, later⟩) := by
  cases hAnswer : host.diagnose request s with
  | mk answer after =>
      cases answer with
      | error e =>
          refine ⟨cache, hHolds, ?_⟩
          rw [diagnose_of_error hAnswer, Request.locateError_of_isIdentity hMap]
      | ok found =>
          by_cases hBoth : found = [] ∧ ∃ text, request.Folds options text
          · obtain ⟨rfl, text, hFolds⟩ := hBoth
            rcases isPassedOn_cases host hPassedOn with ⟨_, _, hNone⟩ | ⟨hNot, _⟩
            · obtain ⟨unavailable, later, hLater, hLookup⟩ :=
                Conversion.lookup_of_unregistered host hHolds hNone after
              refine ⟨later, hLater, ?_⟩
              rw [diagnose_of_folds hFolds hAnswer, hLookup]
            · exact absurd hFolds (hNot text)
          · refine ⟨cache, hHolds, ?_⟩
            rw [diagnose_of_found hAnswer hBoth, Request.locate_of_isIdentity hMap]

end PassedOn

end Compiler

namespace Service
variable {σ τ : Type} {options : Options}

open Compiler

/-- A task with a request that is left to the host, or without any request. -/
def Task.IsPassedOn (task : Task σ) (options : Options) : Prop :=
  ∀ request, task.request? = some request →
    request.map.isIdentity = true ∧ request.IsPassedOn options

/-- One task comes to the same as at the host, and still no conversion is held. -/
theorem perform_eq_host (host : Host τ) (elapse : σ → τ → τ) {task : Task σ}
    (hTask : task.IsPassedOn options) {cache : Conversion.Cache} (hHolds : cache.HoldsNone)
    (t : τ) :
    ∃ later, later.HoldsNone ∧ (Compiler.service host options elapse).perform task ⟨t, cache⟩ =
      (((host.service elapse).perform task t).1,
        ⟨((host.service elapse).perform task t).2, later⟩) := by
  cases task with
  | compile request =>
      obtain ⟨hMap, hPassedOn⟩ := hTask request rfl
      obtain ⟨later, hLater, hCompile⟩ := compile_eq_host host hMap hPassedOn hHolds t
      refine ⟨later, hLater, ?_⟩
      simp only [perform, Compiler.service, hCompile]
      rfl
  | diagnose request =>
      obtain ⟨hMap, hPassedOn⟩ := hTask request rfl
      obtain ⟨later, hLater, hDiagnose⟩ := diagnose_eq_host host hMap hPassedOn hHolds t
      refine ⟨later, hLater, ?_⟩
      simp only [perform, Compiler.service, hDiagnose]
      rfl
  | reset => exact ⟨_, Conversion.Cache.holdsNone_empty cache.idle, rfl⟩
  | elapse s => exact ⟨cache, hHolds, rfl⟩

/-- A run of tasks comes to the same as at the host, by induction on the tasks. -/
theorem run_eq_host (host : Host τ) (elapse : σ → τ → τ) {tasks : List (Task σ)}
    (hTasks : ∀ task ∈ tasks, task.IsPassedOn options) {cache : Conversion.Cache}
    (hHolds : cache.HoldsNone) (t : τ) :
    ∃ last, (Compiler.service host options elapse).run tasks ⟨t, cache⟩ =
      (((host.service elapse).run tasks t).1, ⟨((host.service elapse).run tasks t).2, last⟩) := by
  induction tasks generalizing cache t with
  | nil => exact ⟨cache, rfl⟩
  | cons task tasks ih =>
      obtain ⟨hTask, hRest⟩ := List.forall_mem_cons.mp hTasks
      obtain ⟨later, hLater, hPerform⟩ := perform_eq_host host elapse hTask hHolds t
      obtain ⟨last, hRun⟩ := ih hRest hLater ((host.service elapse).perform task t).2
      refine ⟨last, ?_⟩
      rw [run, hPerform]
      simp only [hRun]
      rfl

/-- Nobody can tell the template compiler from the host who has only requests that are left
to the host, whatever the host answers and however much time passes. All results are the
same, with nothing about a failure changed, and the host receives the same calls in the same
order and ends in the same state. Conversions are looked up on the way; what is found out
about them does not show. -/
theorem cannot_be_told_from_host (host : Host σ) {tasks : List (Task σ)}
    (hTasks : ∀ task ∈ tasks, task.IsPassedOn options) (s : σ) :
    ∃ results after calls cache,
      (host.recorded.service Host.elapse).run tasks (s, []) = (results, after, calls) ∧
      (Compiler.service host.recorded options Host.elapse).run tasks
        ⟨(s, []), .empty options.idle⟩ = (results, ⟨(after, calls), cache⟩) := by
  obtain ⟨cache, hRun⟩ := run_eq_host host.recorded Host.elapse hTasks
    (Conversion.Cache.holdsNone_empty options.idle) (s, [])
  exact ⟨_, _, _, cache, rfl, hRun⟩

/-- A page without placeholders, of a type that only the host knows. -/
def page : Request where
  profile := { name := "greeting", context := .named "Person" }
  text := "name"
  isTemplate := true
  result := .named "Html"

/-- A script that takes the page for a variable. -/
def knownPage : Script where
  answers := [("name", .compile (.lookup "name"))]

/-- A script that rejects the page on its seventh line, although it has only one. -/
def unknownPage : Script where
  answers := [("name", .reject [{ unknownName "name" 0 with line := 7 }] none false)]

/-- The page, and its setter some time later. -/
def visits : List (Task Script) :=
  [.compile page, .diagnose page, .elapse unknownPage, .compile { page with isSetter := true },
    .reset]

def visitResults : List Result :=
  [.compiled (.ok (.delegated (Fixed.evaluate (.lookup "name")))), .diagnosed (.ok []), .elapsed,
    .compiled (.error (.rejected ⟨[{ unknownName "name" 0 with line := 7 }], "name"⟩)),
    .reset (.ok ())]

def visitCalls : List Call :=
  [.expression page, .diagnostics page, .expression { page with isSetter := true }, .reset]

/-- A run with a task of every kind, at the host alone and through the compiler. -/
theorem cannot_be_told_from_host_visits :
    ∃ cache, (Compiler.service Host.scripted.recorded {} Host.elapse).run visits
      ⟨(knownPage, []), .empty 600000⟩ = (visitResults, ⟨(unknownPage, visitCalls), cache⟩) := by
  have hText : Template.ofText? page.text = some ⟨"name", []⟩ := by decide +kernel
  have hPage : page.IsPassedOn {} :=
    .inr (.inr (.inr ⟨⟨"name", []⟩, hText, by decide, by rfl⟩))
  have hSetter : Request.IsPassedOn { page with isSetter := true } {} := .inr (.inr (.inl rfl))
  have hTasks : ∀ task ∈ visits, task.IsPassedOn {} := by
    simp only [visits, List.forall_mem_cons, Task.IsPassedOn, Task.request?]
    simp [hPage, hSetter]
    decide
  have hVisits : (Host.scripted.recorded.service Host.elapse).run visits (knownPage, []) =
      (visitResults, unknownPage, visitCalls) := rfl
  obtain ⟨results, after, calls, cache, hHost, hCompiler⟩ :=
    cannot_be_told_from_host Host.scripted hTasks knownPage
  cases hVisits.symm.trans hHost
  exact ⟨cache, hCompiler⟩

end Service
end TemplateCompiler
