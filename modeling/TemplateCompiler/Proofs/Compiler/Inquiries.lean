import TemplateCompiler.Proofs.Compiler.Runs

/-! The look-ups that are made in the course of a run. Whoever looks a conversion up directly
makes one. Compiling a literal makes one at once, and diagnosing a literal makes one after
the host has found nothing wrong with it. Nothing else does. -/
namespace TemplateCompiler

variable {σ : Type}

/-- The event makes the cache forget everything. -/
def Event.Invalidates : Event σ → Prop
  | clear | reset => True
  | _ => False

namespace Compiler

open TemplateCompiler.Action

/-- The event looks up the conversion of a request, in the workspace as it is by then. -/
inductive LooksUp (host : Host σ) (options : Options) (workspace : Workspace σ) :
    Event σ → Request → Workspace σ → Prop where
  | lookup (request : Request) : LooksUp host options workspace (.lookup request) request workspace
  | compile {request : Request} {text : String} (hFolds : request.Folds options text) :
      LooksUp host options workspace (.compile request) request workspace
  | diagnose {request : Request} {text : String} {later : σ} (hFolds : request.Folds options text)
      (hAnswer : host.diagnose request workspace.host = (.ok [], later)) :
      LooksUp host options workspace (.diagnose request) request { workspace with host := later }

/-- Some event of a run looks up the conversion of a request, in the workspace as it is by
then. -/
inductive Inquires (host : Host σ) (options : Options) :
    List (Event σ) → Workspace σ → Request → Workspace σ → Prop where
  | now {event : Event σ} {events : List (Event σ)} {workspace moment : Workspace σ}
      {request : Request} (h : LooksUp host options workspace event request moment) :
      Inquires host options (event :: events) workspace request moment
  | later {event : Event σ} {events : List (Event σ)} {workspace moment : Workspace σ}
      {request : Request}
      (h : Inquires host options events (perform host options workspace event).2 request moment) :
      Inquires host options (event :: events) workspace request moment

/-- A property of workspaces that the host alone cannot break, neither when it is asked to
compile nor when it is asked to diagnose. -/
structure HostKeeps (host : Host σ) (P : Workspace σ → Prop) : Prop where
  expression : ∀ request s cache, P ⟨s, cache⟩ →
    P ⟨(host.compileExpression request s).2, cache⟩
  diagnostics : ∀ request s cache, P ⟨s, cache⟩ → P ⟨(host.diagnose request s).2, cache⟩

variable {host : Host σ} {options : Options} {P : Workspace σ → Prop} {request : Request}
  {workspace moment : Workspace σ} {event : Event σ}

/-- A look-up of an event is the last thing that the event does to the cache. -/
theorem LooksUp.cache_perform (h : LooksUp host options workspace event request moment) :
    (perform host options workspace event).2.cache =
      (Conversion.lookup host request moment).2.cache := by
  cases h with
  | lookup => rfl
  | compile hFolds => exact cache_compile_of_folds hFolds workspace
  | diagnose hFolds hAnswer => exact cache_diagnose_of_folds hFolds hAnswer

/-- A property of caches has nothing to do with the host. -/
theorem HostKeeps.of_cache (Q : Conversion.Cache → Prop) :
    HostKeeps host fun workspace => Q workspace.cache where
  expression _ _ _ h := h
  diagnostics _ _ _ h := h

namespace HostKeeps

/-- What the host keeps is kept by a row of attempts. -/
theorem attempts (hHost : HostKeeps host P) {requests : List Request} {cache : Conversion.Cache}
    {s after : σ} {answers : List (Except CompileError Evaluator)}
    (hAnswers : Attempts host.compileExpression requests s answers after)
    (h : P ⟨s, cache⟩) : P ⟨after, cache⟩ := by
  induction hAnswers with
  | done => exact h
  | @next request rest s middle after answer answers hStep _ _ ih =>
      have hMiddle := hHost.expression request s cache h
      rw [hStep] at hMiddle
      exact ih hMiddle
  | @stop request rest s after e hStep _ =>
      have hAfter := hHost.expression request s cache h
      rwa [hStep] at hAfter

theorem delegate (hHost : HostKeeps host P) (request : Request) (h : P workspace) :
    P (Compiler.delegate host request workspace).2 := by
  have hAfter := hHost.expression request workspace.host workspace.cache h
  cases hAnswer : host.compileExpression request workspace.host with
  | mk answer after =>
      rw [hAnswer] at hAfter
      rwa [delegate_eq hAnswer]

/-- Compiling keeps what the host keeps and the look-up keeps that it comes to. -/
theorem compile (hHost : HostKeeps host P)
    (hLookup : ∀ moment, LooksUp host options workspace (.compile request) request moment →
      P moment → P (Conversion.lookup host request moment).2) (h : P workspace) :
    P (Compiler.compile host options request workspace).2 := by
  rcases compile_cases host options request with
    ⟨text, hFolds⟩ | hDelegate | ⟨text, _, hValue⟩ | ⟨template, hOptimized, hAccepts, hText, hShape⟩
  · have hFound := hLookup workspace (.compile hFolds) h
    cases hResult : Conversion.lookup host request workspace with
    | mk result after =>
        rw [hResult] at hFound
        cases result with
        | error e => rwa [compile_of_lookup_error hFolds hResult]
        | ok outcome =>
            cases outcome with
            | ok descriptor => rwa [compile_of_descriptor hFolds hResult]
            | error unavailable =>
                rw [compile_of_unavailable hFolds hResult]
                exact hHost.delegate request hFound
  · rw [hDelegate]
    exact hHost.delegate request h
  · rw [hValue]
    exact h
  · obtain ⟨answers, after, hAnswers⟩ :=
      exists_attempts host.compileExpression (request.ofTemplate template) workspace.host
    rw [compile_of_attempts hOptimized hAccepts hText hShape
      (attempts_compile hOptimized hText hAnswers)]
    exact hHost.attempts hAnswers h

/-- Diagnosing keeps what the host keeps and the look-up keeps that it comes to. -/
theorem diagnose (hHost : HostKeeps host P)
    (hLookup : ∀ moment, LooksUp host options workspace (.diagnose request) request moment →
      P moment → P (Conversion.lookup host request moment).2) (h : P workspace) :
    P (Compiler.diagnose host options request workspace).2 := by
  have hLater := hHost.diagnostics request workspace.host workspace.cache h
  cases hAnswer : host.diagnose request workspace.host with
  | mk answer later =>
      rw [hAnswer] at hLater
      cases answer with
      | error e => rwa [diagnose_of_error hAnswer]
      | ok found =>
          by_cases hBoth : found = [] ∧ ∃ text, request.Folds options text
          · obtain ⟨rfl, text, hFolds⟩ := hBoth
            have hFound := hLookup _ (.diagnose hFolds hAnswer) hLater
            rw [diagnose_of_folds hFolds hAnswer]
            split <;> simp_all
          · rwa [diagnose_of_found hAnswer hBoth]

/-- One event keeps what its look-up, a purge and the passing of time keep. -/
theorem perform (hHost : HostKeeps host P) (hEvent : ¬event.Invalidates)
    (hLookup : ∀ request moment, LooksUp host options workspace event request moment →
      P moment → P (Conversion.lookup host request moment).2)
    (hPurge : P workspace → P (purge host workspace).2)
    (hElapse : ∀ s, event = .elapse s → P { workspace with host := s }) (h : P workspace) :
    P (Compiler.perform host options workspace event).2 := by
  cases event with
  | compile request => exact hHost.compile (hLookup request) h
  | diagnose request => exact hHost.diagnose (hLookup request) h
  | lookup request => exact hLookup request workspace (.lookup request) h
  | purge => exact hPurge h
  | clear | reset => exact absurd trivial hEvent
  | elapse s => exact hElapse s rfl

end HostKeeps

/-- What every look-up of a run and every purge keep, holds after the run. -/
theorem cache_run {Q : Conversion.Cache → Prop} {events : List (Event σ)}
    (hEvents : ∀ event ∈ events, ¬event.Invalidates)
    (hLookup : ∀ request moment, Inquires host options events workspace request moment →
      Q moment.cache → Q (Conversion.lookup host request moment).2.cache)
    (hPurge : ∀ cache s, Q cache → Q (cache.purge (host.clock s))) (h : Q workspace.cache) :
    Q (run host options events workspace).2.cache := by
  induction events generalizing workspace with
  | nil => exact h
  | cons event events ih =>
      obtain ⟨hEvent, hRest⟩ := List.forall_mem_cons.mp hEvents
      refine ih hRest (fun request moment hInquires => hLookup request moment (.later hInquires)) ?_
      exact (HostKeeps.of_cache Q).perform hEvent
        (fun request moment hLooksUp => hLookup request moment (.now hLooksUp))
        (hPurge workspace.cache workspace.host) (fun _ _ => h) h

end Compiler
end TemplateCompiler
