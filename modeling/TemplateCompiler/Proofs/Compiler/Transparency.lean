import Mathlib.Data.List.Forall2
import TemplateCompiler.Proofs.Compiler.Literals
import TemplateCompiler.Proofs.Conversion.Answers

/-! With a host whose answers do not change, nobody can tell whether conversions are kept.
Two compilers that keep them for different times look them up at different moments, but
reply alike to everything. -/
namespace TemplateCompiler

namespace Action
variable {σ α β : Type}

/-- The result of a step is the same in all states. -/
def IsSteady (x : Action σ α) : Prop := ∀ s s', (x s).1 = (x s').1

theorem exists_of_fst_eq {first second : α × σ} (h : first.1 = second.1) :
    ∃ a s s', first = (a, s) ∧ second = (a, s') :=
  ⟨first.1, first.2, second.2, rfl, by rw [h]⟩

/-- Two runs of a sequence give the same result if they do so in its first half, and the second
half does not look at the state. -/
theorem fst_bind_congr {x : Action σ α} {f : α → Action σ β} {s s' : σ}
    (hFirst : (x s).1 = (x s').1) (hRest : ∀ a, (f a).IsSteady) :
    ((x >>= f) s).1 = ((x >>= f) s').1 := by
  obtain ⟨result, after, after', hLeft, hRight⟩ := exists_of_fst_eq hFirst
  cases result with
  | error e => rw [bind_of_error hLeft, bind_of_error hRight]
  | ok a =>
      rw [bind_of_ok hLeft, bind_of_ok hRight]
      exact hRest a after after'

namespace IsSteady

theorem pure (a : α) : IsSteady (Pure.pure a : Action σ α) := fun _ _ => rfl

theorem ofExcept (result : Except CompileError α) : IsSteady (ofExcept result : Action σ α) :=
  fun _ _ => rfl

theorem bind {x : Action σ α} {f : α → Action σ β} (hFirst : x.IsSteady)
    (hRest : ∀ a, (f a).IsSteady) : (x >>= f).IsSteady :=
  fun s s' => fst_bind_congr (hFirst s s') hRest

theorem attempt {x : Action σ α} (h : x.IsSteady) : x.attempt.IsSteady :=
  fun s s' => congrArg Except.ok (h s s')

theorem mapError {x : Action σ α} (f : CompileError → CompileError) (h : x.IsSteady) :
    (x.mapError f).IsSteady :=
  fun s s' => congrArg (Except.mapError f) (h s s')

theorem onHost {x : Action σ α} (h : x.IsSteady) : (Workspace.onHost x).IsSteady :=
  fun workspace workspace' => h workspace.host workspace'.host

theorem attemptEach {act : α → Action σ β} {row : List α} (h : ∀ a ∈ row, (act a).IsSteady) :
    (attemptEach act row).IsSteady := by
  induction row with
  | nil => exact pure []
  | cons a rest ih =>
      obtain ⟨hFirst, hRest⟩ := List.forall_mem_cons.mp h
      refine bind hFirst.attempt fun outcome => ?_
      have hGoesOn : IsSteady (do
          return outcome :: (← Action.attemptEach act rest) : Action σ _) :=
        bind (ih hRest) fun _ => pure _
      cases outcome with
      | ok => exact hGoesOn
      | error e =>
          cases e with
          | rejected => exact hGoesOn
          | host | conversion | aborted => exact pure _

end IsSteady
end Action

namespace Compiler
variable {σ : Type} {host : Host σ} {options options' : Options} {request : Request}

open TemplateCompiler.Action Conversion

section Pure
variable (hPure : host.IsPure)
include hPure

/-- What is delegated to the host gives the same result from every workspace. -/
theorem isSteady_delegate (request : Request) : (delegate host request).IsSteady := by
  have hAnswer : (host.compileExpression request).IsSteady := hPure.compileExpression request
  exact (hAnswer.bind fun _ => .pure _).onHost.mapError request.locateError

/-- A request that is not folded never reads the cache, so it gives the same result from every
workspace. -/
theorem isSteady_compile_of_not_folds (hNot : ∀ text, ¬request.Folds options text) :
    (compile host options request).IsSteady := by
  rcases compile_cases host options request with
    ⟨text, hFolds⟩ | hDelegate | ⟨text, _, hValue⟩ | ⟨template, hOptimized, hAccepts, hText, hShape⟩
  · exact absurd hFolds (hNot text)
  · rw [hDelegate]
    exact isSteady_delegate hPure request
  · rw [hValue]
    exact .pure _
  · have hOptimize : options.optimize = true := by
      simp only [Request.isOptimized, Bool.and_eq_true] at hOptimized
      exact hOptimized.1.1
    obtain ⟨gaps, hSpelled⟩ := Template.spelled_of_ofText? hText
    rw [compile_of_mixed host hOptimized hText hShape, if_pos hAccepts]
    refine .bind (.attemptEach fun p hMem => ?_) fun _ => .bind (.ofExcept _) fun _ => .pure _
    rw [compile_ofPlaceholder hOptimize (hSpelled.isBody p hMem)]
    exact isSteady_delegate hPure _

/-- What comes of compiling a request depends on the workspace through one look-up. -/
theorem fst_compile_congr {workspace workspace' : Workspace σ}
    (hLookup : (lookup host request workspace).1 = (lookup host request workspace').1) :
    (compile host options request workspace).1 = (compile host options request workspace').1 := by
  by_cases hFolds : ∃ text, request.Folds options text
  · obtain ⟨text, hFolds⟩ := hFolds
    rw [compileLiteral_of_folds hFolds]
    refine fst_bind_congr hLookup fun outcome => ?_
    cases outcome with
    | ok descriptor => exact .bind (.ofExcept _) fun _ => .pure _
    | error => exact isSteady_delegate hPure request
  · exact isSteady_compile_of_not_folds hPure (not_exists.mp hFolds) workspace workspace'

/-- The diagnostics of a request depend on the workspace through its look-up only. -/
theorem fst_diagnose_congr {workspace workspace' : Workspace σ}
    (hLookup : ∀ s s', (lookup host request ⟨s, workspace.cache⟩).1 =
      (lookup host request ⟨s', workspace'.cache⟩).1) :
    (diagnose host options request workspace).1 =
      (diagnose host options request workspace').1 := by
  obtain ⟨answer, later, later', hLeft, hRight⟩ :=
    exists_of_fst_eq (hPure.diagnose request workspace.host workspace'.host)
  cases answer with
  | error e => rw [diagnose_of_error hLeft, diagnose_of_error hRight]
  | ok found =>
      by_cases hBoth : found = [] ∧ ∃ text, request.Folds options text
      · obtain ⟨rfl, text, hFolds⟩ := hBoth
        obtain ⟨result, after, after', hFound, hFound'⟩ := exists_of_fst_eq (hLookup later later')
        rw [diagnose_of_folds hFolds hLeft, diagnose_of_folds hFolds hRight, hFound, hFound']
        cases result with
        | error => rfl
        | ok outcome => cases outcome <;> rfl
      · rw [diagnose_of_found hLeft hBoth, diagnose_of_found hRight hBoth]

end Pure

section Agreement
variable {Q : Request → Prop} (hPure : host.IsPure)
  (hCollisionFree : Set.InjOn Fingerprint.ofText
    {source | ∃ request, Q request ∧ host.Generates request source})
include hPure hCollisionFree

/-- A look-up gives the same from all caches that agree with the host, for each has the answer of
the host or asks for it. -/
theorem fst_lookup_congr (hRequest : Q request) {cache cache' : Cache}
    (h : cache.Agrees host Q) (h' : cache'.Agrees host Q) (s s' : σ) :
    (lookup host request ⟨s, cache⟩).1 = (lookup host request ⟨s', cache'⟩).1 := by
  have hAnswer : ∀ {cache : Cache}, cache.Agrees host Q → ∀ now,
      (lookup host request ⟨now, cache⟩).1 = answer host s request := fun hAgrees now =>
    (lookedUp_lookup host request ⟨now, _⟩).eq_answer hPure hCollisionFree hRequest hAgrees s
  rw [hAnswer h, hAnswer h']

/-- The options other than the choice to take requests over do not show, nor does what was
asked before. -/
theorem fst_perform_congr (hOptimize : options.optimize = options'.optimize)
    {event event' : Event σ} (hAlike : event.Alike event')
    (hEvent : ∀ request, event.request? = some request → Q request)
    {workspace workspace' : Workspace σ} (h : workspace.cache.Agrees host Q)
    (h' : workspace'.cache.Agrees host Q) :
    (perform host options workspace event).1 = (perform host options' workspace' event').1 := by
  have hLookup : ∀ request, Q request → ∀ s s',
      (lookup host request ⟨s, workspace.cache⟩).1 =
        (lookup host request ⟨s', workspace'.cache⟩).1 :=
    fun request hRequest => fst_lookup_congr hPure hCollisionFree hRequest h h'
  cases hAlike with
  | elapse => rfl
  | same =>
      cases event with
      | compile request =>
          have hFound := hLookup request (hEvent request rfl) workspace.host workspace'.host
          have hCompiled : (compile host options request workspace).1 =
              (compile host options' request workspace').1 := by
            rw [compile_eq_of_optimize_eq host hOptimize]
            exact fst_compile_congr hPure hFound
          exact congrArg Reply.compiled hCompiled
      | diagnose request =>
          have hDiagnosed : (diagnose host options request workspace).1 =
              (diagnose host options' request workspace').1 := by
            rw [diagnose_eq_of_optimize_eq host hOptimize]
            exact fst_diagnose_congr hPure (hLookup request (hEvent request rfl))
          exact congrArg Reply.diagnosed hDiagnosed
      | lookup request =>
          exact congrArg Reply.found
            (hLookup request (hEvent request rfl) workspace.host workspace'.host)
      | purge | clear | reset | elapse => rfl

/-- The replies of a whole run do not show the cache: two runs over the same requests stay alike
step by step, whatever has expired in either. -/
theorem fst_run_congr (hOptimize : options.optimize = options'.optimize)
    (hKeeps : Keeps host (Cache.Agrees host Q) Q) {events events' : List (Event σ)}
    (hAlike : List.Forall₂ Event.Alike events events')
    (hEvents : ∀ request ∈ requests events, Q request) {workspace workspace' : Workspace σ}
    (h : workspace.cache.Agrees host Q) (h' : workspace'.cache.Agrees host Q) :
    (run host options events workspace).1 = (run host options' events' workspace').1 := by
  induction hAlike generalizing workspace workspace' with
  | nil => rfl
  | @cons event event' events events' hFirst _ ih =>
      obtain ⟨hEvent, hRest⟩ := forall_requests_cons.mp hEvents
      have hEvent' : ∀ request, event'.request? = some request → Q request := by
        rw [← hFirst.request?_eq]
        exact hEvent
      have hReply := fst_perform_congr hPure hCollisionFree hOptimize hFirst hEvent h h'
      exact congrArg₂ List.cons hReply
        (ih hRest (hKeeps.perform hEvent h) (hKeeps.perform hEvent' h'))

end Agreement

/-- Two compilers with a host whose answers do not change, one that keeps conversions for
one time and one that keeps them for another or not at all, reply alike to all requests
there are, in whatever order they come: with the same failures, and with expressions that
are the same in every environment. It is enough that there are numbers left for the ids of
registries, and that no two suppliers of these requests share a fingerprint. -/
theorem replies_do_not_show_cache {made : List Registry} {catalog : Catalog}
    (hMade : catalog.History made) (hIssued : catalog.issued < UInt64.size)
    (hPure : host.IsPure) (hOptimize : options.optimize = options'.optimize)
    {events events' : List (Event σ)} (hAlike : List.Forall₂ Event.Alike events events')
    (hEvents : ∀ request ∈ requests events, request.profile.registry ∈ made)
    (hCollisionFree : Set.InjOn Fingerprint.ofText
      {source | ∃ request ∈ requests events, host.Generates request source}) (s s' : σ) :
    (run host options events (start options s)).1 =
      (run host options' events' (start options' s')).1 := by
  have hKeyed : ∀ request other, request ∈ requests events → other ∈ requests events →
      Key.ofRequest other = Key.ofRequest request →
      ∀ s s', answer host s other = answer host s' request := by
    intro request other hRequest hOther hKey
    exact answer_eq_of_key_eq hPure hMade hIssued (hEvents other hOther)
      (hEvents request hRequest) hKey
  have hKeeps := keeps_agrees hPure hCollisionFree hKeyed
  exact fst_run_congr hPure hCollisionFree hOptimize hKeeps hAlike (fun _ hMem => hMem)
    (Cache.agrees_empty _) (Cache.agrees_empty _)

/-- A host that always answers by one script. Each answer takes a millisecond. -/
def timed (script : Script) : Host Nat where
  clock := id
  compileUnit unit := fun now => (script.compileUnit unit, now + 1)
  compileProfile profile := fun now =>
    (Script.compileSupport script.profile (Host.profileHandle profile) "profile_object", now + 1)
  compileUtilities profile _ := fun now =>
    (Script.compileSupport script.utilities (Host.utilitiesHandle profile) "utils", now + 1)
  compileExpression request := fun now => (script.compileExpression request, now + 1)
  diagnose request := fun now => (script.diagnose request, now + 1)
  reset := fun now => (.ok (), now + 1)

theorem isPure_timed (script : Script) : (timed script).IsPure where
  compileUnit _ _ _ := rfl
  compileProfile profile profile' hName _ _ := by
    simp only [timed, Host.profileHandle, hName]
  compileUtilities profile profile' hName _ _ _ := by
    simp only [timed, Host.utilitiesHandle, hName]
  compileExpression _ _ _ := rfl
  diagnose _ _ _ := rfl

/-- A number that may be absent, and is. -/
def noNumber : Request where
  profile := { name := "shared", context := .any }
  text := ""
  isTemplate := true
  result := .optional .integer

/-- Two requests and one of them again, after some time and a purge. -/
def askedAgain (pause : Nat) : List (Event Nat) :=
  [.compile (fortyTwo .standard), .compile noNumber, .elapse pause, .purge,
    .diagnose (fortyTwo strictRegistry), .compile (fortyTwo .standard)]

/-- The source of a supplier, with the usual names for the code of the profile. -/
def usualSource (request : Request) (conversion : Conversion) : String :=
  supplierSource request conversion (Host.profileHandle request.profile)
    (Host.utilitiesHandle request.profile)

/-- The host of the example generates the usual source and no other. -/
theorem generates_timed {request : Request} {source : String}
    (h : (timed {}).Generates request source) :
    ∃ conversion, request.profile.registry.get? request.result = some conversion ∧
      source = usualSource request conversion := by
  obtain ⟨conversion, profile, utilities, s, after, hSome, ⟨middle, hProfile, hUtilities⟩, rfl⟩ := h
  cases hProfile
  cases hUtilities
  exact ⟨conversion, hSome, rfl⟩

/-- Two sources are generated in the run of the example. -/
theorem eq_usualSource_of_generates {request : Request} (hMem : request ∈ requests (askedAgain 0))
    {source : String} (h : (timed {}).Generates request source) :
    source = usualSource (fortyTwo .standard) ⟨false, .integer⟩ ∨
      source = usualSource noNumber ⟨true, .integer⟩ := by
  obtain ⟨conversion, hSome, rfl⟩ := generates_timed h
  simp only [requests, askedAgain, List.filterMap_cons, Event.request?, List.filterMap_nil,
    List.mem_cons, List.not_mem_nil, or_false] at hMem
  rcases hMem with rfl | rfl | rfl | rfl
  · have hConversion : ⟨false, .integer⟩ = conversion := Option.some.inj hSome
    exact .inl (by rw [hConversion])
  · have hConversion : ⟨true, .integer⟩ = conversion := Option.some.inj hSome
    exact .inr (by rw [hConversion])
  · have hConversion : ⟨false, .reject "StrictError" "integers are not accepted"⟩ = conversion :=
      Option.some.inj hSome
    rw [← hConversion]
    exact .inl (by decide +kernel)
  · have hConversion : ⟨false, .integer⟩ = conversion := Option.some.inj hSome
    exact .inl (by rw [hConversion])

/-- The usual idle time and one after which entries expire at once give the same replies. -/
theorem replies_do_not_show_cache_askedAgain :
    (run (timed {}) {} (askedAgain 0) (start {} 0)).1 =
      (run (timed {}) { idle := 0 } (askedAgain 1000) (start { idle := 0 } 5)).1 := by
  have hAlike : List.Forall₂ Event.Alike (askedAgain 0) (askedAgain 1000) :=
    .cons (.same _) (.cons (.same _) (.cons (.elapse _ _) (.cons (.same _)
      (.cons (.same _) (.cons (.same _) .nil)))))
  have hDistinct : Fingerprint.ofText (usualSource (fortyTwo .standard) ⟨false, .integer⟩) ≠
      Fingerprint.ofText (usualSource noNumber ⟨true, .integer⟩) := by decide +kernel
  have hCollisionFree : Set.InjOn Fingerprint.ofText
      {source | ∃ request ∈ requests (askedAgain 0), (timed {}).Generates request source} := by
    intro source ⟨request, hMem, hSource⟩ other ⟨request', hMem', hOther⟩ hSame
    rcases eq_usualSource_of_generates hMem hSource with rfl | rfl <;>
      rcases eq_usualSource_of_generates hMem' hOther with rfl | rfl
    · rfl
    · exact absurd hSame hDistinct
    · exact absurd hSame.symm hDistinct
    · rfl
  have hEvents : ∀ request ∈ requests (askedAgain 0), request.profile.registry ∈
      [.standard, .standard, .standard, .standard, strictRegistry] := by
    simp only [requests, askedAgain, List.filterMap_cons, Event.request?, List.filterMap_nil,
      List.forall_mem_cons]
    simp [fortyTwo, noNumber]
  have hOptimize : ({} : Options).optimize = ({ idle := 0 } : Options).optimize := rfl
  exact replies_do_not_show_cache history_strictRegistry (by decide) (isPure_timed {}) hOptimize
    hAlike hEvents hCollisionFree 0 5

end Compiler
end TemplateCompiler
