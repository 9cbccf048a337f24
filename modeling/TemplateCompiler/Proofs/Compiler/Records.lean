import TemplateCompiler.Proofs.Compiler.Nesting
import TemplateCompiler.Proofs.Compiler.Runs

/-! Hosts that write something down. Beside the state of the host there is a record then,
which no answer depends on. With the record left out, a compiler does what it does without
one, so what the record says of a run is said of the run without it. -/
namespace TemplateCompiler

/-- The workspace without the record. -/
def Workspace.plain {σ ρ : Type} (workspace : Workspace (σ × ρ)) : Workspace σ :=
  ⟨workspace.host.1, workspace.cache⟩

namespace Action
variable {σ τ α β : Type} {f : τ → σ}

/-- A step on a larger state that comes to another step on the part of it that is shown. -/
def Shows (f : τ → σ) (x' : Action τ α) (x : Action σ α) : Prop :=
  ∀ t, ((x' t).1, f (x' t).2) = x (f t)

namespace Shows

theorem pure (a : α) : Shows f (Pure.pure a) (Pure.pure a) := fun _ => rfl

theorem ofExcept (result : Except CompileError α) :
    Shows f (Action.ofExcept result) (Action.ofExcept result) := fun _ => rfl

/-- What shows of a sequence is the sequence of what shows. -/
theorem bind {x' : Action τ α} {x : Action σ α} {g' : α → Action τ β} {g : α → Action σ β}
    (hFirst : Shows f x' x) (hRest : ∀ a, Shows f (g' a) (g a)) :
    Shows f (x' >>= g') (x >>= g) := by
  intro t
  have hStep := hFirst t
  cases hResult : x' t with
  | mk result after =>
      rw [hResult] at hStep
      cases result with
      | error e => rw [bind_of_error hResult, bind_of_error hStep.symm]
      | ok a =>
          rw [bind_of_ok hResult, bind_of_ok hStep.symm]
          exact hRest a after

/-- An action that reads the whole state shows if it does not depend on what is hidden. -/
theorem state_bind {g' : τ → Action τ β} {g : σ → Action σ β}
    (hRest : ∀ t, Shows f (g' t) (g (f t))) : Shows f (state >>= g') (state >>= g) :=
  fun t => hRest t t

theorem attempt {x' : Action τ α} {x : Action σ α} (h : Shows f x' x) :
    Shows f x'.attempt x.attempt := by
  intro t
  simp only [Action.attempt, ← h t]

theorem mapError {x' : Action τ α} {x : Action σ α} (h : Shows f x' x)
    (change : CompileError → CompileError) : Shows f (x'.mapError change) (x.mapError change) := by
  intro t
  simp only [Action.mapError, ← h t]

/-- What shows of a row of attempts are the attempts of what shows. -/
theorem attemptEach {act' : α → Action τ β} {act : α → Action σ β}
    (h : ∀ a, Shows f (act' a) (act a)) (row : List α) :
    Shows f (Action.attemptEach act' row) (Action.attemptEach act row) := by
  induction row with
  | nil => exact pure []
  | cons a rest ih =>
      refine bind (h a).attempt fun outcome => ?_
      cases outcome with
      | ok => exact bind ih fun _ => pure _
      | error e =>
          cases e with
          | rejected => exact bind ih fun _ => pure _
          | host | conversion | aborted => exact pure _

/-- A record beside the host is hidden along with it. -/
theorem onHost {ρ : Type} {x' : Action (σ × ρ) α} {x : Action σ α} (h : Shows Prod.fst x' x) :
    Shows Workspace.plain (Workspace.onHost x') (Workspace.onHost x) := by
  intro workspace
  have hStep := h workspace.host
  simp only [Workspace.onHost, within, Workspace.plain, ← hStep]

theorem onCache {ρ : Type} (change : Conversion.Cache → Conversion.Cache) :
    Shows (Workspace.plain : Workspace (σ × ρ) → Workspace σ) (Workspace.onCache change)
      (Workspace.onCache change) := fun _ => rfl

end Shows
end Action

open TemplateCompiler.Action

/-- A host with a record beside its state, which no answer depends on. -/
structure Host.Records {σ ρ : Type} (host' : Host (σ × ρ)) (host : Host σ) : Prop where
  clock : ∀ s, host'.clock s = host.clock s.1
  compileUnit : ∀ unit, Shows Prod.fst (host'.compileUnit unit) (host.compileUnit unit)
  compileProfile : ∀ profile,
    Shows Prod.fst (host'.compileProfile profile) (host.compileProfile profile)
  compileUtilities : ∀ profile header,
    Shows Prod.fst (host'.compileUtilities profile header) (host.compileUtilities profile header)
  compileExpression : ∀ request,
    Shows Prod.fst (host'.compileExpression request) (host.compileExpression request)
  diagnose : ∀ request, Shows Prod.fst (host'.diagnose request) (host.diagnose request)
  reset : Shows Prod.fst host'.reset host.reset

namespace Host.Records
variable {σ ρ : Type} {host' : Host (σ × ρ)} {host : Host σ} (h : host'.Records host)
include h

/-- Loading a supplier looks through a record of the calls. -/
theorem shows_loadSupplier (request : Request) (conversion : Conversion) :
    Shows Workspace.plain (Conversion.loadSupplier host' request conversion)
      (Conversion.loadSupplier host request conversion) := by
  refine .bind (h.compileProfile _).onHost fun profile => ?_
  refine .bind (h.compileUtilities _ _).onHost fun utilities => ?_
  refine .state_bind fun workspace => ?_
  dsimp only [Workspace.plain]
  split
  · exact .pure _
  · exact .bind (h.compileUnit _).onHost fun supplier => .bind (.onCache _) fun _ => .pure _

theorem shows_resolve (request : Request) :
    Shows Workspace.plain (Conversion.resolve host' request)
      (Conversion.resolve host request) := by
  rw [Conversion.resolve, Conversion.resolve]
  split
  · exact .pure _
  · refine .bind (h.shows_loadSupplier _ _).attempt fun result => ?_
    split
    · exact .pure _
    · exact .pure _
    · exact .ofExcept _

/-- A look-up comes to the same with and without a record. -/
theorem shows_lookup (request : Request) :
    Shows Workspace.plain (Conversion.lookup host' request)
      (Conversion.lookup host request) := by
  refine .state_bind fun before => ?_
  dsimp only [Workspace.plain]
  rw [h.clock]
  generalize before.cache.use (host.clock before.host.1) (Conversion.Key.ofRequest request) = used
  refine .bind (.onCache _) fun _ => ?_
  cases used.1 with
  | some outcome => exact .pure _
  | none =>
      refine .bind (.onCache _) fun _ => .bind (h.shows_resolve request) fun outcome => ?_
      refine .state_bind fun after => ?_
      rw [h.clock]
      exact .bind (.onCache _) fun _ => .pure _

theorem shows_delegate (request : Request) :
    Shows Workspace.plain (Compiler.delegate host' request) (Compiler.delegate host request) :=
  .mapError (.onHost (.bind (h.compileExpression request) fun _ => .pure _)) _

theorem shows_compileLiteral (request : Request) (text : String) :
    Shows Workspace.plain (Compiler.compileLiteral host' request text)
      (Compiler.compileLiteral host request text) := by
  rw [Compiler.compileLiteral, Compiler.compileLiteral]
  split
  · exact .pure _
  · refine .bind (h.shows_lookup request) fun outcome => ?_
    split
    · exact .bind (.ofExcept _) fun _ => .pure _
    · exact h.shows_delegate request

variable {options : Options}

/-- Compiling comes to the same with and without a record. -/
theorem shows_compile (request : Request) :
    Shows Workspace.plain (Compiler.compile host' options request)
      (Compiler.compile host options request) := by
  cases hOptimized : request.isOptimized options with
  | false =>
      rw [Compiler.compile_of_not_isOptimized host' hOptimized,
        Compiler.compile_of_not_isOptimized host hOptimized]
      exact h.shows_delegate request
  | true =>
      obtain ⟨_, template, hText, _⟩ := Template.exists_ofText? request.text
      cases hShape : template.shape with
      | literal text =>
          rw [Compiler.compile_of_literal host' hOptimized hText hShape,
            Compiler.compile_of_literal host hOptimized hText hShape]
          exact h.shows_compileLiteral request text
      | wrapper p =>
          rw [Compiler.compile_of_wrapper host' hOptimized hText hShape,
            Compiler.compile_of_wrapper host hOptimized hText hShape]
          exact h.shows_delegate request
      | mixed =>
          -- the placeholders are delegated on both sides, so there is nothing to descend into
          rw [Compiler.compile_of_mixed_eq_delegate hOptimized hText hShape,
            Compiler.compile_of_mixed_eq_delegate hOptimized hText hShape]
          split
          · refine .bind (.attemptEach (fun p => h.shows_delegate _) _) fun outcomes => ?_
            exact .bind (.ofExcept _) fun _ => .pure _
          · exact h.shows_delegate request

theorem shows_diagnose (request : Request) :
    Shows Workspace.plain (Compiler.diagnose host' options request)
      (Compiler.diagnose host options request) := by
  refine .bind ((h.diagnose request).onHost.mapError _) fun found => ?_
  split
  · exact .pure _
  · split
    · exact .ofExcept _
    · split
      · refine .bind (h.shows_lookup request) fun outcome => ?_
        split
        · exact .ofExcept _
        · exact .pure _
      · exact .pure _

end Host.Records

variable {σ ρ : Type}

/-- The same event. What happens to the host by itself leaves the record alone. -/
def Event.beside (record : ρ) : Event σ → Event (σ × ρ)
  | compile request => compile request
  | diagnose request => diagnose request
  | lookup request => lookup request
  | purge => purge
  | clear => clear
  | reset => reset
  | elapse s => elapse (s, record)

namespace Compiler
variable {host' : Host (σ × ρ)} {host : Host σ} {options : Options}

/-- A run of a host with a record. -/
def runBeside (host' : Host (σ × ρ)) (options : Options) :
    List (Event σ) → Workspace (σ × ρ) → List Reply × Workspace (σ × ρ)
  | [], workspace => ([], workspace)
  | event :: events, workspace =>
    let (reply, middle) := perform host' options workspace (event.beside workspace.host.2)
    let (replies, after) := runBeside host' options events middle
    (reply :: replies, after)

/-- Without the record, an event with a record is the event itself. -/
theorem plain_perform (h : host'.Records host) (event : Event σ) (workspace : Workspace (σ × ρ)) :
    (perform host' options workspace (event.beside workspace.host.2)).map id Workspace.plain =
      perform host options workspace.plain event := by
  have hMap : ∀ {α : Type} {x' : Action (Workspace (σ × ρ)) α} {x : Action (Workspace σ) α}
      (reply : Except CompileError α → Reply), Shows Workspace.plain x' x →
      ((x' workspace).map reply id).map id Workspace.plain =
        (x workspace.plain).map reply id := by
    intro α x' x reply hShows
    rw [← hShows workspace]
    rfl
  cases event with
  | compile request => exact hMap .compiled (h.shows_compile request)
  | diagnose request => exact hMap .diagnosed (h.shows_diagnose request)
  | lookup request => exact hMap .found (h.shows_lookup request)
  | purge =>
      change (Reply.silent, Workspace.plain { workspace with cache := _ }) = _
      rw [h.clock]
      rfl
  | clear => rfl
  | reset =>
      have hReset := h.reset.onHost { workspace with cache := workspace.cache.clear }
      exact congrArg (Prod.mk Reply.silent) (congrArg Prod.snd hReset)
  | elapse => rfl

/-- With the record left out, a run is the run without a record. -/
theorem plain_runBeside (h : host'.Records host) (options : Options) (events : List (Event σ))
    (workspace : Workspace (σ × ρ)) :
    (runBeside host' options events workspace).map id Workspace.plain =
      run host options events workspace.plain := by
  induction events generalizing workspace with
  | nil => rfl
  | cons event events ih =>
      rw [run, ← plain_perform h, runBeside]
      simp only [Prod.map_fst, Prod.map_snd, id_eq, ← ih]
      rfl

end Compiler
end TemplateCompiler
