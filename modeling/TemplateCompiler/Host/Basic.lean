import TemplateCompiler.Compiled
import TemplateCompiler.Action
import TemplateCompiler.Request
import TemplateCompiler.SourceUnit

/-! The general compiler that the template compiler stands in front of. -/
namespace TemplateCompiler

/-- A compiler for all expressions, with a state of its own. Nothing is assumed of its
answers. -/
structure Host (σ : Type) where
  /-- The time, in milliseconds. -/
  clock : σ → Nat
  /-- Compile and load a generated source. -/
  compileUnit : SourceUnit → Action σ Handle
  /-- Code for a profile, to which generated sources refer. -/
  compileProfile : Profile → Action σ Handle
  /-- Code for the expressions of a profile under a header. -/
  compileUtilities : Profile → String → Action σ Handle
  /-- Compile any request. Spans of diagnostics are counted in the text of the request. -/
  compileExpression : Request → Action σ Evaluator
  /-- The diagnostics of a request, without compiling it. -/
  diagnose : Request → Action σ (List Diagnostic)
  /-- Forget whatever was kept. -/
  reset : Action σ Unit

namespace Host
variable {σ : Type}

/-- The usual name of the code for a profile. -/
def profileHandle (profile : Profile) : Handle := ⟨profile.name ++ "Profile"⟩

/-- The usual name of the code for the expressions of a profile. -/
def utilitiesHandle (profile : Profile) : Handle := ⟨profile.name ++ "Utils"⟩

/-- What the host alone makes of a request. -/
def compile (host : Host σ) (request : Request) : Action σ Compiled := do
  return .delegated (← host.compileExpression request)

end Host

/-- One thing that was asked of a host. -/
inductive Call where
  | unit (source : SourceUnit)
  | profile (profile : Profile)
  | utilities (profile : Profile) (header : String)
  | expression (request : Request)
  | diagnostics (request : Request)
  | reset

namespace Host
variable {σ α : Type}

/-- Write a call down before it is answered. -/
def record (call : Call) (answer : Action σ α) : Action (σ × List Call) α := fun (s, calls) =>
  match answer s with
  | (result, after) => (result, after, calls ++ [call])

/-- A call is recorded with whatever comes of it. -/
theorem record_eq {x : Action σ α} {s after : σ} {result : Except CompileError α}
    (h : x s = (result, after)) (call : Call) (calls : List Call) :
    record call x (s, calls) = (result, after, calls ++ [call]) := by
  simp only [record, h]

/-- The same host with a list of the calls it received, oldest first. -/
def recorded (host : Host σ) : Host (σ × List Call) where
  clock := fun (s, _) => host.clock s
  compileUnit unit := record (.unit unit) (host.compileUnit unit)
  compileProfile profile := record (.profile profile) (host.compileProfile profile)
  compileUtilities profile header :=
    record (.utilities profile header) (host.compileUtilities profile header)
  compileExpression request := record (.expression request) (host.compileExpression request)
  diagnose request := record (.diagnostics request) (host.diagnose request)
  reset := record .reset host.reset

end Host
end TemplateCompiler
