import TemplateCompiler.Compiler

/-! What is offered to those who have requests compiled. The host offers it, and so does the
template compiler, which can be put in the host's place. -/
namespace TemplateCompiler

/-- Ways to have requests compiled and diagnosed. The states, of type `τ`, belong to the
service; they hold the state of a host, of type `σ`. -/
structure Service (σ τ : Type) where
  compile : Request → Action τ Compiled
  diagnose : Request → Action τ (List Diagnostic)
  reset : Action τ Unit
  /-- The host gets into another state by itself: time passes, or others use it. -/
  elapse : σ → τ → τ

variable {σ τ : Type}

/-- Time passes for a recorded host. The calls stay written down. -/
def Host.elapse (s : σ) : σ × List Call → σ × List Call
  | (_, calls) => (s, calls)

/-- The host alone. -/
def Host.service (host : Host τ) (elapse : σ → τ → τ) : Service σ τ where
  compile := host.compile
  diagnose := host.diagnose
  reset := host.reset
  elapse := elapse

/-- The template compiler in front of the host. -/
def Compiler.service (host : Host τ) (options : Options) (elapse : σ → τ → τ) :
    Service σ (Workspace τ) where
  compile := compile host options
  diagnose := diagnose host options
  reset := reset host
  elapse s workspace := { workspace with host := elapse s workspace.host }

namespace Service

/-- One use of a service. -/
inductive Task (σ : Type) where
  | compile (request : Request)
  | diagnose (request : Request)
  | reset
  | elapse (host : σ)

/-- What comes of it. -/
inductive Result where
  | compiled (result : Except CompileError Compiled)
  | diagnosed (result : Except CompileError (List Diagnostic))
  | reset (result : Except CompileError Unit)
  | elapsed

def Task.request? : Task σ → Option Request
  | compile request | diagnose request => some request
  | reset | elapse _ => none

def perform (service : Service σ τ) : Task σ → τ → Result × τ
  | .compile request, t => (service.compile request t).map .compiled id
  | .diagnose request, t => (service.diagnose request t).map .diagnosed id
  | .reset, t => (service.reset t).map .reset id
  | .elapse s, t => (.elapsed, service.elapse s t)

/-- The results of all tasks, and the state after the last one. -/
def run (service : Service σ τ) : List (Task σ) → τ → List Result × τ
  | [], t => ([], t)
  | task :: tasks, t =>
    let (result, middle) := service.perform task t
    let (results, after) := service.run tasks middle
    (result :: results, after)

end Service
end TemplateCompiler
