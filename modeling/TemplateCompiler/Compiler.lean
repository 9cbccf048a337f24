import TemplateCompiler.Conversion.Literal
import TemplateCompiler.Conversion.Lookup

/-! The template compiler. It takes over the templates that it can compile without the
host, or piece by piece with the host's help:

* a template without placeholders is a constant, converted to the result type if need be;
* literals mixed with placeholders are compiled placeholder by placeholder, if the
  result type accepts text.

Everything else goes to the host as it is. -/
namespace TemplateCompiler

structure Options where
  /-- How long a conversion is kept without being used, in milliseconds. -/
  idle : Nat := 600000
  /-- Whether any request is taken over at all. -/
  optimize : Bool := true
  deriving DecidableEq, Repr

namespace Request

/-- Whether the template compiler looks at a request. It leaves setters alone. -/
def isOptimized (r : Request) (options : Options) : Bool :=
  options.optimize && r.isTemplate && !r.isSetter

/-- Count diagnostics of the host in the source of a request. If no offset moves, they
stay as they are, the line included. -/
def locate (r : Request) (diagnostics : List Diagnostic) : List Diagnostic :=
  if r.map.isIdentity then diagnostics
  else diagnostics.map fun d => d.relocate r.map r.source

/-- The same for a failure. The source of a rejection becomes that of the request. -/
def locateError (r : Request) : CompileError → CompileError
  | .rejected rejection =>
    if r.map.isIdentity then .rejected rejection
    else .rejected ⟨r.locate rejection.diagnostics, r.source⟩
  | e => e

end Request

namespace Compiler
variable {σ : Type}

open Workspace

/-- Hand a request to the host. -/
def delegate (host : Host σ) (request : Request) : Action (Workspace σ) Compiled :=
  (onHost (host.compile request)).mapError request.locateError

/-- Compile a template without placeholders. Text needs no conversion, and empty text
is the absent value. If there is no conversion, the host may still be able to read
the text in its own way. -/
def compileLiteral (host : Host σ) (request : Request) (text : String) :
    Action (Workspace σ) Compiled :=
  if request.result.acceptsText then
    pure (.constant (if text = "" then .null else .text text))
  else do
    match ← Conversion.lookup host request with
    | .ok descriptor =>
      return .constant (← Action.ofExcept (descriptor.conversion.fold request text))
    | .error _ => delegate host request

/-- Compile a request. Placeholders are compiled by the same rules as whole requests;
they are shorter than the template around them, so this comes to an end. -/
def compile (host : Host σ) (options : Options) (request : Request) :
    Action (Workspace σ) Compiled :=
  if request.isOptimized options then
    match _ : Template.ofText? request.text with
    | none => .fail .aborted
    | some template =>
      match _ : template.shape with
      | .literal text => compileLiteral host request text
      | .wrapper _ => delegate host request
      | .mixed =>
        if request.result.acceptsText then do
          let outcomes ← Action.attemptEach
            (fun p => compile host options (request.ofPlaceholder p.val))
            template.placeholders.attach
          let expressions ← Action.ofExcept (combine request.source outcomes)
          return .interpolation template.literals expressions
        else delegate host request
  else delegate host request
termination_by request.text.utf8ByteSize
decreasing_by
  refine Template.utf8ByteSize_text_lt_of_mixed ?_ ?_ p.property
  · assumption
  · assumption

/-- Without optimization a request goes to the host as it is. -/
theorem compile_of_not_isOptimized (host : Host σ) {options : Options} {request : Request}
    (h : request.isOptimized options = false) :
    compile host options request = delegate host request := by
  rw [compile, h]
  rfl

/-- A template without placeholders is compiled as its one literal. -/
theorem compile_of_literal (host : Host σ) {options : Options} {request : Request}
    {template : Template} {text : String} (h : request.isOptimized options = true)
    (hText : Template.ofText? request.text = some template)
    (hShape : template.shape = .literal text) :
    compile host options request = compileLiteral host request text := by
  rw [compile, if_pos h]
  split
  · simp_all
  · rename_i found hFound
    obtain rfl : found = template := by simp_all
    split <;> simp_all

/-- A placeholder with nothing around it is left to the host. -/
theorem compile_of_wrapper (host : Host σ) {options : Options} {request : Request}
    {template : Template} {p : Placeholder String} (h : request.isOptimized options = true)
    (hText : Template.ofText? request.text = some template)
    (hShape : template.shape = .wrapper p) :
    compile host options request = delegate host request := by
  rw [compile, if_pos h]
  split
  · simp_all
  · rename_i found hFound
    obtain rfl : found = template := by simp_all
    split <;> simp_all

/-- A mixed template is compiled placeholder by placeholder if its result accepts text,
and is left to the host otherwise. -/
theorem compile_of_mixed (host : Host σ) {options : Options} {request : Request}
    {template : Template} (h : request.isOptimized options = true)
    (hText : Template.ofText? request.text = some template) (hShape : template.shape = .mixed) :
    compile host options request =
      if request.result.acceptsText then do
        let outcomes ← Action.attemptEach
          (fun p => compile host options (request.ofPlaceholder p)) template.placeholders
        let expressions ← Action.ofExcept (combine request.source outcomes)
        return .interpolation template.literals expressions
      else delegate host request := by
  rw [compile, if_pos h]
  split
  · simp_all
  · rename_i found hFound
    obtain rfl : found = template := by simp_all
    split
    · simp_all
    · simp_all
    · congr 2
      exact Action.attemptEach_attach _ fun p => compile host options (request.ofPlaceholder p)

/-- The diagnostics of a request. Those of the host come first; only if there are none
is a literal converted, as it would be when compiling. -/
def diagnose (host : Host σ) (options : Options) (request : Request) :
    Action (Workspace σ) (List Diagnostic) := do
  let found ← (onHost (host.diagnose request)).mapError request.locateError
  if !found.isEmpty || !request.isOptimized options || request.result.acceptsText then
    return request.locate found
  else
    match Template.ofText? request.text with
    | none => .fail .aborted
    | some template =>
      match template.shape with
      | .literal text =>
        match ← Conversion.lookup host request with
        | .ok descriptor => Action.ofExcept (descriptor.conversion.check request text)
        | .error _ => return []
      | _ => return []

/-- Forget all conversions, then have the host forget what it kept. -/
def reset (host : Host σ) : Action (Workspace σ) Unit := do
  onCache Conversion.Cache.clear
  onHost host.reset

/-- Remove expired conversions. -/
def purge (host : Host σ) : Action (Workspace σ) Unit :=
  .update fun workspace =>
    { workspace with cache := workspace.cache.purge (host.clock workspace.host) }

end Compiler
end TemplateCompiler
