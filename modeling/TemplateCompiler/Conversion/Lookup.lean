import TemplateCompiler.Conversion.Cache
import TemplateCompiler.Host.Basic

/-! Looking up the conversion of a request: in the cache, or else in the registry of
its profile and with the help of the host. -/
namespace TemplateCompiler

/-- The state of a host with the conversions that were found with its help. -/
structure Workspace (σ : Type) where
  host : σ
  cache : Conversion.Cache

namespace Workspace
variable {σ α : Type}

/-- A step of the host, which leaves the cache alone. -/
def onHost (x : Action σ α) : Action (Workspace σ) α :=
  x.within Workspace.host fun workspace host => { workspace with host := host }

/-- A change of the cache, which leaves the host alone. -/
def onCache (f : Conversion.Cache → Conversion.Cache) : Action (Workspace σ) Unit :=
  .update fun workspace => { workspace with cache := f workspace.cache }

end Workspace

namespace Conversion
variable {σ : Type}

open Workspace

/-- The text of the supplier of a conversion. It names the code that the host compiled
for the profile, the type, and whether the value may be absent. -/
def supplierSource (request : Request) (conversion : Conversion) (profile utilities : Handle) :
    String :=
  "// generated conversion supplier\n" ++ request.header ++ "\nuse " ++ profile.name ++
    ";\nuse " ++ utilities.name ++ ";\nsupply " ++ request.result.display ++ " from literal" ++
    (if conversion.nullable then " or absent" else "") ++ ";\n"

def supplierUnit (request : Request) (conversion : Conversion) (profile utilities : Handle) :
    SourceUnit :=
  .ofSource "ConversionSupplier" (supplierSource request conversion profile utilities)

/-- Have the host compile the supplier of a conversion, unless a unit with the same
source is loaded already. The code for the profile is compiled in either case. -/
def loadSupplier (host : Host σ) (request : Request) (conversion : Conversion) :
    Action (Workspace σ) Descriptor := do
  let profile ← onHost (host.compileProfile request.profile)
  let utilities ← onHost (host.compileUtilities request.profile request.header)
  let unit := supplierUnit request conversion profile utilities
  let workspace ← Action.state
  match workspace.cache.units.get? unit.fingerprint with
  | some supplier => return ⟨conversion, supplier.name, unit.fingerprint⟩
  | none =>
    let supplier ← onHost (host.compileUnit unit)
    onCache fun cache => cache.load unit.fingerprint supplier
    return ⟨conversion, supplier.name, unit.fingerprint⟩

/-- Find out whether a request has a conversion. A type that is not registered is
settled without the host, and a supplier that is rejected is an answer too. All other
failures are passed on. -/
def resolve (host : Host σ) (request : Request) : Action (Workspace σ) Outcome :=
  match request.profile.registry.get? request.result with
  | none => pure (.error (.notRegistered request.result))
  | some conversion => do
    match ← (loadSupplier host request conversion).attempt with
    | .ok descriptor => return .ok descriptor
    | .error (.rejected rejection) => return .error (.supplierFailed rejection)
    | .error e => Action.fail e

/-- The conversion of a request, from the cache if it holds a fresh entry. Otherwise
unused units are released first, and what was found is kept. A failure that was
passed on is not kept. -/
def lookup (host : Host σ) (request : Request) : Action (Workspace σ) Outcome := do
  let key := Key.ofRequest request
  let before ← Action.state
  let (known, cache) := before.cache.use (host.clock before.host) key
  onCache fun _ => cache
  match known with
  | some outcome => return outcome
  | none =>
    onCache Cache.release
    let outcome ← resolve host request
    let after ← Action.state
    onCache fun cache => cache.keep (host.clock after.host) key outcome
    return outcome

end Conversion
end TemplateCompiler
