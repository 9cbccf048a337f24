import TemplateCompiler.CompileError
import TemplateCompiler.Request
import TemplateCompiler.SourceUnit

/-! Conversions that were looked up before. What is found depends on four parts of a
request, so requests that share them share one entry. That there is no conversion is
remembered like a conversion. Entries expire when they are not used for some time.

A conversion comes with a supplier, a generated source that was compiled and loaded.
Entries with the same source share one loaded supplier. -/
namespace TemplateCompiler

namespace Conversion

/-- The parts of a request that decide which conversion is found. -/
structure Key where
  profile : String
  registry : RegistryId
  result : ValueType
  header : String
  deriving DecidableEq, Repr

def Key.ofRequest (r : Request) : Key :=
  ⟨r.profile.name, r.profile.registry.id, r.result, r.header⟩

/-- A conversion that can be used, with the supplier that was loaded for it. -/
structure Descriptor where
  conversion : Conversion
  supplier : String
  unit : Fingerprint

/-- Why a request has no conversion. -/
inductive Unavailable where
  | notRegistered (type : ValueType)
  | supplierFailed (rejection : Rejection)
  deriving DecidableEq, Repr

def Unavailable.message : Unavailable → String
  | notRegistered type => "no conversion to " ++ type.display ++ " is registered"
  | supplierFailed rejection =>
    "conversion supplier failed to compile: " ++ rejection.display

abbrev Outcome := Except Unavailable Descriptor

/-- The unit that an outcome refers to. -/
def Outcome.unit? : Outcome → Option Fingerprint
  | .ok descriptor => some descriptor.unit
  | .error _ => none

/-- An outcome and the time at which it was last used. -/
structure Entry where
  outcome : Outcome
  lastUse : Nat

/-- Entries by key, and loaded suppliers by the fingerprint of their source. -/
structure Cache where
  /-- An entry that was not used for this many milliseconds has expired. -/
  idle : Nat
  entries : Table Key Entry
  units : Table Fingerprint Handle

namespace Cache

def empty (idle : Nat) : Cache := ⟨idle, .empty, .empty⟩

/-- Whether an entry can still be used. With an idle time of zero none ever can. -/
def isFresh (cache : Cache) (now : Nat) (entry : Entry) : Bool :=
  decide (now - entry.lastUse < cache.idle)

/-- Use an entry, which restarts its idle time, or remove it if it has expired. -/
def use (cache : Cache) (now : Nat) (key : Key) : Option Outcome × Cache :=
  match cache.entries.get? key with
  | none => (none, cache)
  | some entry =>
    if cache.isFresh now entry then
      (some entry.outcome, { cache with entries := cache.entries.insert key ⟨entry.outcome, now⟩ })
    else (none, { cache with entries := cache.entries.erase key })

/-- Forget the units to which no entry refers. An entry that has expired still counts
until it is removed. -/
def release (cache : Cache) : Cache :=
  let live := cache.entries.values.filterMap fun entry => entry.outcome.unit?
  { cache with units := cache.units.filter fun (fingerprint, _) => fingerprint ∈ live }

/-- Remove all expired entries, and the units to which only they referred. -/
def purge (cache : Cache) (now : Nat) : Cache :=
  release { cache with entries := cache.entries.filter fun (_, entry) => cache.isFresh now entry }

/-- Forget everything. -/
def clear (cache : Cache) : Cache := { cache with entries := .empty, units := .empty }

def keep (cache : Cache) (now : Nat) (key : Key) (outcome : Outcome) : Cache :=
  { cache with entries := cache.entries.insert key ⟨outcome, now⟩ }

def load (cache : Cache) (fingerprint : Fingerprint) (supplier : Handle) : Cache :=
  { cache with units := cache.units.insert fingerprint supplier }

end Cache

end Conversion
end TemplateCompiler
