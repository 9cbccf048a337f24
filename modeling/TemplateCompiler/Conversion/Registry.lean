import TemplateCompiler.Conversion.Basic
import TemplateCompiler.Table

/-! Registries of conversions, and their ids. An id names the contents of a registry:
a copy keeps it, and every registration issues a new one. All registries that hold
exactly the standard conversions share one id. -/
namespace TemplateCompiler

/-- What a registry is recognised by. -/
structure RegistryId where
  number : UInt64
  deriving DecidableEq, Repr

namespace RegistryId

/-- The id of the registries that hold exactly the standard conversions. -/
def standard : RegistryId := ⟨0⟩

/-- The id that is issued after so many others. Numbers run out: then they start again,
with the one that is shared. -/
def issued (earlier : Nat) : RegistryId := ⟨UInt64.ofNat (earlier + 1)⟩

end RegistryId

/-- The types that literals can be converted to, in the order of their first
registration. -/
structure Registry where
  id : RegistryId
  conversions : Table ValueType Conversion

namespace Registry

/-- Integers, floats and booleans, and the same with an absent value. -/
def standardConversions : Table ValueType Conversion :=
  .ofList [
    (.integer, ⟨false, .integer⟩),
    (.float, ⟨false, .float⟩),
    (.boolean, ⟨false, .boolean⟩),
    (.optional .integer, ⟨true, .integer⟩),
    (.optional .float, ⟨true, .float⟩),
    (.optional .boolean, ⟨true, .boolean⟩)]

def standard : Registry := ⟨.standard, standardConversions⟩

def get? (r : Registry) (type : ValueType) : Option Conversion := r.conversions.get? type

def contains (r : Registry) (type : ValueType) : Bool := r.conversions.contains type

def types (r : Registry) : List ValueType := r.conversions.keys

end Registry

/-- Registries by number, in the order in which they were made, and how many ids have
been issued. -/
structure Catalog where
  registries : List Registry
  issued : Nat

namespace Catalog

def empty : Catalog := ⟨[], 0⟩

/-- What can be done to a catalog. -/
inductive Operation where
  /-- Add a registry without conversions, under a new id. -/
  | create
  /-- Add a registry with the standard conversions. They are registered one by one, and the
  ids issued for that are given up for the shared one. -/
  | createStandard
  /-- Add a copy of a registry. -/
  | copy (index : Nat)
  /-- Register a conversion, in place of any other for the same type. -/
  | register (index : Nat) (type : ValueType) (conversion : Conversion)

/-- Perform an operation. There is no result if it names a registry that does not exist. -/
def perform? (c : Catalog) : Operation → Option Catalog
  | .create => some ⟨c.registries ++ [⟨.issued c.issued, .empty⟩], c.issued + 1⟩
  | .createStandard =>
    some ⟨c.registries ++ [.standard], c.issued + 1 + Registry.standardConversions.size⟩
  | .copy index => do
    let r ← c.registries[index]?
    return { c with registries := c.registries ++ [r] }
  | .register index type conversion => do
    let r ← c.registries[index]?
    let changed := ⟨.issued c.issued, r.conversions.insert type conversion⟩
    return ⟨c.registries.set index changed, c.issued + 1⟩

end Catalog
end TemplateCompiler
