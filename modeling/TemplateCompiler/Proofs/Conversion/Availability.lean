import TemplateCompiler.Proofs.Compiler.Runs
import TemplateCompiler.Proofs.Conversion.Catalog

/-! Hosts that never fail to deliver code. With such a host no failure is ever kept for a
type that is registered, and every look-up of the type finds what is registered. -/
namespace TemplateCompiler

variable {σ : Type} {host : Host σ}

/-- The host compiles all code that is asked of it for profiles and suppliers. What it makes
of expressions is left open. -/
structure Host.Delivers (host : Host σ) : Prop where
  profile : ∀ profile s, ∃ handle after, host.compileProfile profile s = (.ok handle, after)
  utilities : ∀ profile header s,
    ∃ handle after, host.compileUtilities profile header s = (.ok handle, after)
  unit : ∀ unit s, ∃ handle after, host.compileUnit unit s = (.ok handle, after)

namespace Conversion
variable {made : List Registry} {catalog : Catalog} {request : Request} {conversion : Conversion}
  {workspace after : Workspace σ}

/-- A host that delivers makes every supplier available. -/
theorem Supplied.exists_descriptor {result : Except CompileError Descriptor}
    (h : Supplied host request conversion workspace result after) (hHost : host.Delivers) :
    ∃ descriptor, result = .ok descriptor ∧ descriptor.conversion = conversion := by
  cases h with
  | noProfile hProfile =>
      obtain ⟨_, _, hDelivered⟩ := hHost.profile request.profile workspace.host
      cases hDelivered.symm.trans hProfile
  | @noUtilities _ _ middle _ _ hUtilities =>
      obtain ⟨_, _, hDelivered⟩ := hHost.utilities request.profile request.header middle
      cases hDelivered.symm.trans hUtilities
  | @failed _ _ unit _ middle _ _ _ _ hCompile =>
      obtain ⟨_, _, hDelivered⟩ := hHost.unit unit middle
      cases hDelivered.symm.trans hCompile
  | reused | loaded => exact ⟨_, rfl, rfl⟩

/-- Whatever request an entry is found by, it holds the conversion that this request has
registered, if it has any. -/
def Cache.Available (made : List Registry) (cache : Cache) : Prop :=
  ∀ key entry, cache.entries.get? key = some entry →
    ∀ request : Request, request.profile.registry ∈ made → Key.ofRequest request = key →
      ∀ conversion, request.profile.registry.get? request.result = some conversion →
        ∃ descriptor, entry.outcome = .ok descriptor ∧ descriptor.conversion = conversion

/-- With a host that delivers, every conversion that is registered is found. -/
theorem LookedUp.exists_descriptor {result : Except CompileError Outcome}
    (h : LookedUp host request workspace result after) (hHost : host.Delivers)
    (hAvailable : workspace.cache.Available made) (hRequest : request.profile.registry ∈ made)
    (hSome : request.profile.registry.get? request.result = some conversion) :
    ∃ descriptor, result = .ok (.ok descriptor) ∧ descriptor.conversion = conversion := by
  cases h with
  | @hit entry hFresh =>
      obtain ⟨descriptor, hOutcome, hConversion⟩ := hAvailable _ entry
        (Cache.get?_of_fresh? hFresh) request hRequest rfl conversion hSome
      exact ⟨descriptor, congrArg Except.ok hOutcome, hConversion⟩
  | unregistered hNone => cases hSome.symm.trans hNone
  | supplied hFound hSupplied =>
      cases hSome.symm.trans hFound
      exact ⟨_, rfl, hSupplied.conversion_eq⟩
  | rejected _ hSupplied | failed _ hSupplied =>
      obtain ⟨_, hDescriptor, _⟩ := hSupplied.exists_descriptor hHost
      cases hDescriptor

/-- With a host that delivers, no entry ever says that a conversion is not available. -/
theorem keeps_available (hMade : catalog.History made) (hIssued : catalog.issued < UInt64.size)
    (hHost : host.Delivers) :
    Compiler.Keeps host (Cache.Available made) fun request => request.profile.registry ∈ made where
  lookup request workspace hRequest h := by
    have hLookedUp := lookedUp_lookup host request workspace
    intro key entry hEntry other hOther hKey conversion hSome
    rcases hLookedUp.get?_entries hEntry with hOld | ⟨rfl, hResult⟩
    · exact h key entry hOld other hOther hKey conversion hSome
    · rw [hMade.get?_eq_of_key_eq hIssued hOther hRequest hKey] at hSome
      obtain ⟨descriptor, hFound, hConversion⟩ :=
        hLookedUp.exists_descriptor hHost h hRequest hSome
      rw [hResult] at hFound
      exact ⟨descriptor, Except.ok.inj hFound, hConversion⟩
  purge cache now h := by
    intro key entry hEntry
    exact h key entry (Cache.get?_entries_of_purge hEntry)
  empty idle := by
    intro key entry hEntry
    cases hEntry

end Conversion

/-- In the course of any run, what is registered for a request is found. -/
theorem Compiler.exists_lookup_of_run {made : List Registry} {catalog : Catalog}
    (hMade : catalog.History made) (hIssued : catalog.issued < UInt64.size)
    (hHost : host.Delivers) {options : Options} {events : List (Event σ)} {s : σ}
    {replies : List Reply} {workspace : Workspace σ}
    (hRun : run host options events (start options s) = (replies, workspace))
    (hEvents : ∀ request ∈ requests events, request.profile.registry ∈ made)
    {request : Request} (hRequest : request.profile.registry ∈ made) {conversion : Conversion}
    (hSome : request.profile.registry.get? request.result = some conversion) :
    ∃ descriptor after, Conversion.lookup host request workspace = (.ok (.ok descriptor), after) ∧
      descriptor.conversion = conversion := by
  have hAvailable : workspace.cache.Available made := by
    have hAfter : (cacheAfter host options events s).Available made :=
      (Conversion.keeps_available hMade hIssued hHost).cacheAfter hEvents s
    rwa [cacheAfter, hRun] at hAfter
  obtain ⟨descriptor, hFound, hConversion⟩ :=
    (Conversion.lookedUp_lookup host request workspace).exists_descriptor hHost hAvailable hRequest
      hSome
  exact ⟨descriptor, _, Prod.ext hFound rfl, hConversion⟩

end TemplateCompiler
