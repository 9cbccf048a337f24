import Mathlib.Data.Set.Function
import TemplateCompiler.Proofs.Compiler.Runs
import TemplateCompiler.Proofs.Conversion.Catalog

/-! Look-ups with a host whose answers do not change. Each request has one answer then,
the one that it gets when nothing is held and nothing is loaded. Entries and units are
nothing but answers that were given before. -/
namespace TemplateCompiler

open Conversion

/-- The answers of a host do not depend on its state, and what it has for a profile depends
on the name of the profile only. Nothing is said of the states that it gets into. -/
structure Host.IsPure {σ : Type} (host : Host σ) : Prop where
  compileUnit : ∀ unit s s', (host.compileUnit unit s).1 = (host.compileUnit unit s').1
  compileProfile : ∀ profile profile' : Profile, profile.name = profile'.name → ∀ s s',
    (host.compileProfile profile s).1 = (host.compileProfile profile' s').1
  compileUtilities : ∀ profile profile' : Profile, profile.name = profile'.name →
    ∀ header s s', (host.compileUtilities profile header s).1 =
      (host.compileUtilities profile' header s').1
  compileExpression : ∀ request s s',
    (host.compileExpression request s).1 = (host.compileExpression request s').1
  diagnose : ∀ request s s', (host.diagnose request s).1 = (host.diagnose request s').1

/-- A source is the one of a supplier for the request. -/
def Host.Generates {σ : Type} (host : Host σ) (request : Request) (source : String) : Prop :=
  ∃ conversion profile utilities s after,
    request.profile.registry.get? request.result = some conversion ∧
    Supports host request s profile utilities after ∧
    source = supplierSource request conversion profile utilities

namespace Conversion
variable {σ : Type}

/-- The descriptor that the host has in a state, if no supplier is loaded. -/
def supply (host : Host σ) (s : σ) (request : Request) (conversion : Conversion) :
    Except CompileError Descriptor := do
  let profile ← (host.compileProfile request.profile s).1
  let utilities ← (host.compileUtilities request.profile request.header s).1
  let unit := supplierUnit request conversion profile utilities
  let supplier ← (host.compileUnit unit s).1
  return ⟨conversion, supplier.name, unit.fingerprint⟩

/-- The outcome of a request in a state of the host, if nothing is held. -/
def answer (host : Host σ) (s : σ) (request : Request) : Except CompileError Outcome :=
  match request.profile.registry.get? request.result with
  | none => .ok (.error (.notRegistered request.result))
  | some conversion => settle (supply host s request conversion)

/-- The units that are loaded are what the host makes of sources of these requests, and
the outcomes that are held are the answers to all of them that have the key. -/
structure Cache.Agrees (host : Host σ) (Q : Request → Prop) (cache : Cache) : Prop where
  units : ∀ fingerprint supplier, cache.units.get? fingerprint = some supplier →
    ∃ request source, Q request ∧ host.Generates request source ∧
      Fingerprint.ofText source = fingerprint ∧
      ∀ s, (host.compileUnit (.ofSource "ConversionSupplier" source) s).1 = .ok supplier
  entries : ∀ key entry, cache.entries.get? key = some entry →
    ∀ request, Q request → Key.ofRequest request = key →
      ∀ s, answer host s request = .ok entry.outcome

variable {host : Host σ} {Q : Request → Prop} {made : List Registry} {catalog : Catalog}
  {request : Request} {conversion : Conversion} {workspace after : Workspace σ}

/-- An empty cache agrees with every host. -/
theorem Cache.agrees_empty (idle : Nat) : (Cache.empty idle).Agrees host Q := by
  constructor
  · intro fingerprint supplier hLoaded
    cases hLoaded
  · intro key entry hEntry
    cases hEntry

section Pure
variable (hPure : host.IsPure)
include hPure

/-- A descriptor depends on the request by what its key holds of it, and by the conversion
only. -/
theorem supply_congr {request' : Request} (hName : request.profile.name = request'.profile.name)
    (hHeader : request.header = request'.header) (hResult : request.result = request'.result)
    (conversion : Conversion) (s s' : σ) :
    supply host s request conversion = supply host s' request' conversion := by
  have hUnit : supplierUnit request conversion = supplierUnit request' conversion := by
    funext profile utilities
    unfold supplierUnit supplierSource
    rw [hHeader, hResult]
  rw [supply, supply, hPure.compileProfile _ _ hName s s', hHeader,
    hPure.compileUtilities _ _ hName _ s s', hUnit]
  cases (host.compileProfile request'.profile s').1 with
  | error => rfl
  | ok profile =>
      cases (host.compileUtilities request'.profile request'.header s').1 with
      | error => rfl
      | ok utilities =>
          simp only [bind, Except.bind]
          rw [hPure.compileUnit _ s s']

/-- Requests with the same key have the same answer, from whatever registry they come. -/
theorem answer_eq_of_key_eq (hMade : catalog.History made)
    (hIssued : catalog.issued < UInt64.size) {request' : Request}
    (hr : request.profile.registry ∈ made) (hr' : request'.profile.registry ∈ made)
    (hKey : Key.ofRequest request = Key.ofRequest request') (s s' : σ) :
    answer host s request = answer host s' request' := by
  have hRegistered := hMade.get?_eq_of_key_eq hIssued hr hr' hKey
  simp only [Key.ofRequest, Key.mk.injEq] at hKey
  obtain ⟨hName, _, hResult, hHeader⟩ := hKey
  rw [answer, answer, hRegistered]
  cases request'.profile.registry.get? request'.result with
  | none => rw [hResult]
  | some conversion =>
      exact congrArg settle (supply_congr hPure hName hHeader hResult conversion s s')

/-- With the code that the host has for the profile, compiling the supplier decides. -/
theorem supply_of_supports {profile utilities : Handle} {first later : σ}
    (hSupports : Supports host request first profile utilities later) (conversion : Conversion)
    (s : σ) :
    supply host s request conversion =
      (host.compileUnit (supplierUnit request conversion profile utilities) s).1.map
        fun supplier => ⟨conversion, supplier.name,
          (supplierUnit request conversion profile utilities).fingerprint⟩ := by
  obtain ⟨middle, hProfile, hUtilities⟩ := hSupports
  rw [supply, hPure.compileProfile _ _ rfl s first, hProfile,
    hPure.compileUtilities _ _ rfl _ s middle, hUtilities]
  simp only [bind, Except.bind]
  cases (host.compileUnit (supplierUnit request conversion profile utilities) s).1 <;> rfl

/-- A supplier that is loaded makes no difference, since it is what compiling the source
again would give. -/
theorem Supplied.eq_supply {result : Except CompileError Descriptor}
    (h : Supplied host request conversion workspace result after)
    (hRegistered : request.profile.registry.get? request.result = some conversion)
    (hLoaded : ∀ source supplier, host.Generates request source →
      workspace.cache.units.get? (Fingerprint.ofText source) = some supplier →
      ∀ s, (host.compileUnit (.ofSource "ConversionSupplier" source) s).1 = .ok supplier)
    (s : σ) : result = supply host s request conversion := by
  cases h with
  | noProfile hProfile =>
      rw [supply, hPure.compileProfile _ _ rfl s workspace.host, hProfile]
      rfl
  | @noUtilities _ _ middle _ hProfile hUtilities =>
      rw [supply, hPure.compileProfile _ _ rfl s workspace.host, hProfile,
        hPure.compileUtilities _ _ rfl _ s middle, hUtilities]
      rfl
  | reused hSupports hUnit hHeld =>
      subst hUnit
      have hCompile := hLoaded _ _ ⟨_, _, _, _, _, hRegistered, hSupports, rfl⟩ hHeld s
      rw [supply_of_supports hPure hSupports, supplierUnit, hCompile]
      rfl
  | @failed _ _ _ _ later _ hSupports hUnit _ hCompile
  | @loaded _ _ _ _ later _ hSupports hUnit _ hCompile =>
      subst hUnit
      rw [supply_of_supports hPure hSupports, hPure.compileUnit _ s later, hCompile]
      rfl

section Agreement
variable
  (hCollisionFree : Set.InjOn Fingerprint.ofText
    {source | ∃ request, Q request ∧ host.Generates request source})
  (hRequest : Q request)
include hCollisionFree hRequest

/-- What a look-up finds is the answer to the request, whatever is held and loaded. -/
theorem LookedUp.eq_answer {result : Except CompileError Outcome}
    (h : LookedUp host request workspace result after) (hAgrees : workspace.cache.Agrees host Q)
    (s : σ) : result = answer host s request := by
  have hSupply : ∀ {conversion : Conversion} {supplied : Except CompileError Descriptor}
      {last : Workspace σ}, request.profile.registry.get? request.result = some conversion →
      Supplied host request conversion (vacated request workspace) supplied last →
      answer host s request = settle supplied := by
    intro conversion supplied last hSome hSupplied
    have hLoaded : ∀ source supplier, host.Generates request source →
        (vacated request workspace).cache.units.get? (Fingerprint.ofText source) =
          some supplier →
        ∀ s, (host.compileUnit (.ofSource "ConversionSupplier" source) s).1 = .ok supplier := by
      intro source supplier hSource hHeld
      obtain ⟨other, text, hOther, hText, hSame, hCompile⟩ :=
        hAgrees.units _ _ (Cache.get?_units_of_vacate hHeld)
      rw [← hCollisionFree ⟨other, hOther, hText⟩ ⟨request, hRequest, hSource⟩ hSame]
      exact hCompile
    rw [answer, hSome, hSupplied.eq_supply hPure hSome hLoaded s]
  cases h with
  | @hit entry hFresh =>
      have hEntry := Cache.get?_of_fresh? hFresh
      exact (hAgrees.entries _ entry hEntry request hRequest rfl s).symm
  | unregistered hNone => rw [answer, hNone]
  | supplied hSome hSupplied | rejected hSome hSupplied => exact (hSupply hSome hSupplied).symm
  | @failed _ e _ hSome hSupplied hFatal =>
      rw [hSupply hSome hSupplied]
      cases e with
      | rejected => exact absurd hFatal id
      | host | conversion | aborted => rfl

/-- A look-up leaves a cache that agrees with the host in agreement with it. -/
theorem agrees_lookup (h : workspace.cache.Agrees host Q)
    (hKeyed : ∀ other, Q other → Key.ofRequest other = Key.ofRequest request →
      ∀ s s', answer host s other = answer host s' request) :
    (lookup host request workspace).2.cache.Agrees host Q := by
  have hLookedUp := lookedUp_lookup host request workspace
  constructor
  · intro fingerprint supplier hLoaded
    rcases hLookedUp.get?_units hLoaded with
      hOld | ⟨conversion, profile, utilities, middle, later, hSome, hSupports, rfl, hCompile⟩
    · exact h.units fingerprint supplier hOld
    · refine ⟨request, supplierSource request conversion profile utilities, hRequest,
        ⟨conversion, profile, utilities, _, _, hSome, hSupports, rfl⟩, rfl, fun s => ?_⟩
      rw [hPure.compileUnit _ s middle]
      exact congrArg Prod.fst hCompile
  · intro key entry hEntry other hOther hKey s
    rcases hLookedUp.get?_entries hEntry with hOld | ⟨rfl, hResult⟩
    · exact h.entries key entry hOld other hOther hKey s
    · rw [hKeyed other hOther hKey s s, ← hResult]
      exact (hLookedUp.eq_answer hPure hCollisionFree hRequest h s).symm

end Agreement

/-- Every cache that can be reached agrees with the host, if no two of the sources have the same
fingerprint. -/
theorem keeps_agrees
    (hCollisionFree : Set.InjOn Fingerprint.ofText
      {source | ∃ request, Q request ∧ host.Generates request source})
    (hKeyed : ∀ request other, Q request → Q other →
      Key.ofRequest other = Key.ofRequest request →
      ∀ s s', answer host s other = answer host s' request) :
    Compiler.Keeps host (Cache.Agrees host Q) Q where
  lookup request _ hRequest h := agrees_lookup hPure hCollisionFree hRequest h
    fun other hOther => hKeyed request other hRequest hOther
  purge cache now h := by
    constructor
    · intro fingerprint supplier hLoaded
      exact h.units fingerprint supplier (Cache.get?_units_of_purge hLoaded)
    · intro key entry hEntry
      exact h.entries key entry (Cache.get?_entries_of_purge hEntry)
  empty := Cache.agrees_empty

end Pure

end Conversion
end TemplateCompiler
