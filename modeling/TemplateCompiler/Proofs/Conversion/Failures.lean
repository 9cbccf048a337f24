import TemplateCompiler.Proofs.Compiler.Literals
import TemplateCompiler.Proofs.Conversion.Calls
import TemplateCompiler.Proofs.Conversion.Correspondence

/-! Look-ups that come to nothing. By the time the host fails, an expired entry of the key has
been removed and units may have been released, and the host may fail in three places. All
that is ever gone afterwards is what had expired under the key itself. A rejection is no
failure: it is an outcome and is kept like one. -/
namespace TemplateCompiler

namespace Conversion

/-- A cache that was looked up in vain. Nothing is held under the key and no unit was added,
the entries of other keys are as they were, and so are the units that they refer to. If
nothing had been held under the key, nothing has changed at all. -/
structure Cache.Unfilled (before : Cache) (key : Key) (after : Cache) : Prop where
  get?_key : after.entries.get? key = none
  get?_units : ∀ fingerprint supplier, after.units.get? fingerprint = some supplier →
    before.units.get? fingerprint = some supplier
  get?_other : ∀ other, other ≠ key → after.entries.get? other = before.entries.get? other
  get?_unit_of_other : ∀ other entry descriptor, other ≠ key →
    before.entries.get? other = some entry → entry.outcome = .ok descriptor →
      after.units.get? descriptor.unit = before.units.get? descriptor.unit
  eq_of_get?_eq_none : before.entries.get? key = none → after = before

/-- To vacate its key is all that a look-up in vain comes to. -/
theorem Cache.Corresponds.unfilled_vacate {cache : Cache} (h : cache.Corresponds) (key : Key) :
    cache.Unfilled key (cache.vacate key) where
  get?_key := by rw [get?_entries_vacate, if_pos rfl]
  get?_units _ _ := get?_units_of_vacate
  get?_other other hOther := by rw [get?_entries_vacate, if_neg hOther]
  get?_unit_of_other other entry descriptor hOther hEntry hOutcome := by
    apply Option.ext
    intro supplier
    refine ⟨get?_units_of_vacate, fun hLoaded => ?_⟩
    refine get?_units_release.mpr ⟨hLoaded, descriptor, ⟨other, entry, ?_, hOutcome⟩, rfl⟩
    rw [Table.get?_erase, if_neg hOther]
    exact hEntry
  eq_of_get?_eq_none := h.vacate_eq

variable {σ : Type} {host : Host σ} {request : Request} {conversion : Conversion}
  {workspace after : Workspace σ} {e : CompileError}

/-- If loading a supplier fails, the cache is what it was. -/
theorem Supplied.cache_eq_of_error
    (h : Supplied host request conversion workspace (.error e) after) :
    after.cache = workspace.cache := by
  cases h <;> rfl

/-- A look-up fails with none but the failures that are not rejections. -/
theorem isFatal_of_lookup_eq_error (h : lookup host request workspace = (.error e, after)) :
    e.IsFatal := by
  have hLookedUp := lookedUp_lookup host request workspace
  rw [h] at hLookedUp
  generalize hResult : (.error e : Except CompileError Outcome) = result at hLookedUp
  cases hLookedUp with
  | hit | unregistered | supplied | rejected => cases hResult
  | failed _ _ hFatal =>
      cases hResult
      exact hFatal

section Failing
variable
  (hNone : workspace.cache.fresh? (host.clock workspace.host) (Key.ofRequest request) = none)
  (hSome : request.profile.registry.get? request.result = some conversion)
include hNone hSome

/-- What comes of loading the supplier is the result of the look-up. -/
theorem lookup_of_supplied {result : Except CompileError Descriptor}
    (hSupplied : Supplied host request conversion (vacated request workspace) result after) :
    lookup host request workspace =
      match settle result with
      | .ok outcome => (.ok outcome, kept host request outcome after)
      | .error e => (.error e, after) := by
  have hLoad := hSupplied.loadSupplier_eq
  rw [lookup_of_fresh?_eq_none hNone, resolve_of_registered hSome]
  rw [vacated] at hLoad
  rw [hLoad]
  cases settle result <;> rfl

/-- A supplier that is rejected is held as unavailable. -/
theorem lookup_of_rejected {rejection : Rejection}
    (hSupplied : Supplied host request conversion (vacated request workspace)
      (.error (.rejected rejection)) after) :
    lookup host request workspace = (.ok (.error (.supplierFailed rejection)),
      kept host request (.error (.supplierFailed rejection)) after) :=
  lookup_of_supplied hNone hSome hSupplied

/-- A fatal error of the host ends a look-up, and nothing is held. -/
theorem lookup_of_fatal (hFatal : e.IsFatal)
    (hSupplied : Supplied host request conversion (vacated request workspace) (.error e) after) :
    lookup host request workspace = (.error e, after) := by
  rw [lookup_of_supplied hNone hSome hSupplied]
  cases e with
  | rejected => exact absurd hFatal id
  | host | conversion | aborted => rfl

end Failing

/-- A cache without the entry of a key is looked up as the cache itself, once the entry can
no longer be used. -/
theorem lookup_vacate_of_fresh?_eq_none {cache : Cache} {s : σ} (hCache : cache.Corresponds)
    (hNone : cache.fresh? (host.clock s) (Key.ofRequest request) = none) :
    lookup host request ⟨s, cache.vacate (Key.ofRequest request)⟩ =
      lookup host request ⟨s, cache⟩ := by
  have hVacant : (cache.vacate (Key.ofRequest request)).entries.get? (Key.ofRequest request) =
      none := (hCache.unfilled_vacate _).get?_key
  have hFirst : lookup host request ⟨s, cache.vacate (Key.ofRequest request)⟩ = _ :=
    lookup_of_get?_eq_none (hCache.vacate (Key.ofRequest request)) hVacant
  have hLookup : lookup host request ⟨s, cache⟩ = _ := lookup_of_fresh?_eq_none hNone
  rw [hFirst, hLookup]
  rfl

end Conversion

namespace Compiler
variable {σ : Type}

open Conversion

/-- In the course of any run, a look-up never ends in a rejection. If one of the three calls
for a supplier is rejected, this is the outcome and it is kept. If one fails otherwise or
breaks off, so does the look-up, in the very same way and without a trace: nothing was kept
and no unit added, and at most the entry that had expired under the key is gone, with the
unit to which only it referred. The next look-up of the key is a first one, with the calls
of a first one, and finds what it would have found if none had failed. -/
theorem failed_lookup_leaves_no_trace (host : Host σ) (options : Options)
    (events : List (Event σ)) (s : σ) (request : Request) (now : σ) :
    (∀ rejection, (lookup host request ⟨now, cacheAfter host options events s⟩).1 ≠
      .error (.rejected rejection)) ∧
    ∀ conversion e after,
      (cacheAfter host options events s).fresh? (host.clock now) (Key.ofRequest request) = none →
      request.profile.registry.get? request.result = some conversion →
      Supplied host request conversion
        (vacated request ⟨now, cacheAfter host options events s⟩) (.error e) after →
      (∀ rejection, e = .rejected rejection →
        lookup host request ⟨now, cacheAfter host options events s⟩ =
          (.ok (.error (.supplierFailed rejection)), ⟨after.host,
            after.cache.keep (host.clock after.host) (Key.ofRequest request)
              (.error (.supplierFailed rejection))⟩)) ∧
      (e.IsFatal →
        lookup host request ⟨now, cacheAfter host options events s⟩ = (.error e, after) ∧
        (cacheAfter host options events s).Unfilled (Key.ofRequest request) after.cache ∧
        ∀ other, Key.ofRequest other = Key.ofRequest request → ∀ later calls,
          (lookup host.recorded other ⟨(later, calls), after.cache⟩).2.host.2 =
            calls ++ firstCalls host other after.cache.units later ∧
          ((cacheAfter host options events s).fresh? (host.clock later) (Key.ofRequest other) =
              none →
            lookup host.recorded other ⟨(later, calls), after.cache⟩ =
              lookup host.recorded other
                ⟨(later, calls), cacheAfter host options events s⟩)) := by
  have hCache : (cacheAfter host options events s).Corresponds :=
    (keeps_corresponds host).cacheAfter (fun _ _ => trivial) s
  generalize cacheAfter host options events s = cache at hCache ⊢
  refine ⟨?_, ?_⟩
  · intro rejection hRejected
    exact isFatal_of_lookup_eq_error (Prod.ext hRejected rfl)
  · intro conversion e after hNone hSome hSupplied
    refine ⟨?_, fun hFatal => ⟨?_, ?_, ?_⟩⟩
    · rintro rejection rfl
      exact lookup_of_rejected hNone hSome hSupplied
    · exact lookup_of_fatal hNone hSome hFatal hSupplied
    · rw [hSupplied.cache_eq_of_error]
      exact hCache.unfilled_vacate (Key.ofRequest request)
    · intro other hKey later calls
      -- after the failure the cache is the vacated one, so only the own entry can be missed
      rw [hSupplied.cache_eq_of_error]
      dsimp only [vacated]
      rw [← hKey]
      have hVacated := hCache.vacate (Key.ofRequest other)
      have hVacant := (hCache.unfilled_vacate (Key.ofRequest other)).get?_key
      refine ⟨?_, @lookup_vacate_of_fresh?_eq_none _ host.recorded other cache (later, calls) hCache⟩
      rw [lookup_recorded_of_fresh?_eq_none (by rw [Cache.fresh?, hVacant, Option.filter_none]),
        hVacated.vacate_eq hVacant]

/-- Two registries share a supplier, and both entries have expired. -/
def expiredCache : Cache :=
  cacheAfter Host.scripted { idle := 0 }
    [.lookup (fortyTwo .standard), .lookup (fortyTwo strictRegistry)] {}

/-- The code for the profile gets another name, so that there is a new supplier to compile,
and compiling it breaks off. -/
theorem failed_lookup_leaves_no_trace_fortyTwo :
    let now : Script := { profile := .name "Renamed", unit := .abort }
    (lookup Host.scripted (fortyTwo .standard) ⟨now, expiredCache⟩).1 = .error .aborted ∧
      expiredCache.Unfilled (Key.ofRequest (fortyTwo .standard))
        (lookup Host.scripted (fortyTwo .standard) ⟨now, expiredCache⟩).2.cache := by
  intro now
  have hIdle : expiredCache.idle = 0 := idle_cacheAfter _ _
  have hNone : expiredCache.fresh? 0 (Key.ofRequest (fortyTwo .standard)) = none :=
    Cache.fresh?_eq_none_of_idle hIdle
  have hLoaded : (vacated (fortyTwo .standard) ⟨now, expiredCache⟩).cache.units.get?
      (supplierUnit (fortyTwo .standard) ⟨false, .integer⟩ ⟨"Renamed"⟩
        (Host.utilitiesHandle (fortyTwo .standard).profile)).fingerprint = none := by
    decide +kernel
  obtain ⟨_, hFailed⟩ := failed_lookup_leaves_no_trace Host.scripted { idle := 0 }
    [.lookup (fortyTwo .standard), .lookup (fortyTwo strictRegistry)] {} (fortyTwo .standard) now
  obtain ⟨hLookup, hUnfilled, _⟩ := (hFailed ⟨false, .integer⟩ .aborted _ hNone rfl
    (.failed ⟨_, rfl, rfl⟩ rfl hLoaded rfl)).2 trivial
  exact ⟨congrArg Prod.fst hLookup, hLookup ▸ hUnfilled⟩

end Compiler
end TemplateCompiler
