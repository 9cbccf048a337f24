import TemplateCompiler.Proofs.Compiler.Literals
import TemplateCompiler.Proofs.Conversion.Answers
import TemplateCompiler.Proofs.Conversion.Calls
import TemplateCompiler.Proofs.Conversion.Correspondence

/-! Suppliers that are used again. A look-up removes the entry of its own key if this has
expired, and no other entry, before units are released. What counts is therefore whether
an entry of another key refers to the supplier, be it expired or not. Only a purge tells
the two apart. -/
namespace TemplateCompiler

namespace Conversion

namespace Cache

/-- An entry of another key refers to the unit, be it expired or not. -/
def RefersElsewhere (cache : Cache) (key : Key) (fingerprint : Fingerprint) : Prop :=
  ∃ other entry descriptor, other ≠ key ∧ cache.entries.get? other = some entry ∧
    entry.outcome = .ok descriptor ∧ descriptor.unit = fingerprint

/-- An entry that can still be used refers to the unit. -/
def RefersFresh (cache : Cache) (now : Nat) (fingerprint : Fingerprint) : Prop :=
  ∃ key entry descriptor, cache.fresh? now key = some entry ∧
    entry.outcome = .ok descriptor ∧ descriptor.unit = fingerprint

variable {cache : Cache} {now : Nat} {key : Key} {fingerprint : Fingerprint}

/-- After a key was vacated, what is referred to is what other keys refer to. -/
theorem refers_vacate_iff :
    (cache.vacate key).Refers fingerprint ↔ cache.RefersElsewhere key fingerprint := by
  constructor
  · rintro ⟨descriptor, ⟨other, entry, hEntry, hOutcome⟩, hUnit⟩
    rw [get?_entries_vacate] at hEntry
    split at hEntry
    · cases hEntry
    · rename_i hOther
      exact ⟨other, entry, descriptor, hOther, hEntry, hOutcome, hUnit⟩
  · rintro ⟨other, entry, descriptor, hOther, hEntry, hOutcome, hUnit⟩
    refine ⟨descriptor, ⟨other, entry, ?_, hOutcome⟩, hUnit⟩
    rwa [get?_entries_vacate, if_neg hOther]

/-- After a purge the entries that can still be used are the ones that count. A key without
such an entry has none at all. -/
theorem refersElsewhere_purge_iff (hNone : cache.fresh? now key = none) :
    (cache.purge now).RefersElsewhere key fingerprint ↔ cache.RefersFresh now fingerprint := by
  simp only [RefersElsewhere, RefersFresh, get?_entries_purge]
  constructor
  · rintro ⟨other, entry, descriptor, _, hFound⟩
    exact ⟨other, entry, descriptor, hFound⟩
  · rintro ⟨other, entry, descriptor, hFresh, hFound⟩
    refine ⟨other, entry, descriptor, ?_, hFresh, hFound⟩
    rintro rfl
    rw [hNone] at hFresh
    cases hFresh

/-- Without idle time no entry can be used again, so nothing fresh refers to a unit. -/
theorem not_refersFresh (hIdle : cache.idle = 0) : ¬cache.RefersFresh now fingerprint := by
  rintro ⟨key, entry, descriptor, hFresh, _⟩
  rw [fresh?_eq_none_of_idle hIdle] at hFresh
  cases hFresh

end Cache

variable {σ : Type} {host : Host σ} {Q : Request → Prop} {request : Request}
  {conversion : Conversion} {workspace after : Workspace σ} {unit : SourceUnit}

namespace Reaches
variable (h : Reaches host request workspace unit) (hCache : workspace.cache.Corresponds)
include h hCache

/-- A look-up that reaches the supplier reuses it exactly if an entry of another key refers to
its unit, be it expired or not: only the own entry was vacated. -/
theorem reuses_iff :
    Reuses host request workspace ↔
      workspace.cache.RefersElsewhere (Key.ofRequest request) unit.fingerprint := by
  rw [← Cache.refers_vacate_iff, ← (hCache.vacate _).mem_units_iff]
  rcases h.reuses_or_compiles with ⟨hReuses, hLoaded⟩ | ⟨hCompiles, hNot⟩
  · exact iff_of_true hReuses hLoaded
  · exact iff_of_false hCompiles.not_reuses hNot

/-- A look-up that reaches the supplier has it compiled exactly if no entry of another key refers
to its unit. -/
theorem compiles_iff :
    Compiles host request workspace unit ↔
      ¬workspace.cache.RefersElsewhere (Key.ofRequest request) unit.fingerprint := by
  rw [← Cache.refers_vacate_iff, ← (hCache.vacate _).mem_units_iff]
  rcases h.reuses_or_compiles with ⟨hReuses, hLoaded⟩ | ⟨hCompiles, hNot⟩
  · exact iff_of_false (fun hCompiles => hCompiles.not_reuses hReuses) (not_not_intro hLoaded)
  · exact iff_of_true hCompiles hNot

end Reaches

/-- The unit of every descriptor that is held was generated for a request with its key. -/
def Cache.Generated (host : Host σ) (Q : Request → Prop) (cache : Cache) : Prop :=
  ∀ key entry descriptor, cache.entries.get? key = some entry → entry.outcome = .ok descriptor →
    ∃ request source, Q request ∧ Key.ofRequest request = key ∧
      host.Generates request source ∧ Fingerprint.ofText source = descriptor.unit

/-- The unit of a descriptor has the fingerprint of a source that was generated for the
request. -/
theorem Supplied.generates {descriptor : Descriptor}
    (h : Supplied host request conversion workspace (.ok descriptor) after)
    (hSome : request.profile.registry.get? request.result = some conversion) :
    ∃ source, host.Generates request source ∧ Fingerprint.ofText source = descriptor.unit := by
  cases h with
  | reused hSupports hUnit | loaded hSupports hUnit =>
      subst hUnit
      exact ⟨_, ⟨_, _, _, _, _, hSome, hSupports, rfl⟩, rfl⟩

/-- Every unit that is held was generated for one of the requests. -/
theorem keeps_generated (host : Host σ) (Q : Request → Prop) :
    Compiler.Keeps host (Cache.Generated host Q) Q := by
  refine keeps_eachHeld fun request hRequest => ?_
  intro conversion workspace descriptor after hSome hSupplied
  obtain ⟨source, hSource, hUnit⟩ := hSupplied.generates hSome
  exact ⟨request, source, hRequest, rfl, hSource, hUnit⟩

end Conversion

namespace Compiler
variable {σ : Type}

open Conversion

/-- In the course of any run, a look-up that gets as far as the supplier uses one that is
loaded exactly if an entry of another key refers to it, and an entry that has expired counts
like any other. Otherwise it compiles the supplier, once. If a purge comes right before it,
only entries that have not expired count, so that nothing is used again with an idle time
of zero. Without a purge this takes that no other key has generated the same source. -/
theorem supplier_reused_iff_refersElsewhere (host : Host σ) (options : Options)
    (events : List (Event σ)) (s : σ) (request : Request) (now : σ) (unit : SourceUnit)
    (hReaches : Reaches host request ⟨now, cacheAfter host options events s⟩ unit) :
    let key := Key.ofRequest request
    let cache := cacheAfter host options events s
    let purged := cache.purge (host.clock now)
    (Reuses host request ⟨now, cache⟩ ↔ cache.RefersElsewhere key unit.fingerprint) ∧
    (Compiles host request ⟨now, cache⟩ unit ↔ ¬cache.RefersElsewhere key unit.fingerprint) ∧
    (Reuses host request ⟨now, purged⟩ ↔ cache.RefersFresh (host.clock now) unit.fingerprint) ∧
    (Compiles host request ⟨now, purged⟩ unit ↔
      ¬cache.RefersFresh (host.clock now) unit.fingerprint) ∧
    (options.idle = 0 → Compiles host request ⟨now, purged⟩ unit) ∧
    ((∀ other ∈ requests events, Key.ofRequest other ≠ key →
        ∀ source, host.Generates other source → Fingerprint.ofText source ≠ unit.fingerprint) →
      Compiles host request ⟨now, cache⟩ unit) := by
  intro key cache purged
  have hCache : cache.Corresponds := (keeps_corresponds host).cacheAfter (fun _ _ => trivial) s
  have hNone : cache.fresh? (host.clock now) key = none := hReaches.1
  -- a purge takes nothing away that could be used, so the look-up gets as far as before
  have hPurged : Reaches host request ⟨now, purged⟩ unit :=
    ⟨Cache.fresh?_purge.trans hNone, hReaches.2⟩
  have hReuses := hPurged.reuses_iff (hCache.purge _)
  have hCompiles := hPurged.compiles_iff (hCache.purge _)
  rw [Cache.refersElsewhere_purge_iff hNone] at hReuses hCompiles
  refine ⟨hReaches.reuses_iff hCache, hReaches.compiles_iff hCache, hReuses, hCompiles, ?_, ?_⟩
  · intro hIdle
    exact hCompiles.mpr (Cache.not_refersFresh ((idle_cacheAfter events s).trans hIdle))
  · intro hOther
    refine (hReaches.compiles_iff hCache).mpr ?_
    rintro ⟨key', entry, descriptor, hKey, hEntry, hOutcome, hUnit⟩
    have hGenerated : cache.Generated host (· ∈ requests events) :=
      (keeps_generated host _).cacheAfter (fun _ hMem => hMem) s
    obtain ⟨other, source, hMem, rfl, hSource, hSame⟩ :=
      hGenerated key' entry descriptor hEntry hOutcome
    exact hOther other hMem hKey source hSource (hSame.trans hUnit)

/-- The supplier of the number 42, which is the same for all registries that agree on whether
it may be absent. -/
def fortyTwoSupplier (registry : Registry) (conversion : Conversion) : SourceUnit :=
  supplierUnit (fortyTwo registry) conversion (Host.profileHandle (fortyTwo registry).profile)
    (Host.utilitiesHandle (fortyTwo registry).profile)

/-- After any events, the example gets as far as its supplier. -/
theorem fortyTwo_reaches {registry : Registry} {conversion : Conversion}
    (hSome : registry.get? .integer = some conversion) (events : List (Event Script)) :
    Reaches Host.scripted (fortyTwo registry)
      ⟨{}, cacheAfter Host.scripted { idle := 0 } events {}⟩
      (fortyTwoSupplier registry conversion) :=
  ⟨Cache.fresh?_eq_none_of_idle (idle_cacheAfter events _), conversion, _, _, _, hSome,
    ⟨_, rfl, rfl⟩, rfl⟩

/-- An expired entry of the same key is not used again. -/
theorem supplier_reused_iff_refersElsewhere_fortyTwo :
    Compiles Host.scripted (fortyTwo .standard)
      ⟨{}, cacheAfter Host.scripted { idle := 0 } [.lookup (fortyTwo .standard)] {}⟩
      (fortyTwoSupplier .standard ⟨false, .integer⟩) := by
  obtain ⟨_, _, _, _, _, hCompiles⟩ := supplier_reused_iff_refersElsewhere Host.scripted
    { idle := 0 } [.lookup (fortyTwo .standard)] {} (fortyTwo .standard) {}
    (fortyTwoSupplier .standard ⟨false, .integer⟩) (fortyTwo_reaches rfl _)
  refine hCompiles ?_
  intro other hMem hKey
  obtain rfl : other = fortyTwo .standard := by simpa [requests, Event.request?] using hMem
  exact absurd rfl hKey

/-- An expired entry of another key is enough for a supplier to be used again, although no
entry can be used at all. -/
theorem expired_supplier_reused :
    let cache := cacheAfter Host.scripted { idle := 0 } [.lookup (fortyTwo .standard)] {}
    let unit := fortyTwoSupplier strictRegistry
      ⟨false, .reject "StrictError" "integers are not accepted"⟩
    Reaches Host.scripted (fortyTwo strictRegistry) ⟨{}, cache⟩ unit ∧
      ¬cache.RefersFresh 0 unit.fingerprint ∧
      Reuses Host.scripted (fortyTwo strictRegistry) ⟨{}, cache⟩ ∧
      ¬Compiles Host.scripted (fortyTwo strictRegistry) ⟨{}, cache⟩ unit := by
  intro cache unit
  have hReaches : Reaches Host.scripted (fortyTwo strictRegistry) ⟨{}, cache⟩ unit :=
    fortyTwo_reaches rfl _
  have hLoaded : unit.fingerprint ∈
      (cache.vacate (Key.ofRequest (fortyTwo strictRegistry))).units.keys := by decide +kernel
  have hReuses : Reuses Host.scripted (fortyTwo strictRegistry) ⟨{}, cache⟩ := by
    rcases hReaches.reuses_or_compiles with ⟨hReuses, _⟩ | ⟨_, hNot⟩
    · exact hReuses
    · exact absurd hLoaded hNot
  exact ⟨hReaches, Cache.not_refersFresh (idle_cacheAfter _ _), hReuses,
    fun hCompiles => hCompiles.not_reuses hReuses⟩

end Compiler
end TemplateCompiler
