import Mathlib.Data.List.Perm.Subperm
import TemplateCompiler.Proofs.Compiler.Runs

/-! Entries and loaded units. A descriptor that is held refers to a unit that is loaded,
and a unit that is loaded is referred to. In the middle of a look-up neither is the case:
an expired entry goes before its unit does, and a unit is loaded before there is an entry
for it. Both hold again at the end, however the look-up ends. -/
namespace TemplateCompiler

namespace Conversion

namespace Cache

/-- A descriptor is the outcome of an entry, be it expired or not. -/
def Holds (cache : Cache) (descriptor : Descriptor) : Prop :=
  ∃ key entry, cache.entries.get? key = some entry ∧ entry.outcome = .ok descriptor

def Refers (cache : Cache) (fingerprint : Fingerprint) : Prop :=
  ∃ descriptor, cache.Holds descriptor ∧ descriptor.unit = fingerprint

/-- The supplier of every descriptor is the one that is loaded under its fingerprint. -/
def Supplies (cache : Cache) : Prop :=
  ∀ descriptor, cache.Holds descriptor → ∃ supplier,
    cache.units.get? descriptor.unit = some supplier ∧ supplier.name = descriptor.supplier

structure Corresponds (cache : Cache) : Prop where
  supplies : cache.Supplies
  mem_units_iff : ∀ fingerprint, fingerprint ∈ cache.units.keys ↔ cache.Refers fingerprint

variable {cache : Cache} {now : Nat} {key : Key} {outcome : Outcome} {descriptor : Descriptor}
  {fingerprint : Fingerprint}

/-- To keep an outcome adds its descriptor to what is held, if nothing else is lost under the
key. -/
theorem holds_keep_iff
    (hOld : ∀ entry, cache.entries.get? key = some entry → entry.outcome = outcome) :
    (cache.keep now key outcome).Holds descriptor ↔
      outcome = .ok descriptor ∨ cache.Holds descriptor := by
  constructor
  · rintro ⟨key', entry, hEntry, hOutcome⟩
    simp only [keep, Table.get?_insert] at hEntry
    split at hEntry
    · cases hEntry
      exact .inl hOutcome
    · exact .inr ⟨key', entry, hEntry, hOutcome⟩
  · rintro (rfl | ⟨key', entry, hEntry, hOutcome⟩)
    · exact ⟨key, ⟨.ok descriptor, now⟩, by simp [keep], rfl⟩
    · by_cases hKey : key' = key
      · subst hKey
        refine ⟨key', ⟨outcome, now⟩, by simp [keep], ?_⟩
        exact (hOld entry hEntry).symm.trans hOutcome
      · exact ⟨key', entry, by simp [keep, hKey, hEntry], hOutcome⟩

/-- The fingerprints that are collected from the entries are those that entries refer to. -/
theorem mem_live_iff :
    fingerprint ∈ cache.entries.values.filterMap (fun entry => entry.outcome.unit?) ↔
      cache.Refers fingerprint := by
  simp only [List.mem_filterMap, Table.mem_values_iff]
  constructor
  · rintro ⟨⟨outcome, lastUse⟩, ⟨key, hEntry⟩, hUnit⟩
    cases outcome with
    | ok descriptor => exact ⟨descriptor, ⟨key, _, hEntry, rfl⟩, Option.some.inj hUnit⟩
    | error => cases hUnit
  · rintro ⟨descriptor, ⟨key, entry, hEntry, hOutcome⟩, rfl⟩
    exact ⟨entry, ⟨key, hEntry⟩, by rw [hOutcome]; rfl⟩

/-- A release leaves just the units that an entry refers to. -/
theorem get?_units_release {supplier : Handle} :
    cache.release.units.get? fingerprint = some supplier ↔
      cache.units.get? fingerprint = some supplier ∧ cache.Refers fingerprint := by
  simp only [release, Table.get?_filter_eq_some_iff, decide_eq_true_eq, mem_live_iff]

/-- Releasing brings the units back in line with the entries. -/
theorem Supplies.release (h : cache.Supplies) : cache.release.Corresponds where
  supplies := by
    intro descriptor hHolds
    obtain ⟨supplier, hLoaded, hName⟩ := h descriptor hHolds
    exact ⟨supplier, get?_units_release.mpr ⟨hLoaded, descriptor, hHolds, rfl⟩, hName⟩
  mem_units_iff := by
    intro fingerprint
    simp only [Table.mem_keys_iff, get?_units_release]
    constructor
    · rintro ⟨_, _, hRefers⟩
      exact hRefers
    · rintro ⟨descriptor, hHolds, rfl⟩
      obtain ⟨supplier, hLoaded, _⟩ := h descriptor hHolds
      exact ⟨supplier, hLoaded, descriptor, hHolds, rfl⟩

/-- Forgetting entries cannot take a supplier away. -/
theorem Supplies.of_entries {entries : Table Key Entry} (h : cache.Supplies)
    (hSub : ∀ key entry, entries.get? key = some entry → cache.entries.get? key = some entry) :
    Supplies { cache with entries := entries } := by
  rintro descriptor ⟨key, entry, hEntry, hOutcome⟩
  exact h descriptor ⟨key, entry, hSub key entry hEntry, hOutcome⟩

/-- There is nothing to release. -/
theorem Corresponds.release_eq (h : cache.Corresponds) : cache.release = cache := by
  have hKeep : ∀ unit ∈ cache.units.entries,
      unit.1 ∈ cache.entries.values.filterMap (fun entry => entry.outcome.unit?) := by
    intro unit hMem
    exact mem_live_iff.mpr ((h.mem_units_iff _).mp (List.mem_map_of_mem hMem))
  have hUnits := Table.filter_eq_self fun unit hMem => decide_eq_true (hKeep unit hMem)
  rw [release]
  exact congrArg (fun units => { cache with units := units }) hUnits

/-- For a key under which nothing is held, there is nothing to make room for. -/
theorem Corresponds.vacate_eq (h : cache.Corresponds) (hNone : cache.entries.get? key = none) :
    cache.vacate key = cache := by
  rw [Cache.vacate, Table.erase_of_get?_eq_none hNone]
  exact h.release_eq

/-- If no entry has expired, there is nothing to purge. -/
theorem Corresponds.purge_eq (h : cache.Corresponds)
    (hFresh : ∀ key entry, cache.entries.get? key = some entry →
      cache.isFresh now entry = true) : cache.purge now = cache := by
  have hKeep : ∀ entry ∈ cache.entries.entries, cache.isFresh now entry.2 = true := by
    intro entry hMem
    exact hFresh entry.1 entry.2 (Table.get?_eq_some_iff.mpr hMem)
  rw [Cache.purge, Table.filter_eq_self hKeep]
  exact h.release_eq

/-- Vacating a key releases what only this key referred to. -/
theorem Corresponds.vacate (h : cache.Corresponds) (key : Key) : (cache.vacate key).Corresponds := by
  apply Supplies.release
  apply h.supplies.of_entries
  intro key' entry hEntry
  exact get?_entries_of_vacate hEntry

/-- Purging releases what only expired entries referred to. -/
theorem Corresponds.purge (h : cache.Corresponds) (now : Nat) : (cache.purge now).Corresponds := by
  apply Supplies.release
  apply h.supplies.of_entries
  intro key entry hEntry
  exact get?_entries_of_purge hEntry

theorem corresponds_empty (idle : Nat) : (empty idle).Corresponds := by
  have hNone : ∀ descriptor, ¬(empty idle).Holds descriptor := by
    intro descriptor ⟨key, entry, hEntry, _⟩
    cases hEntry
  constructor
  · intro descriptor hHolds
    exact absurd hHolds (hNone descriptor)
  · intro fingerprint
    constructor
    · intro hMem
      cases hMem
    · intro ⟨descriptor, hHolds, _⟩
      exact absurd hHolds (hNone descriptor)

/-- An outcome that was there, or that refers to no unit, changes no reference. -/
theorem Corresponds.keep (h : cache.Corresponds)
    (hOld : ∀ entry, cache.entries.get? key = some entry → entry.outcome = outcome)
    (hHeld : ∀ descriptor, outcome = .ok descriptor → cache.Holds descriptor) :
    (cache.keep now key outcome).Corresponds := by
  have hHolds : ∀ descriptor,
      (cache.keep now key outcome).Holds descriptor ↔ cache.Holds descriptor := by
    intro descriptor
    rw [holds_keep_iff hOld]
    exact or_iff_right_of_imp (hHeld descriptor)
  constructor
  · intro descriptor hKept
    exact h.supplies descriptor ((hHolds descriptor).mp hKept)
  · intro fingerprint
    simp only [Refers, hHolds]
    exact h.mem_units_iff fingerprint

/-- A new descriptor comes with its unit: either nothing else refers to the unit, which
was loaded for it, or the unit was there. -/
theorem corresponds_keep_ok {supplier : Handle} (hNone : cache.entries.get? key = none)
    (hSupplies : cache.Supplies)
    (hUnits : ∀ fingerprint, fingerprint ∈ cache.units.keys ↔
      fingerprint = descriptor.unit ∨ cache.Refers fingerprint)
    (hLoaded : cache.units.get? descriptor.unit = some supplier)
    (hName : supplier.name = descriptor.supplier) :
    (cache.keep now key (.ok descriptor)).Corresponds := by
  have hHolds : ∀ other, (cache.keep now key (.ok descriptor)).Holds other ↔
      descriptor = other ∨ cache.Holds other := by
    intro other
    rw [holds_keep_iff (by simp [hNone]), Except.ok.injEq]
  constructor
  · intro other hKept
    rcases (hHolds other).mp hKept with rfl | hOther
    · exact ⟨supplier, hLoaded, hName⟩
    · exact hSupplies other hOther
  · intro fingerprint
    simp only [Refers, hHolds]
    refine (hUnits fingerprint).trans ?_
    constructor
    · rintro (rfl | ⟨other, hOther, rfl⟩)
      · exact ⟨descriptor, .inl rfl, rfl⟩
      · exact ⟨other, .inr hOther, rfl⟩
    · rintro ⟨other, rfl | hOther, rfl⟩
      · exact .inl rfl
      · exact .inr ⟨other, hOther, rfl⟩

/-- There are never more units than entries. -/
theorem Corresponds.size_units_le (h : cache.Corresponds) :
    cache.units.size ≤ cache.entries.size := by
  have hSubset : cache.units.keys ⊆
      cache.entries.values.filterMap (fun entry => entry.outcome.unit?) := by
    intro fingerprint hMem
    exact mem_live_iff.mpr ((h.mem_units_iff fingerprint).mp hMem)
  have hLength := (List.subperm_of_subset cache.units.nodup hSubset).length_le
  calc cache.units.size = cache.units.keys.length := (List.length_map _).symm
    _ ≤ (cache.entries.values.filterMap fun entry => entry.outcome.unit?).length := hLength
    _ ≤ cache.entries.values.length := List.length_filterMap_le _ _
    _ = cache.entries.size := List.length_map _

end Cache

variable {σ : Type} {host : Host σ} {request : Request} {conversion : Conversion}
  {descriptor : Descriptor} {workspace after : Workspace σ}

/-- Loading a supplier fails and leaves the cache alone, or makes a descriptor that can be
kept. -/
theorem Supplied.corresponds {result : Except CompileError Descriptor}
    (h : Supplied host request conversion workspace result after)
    (hCache : workspace.cache.Corresponds) :
    (∀ descriptor, result ≠ .ok descriptor) ∧ after.cache = workspace.cache ∨
    ∃ descriptor, result = .ok descriptor ∧ after.cache.entries = workspace.cache.entries ∧
      ∀ now key, workspace.cache.entries.get? key = none →
        (after.cache.keep now key (.ok descriptor)).Corresponds := by
  cases h with
  | noProfile | noUtilities | failed => exact .inl ⟨by simp, rfl⟩
  | @reused _ _ supplier unit _ _ _ hLoaded =>
      refine .inr ⟨_, rfl, rfl, ?_⟩
      intro now key hNone
      refine Cache.corresponds_keep_ok hNone hCache.supplies ?_ hLoaded rfl
      intro fingerprint
      rw [hCache.mem_units_iff]
      -- the unit is loaded already, so an entry refers to it and the units stay the same
      have hMem : unit.fingerprint ∈ workspace.cache.units.keys :=
        Table.mem_keys_iff.mpr ⟨supplier, hLoaded⟩
      refine (or_iff_right_of_imp ?_).symm
      rintro rfl
      exact (hCache.mem_units_iff _).mp hMem
  | @loaded _ _ supplier unit _ _ _ _ hLoaded _ =>
      refine .inr ⟨_, rfl, rfl, ?_⟩
      intro now key hNone
      -- the unit is new, so no entry refers to it yet
      have hAway : ∀ fingerprint, workspace.cache.Refers fingerprint →
          fingerprint ≠ unit.fingerprint := by
        rintro _ hRefers rfl
        obtain ⟨other, hOther⟩ :=
          Table.mem_keys_iff.mp ((hCache.mem_units_iff _).mpr hRefers)
        rw [hLoaded] at hOther
        cases hOther
      have hInserted : (workspace.cache.load unit.fingerprint supplier).units.get?
          unit.fingerprint = some supplier := by simp [Cache.load]
      refine Cache.corresponds_keep_ok hNone ?_ ?_ hInserted rfl
      · intro descriptor hHolds
        obtain ⟨other, hOther, hName⟩ := hCache.supplies descriptor hHolds
        refine ⟨other, ?_, hName⟩
        simp [Cache.load, hAway _ ⟨descriptor, hHolds, rfl⟩, hOther]
      · intro fingerprint
        change fingerprint ∈ (workspace.cache.units.insert unit.fingerprint supplier).keys ↔
          fingerprint = unit.fingerprint ∨ workspace.cache.Refers fingerprint
        rw [← hCache.mem_units_iff, Table.mem_keys_iff, Table.mem_keys_iff]
        by_cases hUnit : fingerprint = unit.fingerprint <;> simp [hUnit]

theorem holds_kept : (kept host request (.ok descriptor) workspace).cache.Holds descriptor :=
  ⟨Key.ofRequest request, ⟨.ok descriptor, host.clock workspace.host⟩,
    by simp [kept, Cache.keep], rfl⟩

/-- A descriptor that was looked up is held from then on. -/
theorem LookedUp.holds (h : LookedUp host request workspace (.ok (.ok descriptor)) after) :
    after.cache.Holds descriptor := by
  generalize hResult : (.ok (.ok descriptor) : Except CompileError Outcome) = result at h
  cases h with
  | hit =>
      rw [← Except.ok.inj hResult]
      exact holds_kept
  | supplied =>
      cases hResult
      exact holds_kept
  | unregistered | rejected | failed => cases hResult

/-- The first look-up of a key. There is nothing to remove and nothing to release. -/
theorem lookup_of_get?_eq_none (hCache : workspace.cache.Corresponds)
    (hNone : workspace.cache.entries.get? (Key.ofRequest request) = none) :
    lookup host request workspace =
      match resolve host request workspace with
      | (.ok outcome, after) => (.ok outcome, kept host request outcome after)
      | (.error e, after) => (.error e, after) := by
  have hFresh : workspace.cache.fresh? (host.clock workspace.host) (Key.ofRequest request) =
      none := by rw [Cache.fresh?, hNone, Option.filter_none]
  rw [lookup_of_fresh?_eq_none hFresh, hCache.vacate_eq hNone]
  rfl

variable (host) in
/-- However a look-up ends, entries and units correspond as they did before it. -/
theorem corresponds_lookup (request : Request) (h : workspace.cache.Corresponds) :
    (lookup host request workspace).2.cache.Corresponds := by
  have hVacated := h.vacate (Key.ofRequest request)
  have hNone : (workspace.cache.vacate (Key.ofRequest request)).entries.get?
      (Key.ofRequest request) = none := by simp [Cache.get?_entries_vacate]
  have hLookedUp := lookedUp_lookup host request workspace
  generalize (lookup host request workspace).1 = result at hLookedUp
  generalize (lookup host request workspace).2 = after at hLookedUp ⊢
  cases hLookedUp with
  | @hit entry hFresh =>
      have hEntry := Cache.get?_of_fresh? hFresh
      refine h.keep ?_ fun descriptor hOk => ⟨_, entry, hEntry, hOk⟩
      intro other hOther
      rw [hEntry] at hOther
      cases hOther
      rfl
  | unregistered => exact hVacated.keep (by simp [hNone]) (by simp)
  | supplied _ hSupplied =>
      rcases hSupplied.corresponds hVacated with ⟨hNot, _⟩ | ⟨_, hResult, _, hKeep⟩
      · exact absurd rfl (hNot _)
      · cases hResult
        exact hKeep _ _ hNone
  | rejected _ hSupplied =>
      rcases hSupplied.corresponds hVacated with ⟨_, hSame⟩ | ⟨_, hResult, _⟩
      · rw [kept, hSame]
        exact hVacated.keep (by simp [hNone]) (by simp)
      · cases hResult
  | failed _ hSupplied =>
      rcases hSupplied.corresponds hVacated with ⟨_, hSame⟩ | ⟨_, hResult, _⟩
      · rwa [hSame]
      · cases hResult

/-- Units and entries correspond in every cache that can be reached. -/
theorem keeps_corresponds (host : Host σ) :
    Compiler.Keeps host Cache.Corresponds (fun _ => True) where
  lookup request _ _ h := corresponds_lookup host request h
  purge _ now h := h.purge now
  empty := Cache.corresponds_empty

end Conversion

namespace Compiler
variable {σ : Type}

open Conversion

/-- After any run, with any idle time and any host, the units that are loaded are those of
the descriptors that are held, and the supplier of each descriptor is the one that is loaded.
So descriptors with equal fingerprints have one supplier, and there are no more units than
entries. A descriptor that is found now is held next, and its unit with it. -/
theorem units_are_those_of_entries (host : Host σ) (options : Options) (events : List (Event σ))
    (s : σ) :
    (∀ fingerprint, fingerprint ∈ (cacheAfter host options events s).units.keys ↔
      ∃ descriptor, (cacheAfter host options events s).Holds descriptor ∧
        descriptor.unit = fingerprint) ∧
    (∀ descriptor, (cacheAfter host options events s).Holds descriptor →
      ∃ supplier, (cacheAfter host options events s).units.get? descriptor.unit = some supplier ∧
        supplier.name = descriptor.supplier) ∧
    (∀ descriptor other, (cacheAfter host options events s).Holds descriptor →
      (cacheAfter host options events s).Holds other → descriptor.unit = other.unit →
        descriptor.supplier = other.supplier) ∧
    (cacheAfter host options events s).units.size ≤
      (cacheAfter host options events s).entries.size ∧
    ∀ request descriptor, (Conversion.lookup host request
        (run host options events (start options s)).2).1 = .ok (.ok descriptor) →
      (cacheAfter host options (events ++ [.lookup request]) s).Holds descriptor := by
  have h : (cacheAfter host options events s).Corresponds :=
    (keeps_corresponds host).cacheAfter (fun _ _ => trivial) s
  refine ⟨h.mem_units_iff, h.supplies, ?_, h.size_units_le, ?_⟩
  · intro descriptor other hHolds hOther hUnit
    obtain ⟨supplier, hLoaded, hName⟩ := h.supplies descriptor hHolds
    obtain ⟨same, hSame, hOtherName⟩ := h.supplies other hOther
    rw [← hUnit, hLoaded] at hSame
    cases hSame
    exact hName.symm.trans hOtherName
  · intro request descriptor hFound
    have hLookedUp := lookedUp_lookup host request (run host options events (start options s)).2
    rw [hFound] at hLookedUp
    rw [cacheAfter, run_append]
    exact hLookedUp.holds

end Compiler
end TemplateCompiler
