import TemplateCompiler.Proofs.Compiler.Inquiries
import TemplateCompiler.Proofs.Compiler.Literals
import TemplateCompiler.Proofs.Compiler.Records
import TemplateCompiler.Proofs.Conversion.Calls
import TemplateCompiler.Proofs.Conversion.Correspondence

/-! Compilers whose entries never expire. Nothing is removed then until everything is: a
look-up removes nothing but the expired entry of its own key, and units are released only
when an entry that referred to them is gone. So an outcome stays the outcome of its key,
and the units that are loaded are those that the host has compiled, in their order. -/
namespace TemplateCompiler

namespace Host
variable {σ ρ α : Type}

/-- A step beside which nothing is written down. -/
def beside (x : Action σ α) : Action (σ × ρ) α := x.within Prod.fst fun (_, record) s => (s, record)

/-- The same host with a list of the units that it has compiled and loaded, oldest first. -/
def inventoried (host : Host σ) : Host (σ × List SourceUnit) where
  clock := fun (s, _) => host.clock s
  compileUnit unit := fun (s, units) =>
    match host.compileUnit unit s with
    | (.ok supplier, after) => (.ok supplier, after, units ++ [unit])
    | (.error e, after) => (.error e, after, units)
  compileProfile profile := beside (host.compileProfile profile)
  compileUtilities profile header := beside (host.compileUtilities profile header)
  compileExpression request := beside (host.compileExpression request)
  diagnose request := beside (host.diagnose request)
  reset := beside host.reset

/-- Keeping an inventory of the compiled units does not change what a host does. -/
theorem records_inventoried (host : Host σ) : host.inventoried.Records host where
  clock _ := rfl
  compileUnit unit s := by
    simp only [inventoried]
    split <;> rename_i hCompile <;> exact hCompile.symm
  compileProfile _ _ := rfl
  compileUtilities _ _ _ := rfl
  compileExpression _ _ := rfl
  diagnose _ _ := rfl
  reset _ := rfl

/-- An action beside the inventory does not add to it. -/
theorem snd_of_beside_eq {x : Action σ α} {s after : σ × ρ} {result : Except CompileError α}
    (h : beside x s = (result, after)) : after.2 = s.2 :=
  (congrArg (fun answer => answer.2.2) h).symm

variable {host : Host σ} {unit : SourceUnit} {s after : σ × List SourceUnit}

/-- A unit that was compiled is in the inventory. -/
theorem snd_of_inventoried_eq_ok {supplier : Handle}
    (h : host.inventoried.compileUnit unit s = (.ok supplier, after)) :
    after.2 = s.2 ++ [unit] := by
  simp only [inventoried] at h
  split at h <;> cases h
  rfl

theorem snd_of_inventoried_eq_error {e : CompileError}
    (h : host.inventoried.compileUnit unit s = (.error e, after)) : after.2 = s.2 := by
  simp only [inventoried] at h
  split at h <;> cases h
  rfl

end Host

namespace Conversion

namespace Cache

/-- The outcome is held under the key. -/
def Knows (cache : Cache) (key : Key) (outcome : Outcome) : Prop :=
  ∃ lastUse, cache.entries.get? key = some ⟨outcome, lastUse⟩

/-- No entry can ever expire, whatever time the host says it is. -/
structure Lasts {σ : Type} (host : Host σ) (idle : Nat) (cache : Cache) : Prop where
  corresponds : cache.Corresponds
  idle_eq : cache.idle = idle
  isFresh : ∀ key entry, cache.entries.get? key = some entry →
    ∀ s, cache.isFresh (host.clock s) entry = true

namespace Lasts
variable {σ : Type} {host : Host σ} {idle : Nat} {cache : Cache}

theorem empty (host : Host σ) (idle : Nat) : (Cache.empty idle).Lasts host idle where
  corresponds := corresponds_empty idle
  idle_eq := rfl
  isFresh := by
    intro key entry hEntry
    cases hEntry

/-- In a cache that lasts, every entry is fresh. -/
theorem fresh?_eq (h : cache.Lasts host idle) (key : Key) (s : σ) :
    cache.fresh? (host.clock s) key = cache.entries.get? key := by
  cases hEntry : cache.entries.get? key with
  | none => rw [fresh?, hEntry, Option.filter_none]
  | some entry => exact Option.filter_eq_some_iff.mpr ⟨hEntry, h.isFresh key entry hEntry s⟩

/-- There is nothing to purge in a cache that lasts. -/
theorem purge_eq (h : cache.Lasts host idle) (s : σ) : cache.purge (host.clock s) = cache :=
  h.corresponds.purge_eq fun key entry hEntry => h.isFresh key entry hEntry s

end Lasts
end Cache

variable {σ : Type} {host : Host σ} {idle : Nat} {request : Request} {workspace : Workspace σ}

/-- An outcome is held after any look-up that has one. -/
theorem LookedUp.exists_lastUse {outcome : Outcome} {after : Workspace σ}
    (h : LookedUp host request workspace (.ok outcome) after) :
    ∃ s, after.cache.entries.get? (Key.ofRequest request) = some ⟨outcome, host.clock s⟩ := by
  obtain ⟨before, _, rfl⟩ := h.exists_kept
  exact ⟨before.host, by rw [kept, Cache.keep, Table.get?_insert, if_pos rfl]⟩

/-- A look-up leaves a cache that lasts, if no time is long enough for anything to expire. -/
theorem Cache.Lasts.lookup (hNever : ∀ s s', host.clock s - host.clock s' < idle)
    (h : workspace.cache.Lasts host idle) (request : Request) :
    (Conversion.lookup host request workspace).2.cache.Lasts host idle := by
  have hLookedUp := lookedUp_lookup host request workspace
  have hIdle := hLookedUp.idle_eq
  refine ⟨corresponds_lookup host request h.corresponds, hIdle.trans h.idle_eq, ?_⟩
  intro key entry hEntry s
  rw [Cache.isFresh, hIdle]
  rcases hLookedUp.get?_entries hEntry with hOld | ⟨rfl, hResult⟩
  · exact h.isFresh key entry hOld s
  · rw [hResult] at hLookedUp
    obtain ⟨s', hNew⟩ := hLookedUp.exists_lastUse
    rw [hEntry] at hNew
    rw [congrArg Entry.lastUse (Option.some.inj hNew), h.idle_eq]
    exact decide_eq_true (hNever s s')

/-- The outcome of a key is the same for ever, also if the key is looked up again. -/
theorem Cache.Knows.lookup {key : Key} {outcome : Outcome}
    (h : workspace.cache.Knows key outcome) (hLasts : workspace.cache.Lasts host idle)
    (request : Request) : (Conversion.lookup host request workspace).2.cache.Knows key outcome := by
  obtain ⟨lastUse, hEntry⟩ := h
  by_cases hKey : key = Key.ofRequest request
  · subst hKey
    rw [lookup_of_fresh? ((hLasts.fresh?_eq _ _).trans hEntry)]
    exact ⟨_, by rw [Cache.keep, Table.get?_insert, if_pos rfl]⟩
  · refine ⟨lastUse, ?_⟩
    rw [(lookedUp_lookup host request workspace).get?_entries_of_ne hKey]
    exact hEntry

section Stocked
variable {request : Request} {conversion : Conversion}
  {workspace after : Workspace (σ × List SourceUnit)}

/-- What is loaded is what has been compiled. -/
def Stocked (workspace : Workspace (σ × List SourceUnit)) : Prop :=
  workspace.host.2.map SourceUnit.fingerprint = workspace.cache.units.keys

theorem Supports.snd_eq {s later : σ × List SourceUnit} {profile utilities : Handle}
    (h : Supports host.inventoried request s profile utilities later) : later.2 = s.2 := by
  obtain ⟨middle, hProfile, hUtilities⟩ := h
  exact (Host.snd_of_beside_eq hUtilities).trans (Host.snd_of_beside_eq hProfile)

/-- A unit that is compiled was not loaded. -/
theorem Supplied.stocked {result : Except CompileError Descriptor}
    (h : Supplied host.inventoried request conversion workspace result after)
    (hStocked : Stocked workspace) : Stocked after := by
  have hSame : ∀ {last : σ × List SourceUnit}, last.2 = workspace.host.2 →
      Stocked { workspace with host := last } := by
    intro last hLast
    rw [Stocked, hLast]
    exact hStocked
  cases h with
  | noProfile hProfile => exact hSame (Host.snd_of_beside_eq hProfile)
  | noUtilities hProfile hUtilities =>
      exact hSame ((Host.snd_of_beside_eq hUtilities).trans (Host.snd_of_beside_eq hProfile))
  | reused hSupports => exact hSame hSupports.snd_eq
  | failed hSupports _ _ hCompile =>
      exact hSame ((Host.snd_of_inventoried_eq_error hCompile).trans hSupports.snd_eq)
  | loaded hSupports _ hLoaded hCompile =>
      rw [Stocked, Host.snd_of_inventoried_eq_ok hCompile, hSupports.snd_eq, List.map_append,
        hStocked]
      exact (Table.keys_insert_of_get?_eq_none hLoaded).symm

/-- A look-up compiles a unit only if it is not loaded, and then loads it. -/
theorem stocked_lookup (hLasts : workspace.cache.Lasts host.inventoried idle)
    (hStocked : Stocked workspace) (request : Request) :
    Stocked (lookup host.inventoried request workspace).2 := by
  cases hFresh : workspace.cache.fresh? (host.inventoried.clock workspace.host)
      (Key.ofRequest request) with
  | some entry =>
      rw [lookup_of_fresh? hFresh]
      exact hStocked
  | none =>
      -- no entry expires, so none is held under the key, and nothing is removed or released
      rw [hLasts.fresh?_eq] at hFresh
      have hResolved : Stocked (resolve host.inventoried request workspace).2 := by
        cases hRegistered : request.profile.registry.get? request.result with
        | none =>
            rw [resolve_of_unregistered hRegistered]
            exact hStocked
        | some conversion =>
            rw [resolve_of_registered hRegistered]
            exact (supplied_loadSupplier _ request conversion workspace).stocked hStocked
      rw [lookup_of_get?_eq_none hLasts.corresponds hFresh]
      cases hResolve : resolve host.inventoried request workspace with
      | mk result after =>
          rw [hResolve] at hResolved
          cases result <;> exact hResolved

end Stocked

end Conversion

variable {σ : Type}

/-- A record beside the host does not change whether an event invalidates the cache. -/
theorem Event.invalidates_beside_iff {ρ : Type} {record : ρ} {event : Event σ} :
    (event.beside record).Invalidates ↔ event.Invalidates := by
  cases event <;> exact Iff.rfl

namespace Compiler

open Conversion

/-- The units that the host compiles and loads in the course of a run, oldest first. -/
def unitsLoaded (host : Host σ) (options : Options) (events : List (Event σ)) (s : σ) :
    List SourceUnit :=
  (runBeside host.inventoried options events (start options (s, []))).2.host.2

variable {host : Host σ} {options : Options} {idle : Nat} {events : List (Event σ)}
  {workspace moment : Workspace σ} {request : Request} {outcome : Outcome}

/-- After an invalidation a compiler is as it was when it was made. -/
theorem exists_start_of_invalidates {event : Event σ} (hEvent : event.Invalidates)
    (past : List (Event σ)) (s : σ) :
    ∃ t, (run host options (past ++ [event]) (start options s)).2 = start options t := by
  have hIdle : (run host options past (start options s)).2.cache.idle = options.idle :=
    idle_run past (start options s)
  rw [run_append]
  generalize (run host options past (start options s)).2 = workspace at hIdle ⊢
  cases event with
  | clear => exact ⟨workspace.host, by rw [start, ← hIdle]; rfl⟩
  | reset => exact ⟨(host.reset workspace.host).2, by rw [start, ← hIdle]; rfl⟩
  | compile | diagnose | lookup | purge | elapse => exact absurd hEvent id

/-- A purge leaves a workspace alone if its cache lasts. -/
theorem purge_eq_of_lasts (hLasts : workspace.cache.Lasts host idle) :
    (purge host workspace).2 = workspace := by
  change { workspace with cache := workspace.cache.purge (host.clock workspace.host) } = workspace
  rw [hLasts.purge_eq]

section Lasting
variable (hNever : ∀ s s', host.clock s - host.clock s' < idle)
include hNever

/-- A cache lasts through every event that does not invalidate it. -/
theorem lasts_perform {event : Event σ} (hEvent : ¬event.Invalidates)
    (hLasts : workspace.cache.Lasts host idle) :
    (perform host options workspace event).2.cache.Lasts host idle := by
  refine (HostKeeps.of_cache fun cache => cache.Lasts host idle).perform hEvent ?_ ?_ ?_ hLasts
  · intro request moment _ hLasts
    exact hLasts.lookup hNever request
  · intro hLasts
    rwa [purge_eq_of_lasts hLasts]
  · intro s _
    exact hLasts

variable (hEvents : ∀ event ∈ events, ¬event.Invalidates)
include hEvents

/-- What a cache that lasts has once come to know is known for the rest of the run. -/
theorem lasts_and_knows_run {key : Key} (hLasts : workspace.cache.Lasts host idle)
    (hKnows : workspace.cache.Knows key outcome) :
    (run host options events workspace).2.cache.Lasts host idle ∧
      (run host options events workspace).2.cache.Knows key outcome := by
  refine cache_run (Q := fun cache => cache.Lasts host idle ∧ cache.Knows key outcome)
    hEvents ?_ ?_ ⟨hLasts, hKnows⟩
  · intro request moment _ ⟨hLasts, hKnows⟩
    exact ⟨hLasts.lookup hNever request, hKnows.lookup hLasts request⟩
  · intro cache s ⟨hLasts, hKnows⟩
    rw [hLasts.purge_eq]
    exact ⟨hLasts, hKnows⟩

/-- The outcome of any look-up of a run is held at its end. -/
theorem Inquires.lasts_and_knows (h : Inquires host options events workspace request moment)
    (hLasts : workspace.cache.Lasts host idle)
    (hOutcome : (Conversion.lookup host request moment).1 = .ok outcome) :
    (run host options events workspace).2.cache.Lasts host idle ∧
      (run host options events workspace).2.cache.Knows (Key.ofRequest request) outcome := by
  -- on the place of the look-up in the run: it is held after its event, and kept by the rest
  induction h with
  | @now event _ _ moment request hLooksUp =>
      obtain ⟨hEvent, hRest⟩ := List.forall_mem_cons.mp hEvents
      have hLookedUp := lookedUp_lookup host request moment
      rw [hOutcome] at hLookedUp
      obtain ⟨s, hEntry⟩ := hLookedUp.exists_lastUse
      rw [← hLooksUp.cache_perform] at hEntry
      exact lasts_and_knows_run hNever hRest (lasts_perform hNever hEvent hLasts) ⟨_, hEntry⟩
  | later _ ih =>
      obtain ⟨hEvent, hRest⟩ := List.forall_mem_cons.mp hEvents
      exact ih hRest (lasts_perform hNever hEvent hLasts) hOutcome

/-- Through a whole run the compiled units are the loaded ones, each compiled once. -/
theorem stocked_runBeside {workspace : Workspace (σ × List SourceUnit)}
    (hLasts : workspace.cache.Lasts host.inventoried idle) (hStocked : Stocked workspace) :
    Stocked (runBeside host.inventoried options events workspace).2 := by
  induction events generalizing workspace with
  | nil => exact hStocked
  | cons event events ih =>
      obtain ⟨hEvent, hRest⟩ := List.forall_mem_cons.mp hEvents
      have hHost : HostKeeps host.inventoried fun workspace =>
          workspace.cache.Lasts host.inventoried idle ∧ Stocked workspace :=
        ⟨fun _ _ _ h => h, fun _ _ _ h => h⟩
      have hInventoried : ∀ s s', host.inventoried.clock s - host.inventoried.clock s' < idle :=
        fun s s' => hNever s.1 s'.1
      have hNext : (perform host.inventoried options workspace
          (event.beside workspace.host.2)).2.cache.Lasts host.inventoried idle ∧
          Stocked (perform host.inventoried options workspace
            (event.beside workspace.host.2)).2 := by
        refine hHost.perform (mt Event.invalidates_beside_iff.mp hEvent) ?_ ?_ ?_
          ⟨hLasts, hStocked⟩
        · intro request moment _ ⟨hLasts, hStocked⟩
          exact ⟨hLasts.lookup hInventoried request, stocked_lookup hLasts hStocked request⟩
        · intro _
          rw [purge_eq_of_lasts hLasts]
          exact ⟨hLasts, hStocked⟩
        · intro s hElapse
          refine ⟨hLasts, ?_⟩
          cases event with
          | elapse =>
              cases hElapse
              exact hStocked
          | compile | diagnose | lookup | purge | clear | reset => cases hElapse
      exact ih hRest hNext.1 hNext.2

end Lasting

/-- Without a look-up that got as far as a supplier, no unit is loaded. -/
theorem get?_units_run_ne_some (hEvents : ∀ event ∈ events, ¬event.Invalidates)
    (hReaches : ∀ request moment unit, Inquires host options events workspace request moment →
      ¬Reaches host request moment unit)
    (hNone : ∀ fingerprint supplier, workspace.cache.units.get? fingerprint ≠ some supplier) :
    ∀ fingerprint supplier,
      (run host options events workspace).2.cache.units.get? fingerprint ≠ some supplier := by
  refine cache_run
    (Q := fun cache => ∀ fingerprint supplier, cache.units.get? fingerprint ≠ some supplier)
    hEvents ?_ ?_ hNone
  · intro request moment hInquires hNone fingerprint supplier hLoaded
    rcases (lookedUp_lookup host request moment).get?_units hLoaded with
      hOld | ⟨conversion, profile, utilities, middle, later, hRegistered, hSupports, rfl, _⟩
    · exact hNone _ _ hOld
    · cases hFresh : moment.cache.fresh? (host.clock moment.host) (Key.ofRequest request) with
      | some entry =>
          rw [lookup_of_fresh? hFresh] at hLoaded
          exact hNone _ _ hLoaded
      | none =>
          exact hReaches request moment _ hInquires
            ⟨hFresh, conversion, profile, utilities, middle, hRegistered, hSupports, rfl⟩
  · intro cache s hNone fingerprint supplier hLoaded
    exact hNone _ _ (Cache.get?_units_of_purge hLoaded)

/-- If entries never expire, then between two invalidations, and after each of them as from
the beginning, an outcome that was found once is found ever after without the host. The units
that the host has compiled are those that are loaded, and none was compiled twice. The host
has no part in a look-up of a type that is not registered. The first look-up that gets as far
as a supplier compiles it, once. -/
theorem filled_once_and_loaded_once (host : Host σ) (options : Options)
    (hNever : ∀ s s', host.clock s - host.clock s' < options.idle) (events : List (Event σ))
    (hEvents : ∀ event ∈ events, ¬event.Invalidates) (s : σ) :
    (∀ past, ∀ event : Event σ, event.Invalidates →
      ∃ t, (run host options (past ++ [event]) (start options s)).2 = start options t) ∧
    (∀ request moment outcome, Inquires host options events (start options s) request moment →
      (Conversion.lookup host request moment).1 = .ok outcome →
      ∀ other, Key.ofRequest other = Key.ofRequest request → ∀ now calls, ∃ cache,
        Conversion.lookup host.recorded other ⟨(now, calls), cacheAfter host options events s⟩ =
          (.ok outcome, ⟨(now, calls), cache⟩)) ∧
    ((unitsLoaded host options events s).map SourceUnit.fingerprint =
        (cacheAfter host options events s).units.keys ∧
      ((unitsLoaded host options events s).map SourceUnit.fingerprint).Nodup) ∧
    (∀ request, request.profile.registry.get? request.result = none →
      ∀ now calls, ∃ outcome cache,
        Conversion.lookup host.recorded request
            ⟨(now, calls), cacheAfter host options events s⟩ =
          (.ok outcome, ⟨(now, calls), cache⟩)) ∧
    (∀ request now unit,
      (∀ earlier moment other, Inquires host options events (start options s) earlier moment →
        ¬Reaches host earlier moment other) →
      Reaches host request ⟨now, cacheAfter host options events s⟩ unit →
      Compiles host request ⟨now, cacheAfter host options events s⟩ unit) := by
  have hStart : (start options s).cache.Lasts host options.idle := .empty host options.idle
  refine ⟨?_, ?_, ?_, ?_, ?_⟩
  · intro past event hEvent
    exact exists_start_of_invalidates hEvent past s
  · intro request moment outcome hInquires hOutcome other hKey now calls
    obtain ⟨hLasts, lastUse, hEntry⟩ :=
      hInquires.lasts_and_knows hNever hEvents hStart hOutcome
    rw [← hLasts.fresh?_eq _ now, ← hKey] at hEntry
    exact ⟨_, @lookup_of_fresh? _ host.recorded other
      ⟨(now, calls), cacheAfter host options events s⟩ _ hEntry⟩
  · have hStocked : Stocked (runBeside host.inventoried options events (start options (s, []))).2 :=
      stocked_runBeside hNever hEvents (.empty host.inventoried options.idle) rfl
    have hPlain :=
      plain_runBeside (Host.records_inventoried host) options events (start options (s, []))
    have hLoaded : (unitsLoaded host options events s).map SourceUnit.fingerprint =
        (cacheAfter host options events s).units.keys :=
      hStocked.trans (congrArg (fun ran => ran.2.cache.units.keys) hPlain)
    exact ⟨hLoaded, hLoaded ▸ Table.nodup _⟩
  · intro request hUnregistered now calls
    exact exists_lookup_eq_of_unregistered hUnregistered host.recorded (now, calls) _
  · intro request now unit hNot hReaches
    -- no earlier look-up got as far as the supplier, so its unit was never loaded
    have hNone := get?_units_run_ne_some hEvents hNot (fun _ _ => nofun)
    rcases hReaches.reuses_or_compiles with ⟨_, hLoaded⟩ | ⟨hCompiles, _⟩
    · obtain ⟨supplier, hLoaded⟩ := Table.mem_keys_iff.mp hLoaded
      exact absurd (Cache.get?_units_of_vacate hLoaded) (hNone _ _)
    · exact hCompiles

/-- Two registries share a supplier, which is compiled once, and the first outcome stays. -/
theorem filled_once_and_loaded_once_fortyTwo :
    let events := [.lookup (fortyTwo .standard), .purge, .compile (fortyTwo strictRegistry)]
    (∀ event ∈ events, ¬event.Invalidates) ∧
      (unitsLoaded Host.scripted {} events {}).length = 1 ∧
      ∃ descriptor, ∀ now calls, ∃ cache,
        Conversion.lookup Host.scripted.recorded (fortyTwo .standard)
            ⟨(now, calls), cacheAfter Host.scripted {} events {}⟩ =
          (.ok (.ok descriptor), ⟨(now, calls), cache⟩) := by
  intro events
  have hNever : ∀ s s' : Script, Host.scripted.clock s - Host.scripted.clock s' < 600000 :=
    fun _ _ => Nat.zero_lt_succ 599999
  have hEvents : ∀ event ∈ events, ¬event.Invalidates := by simp [events, Event.Invalidates]
  obtain ⟨_, hFilled, ⟨hLoaded, _⟩, _⟩ :=
    filled_once_and_loaded_once Host.scripted {} hNever events hEvents {}
  obtain ⟨descriptor, after, hFirst⟩ := exists_descriptor (by decide +kernel :
    ((Conversion.lookup Host.scripted (fortyTwo .standard) (start {} {})).1.toOption.bind
      Except.toOption).isSome = true)
  have hLength : (cacheAfter Host.scripted {} events {}).units.keys.length = 1 := by decide +kernel
  rw [← hLoaded, List.length_map] at hLength
  exact ⟨hEvents, hLength, descriptor, hFilled _ _ _ (.now (.lookup _))
    (congrArg Prod.fst hFirst) _ rfl⟩

end Compiler
end TemplateCompiler
