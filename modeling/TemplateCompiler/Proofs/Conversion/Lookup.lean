import TemplateCompiler.Conversion.Lookup
import TemplateCompiler.Proofs.Compiler.Attempts
import TemplateCompiler.Proofs.Table

/-! What a look-up does, one case after the other, with every call of the host. Other
proofs go by these cases and do not open the functions again. -/
namespace TemplateCompiler

/-- An action of the host leaves the cache of the workspace alone. -/
theorem Workspace.onHost_eq {σ α : Type} {x : Action σ α} {workspace : Workspace σ}
    {result : Except CompileError α} {after : σ} (h : x workspace.host = (result, after)) :
    onHost x workspace = (result, { workspace with host := after }) := by
  simp only [onHost, Action.within, h]

namespace Conversion

open Workspace TemplateCompiler.Action

namespace Cache

/-- The entry of a key, if it can still be used. -/
def fresh? (cache : Cache) (now : Nat) (key : Key) : Option Entry :=
  (cache.entries.get? key).filter (cache.isFresh now)

/-- Without the entry of a key, and without the units that nothing refers to then. -/
def vacate (cache : Cache) (key : Key) : Cache :=
  release { cache with entries := cache.entries.erase key }

/-- Vacating a key takes its own entry away and no other. -/
theorem get?_entries_vacate (cache : Cache) (key key' : Key) :
    (cache.vacate key).entries.get? key' = if key' = key then none else cache.entries.get? key' :=
  Table.get?_erase

variable {cache : Cache} {now : Nat} {key key' : Key} {entry : Entry}
  {fingerprint : Fingerprint} {supplier : Handle}

theorem get?_entries_of_vacate (hEntry : (cache.vacate key).entries.get? key' = some entry) :
    cache.entries.get? key' = some entry := by
  rw [get?_entries_vacate] at hEntry
  split at hEntry
  · cases hEntry
  · exact hEntry

theorem get?_units_of_vacate
    (hLoaded : (cache.vacate key).units.get? fingerprint = some supplier) :
    cache.units.get? fingerprint = some supplier :=
  (Table.get?_filter_eq_some_iff.mp hLoaded).1

theorem get?_units_of_purge (hLoaded : (cache.purge now).units.get? fingerprint = some supplier) :
    cache.units.get? fingerprint = some supplier :=
  (Table.get?_filter_eq_some_iff.mp hLoaded).1

theorem get?_of_fresh? (hFresh : cache.fresh? now key = some entry) :
    cache.entries.get? key = some entry :=
  (Option.filter_eq_some_iff.mp hFresh).1

/-- What is left after a purge is what can still be used. -/
theorem get?_entries_purge : (cache.purge now).entries.get? key = cache.fresh? now key := by
  apply Option.ext
  intro entry
  rw [fresh?, Option.filter_eq_some_iff]
  exact Table.get?_filter_eq_some_iff

theorem get?_entries_of_purge (hEntry : (cache.purge now).entries.get? key = some entry) :
    cache.entries.get? key = some entry := by
  rw [get?_entries_purge] at hEntry
  exact get?_of_fresh? hEntry

/-- Purging takes away only what is not fresh any more. -/
theorem fresh?_purge : (cache.purge now).fresh? now key = cache.fresh? now key := by
  rw [fresh?, get?_entries_purge, fresh?, Option.filter_filter]
  exact congrArg (Option.filter · _) (funext fun entry => Bool.and_self _)

/-- With an idle time of zero, no entry can ever be used. -/
theorem fresh?_eq_none_of_idle (hIdle : cache.idle = 0) : cache.fresh? now key = none := by
  rw [fresh?, Option.filter_eq_none_iff]
  intro entry _ hTime
  rw [isFresh, hIdle] at hTime
  exact Nat.not_lt_zero _ (of_decide_eq_true hTime)

/-- To use a fresh entry gives its outcome and keeps it, with a new time of its last use. -/
theorem use_of_fresh? (hFresh : cache.fresh? now key = some entry) :
    cache.use now key = (some entry.outcome, cache.keep now key entry.outcome) := by
  obtain ⟨hEntry, hTime⟩ := Option.filter_eq_some_iff.mp hFresh
  simp [use, hEntry, hTime, keep]

/-- An entry that has expired gives nothing, and it is gone after the attempt to use it. -/
theorem use_of_fresh?_eq_none (hNone : cache.fresh? now key = none) :
    cache.use now key = (none, { cache with entries := cache.entries.erase key }) := by
  cases hEntry : cache.entries.get? key with
  | none => simp [use, hEntry, Table.erase_of_get?_eq_none hEntry]
  | some entry =>
      have hTime : cache.isFresh now entry = false := by
        simpa [fresh?, hEntry, Option.filter_some] using hNone
      simp [use, hEntry, hTime]

end Cache

variable {σ : Type}

/-- What the outcome of a look-up is, if this came of loading the supplier. -/
def settle : Except CompileError Descriptor → Except CompileError Outcome
  | .ok descriptor => .ok (.ok descriptor)
  | .error (.rejected rejection) => .ok (.error (.supplierFailed rejection))
  | .error e => .error e

/-- The host has code for the profile of a request, and for the expressions under its
header, after which it is in another state. -/
def Supports (host : Host σ) (request : Request) (s : σ) (profile utilities : Handle)
    (after : σ) : Prop :=
  ∃ middle, host.compileProfile request.profile s = (.ok profile, middle) ∧
    host.compileUtilities request.profile request.header middle = (.ok utilities, after)

section Supplied
variable (host : Host σ) (request : Request) (conversion : Conversion) (workspace : Workspace σ)

/-- The ways in which loading a supplier can go. -/
inductive Supplied : Except CompileError Descriptor → Workspace σ → Prop where
  | noProfile {e : CompileError} {after : σ}
      (hProfile : host.compileProfile request.profile workspace.host = (.error e, after)) :
      Supplied (.error e) { workspace with host := after }
  | noUtilities {profile : Handle} {e : CompileError} {middle after : σ}
      (hProfile : host.compileProfile request.profile workspace.host = (.ok profile, middle))
      (hUtilities : host.compileUtilities request.profile request.header middle =
        (.error e, after)) :
      Supplied (.error e) { workspace with host := after }
  | reused {profile utilities supplier : Handle} {unit : SourceUnit} {after : σ}
      (hSupports : Supports host request workspace.host profile utilities after)
      (hUnit : unit = supplierUnit request conversion profile utilities)
      (hLoaded : workspace.cache.units.get? unit.fingerprint = some supplier) :
      Supplied (.ok ⟨conversion, supplier.name, unit.fingerprint⟩) { workspace with host := after }
  | failed {profile utilities : Handle} {unit : SourceUnit} {e : CompileError} {middle after : σ}
      (hSupports : Supports host request workspace.host profile utilities middle)
      (hUnit : unit = supplierUnit request conversion profile utilities)
      (hLoaded : workspace.cache.units.get? unit.fingerprint = none)
      (hCompile : host.compileUnit unit middle = (.error e, after)) :
      Supplied (.error e) { workspace with host := after }
  | loaded {profile utilities supplier : Handle} {unit : SourceUnit} {middle after : σ}
      (hSupports : Supports host request workspace.host profile utilities middle)
      (hUnit : unit = supplierUnit request conversion profile utilities)
      (hLoaded : workspace.cache.units.get? unit.fingerprint = none)
      (hCompile : host.compileUnit unit middle = (.ok supplier, after)) :
      Supplied (.ok ⟨conversion, supplier.name, unit.fingerprint⟩)
        ⟨after, workspace.cache.load unit.fingerprint supplier⟩

end Supplied

section Supplied
variable {host : Host σ} {request : Request} {conversion : Conversion} {workspace : Workspace σ}

/-- With the code for the profile, it is left to look for the unit and to compile it. -/
theorem loadSupplier_of_supports {profile utilities : Handle} {unit : SourceUnit} {later : σ}
    (hSupports : Supports host request workspace.host profile utilities later)
    (hUnit : unit = supplierUnit request conversion profile utilities) :
    loadSupplier host request conversion workspace =
      match workspace.cache.units.get? unit.fingerprint with
      | some supplier =>
        (.ok ⟨conversion, supplier.name, unit.fingerprint⟩, { workspace with host := later })
      | none =>
        match host.compileUnit unit later with
        | (.ok supplier, last) =>
          (.ok ⟨conversion, supplier.name, unit.fingerprint⟩,
            ⟨last, workspace.cache.load unit.fingerprint supplier⟩)
        | (.error e, last) => (.error e, { workspace with host := last }) := by
  obtain ⟨middle, hProfile, hUtilities⟩ := hSupports
  subst hUnit
  rw [loadSupplier, bind_of_ok (onHost_eq hProfile), bind_of_ok (onHost_eq hUtilities)]
  dsimp only
  rw [state_bind]
  generalize supplierUnit request conversion profile utilities = unit
  cases hLoaded : workspace.cache.units.get? unit.fingerprint with
  | some supplier => rfl
  | none =>
      dsimp only
      cases hCompile : host.compileUnit unit later with
      | mk answer last =>
          cases answer with
          | error e => rw [bind_of_error (onHost_eq hCompile)]
          | ok supplier =>
              rw [bind_of_ok (onHost_eq hCompile)]
              rfl

/-- A supplier is loaded in one way only. -/
theorem Supplied.loadSupplier_eq {result : Except CompileError Descriptor} {after : Workspace σ}
    (h : Supplied host request conversion workspace result after) :
    loadSupplier host request conversion workspace = (result, after) := by
  cases h with
  | noProfile hProfile => rw [loadSupplier, bind_of_error (onHost_eq hProfile)]
  | noUtilities hProfile hUtilities =>
      rw [loadSupplier, bind_of_ok (onHost_eq hProfile), bind_of_error (onHost_eq hUtilities)]
  | reused hSupports hUnit hLoaded => rw [loadSupplier_of_supports hSupports hUnit, hLoaded]
  | failed hSupports hUnit hLoaded hCompile | loaded hSupports hUnit hLoaded hCompile =>
      rw [loadSupplier_of_supports hSupports hUnit, hLoaded]
      dsimp only
      rw [hCompile]

variable (host request conversion workspace) in
theorem exists_supplied :
    ∃ result after, Supplied host request conversion workspace result after := by
  cases hProfile : host.compileProfile request.profile workspace.host with
  | mk answer middle =>
      cases answer with
      | error e => exact ⟨_, _, .noProfile hProfile⟩
      | ok profile =>
          cases hUtilities : host.compileUtilities request.profile request.header middle with
          | mk answer later =>
              cases answer with
              | error e => exact ⟨_, _, .noUtilities hProfile hUtilities⟩
              | ok utilities =>
                  generalize hUnit : supplierUnit request conversion profile utilities = unit
                  cases hLoaded : workspace.cache.units.get? unit.fingerprint with
                  | some supplier =>
                      exact ⟨_, _, .reused ⟨middle, hProfile, hUtilities⟩ hUnit.symm hLoaded⟩
                  | none =>
                      cases hCompile : host.compileUnit unit later with
                      | mk answer last =>
                          have hSupports : Supports host request workspace.host profile utilities
                              later := ⟨middle, hProfile, hUtilities⟩
                          cases answer with
                          | error e => exact ⟨_, _, .failed hSupports hUnit.symm hLoaded hCompile⟩
                          | ok supplier =>
                              exact ⟨_, _, .loaded hSupports hUnit.symm hLoaded hCompile⟩

variable (host request conversion workspace) in
theorem supplied_loadSupplier :
    Supplied host request conversion workspace
      (loadSupplier host request conversion workspace).1
      (loadSupplier host request conversion workspace).2 := by
  obtain ⟨result, after, hSupplied⟩ := exists_supplied host request conversion workspace
  rw [hSupplied.loadSupplier_eq]
  exact hSupplied

end Supplied

/-- Without a conversion for its type a request is answered at once, and the host is not
asked. -/
theorem resolve_of_unregistered {request : Request}
    (hNone : request.profile.registry.get? request.result = none) (host : Host σ)
    (workspace : Workspace σ) :
    resolve host request workspace = (.ok (.error (.notRegistered request.result)), workspace) := by
  rw [resolve, hNone]
  rfl

/-- With a conversion for its type a request is answered by what loading a supplier comes to. -/
theorem resolve_of_registered {request : Request} {conversion : Conversion}
    (hSome : request.profile.registry.get? request.result = some conversion) (host : Host σ)
    (workspace : Workspace σ) :
    resolve host request workspace =
      (settle (loadSupplier host request conversion workspace).1,
        (loadSupplier host request conversion workspace).2) := by
  rw [resolve, hSome]
  cases hLoad : loadSupplier host request conversion workspace with
  | mk result after =>
      cases result with
      | ok descriptor => simp only [bind, andThen, attempt, hLoad]; rfl
      | error e => cases e <;> simp only [bind, andThen, attempt, hLoad] <;> rfl

/-- A fresh entry is the result, and it is used from now on. -/
theorem lookup_of_fresh? {host : Host σ} {request : Request} {workspace : Workspace σ}
    {entry : Entry}
    (hFresh : workspace.cache.fresh? (host.clock workspace.host) (Key.ofRequest request) =
      some entry) :
    lookup host request workspace =
      (.ok entry.outcome, { workspace with
        cache := workspace.cache.keep (host.clock workspace.host) (Key.ofRequest request)
          entry.outcome }) := by
  simp only [lookup, bind, andThen, state, Cache.use_of_fresh? hFresh]
  rfl

/-- Without a fresh entry the request is resolved in the cache that has been vacated, and
the outcome is kept; a failure is not. -/
theorem lookup_of_fresh?_eq_none {host : Host σ} {request : Request} {workspace : Workspace σ}
    (hNone : workspace.cache.fresh? (host.clock workspace.host) (Key.ofRequest request) = none) :
    lookup host request workspace =
      match resolve host request
        { workspace with cache := workspace.cache.vacate (Key.ofRequest request) } with
      | (.ok outcome, after) =>
        (.ok outcome, { after with
          cache := after.cache.keep (host.clock after.host) (Key.ofRequest request) outcome })
      | (.error e, after) => (.error e, after) := by
  simp only [lookup, bind, andThen, state, Cache.use_of_fresh?_eq_none hNone, onCache, update,
    Cache.vacate]
  cases resolve host request _ with
  | mk result after => cases result <;> rfl

/-- The host has no part in the look-up of a type that is not registered. -/
theorem exists_lookup_eq_of_unregistered {request : Request}
    (hNone : request.profile.registry.get? request.result = none) (host : Host σ) (s : σ)
    (cache : Cache) :
    ∃ outcome after, lookup host request ⟨s, cache⟩ = (.ok outcome, ⟨s, after⟩) := by
  cases hFresh : cache.fresh? (host.clock s) (Key.ofRequest request) with
  | some entry => exact ⟨_, _, @lookup_of_fresh? σ host request ⟨s, cache⟩ _ hFresh⟩
  | none =>
      have hLookup := @lookup_of_fresh?_eq_none σ host request ⟨s, cache⟩ hFresh
      rw [resolve_of_unregistered hNone] at hLookup
      exact ⟨_, _, hLookup⟩

section LookedUp
variable (host : Host σ) (request : Request) (workspace : Workspace σ)

/-- The workspace in which a request is resolved that has no fresh entry. -/
def vacated : Workspace σ :=
  { workspace with cache := workspace.cache.vacate (Key.ofRequest request) }

/-- Afterwards the outcome is kept. -/
def kept (outcome : Outcome) (after : Workspace σ) : Workspace σ :=
  { after with cache := after.cache.keep (host.clock after.host) (Key.ofRequest request) outcome }

/-- The ways in which a look-up can go. -/
inductive LookedUp : Except CompileError Outcome → Workspace σ → Prop where
  | hit {entry : Entry}
      (hFresh : workspace.cache.fresh? (host.clock workspace.host) (Key.ofRequest request) =
        some entry) :
      LookedUp (.ok entry.outcome) (kept host request entry.outcome workspace)
  | unregistered (hNone : request.profile.registry.get? request.result = none) :
      LookedUp (.ok (.error (.notRegistered request.result)))
        (kept host request (.error (.notRegistered request.result)) (vacated request workspace))
  | supplied {conversion : Conversion} {descriptor : Descriptor} {after : Workspace σ}
      (hSome : request.profile.registry.get? request.result = some conversion)
      (hSupplied : Supplied host request conversion (vacated request workspace)
        (.ok descriptor) after) :
      LookedUp (.ok (.ok descriptor)) (kept host request (.ok descriptor) after)
  | rejected {conversion : Conversion} {rejection : Rejection} {after : Workspace σ}
      (hSome : request.profile.registry.get? request.result = some conversion)
      (hSupplied : Supplied host request conversion (vacated request workspace)
        (.error (.rejected rejection)) after) :
      LookedUp (.ok (.error (.supplierFailed rejection)))
        (kept host request (.error (.supplierFailed rejection)) after)
  | failed {conversion : Conversion} {e : CompileError} {after : Workspace σ}
      (hSome : request.profile.registry.get? request.result = some conversion)
      (hSupplied : Supplied host request conversion (vacated request workspace) (.error e) after)
      (hFatal : e.IsFatal) :
      LookedUp (.error e) after

theorem lookedUp_lookup :
    LookedUp host request workspace (lookup host request workspace).1
      (lookup host request workspace).2 := by
  cases hFresh : workspace.cache.fresh? (host.clock workspace.host) (Key.ofRequest request) with
  | some entry =>
      rw [lookup_of_fresh? hFresh]
      exact .hit hFresh
  | none =>
      rw [lookup_of_fresh?_eq_none hFresh]
      cases hRegistered : request.profile.registry.get? request.result with
      | none =>
          rw [resolve_of_unregistered hRegistered]
          exact .unregistered hRegistered
      | some conversion =>
          rw [resolve_of_registered hRegistered]
          have hSupplied := supplied_loadSupplier host request conversion (vacated request workspace)
          rw [vacated] at hSupplied
          cases hLoad : loadSupplier host request conversion
            { workspace with cache := workspace.cache.vacate (Key.ofRequest request) } with
          | mk result after =>
              rw [hLoad] at hSupplied
              cases result with
              | ok descriptor => exact .supplied hRegistered hSupplied
              | error e =>
                  cases e with
                  | rejected rejection => exact .rejected hRegistered hSupplied
                  | host | conversion | aborted => exact .failed hRegistered hSupplied trivial

end LookedUp

variable {host : Host σ} {request : Request} {conversion : Conversion} {workspace after : Workspace σ}

namespace Supplied
variable {result : Except CompileError Descriptor}

/-- Loading a supplier changes units only, no entries. -/
theorem entries_eq (h : Supplied host request conversion workspace result after) :
    after.cache.entries = workspace.cache.entries := by
  cases h <;> rfl

theorem idle_eq (h : Supplied host request conversion workspace result after) :
    after.cache.idle = workspace.cache.idle := by
  cases h <;> rfl

/-- The descriptor of a loaded supplier has the conversion that it was loaded for. -/
theorem conversion_eq {descriptor : Descriptor}
    (h : Supplied host request conversion workspace (.ok descriptor) after) :
    descriptor.conversion = conversion := by
  cases h <;> rfl

/-- A unit was loaded before, or it is the one that was compiled for the request. -/
theorem get?_units {fingerprint : Fingerprint} {supplier : Handle}
    (h : Supplied host request conversion workspace result after)
    (hLoaded : after.cache.units.get? fingerprint = some supplier) :
    workspace.cache.units.get? fingerprint = some supplier ∨
      ∃ profile utilities middle later,
        Supports host request workspace.host profile utilities middle ∧
        fingerprint = (supplierUnit request conversion profile utilities).fingerprint ∧
        host.compileUnit (supplierUnit request conversion profile utilities) middle =
          (.ok supplier, later) := by
  cases h with
  | noProfile | noUtilities | reused | failed => exact .inl hLoaded
  | loaded hSupports hUnit _ hCompile =>
      subst hUnit
      rw [Cache.load, Table.get?_insert] at hLoaded
      split at hLoaded
      · rename_i hFingerprint
        cases hLoaded
        exact .inr ⟨_, _, _, _, hSupports, hFingerprint, hCompile⟩
      · exact .inl hLoaded

end Supplied

/-- Among the entries after an outcome was kept, only the one of the request can be new. -/
theorem get?_entries_kept {outcome : Outcome} {key : Key} {entry : Entry}
    (hEntry : (kept host request outcome workspace).cache.entries.get? key = some entry) :
    workspace.cache.entries.get? key = some entry ∨
      key = Key.ofRequest request ∧ entry.outcome = outcome := by
  rw [kept, Cache.keep, Table.get?_insert] at hEntry
  split at hEntry
  · rename_i hKey
    cases hEntry
    exact .inr ⟨hKey, rfl⟩
  · exact .inl hEntry

/-- An outcome is kept by any look-up that has one. -/
theorem LookedUp.exists_kept {outcome : Outcome}
    (h : LookedUp host request workspace (.ok outcome) after) :
    ∃ before : Workspace σ, before.cache.idle = workspace.cache.idle ∧
      after = kept host request outcome before := by
  cases h with
  | hit => exact ⟨workspace, rfl, rfl⟩
  | unregistered => exact ⟨vacated request workspace, rfl, rfl⟩
  | supplied _ hSupplied | rejected _ hSupplied => exact ⟨_, hSupplied.idle_eq, rfl⟩

/-- What was looked up is found again without the host, until the idle time has passed. -/
theorem lookup_again {outcome : Outcome}
    (hLookup : lookup host request workspace = (.ok outcome, after)) {now : σ}
    (hIdle : host.clock now - host.clock after.host < workspace.cache.idle) :
    ∃ cache, lookup host request { after with host := now } = (.ok outcome, ⟨now, cache⟩) := by
  have hLookedUp := lookedUp_lookup host request workspace
  rw [hLookup] at hLookedUp
  obtain ⟨before, hSame, rfl⟩ := hLookedUp.exists_kept
  have hFresh : (kept host request outcome before).cache.fresh? (host.clock now)
      (Key.ofRequest request) = some ⟨outcome, host.clock before.host⟩ := by
    rw [Cache.fresh?, kept, Cache.keep, Table.get?_insert, if_pos rfl, Option.filter_eq_some_iff]
    refine ⟨rfl, decide_eq_true ?_⟩
    rw [← hSame] at hIdle
    exact hIdle
  exact ⟨_, @lookup_of_fresh? σ host request
    { kept host request outcome before with host := now } _ hFresh⟩

/-- After a look-up, an entry was there before it or holds its outcome. -/
theorem LookedUp.get?_entries {result : Except CompileError Outcome} {key : Key} {entry : Entry}
    (h : LookedUp host request workspace result after)
    (hEntry : after.cache.entries.get? key = some entry) :
    workspace.cache.entries.get? key = some entry ∨
      key = Key.ofRequest request ∧ result = .ok entry.outcome := by
  have hKept : ∀ {outcome : Outcome} {before : Workspace σ},
      (∀ key entry, before.cache.entries.get? key = some entry →
        workspace.cache.entries.get? key = some entry) →
      (kept host request outcome before).cache.entries.get? key = some entry →
      workspace.cache.entries.get? key = some entry ∨
        key = Key.ofRequest request ∧
          (.ok outcome : Except CompileError Outcome) = .ok entry.outcome := by
    intro outcome before hBefore hEntry
    rcases get?_entries_kept hEntry with hOld | ⟨hKey, hOutcome⟩
    · exact .inl (hBefore _ _ hOld)
    · exact .inr ⟨hKey, by rw [hOutcome]⟩
  have hSame : ∀ {conversion : Conversion} {supplied : Except CompileError Descriptor}
      {last : Workspace σ},
      Supplied host request conversion (vacated request workspace) supplied last →
      ∀ key entry, last.cache.entries.get? key = some entry →
        workspace.cache.entries.get? key = some entry := by
    intro conversion supplied last hSupplied key entry hEntry
    rw [hSupplied.entries_eq] at hEntry
    exact Cache.get?_entries_of_vacate hEntry
  cases h with
  | hit => exact hKept (fun _ _ h => h) hEntry
  | unregistered => exact hKept (fun _ _ h => Cache.get?_entries_of_vacate h) hEntry
  | supplied _ hSupplied | rejected _ hSupplied => exact hKept (hSame hSupplied) hEntry
  | failed _ hSupplied => exact .inl (hSame hSupplied _ _ hEntry)

theorem get?_entries_kept_of_ne {outcome : Outcome} {key : Key}
    (hKey : key ≠ Key.ofRequest request) :
    (kept host request outcome workspace).cache.entries.get? key =
      workspace.cache.entries.get? key := by
  rw [kept, Cache.keep, Table.get?_insert, if_neg hKey]

/-- A look-up has nothing to do with the entries of other keys. -/
theorem LookedUp.get?_entries_of_ne {result : Except CompileError Outcome} {key : Key}
    (h : LookedUp host request workspace result after) (hKey : key ≠ Key.ofRequest request) :
    after.cache.entries.get? key = workspace.cache.entries.get? key := by
  have hVacated : (vacated request workspace).cache.entries.get? key =
      workspace.cache.entries.get? key := by
    rw [vacated, Cache.get?_entries_vacate, if_neg hKey]
  cases h with
  | hit => exact get?_entries_kept_of_ne hKey
  | unregistered => rw [get?_entries_kept_of_ne hKey, hVacated]
  | supplied _ hSupplied | rejected _ hSupplied =>
      rw [get?_entries_kept_of_ne hKey, hSupplied.entries_eq, hVacated]
  | failed _ hSupplied => rw [hSupplied.entries_eq, hVacated]

/-- The idle time is the same for ever. -/
theorem LookedUp.idle_eq {result : Except CompileError Outcome}
    (h : LookedUp host request workspace result after) :
    after.cache.idle = workspace.cache.idle := by
  cases h with
  | hit | unregistered => rfl
  | supplied _ hSupplied | rejected _ hSupplied | failed _ hSupplied => exact hSupplied.idle_eq

/-- After a look-up, a unit was loaded before it or has just been compiled. -/
theorem LookedUp.get?_units {result : Except CompileError Outcome} {fingerprint : Fingerprint}
    {supplier : Handle} (h : LookedUp host request workspace result after)
    (hLoaded : after.cache.units.get? fingerprint = some supplier) :
    workspace.cache.units.get? fingerprint = some supplier ∨
      ∃ conversion profile utilities middle later,
        request.profile.registry.get? request.result = some conversion ∧
        Supports host request workspace.host profile utilities middle ∧
        fingerprint = (supplierUnit request conversion profile utilities).fingerprint ∧
        host.compileUnit (supplierUnit request conversion profile utilities) middle =
          (.ok supplier, later) := by
  cases h with
  | hit => exact .inl hLoaded
  | unregistered => exact .inl (Cache.get?_units_of_vacate hLoaded)
  | @supplied conversion _ _ hSome hSupplied | @rejected conversion _ _ hSome hSupplied
  | @failed conversion _ _ hSome hSupplied =>
      rcases hSupplied.get?_units hLoaded with hOld | ⟨profile, utilities, middle, later, hNew⟩
      · exact .inl (Cache.get?_units_of_vacate hOld)
      · exact .inr ⟨conversion, profile, utilities, middle, later, hSome, hNew⟩

end Conversion
end TemplateCompiler
