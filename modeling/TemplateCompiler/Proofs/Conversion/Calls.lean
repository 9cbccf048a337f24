import TemplateCompiler.Proofs.Conversion.Lookup

/-! What a look-up asks of the host, call by call. An entry that can be used takes no call,
and neither does a type that is not registered. In all other cases the host is asked for
the code of the profile, even if the supplier that refers to it turns out to be loaded. -/
namespace TemplateCompiler

namespace Conversion
variable {σ : Type} {host : Host σ} {request : Request} {conversion : Conversion}
  {workspace after : Workspace σ} {unit : SourceUnit}

open Workspace TemplateCompiler.Action

section Calls
variable (host request)

/-- The calls that it takes to load a supplier, if these units are loaded already. Nothing
more is asked after a failure. -/
def loadingCalls (conversion : Conversion) (units : Table Fingerprint Handle) (s : σ) :
    List Call :=
  .profile request.profile ::
    match host.compileProfile request.profile s with
    | (.error _, _) => []
    | (.ok profile, middle) =>
      .utilities request.profile request.header ::
        match host.compileUtilities request.profile request.header middle with
        | (.error _, _) => []
        | (.ok utilities, _) =>
          let unit := supplierUnit request conversion profile utilities
          if units.contains unit.fingerprint then [] else [.unit unit]

/-- The calls of a first look-up, for a key under which nothing is held. -/
def firstCalls (units : Table Fingerprint Handle) (s : σ) : List Call :=
  match request.profile.registry.get? request.result with
  | none => []
  | some conversion => loadingCalls host request conversion units s

/-- A look-up gets as far as the supplier: nothing is held that can be used, there is a
conversion, and the host has the code to which the supplier refers. -/
def Reaches (workspace : Workspace σ) (unit : SourceUnit) : Prop :=
  workspace.cache.fresh? (host.clock workspace.host) (Key.ofRequest request) = none ∧
  ∃ conversion profile utilities after,
    request.profile.registry.get? request.result = some conversion ∧
    Supports host request workspace.host profile utilities after ∧
    unit = supplierUnit request conversion profile utilities

/-- The host is asked for the code of the profile, and once for the supplier. -/
def Compiles (workspace : Workspace σ) (unit : SourceUnit) : Prop :=
  ∀ calls, (lookup host.recorded request ⟨(workspace.host, calls), workspace.cache⟩).2.host.2 =
    calls ++ [.profile request.profile, .utilities request.profile request.header, .unit unit]

/-- The host is asked for the code of the profile, and not for the supplier. -/
def Reuses (workspace : Workspace σ) : Prop :=
  ∀ calls, (lookup host.recorded request ⟨(workspace.host, calls), workspace.cache⟩).2.host.2 =
    calls ++ [.profile request.profile, .utilities request.profile request.header]

end Calls

/-- The two ways in which a look-up can reach the supplier exclude each other. -/
theorem Compiles.not_reuses (h : Compiles host request workspace unit) :
    ¬Reuses host request workspace := by
  intro hReuses
  have hSame := (hReuses []).symm.trans (h [])
  simp at hSame

/-- Without a conversion the host is not called. -/
theorem firstCalls_of_unregistered
    (hNone : request.profile.registry.get? request.result = none)
    (units : Table Fingerprint Handle) (s : σ) : firstCalls host request units s = [] := by
  rw [firstCalls, hNone]

/-- The host is called for the code of the profile, and then for the supplier if that is not
loaded. -/
theorem loadingCalls_of_supports {profile utilities : Handle} {s later : σ}
    (hSupports : Supports host request s profile utilities later)
    (units : Table Fingerprint Handle) :
    loadingCalls host request conversion units s =
      [.profile request.profile, .utilities request.profile request.header] ++
        if units.contains (supplierUnit request conversion profile utilities).fingerprint then []
        else [.unit (supplierUnit request conversion profile utilities)] := by
  obtain ⟨middle, hProfile, hUtilities⟩ := hSupports
  simp only [loadingCalls, hProfile, hUtilities]
  rfl

/-- A look-up that reaches the supplier asks for it if it is not loaded. -/
theorem Reaches.firstCalls_eq (h : Reaches host request workspace unit)
    (units : Table Fingerprint Handle) :
    firstCalls host request units workspace.host =
      [.profile request.profile, .utilities request.profile request.header] ++
        if units.contains unit.fingerprint then [] else [.unit unit] := by
  obtain ⟨_, conversion, profile, utilities, later, hSome, hSupports, rfl⟩ := h
  rw [firstCalls, hSome]
  exact loadingCalls_of_supports hSupports units

/-- A recorded host loads a supplier as the host does, and the calls are written down. -/
theorem Supplied.recorded {result : Except CompileError Descriptor}
    (h : Supplied host request conversion workspace result after) (calls : List Call) :
    Supplied host.recorded request conversion ⟨(workspace.host, calls), workspace.cache⟩ result
      ⟨(after.host, calls ++
        loadingCalls host request conversion workspace.cache.units workspace.host),
        after.cache⟩ := by
  have hRecord : ∀ {profile utilities : Handle} {later : σ},
      Supports host request workspace.host profile utilities later →
      Supports host.recorded request (workspace.host, calls) profile utilities
        (later, calls ++
          [.profile request.profile, .utilities request.profile request.header]) := by
    rintro profile utilities later ⟨middle, hProfile, hUtilities⟩
    rw [List.append_cons]
    exact ⟨_, Host.record_eq hProfile _ _, Host.record_eq hUtilities _ _⟩
  cases h with
  | noProfile hProfile =>
      simp only [loadingCalls, hProfile]
      exact .noProfile (Host.record_eq hProfile _ _)
  | noUtilities hProfile hUtilities =>
      simp only [loadingCalls, hProfile, hUtilities]
      rw [List.append_cons]
      exact .noUtilities (Host.record_eq hProfile _ _) (Host.record_eq hUtilities _ _)
  | reused hSupports hUnit hLoaded =>
      subst hUnit
      rw [loadingCalls_of_supports hSupports, if_pos (by simp [Table.contains, hLoaded]),
        List.append_nil]
      exact .reused (hRecord hSupports) rfl hLoaded
  | failed hSupports hUnit hLoaded hCompile =>
      subst hUnit
      rw [loadingCalls_of_supports hSupports, if_neg (by simp [Table.contains, hLoaded]),
        ← List.append_assoc]
      exact .failed (hRecord hSupports) rfl hLoaded (Host.record_eq hCompile _ _)
  | loaded hSupports hUnit hLoaded hCompile =>
      subst hUnit
      rw [loadingCalls_of_supports hSupports, if_neg (by simp [Table.contains, hLoaded]),
        ← List.append_assoc]
      exact .loaded (hRecord hSupports) rfl hLoaded (Host.record_eq hCompile _ _)

/-- The record of a resolution has its calls added to it, and nothing else is different. -/
theorem resolve_recorded (host : Host σ) (request : Request) (workspace : Workspace σ)
    (calls : List Call) :
    resolve host.recorded request ⟨(workspace.host, calls), workspace.cache⟩ =
      ((resolve host request workspace).1,
        ⟨((resolve host request workspace).2.host,
          calls ++ firstCalls host request workspace.cache.units workspace.host),
          (resolve host request workspace).2.cache⟩) := by
  cases hRegistered : request.profile.registry.get? request.result with
  | none =>
      rw [resolve_of_unregistered hRegistered, resolve_of_unregistered hRegistered,
        firstCalls_of_unregistered hRegistered, List.append_nil]
  | some conversion =>
      have hSupplied := (supplied_loadSupplier host request conversion workspace).recorded calls
      rw [resolve_of_registered hRegistered, resolve_of_registered hRegistered,
        hSupplied.loadSupplier_eq, firstCalls, hRegistered]

/-- Without an entry that can be used, the calls are those of a first look-up, with the units
that are loaded when the entry is gone. All else is as without the record. -/
theorem lookup_recorded_of_fresh?_eq_none {s : σ} {cache : Cache}
    (hNone : cache.fresh? (host.clock s) (Key.ofRequest request) = none) (calls : List Call) :
    lookup host.recorded request ⟨(s, calls), cache⟩ =
      ((lookup host request ⟨s, cache⟩).1,
        ⟨((lookup host request ⟨s, cache⟩).2.host,
          calls ++ firstCalls host request (cache.vacate (Key.ofRequest request)).units s),
          (lookup host request ⟨s, cache⟩).2.cache⟩) := by
  have hPlain : lookup host request ⟨s, cache⟩ = _ := lookup_of_fresh?_eq_none hNone
  have hRecorded : lookup host.recorded request ⟨(s, calls), cache⟩ = _ :=
    lookup_of_fresh?_eq_none hNone
  have hResolve := resolve_recorded host request
    ⟨s, cache.vacate (Key.ofRequest request)⟩ calls
  rw [hPlain, hRecorded]
  dsimp only at hResolve ⊢
  rw [hResolve]
  cases resolve host request ⟨s, cache.vacate (Key.ofRequest request)⟩ with
  | mk result later => cases result <;> rfl

/-- A look-up that gets as far as the supplier compiles it, or uses one that is loaded when
the entry of the key is gone. -/
theorem Reaches.reuses_or_compiles (h : Reaches host request workspace unit) :
    Reuses host request workspace ∧
      unit.fingerprint ∈ (workspace.cache.vacate (Key.ofRequest request)).units.keys ∨
    Compiles host request workspace unit ∧
      unit.fingerprint ∉ (workspace.cache.vacate (Key.ofRequest request)).units.keys := by
  have hCalls : ∀ calls,
      (lookup host.recorded request ⟨(workspace.host, calls), workspace.cache⟩).2.host.2 = _ :=
    fun calls => congrArg (fun found => found.2.host.2)
      (lookup_recorded_of_fresh?_eq_none h.1 calls)
  simp only [h.firstCalls_eq] at hCalls
  rw [Table.mem_keys_iff, ← Option.isSome_iff_exists]
  cases hLoaded : (workspace.cache.vacate (Key.ofRequest request)).units.contains
      unit.fingerprint with
  | true =>
      refine .inl ⟨fun calls => ?_, hLoaded⟩
      rw [hCalls, if_pos hLoaded, List.append_nil]
  | false =>
      refine .inr ⟨fun calls => ?_, Bool.not_eq_true _ ▸ hLoaded⟩
      rw [hCalls, if_neg (Bool.not_eq_true _ ▸ hLoaded)]
      rfl

end Conversion
end TemplateCompiler
