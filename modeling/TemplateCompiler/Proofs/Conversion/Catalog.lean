import Mathlib.Logic.Function.Basic
import TemplateCompiler.Conversion.Cache

/-! Registries are recognised by their ids, which holds as long as there are numbers left.
An id is issued together with the contents it stands for, and no operation changes those
contents under the same id. -/
namespace TemplateCompiler

namespace RegistryId
variable {n m : Nat}

/-- Numbers are issued from one on, as long as they do not overflow. -/
theorem toNat_issued (hn : n + 1 < UInt64.size) : (issued n).number.toNat = n + 1 :=
  UInt64.toNat_ofNat_of_lt' hn

/-- No number is issued twice, as long as they do not overflow. -/
theorem issued_inj (hn : n + 1 < UInt64.size) (hm : m + 1 < UInt64.size)
    (h : issued n = issued m) : n = m := by
  apply Nat.succ.inj
  calc n + 1 = (issued n).number.toNat := (toNat_issued hn).symm
    _ = (issued m).number.toNat := by rw [h]
    _ = m + 1 := toNat_issued hm

/-- The number of the standard registry is never issued, as long as they do not overflow. -/
theorem issued_ne_standard (hn : n + 1 < UInt64.size) : issued n ≠ standard := by
  intro h
  have hNumber := toNat_issued hn
  rw [h] at hNumber
  cases hNumber

end RegistryId

namespace Catalog

/-- A catalog, together with every registry that was ever part of it. A profile that took
a copy of a registry keeps it, whatever happens to the catalog afterwards. -/
inductive History : List Registry → Catalog → Prop where
  | start : History [] .empty
  | step {made : List Registry} {c d : Catalog} {operation : Operation}
      (prior : History made c) (last : c.perform? operation = some d) :
      History (made ++ d.registries) d

/-- An operation keeps a registry, or adds the standard one, or adds the one for which it
issues the next id. -/
theorem registries_of_perform? {c d : Catalog} {operation : Operation}
    (h : c.perform? operation = some d) :
    c.issued ≤ d.issued ∧ ∃ conversions, ∀ r ∈ d.registries,
      r ∈ c.registries ∨ r = .standard ∨
        (c.issued < d.issued ∧ r = ⟨.issued c.issued, conversions⟩) := by
  cases operation with
  | create =>
      cases h
      refine ⟨Nat.le_succ _, .empty, fun r hMem => ?_⟩
      rcases List.mem_append.mp hMem with hOld | hNew
      · exact .inl hOld
      · exact .inr (.inr ⟨Nat.lt_succ_self _, List.mem_singleton.mp hNew⟩)
  | createStandard =>
      cases h
      refine ⟨by simp only; omega, .empty, fun r hMem => ?_⟩
      rcases List.mem_append.mp hMem with hOld | hNew
      · exact .inl hOld
      · exact .inr (.inl (List.mem_singleton.mp hNew))
  | copy index =>
      obtain ⟨original, hOriginal, hDone⟩ := Option.bind_eq_some_iff.mp h
      cases hDone
      refine ⟨Nat.le_refl _, .empty, fun r hMem => .inl ?_⟩
      rcases List.mem_append.mp hMem with hOld | hNew
      · exact hOld
      · rw [List.mem_singleton.mp hNew]
        exact List.mem_of_getElem? hOriginal
  | register index type conversion =>
      obtain ⟨original, _, hDone⟩ := Option.bind_eq_some_iff.mp h
      cases hDone
      refine ⟨Nat.le_succ _, original.conversions.insert type conversion, fun r hMem => ?_⟩
      rcases List.mem_or_eq_of_mem_set hMem with hOld | hNew
      · exact .inl hOld
      · exact .inr (.inr ⟨Nat.lt_succ_self _, hNew⟩)

/-- A registry is the standard one, or it holds what its id was issued for. -/
def Named (contents : Nat → Table ValueType Conversion) (issued : Nat) (r : Registry) : Prop :=
  r = .standard ∨ ∃ n < issued, r = ⟨.issued n, contents n⟩

/-- A registry keeps its name when a new id is issued, and contents are recorded for that one. -/
theorem Named.step {contents : Nat → Table ValueType Conversion} {issued later : Nat}
    {r : Registry} (h : Named contents issued r) (hLater : issued ≤ later)
    (conversions : Table ValueType Conversion) :
    Named (Function.update contents issued conversions) later r := by
  rcases h with hStandard | ⟨n, hIssued, hEq⟩
  · exact .inl hStandard
  · refine .inr ⟨n, by omega, ?_⟩
    rw [Function.update_of_ne (by omega)]
    exact hEq

namespace History
variable {made : List Registry} {c : Catalog}

/-- Every history has contents for each id that was issued in it. -/
theorem exists_contents (h : History made c) :
    ∃ contents, (∀ r ∈ made, Named contents c.issued r) ∧
      ∀ r ∈ c.registries, Named contents c.issued r := by
  induction h with
  | start => exact ⟨fun _ => .empty, by simp, by simp [Catalog.empty]⟩
  | @step made c d operation prior last ih =>
      obtain ⟨contents, hMade, hPresent⟩ := ih
      obtain ⟨hLater, conversions, hRegistries⟩ := registries_of_perform? last
      have hNew : ∀ r ∈ d.registries,
          Named (Function.update contents c.issued conversions) d.issued r := by
        intro r hMem
        rcases hRegistries r hMem with hOld | hStandard | ⟨hIssued, hEq⟩
        · exact (hPresent r hOld).step hLater conversions
        · exact .inl hStandard
        · refine .inr ⟨c.issued, hIssued, ?_⟩
          rw [Function.update_self]
          exact hEq
      refine ⟨_, fun r hMem => ?_, hNew⟩
      rcases List.mem_append.mp hMem with hOld | hLast
      · exact (hMade r hOld).step hLater conversions
      · exact hNew r hLast

/-- As long as there are numbers left, registries with the same id hold the same
conversions, however they came about and whenever. -/
theorem conversions_eq_of_id_eq (h : History made c) (hIssued : c.issued < UInt64.size)
    {r r' : Registry} (hr : r ∈ made) (hr' : r' ∈ made) (hId : r.id = r'.id) :
    r.conversions = r'.conversions := by
  obtain ⟨contents, hNamed, _⟩ := h.exists_contents
  have hLeft : ∀ n < c.issued, n + 1 < UInt64.size := fun n hn => by omega
  rcases hNamed r hr with rfl | ⟨n, hn, rfl⟩ <;> rcases hNamed r' hr' with rfl | ⟨m, hm, rfl⟩
  · rfl
  · exact absurd hId.symm (RegistryId.issued_ne_standard (hLeft m hm))
  · exact absurd hId (RegistryId.issued_ne_standard (hLeft n hn))
  · rw [RegistryId.issued_inj (hLeft n hn) (hLeft m hm) hId]

/-- Among these registries, a key says which conversion a request has registered. -/
theorem get?_eq_of_key_eq (h : History made c) (hIssued : c.issued < UInt64.size)
    {request request' : Request} (hr : request.profile.registry ∈ made)
    (hr' : request'.profile.registry ∈ made)
    (hKey : Conversion.Key.ofRequest request = Conversion.Key.ofRequest request') :
    request.profile.registry.get? request.result =
      request'.profile.registry.get? request'.result := by
  simp only [Conversion.Key.ofRequest, Conversion.Key.mk.injEq] at hKey
  obtain ⟨_, hId, hResult, _⟩ := hKey
  rw [Registry.get?, Registry.get?, h.conversions_eq_of_id_eq hIssued hr hr' hId, hResult]

end History
end Catalog
end TemplateCompiler
