import TemplateCompiler.Table

/-! What is found in a table after an operation. A pair that is found is one of the
entries and the other way round, since no key is there twice. -/
namespace TemplateCompiler.Table

variable {κ α : Type} [DecidableEq κ]

theorem lookup_cons_eq (k k' : κ) (a : α) (rest : List (κ × α)) :
    ((k', a) :: rest).lookup k = if k = k' then some a else rest.lookup k := by
  by_cases hKey : k = k'
  · simp [hKey]
  · rw [List.lookup_cons, beq_eq_false_iff_ne.mpr hKey, if_neg hKey]

/-- A value that is put into a table is the one that is found there under its key. -/
theorem lookup_put (k k' : κ) (a : α) (entries : List (κ × α)) :
    (put k a entries).lookup k' = if k' = k then some a else entries.lookup k' := by
  induction entries with
  | nil => exact lookup_cons_eq k' k a []
  | cons entry rest ih =>
      by_cases hEntry : entry.1 = k
      · rw [put, if_pos hEntry, lookup_cons_eq, lookup_cons_eq, hEntry]
        split <;> rfl
      · rw [put, if_neg hEntry, lookup_cons_eq, lookup_cons_eq, ih]
        by_cases hKey : k' = k
        · have hNe : k' ≠ entry.1 := fun hEq => hEntry (hEq.symm.trans hKey)
          simp only [if_neg hNe, if_pos hKey]
        · simp only [if_neg hKey]

/-- With unique keys, what is found are the entries. -/
theorem lookup_eq_some_iff_mem {entries : List (κ × α)} (hNodup : (entries.map Prod.fst).Nodup)
    {k : κ} {a : α} : entries.lookup k = some a ↔ (k, a) ∈ entries := by
  induction entries with
  | nil => simp
  | cons entry rest ih =>
      obtain ⟨k', a'⟩ := entry
      rw [List.map_cons, List.nodup_cons] at hNodup
      rw [lookup_cons_eq, List.mem_cons]
      by_cases hKey : k = k'
      · subst hKey
        have hAway : (k, a) ∉ rest := fun hMem => hNodup.1 (List.mem_map.mpr ⟨_, hMem, rfl⟩)
        simp [hAway, eq_comm]
      · simp [hKey, ih hNodup.2]

variable {t : Table κ α} {k k' : κ} {a : α}

theorem get?_eq_some_iff : t.get? k = some a ↔ (k, a) ∈ t.entries :=
  lookup_eq_some_iff_mem t.nodup

/-- The keys are those under which something is found. -/
theorem mem_keys_iff : k ∈ t.keys ↔ ∃ a, t.get? k = some a := by
  simp [keys, get?_eq_some_iff]

theorem mem_values_iff : a ∈ t.values ↔ ∃ k, t.get? k = some a := by
  simp [values, get?_eq_some_iff]

@[simp] theorem get?_insert :
    (t.insert k a).get? k' = if k' = k then some a else t.get? k' :=
  lookup_put k k' a t.entries

/-- A new key comes after all others. -/
theorem keys_insert_of_get?_eq_none (hNone : t.get? k = none) :
    (t.insert k a).keys = t.keys ++ [k] := by
  have hNew : k ∉ t.keys := by
    intro hMem
    obtain ⟨b, hSome⟩ := mem_keys_iff.mp hMem
    rw [hNone] at hSome
    cases hSome
  exact (map_fst_put k a t.entries).trans (if_neg hNew)

@[simp] theorem get?_filter_eq_some_iff {keep : κ × α → Bool} :
    (t.filter keep).get? k = some a ↔ t.get? k = some a ∧ keep (k, a) = true := by
  simp [get?_eq_some_iff, filter]

@[simp] theorem get?_erase : (t.erase k).get? k' = if k' = k then none else t.get? k' := by
  apply Option.ext
  intro b
  by_cases hKey : k' = k <;> simp [erase, hKey]

omit [DecidableEq κ] in
theorem filter_eq_self {keep : κ × α → Bool} (hKeep : ∀ entry ∈ t.entries, keep entry = true) :
    t.filter keep = t := by
  cases t
  simp only [filter, List.filter_eq_self.mpr hKeep]

theorem erase_of_get?_eq_none (hNone : t.get? k = none) : t.erase k = t := by
  apply filter_eq_self
  rintro ⟨k', a⟩ hMem
  have hNe : k' ≠ k := by
    rintro rfl
    rw [get?_eq_some_iff.mpr hMem] at hNone
    cases hNone
  simpa using hNe

end TemplateCompiler.Table
