import TemplateCompiler.Proofs.Compiler.Runs

/-! The descriptors that a cache holds. Each was supplied for a request with the key it is
held under. So what is true of every descriptor that is supplied, and speaks of the request
only through its key, is true of every descriptor that is ever found. -/
namespace TemplateCompiler.Conversion

variable {σ : Type} {host : Host σ} {request : Request} {workspace after : Workspace σ}
  {descriptor : Descriptor} {P : Key → Descriptor → Prop}

/-- Every descriptor that is held has a property, which may depend on its key. -/
def Cache.EachHeld (P : Key → Descriptor → Prop) (cache : Cache) : Prop :=
  ∀ key entry descriptor, cache.entries.get? key = some entry → entry.outcome = .ok descriptor →
    P key descriptor

/-- A descriptor that is found was held under the key, or it has just been supplied. -/
theorem LookedUp.held_or_supplied
    (h : LookedUp host request workspace (.ok (.ok descriptor)) after) :
    (∃ entry, workspace.cache.entries.get? (Key.ofRequest request) = some entry ∧
      entry.outcome = .ok descriptor) ∨
    ∃ conversion last, request.profile.registry.get? request.result = some conversion ∧
      Supplied host request conversion (vacated request workspace) (.ok descriptor) last := by
  generalize hResult : (.ok (.ok descriptor) : Except CompileError Outcome) = result at h
  cases h with
  | hit hFresh => exact .inl ⟨_, Cache.get?_of_fresh? hFresh, (Except.ok.inj hResult).symm⟩
  | supplied hSome hSupplied =>
      cases hResult
      exact .inr ⟨_, _, hSome, hSupplied⟩
  | unregistered | rejected | failed => cases hResult

/-- What is true of the descriptors that are supplied for a request. -/
def EachSupplied (host : Host σ) (P : Key → Descriptor → Prop) (request : Request) : Prop :=
  ∀ conversion workspace descriptor after,
    request.profile.registry.get? request.result = some conversion →
    Supplied host request conversion workspace (.ok descriptor) after →
      P (Key.ofRequest request) descriptor

/-- What is true of all descriptors that are held or supplied is true of one that was looked
up. -/
theorem LookedUp.of_eachHeld (h : LookedUp host request workspace (.ok (.ok descriptor)) after)
    (hHeld : workspace.cache.EachHeld P) (hNew : EachSupplied host P request) :
    P (Key.ofRequest request) descriptor := by
  rcases h.held_or_supplied with ⟨entry, hEntry, hOutcome⟩ | ⟨_, _, hSome, hSupplied⟩
  · exact hHeld _ entry descriptor hEntry hOutcome
  · exact hNew _ _ descriptor _ hSome hSupplied

/-- What is true of the descriptors that are supplied is true of all that are ever held. -/
theorem keeps_eachHeld {Q : Request → Prop} (hNew : ∀ request, Q request → EachSupplied host P request) :
    Compiler.Keeps host (Cache.EachHeld P) Q where
  lookup request workspace hRequest h := by
    have hLookedUp := lookedUp_lookup host request workspace
    intro key entry descriptor hEntry hOutcome
    rcases hLookedUp.get?_entries hEntry with hOld | ⟨hSame, hResult⟩
    · exact h key entry descriptor hOld hOutcome
    · rw [hResult, hOutcome] at hLookedUp
      rw [hSame]
      exact hLookedUp.of_eachHeld h (hNew request hRequest)
  purge cache now h := by
    intro key entry descriptor hEntry
    exact h key entry descriptor (Cache.get?_entries_of_purge hEntry)
  empty idle := by
    intro key entry descriptor hEntry
    cases hEntry

end TemplateCompiler.Conversion
