import TemplateCompiler.Proofs.Conversion.Catalog
import TemplateCompiler.Proofs.Conversion.Descriptors

/-! Literals are folded with the conversions of their own profile. Entries are told apart
by the name of the profile and the id of its registry, and suppliers are shared by even
more requests. Neither leads to a conversion of another registry. -/
namespace TemplateCompiler

namespace Conversion
variable {σ : Type} {made : List Registry} {catalog : Catalog}

/-- Every descriptor that is held has the conversion that any request with its key has
registered, be it in one registry or in another. -/
def Cache.Serves (made : List Registry) (cache : Cache) : Prop :=
  ∀ key entry descriptor, cache.entries.get? key = some entry → entry.outcome = .ok descriptor →
    ∀ request : Request, request.profile.registry ∈ made → Key.ofRequest request = key →
      request.profile.registry.get? request.result = some descriptor.conversion

/-- What a look-up finds is what is registered, whether it was held or not. -/
theorem LookedUp.registered {host : Host σ} {request : Request} {workspace after : Workspace σ}
    {descriptor : Descriptor}
    (h : LookedUp host request workspace (.ok (.ok descriptor)) after)
    (hServes : workspace.cache.Serves made) (hRequest : request.profile.registry ∈ made) :
    request.profile.registry.get? request.result = some descriptor.conversion := by
  rcases h.held_or_supplied with ⟨entry, hEntry, hOutcome⟩ | ⟨conversion, last, hSome, hSupplied⟩
  · exact hServes _ entry descriptor hEntry hOutcome request hRequest rfl
  · rw [hSome, hSupplied.conversion_eq]

/-- Every descriptor that can be held has the conversion of each request with its key. -/
theorem keeps_serves (hMade : catalog.History made) (hIssued : catalog.issued < UInt64.size)
    (host : Host σ) :
    Compiler.Keeps host (Cache.Serves made) fun request => request.profile.registry ∈ made := by
  refine keeps_eachHeld fun request hRequest => ?_
  intro conversion workspace descriptor after hSome hSupplied other hOther hKey
  rw [hMade.get?_eq_of_key_eq hIssued hOther hRequest hKey, hSome, hSupplied.conversion_eq]

end Conversion

namespace Compiler
variable {σ : Type}

/-- In the course of any run, with any host and any idle time, a conversion that is found
for a request is the one its own registry holds, as long as there are numbers left for the
ids. So a literal of the request is folded with that conversion: empty text is absent if
the conversion is nullable, whatever the conversion would make of it, and text that is
rejected is the one thing the author is told of. -/
theorem folds_own_conversion {made : List Registry} {catalog : Catalog}
    (hMade : catalog.History made) (hIssued : catalog.issued < UInt64.size) {host : Host σ}
    {options : Options} {events : List (Event σ)} {s : σ} {replies : List Reply}
    {workspace after : Workspace σ}
    (hRun : run host options events (start options s) = (replies, workspace))
    (hEvents : ∀ request ∈ requests events, request.profile.registry ∈ made)
    {request : Request} (hRequest : request.profile.registry ∈ made)
    {descriptor : Conversion.Descriptor}
    (hLookup : Conversion.lookup host request workspace = (.ok (.ok descriptor), after)) :
    request.profile.registry.get? request.result = some descriptor.conversion ∧
    ∀ text, request.Folds options text →
      compile host options request workspace =
        (if descriptor.conversion.nullable = true ∧ text = "" then .ok (.constant .null)
        else
          match descriptor.conversion.apply text with
          | .ok value => .ok (.constant value)
          | .error (.invalid kind message) => .error (.rejected ⟨[{
              snippet := text
              line := Text.lineAt request.source (request.map.toSource 0)
              message := "Cannot convert literal '" ++ text ++ "' to " ++
                request.result.display ++ ": " ++ kind ++ ": " ++ message
              span := some ⟨request.map.toSource 0,
                request.map.toSource request.text.utf8ByteSize⟩
              code := some "T001" }], request.source⟩)
          | .error (.fatal message) => .error (.conversion text request.result.display message)
          | .error .aborted => .error .aborted, after) := by
  have hServes : workspace.cache.Serves made := by
    have hAfter : (cacheAfter host options events s).Serves made :=
      (Conversion.keeps_serves hMade hIssued host).cacheAfter hEvents s
    rwa [cacheAfter, hRun] at hAfter
  have hLookedUp := Conversion.lookedUp_lookup host request workspace
  rw [hLookup] at hLookedUp
  refine ⟨hLookedUp.registered hServes hRequest, fun text hFolds => ?_⟩
  rw [compile_of_descriptor hFolds hLookup]
  congr 1
  rw [Conversion.fold]
  split
  · rfl
  · cases descriptor.conversion.apply text with
    | ok value => rfl
    | error failure => cases failure <;> rfl

/-- A registry that was copied from the standard one and then told to accept no integers. -/
def strictRegistry : Registry :=
  ⟨.issued 7, Registry.standardConversions.insert .integer
    ⟨false, .reject "StrictError" "integers are not accepted"⟩⟩

/-- The number 42, under a profile whose name says nothing of its registry. -/
def fortyTwo (registry : Registry) : Request where
  profile := { name := "shared", context := .any, registry := registry }
  text := "42"
  isTemplate := true
  result := .integer

theorem history_strictRegistry :
    Catalog.History [.standard, .standard, .standard, .standard, strictRegistry]
      ⟨[.standard, strictRegistry], 8⟩ := by
  have hFirst : Catalog.empty.perform? .createStandard = some ⟨[.standard], 7⟩ := rfl
  have hSecond : (Catalog.mk [.standard] 7).perform? (.copy 0) =
      some ⟨[.standard, .standard], 7⟩ := rfl
  have hThird : (Catalog.mk [.standard, .standard] 7).perform?
      (.register 1 .integer ⟨false, .reject "StrictError" "integers are not accepted"⟩) =
      some ⟨[.standard, strictRegistry], 8⟩ := rfl
  exact .step (.step (.step .start hFirst) hSecond) hThird

theorem fortyTwo_folds (registry : Registry) : (fortyTwo registry).Folds {} "42" := by
  have hText : Template.ofText? "42" = some ⟨"42", []⟩ := by decide +kernel
  exact ⟨rfl, rfl, ⟨"42", []⟩, hText, rfl⟩

theorem exists_descriptor {found : Except CompileError Conversion.Outcome × Workspace σ}
    (h : (found.1.toOption.bind Except.toOption).isSome = true) :
    ∃ descriptor after, found = (.ok (.ok descriptor), after) := by
  match found with
  | (.ok (.ok descriptor), after) => exact ⟨descriptor, after, rfl⟩
  | (.ok (.error _), _) => cases h
  | (.error _, _) => cases h

/-- A strict registry rejects the literal that the standard one has just accepted. -/
theorem folds_own_conversion_strictRegistry :
    (compile Host.scripted {} (fortyTwo strictRegistry)
      (run Host.scripted {} [.compile (fortyTwo .standard)] (start {} {})).2).1 =
    .error (.rejected ⟨[{
      snippet := "42"
      line := 1
      message := "Cannot convert literal '42' to Integer: StrictError: integers are not accepted"
      span := some ⟨0, 2⟩
      code := some "T001" }], "42"⟩) := by
  -- both look-ups find a conversion, and the second one finds the supplier loaded
  obtain ⟨_, middle, hFirst⟩ := exists_descriptor (by decide +kernel :
    ((Conversion.lookup Host.scripted (fortyTwo .standard) (start {} {})).1.toOption.bind
      Except.toOption).isSome = true)
  have hRun : (run Host.scripted {} [.compile (fortyTwo .standard)] (start {} {})).2 =
      (Conversion.lookup Host.scripted (fortyTwo .standard) (start {} {})).2 := by
    rw [hFirst, run, perform, compile_of_descriptor (fortyTwo_folds _) hFirst]
    rfl
  obtain ⟨descriptor, after, hSecond⟩ := exists_descriptor (by decide +kernel :
    ((Conversion.lookup Host.scripted (fortyTwo strictRegistry)
      (Conversion.lookup Host.scripted (fortyTwo .standard) (start {} {})).2).1.toOption.bind
      Except.toOption).isSome = true)
  rw [← hRun] at hSecond
  obtain ⟨hRegistered, hCompile⟩ := folds_own_conversion history_strictRegistry (by decide) rfl
    (by simp [requests, Event.request?, fortyTwo]) (by simp [fortyTwo]) hSecond
  have hConversion : ⟨false, .reject "StrictError" "integers are not accepted"⟩ =
      descriptor.conversion := Option.some.inj hRegistered
  rw [hCompile "42" (fortyTwo_folds _), ← hConversion]
  rfl

end Compiler
end TemplateCompiler
