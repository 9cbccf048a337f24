import TemplateCompiler.Proofs.Compiler.Interpolation
import TemplateCompiler.Proofs.Compiler.Literals
import TemplateCompiler.Proofs.Conversion.Descriptors

/-! Types of results. What was not left to the host yields values of the type that the
request declares: text where text is accepted, the absent value where it may be absent, and
otherwise whatever the registered conversion yields. -/
namespace TemplateCompiler

/-- A type that accepts text accepts all of it, and empty text as the absent value. -/
theorem ValueType.conformsTo_of_acceptsText {type : ValueType} (h : type.acceptsText = true) :
    Value.null.conformsTo type = true ∧ ∀ content, (Value.text content).conformsTo type = true := by
  cases type with
  | any => exact ⟨rfl, fun _ => rfl⟩
  | text => exact ⟨rfl, fun _ => rfl⟩
  | optional inner =>
      cases inner with
      | any | text => exact ⟨rfl, fun _ => rfl⟩
      | integer | float | boolean | optional | named => cases h
  | integer | float | boolean | named => cases h

/-- The absent value conforms to every type that allows it. -/
theorem Value.null_conformsTo {type : ValueType} (h : type.isNullable = true) :
    Value.null.conformsTo type = true := by
  cases type with
  | any | text | optional => rfl
  | integer | float | boolean | named => cases h

/-- Whatever belongs to a type belongs to it with an absent value added. -/
theorem Value.conformsTo_optional {value : Value} {type : ValueType}
    (h : value.conformsTo type = true) : value.conformsTo (.optional type) = true := by
  cases value with
  | null => rfl
  | text | integer | float | boolean => exact h

namespace Conversion

/-- A conversion that yields values of the type it is registered for, and is nullable only
if the absent value is one of them. -/
structure Conforms (c : Conversion) (type : ValueType) : Prop where
  value : ∀ text value, c.apply text = .ok value → value.conformsTo type = true
  nullable : c.nullable = true → type.isNullable = true

namespace Conforms
variable {c : Conversion} {type : ValueType}

/-- A conversion conforms to the optional type if it conforms to the type itself. -/
theorem optional (h : c.Conforms type) : Conforms ⟨true, c.apply⟩ (.optional type) where
  value text value hValue := Value.conformsTo_optional (h.value text value hValue)
  nullable _ := rfl

/-- What a conforming conversion folds a literal into conforms to its type. -/
theorem fold (h : c.Conforms type) {request : Request} {text : String} {value : Value}
    (hFold : c.fold request text = .ok value) : value.conformsTo type = true := by
  rw [Conversion.fold] at hFold
  split at hFold
  · rename_i hEmpty
    cases hFold
    exact Value.null_conformsTo (h.nullable hEmpty.1)
  · split at hFold
    · rename_i hApply
      cases hFold
      exact h.value text _ hApply
    · cases hFold
    · cases hFold
    · cases hFold

end Conforms

theorem conforms_integer : Conforms ⟨false, .integer⟩ .integer where
  value text value h := by
    simp only [Converter.integer] at h
    split at h <;> cases h
    rfl
  nullable h := nomatch h

theorem conforms_float : Conforms ⟨false, .float⟩ .float where
  value text value h := by
    simp only [Converter.float] at h
    split at h <;> cases h
    rfl
  nullable h := nomatch h

theorem conforms_boolean : Conforms ⟨false, .boolean⟩ .boolean where
  value text value h := by
    simp only [Converter.boolean] at h
    split at h
    · cases h
      rfl
    · split at h <;> cases h
      rfl
  nullable h := nomatch h

end Conversion

namespace Compiled

/-- Whenever the expression has a value, this is text or absent. -/
def YieldsText (compiled : Compiled) : Prop :=
  ∀ environment value, compiled.evaluate environment = .ok value →
    value = .null ∨ ∃ content, value = .text content

/-- A constant text is a text, and the empty one is absent. -/
theorem yieldsText_constant (text : String) :
    (constant (if text = "" then .null else .text text)).YieldsText := by
  intro environment value hValue
  cases hValue
  split
  · exact .inl rfl
  · exact .inr ⟨text, rfl⟩

/-- An interpolation gives a text, or it is absent. -/
theorem yieldsText_interpolation (literals : List String) (expressions : List Compiled) :
    (interpolation literals expressions).YieldsText := by
  intro environment value hValue
  cases literals with
  | nil => cases hValue
  | cons first literals =>
      rw [evaluate_interpolation] at hValue
      split at hValue
      · cases hFill : fill expressions literals environment with
        | error e =>
            rw [hFill] at hValue
            cases hValue
        | ok filled =>
            rw [hFill] at hValue
            cases hValue
            exact .inr ⟨_, rfl⟩
      · cases hValue

end Compiled

/-- Every conversion of the registry conforms to the type it is registered for. -/
def Registry.Conforms (r : Registry) : Prop :=
  ∀ type conversion, r.get? type = some conversion → conversion.Conforms type

namespace Registry
variable {id : RegistryId} {conversions : Table ValueType Conversion}

theorem conforms_empty (id : RegistryId) : Conforms ⟨id, .empty⟩ := by
  intro type conversion hSome
  cases hSome

/-- A registration that conforms can be made under any id. -/
theorem Conforms.insert {type : ValueType} {conversion : Conversion}
    (h : Conforms ⟨id, conversions⟩) (hNew : conversion.Conforms type) (id' : RegistryId) :
    Conforms ⟨id', conversions.insert type conversion⟩ := by
  intro type' found hSome
  rw [get?, Table.get?_insert] at hSome
  split at hSome
  · rename_i hType
    cases hSome
    rwa [hType]
  · exact h type' found hSome

/-- The standard registry conforms. -/
theorem standard_conforms : standard.Conforms := by
  have hPlain : Conforms ⟨.standard, ((Table.empty.insert .integer ⟨false, .integer⟩).insert
      .float ⟨false, .float⟩).insert .boolean ⟨false, .boolean⟩⟩ :=
    (((conforms_empty .standard).insert Conversion.conforms_integer .standard).insert
      Conversion.conforms_float .standard).insert Conversion.conforms_boolean .standard
  exact ((hPlain.insert Conversion.conforms_integer.optional .standard).insert
    Conversion.conforms_float.optional .standard).insert
      Conversion.conforms_boolean.optional .standard

end Registry

namespace Conversion
variable {σ : Type} {host : Host σ}

/-- The descriptors that are supplied for a request conform if its registry does. -/
theorem eachSupplied_conforms {request : Request} (h : request.profile.registry.Conforms) :
    EachSupplied host (fun key d => d.conversion.Conforms key.result) request := by
  intro conversion workspace descriptor after hSome hSupplied
  rw [hSupplied.conversion_eq]
  exact h _ conversion hSome

/-- Every descriptor that is held conforms to the type in its key. The key has the type
itself, so this does not depend on what the ids of registries stand for. -/
theorem keeps_conforming (host : Host σ) :
    Compiler.Keeps host (Cache.EachHeld fun key d => d.conversion.Conforms key.result)
      fun request => request.profile.registry.Conforms :=
  keeps_eachHeld fun _ hRequest => eachSupplied_conforms hRequest

end Conversion

namespace Compiler
variable {σ : Type} {host : Host σ} {options : Options} {request : Request}
  {workspace after : Workspace σ} {compiled : Compiled}

/-- What a host has compiled is marked as delegated. -/
theorem isDelegated_of_delegate
    (h : delegate host request workspace = (.ok compiled, after)) :
    compiled.isDelegated = true := by
  cases hAnswer : host.compileExpression request workspace.host with
  | mk answer later =>
      rw [delegate_eq hAnswer] at h
      cases answer with
      | error => cases h
      | ok run =>
          cases h
          rfl

/-- What is not left to the host is a literal that a conversion folded, or it yields text
where text is accepted. -/
theorem folded_or_text (hCompile : compile host options request workspace = (.ok compiled, after))
    (hTaken : compiled.isDelegated = false) :
    (∃ text descriptor value later, request.Folds options text ∧
      Conversion.lookup host request workspace = (.ok (.ok descriptor), later) ∧
      descriptor.conversion.fold request text = .ok value ∧ compiled = .constant value) ∨
    request.result.acceptsText = true ∧ compiled.YieldsText := by
  have hNot : ∀ before, delegate host request before ≠ (.ok compiled, after) := by
    intro before hDelegate
    rw [isDelegated_of_delegate hDelegate] at hTaken
    cases hTaken
  rcases compile_cases host options request with
    ⟨text, hFolds⟩ | hDelegate | ⟨text, hAccepts, hConstant⟩ |
    ⟨template, hOptimized, hAccepts, hText, hShape⟩
  -- a literal: without a conversion the result would be marked as delegated
  · left
    cases hLookup : Conversion.lookup host request workspace with
    | mk result later =>
        cases result with
        | error e =>
            rw [compile_of_lookup_error hFolds hLookup] at hCompile
            cases hCompile
        | ok outcome =>
            cases outcome with
            | error unavailable =>
                rw [compile_of_unavailable hFolds hLookup] at hCompile
                exact absurd hCompile (hNot later)
            | ok descriptor =>
                rw [compile_of_descriptor hFolds hLookup] at hCompile
                cases hFold : descriptor.conversion.fold request text with
                | error e =>
                    rw [hFold] at hCompile
                    cases hCompile
                | ok value =>
                    rw [hFold] at hCompile
                    cases hCompile
                    exact ⟨text, descriptor, value, after, hFolds, rfl, hFold, rfl⟩
  · rw [hDelegate] at hCompile
    exact absurd hCompile (hNot workspace)
  · rw [hConstant] at hCompile
    cases hCompile
    exact .inr ⟨hAccepts, Compiled.yieldsText_constant text⟩
  · rw [compile_of_mixed host hOptimized hText hShape, if_pos hAccepts] at hCompile
    obtain ⟨outcomes, middle, _, hCombined⟩ := Action.bind_eq_ok hCompile
    obtain ⟨expressions, last, _, hDone⟩ := Action.bind_eq_ok hCombined
    cases hDone
    exact .inr ⟨hAccepts, Compiled.yieldsText_interpolation template.literals expressions⟩

/-- The registry of the standard conversions is one whose conversions conform. In the course
of any run, with any host, whose requests use such registries only, whatever the compiler
does not leave to the host yields values of the declared type and no others, in every
environment in which it yields any. -/
theorem yields_conforming_values :
    Registry.standard.Conforms ∧
    ∀ (host : Host σ) (options : Options) (events : List (Event σ)) (s : σ),
      (∀ earlier ∈ requests events, earlier.profile.registry.Conforms) →
      ∀ (request : Request) (compiled : Compiled) (after : Workspace σ),
        request.profile.registry.Conforms →
        compile host options request (run host options events (start options s)).2 =
          (.ok compiled, after) →
        compiled.isDelegated = false →
        ∀ environment value, compiled.evaluate environment = .ok value →
          value.conformsTo request.result = true := by
  refine ⟨Registry.standard_conforms, ?_⟩
  intro host options events s hEvents request compiled after hRequest hCompile hTaken
    environment value hValue
  rcases folded_or_text hCompile hTaken with
    ⟨text, descriptor, folded, later, _, hLookup, hFold, rfl⟩ | ⟨hAccepts, hYields⟩
  · have hHeld : (cacheAfter host options events s).EachHeld fun key d =>
        d.conversion.Conforms key.result :=
      (Conversion.keeps_conforming host).cacheAfter hEvents s
    have hLookedUp := Conversion.lookedUp_lookup host request
      (run host options events (start options s)).2
    rw [hLookup] at hLookedUp
    have hConforms : descriptor.conversion.Conforms request.result :=
      hLookedUp.of_eachHeld hHeld (Conversion.eachSupplied_conforms hRequest)
    cases hValue
    exact hConforms.fold hFold
  · obtain ⟨hNull, hContent⟩ := ValueType.conformsTo_of_acceptsText hAccepts
    rcases hYields environment value hValue with rfl | ⟨content, rfl⟩
    · exact hNull
    · exact hContent content

/-- A switch that is left out. Its type has an absent value added twice. -/
def leftOut : Request where
  profile := {
    name := "shared"
    context := .any
    registry := ⟨.issued 7, Registry.standardConversions.insert (.optional (.optional .boolean))
      ⟨true, .boolean⟩⟩ }
  text := ""
  isTemplate := true
  result := .optional (.optional .boolean)

/-- The conversion that the example adds to the standard ones conforms too. -/
theorem leftOut_conforms : leftOut.profile.registry.Conforms :=
  Registry.standard_conforms.insert Conversion.conforms_boolean.optional.optional (.issued 7)

theorem leftOut_folds : leftOut.Folds {} "" := by
  have hText : Template.ofText? "" = some ⟨"", []⟩ := by decide +kernel
  exact ⟨rfl, rfl, ⟨"", []⟩, hText, rfl⟩

/-- An empty text is absent, which conforms to an optional type of an optional type. -/
theorem yields_conforming_values_leftOut :
    ∃ after, compile Host.scripted {} leftOut
        (run Host.scripted {} [.compile leftOut] (start {} {})).2 =
        (.ok (.constant .null), after) ∧
      Value.null.conformsTo leftOut.result = true := by
  obtain ⟨_, middle, hFirst⟩ := exists_descriptor (by decide +kernel :
    ((Conversion.lookup Host.scripted leftOut (start {} {})).1.toOption.bind
      Except.toOption).isSome = true)
  have hRun : (run Host.scripted {} [.compile leftOut] (start {} {})).2 =
      (Conversion.lookup Host.scripted leftOut (start {} {})).2 := by
    rw [hFirst, run, perform, compile_of_descriptor leftOut_folds hFirst]
    rfl
  -- the second look-up finds the entry that the first one left
  have hNullable : ((Conversion.lookup Host.scripted leftOut
      (Conversion.lookup Host.scripted leftOut (start {} {})).2).1.toOption.bind
      Except.toOption).any (·.conversion.nullable) = true := by decide +kernel
  obtain ⟨descriptor, after, hSecond⟩ := exists_descriptor (Option.isSome_of_any hNullable)
  rw [hSecond] at hNullable
  have hNull : descriptor.conversion.fold leftOut "" = .ok .null :=
    if_pos ⟨hNullable, rfl⟩
  have hCompile := compile_of_descriptor leftOut_folds hSecond
  rw [← hRun, hNull] at hCompile
  refine ⟨after, hCompile, ?_⟩
  exact yields_conforming_values.2 Host.scripted {} [.compile leftOut] {}
    (by simpa [requests, Event.request?] using leftOut_conforms) leftOut _ after leftOut_conforms
    hCompile rfl {} .null rfl

end Compiler
end TemplateCompiler
