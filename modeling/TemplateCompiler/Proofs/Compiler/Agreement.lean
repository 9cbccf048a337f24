import TemplateCompiler.Proofs.Compiler.Literals

/-! Whether a literal is compiled as it was diagnosed. Diagnosing looks the conversion up and
keeps what it finds, and compiling finds it there, so both use the same conversion and only
tell the result in their own ways. -/
namespace TemplateCompiler

/-- A literal was compiled to a constant if nothing was found to be wrong with it, it was
rejected for what was found, and it failed if finding out did. -/
structure CompiledAsDiagnosed (source : String) (compiled : Except CompileError Compiled)
    (diagnosed : Except CompileError (List Diagnostic)) : Prop where
  constant_iff : (∃ value, compiled = .ok (.constant value)) ↔ diagnosed = .ok []
  rejected_iff : ∀ rejection, compiled = .error (.rejected rejection) ↔
    rejection.source = source ∧ rejection.diagnostics ≠ [] ∧ diagnosed = .ok rejection.diagnostics
  failed_iff : ∀ e, compiled = .error e ∧ e.IsFatal ↔ diagnosed = .error e

namespace CompiledAsDiagnosed

/-- A literal that becomes a value has nothing wrong with it. -/
theorem constant (source : String) (value : Value) :
    CompiledAsDiagnosed source (.ok (.constant value)) (.ok []) where
  constant_iff := ⟨fun _ => rfl, fun _ => ⟨value, rfl⟩⟩
  rejected_iff rejection := by
    constructor
    · intro hCompiled
      cases hCompiled
    · rintro ⟨_, hSome, hDiagnosed⟩
      exact absurd (Except.ok.inj hDiagnosed).symm hSome
  failed_iff e := by simp

/-- A literal that is rejected has the same diagnostics either way. -/
theorem rejected (source : String) {diagnostics : List Diagnostic} (hSome : diagnostics ≠ []) :
    CompiledAsDiagnosed source (.error (.rejected ⟨diagnostics, source⟩)) (.ok diagnostics) where
  constant_iff := by simp [hSome]
  rejected_iff rejection := by
    constructor
    · intro hCompiled
      cases hCompiled
      exact ⟨rfl, hSome, rfl⟩
    · rintro ⟨rfl, _, hDiagnosed⟩
      rw [Except.ok.inj hDiagnosed]
  failed_iff e := by
    constructor
    · rintro ⟨hCompiled, hFatal⟩
      cases hCompiled
      exact hFatal.elim
    · intro hDiagnosed
      cases hDiagnosed

theorem failed (source : String) {e : CompileError} (hFatal : e.IsFatal) :
    CompiledAsDiagnosed source (.error e) (.error e) where
  constant_iff := by simp
  rejected_iff rejection := by
    constructor
    · intro hCompiled
      cases hCompiled
      exact hFatal.elim
    · rintro ⟨_, _, hDiagnosed⟩
      cases hDiagnosed
  failed_iff other := by
    constructor
    · rintro ⟨hCompiled, _⟩
      cases hCompiled
      rfl
    · intro hDiagnosed
      cases hDiagnosed
      exact ⟨rfl, hFatal⟩

end CompiledAsDiagnosed

namespace Conversion

/-- A literal is rejected for one reason. -/
theorem fold_cases (conversion : Conversion) (request : Request) (text : String) :
    (∃ value, conversion.fold request text = .ok value) ∨
    (∃ d, conversion.fold request text = .error (.rejected ⟨[d], request.source⟩)) ∨
    ∃ e, e.IsFatal ∧ conversion.fold request text = .error e := by
  rw [fold]
  split
  · exact .inl ⟨.null, rfl⟩
  · cases conversion.apply text with
    | ok value => exact .inl ⟨value, rfl⟩
    | error failure =>
        cases failure with
        | invalid kind message =>
            exact .inr (.inl ⟨rejectedLiteral request text kind message, rfl⟩)
        | fatal message =>
            exact .inr (.inr ⟨.conversion text request.result.display message, trivial, rfl⟩)
        | aborted => exact .inr (.inr ⟨.aborted, trivial, rfl⟩)

/-- A conversion says the same of a literal whether it folds or checks it. -/
theorem compiledAsDiagnosed_fold (conversion : Conversion) (request : Request) (text : String) :
    CompiledAsDiagnosed request.source ((conversion.fold request text).map .constant)
      (conversion.check request text) := by
  rw [check]
  rcases conversion.fold_cases request text with ⟨value, hFold⟩ | ⟨d, hFold⟩ | ⟨e, hFatal, hFold⟩
  · rw [hFold]
    exact .constant request.source value
  · rw [hFold]
    exact .rejected request.source (List.cons_ne_nil d [])
  · rw [hFold]
    cases e with
    | rejected => exact hFatal.elim
    | host | conversion | aborted => exact .failed request.source hFatal

end Conversion

namespace Compiler
variable {σ : Type} {host : Host σ} {options : Options} {request : Request} {text : String}

/-- A literal that the host finds nothing wrong with is compiled as it was diagnosed, at any
time before the conversion expires; with a cache that never lets one expire, at any time.
If there is a conversion, compiling takes no call of the host. If there is none, nothing is
diagnosed, and the host gets the request itself in one call. A failed look-up is a failure
to diagnose. -/
theorem literal_compiled_as_diagnosed (hFolds : request.Folds options text)
    {workspace middle : Workspace (σ × List Call)} {later : σ}
    (hAnswer : host.diagnose request workspace.host.1 = (.ok [], later))
    {found : Except CompileError Conversion.Outcome}
    (hLookup : (Conversion.lookup host.recorded request
      ⟨(later, workspace.host.2 ++ [.diagnostics request]), workspace.cache⟩).1 = found)
    {diagnosed : Except CompileError (List Diagnostic)}
    (hDiagnose : diagnose host.recorded options request workspace = (diagnosed, middle))
    {now : σ} (hIdle : host.clock now - host.clock middle.host.1 < workspace.cache.idle)
    {compiled : Except CompileError Compiled} {after : Workspace (σ × List Call)}
    (hCompile : compile host.recorded options request ⟨(now, middle.host.2), middle.cache⟩ =
      (compiled, after)) :
    (∀ descriptor, found = .ok (.ok descriptor) →
      CompiledAsDiagnosed request.source compiled diagnosed ∧ after.host = (now, middle.host.2)) ∧
    (∀ unavailable, found = .ok (.error unavailable) →
      diagnosed = .ok [] ∧
      compiled = request.received (host.compileExpression request now).1 ∧
      after.host =
        ((host.compileExpression request now).2, middle.host.2 ++ [.expression request])) ∧
    (∀ e, found = .error e → diagnosed = .error e) := by
  have hRecorded : host.recorded.diagnose request workspace.host =
      (.ok [], later, workspace.host.2 ++ [.diagnostics request]) := by
    simp [Host.recorded, Host.record, hAnswer]
  have hFresh : host.recorded.clock (now, middle.host.2) - host.recorded.clock middle.host <
      workspace.cache.idle := hIdle
  rw [diagnose_of_folds hFolds hRecorded] at hDiagnose
  cases hFound : Conversion.lookup host.recorded request
    ⟨(later, workspace.host.2 ++ [.diagnostics request]), workspace.cache⟩ with
  | mk result kept =>
      rw [hFound] at hLookup hDiagnose
      subst hLookup
      cases result with
      | error e =>
          cases hDiagnose
          refine ⟨fun _ hSame => ?_, fun _ hSame => ?_, fun _ hSame => ?_⟩ <;> cases hSame
          rfl
      | ok outcome =>
          cases outcome with
          | ok descriptor =>
              cases hDiagnose
              -- the second look-up finds what the first one has kept
              obtain ⟨cache, hAgain⟩ := Conversion.lookup_again hFound hFresh
              rw [compile_of_descriptor hFolds hAgain] at hCompile
              cases hCompile
              refine ⟨fun _ _ => ⟨?_, rfl⟩, fun _ hSame => ?_, fun _ hSame => ?_⟩
              · exact descriptor.conversion.compiledAsDiagnosed_fold request text
              · cases hSame
              · cases hSame
          | error unavailable =>
              cases hDiagnose
              obtain ⟨cache, hAgain⟩ := Conversion.lookup_again hFound hFresh
              rw [compile_of_unavailable hFolds hAgain, delegate_eq rfl] at hCompile
              cases hCompile
              refine ⟨fun _ hSame => ?_, fun _ _ => ⟨rfl, rfl, rfl⟩, fun _ hSame => ?_⟩ <;> cases hSame

/-- What is said about the number that the strict registry does not accept. -/
def refusedNumber : Diagnostic where
  snippet := "42"
  line := 1
  message := "Cannot convert literal '42' to Integer: StrictError: integers are not accepted"
  span := some ⟨0, 2⟩
  code := some "T001"

theorem literal_compiled_as_diagnosed_fortyTwo :
    let asked := diagnose Host.scripted.recorded {} (fortyTwo strictRegistry) (start {} ({}, []))
    asked.1 = .ok [refusedNumber] ∧
      (compile Host.scripted.recorded {} (fortyTwo strictRegistry) asked.2).1 =
        .error (.rejected ⟨[refusedNumber], "42"⟩) ∧
      (compile Host.scripted.recorded {} (fortyTwo strictRegistry) asked.2).2.host =
        asked.2.host := by
  intro asked
  have hAnswer : Host.scripted.diagnose (fortyTwo strictRegistry) {} = (.ok [], {}) :=
    Prod.ext (eq_ok_of_toOption (by decide +kernel)) rfl
  have hDiagnosed : asked.1 = .ok [refusedNumber] := eq_ok_of_toOption (by decide +kernel)
  obtain ⟨descriptor, _, hFound⟩ := exists_descriptor (by decide +kernel :
    ((Conversion.lookup Host.scripted.recorded (fortyTwo strictRegistry)
      ⟨({}, [.diagnostics (fortyTwo strictRegistry)]), .empty 600000⟩).1.toOption.bind
      Except.toOption).isSome = true)
  have hIdle : Host.scripted.clock asked.2.host.1 - Host.scripted.clock asked.2.host.1 < 600000 :=
    Nat.zero_lt_succ 599999
  obtain ⟨hFolded, _, _⟩ := literal_compiled_as_diagnosed (fortyTwo_folds strictRegistry) hAnswer
    (congrArg Prod.fst hFound) (rfl : _ = (asked.1, asked.2)) hIdle rfl
  obtain ⟨hAgree, hHost⟩ := hFolded descriptor rfl
  exact ⟨hDiagnosed, (hAgree.rejected_iff ⟨[refusedNumber], "42"⟩).mpr
    ⟨rfl, List.cons_ne_nil _ _, hDiagnosed⟩, hHost⟩

end Compiler
end TemplateCompiler
