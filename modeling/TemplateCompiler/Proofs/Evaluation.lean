import TemplateCompiler.Compiled

/-! What an interpolation evaluates to: its literals with the values of its expressions
between them, or the first failure of an expression. -/
namespace TemplateCompiler

/-- Literals with fillings between them. -/
def interleave : List String → List String → String
  | [], _ => ""
  | literal :: _, [] => literal
  | literal :: literals, filling :: fillings => literal ++ filling ++ interleave literals fillings

/-- What stands in front of the whole can be put in front of the first literal. -/
theorem append_interleave (first literal : String) (literals fillings : List String) :
    first ++ interleave (literal :: literals) fillings =
      interleave ((first ++ literal) :: literals) fillings := by
  cases fillings with
  | nil => rfl
  | cons filling fillings =>
      rw [interleave, interleave]
      simp only [String.append_assoc]

/-- A row of results consists of values, or there is a first failure in it. -/
theorem values_or_first_failure {ε α : Type} (results : List (Except ε α)) :
    (∃ values : List α, results = values.map .ok) ∨
      ∃ (values : List α) (e : ε) (rest : List (Except ε α)),
        results = values.map .ok ++ .error e :: rest := by
  induction results with
  | nil => exact .inl ⟨[], rfl⟩
  | cons result results ih =>
      cases result with
      | error e => exact .inr ⟨[], e, results, rfl⟩
      | ok a =>
          rcases ih with ⟨values, rfl⟩ | ⟨values, e, rest, rfl⟩
          · exact .inl ⟨a :: values, rfl⟩
          · exact .inr ⟨a :: values, e, rest, rfl⟩

namespace Compiled
variable {environment : Environment} {expressions : List Compiled} {literals : List String}
  {values : List Value}

/-- An interpolation is filled in if there is one literal more than expressions. -/
theorem evaluate_interpolation (first : String) :
    (interpolation (first :: literals) expressions).evaluate environment =
      if literals.length = expressions.length then
        (fill expressions literals environment).map fun filled => .text (first ++ filled)
      else .error (.literalCount (literals.length + 1) expressions.length) := by
  simp only [evaluate, List.length_cons]
  split
  · cases fill expressions literals environment <;> rfl
  · rfl

/-- Values are filled in by what they display, between the literals. -/
theorem fill_of_values (hLength : literals.length = expressions.length)
    (hValues : expressions.map (evaluate · environment) = values.map .ok) :
    fill expressions literals environment =
      .ok (interleave ("" :: literals) (values.map Value.display)) := by
  induction expressions generalizing literals values with
  | nil =>
      obtain rfl : values = [] := List.map_eq_nil_iff.mp hValues.symm
      cases literals <;> rfl
  | cons expression expressions ih =>
      obtain ⟨literal, literals, rfl⟩ := List.exists_cons_of_length_eq_add_one hLength
      obtain ⟨value, values, rfl, hValue, hValues⟩ := List.map_eq_cons_iff.mp hValues.symm
      have hRest := ih (Nat.succ.inj hLength) hValues.symm
      have hJoin := append_interleave literal "" literals (values.map Value.display)
      rw [String.append_empty] at hJoin
      simp only [fill, ← hValue, hRest, bind, Except.bind, pure, Except.pure, List.map_cons,
        interleave, String.empty_append, ← hJoin, String.append_assoc]

/-- What stands behind a failure is not evaluated. -/
theorem fill_of_failure {e : EvalError} {rest : List (Except EvalError Value)}
    (hLength : literals.length = expressions.length)
    (hFails : expressions.map (evaluate · environment) = values.map .ok ++ .error e :: rest) :
    fill expressions literals environment = .error e := by
  induction values generalizing expressions literals with
  | nil =>
      obtain ⟨expression, expressions, rfl, hFail, _⟩ := List.map_eq_cons_iff.mp hFails
      obtain ⟨literal, literals, rfl⟩ := List.exists_cons_of_length_eq_add_one hLength
      rw [fill, hFail]
      rfl
  | cons value values ih =>
      obtain ⟨expression, expressions, rfl, hValue, hFails⟩ := List.map_eq_cons_iff.mp hFails
      obtain ⟨literal, literals, rfl⟩ := List.exists_cons_of_length_eq_add_one hLength
      rw [fill, hValue, ih (Nat.succ.inj hLength) hFails]
      rfl

/-- If all expressions have values, the interpolation is their text between the literals. -/
theorem evaluate_of_values (hLength : literals.length = expressions.length + 1)
    (hValues : expressions.map (evaluate · environment) = values.map .ok) :
    (interpolation literals expressions).evaluate environment =
      .ok (.text (interleave literals (values.map Value.display))) := by
  obtain ⟨first, literals, rfl⟩ := List.exists_cons_of_length_eq_add_one hLength
  have hLength := Nat.succ.inj hLength
  rw [evaluate_interpolation, if_pos hLength, fill_of_values hLength hValues, Except.map,
    append_interleave, String.append_empty]

/-- The first expression that fails decides the failure of the interpolation. -/
theorem evaluate_of_failure {e : EvalError} {rest : List (Except EvalError Value)}
    (hLength : literals.length = expressions.length + 1)
    (hFails : expressions.map (evaluate · environment) = values.map .ok ++ .error e :: rest) :
    (interpolation literals expressions).evaluate environment = .error e := by
  obtain ⟨first, literals, rfl⟩ := List.exists_cons_of_length_eq_add_one hLength
  have hLength := Nat.succ.inj hLength
  rw [evaluate_interpolation, if_pos hLength, fill_of_failure hLength hFails, Except.map]

/-- An interpolation that fails does so because of one of its expressions. -/
theorem exists_of_evaluate_eq_error {e : EvalError}
    (hLength : literals.length = expressions.length + 1)
    (hError : (interpolation literals expressions).evaluate environment = .error e) :
    ∃ expression ∈ expressions, expression.evaluate environment = .error e := by
  rcases values_or_first_failure (expressions.map (evaluate · environment)) with
    ⟨values, hValues⟩ | ⟨values, e', rest, hFails⟩
  · rw [evaluate_of_values hLength hValues] at hError
    cases hError
  · rw [evaluate_of_failure hLength hFails] at hError
    cases hError
    have hMem : .error e ∈ expressions.map (evaluate · environment) := by
      rw [hFails]
      exact List.mem_append_right _ List.mem_cons_self
    exact List.mem_map.mp hMem

/-- Literals that do not fit around the expressions are an error in every environment. -/
theorem evaluate_of_length_ne (hNonempty : literals ≠ [])
    (hLength : literals.length ≠ expressions.length + 1) :
    (interpolation literals expressions).evaluate environment =
      .error (.literalCount literals.length expressions.length) := by
  obtain ⟨first, literals, rfl⟩ := List.exists_cons_of_ne_nil hNonempty
  rw [evaluate_interpolation, if_neg fun hEq => hLength (congrArg Nat.succ hEq), List.length_cons]

end Compiled
end TemplateCompiler
