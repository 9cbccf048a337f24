import TemplateCompiler.Action

/-! Steps taken for the elements of a row, and what becomes of their outcomes. Rejections
are collected, and every other failure ends the row. -/
namespace TemplateCompiler

/-- A failure that is no rejection. -/
def CompileError.IsFatal : CompileError → Prop
  | rejected _ => False
  | _ => True

/-- An outcome that does not end a row: a success or a rejection. -/
def GoesOn {α : Type} : Except CompileError α → Prop
  | .ok _ => True
  | .error e => ¬e.IsFatal

/-- After an outcome that lets the row go on there is a result or a rejection. -/
theorem GoesOn.ok_or_rejected {α : Type} {outcome : Except CompileError α} (h : GoesOn outcome) :
    (∃ a, outcome = .ok a) ∨ ∃ rejection, outcome = .error (.rejected rejection) := by
  cases outcome with
  | ok a => exact .inl ⟨a, rfl⟩
  | error e =>
      cases e with
      | rejected rejection => exact .inr ⟨rejection, rfl⟩
      | host | conversion | aborted => exact absurd trivial h

/-- Whatever stops a row is a fatal error. -/
theorem exists_fatal_of_not_goesOn {α : Type} {outcome : Except CompileError α}
    (h : ¬GoesOn outcome) : ∃ e, outcome = .error e ∧ e.IsFatal := by
  cases outcome with
  | ok => exact absurd trivial h
  | error e => exact ⟨e, rfl, Classical.not_not.mp h⟩

namespace Action
variable {σ α β : Type}

/-- A success hands its value and its state on. -/
theorem bind_of_ok {x : Action σ α} {f : α → Action σ β} {s after : σ} {a : α}
    (h : x s = (.ok a, after)) : (x >>= f) s = f a after := by
  simp only [bind, andThen, h]

/-- A failure skips what is left, and what it did to the state stays. -/
theorem bind_of_error {x : Action σ α} {f : α → Action σ β} {s after : σ} {e : CompileError}
    (h : x s = (.error e, after)) : (x >>= f) s = (.error e, after) := by
  simp only [bind, andThen, h]

theorem state_bind (f : σ → Action σ β) (s : σ) : (state >>= f) s = f s s := rfl

/-- Both halves of a sequence that succeeds have succeeded. -/
theorem bind_eq_ok {x : Action σ α} {f : α → Action σ β} {s after : σ} {b : β}
    (h : (x >>= f) s = (.ok b, after)) :
    ∃ a middle, x s = (.ok a, middle) ∧ f a middle = (.ok b, after) := by
  simp only [bind, andThen] at h
  split at h
  · rename_i a middle hFirst
    exact ⟨a, middle, hFirst, h⟩
  · cases h

/-- Steps are taken for the elements of a row in turn, each in the state that the one
before it left. The outcomes end with the row, or with the first fatal failure. -/
inductive Attempts (act : α → Action σ β) :
    List α → σ → List (Except CompileError β) → σ → Prop where
  | done (s : σ) : Attempts act [] s [] s
  | next {a : α} {rest : List α} {s middle after : σ} {outcome : Except CompileError β}
      {outcomes : List (Except CompileError β)} (hStep : act a s = (outcome, middle))
      (hGoesOn : GoesOn outcome) (hRest : Attempts act rest middle outcomes after) :
      Attempts act (a :: rest) s (outcome :: outcomes) after
  | stop {a : α} {rest : List α} {s after : σ} {e : CompileError}
      (hStep : act a s = (.error e, after)) (hFatal : e.IsFatal) :
      Attempts act (a :: rest) s [.error e] after

/-- A rejection in a row is only noted: the rest of the row is attempted after it, in the state
that it left. -/
theorem attemptEach_of_goesOn {act : α → Action σ β} {a : α} {rest : List α} {s middle : σ}
    {outcome : Except CompileError β} (hStep : act a s = (outcome, middle))
    (hGoesOn : GoesOn outcome) :
    attemptEach act (a :: rest) s =
      ((attemptEach act rest middle).1.map (outcome :: ·), (attemptEach act rest middle).2) := by
  have hRest : ∀ outcome : Except CompileError β,
      andThen (attemptEach act rest) (fun outcomes => done (outcome :: outcomes)) middle =
        ((attemptEach act rest middle).1.map (outcome :: ·), (attemptEach act rest middle).2) := by
    intro outcome
    simp only [andThen, done]
    cases attemptEach act rest middle with
    | mk result after => cases result <;> rfl
  rcases hGoesOn.ok_or_rejected with ⟨b, rfl⟩ | ⟨rejection, rfl⟩
  · simp only [attemptEach, attempt, bind, andThen, hStep]
    exact hRest (.ok b)
  · simp only [attemptEach, attempt, bind, andThen, hStep]
    exact hRest (.error (.rejected rejection))

/-- A fatal error is the last outcome of its row. -/
theorem attemptEach_of_fatal {act : α → Action σ β} {a : α} {rest : List α} {s after : σ}
    {e : CompileError} (hStep : act a s = (.error e, after)) (hFatal : e.IsFatal) :
    attemptEach act (a :: rest) s = (.ok [.error e], after) := by
  cases e with
  | rejected => exact absurd hFatal id
  | host | conversion | aborted =>
      simp only [attemptEach, attempt, bind, andThen, hStep]
      rfl

/-- To attempt a row never fails itself. Its outcomes are those of the attempts. -/
theorem attemptEach_of_attempts {act : α → Action σ β} {row : List α} {s after : σ}
    {outcomes : List (Except CompileError β)} (h : Attempts act row s outcomes after) :
    attemptEach act row s = (.ok outcomes, after) := by
  induction h with
  | done s => rfl
  | next hStep hGoesOn _ ih =>
      rw [attemptEach_of_goesOn hStep hGoesOn, ih]
      rfl
  | stop hStep hFatal => exact attemptEach_of_fatal hStep hFatal

theorem attemptEach_congr {act act' : α → Action σ β} {row : List α}
    (hSame : ∀ a ∈ row, act a = act' a) : attemptEach act row = attemptEach act' row := by
  induction row with
  | nil => rfl
  | cons a rest ih =>
      obtain ⟨hFirst, hRest⟩ := List.forall_mem_cons.mp hSame
      rw [attemptEach, attemptEach, hFirst, ih hRest]

theorem exists_attempts (act : α → Action σ β) (row : List α) (s : σ) :
    ∃ outcomes after, Attempts act row s outcomes after := by
  induction row generalizing s with
  | nil => exact ⟨[], s, .done s⟩
  | cons a rest ih =>
      cases hStep : act a s with
      | mk outcome middle =>
          by_cases hGoesOn : GoesOn outcome
          · obtain ⟨outcomes, after, hRest⟩ := ih middle
            exact ⟨outcome :: outcomes, after, .next hStep hGoesOn hRest⟩
          · obtain ⟨e, rfl, hFatal⟩ := exists_fatal_of_not_goesOn hGoesOn
            exact ⟨[.error e], middle, .stop hStep hFatal⟩

namespace Attempts
variable {act : α → Action σ β} {row : List α} {s after : σ}
  {outcomes : List (Except CompileError β)}

theorem length_le (h : Attempts act row s outcomes after) : outcomes.length ≤ row.length := by
  induction h with
  | done => exact Nat.le_refl _
  | next _ _ _ ih => exact Nat.succ_le_succ ih
  | stop => exact Nat.succ_le_succ (Nat.zero_le _)

/-- The whole row is attempted if nothing fatal happens on the way. -/
theorem length_eq (h : Attempts act row s outcomes after) (hGoesOn : ∀ o ∈ outcomes, GoesOn o) :
    outcomes.length = row.length := by
  induction h with
  | done => rfl
  | next _ _ _ ih => exact congrArg Nat.succ (ih fun o ho => hGoesOn o (List.mem_cons_of_mem _ ho))
  | @stop a rest s after e _ hFatal => exact absurd hFatal (hGoesOn (.error e) List.mem_cons_self)

/-- A fatal failure is the last outcome and the only fatal one. -/
theorem eq_append_of_fatal (h : Attempts act row s outcomes after) {e : CompileError}
    (hMem : .error e ∈ outcomes) (hFatal : e.IsFatal) :
    ∃ front, outcomes = front ++ [.error e] ∧ ∀ o ∈ front, GoesOn o := by
  induction h with
  | done => cases hMem
  | @next a rest s middle after outcome outcomes _ hGoesOn _ ih =>
      rcases List.mem_cons.mp hMem with rfl | hMem
      · exact absurd hFatal hGoesOn
      · obtain ⟨front, rfl, hFront⟩ := ih hMem
        exact ⟨outcome :: front, rfl, List.forall_mem_cons.mpr ⟨hGoesOn, hFront⟩⟩
  | stop =>
      cases List.mem_singleton.mp hMem
      exact ⟨[], rfl, by simp⟩

/-- What holds of the action at all elements and states holds of all outcomes of a row. -/
theorem forall_outcomes {P : Except CompileError β → Prop} (hAct : ∀ a s, P (act a s).1)
    (h : Attempts act row s outcomes after) : ∀ o ∈ outcomes, P o := by
  induction h with
  | done => simp
  | @next a rest s middle after outcome outcomes hStep _ _ ih =>
      have hOutcome := hAct a s
      rw [hStep] at hOutcome
      exact List.forall_mem_cons.mpr ⟨hOutcome, ih⟩
  | @stop a rest s after e hStep _ =>
      have hOutcome := hAct a s
      rw [hStep] at hOutcome
      exact List.forall_mem_singleton.mpr hOutcome

/-- The first step is taken in the first state. -/
theorem exists_cons {a : α} (h : Attempts act (a :: row) s outcomes after) :
    ∃ rest, outcomes = (act a s).1 :: rest := by
  cases h with
  | @next _ _ _ _ _ _ outcomes hStep => exact ⟨outcomes, by rw [hStep]⟩
  | stop hStep => exact ⟨[], by rw [hStep]⟩

theorem of_map {γ : Type} {other : γ → Action σ β} {f : γ → α} {row : List γ}
    (hSame : ∀ c ∈ row, other c = act (f c)) (h : Attempts act (row.map f) s outcomes after) :
    Attempts other row s outcomes after := by
  induction row generalizing s outcomes with
  | nil =>
      cases h with
      | done => exact .done _
  | cons c rest ih =>
      obtain ⟨hFirst, hRest⟩ := List.forall_mem_cons.mp hSame
      cases h with
      | next hStep hGoesOn hNext =>
          rw [← hFirst] at hStep
          exact .next hStep hGoesOn (ih hRest hNext)
      | stop hStep hFatal =>
          rw [← hFirst] at hStep
          exact .stop hStep hFatal

end Attempts

end Action

section Outcomes
variable {α : Type}

/-- What an outcome says about the text: nothing, unless it is a rejection. -/
def diagnosticsOf : Except CompileError α → List Diagnostic
  | .ok _ => []
  | .error e => e.diagnostics

/-- The results of the outcomes that succeeded. -/
def successes (outcomes : List (Except CompileError α)) : List α :=
  outcomes.filterMap Except.toOption

theorem eq_ok_of_toOption {outcome : Except CompileError α} {a : α}
    (h : outcome.toOption = some a) : outcome = .ok a := by
  cases outcome with
  | error => cases h
  | ok => exact congrArg Except.ok (Option.some.inj h)

/-- The successes are the results in the row of outcomes, and only these. -/
theorem mem_successes_iff {outcomes : List (Except CompileError α)} {a : α} :
    a ∈ successes outcomes ↔ .ok a ∈ outcomes := by
  rw [successes, List.mem_filterMap]
  constructor
  · rintro ⟨outcome, hMem, hOk⟩
    rwa [← eq_ok_of_toOption hOk]
  · intro hMem
    exact ⟨.ok a, hMem, rfl⟩

/-- A success adds its value to what is collected, and a rejection its diagnostics. -/
theorem collect_cons_of_goesOn {outcome : Except CompileError α} (hGoesOn : GoesOn outcome)
    (outcomes : List (Except CompileError α)) :
    collect (outcome :: outcomes) = (collect outcomes).map fun found =>
      (outcome.toOption.toList ++ found.1, diagnosticsOf outcome ++ found.2) := by
  rcases hGoesOn.ok_or_rejected with ⟨a, rfl⟩ | ⟨rejection, rfl⟩
  · rw [collect]
    cases collect outcomes <;> rfl
  · rw [collect]
    cases collect outcomes <;> rfl

/-- A fatal error takes the place of everything that would be collected after it. -/
theorem collect_cons_of_fatal {e : CompileError} (hFatal : e.IsFatal)
    (outcomes : List (Except CompileError α)) : collect (.error e :: outcomes) = .error e := by
  cases e with
  | rejected => exact absurd hFatal id
  | host | conversion | aborted => rfl

/-- Without a fatal error every value and every diagnostic is collected, in the order of the
row. -/
theorem collect_of_goesOn {outcomes : List (Except CompileError α)}
    (hGoesOn : ∀ o ∈ outcomes, GoesOn o) :
    collect outcomes = .ok (successes outcomes, outcomes.flatMap diagnosticsOf) := by
  induction outcomes with
  | nil => rfl
  | cons outcome outcomes ih =>
      obtain ⟨hFirst, hRest⟩ := List.forall_mem_cons.mp hGoesOn
      rw [collect_cons_of_goesOn hFirst, ih hRest, Except.map, List.flatMap_cons]
      cases outcome <;> rfl

/-- With a fatal error at its end a row gives that error, whatever was collected before. -/
theorem collect_of_fatal {front : List (Except CompileError α)} {e : CompileError}
    (hFront : ∀ o ∈ front, GoesOn o) (hFatal : e.IsFatal) :
    collect (front ++ [.error e]) = .error e := by
  induction front with
  | nil => exact collect_cons_of_fatal hFatal []
  | cons outcome front ih =>
      obtain ⟨hFirst, hRest⟩ := List.forall_mem_cons.mp hFront
      rw [List.cons_append, collect_cons_of_goesOn hFirst, ih hRest, Except.map]

/-- A fatal failure is the result of the whole row, whatever was rejected before it. -/
theorem combine_of_fatal (source : String) {front : List (Except CompileError α)}
    {e : CompileError} (hFront : ∀ o ∈ front, GoesOn o) (hFatal : e.IsFatal) :
    combine source (front ++ [.error e]) = .error e := by
  rw [combine, collect_of_fatal hFront hFatal]
  rfl

/-- Without fatal failures, the diagnostics decide. A rejection that holds none counts
neither as a failure nor as a result. -/
theorem combine_of_goesOn (source : String) {outcomes : List (Except CompileError α)}
    (hGoesOn : ∀ o ∈ outcomes, GoesOn o) :
    combine source outcomes =
      if outcomes.flatMap diagnosticsOf = [] then .ok (successes outcomes)
      else .error (.rejected ⟨outcomes.flatMap diagnosticsOf, source⟩) := by
  rw [combine, collect_of_goesOn hGoesOn]
  by_cases hNone : outcomes.flatMap diagnosticsOf = []
  · rw [if_pos hNone]
    simp [bind, Except.bind, hNone, pure, Except.pure]
  · rw [if_neg hNone]
    simp [bind, Except.bind, hNone, throw, throwThe, MonadExceptOf.throw]

theorem goesOn_map_ok (results : List α) : ∀ o ∈ results.map .ok, GoesOn o := by
  rw [List.forall_mem_map]
  exact fun _ _ => trivial

theorem combine_map_ok (source : String) (results : List α) :
    combine source (results.map .ok) = .ok results := by
  rw [combine_of_goesOn source (goesOn_map_ok results), if_pos, successes, List.filterMap_map]
  · exact congrArg Except.ok List.filterMap_some
  · rw [List.flatMap_map]
    exact List.flatMap_eq_nil_iff.mpr fun _ _ => rfl

namespace Action.Attempts
variable {σ β : Type} {act : β → Action σ α} {row : List β} {s after : σ}
  {outcomes : List (Except CompileError α)} {source : String}

/-- If the whole row did not end in a fatal failure, then none of its elements did. -/
theorem goesOn_of_combine (h : Attempts act row s outcomes after)
    (hGoesOn : GoesOn (combine source outcomes)) : ∀ o ∈ outcomes, GoesOn o := by
  intro o hMem
  apply Classical.byContradiction
  intro hNot
  obtain ⟨e, rfl, hFatal⟩ := exists_fatal_of_not_goesOn hNot
  obtain ⟨front, rfl, hFront⟩ := h.eq_append_of_fatal hMem hFatal
  rw [combine_of_fatal source hFront hFatal] at hGoesOn
  exact hGoesOn hFatal

/-- A row has results only if nothing fatal happened and nothing was said against the text. -/
theorem of_combine_eq_ok {results : List α} (h : Attempts act row s outcomes after)
    (hOk : combine source outcomes = .ok results) :
    (∀ o ∈ outcomes, GoesOn o) ∧ outcomes.flatMap diagnosticsOf = [] ∧
      results = successes outcomes := by
  have hGoesOn : ∀ o ∈ outcomes, GoesOn o := by
    apply h.goesOn_of_combine
    rw [hOk]
    trivial
  rw [combine_of_goesOn source hGoesOn] at hOk
  split at hOk
  · rename_i hNone
    cases hOk
    exact ⟨hGoesOn, hNone, rfl⟩
  · cases hOk

/-- What is said against the text of a rejected row is what its rejections say. -/
theorem of_combine_eq_rejected {rejection : Rejection} (h : Attempts act row s outcomes after)
    (hRejected : combine source outcomes = .error (.rejected rejection)) :
    rejection = ⟨outcomes.flatMap diagnosticsOf, source⟩ := by
  have hGoesOn : ∀ o ∈ outcomes, GoesOn o := by
    apply h.goesOn_of_combine
    rw [hRejected]
    exact id
  rw [combine_of_goesOn source hGoesOn] at hRejected
  split at hRejected <;> cases hRejected
  rfl

end Action.Attempts

/-- A rejection that holds no diagnostics. -/
def IsSilent : Except CompileError α → Prop
  | .error (.rejected rejection) => rejection.diagnostics = []
  | _ => False

/-- An outcome that goes on without a diagnostic is a success, unless it is a rejection that is
silent about what is wrong. -/
theorem exists_ok_of_not_silent {outcome : Except CompileError α} (hGoesOn : GoesOn outcome)
    (hNone : diagnosticsOf outcome = []) (hLoud : ¬IsSilent outcome) : ∃ a, outcome = .ok a := by
  rcases hGoesOn.ok_or_rejected with hOk | ⟨rejection, rfl⟩
  · exact hOk
  · exact absurd hNone hLoud

theorem eq_map_ok_of_forall {outcomes : List (Except CompileError α)}
    (hOk : ∀ o ∈ outcomes, ∃ a, o = .ok a) : outcomes = (successes outcomes).map .ok := by
  induction outcomes with
  | nil => rfl
  | cons outcome outcomes ih =>
      obtain ⟨⟨a, rfl⟩, hRest⟩ := List.forall_mem_cons.mp hOk
      exact congrArg (.ok a :: ·) (ih hRest)

/-- A silent rejection leaves fewer successes than there are outcomes. -/
theorem length_successes_lt {outcomes : List (Except CompileError α)}
    {outcome : Except CompileError α} (hMem : outcome ∈ outcomes) (hSilent : IsSilent outcome) :
    (successes outcomes).length < outcomes.length := by
  rw [successes, List.length_filterMap_lt_length_iff_exists]
  cases outcome with
  | ok => exact absurd hSilent id
  | error e => exact ⟨.error e, hMem, rfl⟩

end Outcomes
end TemplateCompiler
