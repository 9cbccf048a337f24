import TemplateCompiler.CompileError

/-! Steps that change a state and can fail. What a step changed before it failed stays
changed. -/
namespace TemplateCompiler

/-- A step over states of type `σ` with a result of type `α`. -/
def Action (σ α : Type) : Type := σ → Except CompileError α × σ

namespace Action
variable {σ τ α β : Type}

/-- Do nothing. -/
def done (a : α) : Action σ α := fun s => (.ok a, s)

/-- Continue after a success. After a failure the state stays as it is. -/
def andThen (x : Action σ α) (f : α → Action σ β) : Action σ β := fun s =>
  match x s with
  | (.ok a, after) => f a after
  | (.error e, after) => (.error e, after)

instance : Monad (Action σ) where
  pure := done
  bind := andThen

theorem andThen_done (x : Action σ α) : andThen x done = x := by
  funext s
  simp only [andThen, done]
  cases x s with
  | mk result after => cases result <;> rfl

theorem andThen_assoc {γ : Type} (x : Action σ α) (f : α → Action σ β) (g : β → Action σ γ) :
    andThen (andThen x f) g = andThen x fun a => andThen (f a) g := by
  funext s
  simp only [andThen]
  cases x s with
  | mk result after => cases result <;> rfl

instance : LawfulMonad (Action σ) :=
  LawfulMonad.mk' (Action σ) andThen_done (fun _ _ => rfl) andThen_assoc

/-- Fail without changing anything. -/
def fail (e : CompileError) : Action σ α := fun s => (.error e, s)

/-- A result that needs no state. -/
def ofExcept (result : Except CompileError α) : Action σ α := fun s => (result, s)

/-- The state as it is now. -/
def state : Action σ σ := fun s => (.ok s, s)

def update (f : σ → σ) : Action σ Unit := fun s => (.ok (), f s)

/-- Go on after a failure too, with the failure as the result. -/
def attempt (x : Action σ α) : Action σ (Except CompileError α) := fun s =>
  match x s with
  | (result, after) => (.ok result, after)

/-- Change what is said about a failure. -/
def mapError (f : CompileError → CompileError) (x : Action σ α) : Action σ α := fun s =>
  match x s with
  | (result, after) => (result.mapError f, after)

/-- A step on a part of a larger state. -/
def within (get : τ → σ) (set : τ → σ → τ) (x : Action σ α) : Action τ α := fun t =>
  match x (get t) with
  | (result, after) => (result, set t after)

/-- Take a step for each element in turn. Rejections do not end the row, all other
failures do, and the outcome that ended it is the last one. -/
def attemptEach (act : α → Action σ β) : List α → Action σ (List (Except CompileError β))
  | [] => pure []
  | a :: rest => do
    let outcome ← (act a).attempt
    match outcome with
    | .ok _ | .error (.rejected _) => return outcome :: (← attemptEach act rest)
    | .error _ => return [outcome]

/-- That the elements are known to belong to the list makes no difference. -/
theorem attemptEach_attach (row : List α) (act : α → Action σ β) :
    attemptEach (fun a : { a // a ∈ row } => act a.val) row.attach = attemptEach act row := by
  have hVal : ∀ part : List { a // a ∈ row },
      attemptEach (fun a => act a.val) part = attemptEach act (part.map Subtype.val) := by
    intro part
    induction part with
    | nil => rfl
    | cons a rest ih => simp only [attemptEach, ih, List.map_cons]
  rw [hVal, List.attach_map_subtype_val]

end Action

/-- All results of a row, with the diagnostics of all rejections. The first other
failure is the result of the whole. -/
def collect {α : Type} :
    List (Except CompileError α) → Except CompileError (List α × List Diagnostic)
  | [] => .ok ([], [])
  | .ok a :: rest => do
    let (results, diagnostics) ← collect rest
    return (a :: results, diagnostics)
  | .error (.rejected rejection) :: rest => do
    let (results, diagnostics) ← collect rest
    return (results, rejection.diagnostics ++ diagnostics)
  | .error e :: _ => .error e

/-- All results of a row, unless some diagnostic was found. What counts is the
diagnostics and not the rejections: one that holds none goes unnoticed. -/
def combine {α : Type} (source : String) (outcomes : List (Except CompileError α)) :
    Except CompileError (List α) := do
  let (results, diagnostics) ← collect outcomes
  if diagnostics.isEmpty then return results
  else throw (.rejected ⟨diagnostics, source⟩)

end TemplateCompiler
