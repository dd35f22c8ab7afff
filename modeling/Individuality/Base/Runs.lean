import Mathlib.Logic.Relation
import Mathlib.Tactic.SplitIfs

/-
  Runs of a machine whose labelled steps may fail, restricted to the steps a condition allows.

  Main declaration: `StepUnder`
-/

section Runs

variable {σ ℓ ε : Type}

/-
  One successful step from `s` to `s'` by some label, where
  the condition allows that label between these two states.
-/
def StepUnder (next : σ → ℓ → Except ε σ) (allowed : σ → ℓ → σ → Prop) (s s' : σ) : Prop :=
  ∃ op, allowed s op s' ∧ next s op = .ok s'

/- A finite run of allowed steps. -/
abbrev RunUnder (next : σ → ℓ → Except ε σ) (allowed : σ → ℓ → σ → Prop) : σ → σ → Prop :=
  Relation.ReflTransGen (StepUnder next allowed)

namespace RunUnder

variable {next : σ → ℓ → Except ε σ} {allowed : σ → ℓ → σ → Prop} {s s' : σ}

/- What holds at the start and is kept by every allowed step holds at the end of every run. -/
theorem invariant (I : σ → Prop) (hRun : RunUnder next allowed s s')
    (hStep : ∀ s op s', allowed s op s' → next s op = .ok s' → I s → I s') (hStart : I s) :
    I s' := by
  induction hRun with
  | refl => exact hStart
  | tail _ hLast ih =>
    rcases hLast with ⟨op, hAllowed, hNext⟩
    exact hStep _ op _ hAllowed hNext ih

/- A run stays a run when more steps are allowed. -/
theorem weaken {allowed' : σ → ℓ → σ → Prop} (hRun : RunUnder next allowed s s')
    (hAllowed : ∀ s op s', allowed s op s' → allowed' s op s') :
    RunUnder next allowed' s s' := by
  refine Relation.ReflTransGen.mono ?_ _ _ hRun
  rintro a b ⟨op, hOp, hNext⟩
  exact ⟨op, hAllowed a op b hOp, hNext⟩

theorem single {op : ℓ} (hAllowed : allowed s op s') (hNext : next s op = .ok s') :
    RunUnder next allowed s s' :=
  Relation.ReflTransGen.single ⟨op, hAllowed, hNext⟩

theorem snoc {s'' : σ} {op : ℓ} (hRun : RunUnder next allowed s s') (hAllowed : allowed s' op s'')
    (hNext : next s' op = .ok s'') :
    RunUnder next allowed s s'' :=
  hRun.tail ⟨op, hAllowed, hNext⟩

end RunUnder

--
-- Executing Labels
--

/-
  Perform a list of labels that each pass a check, stopping
  at the first one that does not or that fails.
-/
def execute (next : σ → ℓ → Except ε σ) (check : σ → ℓ → Bool) : σ → List ℓ → Option σ
  | s, [] => some s
  | s, op :: ops =>
    if check s op then
      match next s op with
      | .ok s' => execute next check s' ops
      | .error _ => none
    else
      none

variable {check : σ → ℓ → Bool}

/- What was executed is a run of the checked steps. -/
theorem run_of_execute {next : σ → ℓ → Except ε σ}
    {allowed : σ → ℓ → σ → Prop} {s s' : σ} {ops : List ℓ}
    (hCheck : ∀ s op s', check s op = true → next s op = .ok s' → allowed s op s')
    (hExecute : execute next check s ops = some s') :
    RunUnder next allowed s s' := by
  induction ops generalizing s with
  | nil =>
    simp only [execute, Option.some.injEq] at hExecute
    exact hExecute ▸ Relation.ReflTransGen.refl
  | cons op ops ih =>
    unfold execute at hExecute
    split_ifs at hExecute with hOp
    cases hNext : next s op with
    | error e => simp [hNext] at hExecute
    | ok s₁ =>
      simp only [hNext] at hExecute
      exact Relation.ReflTransGen.head ⟨op, hCheck s op s₁ hOp hNext, hNext⟩ (ih hExecute)

/- An executed list of labels whose last state passes a test. -/
theorem exists_run_of_execute {next : σ → ℓ → Except ε σ}
    {allowed : σ → ℓ → σ → Prop} {s : σ} {ops : List ℓ} {test : σ → Bool}
    (hCheck : ∀ s op s', check s op = true → next s op = .ok s' → allowed s op s')
    (hExecute : (execute next check s ops).any test = true) :
    ∃ s', RunUnder next allowed s s' ∧ test s' = true := by
  rw [Option.any_eq_true] at hExecute
  rcases hExecute with ⟨s', hSome, hTest⟩
  exact ⟨s', run_of_execute hCheck hSome, hTest⟩

end Runs
