import Individuality.Base.Runs

/-
  Runs together with their steps: what happened on the way to
  a state, and what has not happened since.

  Main declaration: `TraceStep`
-/

/- A step of a run, with the states before and after it. -/
structure TraceStep (σ ℓ : Type) where
  pre : σ
  op : ℓ
  post : σ

section Traces

variable {σ ℓ ε : Type} {next : σ → ℓ → Except ε σ} {allowed : σ → ℓ → σ → Prop} {s s' : σ}
variable {steps : List (TraceStep σ ℓ)} {x : TraceStep σ ℓ}

--
-- Runs and Their Steps
--

/- A finite run of allowed steps, which are listed in order. -/
inductive Trace (next : σ → ℓ → Except ε σ) (allowed : σ → ℓ → σ → Prop)
    (s : σ) : List (TraceStep σ ℓ) → σ → Prop
  | nil : Trace next allowed s [] s
  | snoc {steps : List (TraceStep σ ℓ)} {s₁ s₂ : σ} {op : ℓ}
      (hTrace : Trace next allowed s steps s₁) (hAllowed : allowed s₁ op s₂)
      (hNext : next s₁ op = .ok s₂) :
      Trace next allowed s (steps ++ [⟨s₁, op, s₂⟩]) s₂

theorem Trace.run (hTrace : Trace next allowed s steps s') :
    RunUnder next allowed s s' := by
  induction hTrace with
  | nil => exact Relation.ReflTransGen.refl
  | snoc _ hAllowed hNext ih => exact ih.snoc hAllowed hNext

theorem RunUnder.exists_trace (hRun : RunUnder next allowed s s') :
    ∃ steps, Trace next allowed s steps s' := by
  induction hRun with
  | refl => exact ⟨[], Trace.nil⟩
  | tail _ hLast ih =>
    rcases ih with ⟨steps, hTrace⟩
    rcases hLast with ⟨op, hAllowed, hNext⟩
    exact ⟨_, hTrace.snoc hAllowed hNext⟩

--
-- What Happened, and What Not Since
--

/- Some step meets `P`, and no step after it meets `Q`. -/
def Since (P Q : TraceStep σ ℓ → Prop) (steps : List (TraceStep σ ℓ)) : Prop :=
  ∃ before x after, steps = before ++ x :: after ∧ P x ∧ ∀ y ∈ after, ¬Q y

variable {P P' Q : TraceStep σ ℓ → Prop}

theorem Since.last (hLast : P x) :
    Since P Q (steps ++ [x]) :=
  ⟨steps, x, [], rfl, hLast, fun _ hMem => absurd hMem List.not_mem_nil⟩

theorem Since.snoc (hSince : Since P Q steps) (hNot : ¬Q x) :
    Since P Q (steps ++ [x]) := by
  rcases hSince with ⟨before, y, after, rfl, hStep, hAfter⟩
  refine ⟨before, y, after ++ [x], by simp, hStep, ?_⟩
  intro z hMem
  rcases List.mem_append.mp hMem with hOld | hNew
  · exact hAfter z hOld
  · obtain rfl := List.mem_singleton.mp hNew
    exact hNot

theorem Since.mono (hSince : Since P Q steps) (hImp : ∀ y, P y → P' y) :
    Since P' Q steps := by
  rcases hSince with ⟨before, y, after, hSplit, hStep, hAfter⟩
  exact ⟨before, y, after, hSplit, hImp y hStep, hAfter⟩

end Traces
