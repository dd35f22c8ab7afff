import Mathlib.Data.List.Sort

/-
  A receiver of an ascending stream of numbers that may lose some of them: it reports the runs it
  skips, and reports just the numbers it never accepted.

  Main declaration: `Gaps.note`
-/

namespace Gaps

/-
  Step over one number, with the number expected next, which
  stops at a largest value, and the runs that were skipped.
-/
def note (cap : Nat) (state : Nat × List (Nat × Nat)) (x : Nat) : Nat × List (Nat × Nat) :=
  if x < state.1 then state
  else
    (min (x + 1) cap,
      if x > state.1 then state.2 ++ [(state.1, x - 1)]
      else state.2)

/- A number lies in one of the runs. -/
def Reported (missing : List (Nat × Nat)) (x : Nat) : Prop :=
  ∃ run ∈ missing, run.1 ≤ x ∧ x ≤ run.2

theorem reported_append_singleton {missing : List (Nat × Nat)} {run : Nat × Nat} {x : Nat} :
    Reported (missing ++ [run]) x ↔ Reported missing x ∨ run.1 ≤ x ∧ x ≤ run.2 := by
  unfold Reported
  simp only [List.mem_append, List.mem_singleton]
  constructor
  · rintro ⟨other, hMem | rfl, hIn⟩
    · exact Or.inl ⟨other, hMem, hIn⟩
    · exact Or.inr hIn
  · rintro (⟨other, hMem, hIn⟩ | hIn)
    · exact ⟨other, Or.inl hMem, hIn⟩
    · exact ⟨run, Or.inr rfl, hIn⟩

--
-- Ascending Streams
--

variable {cap : Nat} {hi lo : Nat} {xs : List Nat} {state : Nat × List (Nat × Nat)}

/-
  A stream that starts no lower than `lo`, goes up by one at least until the largest value, and ends
  no higher than the number `hi` that is free next.
-/
def Ascends (cap lo : Nat) : List Nat → Nat → Prop
  | [], hi => lo ≤ hi
  | x :: xs, hi =>
    lo ≤ x ∧ x ≤ cap ∧ Ascends cap (min (x + 1) cap) xs hi

theorem Ascends.weaken {lo' : Nat} (hAscends : Ascends cap lo xs hi) (hLe : lo' ≤ lo) :
    Ascends cap lo' xs hi := by
  cases xs with
  | nil => exact Nat.le_trans hLe hAscends
  | cons x xs =>
    exact ⟨Nat.le_trans hLe hAscends.1, hAscends.2⟩

/- Numbers may get lost. -/
theorem Ascends.sublist {ys : List Nat} (hSublist : xs.Sublist ys) (hCap : lo ≤ cap)
    (hAscends : Ascends cap lo ys hi) :
    Ascends cap lo xs hi := by
  induction hSublist generalizing lo with
  | slnil => exact hAscends
  | @cons xs ys y _ ih =>
    rcases hAscends with ⟨hLe, hY, hRest⟩
    have hTail := ih (Nat.min_le_right _ _) hRest
    exact hTail.weaken (Nat.le_min.mpr ⟨by omega, hCap⟩)
  | @cons_cons xs ys y _ ih =>
    rcases hAscends with ⟨hLe, hY, hRest⟩
    exact ⟨hLe, hY, ih (Nat.min_le_right _ _) hRest⟩

/- The number that is free next may follow. -/
theorem Ascends.snoc (hAscends : Ascends cap lo xs hi) (hCap : hi ≤ cap) :
    Ascends cap lo (xs ++ [hi]) (min (hi + 1) cap) := by
  induction xs generalizing lo with
  | nil => exact ⟨hAscends, hCap, Nat.le_refl _⟩
  | cons x xs ih =>
    exact ⟨hAscends.1, hAscends.2.1, ih hAscends.2.2⟩

theorem Ascends.le_of_mem {x : Nat} (hAscends : Ascends cap lo xs hi) (hCap : lo ≤ cap)
    (hMem : x ∈ xs) :
    lo ≤ x := by
  induction xs generalizing lo with
  | nil => cases hMem
  | cons y xs ih =>
    rcases hAscends with ⟨hLe, hY, hRest⟩
    rw [List.mem_cons] at hMem
    rcases hMem with rfl | hTail
    · exact hLe
    · have hLater := ih hRest (Nat.min_le_right _ _) hTail
      have hMin : lo ≤ min (y + 1) cap := Nat.le_min.mpr ⟨by omega, hCap⟩
      exact Nat.le_trans hMin hLater

/- An ascending stream is in order already. -/
theorem Ascends.insertionSort_eq (hAscends : Ascends cap lo xs hi) :
    xs.insertionSort (· ≤ ·) = xs := by
  apply List.Pairwise.insertionSort_eq
  induction xs generalizing lo with
  | nil => exact List.Pairwise.nil
  | cons x xs ih =>
    rcases hAscends with ⟨_, hX, hRest⟩
    refine List.Pairwise.cons ?_ (ih hRest)
    intro y hMem
    have hLater := hRest.le_of_mem (Nat.min_le_right _ _) hMem
    have hMin : x ≤ min (x + 1) cap := Nat.le_min.mpr ⟨Nat.le_succ x, hX⟩
    exact Nat.le_trans hMin hLater

--
-- Exact Reports
--

/- What is reported are the numbers below the expected one that were never accepted. -/
structure Exact (cap : Nat) (state : Nat × List (Nat × Nat)) (accepted : List Nat) : Prop where
  exact : ∀ x, Reported state.2 x ↔ x < state.1 ∧ x ∉ accepted
  below : ∀ x, x ∈ accepted → x < state.1 ∨ x = cap ∧ state.1 = cap
  capped : state.1 ≤ cap

theorem exact_start : Exact cap (0, []) [] where
  exact := by
    intro x
    simp [Reported]
  below := by
    intro x hMem
    cases hMem
  capped := Nat.zero_le cap

variable {accepted : List Nat}

theorem Exact.note {x : Nat} (hExact : Exact cap state accepted) (hLe : state.1 ≤ x)
    (hCap : x ≤ cap) :
    Exact cap (note cap state x) (accepted ++ [x]) := by
  rcases state with ⟨expected, missing⟩
  have hBelow := hExact.below
  have hReported : ∀ y, Reported (Gaps.note cap (expected, missing) x).2 y
          ↔ Reported missing y ∨ expected ≤ y ∧ y < x := by
    intro y
    unfold Gaps.note
    rw [if_neg (Nat.not_lt.mpr hLe)]
    dsimp only at hLe ⊢
    by_cases hSkip : x > expected
    · rw [if_pos hSkip, reported_append_singleton]
      have hEnd : y ≤ x - 1 ↔ y < x := by omega
      simp only [hEnd]
    · rw [if_neg hSkip]
      have hNone : ¬ (expected ≤ y ∧ y < x) := by omega
      simp only [hNone, or_false]
  have hNext : (Gaps.note cap (expected, missing) x).1 = min (x + 1) cap := by
    unfold Gaps.note
    rw [if_neg (Nat.not_lt.mpr hLe)]
  dsimp only at hLe hBelow
  refine { exact := ?_, below := ?_, capped := ?_ }
  · intro y
    rw [hReported, hNext, hExact.exact]
    simp only [List.mem_append, List.mem_singleton, Nat.lt_min, not_or]
    constructor
    · rintro (⟨hLt, hNew⟩ | ⟨hGe, hLt⟩)
      · exact ⟨⟨by omega, by omega⟩, hNew, by omega⟩
      · refine ⟨⟨by omega, by omega⟩, ?_, by omega⟩
        intro hMem
        have hOld := hBelow y hMem
        omega
    · rintro ⟨⟨hLt, hLtCap⟩, hNew, hNe⟩
      by_cases hOld : y < expected
      · exact Or.inl ⟨hOld, hNew⟩
      · exact Or.inr ⟨by omega, by omega⟩
  · intro y hMem
    rw [hNext]
    rw [List.mem_append, List.mem_singleton] at hMem
    rcases hMem with hOld | rfl
    · have hPast := hBelow y hOld
      omega
    · omega
  · rw [hNext]
    exact Nat.min_le_right _ _

/- Accepting an ascending stream keeps the reports exact. -/
theorem Exact.foldl_note (hExact : Exact cap state accepted)
    (hAscends : Ascends cap state.1 xs hi) :
    Exact cap (xs.foldl (Gaps.note cap) state) (accepted ++ xs)
      ∧ (xs.foldl (Gaps.note cap) state).1 ≤ hi := by
  induction xs generalizing state accepted with
  | nil =>
    rw [List.append_nil]
    exact ⟨hExact, hAscends⟩
  | cons x xs ih =>
    rcases hAscends with ⟨hLe, hCap, hRest⟩
    have hNext : (Gaps.note cap state x).1 = min (x + 1) cap := by
      unfold Gaps.note
      rw [if_neg (Nat.not_lt.mpr hLe)]
    have hThen := ih (hExact.note hLe hCap) (by rw [hNext]; exact hRest)
    rw [List.append_assoc, List.singleton_append] at hThen
    exact hThen

/- A stream goes on behind the part of it that was accepted. -/
theorem Ascends.after {ys zs : List Nat} (hSublist : xs.Sublist ys) (hCap : state.1 ≤ cap)
    (hAscends : Ascends cap state.1 (ys ++ zs) hi) :
    Ascends cap (xs.foldl (Gaps.note cap) state).1 zs hi := by
  induction hSublist generalizing state with
  | slnil => exact hAscends
  | @cons xs ys y _ ih =>
    rcases hAscends with ⟨hLe, hY, hRest⟩
    exact ih hCap (hRest.weaken (Nat.le_min.mpr ⟨by omega, hCap⟩))
  | @cons_cons xs ys y _ ih =>
    rcases hAscends with ⟨hLe, hY, hRest⟩
    have hNext : (Gaps.note cap state y).1 = min (y + 1) cap := by
      unfold Gaps.note
      rw [if_neg (Nat.not_lt.mpr hLe)]
    apply ih
    · rw [hNext]
      exact Nat.min_le_right _ _
    · rw [hNext]
      exact hRest

end Gaps
