import Mathlib.Data.List.Sort
import Mathlib.Data.List.Nodup

/-
  Removing the elements at a sorted list of positions from a list, in one pass over both lists.

  Main declaration: `removePositions`
-/

section Positions

variable {α : Type}

/-
  The elements of a list that starts at position `i`, without
  those whose position is the next one of `gone`.
-/
def removePositions :
    Nat → List Nat → List α → List α
  | _, _, [] => []
  | i, gone, a :: as =>
    if gone.head? = some i then
      removePositions (i + 1) gone.tail as
    else
      a :: removePositions (i + 1) gone as

/- A strictly sorted list of positions from `i` on. -/
def PositionsFrom (i : Nat) (gone : List Nat) : Prop :=
  gone.Pairwise (· < ·) ∧ ∀ x ∈ gone, i ≤ x

namespace PositionsFrom

variable {i : Nat} {gone : List Nat}

theorem tail (hFrom : PositionsFrom i gone) (hHead : gone.head? = some i) :
    gone = i :: gone.tail ∧ PositionsFrom (i + 1) gone.tail := by
  cases gone with
  | nil => simp at hHead
  | cons x rest =>
    simp only [List.head?_cons, Option.some.injEq] at hHead
    subst hHead
    rcases List.pairwise_cons.mp hFrom.1 with ⟨hAbove, hSorted⟩
    exact ⟨rfl, hSorted, hAbove⟩

theorem skip (hFrom : PositionsFrom i gone) (hHead : gone.head? ≠ some i) :
    i ∉ gone ∧ PositionsFrom (i + 1) gone := by
  have hAbove : ∀ x ∈ gone, i + 1 ≤ x := by
    cases gone with
    | nil => simp
    | cons y rest =>
      simp only [List.head?_cons, ne_eq, Option.some.injEq] at hHead
      have hFirst := hFrom.2 y (List.mem_cons_self ..)
      have hRest := (List.pairwise_cons.mp hFrom.1).1
      intro x hMem
      rcases List.mem_cons.mp hMem with rfl | hMem
      · omega
      · have := hRest x hMem
        omega
  refine ⟨?_, hFrom.1, hAbove⟩
  intro hMem
  have := hAbove i hMem
  omega

end PositionsFrom

variable {as : List α}

theorem mem_removePositions_iff {i : Nat} {gone : List Nat} {a : α} (hFrom : PositionsFrom i gone) :
    a ∈ removePositions i gone as ↔ ∃ j, as[j]? = some a ∧ i + j ∉ gone := by
  induction as generalizing i gone with
  | nil => simp [removePositions]
  | cons b as ih =>
    unfold removePositions
    by_cases hHead : gone.head? = some i
    · rcases hFrom.tail hHead with ⟨hCons, hTail⟩
      rw [if_pos hHead, ih hTail]
      constructor
      · rintro ⟨j, hGet, hNot⟩
        refine ⟨j + 1, by simpa using hGet, ?_⟩
        rw [hCons]
        have hShift : i + (j + 1) = i + 1 + j := by omega
        rw [hShift, List.mem_cons, not_or]
        exact ⟨by omega, hNot⟩
      · rintro ⟨j, hGet, hNot⟩
        cases j with
        | zero =>
          rw [hCons] at hNot
          simp at hNot
        | succ j =>
          refine ⟨j, by simpa using hGet, ?_⟩
          rw [hCons, List.mem_cons, not_or] at hNot
          have hShift : i + (j + 1) = i + 1 + j := by omega
          rw [← hShift]
          exact hNot.2
    · rcases hFrom.skip hHead with ⟨hNot, hNext⟩
      rw [if_neg hHead, List.mem_cons, ih hNext]
      constructor
      · rintro (rfl | ⟨j, hGet, hGone⟩)
        · exact ⟨0, by simp, by simpa using hNot⟩
        · refine ⟨j + 1, by simpa using hGet, ?_⟩
          have hShift : i + (j + 1) = i + 1 + j := by omega
          rw [hShift]
          exact hGone
      · rintro ⟨j, hGet, hGone⟩
        cases j with
        | zero =>
          left
          simpa using hGet.symm
        | succ j =>
          right
          refine ⟨j, by simpa using hGet, ?_⟩
          have hShift : i + (j + 1) = i + 1 + j := by omega
          rw [← hShift]
          exact hGone

/- The elements at the positions that are not gone, in order. -/
theorem removePositions_eq_filter {i : Nat} {gone : List Nat} (as : List α)
    (hFrom : PositionsFrom i gone) :
    removePositions i gone as = ((as.zipIdx i).filter fun x => x.2 ∉ gone).map
        Prod.fst := by
  induction as generalizing i gone with
  | nil => rfl
  | cons a as ih =>
    unfold removePositions
    rw [List.zipIdx_cons]
    by_cases hHead : gone.head? = some i
    · rcases hFrom.tail hHead with ⟨hCons, hTail⟩
      have hGone : i ∈ gone := by
        rw [hCons]
        exact List.mem_cons_self ..
      rw [if_pos hHead, ih hTail, List.filter_cons_of_neg (by simpa using hGone)]
      congr 1
      apply List.filter_congr
      rintro ⟨b, j⟩ hMem
      have hLe := List.le_snd_of_mem_zipIdx hMem
      have hNe : j ≠ i := by
        simp only at hLe
        omega
      conv_rhs => rw [hCons]
      simp [hNe]
    · rcases hFrom.skip hHead with ⟨hNot, hNext⟩
      rw [if_neg hHead, ih hNext, List.filter_cons_of_pos (by simpa using hNot),
        List.map_cons]

/- When distinct kept positions hold distinct elements, the kept elements are pairwise distinct. -/
theorem removePositions_nodup {i : Nat} {gone : List Nat} (hFrom : PositionsFrom i gone)
    (hDistinct : ∀ j₁ j₂ a, as[j₁]? = some a → as[j₂]? = some a →
        i + j₁ ∉ gone → i + j₂ ∉ gone → j₁ = j₂) :
    (removePositions i gone as).Nodup := by
  induction as generalizing i gone with
  | nil => simp [removePositions]
  | cons b as ih =>
    have hShift : ∀ j, i + (j + 1) = i + 1 + j := by omega
    unfold removePositions
    by_cases hHead : gone.head? = some i
    · rcases hFrom.tail hHead with ⟨hCons, hTail⟩
      rw [if_pos hHead]
      apply ih hTail
      intro j₁ j₂ a h₁ h₂ hNot₁ hNot₂
      have hKept : ∀ j, i + 1 + j ∉ gone.tail → i + (j + 1) ∉ gone := by
        intro j hNot
        rw [hCons, List.mem_cons, not_or, hShift]
        exact ⟨by omega, hNot⟩
      have hEq := hDistinct (j₁ + 1) (j₂ + 1) a (by simpa using h₁)
          (by simpa using h₂) (hKept j₁ hNot₁)
          (hKept j₂ hNot₂)
      omega
    · rcases hFrom.skip hHead with ⟨hNot, hNext⟩
      rw [if_neg hHead, List.nodup_cons]
      constructor
      · rw [mem_removePositions_iff hNext]
        rintro ⟨j, hGet, hGone⟩
        have hEq := hDistinct 0 (j + 1) b (by simp) (by simpa using hGet) (by simpa using hNot)
            (by rw [hShift]; exact hGone)
        omega
      · apply ih hNext
        intro j₁ j₂ a h₁ h₂ hNot₁ hNot₂
        have hEq := hDistinct (j₁ + 1) (j₂ + 1) a (by simpa using h₁)
            (by simpa using h₂) (by rw [hShift]; exact hNot₁)
            (by rw [hShift]; exact hNot₂)
        omega

theorem length_removePositions_le (i : Nat) (gone : List Nat) (as : List α) :
    (removePositions i gone as).length ≤ as.length := by
  induction as generalizing i gone with
  | nil => simp [removePositions]
  | cons b as ih =>
    unfold removePositions
    split_ifs
    · exact Nat.le_succ_of_le (ih (i + 1) gone.tail)
    · exact Nat.succ_le_succ (ih (i + 1) gone)

theorem mem_of_mem_removePositions {i : Nat} {gone : List Nat} {a : α}
    (hMem : a ∈ removePositions i gone as) :
    a ∈ as := by
  induction as generalizing i gone with
  | nil => simp [removePositions] at hMem
  | cons b as ih =>
    unfold removePositions at hMem
    split_ifs at hMem
    · exact List.mem_cons_of_mem _ (ih hMem)
    · rcases List.mem_cons.mp hMem with rfl | hMem
      · exact List.mem_cons_self ..
      · exact List.mem_cons_of_mem _ (ih hMem)

/- Inserting a new position keeps a list strictly sorted. -/
theorem pairwise_lt_orderedInsert {x : Nat} {gone : List Nat} (hSorted : gone.Pairwise (· < ·))
    (hNew : x ∉ gone) :
    (gone.orderedInsert (· ≤ ·) x).Pairwise (· < ·) := by
  have hLe : (gone.orderedInsert (· ≤ ·) x).Pairwise (· ≤ ·) := List.Pairwise.orderedInsert x gone
      (hSorted.imp Nat.le_of_lt)
  have hNodup : (gone.orderedInsert (· ≤ ·) x).Nodup := by
    rw [(List.perm_orderedInsert (· ≤ ·) x gone).nodup_iff, List.nodup_cons]
    exact ⟨hNew, hSorted.imp Nat.ne_of_lt⟩
  exact hLe.imp₂ (fun _ _ h hNe => Nat.lt_of_le_of_ne h hNe) hNodup

end Positions
