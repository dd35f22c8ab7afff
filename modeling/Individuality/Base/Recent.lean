import Mathlib.Data.List.Induction
import Mathlib.Order.Basic
import Mathlib.Order.Lattice

/-
  Lists that note a value unless it is the last one noted, and
  of which only the most recent values are kept.

  Main declaration: `noteLast`
-/

namespace Individuality

namespace Recent

variable {α : Type} {bound : Nat} {xs : List α}

--
-- The Most Recent Values
--

/- The last values of a list, up to a bound. -/
def recent (bound : Nat) (xs : List α) : List α :=
  xs.drop (xs.length - bound)

theorem length_recent (bound : Nat) (xs : List α) :
    (recent bound xs).length = min bound xs.length := by
  unfold recent
  rw [List.length_drop]
  omega

theorem recent_of_le (hLe : xs.length ≤ bound) :
    recent bound xs = xs := by
  unfold recent
  rw [Nat.sub_eq_zero_of_le hLe, List.drop_zero]

theorem recent_sublist (bound : Nat) (xs : List α) :
    (recent bound xs).Sublist xs :=
  List.drop_sublist _ _

/- The last value is kept as long as any value is. -/
theorem getLast?_recent (hPos : 0 < bound) (xs : List α) :
    (recent bound xs).getLast? = xs.getLast? := by
  unfold recent
  rw [List.getLast?_drop]
  cases xs with
  | nil => simp
  | cons x xs =>
    rw [if_neg]
    rw [List.length_cons]
    omega

/- A new value moves the oldest one out. -/
theorem recent_append_singleton (hPos : 0 < bound) (hLe : bound ≤ xs.length) (x : α) :
    recent bound (xs ++ [x]) = (recent bound xs).tail ++ [x] := by
  unfold recent
  have hDrop : (xs ++ [x]).length - bound = xs.length - bound + 1 := by
    rw [List.length_append, List.length_singleton]
    omega
  rw [hDrop, List.drop_append_of_le_length (by omega), List.tail_drop]

--
-- Noting Values
--

variable [DecidableEq α]

def noteLast (xs : List α) (x : α) : List α :=
  if xs.getLast? = some x then xs else xs ++ [x]

/- The values of a list without the repeated ones. -/
def noted (xs : List α) : List α :=
  xs.foldl noteLast []

theorem noted_append_singleton (xs : List α) (x : α) :
    noted (xs ++ [x]) = noteLast (noted xs) x := by
  unfold noted
  rw [List.foldl_append]
  rfl

theorem mem_noteLast_iff {x y : α} :
    y ∈ noteLast xs x ↔ y ∈ xs ∨ y = x := by
  unfold noteLast
  split_ifs with hLast
  · constructor
    · exact Or.inl
    · rintro (hMem | rfl)
      · exact hMem
      · exact List.mem_of_getLast? hLast
  · rw [List.mem_append, List.mem_singleton]

theorem mem_noted_iff {y : α} :
    y ∈ noted xs ↔ y ∈ xs := by
  induction xs using List.reverseRecOn with
  | nil => rfl
  | append_singleton xs x ih =>
    rw [noted_append_singleton, mem_noteLast_iff, ih, List.mem_append, List.mem_singleton]

end Recent

namespace Recent

variable {α : Type} [LinearOrder α]

/- Noting a list that never falls makes it rise. -/
theorem pairwise_noted {xs : List α} (hSorted : xs.Pairwise (· ≤ ·)) :
    (noted xs).Pairwise (· < ·) := by
  induction xs using List.reverseRecOn with
  | nil => exact List.Pairwise.nil
  | append_singleton xs x ih =>
    rw [List.pairwise_append] at hSorted
    rcases hSorted with ⟨hSorted, _, hLe⟩
    have hNoted := ih hSorted
    rw [noted_append_singleton]
    unfold noteLast
    split_ifs with hLast
    · exact hNoted
    · rw [List.pairwise_append]
      refine ⟨hNoted, List.pairwise_singleton _ _, ?_⟩
      intro y hMem z hZ
      obtain rfl := List.mem_singleton.mp hZ
      have hYLe : y ≤ z := hLe y (mem_noted_iff.mp hMem) z hZ
      refine lt_of_le_of_ne hYLe ?_
      rintro rfl
      -- the last value is between the two
      apply hLast
      rcases List.eq_nil_or_concat (noted xs) with
        hNil | ⟨front, last, hConcat⟩
      · rw [hNil] at hMem
        cases hMem
      · rw [List.concat_eq_append] at hConcat
        rw [hConcat] at hMem hNoted ⊢
        rw [List.getLast?_concat]
        rw [List.mem_append, List.mem_singleton] at hMem
        rcases hMem with hFront | rfl
        · have hLt := (List.pairwise_append.mp hNoted).2.2 y hFront
              last (List.mem_singleton_self last)
          have hLastMem : last ∈ noted xs := by
            rw [hConcat]
            exact List.mem_append_right _ (List.mem_singleton_self last)
          have hLastLe := hLe last (mem_noted_iff.mp hLastMem) y hZ
          exact absurd hLt (not_lt_of_ge hLastLe)
        · rfl

end Recent

end Individuality
