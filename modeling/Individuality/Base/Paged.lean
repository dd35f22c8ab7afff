import Mathlib.Data.List.Basic
import Mathlib.Data.List.TakeDrop
import Mathlib.Logic.Function.Basic
import Mathlib.Algebra.Order.Ring.Nat
import Mathlib.Tactic.Ring
import Mathlib.Tactic.SplitIfs

/-
  Lists stored in pages of a fixed size.

  Main declaration: `Paged`
-/

section Paged

variable {α : Type} {ps : Nat} {page : Nat → List α} {xs : List α}

/- Page `p` holds the `p`-th block of `ps` elements. -/
def Paged (ps : Nat) (page : Nat → List α) (xs : List α) : Prop :=
  ∀ p, page p = (xs.drop (p * ps)).take ps

namespace Paged

theorem nil : Paged ps (fun _ => ([] : List α)) [] := by
  intro p
  simp

theorem length_page (hPaged : Paged ps page xs) (p : Nat) :
    (page p).length = min ps (xs.length - p * ps) := by
  rw [hPaged p, List.length_take, List.length_drop]

theorem getElem?_page (hPaged : Paged ps page xs) {p i : Nat} (hIndex : i < ps) :
    (page p)[i]? = xs[p * ps + i]? := by
  rw [hPaged p, List.getElem?_take_of_lt hIndex, List.getElem?_drop]

/- Pages past the end of the list are empty. -/
theorem getElem?_page_eq_some_iff (hPaged : Paged ps page xs) {p i : Nat} {a : α} :
    (page p)[i]? = some a ↔ i < ps ∧ xs[p * ps + i]? = some a := by
  by_cases hIndex : i < ps
  · rw [hPaged.getElem?_page hIndex]
    exact (and_iff_right hIndex).symm
  · have hPast : (page p).length ≤ i := by
      rw [hPaged.length_page]
      omega
    rw [List.getElem?_eq_none hPast]
    simp [hIndex]

theorem page_eq_nil (hPaged : Paged ps page xs) {p : Nat} (hPast : xs.length ≤ p * ps) :
    page p = [] := by
  rw [hPaged p, List.drop_eq_nil_of_le hPast]
  exact List.take_nil

/- The last page holds what the full pages leave over. -/
theorem last_page (hPaged : Paged ps page xs) (hPos : 0 < ps) :
    page (xs.length / ps) = xs.drop (xs.length / ps * ps) := by
  rw [hPaged]
  apply List.take_of_length_le
  rw [List.length_drop]
  have hDiv := Nat.div_add_mod' xs.length ps
  have hMod := Nat.mod_lt xs.length hPos
  omega

theorem length_last_page (hPaged : Paged ps page xs) (hPos : 0 < ps) :
    (page (xs.length / ps)).length = xs.length % ps := by
  rw [hPaged.last_page hPos, List.length_drop]
  have hDiv := Nat.div_add_mod' xs.length ps
  omega

theorem eq_div_of_length (hPos : 0 < ps) {p n len : Nat} (hLength : n = p * ps + len)
    (hLt : len < ps) :
    n / ps = p := by
  subst hLength
  rw [Nat.add_comm, Nat.add_mul_div_right _ _ hPos, Nat.div_eq_of_lt hLt, Nat.zero_add]

/- An element is appended by pushing it onto the last page. -/
theorem append_singleton (hPaged : Paged ps page xs) (hPos : 0 < ps) (a : α) :
    Paged ps (Function.update page (xs.length / ps) (page (xs.length / ps) ++ [a]))
      (xs ++ [a]) := by
  intro p
  have hDiv := Nat.div_add_mod' xs.length ps
  have hMod := Nat.mod_lt xs.length hPos
  by_cases hLast : p = xs.length / ps
  · subst hLast
    rw [Function.update_self, hPaged.last_page hPos, List.drop_append_of_le_length (by omega)]
    symm
    apply List.take_of_length_le
    simp only [List.length_append, List.length_drop, List.length_singleton]
    omega
  · rw [Function.update_of_ne hLast, hPaged p]
    rcases Nat.lt_or_gt_of_ne hLast with hBefore | hAfter
    · have hBlock : p * ps + ps ≤ xs.length / ps * ps := by
        calc
          p * ps + ps = (p + 1) * ps := by ring
          _ ≤ xs.length / ps * ps := Nat.mul_le_mul_right ps hBefore
      rw [List.drop_append_of_le_length (by omega), List.take_append_of_le_length]
      rw [List.length_drop]
      omega
    · have hBlock : xs.length / ps * ps + ps ≤ p * ps := by
        calc
          xs.length / ps * ps + ps = (xs.length / ps + 1) * ps := by ring
          _ ≤ p * ps := Nat.mul_le_mul_right ps hAfter
      rw [List.drop_eq_nil_of_le (by omega), List.drop_eq_nil_of_le (by
          rw [List.length_append, List.length_singleton]
          omega)]

/- A list that fits into one page lies on the first page. -/
theorem of_single_page (hFits : xs.length ≤ ps) (hFirst : page 0 = xs)
    (hRest : ∀ p, 0 < p → page p = []) :
    Paged ps page xs := by
  intro p
  rcases Nat.eq_zero_or_pos p with hZero | hPos
  · subst hZero
    simp [hFirst, List.take_of_length_le hFits]
  · rw [hRest p hPos, List.drop_eq_nil_of_le]
    · exact List.take_nil.symm
    · calc
        xs.length ≤ ps := hFits
        _ ≤ p * ps := Nat.le_mul_of_pos_left ps hPos

theorem page_zero_of_le (hPaged : Paged ps page xs) (hFits : xs.length ≤ ps) :
    page 0 = xs := by
  rw [hPaged 0, Nat.zero_mul, List.drop_zero, List.take_of_length_le hFits]

/- A block read inside one page is the same block of the whole list. -/
theorem take_drop_page (hPaged : Paged ps page xs) {n k : Nat} (hBlock : k ≤ ps - n % ps) :
    ((page (n / ps)).drop (n % ps)).take k = (xs.drop n).take k := by
  rw [hPaged, List.drop_take, List.drop_drop, List.take_take, Nat.min_eq_left hBlock,
    Nat.div_add_mod']

/- The first `n` pages, put together in page order. -/
theorem flatMap_range (hPaged : Paged ps page xs) (n : Nat) :
    (List.range n).flatMap page = xs.take (n * ps) := by
  induction n with
  | zero => simp
  | succ n ih =>
    rw [List.range_succ, List.flatMap_append, ih, List.flatMap_singleton, hPaged n, Nat.succ_mul,
      List.take_add]

end Paged

--
-- Appending at a Cursor
--

/-
  Append elements one by one to the page under a cursor, which moves on from page `p` to page `next
  p` when `p` is full.
-/
def pushPages (ps : Nat) (next : Nat → Nat) :
    (Nat → List α) → Nat → List α → Nat → List α
  | page, _, [] => page
  | page, p, a :: as =>
    pushPages ps next (Function.update page p (page p ++ [a]))
      (if ps ≤ (page p).length + 1 then next p else p) as

theorem pushPages_singleton (next : Nat → Nat) (page : Nat → List α) (p : Nat) (a : α) :
    pushPages ps next page p [a] = Function.update page p (page p ++ [a]) := rfl

/- A page grows by at most the elements that are appended. -/
theorem length_pushPages_le
    (ps : Nat) (next : Nat → Nat) (page : Nat → List α) (p : Nat) (as : List α) (q : Nat) :
    (pushPages ps next page p as q).length ≤ (page q).length + as.length := by
  induction as generalizing page p with
  | nil => exact Nat.le_refl _
  | cons a as ih =>
    unfold pushPages
    refine Nat.le_trans (ih _ _) ?_
    by_cases hEq : q = p
    · rw [hEq, Function.update_self, List.length_append, List.length_singleton, List.length_cons]
      omega
    · rw [Function.update_of_ne hEq, List.length_cons]
      omega

/- The page of the next element after one more element. -/
theorem succ_div_eq (hPos : 0 < ps) (n : Nat) :
    (n + 1) / ps =
      if ps ≤ n % ps + 1 then n / ps + 1 else n / ps := by
  have hDiv := Nat.div_add_mod' n ps
  have hMod := Nat.mod_lt n hPos
  split_ifs with hFull
  · refine Paged.eq_div_of_length hPos (p := n / ps + 1) ?_ hPos
    rw [Nat.add_mul]
    omega
  · have hNext : n + 1 = n / ps * ps + (n % ps + 1) := by
      omega
    exact Paged.eq_div_of_length hPos hNext (by omega)

/- Appending at the end of a paged list gives the pages of the longer list. -/
theorem paged_pushPages {next : Nat → Nat} {as : List α} (hPaged : Paged ps page xs) (hPos : 0 < ps)
    (hNext : ∀ p, p ≤ xs.length + as.length → next p = p + 1) :
    Paged ps (pushPages ps next page (xs.length / ps) as) (xs ++ as) := by
  induction as generalizing page xs with
  | nil =>
    rw [List.append_nil]
    exact hPaged
  | cons a as ih =>
    unfold pushPages
    have hLength := hPaged.length_last_page hPos
    have hCursor : (if ps ≤ (page (xs.length / ps)).length + 1
          then next (xs.length / ps)
          else xs.length / ps)
          = (xs ++ [a]).length / ps := by
      have hBound : xs.length / ps ≤ xs.length := Nat.div_le_self _ _
      rw [hLength, List.length_append, List.length_singleton, succ_div_eq hPos, hNext _ (by omega)]
    rw [hCursor]
    have hStep := ih (hPaged.append_singleton hPos a) (by
        intro p hLe
        apply hNext p
        simp only [List.length_append, List.length_cons, List.length_nil] at hLe ⊢
        omega)
    rw [List.append_assoc, List.singleton_append] at hStep
    exact hStep

--
-- Chunks
--

/- The first `count` blocks of `n` elements of a list. -/
def chunksOf (n : Nat) : Nat → List α → List (List α)
  | 0, _ => []
  | _ + 1, [] => []
  | count + 1, a :: as =>
    (a :: as).take n :: chunksOf n count ((a :: as).drop n)

/- A list in blocks of `n` elements, the last one shorter. -/
def chunks (n : Nat) (xs : List α) : List (List α) :=
  chunksOf n xs.length xs

theorem mem_of_mem_chunks {n : Nat} {xs block : List α} {x : α} (hBlock : block ∈ chunks n xs)
    (hMem : x ∈ block) :
    x ∈ xs := by
  unfold chunks at hBlock
  generalize xs.length = count at hBlock
  induction count generalizing xs with
  | zero => cases hBlock
  | succ count ih =>
    cases xs with
    | nil => cases hBlock
    | cons a as =>
      rcases List.mem_cons.mp hBlock with rfl | hLater
      · exact List.mem_of_mem_take hMem
      · exact List.mem_of_mem_drop (ih hLater)

end Paged
