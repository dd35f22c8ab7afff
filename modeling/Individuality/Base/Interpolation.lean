import Mathlib.Algebra.Order.Floor.Div
import Mathlib.Algebra.Order.Ring.Nat
import Mathlib.Tactic.SplitIfs
import Individuality.Base.Fallible

/-
  Piecewise linear interpolation between points with natural coordinates.  Rising values are rounded
  up and falling ones down from their start, up to a largest value.

  Main declaration: `Interpolation.line`
-/

namespace Interpolation

--
-- Lines
--

/- The value at `x` on the line through two points. -/
def line (cap x : Nat) (lo hi : Nat × Nat) : Nat :=
  if lo.2 ≤ hi.2 then
    min (lo.2 + ((hi.2 - lo.2) * (x - lo.1)) ⌈/⌉ (hi.1 - lo.1)) cap
  else lo.2 - (lo.2 - hi.2) * (x - lo.1) / (hi.1 - lo.1)

section Lines

variable {cap x x' : Nat} {lo hi : Nat × Nat}

theorem line_mono (hSpan : lo.1 < hi.1) (hRise : lo.2 ≤ hi.2) (hLe : x ≤ x') :
    line cap x lo hi ≤ line cap x' lo hi := by
  have hPos : 0 < hi.1 - lo.1 := by omega
  unfold line
  rw [if_pos hRise, if_pos hRise]
  have hOffset : (hi.2 - lo.2) * (x - lo.1) ≤ (hi.2 - lo.2) * (x' - lo.1) :=
    Nat.mul_le_mul_left _ (by omega)
  have hCeil : ((hi.2 - lo.2) * (x - lo.1)) ⌈/⌉ (hi.1 - lo.1)
        ≤ ((hi.2 - lo.2) * (x' - lo.1)) ⌈/⌉ (hi.1 - lo.1) := by
    rw [Nat.ceilDiv_eq_add_pred_div, Nat.ceilDiv_eq_add_pred_div]
    exact Nat.div_le_div_right (by omega)
  omega

/- The line ends at its second point. -/
theorem line_hi (hSpan : lo.1 < hi.1) (hCap : hi.2 ≤ cap) :
    line cap hi.1 lo hi = hi.2 := by
  have hPos : 0 < hi.1 - lo.1 := by omega
  unfold line
  split_ifs with hRise
  · rw [Nat.ceilDiv_eq_add_pred_div]
    have hExact : ((hi.2 - lo.2) * (hi.1 - lo.1) + (hi.1 - lo.1) - 1) / (hi.1 - lo.1)
          = hi.2 - lo.2 := by
      rw [Nat.add_sub_assoc hPos, Nat.mul_comm, Nat.mul_add_div hPos, Nat.div_eq_of_lt (by omega),
        Nat.add_zero]
    omega
  · rw [Nat.mul_div_cancel _ hPos]
    omega

/- Between its points the line is between their values. -/
theorem line_between (hSpan : lo.1 < hi.1) (hHigh : x ≤ hi.1) (hCap : hi.2 ≤ cap) :
    min lo.2 hi.2 ≤ line cap x lo hi ∧ line cap x lo hi ≤ max lo.2 hi.2 := by
  have hPos : 0 < hi.1 - lo.1 := by omega
  by_cases hRise : lo.2 ≤ hi.2
  · have hEnd : line cap x lo hi ≤ line cap hi.1 lo hi := line_mono hSpan hRise hHigh
    rw [line_hi hSpan hCap] at hEnd
    have hStart : lo.2 ≤ line cap x lo hi := by
      unfold line
      rw [if_pos hRise]
      omega
    omega
  · have hFall : (lo.2 - hi.2) * (x - lo.1) / (hi.1 - lo.1) ≤ lo.2 - hi.2 := by
      apply Nat.div_le_of_le_mul
      rw [Nat.mul_comm (hi.1 - lo.1)]
      exact Nat.mul_le_mul_left _ (by omega)
    unfold line
    rw [if_neg hRise]
    generalize (lo.2 - hi.2) * (x - lo.1) / (hi.1 - lo.1) = fall at *
    omega

end Lines

--
-- Walks
--

/-
  Walk along the points to the first one that is not before `x`.  Past the last one its line is
  extended, and does not fall.
-/
def walk (cap x : Nat) (lo hi : Nat × Nat) :
    List (Nat × Nat) → Nat
  | [] =>
    if x ≤ hi.1 then
      if x = hi.1 then hi.2 else line cap x lo hi
    else max (line cap x lo hi) hi.2
  | next :: rest =>
    if x ≤ hi.1 then
      if x = hi.1 then hi.2 else line cap x lo hi
    else walk cap x hi next rest

abbrev Ascending (points : List (Nat × Nat)) : Prop :=
  points.Pairwise fun p q => p.1 < q.1

section Walks

variable {cap x : Nat} {lo hi : Nat × Nat} {rest : List (Nat × Nat)}

theorem walk_of_le (hSpan : lo.1 < hi.1) (hCap : hi.2 ≤ cap) (hLe : x ≤ hi.1) :
    walk cap x lo hi rest = line cap x lo hi := by
  cases rest with
  | nil =>
    unfold walk
    rw [if_pos hLe]
    split_ifs with hEq
    · rw [hEq, line_hi hSpan hCap]
    · rfl
  | cons next rest =>
    unfold walk
    rw [if_pos hLe]
    split_ifs with hEq
    · rw [hEq, line_hi hSpan hCap]
    · rfl

/- At a point the walk has its value. -/
theorem walk_at {point : Nat × Nat} (hSorted : Ascending (lo :: hi :: rest))
    (hMem : point ∈ hi :: rest) :
    walk cap point.1 lo hi rest = point.2 := by
  induction rest generalizing lo hi with
  | nil =>
    rw [List.mem_singleton] at hMem
    subst hMem
    unfold walk
    rw [if_pos (Nat.le_refl _), if_pos rfl]
  | cons next rest ih =>
    rw [List.mem_cons] at hMem
    rcases hMem with rfl | hLater
    · unfold walk
      rw [if_pos (Nat.le_refl _), if_pos rfl]
    · have hTail := (List.pairwise_cons.mp hSorted).2
      have hAfter := (List.pairwise_cons.mp hTail).1 point hLater
      unfold walk
      rw [if_neg (by omega)]
      exact ih hTail hLater

/- Between two neighbours the walk is between their values. -/
theorem walk_between {p q : Nat × Nat} (hSorted : Ascending (lo :: hi :: rest))
    (hCap : ∀ point ∈ hi :: rest, point.2 ≤ cap) (hLow : p ∈ lo :: hi :: rest)
    (hHigh : q ∈ lo :: hi :: rest) (hAfter : p.1 < x) (hBefore : x < q.1)
    (hNext : ∀ point ∈ lo :: hi :: rest, point.1 ≤ p.1 ∨ q.1 ≤ point.1) :
    min p.2 q.2 ≤ walk cap x lo hi rest ∧ walk cap x lo hi rest ≤ max p.2 q.2 := by
  induction rest generalizing lo hi with
  | nil =>
    have hSpan : lo.1 < hi.1 := (List.pairwise_cons.mp hSorted).1 hi List.mem_cons_self
    have hHi := hNext hi (by simp)
    have hLo := hNext lo (by simp)
    simp only [List.mem_cons, List.not_mem_nil, or_false] at hLow hHigh
    rcases hLow with rfl | rfl
    · rcases hHigh with rfl | rfl
      · omega
      · rw [walk_of_le hSpan (hCap q List.mem_cons_self) hBefore.le]
        exact line_between hSpan hBefore.le (hCap q List.mem_cons_self)
    · rcases hHigh with rfl | rfl <;> omega
  | cons next rest ih =>
    have hHead := List.pairwise_cons.mp hSorted
    have hTail := List.pairwise_cons.mp hHead.2
    have hSpan : lo.1 < hi.1 := hHead.1 hi List.mem_cons_self
    have hHiCap := hCap hi List.mem_cons_self
    by_cases hLe : x ≤ hi.1
    · -- the two neighbours are the first two points
      have hFirst : p = lo := by
        rw [List.mem_cons, List.mem_cons] at hLow
        rcases hLow with rfl | rfl | hLow
        · rfl
        · omega
        · have hPast := hTail.1 p hLow
          omega
      have hSecond : q = hi := by
        rw [List.mem_cons, List.mem_cons] at hHigh
        have hHi := hNext hi (by simp)
        rcases hHigh with rfl | rfl | hHigh
        · rw [hFirst] at hAfter
          omega
        · rfl
        · have hPast := hTail.1 q hHigh
          rw [hFirst] at hHi
          omega
      rw [walk_of_le hSpan hHiCap hLe, hFirst, hSecond]
      exact line_between hSpan hLe hHiCap
    · have hLo := hNext lo (by simp)
      have hHi := hNext hi (by simp)
      have hLow' : p ∈ hi :: next :: rest := by
        rw [List.mem_cons] at hLow
        rcases hLow with rfl | hLow
        · omega
        · exact hLow
      have hHigh' : q ∈ hi :: next :: rest := by
        rw [List.mem_cons] at hHigh
        rcases hHigh with rfl | hHigh
        · omega
        · exact hHigh
      unfold walk
      rw [if_neg hLe]
      exact ih hHead.2 (fun point hMem => hCap point (List.mem_cons_of_mem _ hMem)) hLow' hHigh'
          (fun point hMem => hNext point (List.mem_cons_of_mem _ hMem))

/- Past the last point the walk is not below it. -/
theorem le_walk_beyond {last : Nat × Nat} (hSorted : Ascending (lo :: hi :: rest))
    (hMem : last ∈ hi :: rest) (hLast : ∀ point ∈ hi :: rest, point.1 ≤ last.1)
    (hBeyond : last.1 < x) :
    last.2 ≤ walk cap x lo hi rest := by
  induction rest generalizing lo hi with
  | nil =>
    rw [List.mem_singleton] at hMem
    subst hMem
    unfold walk
    rw [if_neg (by omega)]
    exact Nat.le_max_right _ _
  | cons next rest ih =>
    have hTail := (List.pairwise_cons.mp hSorted).2
    have hHi := hLast hi List.mem_cons_self
    have hNextLe := hLast next (by simp)
    have hNext := (List.pairwise_cons.mp hTail).1 next List.mem_cons_self
    have hMem' : last ∈ next :: rest := by
      rw [List.mem_cons] at hMem
      rcases hMem with rfl | hMem
      · omega
      · exact hMem
    unfold walk
    rw [if_neg (by omega)]
    exact ih hTail hMem' fun point hPoint => hLast point (List.mem_cons_of_mem _ hPoint)

--
-- Monotonicity
--

/- Over rising values the walk is not below its start. -/
theorem le_walk (hSorted : Ascending (lo :: hi :: rest))
    (hRises : (lo :: hi :: rest).Pairwise fun p q => p.2 ≤ q.2)
    (hCap : ∀ point ∈ hi :: rest, point.2 ≤ cap) :
    lo.2 ≤ walk cap x lo hi rest := by
  induction rest generalizing lo hi with
  | nil =>
    have hRise := (List.pairwise_cons.mp hRises).1 hi List.mem_cons_self
    have hSpan := (List.pairwise_cons.mp hSorted).1 hi List.mem_cons_self
    have hHiCap := hCap hi List.mem_cons_self
    by_cases hLe : x ≤ hi.1
    · rw [walk_of_le hSpan hHiCap hLe]
      have hBetween := line_between hSpan hLe hHiCap
      omega
    · unfold walk
      rw [if_neg hLe]
      omega
  | cons next rest ih =>
    have hHead := List.pairwise_cons.mp hSorted
    have hRise := List.pairwise_cons.mp hRises
    have hSpan := hHead.1 hi List.mem_cons_self
    have hFirst := hRise.1 hi List.mem_cons_self
    have hHiCap := hCap hi List.mem_cons_self
    by_cases hLe : x ≤ hi.1
    · rw [walk_of_le hSpan hHiCap hLe]
      have hBetween := line_between hSpan hLe hHiCap
      omega
    · unfold walk
      rw [if_neg hLe]
      have hLater := ih hHead.2 hRise.2 fun point hMem =>
          hCap point (List.mem_cons_of_mem _ hMem)
      omega

/- Over rising values the walk rises. -/
theorem walk_mono {a b : Nat} (hSorted : Ascending (lo :: hi :: rest))
    (hRises : (lo :: hi :: rest).Pairwise fun p q => p.2 ≤ q.2)
    (hCap : ∀ point ∈ hi :: rest, point.2 ≤ cap) (hLe : a ≤ b) :
    walk cap a lo hi rest ≤ walk cap b lo hi rest := by
  induction rest generalizing lo hi with
  | nil =>
    have hRise := (List.pairwise_cons.mp hRises).1 hi List.mem_cons_self
    have hSpan := (List.pairwise_cons.mp hSorted).1 hi List.mem_cons_self
    have hHiCap := hCap hi List.mem_cons_self
    have hLine : line cap a lo hi ≤ line cap b lo hi := line_mono hSpan hRise hLe
    by_cases hB : b ≤ hi.1
    · rw [walk_of_le hSpan hHiCap hB, walk_of_le hSpan hHiCap (hLe.trans hB)]
      exact hLine
    · by_cases hA : a ≤ hi.1
      · rw [walk_of_le hSpan hHiCap hA]
        unfold walk
        rw [if_neg hB]
        exact hLine.trans (Nat.le_max_left _ _)
      · unfold walk
        rw [if_neg hB, if_neg hA]
        omega
  | cons next rest ih =>
    have hHead := List.pairwise_cons.mp hSorted
    have hRise := List.pairwise_cons.mp hRises
    have hSpan := hHead.1 hi List.mem_cons_self
    have hFirst := hRise.1 hi List.mem_cons_self
    have hHiCap := hCap hi List.mem_cons_self
    have hRestCap : ∀ point ∈ next :: rest, point.2 ≤ cap :=
      fun point hMem => hCap point (List.mem_cons_of_mem _ hMem)
    by_cases hB : b ≤ hi.1
    · rw [walk_of_le hSpan hHiCap hB, walk_of_le hSpan hHiCap (hLe.trans hB)]
      exact line_mono hSpan hFirst hLe
    · have hStart : hi.2 ≤ walk cap b hi next rest := le_walk hHead.2 hRise.2 hRestCap
      by_cases hA : a ≤ hi.1
      · rw [walk_of_le hSpan hHiCap hA]
        have hBetween := line_between hSpan hA hHiCap
        conv => rhs; unfold walk
        rw [if_neg hB]
        omega
      · unfold walk
        rw [if_neg hB, if_neg hA]
        exact ih hHead.2 hRise.2 hRestCap

--
-- Interpolation
--

/- Before the first point its value is kept. -/
def interpolate (cap x : Nat) (lo hi : Nat × Nat) (rest : List (Nat × Nat)) : Nat :=
  if x ≤ lo.1 then lo.2 else walk cap x lo hi rest

theorem interpolate_at {point : Nat × Nat} (hSorted : Ascending (lo :: hi :: rest))
    (hMem : point ∈ lo :: hi :: rest) :
    interpolate cap point.1 lo hi rest = point.2 := by
  unfold interpolate
  rw [List.mem_cons] at hMem
  rcases hMem with rfl | hLater
  · exact if_pos (Nat.le_refl _)
  · have hAfter := (List.pairwise_cons.mp hSorted).1 point hLater
    rw [if_neg (by omega)]
    exact walk_at hSorted hLater

theorem interpolate_between {p q : Nat × Nat} (hSorted : Ascending (lo :: hi :: rest))
    (hCap : ∀ point ∈ lo :: hi :: rest, point.2 ≤ cap) (hLow : p ∈ lo :: hi :: rest)
    (hHigh : q ∈ lo :: hi :: rest) (hAfter : p.1 < x) (hBefore : x < q.1)
    (hNext : ∀ point ∈ lo :: hi :: rest, point.1 ≤ p.1 ∨ q.1 ≤ point.1) :
    min p.2 q.2 ≤ interpolate cap x lo hi rest ∧ interpolate cap x lo hi rest ≤ max p.2 q.2 := by
  have hLo := hNext lo List.mem_cons_self
  have hFirst : lo.1 ≤ p.1 := by
    rw [List.mem_cons] at hLow
    rcases hLow with rfl | hLater
    · exact Nat.le_refl _
    · exact ((List.pairwise_cons.mp hSorted).1 p hLater).le
  unfold interpolate
  rw [if_neg (by omega)]
  exact walk_between hSorted (fun point hMem => hCap point (List.mem_cons_of_mem _ hMem))
      hLow hHigh hAfter hBefore hNext

theorem le_interpolate_beyond {last : Nat × Nat} (hSorted : Ascending (lo :: hi :: rest))
    (hMem : last ∈ lo :: hi :: rest) (hLast : ∀ point ∈ lo :: hi :: rest, point.1 ≤ last.1)
    (hBeyond : last.1 < x) :
    last.2 ≤ interpolate cap x lo hi rest := by
  have hHi := hLast hi (by simp)
  have hSpan := (List.pairwise_cons.mp hSorted).1 hi List.mem_cons_self
  have hLater : last ∈ hi :: rest := by
    rw [List.mem_cons] at hMem
    rcases hMem with rfl | hMem
    · omega
    · exact hMem
  unfold interpolate
  rw [if_neg (by omega)]
  exact le_walk_beyond hSorted hLater
      (fun point hPoint => hLast point (List.mem_cons_of_mem _ hPoint))
      hBeyond

theorem interpolate_mono {a b : Nat} (hSorted : Ascending (lo :: hi :: rest))
    (hRises : (lo :: hi :: rest).Pairwise fun p q => p.2 ≤ q.2)
    (hCap : ∀ point ∈ lo :: hi :: rest, point.2 ≤ cap) (hLe : a ≤ b) :
    interpolate cap a lo hi rest ≤ interpolate cap b lo hi rest := by
  have hRestCap : ∀ point ∈ hi :: rest, point.2 ≤ cap :=
    fun point hMem => hCap point (List.mem_cons_of_mem _ hMem)
  unfold interpolate
  by_cases hB : b ≤ lo.1
  · rw [if_pos hB, if_pos (hLe.trans hB)]
  · rw [if_neg hB]
    by_cases hA : a ≤ lo.1
    · rw [if_pos hA]
      exact le_walk hSorted hRises hRestCap
    · rw [if_neg hA]
      exact walk_mono hSorted hRises hRestCap hLe

end Walks

--
-- Equal Coordinates
--

section Combining

variable {κ ν : Type} [DecidableEq κ]

/- Neighbours at the same coordinate become one point. -/
def combine (sup : ν → ν → ν) (last : κ × ν) :
    List (κ × ν) → List (κ × ν)
  | [] => [last]
  | point :: points =>
    if point.1 = last.1 then
      combine sup (last.1, sup last.2 point.2) points
    else last :: combine sup point points

variable {sup : ν → ν → ν} {last : κ × ν} {points : List (κ × ν)}

/- The points start at the first coordinate. -/
theorem exists_combine_cons :
    ∃ value rest, combine sup last points = (last.1, value) :: rest := by
  induction points generalizing last with
  | nil => exact ⟨last.2, [], rfl⟩
  | cons point points ih =>
    unfold combine
    split_ifs with hSame
    · exact ih
    · exact ⟨last.2, _, rfl⟩

/-
  What the combined points stand for, in the order of a key and read by a measure that turns
  combining into the larger value.
-/
structure Combined (key : κ → Nat) (measure : ν → Nat) (points combined : List (κ × ν)) : Prop where
  ascending : combined.Pairwise fun p q => key p.1 < key q.1
  attained : ∀ q ∈ combined, ∃ p ∈ points, p.1 = q.1 ∧ measure p.2 = measure q.2
  covers : ∀ p ∈ points, ∃ q ∈ combined, q.1 = p.1 ∧ measure p.2 ≤ measure q.2

/- Sorted points are combined into ascending ones. -/
theorem combine_spec {key : κ → Nat} {measure : ν → Nat} (hKey : Function.Injective key)
    (hSup : ∀ a b, measure (sup a b) = max (measure a) (measure b))
    (hSorted : (last :: points).Pairwise fun p q => key p.1 ≤ key q.1) :
    Combined key measure (last :: points) (combine sup last points) := by
  induction points generalizing last with
  | nil =>
    exact
      { ascending := List.pairwise_singleton _ _
        attained := fun q hMem => ⟨q, hMem, rfl, rfl⟩
        covers := fun p hMem => ⟨p, hMem, rfl, Nat.le_refl _⟩ }
  | cons point points ih =>
    have hHead := List.pairwise_cons.mp hSorted
    have hTail := List.pairwise_cons.mp hHead.2
    unfold combine
    split_ifs with hSame
    · have hMerged : ((last.1, sup last.2 point.2) :: points).Pairwise
            fun p q => key p.1 ≤ key q.1 := by
        rw [List.pairwise_cons]
        exact ⟨fun q hMem => hHead.1 q (List.mem_cons_of_mem _ hMem), hTail.2⟩
      have hRest := ih hMerged
      refine ⟨hRest.ascending, ?_, ?_⟩
      · intro q hMem
        rcases hRest.attained q hMem with ⟨p, hPoint, hEq, hValue⟩
        rw [List.mem_cons] at hPoint
        rcases hPoint with rfl | hPoint
        · -- the larger one of the two is attained
          rw [hSup] at hValue
          rcases Nat.le_total (measure last.2) (measure point.2) with hLe | hLe
          · rw [Nat.max_eq_right hLe] at hValue
            exact ⟨point, by simp, hSame.trans hEq, hValue⟩
          · rw [Nat.max_eq_left hLe] at hValue
            exact ⟨last, by simp, hEq, hValue⟩
        · exact ⟨p, by simp [hPoint], hEq, hValue⟩
      · intro p hMem
        rcases hRest.covers (last.1, sup last.2 point.2)
            List.mem_cons_self with ⟨q, hQ, hEq, hValue⟩
        rw [hSup] at hValue
        dsimp only at hEq
        rw [List.mem_cons, List.mem_cons] at hMem
        rcases hMem with rfl | rfl | hMem
        · exact ⟨q, hQ, hEq, by omega⟩
        · exact ⟨q, hQ, hEq.trans hSame.symm, by omega⟩
        · exact hRest.covers p (List.mem_cons_of_mem _ hMem)
    · have hRest := ih hHead.2
      have hBelow : key last.1 < key point.1 := lt_of_le_of_ne (hHead.1 point List.mem_cons_self)
          fun hEq => hSame (hKey hEq).symm
      refine ⟨?_, ?_, ?_⟩
      · rw [List.pairwise_cons]
        refine ⟨?_, hRest.ascending⟩
        intro q hMem
        rcases hRest.attained q hMem with ⟨p, hPoint, hEq, _⟩
        rw [← hEq]
        rw [List.mem_cons] at hPoint
        rcases hPoint with rfl | hPoint
        · exact hBelow
        · exact lt_of_lt_of_le hBelow (hTail.1 p hPoint)
      · intro q hMem
        rw [List.mem_cons] at hMem
        rcases hMem with rfl | hMem
        · exact ⟨q, by simp, rfl, rfl⟩
        · rcases hRest.attained q hMem with ⟨p, hPoint, hEq, hValue⟩
          exact ⟨p, List.mem_cons_of_mem _ hPoint, hEq, hValue⟩
      · intro p hMem
        rw [List.mem_cons] at hMem
        rcases hMem with rfl | hMem
        · exact ⟨p, by simp, rfl, Nat.le_refl _⟩
        · rcases hRest.covers p hMem with ⟨q, hQ, hEq, hValue⟩
          exact ⟨q, List.mem_cons_of_mem _ hQ, hEq, hValue⟩

end Combining

end Interpolation
