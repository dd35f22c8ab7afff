import Mathlib.Order.Basic
import Mathlib.Data.List.Basic
import Mathlib.Order.Lattice

/-
  A cyclic walk over a list in ascending order, taken in
  batches that each resume after the last one.

  Main declaration: `cyclicAfter`
-/

section Window

variable {κ ν : Type} [LinearOrder κ] {start : κ} {xs : List (κ × ν)}

/- The keys of a list are strictly ascending. -/
def Ascending (xs : List (κ × ν)) : Prop :=
  xs.Pairwise fun x y => x.1 < y.1

/- The entries that come after a key, then the others. -/
def cyclicAfter (start : κ) (xs : List (κ × ν)) : List (κ × ν) :=
  xs.filter (fun x => decide (start < x.1)) ++ xs.filter fun x => decide (x.1 ≤ start)

/- Where a walk resumes: after its last entry, if any. -/
def resumeKey (start : κ) : List (κ × ν) → κ
  | [] => start
  | x :: done => resumeKey x.1 done

omit [LinearOrder κ] in
@[simp] theorem resumeKey_concat (start : κ) (done : List (κ × ν)) (x : κ × ν) :
    resumeKey start (done ++ [x]) = x.1 := by
  induction done generalizing start with
  | nil => rfl
  | cons y done ih => exact ih y.1

omit [LinearOrder κ] in
theorem resumeKey_append (start : κ) (done batch : List (κ × ν)) :
    resumeKey start (done ++ batch) = resumeKey (resumeKey start done) batch := by
  induction done generalizing start with
  | nil => rfl
  | cons y done ih => exact ih y.1

theorem length_cyclicAfter (start : κ) (xs : List (κ × ν)) :
    (cyclicAfter start xs).length = xs.length := by
  induction xs with
  | nil => rfl
  | cons x xs ih =>
    unfold cyclicAfter at ih ⊢
    rw [List.length_append] at ih ⊢
    by_cases h : start < x.1
    · rw [List.filter_cons_of_pos (by simpa using h),
        List.filter_cons_of_neg (by simpa using h),
        List.length_cons, List.length_cons]
      omega
    · rw [List.filter_cons_of_neg (by simpa using h),
        List.filter_cons_of_pos (by simpa using h),
        List.length_cons, List.length_cons]
      omega

theorem mem_cyclicAfter_iff {x : κ × ν} :
    x ∈ cyclicAfter start xs ↔ x ∈ xs := by
  unfold cyclicAfter
  rw [List.mem_append, List.mem_filter, List.mem_filter]
  simp only [decide_eq_true_eq]
  constructor
  · rintro (⟨hMem, _⟩ | ⟨hMem, _⟩) <;> exact hMem
  · intro hMem
    rcases lt_or_ge start x.1 with hLt | hLe
    · exact Or.inl ⟨hMem, hLt⟩
    · exact Or.inr ⟨hMem, hLe⟩

/- An ascending list is what is below a key, then the rest. -/
theorem Ascending.split (hAsc : Ascending xs) (start : κ) :
    xs.filter (fun x => decide (x.1 ≤ start)) ++ xs.filter (fun x => decide (start < x.1))
      = xs := by
  induction xs with
  | nil => rfl
  | cons x xs ih =>
    have hHead := (List.pairwise_cons.mp hAsc).1
    have hTail := (List.pairwise_cons.mp hAsc).2
    by_cases h : x.1 ≤ start
    · rw [List.filter_cons_of_pos (by simpa using h),
        List.filter_cons_of_neg (by simpa using h),
        List.cons_append, ih hTail]
    · -- all of the rest is above the key as well
      have hAbove : ∀ y ∈ x :: xs, start < y.1 := by
        intro y hMem
        rcases List.mem_cons.mp hMem with rfl | hMem'
        · exact not_le.mp h
        · exact lt_trans (not_le.mp h) (hHead y hMem')
      have hNone : (x :: xs).filter (fun y => decide (y.1 ≤ start)) = [] := by
        rw [List.filter_eq_nil_iff]
        intro y hMem
        simpa using hAbove y hMem
      have hAll : (x :: xs).filter (fun y => decide (start < y.1)) = x :: xs := by
        rw [List.filter_eq_self]
        intro y hMem
        simpa using hAbove y hMem
      rw [hNone, hAll, List.nil_append]

/- What comes after an entry of an ascending list. -/
theorem Ascending.filter_after {pre post : List (κ × ν)} {x : κ × ν}
    (hAsc : Ascending (pre ++ x :: post)) :
    (pre ++ x :: post).filter (fun y => decide (x.1 < y.1)) = post := by
  rcases List.pairwise_append.mp hAsc with ⟨_, hTail, hCross⟩
  have hPost := (List.pairwise_cons.mp hTail).1
  have hPre : pre.filter (fun y => decide (x.1 < y.1)) = [] := by
    rw [List.filter_eq_nil_iff]
    intro y hMem
    have hLt := hCross y hMem x List.mem_cons_self
    simpa using le_of_lt hLt
  have hKeep : post.filter (fun y => decide (x.1 < y.1)) = post := by
    rw [List.filter_eq_self]
    intro y hMem
    simpa using hPost y hMem
  rw [List.filter_append, hPre, List.filter_cons_of_neg (by simp), hKeep, List.nil_append]

/-
  A walk that resumes after what it has done, and starts over
  at the end of the list, begins with all that is to be done.
-/
theorem resume_prefix {done todo : List (κ × ν)} (hAsc : Ascending xs)
    (hWalk : cyclicAfter start xs = done ++ todo) :
    todo <+: xs.filter (fun x => decide (resumeKey start done < x.1)) ++ xs := by
  have hSplit := hAsc.split start
  unfold cyclicAfter at hWalk
  generalize hAbove : xs.filter (fun x => decide (start < x.1)) = above
      at hWalk hSplit
  generalize xs.filter (fun x => decide (x.1 ≤ start)) = below
      at hWalk hSplit
  rcases List.eq_nil_or_concat done with rfl | ⟨pre, x, rfl⟩
  · refine ⟨above, ?_⟩
    unfold resumeKey
    rw [hAbove, ← hSplit, ← List.append_assoc, hWalk]
    rfl
  · rw [List.concat_eq_append] at hWalk ⊢
    rw [resumeKey_concat]
    rcases List.append_eq_append_iff.mp hWalk with ⟨wrapped, hDone, hBelow⟩ | ⟨rest, hRest, hTodo⟩
    · rcases List.eq_nil_or_concat wrapped with
        rfl | ⟨pre', x', rfl⟩
      · -- exactly what is above the start has been done
        have hXs : xs = (todo ++ pre) ++ x :: [] := by
          rw [← hSplit, hBelow, List.nil_append, List.append_assoc, hDone, List.append_nil]
        have hAfter := (hXs ▸ hAsc).filter_after
        rw [← hXs] at hAfter
        rw [hAfter]
        refine ⟨pre ++ [x], ?_⟩
        rw [List.nil_append, hXs, List.append_assoc]
      · -- the walk has started over
        have hLast : x' = x := by
          rw [List.concat_eq_append, ← List.append_assoc] at hDone
          have hSingle := (List.append_inj' hDone rfl).2
          exact (List.singleton_inj.mp hSingle).symm
        have hXs : xs = pre' ++ x :: (todo ++ above) := by
          rw [← hSplit, hBelow, hLast]
          simp
        have hAfter := (hXs ▸ hAsc).filter_after
        rw [← hXs] at hAfter
        rw [hAfter, List.append_assoc]
        exact List.prefix_append _ _
    · -- the walk is still above the start
      have hXs : xs = (below ++ pre) ++ x :: rest := by
        rw [← hSplit, hRest]
        simp
      have hAfter := (hXs ▸ hAsc).filter_after
      rw [← hXs] at hAfter
      rw [hAfter, hTodo, ← hSplit, ← List.append_assoc]
      exact List.prefix_append _ _

/- A batch that is not longer than what is to be done. -/
theorem take_resume {done todo : List (κ × ν)} {n : Nat} (hAsc : Ascending xs)
    (hWalk : cyclicAfter start xs = done ++ todo) (hLe : n ≤ todo.length) :
    (xs.filter (fun x => decide (resumeKey start done < x.1)) ++ xs).take n = todo.take n := by
  rcases resume_prefix hAsc hWalk with ⟨rest, hEq⟩
  rw [← hEq, List.take_append_of_le_length hLe]

end Window
