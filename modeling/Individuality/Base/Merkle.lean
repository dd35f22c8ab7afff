import Mathlib.Data.List.Basic
import Mathlib.Data.Nat.Bitwise
import Mathlib.Data.Nat.Log
import Mathlib.Logic.Function.Iterate

/-
  Binary hash trees whose layers are joined in pairs, where an
  odd node at the end of a layer moves up unchanged.

  Main declaration: `Merkle.layer`
-/

namespace Merkle

variable {α : Type} (node : α → α → α)

--
-- Trees
--

/- The layer above: pairs are joined, an odd last moves up. -/
def layer : List α → List α
  | [] => []
  | [x] => [x]
  | x :: y :: rest => node x y :: layer rest

/- The layer some steps above. -/
def above (n : Nat) (xs : List α) : List α :=
  (layer node)^[n] xs

/- The last node left, or `d` over no leaves. -/
def root (d : α) (xs : List α) : α :=
  (above node xs.length xs).headD d

/- The siblings on the way up, bottom layer first. -/
def siblings : Nat → List α → Nat → List α
  | 0, _, _ => []
  | n + 1, xs, i =>
    (if xs.length > 1 then (xs[i ^^^ 1]?).toList else []) ++ siblings n (layer node xs) (i / 2)

/-
  Hash a node up along its siblings, in a layer of some width. A node at the end of its layer stays
  at the end, so that its siblings come from the left.
-/
def rehash : List α → Nat → Nat → α → α
  | [], _, _, x => x
  | s :: rest, width, i, x =>
    rehash rest ((width - 1) / 2 + 1) (i / 2) (if i % 2 = 1 ∨ i + 1 = width then node s x
        else node x s)

variable {node} {xs : List α}

@[simp] theorem above_zero : above node 0 xs = xs := rfl

theorem above_succ (n : Nat) :
    above node (n + 1) xs = above node n (layer node xs) :=
  Function.iterate_succ_apply _ _ _

--
-- Layers
--

theorem length_layer (xs : List α) :
    (layer node xs).length = (xs.length + 1) / 2 := by
  induction xs using layer.induct with
  | case1 => simp [layer]
  | case2 x => simp [layer]
  | case3 x y rest ih =>
    rw [layer, List.length_cons, ih, List.length_cons, List.length_cons]
    omega

theorem layer_of_length_le_one (hLength : xs.length ≤ 1) :
    layer node xs = xs := by
  match xs, hLength with
  | [], _ => rfl
  | [x], _ => rfl

theorem above_of_length_le_one (hLength : xs.length ≤ 1) (n : Nat) :
    above node n xs = xs := by
  induction n with
  | zero => rfl
  | succ n ih =>
    rw [above_succ, layer_of_length_le_one hLength, ih]

/- A pair of nodes is joined one layer above. -/
theorem getElem?_layer_pair (xs : List α) {j : Nat} {x y : α} (hLeft : xs[2 * j]? = some x)
    (hRight : xs[2 * j + 1]? = some y) :
    (layer node xs)[j]? = some (node x y) := by
  induction xs using layer.induct generalizing j with
  | case1 => cases hLeft
  | case2 z =>
    simp at hRight
  | case3 u v rest ih =>
    cases j with
    | zero =>
      cases hLeft
      cases hRight
      rfl
    | succ j => exact ih hLeft hRight

/- The odd node at the end moves up. -/
theorem getElem?_layer_last (xs : List α) {j : Nat} {x : α} (hLeft : xs[2 * j]? = some x)
    (hLast : 2 * j + 1 = xs.length) :
    (layer node xs)[j]? = some x := by
  induction xs using layer.induct generalizing j with
  | case1 => cases hLeft
  | case2 z =>
    have hZero : j = 0 := by
      simp only [List.length_cons, List.length_nil] at hLast
      omega
    subst hZero
    exact hLeft
  | case3 u v rest ih =>
    simp only [List.length_cons] at hLast
    cases j with
    | zero => omega
    | succ j => exact ih hLeft (by omega)

/- Enough layers leave one node. -/
theorem length_above_le_one {n : Nat} (hEnough : xs.length ≤ n) :
    (above node n xs).length ≤ 1 := by
  induction n generalizing xs with
  | zero => exact Nat.le_trans hEnough (Nat.zero_le 1)
  | succ n ih =>
    by_cases hOne : xs.length ≤ 1
    · rw [above_of_length_le_one hOne]
      exact hOne
    · rw [above_succ]
      apply ih
      rw [length_layer]
      omega

theorem above_ne_nil (n : Nat) (hSome : xs ≠ []) :
    above node n xs ≠ [] := by
  induction n generalizing xs with
  | zero => exact hSome
  | succ n ih =>
    rw [above_succ]
    apply ih
    have hPos := List.length_pos_iff.mpr hSome
    rw [← List.length_pos_iff, length_layer]
    omega

/- The root is the one node that is left. -/
theorem above_eq_root (d : α) (hSome : xs ≠ []) :
    above node xs.length xs = [root node d xs] := by
  have hOne : (above node xs.length xs).length ≤ 1 := length_above_le_one (Nat.le_refl xs.length)
  have hLeft : above node xs.length xs ≠ [] := above_ne_nil xs.length hSome
  unfold root
  cases hAbove : above node xs.length xs with
  | nil => exact absurd hAbove hLeft
  | cons x rest =>
    rw [hAbove, List.length_cons] at hOne
    have hRest : rest = [] := List.eq_nil_of_length_eq_zero (by omega)
    rw [hRest]
    rfl

/- What holds of the leaves and of pairs holds of the root. -/
theorem forall_layer {p : α → Prop} (hNode : ∀ x y, p (node x y)) (xs : List α)
    (hLeaves : ∀ x ∈ xs, p x) :
    ∀ x ∈ layer node xs, p x := by
  induction xs using layer.induct with
  | case1 => exact hLeaves
  | case2 x => exact hLeaves
  | case3 x y rest ih =>
    intro z hMem
    rw [layer, List.mem_cons] at hMem
    rcases hMem with rfl | hRest
    · exact hNode x y
    · apply ih _ z hRest
      intro u hU
      exact hLeaves u (List.mem_cons_of_mem _ (List.mem_cons_of_mem _ hU))

theorem root_of_forall {p : α → Prop} (d : α) (hNode : ∀ x y, p (node x y)) (hSome : xs ≠ [])
    (hLeaves : ∀ x ∈ xs, p x) :
    p (root node d xs) := by
  have hAbove : ∀ (n : Nat) (ys : List α), (∀ x ∈ ys, p x) → ∀ x ∈ above node n ys, p x := by
    intro n
    induction n with
    | zero => exact fun ys hYs => hYs
    | succ n ih =>
      intro ys hYs
      rw [above_succ]
      exact ih _ (forall_layer hNode ys hYs)
  apply hAbove xs.length xs hLeaves
  rw [above_eq_root d hSome]
  exact List.mem_singleton_self _

--
-- Proofs
--

/- A node at the end of its layer is joined from the left. -/
theorem rehash_last (proof : List α) {width i : Nat} (x : α) (hLast : i + 1 = width) :
    rehash node proof width i x = proof.foldl (fun x s => node s x) x := by
  induction proof generalizing width i x with
  | nil => rfl
  | cons s rest ih =>
    rw [rehash, if_pos (Or.inr hLast), List.foldl_cons]
    apply ih
    subst hLast
    rw [Nat.add_sub_cancel]

theorem siblings_of_length_le_one (hLength : xs.length ≤ 1) (n i : Nat) :
    siblings node n xs i = [] := by
  induction n generalizing i with
  | zero => rfl
  | succ n ih =>
    rw [siblings, if_neg (Nat.not_lt_of_le hLength),
      layer_of_length_le_one hLength, List.nil_append, ih]

/- The other node of a pair. -/
theorem xor_one_eq (i : Nat) :
    i ^^^ 1 = if i % 2 = 1 then i - 1 else i + 1 := by
  split
  · rename_i hOdd
    exact Nat.xor_one_of_odd (Nat.odd_iff.mpr hOdd)
  · exact Nat.xor_one_of_even (Nat.even_iff.mpr (by omega))

/- A node with its siblings hashes to what is left after the layers, by induction on these. -/
theorem rehash_siblings {n i : Nat} {x : α} (hGet : xs[i]? = some x)
    (hOne : (above node n xs).length ≤ 1) :
    above node n xs = [rehash node (siblings node n xs i) xs.length i x] := by
  induction n generalizing xs i x with
  | zero =>
    rw [above_zero] at hOne ⊢
    match xs, hOne with
    | [y], _ =>
      rw [List.getElem?_singleton] at hGet
      split at hGet
      · cases hGet
        rfl
      · cases hGet
  | succ n ih =>
    have hIndex : i < xs.length := (List.getElem?_eq_some_iff.mp hGet).1
    by_cases hSingle : xs.length ≤ 1
    · have hZero : i = 0 := by omega
      rw [siblings_of_length_le_one hSingle, above_of_length_le_one hSingle]
      match xs, hSingle with
      | [y], _ =>
        subst hZero
        cases hGet
        rfl
    · rw [above_succ] at hOne ⊢
      have hWidth : (layer node xs).length = (xs.length - 1) / 2 + 1 := by
        rw [length_layer]
        omega
      rw [siblings, if_pos (Nat.lt_of_not_le hSingle)]
      cases hSibling : xs[i ^^^ 1]? with
      | some s =>
        -- The sibling is joined, and the pair moves up.
        have hUp : (layer node xs)[i / 2]? = some (if i % 2 = 1 ∨ i + 1 = xs.length then
                    node s x
                  else node x s) := by
          rw [xor_one_eq] at hSibling
          by_cases hOdd : i % 2 = 1
          · rw [if_pos hOdd] at hSibling
            rw [if_pos (Or.inl hOdd)]
            apply getElem?_layer_pair
            · rw [← hSibling]
              congr 1
              omega
            · rw [← hGet]
              congr 1
              omega
          · rw [if_neg hOdd] at hSibling
            have hNext := (List.getElem?_eq_some_iff.mp hSibling).1
            rw [if_neg (by omega)]
            apply getElem?_layer_pair
            · rw [← hGet]
              congr 1
              omega
            · rw [← hSibling]
              congr 1
              omega
        rw [ih hUp hOne, Option.toList_some, List.singleton_append, rehash, hWidth]
      | none =>
        -- The odd node at the end moves up alone.
        rw [List.getElem?_eq_none_iff, xor_one_eq] at hSibling
        have hEven : ¬ i % 2 = 1 := by
          intro hOdd
          rw [if_pos hOdd] at hSibling
          omega
        rw [if_neg hEven] at hSibling
        have hUp : (layer node xs)[i / 2]? = some x := by
          apply getElem?_layer_last
          · rw [← hGet]
            congr 1
            omega
          · omega
        rw [ih hUp hOne, Option.toList_none, List.nil_append, hWidth, rehash_last _ x (by omega),
          rehash_last _ x (by omega)]

/- A proof has no more nodes than the tree has layers. -/
theorem length_siblings_le (n i : Nat) :
    (siblings node n xs i).length ≤ Nat.clog 2 xs.length := by
  induction n generalizing xs i with
  | zero => exact Nat.zero_le _
  | succ n ih =>
    by_cases hSingle : xs.length ≤ 1
    · rw [siblings_of_length_le_one hSingle]
      exact Nat.zero_le _
    · have hUp : (siblings node n (layer node xs) (i / 2)).length
            ≤ Nat.clog 2 (layer node xs).length :=
        ih (i / 2)
      rw [length_layer] at hUp
      rw [Nat.clog_of_two_le Nat.one_lt_two (by omega),
        siblings, List.length_append]
      have hSibling : (if xs.length > 1 then (xs[i ^^^ 1]?).toList else []).length ≤ 1 := by
        split
        · cases xs[i ^^^ 1]? <;> simp
        · exact Nat.zero_le 1
      have hHalf : (xs.length + 2 - 1) / 2 = (xs.length + 1) / 2 := rfl
      rw [hHalf]
      omega

end Merkle
