import Individuality.Base.Storage
import Mathlib.Algebra.Order.BigOperators.Group.List
import Mathlib.Algebra.Order.Group.Nat

/-
  Sums over the entries of a map whose keys meet a condition,
  such as those of one row or of one column of a double map.

  Main declaration: `StorageMap.sumWhere`
-/

namespace StorageMap

variable {κ ν : Type} [DecidableEq κ] (m : StorageMap κ ν) (p : κ → Prop) [DecidablePred p]
variable (f : ν → Nat)

omit [DecidableEq κ] in
/- The weights of the values at keys with a property. -/
def sumWhere : Nat :=
  m.sum fun k v => if p k then f v else 0

/- The weight of a value that may be absent. -/
def weigh (f : ν → Nat) : Option ν → Nat
  | none => 0
  | some v => f v

omit [DecidableEq κ] in
@[simp] theorem weigh_none : weigh f none = 0 := rfl

omit [DecidableEq κ] in
@[simp] theorem weigh_some (v : ν) : weigh f (some v) = f v := rfl

omit [DecidableEq κ] in
@[simp] theorem sumWhere_empty : (empty : StorageMap κ ν).sumWhere p f = 0 := rfl

omit [DecidableEq κ] in
private theorem weightAt_where (k : κ) (o : Option ν) :
    weightAt (fun k v => if p k then f v else 0) k o = if p k then weigh f o else 0 := by
  cases o with
  | none => exact (ite_self 0).symm
  | some v => rfl

variable {p} {k : κ}

/- Writing a key of the part exchanges its weight. -/
theorem sumWhere_insert (hKey : p k) (v : ν) :
    (m.insert k v).sumWhere p f + weigh f (m.get k) = m.sumWhere p f + f v := by
  have hSum := sum_insert m (fun k v => if p k then f v else 0) k v
  rw [weightAt_where, if_pos hKey, if_pos hKey] at hSum
  exact hSum

/- Removing a key of the part takes its weight. -/
theorem sumWhere_remove (hKey : p k) :
    (m.remove k).sumWhere p f + weigh f (m.get k) = m.sumWhere p f := by
  have hSum := sum_remove m (fun k v => if p k then f v else 0) k
  rw [weightAt_where, if_pos hKey] at hSum
  exact hSum

/- Other keys do not matter. -/
theorem sumWhere_insert_of_not (hKey : ¬p k) (v : ν) :
    (m.insert k v).sumWhere p f = m.sumWhere p f := by
  have hSum := sum_insert m (fun k v => if p k then f v else 0) k v
  rw [weightAt_where, if_neg hKey, if_neg hKey] at hSum
  exact hSum

theorem sumWhere_remove_of_not (hKey : ¬p k) :
    (m.remove k).sumWhere p f = m.sumWhere p f := by
  have hSum := sum_remove m (fun k v => if p k then f v else 0) k
  rw [weightAt_where, if_neg hKey] at hSum
  exact hSum

/- A part without entries. -/
theorem sumWhere_of_none (hNone : ∀ k, p k → m.get k = none) :
    m.sumWhere p f = 0 := by
  have hZero : m.sumWhere p f = m.sum fun _ _ => 0 := by
    apply sum_congr
    intro k v hGet
    rw [if_neg]
    intro hKey
    rw [hNone k hKey] at hGet
    cases hGet
  rw [hZero]
  unfold sum
  simp

/- One entry of the part weighs at most the whole. -/
theorem le_sumWhere {m : StorageMap κ ν} {v : ν} (hKey : p k) (hGet : m.get k = some v) :
    f v ≤ m.sumWhere p f := by
  have hLe := le_sum_of_get hGet fun k v => if p k then f v else 0
  rw [if_pos hKey] at hLe
  exact hLe

omit [DecidableEq κ] in
/- A smaller part with smaller weights. -/
theorem sumWhere_le {q : κ → Prop} [DecidablePred q] {m : StorageMap κ ν} {f g : ν → Nat}
    (hPart : ∀ k, p k → q k) (hWeight : ∀ v, f v ≤ g v) :
    m.sumWhere p f ≤ m.sumWhere q g := by
  unfold sumWhere sum
  apply List.sum_le_sum
  intro e _
  dsimp only
  by_cases hKey : p e.1
  · rw [if_pos hKey, if_pos (hPart e.1 hKey)]
    exact hWeight e.2
  · rw [if_neg hKey]
    exact Nat.zero_le _

end StorageMap
