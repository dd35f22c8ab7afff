import Mathlib.Data.List.Basic

/-
  Bounded machine arithmetic, bounded vectors and fallible computations.

  Main declaration: `saturatingAdd`
-/

--
-- Machine Arithmetic
--

def u8Max : Nat := 255

def u32Max : Nat := 4294967295

def u64Max : Nat := 18446744073709551615

def u128Max : Nat := 340282366920938463463374607431768211455

/- Addition that stops at the largest value `max`. -/
def saturatingAdd (max a b : Nat) : Nat :=
  min (a + b) max

/- Multiplication that stops at the largest value `max`. -/
def saturatingMul (max a b : Nat) : Nat :=
  min (a * b) max

/- Addition that fails above the largest value `max`. -/
def checkedAdd (max a b : Nat) : Option Nat :=
  if a + b ≤ max then some (a + b) else none

theorem saturatingAdd_of_le {max a b : Nat} (hLe : a + b ≤ max) :
    saturatingAdd max a b = a + b :=
  Nat.min_eq_left hLe

theorem saturatingAdd_le (max a b : Nat) : saturatingAdd max a b ≤ max :=
  Nat.min_le_right _ _

theorem saturatingAdd_le_add (max a b : Nat) : saturatingAdd max a b ≤ a + b :=
  Nat.min_le_left _ _

theorem le_saturatingAdd {max a : Nat} (hLe : a ≤ max) (b : Nat) :
    a ≤ saturatingAdd max a b :=
  Nat.le_min.mpr ⟨Nat.le_add_right a b, hLe⟩

theorem saturatingAdd_pos {max a b : Nat} (hMax : 0 < max) (hPos : 0 < b) :
    0 < saturatingAdd max a b :=
  Nat.lt_min.mpr ⟨Nat.add_pos_right a hPos, hMax⟩

theorem saturatingMul_of_le {max a b : Nat} (hLe : a * b ≤ max) :
    saturatingMul max a b = a * b :=
  Nat.min_eq_left hLe

theorem saturatingMul_le_mul (max a b : Nat) : saturatingMul max a b ≤ a * b :=
  Nat.min_le_left _ _

theorem checkedAdd_eq_some_iff {max a b c : Nat} :
    checkedAdd max a b = some c ↔ a + b ≤ max ∧ c = a + b := by
  unfold checkedAdd
  by_cases h : a + b ≤ max
  · simp [h, eq_comm]
  · simp [h]

--
-- Bounded Vectors
--

/- A list with at most `n` elements. -/
structure BoundedVec (α : Type) (n : Nat) where
  toList : List α
  length_le : toList.length ≤ n

namespace BoundedVec

variable {α : Type} {n : Nat}

def empty : BoundedVec α n :=
  ⟨[], Nat.zero_le n⟩

def length (v : BoundedVec α n) : Nat :=
  v.toList.length

def isEmpty (v : BoundedVec α n) : Bool :=
  v.toList.isEmpty

def ofList? (xs : List α) : Option (BoundedVec α n) :=
  if h : xs.length ≤ n then some ⟨xs, h⟩ else none

def tryPush (v : BoundedVec α n) (a : α) :
    Option (BoundedVec α n) :=
  ofList? (v.toList ++ [a])

def tryExtend (v : BoundedVec α n) (xs : List α) :
    Option (BoundedVec α n) :=
  ofList? (v.toList ++ xs)

def eraseIdx (v : BoundedVec α n) (i : Nat) : BoundedVec α n :=
  ⟨v.toList.eraseIdx i, Nat.le_trans (List.length_eraseIdx_le v.toList i) v.length_le⟩

/- Overwrite the element at an index, if there is one. -/
def set (v : BoundedVec α n) (i : Nat) (a : α) :
    BoundedVec α n :=
  ⟨v.toList.set i a, Nat.le_trans (Nat.le_of_eq List.length_set) v.length_le⟩

/- Keep the elements that satisfy `p`. -/
def retain (p : α → Bool) (v : BoundedVec α n) :
    BoundedVec α n :=
  ⟨v.toList.filter p, Nat.le_trans (List.length_filter_le p v.toList) v.length_le⟩

@[simp] theorem toList_empty : (empty : BoundedVec α n).toList = [] := rfl

@[simp] theorem toList_eraseIdx (v : BoundedVec α n) (i : Nat) :
    (v.eraseIdx i).toList = v.toList.eraseIdx i := rfl

@[simp] theorem toList_set (v : BoundedVec α n) (i : Nat) (a : α) :
    (v.set i a).toList = v.toList.set i a := rfl

theorem length_def (v : BoundedVec α n) : v.length = v.toList.length := rfl

theorem isEmpty_iff (v : BoundedVec α n) : v.isEmpty = true ↔ v.toList = [] :=
  List.isEmpty_iff

variable {v : BoundedVec α n}

theorem isEmpty_eq_false_iff :
    v.isEmpty = false ↔ v.toList ≠ [] :=
  List.isEmpty_eq_false_iff

variable {xs : List α}

theorem ofList?_eq_some_iff :
    ofList? xs = some v ↔ v.toList = xs := by
  rcases v with ⟨ys, hLength⟩
  unfold ofList?
  by_cases h : xs.length ≤ n
  · simp [h, eq_comm]
  · simp only [h, dite_false, reduceCtorEq, false_iff]
    rintro rfl
    exact h hLength

theorem ofList?_isSome_iff :
    (∃ v : BoundedVec α n, ofList? xs = some v) ↔ xs.length ≤ n := by
  constructor
  · rintro ⟨v, hV⟩
    rw [ofList?_eq_some_iff] at hV
    exact hV ▸ v.length_le
  · intro h
    exact ⟨⟨xs, h⟩, ofList?_eq_some_iff.mpr rfl⟩

variable {w : BoundedVec α n}

theorem tryPush_eq_some_iff {a : α} :
    v.tryPush a = some w ↔ w.toList = v.toList ++ [a] :=
  ofList?_eq_some_iff

theorem tryExtend_eq_some_iff :
    v.tryExtend xs = some w ↔ w.toList = v.toList ++ xs :=
  ofList?_eq_some_iff

end BoundedVec

--
-- Fallible Computations
--

/- Fail with `e` unless `p` holds. -/
def ensure {ε : Type} (p : Prop) [Decidable p] (e : ε) : Except ε Unit :=
  if p then .ok () else .error e

/- The value of an option, or the error `e`. -/
def okOr {ε α : Type} : Option α → ε → Except ε α
  | some a, _ => .ok a
  | none, e => .error e

section Fallible

variable {ε α β : Type} {p : Prop} {e : ε}

@[simp] theorem ensure_eq_ok_iff [Decidable p] {u : Unit} :
    ensure p e = .ok u ↔ p := by
  by_cases h : p <;> simp [ensure, h]

@[simp] theorem okOr_eq_ok_iff {o : Option α} {a : α} :
    okOr o e = .ok a ↔ o = some a := by
  cases o <;> simp [okOr]

theorem ensure_eq_error_iff [Decidable p] {e' : ε} :
    ensure p e = .error e' ↔ ¬p ∧ e = e' := by
  by_cases h : p <;> simp [ensure, h]

theorem okOr_eq_error_iff {o : Option α} {e' : ε} :
    okOr o e = .error e' ↔ o = none ∧ e = e' := by
  cases o <;> simp [okOr]

variable {x : Except ε α}

/- The errors of a part are errors of the whole. -/
theorem mapError_eq_ok_iff {ε' : Type} {f : ε → ε'} {a : α} :
    x.mapError f = .ok a ↔ x = .ok a := by
  cases x <;> simp [Except.mapError]

theorem Except.bind_eq_ok {f : α → Except ε β} {b : β} :
    (x >>= f) = .ok b ↔ ∃ a, x = .ok a ∧ f a = .ok b := by
  cases x with
  | error e => simp [bind, Except.bind]
  | ok a => simp [bind, Except.bind]

theorem Except.bind_eq_error {f : α → Except ε β} :
    (x >>= f) = .error e ↔ x = .error e ∨ ∃ a, x = .ok a ∧ f a = .error e := by
  cases x with
  | error e => simp [bind, Except.bind]
  | ok a => simp [bind, Except.bind]

theorem Except.map_eq_ok {f : α → β} {b : β} :
    f <$> x = .ok b ↔ ∃ a, x = .ok a ∧ f a = b := by
  cases x with
  | error e => simp [Functor.map, Except.map]
  | ok a => simp [Functor.map, Except.map]

theorem Except.ok_bind (a : α) (f : α → Except ε β) :
    ((Except.ok a : Except ε α) >>= f) = f a := rfl

theorem ensure_of [Decidable p] (hP : p) (e : ε) :
    ensure p e = .ok () :=
  if_pos hP

theorem okOr_some (a : α) (e : ε) : okOr (some a) e = .ok a := rfl

theorem Except.bind_congr_of_ok {f g : α → Except ε β} (hCongr : ∀ a, x = .ok a → f a = g a) :
    (x >>= f) = (x >>= g) := by
  cases x with
  | error e => rfl
  | ok a => exact hCongr a rfl

/- A result that passes a test is there. -/
theorem Except.exists_ok_of_any {test : α → Bool} (hAny : x.toOption.any test = true) :
    ∃ a, x = .ok a ∧ test a = true := by
  cases x with
  | error e => simp [Except.toOption] at hAny
  | ok a => exact ⟨a, rfl, hAny⟩

theorem Except.pure_eq_ok {a b : α} :
    (pure a : Except ε α) = .ok b ↔ a = b := by
  simp [pure, Except.pure]

/- A property that every step of a fallible loop preserves holds after the loop. -/
theorem List.foldlM_invariant {σ : Type} {f : σ → α → Except ε σ} (I : σ → Prop)
    {xs : List α} {s s' : σ} (hFold : xs.foldlM f s = .ok s')
    (hStep : ∀ s a s', a ∈ xs → f s a = .ok s' → I s → I s') (hStart : I s) :
    I s' := by
  induction xs generalizing s with
  | nil =>
    simp only [List.foldlM_nil, Except.pure_eq_ok] at hFold
    exact hFold ▸ hStart
  | cons a xs ih =>
    rw [List.foldlM_cons, Except.bind_eq_ok] at hFold
    rcases hFold with ⟨s₁, hFirst, hRest⟩
    apply ih hRest
    · intro s a s' hMem
      exact hStep s a s' (List.mem_cons_of_mem _ hMem)
    · exact hStep s a s₁ (List.mem_cons_self ..) hFirst hStart

/- A fold commutes with a map that each step commutes with. -/
theorem List.foldlM_map_state {σ : Type} {f : σ → α → Except ε σ} {g : σ → σ}
    (hStep : ∀ s a, f (g s) a = g <$> f s a) (xs : List α) (s : σ) :
    xs.foldlM f (g s) = g <$> xs.foldlM f s := by
  induction xs generalizing s with
  | nil => rfl
  | cons a xs ih =>
    simp only [List.foldlM_cons, hStep]
    cases f s a with
    | error e => rfl
    | ok s' => exact ih s'

end Fallible
