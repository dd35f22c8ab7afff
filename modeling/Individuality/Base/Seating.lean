import Mathlib.Data.List.Sort
import Mathlib.Data.List.Nodup
import Individuality.Base.Iteration

/-
  Drawing the members of sorted rows one by one: lists sorted by a key, a map that holds rows at the
  keys of their members, and the two maps of the numbers under which the members have been drawn.

  Main declaration: `sortBy`
-/

namespace Individuality

open StorageMap (get_insert)

variable {α : Type} {a : α} {r : Nat}

--
-- Sorting by a Key
--

def sortBy (key : α → Nat) (l : List α) : List α :=
  l.mergeSort fun a b => decide (key a ≤ key b)

theorem sortBy_perm (key : α → Nat) (l : List α) :
    (sortBy key l).Perm l :=
  List.mergeSort_perm l _

@[simp] theorem mem_sortBy {key : α → Nat} {l : List α} {a : α} :
    a ∈ sortBy key l ↔ a ∈ l :=
  (sortBy_perm key l).mem_iff

@[simp] theorem length_sortBy (key : α → Nat) (l : List α) :
    (sortBy key l).length = l.length :=
  (sortBy_perm key l).length_eq

/- Members with keys of their own are sorted strictly. -/
theorem pairwise_sortBy {key : α → Nat} {l : List α} (hNodup : l.Nodup)
    (hInj : ∀ a ∈ l, ∀ b ∈ l, key a = key b → a = b) :
    (sortBy key l).Pairwise fun a b => key a < key b := by
  have hSorted : (sortBy key l).Pairwise fun a b => key a ≤ key b := by
    have hMerge : (sortBy key l).Pairwise fun a b =>
          decide (key a ≤ key b) = true :=
      List.pairwise_mergeSort (fun a b c hFirst hSecond => by
          rw [decide_eq_true_eq] at hFirst hSecond ⊢
          omega)
        (fun a b => by
          rw [Bool.or_eq_true, decide_eq_true_eq, decide_eq_true_eq]
          omega)
        l
    exact hMerge.imp fun hLe => of_decide_eq_true hLe
  have hNe : (sortBy key l).Nodup := (sortBy_perm key l).nodup_iff.mpr hNodup
  refine (hSorted.and hNe).imp_of_mem ?_
  intro a b hA hB hBoth
  have hKeys : key a ≠ key b := fun hEq =>
    hBoth.2 (hInj a (mem_sortBy.mp hA) b (mem_sortBy.mp hB) hEq)
  have hLe := hBoth.1
  omega

--
-- Rows in a Map
--

/-
  A map has, under each number below `rounds`, the members of a row at their keys, and nothing else.
-/
def Holds [DecidableEq α] (m : StorageMap (Nat × Nat) α) (key : α → Nat → Nat) (rounds : Nat)
    (rows : Nat → List α) : Prop :=
  ∀ r k a, m.get (r, k) = some a ↔ r < rounds ∧ a ∈ rows r ∧ key a r = k

namespace Holds

variable [DecidableEq α]
  {m : StorageMap (Nat × Nat) α}
  {key key' : α → Nat → Nat}
  {rounds : Nat}
  {rows rows' : Nat → List α}

theorem congr (hHolds : Holds m key rounds rows)
    (hRows : ∀ r, r < rounds → ∀ a, a ∈ rows' r ↔ a ∈ rows r)
    (hKey : ∀ r, r < rounds → ∀ a ∈ rows r, key' a r = key a r) :
    Holds m key' rounds rows' := by
  intro r k a
  rw [hHolds]
  constructor
  · rintro ⟨hRound, hMem, hPos⟩
    refine ⟨hRound, (hRows r hRound a).mpr hMem, ?_⟩
    rw [hKey r hRound a hMem]
    exact hPos
  · rintro ⟨hRound, hMem, hPos⟩
    have hOld := (hRows r hRound a).mp hMem
    refine ⟨hRound, hOld, ?_⟩
    rw [← hKey r hRound a hOld]
    exact hPos

/- Nothing is held without members. -/
theorem get_eq_none (hHolds : Holds m key rounds rows) (hRows : ∀ r, r < rounds → rows r = [])
    (k : Nat × Nat) :
    m.get k = none := by
  rw [Option.eq_none_iff_forall_ne_some]
  intro a hGet
  rcases (hHolds k.1 k.2 a).mp hGet with ⟨hRound, hMem, _⟩
  rw [hRows k.1 hRound] at hMem
  cases hMem

theorem of_empty (hNone : ∀ k, m.get k = none) (hRows : ∀ r, rows r = []) :
    Holds m key rounds rows := by
  intro r k a
  rw [hNone, hRows]
  simp

/- A member is inserted in all rows. -/
theorem insertAll (hHolds : Holds m key rounds rows)
    (hApart : ∀ r, ∀ b ∈ rows r, key b r = key a r → b = a) :
    Holds (((List.range rounds).map fun r => (r, key a r)).foldl
        (fun m k => m.insert k a) m)
      key rounds fun r => rows r ++ [a] := by
  intro r k b
  rw [StorageMap.get_foldl_insert (fun _ => a)]
  have hKeys : (r, k) ∈ (List.range rounds).map (fun r => (r, key a r))
        ↔ r < rounds ∧ key a r = k := by
    simp
  rw [List.mem_append, List.mem_singleton]
  by_cases hKey : (r, k) ∈ (List.range rounds).map (fun r => (r, key a r))
  · rw [if_pos hKey, Option.some.injEq]
    rcases hKeys.mp hKey with ⟨hRound, hPos⟩
    constructor
    · rintro rfl
      exact ⟨hRound, .inr rfl, hPos⟩
    · rintro ⟨_, hMem | rfl, hPos'⟩
      · exact (hApart r b hMem (hPos'.trans hPos.symm)).symm
      · rfl
  · rw [if_neg hKey, hHolds]
    constructor
    · rintro ⟨hRound, hMem, hPos⟩
      exact ⟨hRound, .inl hMem, hPos⟩
    · rintro ⟨hRound, hMem | rfl, hPos⟩
      · exact ⟨hRound, hMem, hPos⟩
      · exact absurd (hKeys.mpr ⟨hRound, hPos⟩) hKey

/- The first member of a sorted row is removed. -/
theorem removeHead {rest : List α} (hHolds : Holds m key rounds rows) (hRow : rows r = a :: rest)
    (hSorted : (rows r).Pairwise fun a b => key a r < key b r) :
    Holds (m.remove (r, key a r)) key rounds (Function.update rows r rest) := by
  rw [hRow, List.pairwise_cons] at hSorted
  intro s k b
  rw [StorageMap.get_remove]
  by_cases hRound : s = r
  · subst hRound
    rw [Function.update_self]
    by_cases hPos : k = key a s
    · subst hPos
      rw [if_pos rfl]
      constructor
      · intro hNone
        cases hNone
      · rintro ⟨_, hMem, hEq⟩
        have hLt := hSorted.1 b hMem
        omega
    · rw [if_neg (fun hEq => hPos (Prod.mk.inj hEq).2), hHolds, hRow, List.mem_cons]
      constructor
      · rintro ⟨hBound, rfl | hMem, hEq⟩
        · exact absurd hEq.symm hPos
        · exact ⟨hBound, hMem, hEq⟩
      · rintro ⟨hBound, hMem, hEq⟩
        exact ⟨hBound, .inr hMem, hEq⟩
  · rw [if_neg (fun hEq => hRound (Prod.mk.inj hEq).1),
      Function.update_of_ne hRound, hHolds]

end Holds

--
-- Members That Have Been Drawn
--

/-
  The first members of each row have been drawn, and both maps tell under which numbers.  A number
  that is above the cap is the cap.
-/
structure Seated [DecidableEq α] (rounds cap : Nat) (row : Nat → List α) (drawn : Nat → Nat)
    (indexToPlayer : StorageMap (Nat × Nat) α)
    (playerToIndex : StorageMap α (List Nat)) : Prop where
  of_index : ∀ r j a, indexToPlayer.get (r, j) = some a →
      r < rounds ∧ ∃ i, i < drawn r ∧ (row r)[i]? = some a ∧ j = min i cap
  to_index : ∀ r i a, r < rounds → i < drawn r → i ≤ cap →
      (i < cap ∨ drawn r ≤ cap + 1) → (row r)[i]? = some a →
        indexToPlayer.get (r, i) = some a
  length_eq :
    ∀ a indices, playerToIndex.get a = some indices → indices.length = rounds
  of_player : ∀ a, playerToIndex.get a ≠ none →
      ∃ r, r < rounds ∧ ∃ i, i < drawn r ∧ (row r)[i]? = some a
  to_player : ∀ r i a, r < rounds → i < drawn r → (row r)[i]? = some a →
      ∃ indices,
        playerToIndex.get a = some indices ∧ indices[r]? = some (min i cap)

namespace Seated

variable [DecidableEq α]
  {rounds cap : Nat}
  {row : Nat → List α}
  {drawn drawn' : Nat → Nat}
  {indexToPlayer : StorageMap (Nat × Nat) α}
  {playerToIndex : StorageMap α (List Nat)}

theorem of_empty (hIndex : ∀ k, indexToPlayer.get k = none)
    (hPlayer : ∀ a, playerToIndex.get a = none) :
    Seated rounds cap row (fun _ => 0) indexToPlayer playerToIndex where
  of_index := by
    intro r j a hGet
    rw [hIndex] at hGet
    cases hGet
  to_index := by
    intro r i a _ hLt
    exact absurd hLt (Nat.not_lt_zero i)
  length_eq := by
    intro a indices hGet
    rw [hPlayer] at hGet
    cases hGet
  of_player := fun a hGet => absurd (hPlayer a) hGet
  to_player := by
    intro r i a _ hLt
    exact absurd hLt (Nat.not_lt_zero i)

theorem congr (hSeated : Seated rounds cap row drawn indexToPlayer playerToIndex)
    (hDrawn : ∀ r, r < rounds → drawn' r = drawn r) :
    Seated rounds cap row drawn' indexToPlayer playerToIndex where
  of_index := by
    intro r j a hGet
    rcases hSeated.of_index r j a hGet with ⟨hRound, hIndex⟩
    rw [← hDrawn r hRound] at hIndex
    exact ⟨hRound, hIndex⟩
  to_index := by
    intro r i a hRound hLt
    rw [hDrawn r hRound] at hLt ⊢
    exact hSeated.to_index r i a hRound hLt
  length_eq := hSeated.length_eq
  of_player := by
    intro a hGet
    rcases hSeated.of_player a hGet with ⟨r, hRound, hIndex⟩
    rw [← hDrawn r hRound] at hIndex
    exact ⟨r, hRound, hIndex⟩
  to_player := by
    intro r i a hRound hLt
    rw [hDrawn r hRound] at hLt
    exact hSeated.to_player r i a hRound hLt

/- An index is that of the player that has it. -/
theorem player_of_index (hSeated : Seated rounds cap row drawn indexToPlayer playerToIndex)
    {j : Nat} (hGet : indexToPlayer.get (r, j) = some a) :
    ∃ indices, playerToIndex.get a = some indices ∧ indices[r]? = some j := by
  rcases hSeated.of_index r j a hGet with ⟨hRound, i, hLt, hRow, rfl⟩
  exact hSeated.to_player r i a hRound hLt hRow

/- The next member of a row is drawn. -/
theorem draw (hSeated : Seated rounds cap row drawn indexToPlayer playerToIndex)
    (hRound : r < rounds) (hRow : (row r)[drawn r]? = some a) (hNodup : (row r).Nodup) :
    Seated rounds cap row (Function.update drawn r (drawn r + 1))
      (indexToPlayer.insert (r, min (drawn r) cap) a)
      (playerToIndex.insert a (((playerToIndex.get a).getD
          (List.replicate rounds 0)).set r (min (drawn r) cap))) := by
  have hLength : ((playerToIndex.get a).getD (List.replicate rounds 0)).length = rounds := by
    cases hGet : playerToIndex.get a with
    | none => exact List.length_replicate
    | some indices => exact hSeated.length_eq a indices hGet
  refine ⟨?_, ?_, ?_, ?_, ?_⟩
  · intro s j b hGet
    rw [get_insert] at hGet
    by_cases hKey : (s, j) = (r, min (drawn r) cap)
    · rw [if_pos hKey] at hGet
      obtain rfl := Option.some.inj hGet
      rcases Prod.mk.inj hKey with ⟨rfl, rfl⟩
      rw [Function.update_self]
      exact ⟨hRound, drawn s, Nat.lt_succ_self _, hRow, rfl⟩
    · rw [if_neg hKey] at hGet
      rcases hSeated.of_index s j b hGet with ⟨hBound, i, hLt, hOld, hIndex⟩
      refine ⟨hBound, i, ?_, hOld, hIndex⟩
      by_cases hSame : s = r
      · subst hSame
        rw [Function.update_self]
        omega
      · rw [Function.update_of_ne hSame]
        exact hLt
  · intro s i b hBound hLt hCap hAll hMem
    rw [get_insert]
    by_cases hSame : s = r
    · subst hSame
      rw [Function.update_self] at hLt hAll
      by_cases hNew : i = drawn s
      · subst hNew
        rw [Nat.min_eq_left hCap, if_pos rfl, ← hRow]
        exact hMem
      · have hOther : ¬(s, i) = (s, min (drawn s) cap) := by
          intro hEq
          have hIndex := (Prod.mk.inj hEq).2
          omega
        rw [if_neg hOther]
        exact hSeated.to_index s i b hBound (by omega) hCap (by omega) hMem
    · rw [Function.update_of_ne hSame] at hLt hAll
      rw [if_neg (fun hEq => hSame (Prod.mk.inj hEq).1)]
      exact hSeated.to_index s i b hBound hLt hCap hAll hMem
  · intro b indices hGet
    rw [get_insert] at hGet
    by_cases hSame : b = a
    · rw [if_pos hSame] at hGet
      obtain rfl := Option.some.inj hGet
      rw [List.length_set]
      exact hLength
    · rw [if_neg hSame] at hGet
      exact hSeated.length_eq b indices hGet
  · intro b hGet
    rw [get_insert] at hGet
    by_cases hSame : b = a
    · subst hSame
      refine ⟨r, hRound, drawn r, ?_, hRow⟩
      rw [Function.update_self]
      exact Nat.lt_succ_self _
    · rw [if_neg hSame] at hGet
      rcases hSeated.of_player b hGet with ⟨s, hBound, i, hLt, hMem⟩
      refine ⟨s, hBound, i, ?_, hMem⟩
      by_cases hRow' : s = r
      · subst hRow'
        rw [Function.update_self]
        omega
      · rw [Function.update_of_ne hRow']
        exact hLt
  · intro s i b hBound hLt hMem
    rw [get_insert]
    by_cases hSame : s = r
    · subst hSame
      rw [Function.update_self] at hLt
      by_cases hNew : i = drawn s
      · subst hNew
        obtain rfl := Option.some.inj (hMem.symm.trans hRow)
        refine ⟨_, if_pos rfl, ?_⟩
        rw [List.getElem?_set_self (by rw [hLength]; exact hBound)]
      · have hNe : ¬b = a := by
          -- a member is in its row once
          rintro rfl
          apply hNew
          have hI := (List.getElem?_eq_some_iff.mp hMem).1
          exact (List.getElem?_inj hI hNodup).mp (hMem.trans hRow.symm)
        rw [if_neg hNe]
        exact hSeated.to_player s i b hBound (by omega) hMem
    · rw [Function.update_of_ne hSame] at hLt
      rcases hSeated.to_player s i b hBound hLt hMem with ⟨indices, hGet, hIndex⟩
      by_cases hPlayer : b = a
      · subst hPlayer
        refine ⟨_, if_pos rfl, ?_⟩
        rw [hGet, Option.getD_some, List.getElem?_set_ne (Ne.symm hSame)]
        exact hIndex
      · rw [if_neg hPlayer]
        exact ⟨indices, hGet, hIndex⟩

section Complete

/- All rows have been drawn, and no number is capped. -/
variable
  (hSeated : Seated rounds cap row (fun r => (row r).length)
      indexToPlayer playerToIndex)
  (hCap : ∀ r, (row r).length ≤ cap)

include hSeated hCap

/- The numbers are the positions in the rows. -/
theorem get_indexToPlayer_iff {i : Nat} (hRound : r < rounds) :
    indexToPlayer.get (r, i) = some a ↔ (row r)[i]? = some a := by
  have hBound := hCap r
  constructor
  · intro hGet
    rcases hSeated.of_index r i a hGet with ⟨_, j, hLt, hRow, rfl⟩
    rw [Nat.min_eq_left (by omega)]
    exact hRow
  · intro hRow
    have hLt := (List.getElem?_eq_some_iff.mp hRow).1
    exact hSeated.to_index r i a hRound hLt (by omega) (by omega) hRow

/- Both maps tell the same. -/
theorem playerToIndex_iff (hMem : ∀ r s a, a ∈ row r → a ∈ row s) {i : Nat} (hRound : r < rounds) :
    (∃ indices, playerToIndex.get a = some indices ∧ indices[r]? = some i)
      ↔ indexToPlayer.get (r, i) = some a := by
  constructor
  · rintro ⟨indices, hGet, hIndex⟩
    rcases hSeated.of_player a (by rw [hGet]; exact Option.some_ne_none _) with ⟨s, _, j, _, hRow⟩
    have hIn : a ∈ row r := hMem s r a (List.mem_of_getElem? hRow)
    rcases List.getElem?_of_mem hIn with ⟨k, hK⟩
    have hLt := (List.getElem?_eq_some_iff.mp hK).1
    rcases hSeated.to_player r k a hRound hLt hK with ⟨indices', hGet', hIndex'⟩
    obtain rfl := Option.some.inj (hGet.symm.trans hGet')
    have hEq := Option.some.inj (hIndex.symm.trans hIndex')
    have hBound := hCap r
    rw [Nat.min_eq_left (by omega)] at hEq
    rw [hEq]
    exact hSeated.to_index r k a hRound hLt (by omega) (by omega) hK
  · exact fun hGet => hSeated.player_of_index hGet

end Complete

end Seated

end Individuality
