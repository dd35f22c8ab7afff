import Mathlib.Data.List.Nodup
import Mathlib.Data.Nat.Basic
import Mathlib.Data.Nat.ModEq
import Mathlib.Tactic.SplitIfs

/-
  Ranges of indices on a cycle of `m` slots, as used by a
  paged queue whose page indices wrap around.

  Main declaration: `cyclicNext`
-/

/- The slot after `i`, wrapping to the first slot. -/
def cyclicNext (m i : Nat) : Nat :=
  if i + 1 < m then i + 1 else 0

/- The number of steps from `start` forward to `i`. -/
def cyclicOffset (m start i : Nat) : Nat :=
  if start ≤ i then i - start else i + m - start

/- Slot `i` lies on the way from `first` to `last`. -/
def InCyclicRange (m first last i : Nat) : Prop :=
  i < m ∧ cyclicOffset m first i ≤ cyclicOffset m first last

section Cyclic

variable {m first last i : Nat}

theorem cyclicNext_lt (hPos : 0 < m) : cyclicNext m i < m := by
  unfold cyclicNext
  split <;> omega

theorem inCyclicRange_first (hFirst : first < m) :
    InCyclicRange m first last first := by
  unfold InCyclicRange cyclicOffset
  refine ⟨hFirst, ?_⟩
  split <;> split <;> omega

theorem inCyclicRange_last (hLast : last < m) : InCyclicRange m first last last :=
  ⟨hLast, le_rfl⟩

theorem inCyclicRange_self_iff (hFirst : first < m) :
    InCyclicRange m first first i ↔ i = first := by
  unfold InCyclicRange cyclicOffset
  split <;> simp <;> omega

/- The slot after the last one is a new slot. -/
theorem not_inCyclicRange_next (hFirst : first < m) (hLast : last < m)
    (hRoom : cyclicNext m last ≠ first) :
    ¬ InCyclicRange m first last (cyclicNext m last) := by
  unfold InCyclicRange cyclicOffset
  unfold cyclicNext at hRoom ⊢
  split_ifs at hRoom ⊢ <;> omega

/- Extending a range by one slot at its end. -/
theorem inCyclicRange_next_right_iff (hFirst : first < m) (hLast : last < m)
    (hRoom : cyclicNext m last ≠ first) :
    InCyclicRange m first (cyclicNext m last) i ↔
      InCyclicRange m first last i ∨ i = cyclicNext m last := by
  unfold InCyclicRange cyclicOffset
  unfold cyclicNext at hRoom ⊢
  split_ifs at hRoom ⊢ <;> omega

/- Dropping the first slot of a range with two slots. -/
theorem inCyclicRange_next_left_iff (hFirst : first < m) (hLast : last < m) (hNe : first ≠ last) :
    InCyclicRange m (cyclicNext m first) last i ↔ InCyclicRange m first last i ∧ i ≠ first := by
  unfold InCyclicRange cyclicOffset cyclicNext
  split_ifs <;> omega

/- The second slot of a range with two slots is in it. -/
theorem inCyclicRange_next_first (hFirst : first < m) (hLast : last < m) (hNe : first ≠ last) :
    InCyclicRange m first last (cyclicNext m first) := by
  unfold InCyclicRange cyclicOffset cyclicNext
  split_ifs <;> omega

theorem cyclicNext_ne_self (hTwo : 1 < m) : cyclicNext m i ≠ i := by
  unfold cyclicNext
  split <;> omega

end Cyclic

--
-- Pages of a Queue on the Cycle
--

section Span

variable {α : Type} {m first last : Nat} {page page' : Nat → List α}

/- Every page with an element lies from `first` to `last`. -/
structure CyclicSpan (m first last : Nat) (page : Nat → List α) : Prop where
  first_lt : first < m
  last_lt : last < m
  inRange : ∀ q, page q ≠ [] → InCyclicRange m first last q

namespace CyclicSpan

theorem empty (hPos : 0 < m) : CyclicSpan m 0 0 (fun _ => ([] : List α)) :=
  ⟨hPos, hPos, fun _ hNe => absurd rfl hNe⟩

/- Elements may be taken away, or moved to pages in range. -/
theorem of_pages (hSpan : CyclicSpan m first last page)
    (hPages : ∀ q, page' q ≠ [] → page q ≠ [] ∨ InCyclicRange m first last q) :
    CyclicSpan m first last page' := by
  refine ⟨hSpan.first_lt, hSpan.last_lt, ?_⟩
  intro q hNe
  rcases hPages q hNe with hOld | hRange
  · exact hSpan.inRange q hOld
  · exact hRange

/- An empty first page can be dropped, unless it is the last. -/
theorem next (hSpan : CyclicSpan m first last page) (hEmpty : page first = [])
    (hNe : first ≠ last) :
    CyclicSpan m (cyclicNext m first) last page := by
  have hPos : 0 < m := Nat.lt_of_le_of_lt (Nat.zero_le first) hSpan.first_lt
  refine ⟨cyclicNext_lt hPos, hSpan.last_lt, ?_⟩
  intro q hPage
  rw [inCyclicRange_next_left_iff hSpan.first_lt hSpan.last_lt hNe]
  refine ⟨hSpan.inRange q hPage, ?_⟩
  rintro rfl
  exact hPage hEmpty

/- The page after the last one is empty, if there is room. -/
theorem next_eq_nil (hSpan : CyclicSpan m first last page) (hRoom : cyclicNext m last ≠ first) :
    page (cyclicNext m last) = [] := by
  by_contra hNe
  exact not_inCyclicRange_next hSpan.first_lt hSpan.last_lt hRoom (hSpan.inRange _ hNe)

/- The page after the last one can be opened. -/
theorem push (hSpan : CyclicSpan m first last page) (hRoom : cyclicNext m last ≠ first)
    (hPages : ∀ q, page' q ≠ [] → page q ≠ [] ∨ q = cyclicNext m last) :
    CyclicSpan m first (cyclicNext m last) page' := by
  have hPos : 0 < m := Nat.lt_of_le_of_lt (Nat.zero_le first) hSpan.first_lt
  refine ⟨hSpan.first_lt, cyclicNext_lt hPos, ?_⟩
  intro q hNe
  rw [inCyclicRange_next_right_iff hSpan.first_lt hSpan.last_lt hRoom]
  rcases hPages q hNe with hOld | hNew
  · exact Or.inl (hSpan.inRange q hOld)
  · exact Or.inr hNew

end CyclicSpan

end Span

--
-- The Elements in Order
--

/- The slots from `first` to `last`, in order. -/
def cyclicList (m first last : Nat) : List Nat :=
  (List.range (cyclicOffset m first last + 1)).map fun i => (first + i) % m

section Order

variable {m first last : Nat}

theorem cyclicOffset_lt (hFirst : first < m) (hLast : last < m) :
    cyclicOffset m first last < m := by
  unfold cyclicOffset
  split <;> omega

/- As many steps from the first slot lead to the last one. -/
theorem add_cyclicOffset_mod (hFirst : first < m) (hLast : last < m) :
    (first + cyclicOffset m first last) % m = last := by
  unfold cyclicOffset
  split
  · rw [Nat.mod_eq_of_lt (by omega)]
    omega
  · rw [Nat.mod_eq_sub_mod (by omega), Nat.mod_eq_of_lt (by omega)]
    omega

theorem mem_cyclicList_iff (hFirst : first < m) (hLast : last < m) (i : Nat) :
    i ∈ cyclicList m first last ↔ InCyclicRange m first last i := by
  have hOffset := cyclicOffset_lt hFirst hLast
  unfold cyclicList InCyclicRange
  simp only [List.mem_map, List.mem_range]
  constructor
  · rintro ⟨j, hLt, hSlot⟩
    have hIndex : i < m := by
      rw [← hSlot]
      exact Nat.mod_lt _ (Nat.zero_lt_of_lt hFirst)
    refine ⟨hIndex, ?_⟩
    have hDistance : cyclicOffset m first i = j := by
      by_cases hFits : first + j < m
      · rw [Nat.mod_eq_of_lt hFits] at hSlot
        unfold cyclicOffset
        split <;> omega
      · rw [Nat.mod_eq_sub_mod (Nat.not_lt.mp hFits), Nat.mod_eq_of_lt (by omega)] at hSlot
        unfold cyclicOffset
        split <;> omega
    omega
  · rintro ⟨hIndex, hLe⟩
    refine ⟨cyclicOffset m first i, by omega, ?_⟩
    exact add_cyclicOffset_mod hFirst hIndex

theorem cyclicList_nodup (hFirst : first < m) (hLast : last < m) :
    (cyclicList m first last).Nodup := by
  have hOffset := cyclicOffset_lt hFirst hLast
  apply List.Nodup.map_on ?_ List.nodup_range
  intro i hI j hJ hEq
  rw [List.mem_range] at hI hJ
  have hMod : i % m = j % m := Nat.ModEq.add_left_cancel' first hEq
  rw [Nat.mod_eq_of_lt (by omega), Nat.mod_eq_of_lt (by omega)]
    at hMod
  exact hMod

theorem cyclicList_self (hFirst : first < m) :
    cyclicList m first first = [first] := by
  have hZero : cyclicOffset m first first = 0 := by
    unfold cyclicOffset
    split <;> omega
  unfold cyclicList
  rw [hZero]
  simp only [Nat.zero_add, List.range_one, List.map_cons,
    List.map_nil, Nat.add_zero, Nat.mod_eq_of_lt hFirst]

/- The first slot comes before the others. -/
theorem cyclicList_next (hFirst : first < m) (hLast : last < m) (hNe : first ≠ last) :
    cyclicList m first last = first :: cyclicList m (cyclicNext m first) last := by
  have hOffset : cyclicOffset m first last = cyclicOffset m (cyclicNext m first) last + 1 := by
    unfold cyclicOffset cyclicNext
    split_ifs <;> omega
  have hSlot : ∀ i, (first + (i + 1)) % m = (cyclicNext m first + i) % m := by
    intro i
    unfold cyclicNext
    split_ifs with hFits
    · rw [Nat.add_assoc, Nat.add_comm 1 i]
    · have hWrap : first + (i + 1) = i + m := by
        omega
      rw [hWrap, Nat.add_mod_right, Nat.zero_add]
  unfold cyclicList
  rw [hOffset, List.range_succ_eq_map, List.map_cons,
    List.map_map, Nat.add_zero, Nat.mod_eq_of_lt hFirst]
  congr 1
  apply List.map_congr_left
  intro i _
  exact hSlot i

/- A slot that is added comes after the others. -/
theorem cyclicList_push (hFirst : first < m) (hLast : last < m)
    (hRoom : cyclicNext m last ≠ first) :
    cyclicList m first (cyclicNext m last) = cyclicList m first last ++ [cyclicNext m last] := by
  have hOffset : cyclicOffset m first (cyclicNext m last) = cyclicOffset m first last + 1 := by
    unfold cyclicOffset
    unfold cyclicNext at hRoom ⊢
    split_ifs at hRoom ⊢ <;> omega
  have hSlot := add_cyclicOffset_mod hFirst (cyclicNext_lt (i := last) (Nat.zero_lt_of_lt hFirst))
  rw [hOffset] at hSlot
  unfold cyclicList
  rw [hOffset, List.range_succ, List.map_append, List.map_singleton, hSlot]

theorem exists_cyclicList_cons (hFirst : first < m) (hLast : last < m) :
    ∃ rest, cyclicList m first last = first :: rest := by
  by_cases hEq : first = last
  · subst hEq
    exact ⟨[], cyclicList_self hFirst⟩
  · exact ⟨_, cyclicList_next hFirst hLast hEq⟩

theorem exists_cyclicList_concat (hFirst : first < m) (hLast : last < m) :
    ∃ start, cyclicList m first last = start ++ [last] := by
  unfold cyclicList
  rw [List.range_succ, List.map_append, List.map_singleton, add_cyclicOffset_mod hFirst hLast]
  exact ⟨_, rfl⟩

end Order

/- The elements of the pages from `first` to `last`. -/
def cyclicJoin {α : Type} (m first last : Nat) (page : Nat → List α) : List α :=
  (cyclicList m first last).flatMap page

section Join

variable {α : Type} {m first last : Nat} {page page' : Nat → List α}

theorem CyclicSpan.mem_cyclicJoin_iff (hSpan : CyclicSpan m first last page) (a : α) :
    a ∈ cyclicJoin m first last page ↔ ∃ q, a ∈ page q := by
  unfold cyclicJoin
  rw [List.mem_flatMap]
  constructor
  · rintro ⟨q, _, hMem⟩
    exact ⟨q, hMem⟩
  · rintro ⟨q, hMem⟩
    refine ⟨q, ?_, hMem⟩
    rw [mem_cyclicList_iff hSpan.first_lt hSpan.last_lt]
    exact hSpan.inRange q (List.ne_nil_of_mem hMem)

theorem CyclicSpan.cyclicJoin_nodup (hSpan : CyclicSpan m first last page)
    (hNodup : ∀ q, (page q).Nodup) (hOnce : ∀ a q q', a ∈ page q → a ∈ page q' → q = q') :
    (cyclicJoin m first last page).Nodup := by
  unfold cyclicJoin
  rw [List.nodup_flatMap]
  refine ⟨fun q _ => hNodup q, ?_⟩
  apply List.Nodup.pairwise_of_forall_ne
  · exact cyclicList_nodup hSpan.first_lt hSpan.last_lt
  · intro q _ q' _ hNe a hMem hMem'
    exact hNe (hOnce a q q' hMem hMem')

theorem cyclicJoin_next (hFirst : first < m) (hLast : last < m) (hNe : first ≠ last) :
    cyclicJoin m first last page = page first ++ cyclicJoin m (cyclicNext m first) last page := by
  unfold cyclicJoin
  rw [cyclicList_next hFirst hLast hNe, List.flatMap_cons]

theorem cyclicJoin_skip (hFirst : first < m) (hLast : last < m) (hEmpty : page first = [])
    (hNe : first ≠ last) :
    cyclicJoin m (cyclicNext m first) last page = cyclicJoin m first last page := by
  rw [cyclicJoin_next hFirst hLast hNe, hEmpty, List.nil_append]

theorem cyclicJoin_push (hFirst : first < m) (hLast : last < m)
    (hRoom : cyclicNext m last ≠ first) :
    cyclicJoin m first (cyclicNext m last) page
      = cyclicJoin m first last page ++ page (cyclicNext m last) := by
  unfold cyclicJoin
  rw [cyclicList_push hFirst hLast hRoom, List.flatMap_append, List.flatMap_singleton]

/- Pages that agree but for one, which comes last. -/
theorem cyclicJoin_append_last {as : List α} (hFirst : first < m) (hLast : last < m)
    (hPages : ∀ q, page' q = if q = last then page last ++ as else page q) :
    cyclicJoin m first last page' = cyclicJoin m first last page ++ as := by
  have hNodup := cyclicList_nodup hFirst hLast
  rcases exists_cyclicList_concat hFirst hLast with ⟨start, hList⟩
  rw [hList] at hNodup
  have hStart : start.flatMap page' = start.flatMap page := by
    apply List.flatMap_congr
    intro q hMem
    rw [hPages, if_neg]
    rintro rfl
    exact List.disjoint_of_nodup_append hNodup hMem (List.mem_singleton_self q)
  unfold cyclicJoin
  rw [hList, List.flatMap_append, List.flatMap_append, hStart,
    List.flatMap_singleton, List.flatMap_singleton, hPages,
    if_pos rfl, List.append_assoc]

/- Only the first page of the queue is another. -/
theorem cyclicJoin_replace_first {front back as : List α} (hFirst : first < m) (hLast : last < m)
    (hSplit : page first = front ++ back)
    (hPages : ∀ q, page' q = if q = first then as else page q) :
    ∃ rest, cyclicJoin m first last page = front ++ (back ++ rest) ∧
        cyclicJoin m first last page' = as ++ rest := by
  have hNodup := cyclicList_nodup hFirst hLast
  rcases exists_cyclicList_cons hFirst hLast with ⟨rest, hList⟩
  rw [hList, List.nodup_cons] at hNodup
  have hRest : rest.flatMap page' = rest.flatMap page := by
    apply List.flatMap_congr
    intro q hMem
    rw [hPages, if_neg]
    rintro rfl
    exact hNodup.1 hMem
  refine ⟨rest.flatMap page, ?_, ?_⟩
  · unfold cyclicJoin
    rw [hList, List.flatMap_cons, hSplit, List.append_assoc]
  · unfold cyclicJoin
    rw [hList, List.flatMap_cons, hRest, hPages, if_pos rfl]

/- The first page is moved to the front of the second one. -/
theorem cyclicJoin_merge_first (hFirst : first < m) (hLast : last < m) (hNe : first ≠ last)
    (hPages : ∀ q, page' q = if q = cyclicNext m first then
          page first ++ page (cyclicNext m first)
        else if q = first then []
        else page q) :
    cyclicJoin m (cyclicNext m first) last page' = cyclicJoin m first last page := by
  have hNext : cyclicNext m first < m := cyclicNext_lt (Nat.zero_lt_of_lt hFirst)
  have hNodup := cyclicList_nodup hFirst hLast
  rcases exists_cyclicList_cons hNext hLast with ⟨rest, hList⟩
  have hWhole := cyclicList_next hFirst hLast hNe
  rw [hWhole, hList, List.nodup_cons, List.nodup_cons] at hNodup
  rcases hNodup with ⟨hNotFirst, hNotNext, _⟩
  have hRest : rest.flatMap page' = rest.flatMap page := by
    apply List.flatMap_congr
    intro q hMem
    rw [hPages, if_neg, if_neg]
    · rintro rfl
      exact hNotFirst (List.mem_cons_of_mem _ hMem)
    · rintro rfl
      exact hNotNext hMem
  unfold cyclicJoin
  rw [hWhole, hList, List.flatMap_cons, List.flatMap_cons,
    List.flatMap_cons, hRest, hPages, if_pos rfl,
    List.append_assoc]

/- An element that is on one page only leaves the queue. -/
theorem flatMap_erase [DecidableEq α] {slots : List Nat} {q : Nat} {a : α} (hNodup : slots.Nodup)
    (hMem : q ∈ slots) (hOnly : ∀ q', a ∈ page q' → q' = q) (hHere : a ∈ page q)
    (hPages : ∀ q', page' q' = if q' = q then (page q).erase a else page q') :
    slots.flatMap page' = (slots.flatMap page).erase a := by
  induction slots with
  | nil => exact absurd hMem List.not_mem_nil
  | cons slot slots ih =>
    rcases List.nodup_cons.mp hNodup with ⟨hNot, hNodup'⟩
    rw [List.flatMap_cons, List.flatMap_cons]
    by_cases hSlot : slot = q
    · subst hSlot
      have hRest : slots.flatMap page' = slots.flatMap page := by
        apply List.flatMap_congr
        intro q' hMem'
        rw [hPages, if_neg]
        rintro rfl
        exact hNot hMem'
      rw [hRest, hPages, if_pos rfl, List.erase_append_left _ hHere]
    · have hMem' : q ∈ slots := by
        rcases List.mem_cons.mp hMem with hIs | hIn
        · exact absurd hIs.symm hSlot
        · exact hIn
      have hFree : a ∉ page slot := fun hHas => hSlot (hOnly slot hHas)
      rw [ih hNodup' hMem', hPages, if_neg hSlot, List.erase_append_right _ hFree]

theorem CyclicSpan.cyclicJoin_erase [DecidableEq α] {q : Nat} {a : α}
    (hSpan : CyclicSpan m first last page) (hOnly : ∀ q', a ∈ page q' → q' = q) (hHere : a ∈ page q)
    (hPages : ∀ q', page' q' = if q' = q then (page q).erase a else page q') :
    cyclicJoin m first last page' = (cyclicJoin m first last page).erase a := by
  apply flatMap_erase (cyclicList_nodup hSpan.first_lt hSpan.last_lt) ?_ hOnly hHere hPages
  rw [mem_cyclicList_iff hSpan.first_lt hSpan.last_lt]
  exact hSpan.inRange q (List.ne_nil_of_mem hHere)

end Join
