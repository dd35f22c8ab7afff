import Individuality.MembersPallet.QueueIndex
import Individuality.MembersPallet.PageDeletion

/-
  The entries of the included members of a flexible
  collection name the positions of their keys in the rings.

  Main declaration: `RingIndexed`
-/

namespace Individuality.MembersPallet

open StorageMap (getD_insert getD_remove get_insert)

variable {T : Config} {s s' : CollectionStore T} {b r t : RingIndex} {key : T.Member}
variable {new : List T.Member} {info : CollectionInfo T} {now : Nat}

open CollectionStore

--
-- Members and Ring Positions
--

/- The key is at a position of the ring that is not pending. -/
def Occupies (s : CollectionStore T) (r : RingIndex) (i : Nat) (key : T.Member) : Prop :=
  (s.page r 0)[i]? = some key ∧ i ∉ s.pending r

/- Every occupied position of the ring is on record. -/
def Recorded (s : CollectionStore T) (r : RingIndex) : Prop :=
  ∀ i key, Occupies s r i key → s.members.get key = some (.included r 0 i)

theorem Recorded.unique {i j : Nat} (hRecorded : Recorded s r) (hHere : Occupies s r i key)
    (hThere : Occupies s r j key) :
    i = j := by
  have hGet := hRecorded i key hHere
  rw [hRecorded j key hThere, Option.some.injEq, RingPosition.included.injEq] at hGet
  exact hGet.2.2.symm

structure RingIndexed (s : CollectionStore T) : Prop where
  included : ∀ key r p i,
      s.members.get key = some (.included r p i) ↔ p = 0 ∧ Occupies s r i key
  pending_lt : ∀ r, ∀ i ∈ s.pending r, i < (s.page r 0).length

theorem ringIndexed_empty : RingIndexed (CollectionStore.empty : CollectionStore T)
    where
  included := by
    intro key r p i
    constructor
    · intro hGet
      simp [CollectionStore.empty] at hGet
    · rintro ⟨_, hGet, _⟩
      have hNil : (CollectionStore.empty : CollectionStore T).page r 0 = [] := rfl
      simp [hNil] at hGet
  pending_lt := by
    intro r i hMem
    exact absurd hMem List.not_mem_nil

theorem RingIndexed.frame (hIndexed : RingIndexed s) (hPage : ∀ r, s'.page r 0 = s.page r 0)
    (hPending : ∀ r, s'.pending r = s.pending r)
    (hMembers : ∀ key r p i, s'.members.get key = some (.included r p i) ↔
        s.members.get key = some (.included r p i)) :
    RingIndexed s' := by
  refine ⟨?_, ?_⟩
  · intro key r p i
    rw [hMembers, hIndexed.included]
    unfold Occupies
    rw [hPage, hPending]
  · intro r i
    rw [hPage, hPending]
    exact hIndexed.pending_lt r i

theorem RingIndexed.recorded (hIndexed : RingIndexed s) (r : RingIndex) :
    Recorded s r := by
  intro i key hHere
  exact (hIndexed.included key r 0 i).mpr ⟨rfl, hHere⟩

/- Distinct positions that are not pending hold distinct keys. -/
theorem RingIndexed.position_unique {r' : RingIndex} {i i' : Nat} (hIndexed : RingIndexed s)
    (hHere : Occupies s r i key) (hThere : Occupies s r' i' key) :
    r = r' ∧ i = i' := by
  have hGet := (hIndexed.included key r 0 i).mpr ⟨rfl, hHere⟩
  have hGet' := (hIndexed.included key r' 0 i').mpr ⟨rfl, hThere⟩
  rw [hGet, Option.some.injEq, RingPosition.included.injEq] at hGet'
  exact ⟨hGet'.1, hGet'.2.2⟩

/-
  After `new` was placed, the entries agree with the rings if the keys in `new` are where they were
  placed and nowhere else, and the other keys are where they were.
-/
theorem RingIndexed.place {start : Nat} (hIndexed : RingIndexed s)
    (hPlaced : Placed (T := T) s.members s'.members b start new)
    (hNew : ∀ j key, new[j]? = some key → Occupies s' b (start + j) key)
    (hOnly : ∀ key ∈ new, ∀ r i, Occupies s' r i key →
        r = b ∧ start ≤ i ∧ new[i - start]? = some key)
    (hRest : ∀ key, key ∉ new → ∀ r i, Occupies s' r i key ↔ Occupies s r i key)
    (hPending : ∀ r, ∀ i ∈ s'.pending r, i < (s'.page r 0).length) :
    RingIndexed s' := by
  refine ⟨?_, hPending⟩
  intro key r p i
  by_cases hMem : key ∈ new
  · constructor
    · intro hGet
      rcases List.getElem?_of_mem hMem with ⟨j, hKey⟩
      rw [hPlaced.1 j key hKey, Option.some.injEq, RingPosition.included.injEq] at hGet
      rcases hGet with ⟨rfl, rfl, rfl⟩
      exact ⟨rfl, hNew j key hKey⟩
    · rintro ⟨rfl, hHere⟩
      rcases hOnly key hMem r i hHere with ⟨rfl, hLe, hKey⟩
      rw [hPlaced.1 (i - start) key hKey, Nat.add_sub_of_le hLe]
  · rw [hPlaced.2 key hMem, hRest key hMem]
    exact hIndexed.included key r p i

/- Keys are appended to a ring that did not hold them.  A ring that held them before is emptied. -/
theorem RingIndexed.append (hIndexed : RingIndexed s)
    (hPlaced : Placed (T := T) s.members s'.members b (s.page b 0).length new)
    (hPage : s'.page b 0 = s.page b 0 ++ new) (hPending : ∀ r, s'.pending r = s.pending r)
    (hOther : ∀ r, r ≠ b → s'.page r 0 = s.page r 0
        ∨ s'.page r 0 = [] ∧ s.pending r = [] ∧ ∀ key ∈ s.page r 0, key ∈ new)
    (hFree : ∀ key ∈ new, ∀ r i, Occupies s r i key → r ≠ b ∧ s'.page r 0 = []) :
    RingIndexed s' := by
  have hFar : ∀ j, (s.page b 0).length + j ∉ s.pending b := by
    intro j hMem
    have hLt := hIndexed.pending_lt b _ hMem
    omega
  refine hIndexed.place hPlaced ?_ ?_ ?_ ?_
  · intro j key hKey
    refine ⟨?_, ?_⟩
    · rw [hPage, List.getElem?_append_right (by omega), Nat.add_sub_cancel_left]
      exact hKey
    · rw [hPending]
      exact hFar j
  · intro key hMem r i hHere
    rcases hHere with ⟨hGet, hNot⟩
    rw [hPending] at hNot
    by_cases hEq : r = b
    · subst hEq
      rw [hPage] at hGet
      by_cases hLt : i < (s.page r 0).length
      · rw [List.getElem?_append_left hLt] at hGet
        exact absurd rfl (hFree key hMem r i ⟨hGet, hNot⟩).1
      · rw [List.getElem?_append_right (Nat.not_lt.mp hLt)] at hGet
        exact ⟨rfl, Nat.not_lt.mp hLt, hGet⟩
    · rcases hOther r hEq with hSame | ⟨hNil, _⟩
      · rw [hSame] at hGet
        have hEmpty := (hFree key hMem r i ⟨hGet, hNot⟩).2
        rw [← hSame, hEmpty] at hGet
        simp at hGet
      · rw [hNil] at hGet
        simp at hGet
  · intro key hNotMem r i
    unfold Occupies
    rw [hPending]
    by_cases hEq : r = b
    · subst hEq
      rw [hPage]
      by_cases hLt : i < (s.page r 0).length
      · rw [List.getElem?_append_left hLt]
      · have hLe := Nat.not_lt.mp hLt
        rw [List.getElem?_append_right hLe, List.getElem?_eq_none hLe]
        constructor
        · intro hHere
          exact absurd (List.mem_of_getElem? hHere.1) hNotMem
        · rintro ⟨hNone, _⟩
          simp at hNone
    · rcases hOther r hEq with hSame | ⟨hNil, _, hAll⟩
      · rw [hSame]
      · rw [hNil]
        constructor
        · rintro ⟨hNone, _⟩
          simp at hNone
        · intro hHere
          exact absurd (hAll key (List.mem_of_getElem? hHere.1)) hNotMem
  · intro r i hMem
    rw [hPending] at hMem
    have hOld := hIndexed.pending_lt r i hMem
    by_cases hEq : r = b
    · rw [hEq, hPage, List.length_append]
      rw [hEq] at hOld
      omega
    · rcases hOther r hEq with hSame | ⟨_, hNone, _⟩
      · rw [hSame]
        exact hOld
      · rw [hNone] at hMem
        exact absurd hMem List.not_mem_nil

--
-- The Rings of a Flexible Collection
--

def Flexible (s : CollectionStore T) : Prop :=
  ∀ info, s.collection = some info → info.mode = .flexible

/- A ring of a flexible collection has one page. -/
theorem RingSound.single_page (hSound : RingSound s r) (hLive : s.collection.isSome = true)
    (hFlexible : Flexible s) (hQueue : s.ringDeletionQueue = ∅) :
    (s.ringStatus r).total = (s.page r 0).length ∧ ∀ p, 0 < p → s.page r p = [] := by
  rcases hSound with ⟨⟨_, hZero⟩, hDoomed⟩ | ⟨keys, hHolds⟩
  · have hNil : ∀ p, s.page r p = [] := by
      intro p
      by_contra hNe
      have hMem := hDoomed p hNe
      simp [hQueue] at hMem
    rw [hZero, hNil 0]
    exact ⟨rfl, fun p _ => hNil p⟩
  · rcases Option.isSome_iff_exists.mp hLive with ⟨info, hInfo⟩
    have hFits := hHolds.flexible info hInfo (hFlexible info hInfo)
    refine ⟨?_, ?_⟩
    · rw [hHolds.total, hHolds.paged.page_zero_of_le hFits]
    · intro p hPos
      apply hHolds.paged.page_eq_nil
      calc
        keys.length ≤ T.flexibleRingCapacity := hFits
        _ ≤ p * T.flexibleRingCapacity := Nat.le_mul_of_pos_left _ hPos

variable {top : AvailableRing T}

/- In a flexible collection, members are appended to the only page of the current ring. -/
theorem Addition.append_page (hLife : Lifecycle s) (hSound : RingSound s s.currentRingIndex)
    (hOpen : CurrentOpen s) (hFlexible : Flexible s) (hNew : new ≠ [])
    (hAddition : Addition s s' info top new) :
    top.ringIndex = s.currentRingIndex ∧
      s'.page s.currentRingIndex 0 = s.page s.currentRingIndex 0 ++ new ∧
      (new.Nodup → Placed (T := T) s.members s'.members s.currentRingIndex
          (s.page s.currentRingIndex 0).length new) := by
  have hMode := hFlexible info hAddition.collection
  rcases available_current hLife hSound hOpen hAddition with
    ⟨keys, hHolds, hTop, hIndex, _, _, hBound⟩
  rcases Addition.holds hLife hSound hOpen hAddition with ⟨keys', hHolds', _, hAfter, _⟩
  have hFits := hBound hMode
  have hNewPos := List.length_pos_iff.mpr hNew
  have hLe : keys.length ≤ T.flexibleRingCapacity := by omega
  have hPage := hHolds.paged.page_zero_of_le hLe
  have hFits' : keys'.length ≤ T.flexibleRingCapacity :=
    hHolds'.flexible info hAddition.collection hMode
  have hPage' := hHolds'.paged.page_zero_of_le hFits'
  have hSame : keys' = keys := hPage'.symm.trans hPage
  rw [hSame] at hAfter
  have hZero : top.pageIndex = 0 := by
    rw [hIndex]
    exact Nat.div_eq_of_lt (by omega)
  have hKeys := availableRing_keys s info.ringSize.ringCapacity
  rw [hAddition.available, hTop, hZero] at hKeys
  have hTopKeys : top.keys.toList = keys := by
    rw [hKeys]
    exact hPage
  refine ⟨hTop, ?_, ?_⟩
  · rw [hPage]
    apply hAfter.paged.page_zero_of_le
    rw [List.length_append]
    exact hFits
  · intro hNodup
    have hPlaced := hAddition.positions hZero (by rw [hTopKeys]; exact hFits) hNodup
    rw [hTop, hTopKeys] at hPlaced
    rw [hPage]
    exact hPlaced

theorem RingIndexed.addition (hIndexed : RingIndexed s) (hTop : top.ringIndex = s.currentRingIndex)
    (hPage : s'.page s.currentRingIndex 0 = s.page s.currentRingIndex 0 ++ new)
    (hPlaced : Placed (T := T) s.members s'.members s.currentRingIndex
        (s.page s.currentRingIndex 0).length new)
    (hQueued : ∀ key ∈ new, ∃ q, Queued s key q)
    (hAddition : Addition s s' info top new) :
    RingIndexed s' := by
  rcases hAddition.writes with ⟨filled, members, ringKeys, head, queue, stale, hPages, hEq⟩
  refine hIndexed.append hPlaced hPage ?_ ?_ ?_
  · intro r
    rw [hEq]
    rfl
  · intro r hNe
    left
    rw [hEq]
    exact hPages r 0 (by rw [hTop]; exact hNe)
  · intro key hMem r i hHere
    rcases hQueued key hMem with ⟨q, t, hGet⟩
    have hOld := (hIndexed.included key r 0 i).mpr ⟨rfl, hHere⟩
    rw [hGet] at hOld
    simp at hOld

--
-- Merging Rings
--

theorem moveToBase_members {f f' : Filling T} (hMove : new.foldlM (moveToBase b) f = .ok f')
    (hNodup : new.Nodup) :
    Placed (T := T) f.store.members f'.store.members b f.keys.toList.length new := by
  induction new generalizing f with
  | nil =>
    simp only [List.foldlM_nil, Except.pure_eq_ok] at hMove
    subst hMove
    exact placed_nil ..
  | cons key new ih =>
    rw [List.foldlM_cons, Except.bind_eq_ok] at hMove
    rcases hMove with ⟨f₁, hFirst, hRest⟩
    rcases List.nodup_cons.mp hNodup with ⟨hNot, hNodup'⟩
    rcases moveToBase_eq_ok hFirst with ⟨hStore, hKeys⟩
    have hPlaced := ih hRest hNodup'
    rw [hKeys, hStore, List.length_append, List.length_singleton] at hPlaced
    exact placed_cons hNot hPlaced

theorem Recorded.page_nodup (hRecorded : Recorded s r) (hPending : s.pending r = []) :
    (s.page r 0).Nodup := by
  have hNone : ∀ i, i ∉ s.pending r := by
    intro i
    rw [hPending]
    exact List.not_mem_nil
  rw [List.nodup_iff_getElem?_ne_getElem?]
  intro i j hLt hLength hEq
  have hThere := List.getElem?_eq_getElem hLength
  have hHere := hEq.trans hThere
  have hSame := hRecorded.unique ⟨hHere, hNone i⟩ ⟨hThere, hNone j⟩
  exact absurd hSame (Nat.ne_of_lt hLt)

/- A merge places the keys of the target after the base's. -/
theorem Recorded.placed_of_merge (hRecorded : Recorded s t)
    (hMerge : s.mergeRings now b t = .ok s') :
    Placed (T := T) s.members s'.members b (s.page b 0).length (s.page t 0) ∧
      ∀ key ∈ s.page t 0, ∃ j, Occupies s t j key := by
  rcases mergeRings_eq_ok hMerge with ⟨info, f, root, oldRoots, changes, stale, _, _, _, _, _,
      _, _, _, _, _, _, hTargetPending, hFold, _, _, hEq⟩
  refine ⟨?_, ?_⟩
  · rw [hEq]
    exact moveToBase_members hFold (hRecorded.page_nodup hTargetPending)
  · intro key hMem
    rcases List.getElem?_of_mem hMem with ⟨j, hKey⟩
    refine ⟨j, hKey, ?_⟩
    rw [hTargetPending]
    exact List.not_mem_nil

theorem mergeRings_page (hMerge : s.mergeRings now b t = .ok s') (r : RingIndex) :
    s'.page r 0 =
      if r = t then []
      else if r = b then s.page b 0 ++ s.page t 0
      else s.page r 0 := by
  rcases mergeRings_eq_ok hMerge with ⟨info, f, root, oldRoots, changes, stale, _, _, _, _, _,
      _, _, _, _, _, _, _, hFold, _, _, hEq⟩
  have hKeys := (moveToBase_foldlM_frame hFold).2
  rw [hEq]
  simp only [CollectionStore.page, ringPage, getD_remove, getD_insert, Prod.mk.injEq, and_true]
  split_ifs
  · rfl
  · exact hKeys
  · rfl

theorem mergeRings_later_page {s s' : CollectionStore T} {now : Nat} {b t : RingIndex}
    (hMerge : s.mergeRings now b t = .ok s') (r : RingIndex) {p : PageIndex} (hPos : 0 < p) :
    s'.page r p = s.page r p := by
  have hZero : p ≠ 0 := Nat.pos_iff_ne_zero.mp hPos
  rcases mergeRings_eq_ok hMerge with
    ⟨_, _, _, _, _, _, _, _, _, _, _, _, _, _, _, _, _, _, _, _, _, hEq⟩
  rw [hEq]
  simp only [CollectionStore.page, ringPage, getD_remove, getD_insert,
    Prod.mk.injEq, hZero, and_false, if_false]

theorem RingIndexed.mergeRings (hIndexed : RingIndexed s) (hMerge : s.mergeRings now b t = .ok s') :
    RingIndexed s' := by
  rcases (hIndexed.recorded t).placed_of_merge hMerge with ⟨hPlaced, hThere⟩
  have hPage := mergeRings_page hMerge
  rcases mergeRings_eq_ok hMerge with ⟨info, f, root, oldRoots, changes, stale, _, _, _, hNe, _,
      _, _, _, _, _, hBasePending, hTargetPending, hFold, _, _,
      hEq⟩
  refine hIndexed.append hPlaced ?_ ?_ ?_ ?_
  · rw [hPage, if_neg hNe, if_pos rfl]
  · intro r
    rw [hEq]
    rfl
  · intro r hOther
    rw [hPage]
    by_cases hTarget : r = t
    · rw [if_pos hTarget, hTarget]
      exact Or.inr ⟨rfl, hTargetPending, fun _ hMem => hMem⟩
    · rw [if_neg hTarget, if_neg hOther]
      exact Or.inl rfl
  · intro key hMem r i hHere
    rcases hThere key hMem with ⟨j, hOld⟩
    have hSame := (hIndexed.position_unique hHere hOld).1
    rw [hSame, hPage, if_pos rfl]
    exact ⟨hNe.symm, rfl⟩

--
-- Suspensions
--

/- A suspended position is no longer occupied. -/
theorem RingIndexed.suspendMember (hIndexed : RingIndexed s)
    (hSuspend : CollectionStore.suspendMember s key = .ok s') :
    RingIndexed s' := by
  have hOther : (∀ r p i, s.members.get key ≠ some (.included r p i)) → ∀ k r p i,
          (s.members.insert key .suspended).get k = some (.included r p i) ↔
            s.members.get k = some (.included r p i) := by
    intro hFree k r p i
    simp only [get_insert]
    split_ifs with hEq
    · simp [hEq, hFree r p i]
    · rfl
  rcases suspendMember_cases hSuspend with ⟨r, p, i, indices, hGet, hNew, hIndices, rfl⟩
      | ⟨q, t, hGet, rfl⟩ | ⟨hGet, rfl⟩
  · rcases (hIndexed.included key r p i).mp hGet with ⟨_, hHere⟩
    have hPending :
        ∀ r', (({ s with
            pendingSuspensions := s.pendingSuspensions.insert r indices
            members := s.members.insert key .suspended } : CollectionStore T).pending r')
          = if r' = r
            then (s.pending r).orderedInsert (· ≤ ·) i
            else s.pending r' := by
      intro r'
      simp only [pending, getD_insert]
      split_ifs
      · exact hIndices
      · rfl
    refine ⟨?_, ?_⟩
    · intro k r' p' i'
      unfold Occupies
      rw [hPending]
      simp only [get_insert]
      by_cases hKey : k = key
      · -- the only position of the key is now pending
        rw [if_pos hKey]
        constructor
        · intro hNo
          simp at hNo
        · rintro ⟨_, hGet', hNot⟩
          rw [hKey] at hGet'
          exfalso
          by_cases hRing : r' = r
          · rw [if_pos hRing, List.mem_orderedInsert, not_or] at hNot
            rw [hRing] at hGet'
            have hSame := hIndexed.position_unique hHere ⟨hGet', hNot.2⟩
            exact hNot.1 hSame.2.symm
          · rw [if_neg hRing] at hNot
            have hSame := hIndexed.position_unique hHere ⟨hGet', hNot⟩
            exact hRing hSame.1.symm
      · rw [if_neg hKey, hIndexed.included]
        have hGone : (s.page r' 0)[i']? = some k → ¬ (r' = r ∧ i' = i) := by
          rintro hGet' ⟨rfl, rfl⟩
          rw [hHere.1, Option.some.injEq] at hGet'
          exact hKey hGet'.symm
        constructor
        · rintro ⟨hZero, hGet', hNot⟩
          refine ⟨hZero, hGet', ?_⟩
          split_ifs with hRing
          · rw [List.mem_orderedInsert, not_or]
            refine ⟨?_, hRing ▸ hNot⟩
            intro hIs
            exact hGone hGet' ⟨hRing, hIs⟩
          · exact hNot
        · rintro ⟨hZero, hGet', hNot⟩
          refine ⟨hZero, hGet', ?_⟩
          split_ifs at hNot with hRing
          · rw [List.mem_orderedInsert, not_or] at hNot
            rw [hRing]
            exact hNot.2
          · exact hNot
    · intro r' i' hMem
      rw [hPending] at hMem
      split_ifs at hMem with hRing
      · rw [List.mem_orderedInsert] at hMem
        rw [hRing]
        rcases hMem with rfl | hMem
        · exact (List.getElem?_eq_some_iff.mp hHere.1).1
        · exact hIndexed.pending_lt r i' hMem
      · exact hIndexed.pending_lt r' i' hMem
  · have hFree : ∀ r p i, s.members.get key ≠ some (.included r p i) := by
      intro r p i hNo
      simp [hGet] at hNo
    rcases suspendQueued_frame s q key with ⟨queue, hQueue⟩
    rw [hQueue]
    refine hIndexed.frame ?_ ?_ (hOther hFree)
    · exact fun _ => rfl
    · exact fun _ => rfl
  · refine hIndexed.frame ?_ ?_ (hOther ?_)
    · exact fun _ => rfl
    · exact fun _ => rfl
    · intro r p i hNo
      simp [hGet] at hNo

--
-- Removing Suspended Keys
--

/- The kept keys are placed from the start of the ring on. -/
theorem retainKeys_members (r : RingIndex) (i : Nat) (gone : List Nat) (keys : List T.Member)
    (members : MemberMap T) (acc : RingPage T)
    (hFits : acc.length + keys.length ≤ T.flexibleRingCapacity)
    (hNodup : (removePositions i gone keys).Nodup)
    (hHere : ∀ key ∈ removePositions i gone keys, ∃ j, members.get key = some (.included r 0 j)) :
    Placed (T := T) members (retainKeys r i gone keys members acc).2.1 r acc.length
      (removePositions i gone keys) := by
  induction keys generalizing i gone members acc with
  | nil => exact placed_nil ..
  | cons key keys ih =>
    simp only [List.length_cons] at hFits
    unfold retainKeys removePositions
    unfold removePositions at hNodup hHere
    by_cases hHead : gone.head? = some i
    · simp only [if_pos hHead] at hNodup hHere ⊢
      exact ih (i + 1) gone.tail members acc (by omega) hNodup hHere
    · simp only [if_neg hHead] at hNodup hHere ⊢
      have hPush : ∃ acc' : RingPage T, acc.tryPush key = some acc' :=
        BoundedVec.ofList?_isSome_iff.mpr (by
          rw [List.length_append, List.length_singleton]
          rw [BoundedVec.length_def] at hFits
          omega)
      rcases hPush with ⟨acc', hPush⟩
      simp only [hPush]
      rw [BoundedVec.tryPush_eq_some_iff] at hPush
      have hLength : acc'.length = acc.length + 1 := by
        rw [BoundedVec.length_def, hPush, List.length_append]
        rfl
      rcases List.nodup_cons.mp hNodup with ⟨hNot, hNodup'⟩
      rcases hHere key (List.mem_cons_self ..) with ⟨j, hGet⟩
      have hMove : moveIncluded r members key acc.length = members.insert key
                (.included r 0 acc.length) := by
        unfold moveIncluded
        simp only [hGet, ne_eq, not_true_eq_false, if_false]
      rw [hMove]
      apply placed_cons hNot
      rw [← hLength]
      refine ih (i + 1) gone _ acc' (by omega) hNodup' ?_
      intro k hMem
      have hNe : k ≠ key := by
        rintro rfl
        exact hNot hMem
      rw [StorageMap.get_insert_of_ne _ _ hNe]
      exact hHere k (List.mem_cons_of_mem _ hMem)

theorem mem_keptKeys_iff (hSorted : (s.pending r).Pairwise (· < ·)) (key : T.Member) :
    key ∈ s.keptKeys r ↔ ∃ i, Occupies s r i key := by
  have hFrom : PositionsFrom 0 (s.pending r) := ⟨hSorted, fun _ _ => Nat.zero_le _⟩
  unfold keptKeys
  rw [mem_removePositions_iff hFrom]
  simp only [Nat.zero_add]
  rfl

theorem Recorded.keptKeys_nodup (hRecorded : Recorded s r)
    (hSorted : (s.pending r).Pairwise (· < ·)) :
    (s.keptKeys r).Nodup := by
  apply removePositions_nodup ⟨hSorted, fun _ _ => Nat.zero_le _⟩
  intro j₁ j₂ key hGet₁ hGet₂ hNot₁ hNot₂
  rw [Nat.zero_add] at hNot₁ hNot₂
  exact hRecorded.unique ⟨hGet₁, hNot₁⟩ ⟨hGet₂, hNot₂⟩

theorem Recorded.placed_of_removal (now : Nat) (hRecorded : Recorded s r)
    (hSorted : (s.pending r).Pairwise (· < ·)) (hInfo : s.collection = some info) :
    Placed (T := T) s.members (s.removeSuspendedKeys now r).members r 0 (s.keptKeys r) := by
  rcases removeSuspendedKeys_eq now r hInfo with ⟨root, oldRoots, stale, ringKeys, _, _, hEq⟩
  have hFits : (BoundedVec.empty : RingPage T).length + (s.page r 0).length
        ≤ T.flexibleRingCapacity := by
    rw [BoundedVec.length_def, BoundedVec.toList_empty, List.length_nil, Nat.zero_add]
    exact (s.ringPage r 0).length_le
  rw [hEq]
  apply retainKeys_members r 0 (s.pending r) (s.page r 0)
    s.members .empty hFits (hRecorded.keptKeys_nodup hSorted)
  intro key hMem
  rcases (mem_keptKeys_iff hSorted key).mp hMem with ⟨i, hHere⟩
  exact ⟨i, hRecorded i key hHere⟩

theorem removeSuspendedKeys_page (now : Nat) (r : RingIndex) (hInfo : s.collection = some info)
    (r' : RingIndex) (p : PageIndex) :
    (s.removeSuspendedKeys now r).page r' p =
      if (r', p) = (r, 0) then s.keptKeys r
      else s.page r' p := by
  rcases removeSuspendedKeys_eq now r hInfo with ⟨root, oldRoots, stale, ringKeys, _, hKeys, hEq⟩
  rw [hEq, CollectionStore.page, ringPage, hKeys]

theorem removeSuspendedKeys_pending (now : Nat) (r : RingIndex) (hInfo : s.collection = some info)
    (r' : RingIndex) :
    (s.removeSuspendedKeys now r).pending r' =
      if r' = r then [] else s.pending r' := by
  rcases removeSuspendedKeys_eq now r hInfo with ⟨root, oldRoots, stale, ringKeys, _, _, hEq⟩
  rw [hEq, pending, getD_remove]
  split_ifs <;> rfl

theorem RingIndexed.removeSuspendedKeys (now : Nat) (r : RingIndex) (hIndexed : RingIndexed s)
    (hSorted : (s.pending r).Pairwise (· < ·)) (hInfo : s.collection = some info) :
    RingIndexed (s.removeSuspendedKeys now r) := by
  have hPlaced := (hIndexed.recorded r).placed_of_removal now hSorted hInfo
  have hMemKept := mem_keptKeys_iff hSorted
  have hPage : ∀ r', (s.removeSuspendedKeys now r).page r' 0 =
        if r' = r then s.keptKeys r else s.page r' 0 := by
    intro r'
    rw [removeSuspendedKeys_page now r hInfo]
    simp only [Prod.mk.injEq, and_true]
  have hPending := removeSuspendedKeys_pending now r hInfo
  refine hIndexed.place hPlaced ?_ ?_ ?_ ?_
  · intro j key hKey
    unfold Occupies
    rw [hPage, hPending, if_pos rfl, if_pos rfl, Nat.zero_add]
    exact ⟨hKey, List.not_mem_nil⟩
  · intro key hMem r' i hHere
    rcases (hMemKept key).mp hMem with ⟨i₀, hOld⟩
    unfold Occupies at hHere
    rw [hPage, hPending] at hHere
    split_ifs at hHere with hRing
    · exact ⟨hRing, Nat.zero_le _, hHere.1⟩
    · exact absurd (hIndexed.position_unique hHere hOld).1 hRing
  · intro key hNot r' i
    unfold Occupies
    rw [hPage, hPending]
    split_ifs with hRing
    · subst hRing
      constructor
      · intro hHere
        exact absurd (List.mem_of_getElem? hHere.1) hNot
      · intro hHere
        exact absurd ((hMemKept key).mpr ⟨i, hHere⟩) hNot
    · rfl
  · intro r' i hMem
    rw [hPending] at hMem
    rw [hPage]
    split_ifs at hMem ⊢
    · exact absurd hMem List.not_mem_nil
    · exact hIndexed.pending_lt r' i hMem

end Individuality.MembersPallet
