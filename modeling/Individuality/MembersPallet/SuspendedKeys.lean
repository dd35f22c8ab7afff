import Individuality.MembersPallet.Tracked

/-
  Suspending a member takes the position of its key off the record, and a removal of suspended keys
  later takes exactly those positions out of the ring, if it looks at every page that has one.

  Main declaration: `PalletState.removes_suspended_keys`
-/

namespace Individuality.MembersPallet

variable {T : Config} {s s' : CollectionStore T} {r : RingIndex} {key : T.Member}
variable {info : CollectionInfo T}

open CollectionStore

--
-- Members and the Positions of Their Keys
--

/- The members on record are those that are not suspended. -/
def Matched (s : CollectionStore T) (r : RingIndex) : Prop :=
  ∀ key i, s.members.get key = some (.included r 0 i) ↔ Occupies s r i key

theorem Matched.recorded (hMatched : Matched s r) :
    Recorded s r := by
  intro i key hHere
  exact (hMatched key i).mpr hHere

/-
  The positions on record hold the keys of their members, and none of them is suspended in a ring
  with one page that does not wait for its deletion.
-/
structure Located (s : CollectionStore T) : Prop where
  located : ∀ key r p i,
      s.members.get key = some (.included r p i) → (s.page r p)[i]? = some key
  kept : ∀ r, SinglePage s r → (r, 0) ∉ s.ringDeletionQueue →
      ∀ key i, s.members.get key = some (.included r 0 i) → i ∉ s.pending r
  pending_lt : ∀ r, s.currentRingIndex ≤ r → ∀ i ∈ s.pending r,
      ∃ p, i < (s.page r p).length

theorem Located.matched (hLocated : Located s) (hTracked : Tracked s) (hSingle : SinglePage s r)
    (hNot : (r, 0) ∉ s.ringDeletionQueue) :
    Matched s r := by
  intro key i
  constructor
  · intro hGet
    exact ⟨hLocated.located key r 0 i hGet, hLocated.kept r hSingle hNot key i hGet⟩
  · intro hHere
    exact hTracked.recorded r hSingle hNot i key hHere

/-
  What an operation has to respect: a removal of suspended keys looks at every page of its ring and,
  where the ring waits for its deletion, at every suspension in it.
-/
def KeepsPositions (s : CollectionStore T) : Op T → Prop
  | .mergeRings _ t =>
    (t, 0) ∈ s.ringDeletionQueue → Recorded s t
  | .removeSuspendedKeys r _ =>
    SinglePage s r ∧ ((r, 0) ∈ s.ringDeletionQueue → Matched s r)
  | _ => True

theorem KeepsPositions.keepsTrack {op : Op T} (hKeeps : KeepsPositions s op) :
    KeepsTrack s op := by
  cases op with
  | mergeRings b t => exact hKeeps
  | removeSuspendedKeys r revision => exact fun _ => hKeeps.1
  | _ => exact trivial

theorem located_empty : Located (CollectionStore.empty : CollectionStore T) where
  located := by
    intro key r p i hGet
    simp [CollectionStore.empty] at hGet
  kept := by
    intro r _ _ key i _
    exact List.not_mem_nil
  pending_lt := by
    intro r _ i hMem
    exact absurd hMem List.not_mem_nil

theorem Located.frame (hLocated : Located s) (hCurrent : s'.currentRingIndex = s.currentRingIndex)
    (hPage : ∀ r p, s'.page r p = s.page r p) (hPending : ∀ r, s'.pending r = s.pending r)
    (hDeletions : s'.ringDeletionQueue = s.ringDeletionQueue)
    (hMembers : ∀ key r p i, s'.members.get key = some (.included r p i) →
        s.members.get key = some (.included r p i)) :
    Located s' := by
  refine ⟨?_, ?_, ?_⟩
  · intro key r p i hGet
    rw [hPage]
    exact hLocated.located key r p i (hMembers key r p i hGet)
  · intro r hSingle hNot key i hGet
    rw [hDeletions] at hNot
    rw [hPending]
    have hSingle₀ : SinglePage s r := (singlePage_congr fun p _ => hPage r p).mp hSingle
    exact hLocated.kept r hSingle₀ hNot key i (hMembers key r 0 i hGet)
  · intro r hLe i hMem
    rw [hCurrent] at hLe
    rw [hPending] at hMem
    rcases hLocated.pending_lt r hLe i hMem with ⟨p, hLt⟩
    refine ⟨p, ?_⟩
    rw [hPage]
    exact hLt

--
-- The Queue and the Suspensions
--

theorem Located.addMember {now : Nat} (hLocated : Located s)
    (hAdd : CollectionStore.addMember now s key = .ok s') :
    Located s' := by
  rcases addMember_eq_ok hAdd with ⟨_, hPush⟩
  rcases pushToOnboardingQueue_members hPush with ⟨q, hMembers⟩
  rcases pushToOnboardingQueue_frame hPush with ⟨tail, queue, members, hEq⟩
  apply hLocated.frame
  · rw [hEq]
  · intro r p
    rw [hEq]
    rfl
  · intro r
    rw [hEq]
    rfl
  · rw [hEq]
  · intro k r p i hGet
    rw [hMembers, StorageMap.get_insert] at hGet
    split_ifs at hGet
    · simp at hGet
    · exact hGet

/- A position off the record may be suspended. -/
theorem Located.suspendMember (hLocated : Located s)
    (hSuspend : CollectionStore.suspendMember s key = .ok s') :
    Located s' := by
  have hOthers : ∀ k r p i, (s.members.insert key .suspended).get k = some (.included r p i) →
          k ≠ key ∧ s.members.get k = some (.included r p i) := by
    intro k r p i hGet
    rw [StorageMap.get_insert] at hGet
    split_ifs at hGet with hIs
    · simp at hGet
    · exact ⟨hIs, hGet⟩
  rcases suspendMember_cases hSuspend with ⟨r, p, i, indices, hGet, hNew, hIndices, hEq⟩
      | ⟨q, t, hGet, hEq⟩ | ⟨hGet, hEq⟩
  · have hHere := hLocated.located key r p i hGet
    have hLt : i < (s.page r p).length := (List.getElem?_eq_some_iff.mp hHere).1
    have hPending : ∀ r', s'.pending r' = if r' = r
            then (s.pending r).orderedInsert (· ≤ ·) i
            else s.pending r' := by
      intro r'
      rw [hEq]
      simp only [pending, StorageMap.getD_insert]
      split_ifs
      · exact hIndices
      · rfl
    have hPage : ∀ r' q, s'.page r' q = s.page r' q := by
      intro r' q
      rw [hEq]
      rfl
    refine ⟨?_, ?_, ?_⟩
    · intro k r' p' j hEntry
      rw [hEq] at hEntry
      rw [hPage]
      exact hLocated.located k r' p' j (hOthers k r' p' j hEntry).2
    · intro r' hSingle hNot k j hEntry
      rw [hEq] at hEntry hNot
      rcases hOthers k r' 0 j hEntry with ⟨hNe, hOld⟩
      have hSingle₀ : SinglePage s r' := (singlePage_congr fun q _ => hPage r' q).mp hSingle
      have hKept := hLocated.kept r' hSingle₀ hNot k j hOld
      rw [hPending]
      split_ifs with hRing
      · rw [hRing] at hSingle₀ hOld hKept
        rw [List.mem_orderedInsert, not_or]
        refine ⟨?_, hKept⟩
        intro hIs
        -- the suspended key would be the one of `k`
        have hZero : p = 0 := by
          by_contra hPos
          rw [hSingle₀ p (Nat.pos_of_ne_zero hPos)] at hLt
          exact Nat.not_lt_zero i hLt
        have hThere := hLocated.located k r 0 j hOld
        rw [hIs, ← hZero, hHere, Option.some.injEq] at hThere
        exact hNe hThere.symm
      · exact hKept
    · intro r' hLe j hMem
      rw [hPending] at hMem
      have hLe₀ : s.currentRingIndex ≤ r' := by
        rw [hEq] at hLe
        exact hLe
      have hOld : j ∈ s.pending r' → ∃ q, j < (s'.page r' q).length := by
        intro hMem
        rcases hLocated.pending_lt r' hLe₀ j hMem with ⟨q, hBound⟩
        refine ⟨q, ?_⟩
        rw [hPage]
        exact hBound
      split_ifs at hMem with hRing
      · rw [List.mem_orderedInsert] at hMem
        rcases hMem with hIs | hMem
        · refine ⟨p, ?_⟩
          rw [hIs, hRing, hPage]
          exact hLt
        · apply hOld
          rw [hRing]
          exact hMem
      · exact hOld hMem
  · rcases suspendQueued_frame s q key with ⟨queue, hQueue⟩
    rw [hEq, hQueue]
    apply hLocated.frame
    · rfl
    · exact fun _ _ => rfl
    · exact fun _ => rfl
    · rfl
    · intro k r p i hEntry
      exact (hOthers k r p i hEntry).2
  · rw [hEq]
    apply hLocated.frame
    · rfl
    · exact fun _ _ => rfl
    · exact fun _ => rfl
    · rfl
    · intro k r p i hEntry
      exact (hOthers k r p i hEntry).2

theorem Located.mergeQueuePages {h h' : PageIndex} (hLocated : Located s)
    (hMerge : s.mergeQueuePagesAuthorized h h' = .ok s') :
    Located s' := by
  have hPages := (mergeQueuePagesAuthorized_eq_ok hMerge).2.2.2
  have hMembers := mergeQueuePages_members hPages
  rcases mergeQueuePages_frame hPages with ⟨head, queue, members, hEq⟩
  apply hLocated.frame
  · rw [hEq]
  · intro r p
    rw [hEq]
    rfl
  · intro r
    rw [hEq]
    rfl
  · rw [hEq]
  · intro key r p i hGet
    rw [hMembers] at hGet
    split_ifs at hGet
    · exact (moveEntry_eq_included_iff h').mp hGet
    · exact hGet

--
-- Batches, Merges and Removals
--

theorem Located.append {new : List T.Member} (hLocated : Located s) (hAppended : Appended s s' new)
    (hCurrent : s.currentRingIndex ≤ s'.currentRingIndex) :
    Located s' := by
  have hPending : ∀ r, s'.pending r = s.pending r := by
    intro r
    unfold pending
    rw [hAppended.pending]
  refine ⟨?_, ?_, ?_⟩
  · intro key r p i hGet
    by_cases hMem : key ∈ new
    · rcases hAppended.new_get hMem with ⟨p', i', hEntry, hHere, _⟩
      rw [hEntry, Option.some.injEq, RingPosition.included.injEq] at hGet
      rcases hGet with ⟨hRing, hPage, hIndex⟩
      rw [← hRing, ← hPage, ← hIndex]
      exact hHere
    · rw [hAppended.placed.2 key hMem] at hGet
      exact hAppended.page_mono (hLocated.located key r p i hGet)
  · intro r hSingle hNot key i hGet
    rw [hAppended.deletions] at hNot
    rw [hPending]
    have hSingle₀ := hAppended.singlePage hSingle
    by_cases hMem : key ∈ new
    · rcases hAppended.new_get hMem with ⟨p', i', hEntry, _, hLe⟩
      rw [hEntry, Option.some.injEq, RingPosition.included.injEq] at hGet
      rcases hGet with ⟨hRing, hPage, hIndex⟩
      rw [hPage, hIndex] at hLe
      intro hPend
      rw [← hRing] at hPend hSingle₀
      rcases hLocated.pending_lt _ (Nat.le_refl _) i hPend with ⟨q, hLt⟩
      have hZero : q = 0 := by
        by_contra hPos
        rw [hSingle₀ q (Nat.pos_of_ne_zero hPos)] at hLt
        exact Nat.not_lt_zero i hLt
      rw [hZero] at hLt
      exact Nat.not_lt.mpr hLe hLt
    · rw [hAppended.placed.2 key hMem] at hGet
      exact hLocated.kept r hSingle₀ hNot key i hGet
  · intro r hLe i hMem
    rw [hPending] at hMem
    rcases hLocated.pending_lt r (Nat.le_trans hCurrent hLe) i hMem with ⟨p, hLt⟩
    refine ⟨p, ?_⟩
    have hHere := List.getElem?_eq_getElem hLt
    have hThere := hAppended.page_mono hHere
    exact (List.getElem?_eq_some_iff.mp hThere).1

theorem Located.mergeRings {now : Nat} {b t : RingIndex} (hLocated : Located s)
    (hTarget : Recorded s t) (hMerge : s.mergeRings now b t = .ok s') :
    Located s' := by
  rcases hTarget.placed_of_merge hMerge with ⟨hPlaced, _⟩
  have hPage := mergeRings_page hMerge
  have hLater := @mergeRings_later_page T s s' now b t hMerge
  rcases mergeRings_eq_ok hMerge with ⟨info, f, root, oldRoots, changes, stale, _, _, _, hNe, _,
      _, _, _, _, _, hBasePending, hTargetPending, _, _, _, hEq⟩
  have hPending : ∀ r, s'.pending r = s.pending r := by
    intro r
    rw [hEq]
    rfl
  refine ⟨?_, ?_, ?_⟩
  · intro key r p i hGet
    by_cases hMem : key ∈ s.page t 0
    · rcases List.getElem?_of_mem hMem with ⟨j, hKey⟩
      rw [hPlaced.1 j key hKey, Option.some.injEq, RingPosition.included.injEq] at hGet
      rcases hGet with ⟨hRing, hZero, hIndex⟩
      rw [← hRing, ← hZero, ← hIndex, hPage, if_neg hNe, if_pos rfl, List.getElem?_append_right
          (Nat.le_add_right _ _), Nat.add_sub_cancel_left]
      exact hKey
    · rw [hPlaced.2 key hMem] at hGet
      have hHere := hLocated.located key r p i hGet
      by_cases hPos : 0 < p
      · rw [hLater r hPos]
        exact hHere
      · have hZero : p = 0 := Nat.eq_zero_of_not_pos hPos
        rw [hZero] at hHere ⊢
        rw [hPage]
        split_ifs with hIsTarget hIsBase
        · rw [hIsTarget] at hHere
          exact absurd (List.mem_of_getElem? hHere) hMem
        · rw [hIsBase] at hHere
          have hLt := (List.getElem?_eq_some_iff.mp hHere).1
          rw [List.getElem?_append_left hLt]
          exact hHere
        · exact hHere
  · intro r hSingle hNot key i hGet
    rw [hPending]
    by_cases hIsBase : r = b
    · rw [hIsBase, hBasePending]
      exact List.not_mem_nil
    · have hSingle₀ : SinglePage s r := by
        intro p hPos
        rw [← hLater r hPos]
        exact hSingle p hPos
      have hNot₀ : (r, 0) ∉ s.ringDeletionQueue := by
        rw [hEq] at hNot
        exact hNot
      have hFree : key ∉ s.page t 0 := by
        intro hMem
        rcases List.getElem?_of_mem hMem with ⟨j, hKey⟩
        rw [hPlaced.1 j key hKey, Option.some.injEq, RingPosition.included.injEq] at hGet
        exact hIsBase hGet.1.symm
      rw [hPlaced.2 key hFree] at hGet
      exact hLocated.kept r hSingle₀ hNot₀ key i hGet
  · intro r hLe i hMem
    rw [hPending] at hMem
    have hLe₀ : s.currentRingIndex ≤ r := by
      rw [hEq] at hLe
      exact hLe
    rcases hLocated.pending_lt r hLe₀ i hMem with ⟨p, hLt⟩
    refine ⟨p, ?_⟩
    by_cases hPos : 0 < p
    · rw [hLater r hPos]
      exact hLt
    · have hZero : p = 0 := Nat.eq_zero_of_not_pos hPos
      rw [hZero] at hLt ⊢
      rw [hPage]
      split_ifs with hIsTarget hIsBase
      · rw [hIsTarget, hTargetPending] at hMem
        exact absurd hMem List.not_mem_nil
      · rw [hIsBase, hBasePending] at hMem
        exact absurd hMem List.not_mem_nil
      · exact hLt

theorem Located.removeSuspendedKeys (now : Nat) (hLocated : Located s)
    (hSorted : (s.pending r).Pairwise (· < ·)) (hSingle : SinglePage s r) (hMatched : Matched s r)
    (hInfo : s.collection = some info) :
    Located (s.removeSuspendedKeys now r) := by
  have hPlaced := hMatched.recorded.placed_of_removal now hSorted hInfo
  have hPage := removeSuspendedKeys_page now r hInfo
  have hPending := removeSuspendedKeys_pending now r hInfo
  rcases removeSuspendedKeys_eq now r hInfo with ⟨root, oldRoots, stale, ringKeys, _, _, hEq⟩
  have hOther : ∀ r' p, r' ≠ r → (s.removeSuspendedKeys now r).page r' p = s.page r' p := by
    intro r' p hRing
    rw [hPage, if_neg]
    intro hIs
    rw [Prod.mk.injEq] at hIs
    exact hRing hIs.1
  refine ⟨?_, ?_, ?_⟩
  · intro key r' p i hGet
    by_cases hMem : key ∈ s.keptKeys r
    · rcases List.getElem?_of_mem hMem with ⟨j, hKey⟩
      rw [hPlaced.1 j key hKey, Option.some.injEq,
        RingPosition.included.injEq, Nat.zero_add] at hGet
      rcases hGet with ⟨hRing, hZero, hIndex⟩
      rw [← hRing, ← hZero, ← hIndex, hPage, if_pos rfl]
      exact hKey
    · rw [hPlaced.2 key hMem] at hGet
      have hHere := hLocated.located key r' p i hGet
      by_cases hRing : r' = r
      · -- the entry is on record, so the key is kept
        rw [hRing] at hHere hGet
        have hZero : p = 0 := by
          by_contra hPos
          rw [hSingle p (Nat.pos_of_ne_zero hPos)] at hHere
          simp at hHere
        rw [hZero] at hGet
        have hOccupies := (hMatched key i).mp hGet
        exact absurd ((mem_keptKeys_iff hSorted key).mpr ⟨i, hOccupies⟩) hMem
      · rw [hOther r' p hRing]
        exact hHere
  · intro r' hSingle' hNot key i hGet
    rw [hPending]
    split_ifs with hRing
    · exact List.not_mem_nil
    · have hSingle₀ : SinglePage s r' := by
        intro p hPos
        rw [← hOther r' p hRing]
        exact hSingle' p hPos
      have hNot₀ : (r', 0) ∉ s.ringDeletionQueue := by
        rw [hEq] at hNot
        exact hNot
      have hFree : key ∉ s.keptKeys r := by
        intro hMem
        rcases List.getElem?_of_mem hMem with ⟨j, hKey⟩
        rw [hPlaced.1 j key hKey, Option.some.injEq, RingPosition.included.injEq] at hGet
        exact hRing hGet.1.symm
      rw [hPlaced.2 key hFree] at hGet
      exact hLocated.kept r' hSingle₀ hNot₀ key i hGet
  · intro r' hLe i hMem
    rw [hPending] at hMem
    split_ifs at hMem with hRing
    · exact absurd hMem List.not_mem_nil
    · have hLe₀ : s.currentRingIndex ≤ r' := by
        rw [hEq] at hLe
        exact hLe
      rcases hLocated.pending_lt r' hLe₀ i hMem with ⟨p, hLt⟩
      refine ⟨p, ?_⟩
      rw [hOther r' p hRing]
      exact hLt

--
-- Deletions
--

theorem Located.enqueue (now : Nat) (r : RingIndex) (hLocated : Located s) :
    Located (s.enqueueRingForDeletion now r) := by
  rcases enqueueRingForDeletion_eq s now r with ⟨root, oldRoots, changes, stale, _, _, hEq⟩
  rw [hEq]
  refine ⟨hLocated.located, ?_, ?_⟩
  · intro r' hSingle hNot key i hGet
    rw [pending, StorageMap.getD_remove]
    split_ifs with hRing
    · exact List.not_mem_nil
    · rw [Finset.mem_union, not_or] at hNot
      exact hLocated.kept r' hSingle hNot.1 key i hGet
  · intro r' hLe i hMem
    rw [pending, StorageMap.getD_remove] at hMem
    split_ifs at hMem with hRing
    · exact absurd hMem List.not_mem_nil
    · exact hLocated.pending_lt r' hLe i hMem

/- What is on the deleted page is off the record. -/
theorem forgetMembers_here (r : RingIndex) (p : PageIndex) (i : Nat) (keys : List T.Member)
    (members : MemberMap T) {j : Nat} (hKey : keys[j]? = some key) :
    (forgetMembers r p i keys members).get key ≠ some (.included r p (i + j)) := by
  induction keys generalizing i j members with
  | nil => simp at hKey
  | cons k keys ih =>
    unfold forgetMembers
    cases j with
    | zero =>
      rw [List.getElem?_cons_zero, Option.some.injEq] at hKey
      subst hKey
      intro hGet
      rw [Nat.add_zero] at hGet
      rcases forgetMembers_cases r p (i + 1) keys (if members.get k = some (.included r p i)
            then members.remove k else members) k with
        hSame | ⟨_, _, hNone⟩
      · rw [hSame] at hGet
        split_ifs at hGet with hHere
        · rw [StorageMap.get_remove_self] at hGet
          simp at hGet
        · exact hHere hGet
      · rw [hNone] at hGet
        simp at hGet
    | succ j =>
      rw [List.getElem?_cons_succ] at hKey
      have hShift : i + (j + 1) = i + 1 + j := by
        omega
      rw [hShift]
      exact ih (i + 1) _ hKey

theorem Located.deleteRingPage {p : PageIndex} (hLocated : Located s) (hTracked : Tracked s)
    (hUsable : s.collection = none → s.retired = false)
    (hDelete : s.deleteRingPageAuthorized r p = .ok s') :
    Located s' := by
  have hPage := deleteRingPage_page hDelete
  have hOther := @deleteRingPage_other T s s' r
  rcases deleteRingPageAuthorized_eq_ok hDelete with ⟨hMem, hEq⟩
  have hLive : s.collection.isSome = true := by
    cases hInfo : s.collection with
    | some info => rfl
    | none =>
      have hUnused := hTracked.sound.life.unused hInfo (hUsable hInfo)
      rw [hUnused.2.2] at hMem
      exact absurd hMem (Finset.notMem_empty _)
  have hPending : ∀ r', s'.pending r' = s.pending r' := by
    intro r'
    rw [hEq]
    rfl
  have hEntry : ∀ key r' p' i, s'.members.get key = some (.included r' p' i) →
          s.members.get key = some (.included r' p' i) := by
    intro key r' p' i hGet
    rw [hEq] at hGet
    rcases forgetMembers_cases r p 0 (s.page r p) s.members key with hSame | ⟨_, _, hNone⟩
    · exact hSame.symm.trans hGet
    · exact absurd (hNone.symm.trans hGet) (by simp)
  have hLocated' : ∀ key r' p' i, s'.members.get key = some (.included r' p' i) →
          (s'.page r' p')[i]? = some key := by
    intro key r' p' i hGet
    have hHere := hLocated.located key r' p' i (hEntry key r' p' i hGet)
    rw [hPage, if_neg]
    · exact hHere
    · intro hIs
      rw [Prod.mk.injEq] at hIs
      rw [hIs.1, hIs.2] at hHere hGet
      rw [hEq] at hGet
      have hGone := forgetMembers_here r p 0 (s.page r p) s.members hHere
      rw [Nat.zero_add] at hGone
      exact hGone hGet
  refine ⟨hLocated', ?_, ?_⟩
  · intro r' hSingle hNot key i hGet
    by_cases hRing : r' = r
    · subst hRing
      have hNone := page_nil_of_deleteRingPage hTracked.doomed hDelete hNot
      have hHere := hLocated' key r' 0 i hGet
      rw [hNone] at hHere
      simp at hHere
    · rcases hOther hDelete hRing with ⟨hPages, hQueue⟩
      rw [hPending]
      refine hLocated.kept r' ?_ ?_ key i (hEntry key r' 0 i hGet)
      · exact (singlePage_congr fun q _ => hPages q).mp hSingle
      · exact fun hQueued => hNot (hQueue hQueued)
  · intro r' hLe i hMem'
    rw [hPending] at hMem'
    have hLe₀ : s.currentRingIndex ≤ r' := by
      rw [hEq] at hLe
      exact hLe
    have hRing : r' ≠ r := by
      intro hIs
      have hLt := hTracked.sound.life.queued_lt hLive r ⟨_, hMem, rfl⟩
      rw [hIs] at hLe₀
      exact Nat.not_lt.mpr hLe₀ hLt
    rcases hLocated.pending_lt r' hLe₀ i hMem' with ⟨q, hLt⟩
    refine ⟨q, ?_⟩
    rw [(hOther hDelete hRing).1]
    exact hLt

--
-- Runs
--

/- A removal on a single page with every suspension on it. -/
theorem KeepsPositions.matched (hLocated : Located s) (hTracked : Tracked s)
    (hSingle : SinglePage s r) (hDoomed : (r, 0) ∈ s.ringDeletionQueue → Matched s r) :
    Matched s r := by
  by_cases hQueued : (r, 0) ∈ s.ringDeletionQueue
  · exact hDoomed hQueued
  · exact hLocated.matched hTracked hSingle hQueued

theorem Located.apply {call : TimedOp T} (hLocated : Located s) (hTracked : Tracked s)
    (hUsable : s.collection = none → s.retired = false) (hKeeps : KeepsPositions s call.op)
    (hApply : s.apply call = .ok s') :
    Located s' := by
  have hNotSuspended : s.suspendedCollection.isSome ≠ true := by
    rw [hTracked.sound.life.not_suspended hUsable]
    exact Bool.false_ne_true
  rcases call with ⟨now, op⟩
  cases op with
  | createCollection owner size mode ringSize delay =>
    rcases createCollection_eq_ok hApply with ⟨_, _, _, _, rfl⟩
    exact hLocated.frame rfl (fun _ _ => rfl) (fun _ => rfl) rfl (fun _ _ _ _ hGet => hGet)
  | addMembers keys =>
    refine List.foldlM_invariant Located (addMembers_eq_ok hApply).2 ?_ hLocated
    intro x key y _ hStep hBefore
    exact hBefore.addMember hStep
  | removeRing r =>
    rcases removeRing_eq_ok hApply with ⟨_, _, ⟨_, hEq⟩ | ⟨_, hEq⟩⟩
    · rw [hEq]
      exact hLocated
    · rw [hEq]
      exact hLocated.enqueue now r
  | deleteCollection owner =>
    rcases deleteCollection_eq_ok hApply with ⟨_, _, rfl⟩
    exact hLocated.frame rfl (fun _ _ => rfl) (fun _ => rfl) rfl (fun _ _ _ _ hGet => hGet)
  | removeMembers keys =>
    refine List.foldlM_invariant Located (queueMemberSuspensions_eq_ok hApply).2 ?_ hLocated
    intro x key y _ hStep hBefore
    exact hBefore.suspendMember hStep
  | startRemovalSession =>
    rcases startRemovalSession_eq_ok hApply with ⟨_, rfl, _⟩
    exact hLocated.frame rfl (fun _ _ => rfl) (fun _ => rfl) rfl (fun _ _ _ _ hGet => hGet)
  | endRemovalSession =>
    rcases endRemovalSession_eq_ok hApply with ⟨_, rfl, _⟩
    exact hLocated.frame rfl (fun _ _ => rfl) (fun _ => rfl) rfl (fun _ _ _ _ hGet => hGet)
  | mergeRings b t =>
    have hTarget := hTracked.target_recorded hKeeps hApply
    exact hLocated.mergeRings hTarget hApply
  | setOnboardingSize size =>
    rw [setOnboardingSize_eq_ok hApply]
    exact hLocated.frame rfl (fun _ _ => rfl) (fun _ => rfl) rfl (fun _ _ _ _ hGet => hGet)
  | selfInclude signature message member callValidAt =>
    have hInclude := selfInclude_eq_ok hApply
    rcases addition_of_doSelfInclude hInclude with ⟨info, top, hAddition⟩
    exact hLocated.append (appended_of_doSelfInclude hTracked.sound hInclude)
      (Addition.current_le hAddition hTracked.sound.life)
  | buildRing ready r ringExponent revision toInclude =>
    rcases buildRing_eq_ok (buildRingAuthorized_eq_ok hApply).2.2.2 with
      ⟨_, _, _, _, _, _, _, _, _, _, rfl⟩
    exact hLocated.frame rfl (fun _ _ => rfl) (fun _ => rfl) rfl (fun _ _ _ _ hGet => hGet)
  | onboardMembers r head first =>
    rcases onboardMembersAuthorized_eq_ok hApply with ⟨b, hOnboard⟩
    rcases addition_of_onboardMembers hOnboard with ⟨info, top, _, hAddition⟩
    have hNodup := (hTracked.queue.onboardBatch hOnboard).1
    exact hLocated.append (appended_of_onboardMembers hTracked.sound hNodup hOnboard)
      (Addition.current_le hAddition hTracked.sound.life)
  | mergeQueuePages h h' => exact hLocated.mergeQueuePages hApply
  | removeSuspendedKeys r revision =>
    rcases removeSuspendedKeysAuthorized_eq_ok hApply with ⟨_, _, _, hEq⟩
    rw [hEq]
    cases hInfo : s.collection with
    | none =>
      have hSame : s.removeSuspendedKeys now r = s := by
        rw [CollectionStore.removeSuspendedKeys, hInfo]
      rw [hSame]
      exact hLocated
    | some info =>
      have hMatched := KeepsPositions.matched hLocated hTracked hKeeps.1 hKeeps.2
      exact hLocated.removeSuspendedKeys now (hTracked.sound.life.pending_sorted r) hKeeps.1
        hMatched hInfo
  | deleteRingPage r p =>
    exact hLocated.deleteRingPage hTracked hUsable hApply
  | enqueueRingDeletion r =>
    exact absurd (enqueueRingDeletionAuthorized_eq_ok hApply).1 hNotSuspended
  | deleteOnboardingQueuePage p =>
    exact absurd (deleteOnboardingQueuePageAuthorized_eq_ok hApply).1 hNotSuspended
  | finalizeCollectionDeletion =>
    exact absurd (finalizeCollectionDeletion_eq_ok hApply).1 hNotSuspended
  | removeOrphanedMembers =>
    exact absurd (removeOrphanedMembers_eq_ok hApply).1 hNotSuspended
  | markRingStale r =>
    rw [markRingStale_eq_ok hApply]
    exact hLocated.frame rfl (fun _ _ => rfl) (fun _ => rfl) rfl (fun _ _ _ _ hGet => hGet)
  | cleanUpOldRoots r limit =>
    rcases cleanUpOldRoots_eq_ok hApply with ⟨_, rfl⟩
    exact hLocated.frame rfl (fun _ _ => rfl) (fun _ => rfl) rfl (fun _ _ _ _ hGet => hGet)

--
-- What a Removal Removes
--

/- The keys of a ring over all of its pages, in order. -/
def StoredKeys (s : CollectionStore T) (r : RingIndex) (keys : List T.Member) : Prop :=
  ∃ pages, ∀ n, pages ≤ n → (List.range n).flatMap (s.page r) = keys

/-
  The keys of a page that are not suspended: suspending a
  member takes the position of its key off the record.
-/
def CollectionStore.unsuspendedKeys (s : CollectionStore T) (r : RingIndex)
    (p : PageIndex) : List T.Member :=
  ((s.page r p).zipIdx.filter fun x =>
    s.members.get x.1 = some (.included r p x.2)).map Prod.fst

/-
  The ring kept its keys in order, but for the suspended ones, its total counts them, and the
  members that remain point at their keys.
-/
def RemovesExactly (s s' : CollectionStore T) (r : RingIndex) : Prop :=
  ∃ keys, StoredKeys s' r keys ∧ (∃ pages, ∀ n, pages ≤ n →
        (List.range n).flatMap (s.unsuspendedKeys r) = keys) ∧
      (s'.ringStatus r).total = keys.length ∧
      ∀ p i key, (s'.page r p)[i]? = some key → s'.members.get key = some (.included r p i)

/- The first pages hold the first keys. -/
theorem StoredKeys.getElem?_of_pages {keys : List T.Member} {n i : Nat}
    (hStored : StoredKeys s r keys) (hGet : ((List.range n).flatMap (s.page r))[i]? = some key) :
    keys[i]? = some key := by
  rcases hStored with ⟨pages, hKeys⟩
  have hAll := hKeys (n + pages) (Nat.le_add_left pages n)
  rw [List.range_add, List.flatMap_append] at hAll
  have hLt := (List.getElem?_eq_some_iff.mp hGet).1
  rw [← hAll, List.getElem?_append_left hLt]
  exact hGet

theorem flatMap_range_of_single {α : Type} {page : Nat → List α}
    (hSingle : ∀ p, 0 < p → page p = []) {n : Nat} (hPos : 1 ≤ n) :
    (List.range n).flatMap page = page 0 := by
  rcases Nat.exists_eq_add_of_le' hPos with ⟨k, rfl⟩
  rw [List.range_succ_eq_map, List.flatMap_cons]
  have hRest : ((List.range k).map Nat.succ).flatMap page = [] := by
    rw [List.flatMap_eq_nil_iff]
    intro p hMem
    rw [List.mem_map] at hMem
    rcases hMem with ⟨j, _, rfl⟩
    exact hSingle (j + 1) (Nat.succ_pos j)
  rw [hRest, List.append_nil]

/- The kept keys are the ones that are not suspended. -/
theorem Matched.keptKeys_eq (hMatched : Matched s r) (hSorted : (s.pending r).Pairwise (· < ·)) :
    s.keptKeys r = s.unsuspendedKeys r 0 := by
  unfold keptKeys unsuspendedKeys
  rw [removePositions_eq_filter _ ⟨hSorted, fun _ _ => Nat.zero_le _⟩]
  congr 1
  apply List.filter_congr
  rintro ⟨key, i⟩ hMem
  have hHere : (s.page r 0)[i]? = some key := List.mem_zipIdx_iff_getElem?.mp hMem
  have hEntry := hMatched key i
  unfold Occupies at hEntry
  simp only [hHere, true_and] at hEntry
  rw [decide_eq_decide]
  exact hEntry.symm

/- A later page is neither counted nor searched. -/
theorem not_removesExactly {p : PageIndex} (now : Nat) (hInfo : s.collection = some info)
    (hPos : 0 < p) (hPage : s.page r p ≠ []) :
    ¬ RemovesExactly s (s.removeSuspendedKeys now r) r := by
  rintro ⟨keys, ⟨pages, hStored⟩, _, hTotal, _⟩
  have hPages := removeSuspendedKeys_page now r hInfo
  have hFirst : (s.removeSuspendedKeys now r).page r 0 = s.keptKeys r := by
    rw [hPages, if_pos rfl]
  have hLater : (s.removeSuspendedKeys now r).page r p = s.page r p := by
    rw [hPages, if_neg]
    intro hIs
    rw [Prod.mk.injEq] at hIs
    exact Nat.ne_of_gt hPos hIs.2
  have hCount : ((s.removeSuspendedKeys now r).ringStatus r).total = (s.keptKeys r).length := by
    rcases removeSuspendedKeys_eq now r hInfo with ⟨root, oldRoots, stale, ringKeys, _, _, hEq⟩
    rw [hEq]
    simp only [ringStatus, ringStatus_insert, if_true]
  have hKeys := hStored (pages + p + 1) (by omega)
  have hLength : (s.keptKeys r).length + (s.page r p).length ≤ keys.length := by
    rcases Nat.exists_eq_add_of_le' hPos with ⟨q, hq⟩
    have hSplit : pages + p + 1 = 1 + (q + (1 + pages)) := by
      omega
    rw [← hKeys, hSplit, List.range_add, List.flatMap_append,
      List.range_add, List.map_append, List.flatMap_append,
      List.range_add, List.map_append, List.map_append,
      List.flatMap_append]
    simp only [List.range_one, List.flatMap_cons, List.flatMap_nil, List.append_nil, hFirst,
      List.map_cons, List.map_nil, List.length_append,
      Nat.add_zero]
    rw [Nat.add_comm 1 q, ← hq, hLater]
    omega
  have hSome := List.length_pos_iff.mpr hPage
  omega

theorem removesExactly_iff (now : Nat) (hLocated : Located s) (hTracked : Tracked s)
    (hDoomed : (r, 0) ∈ s.ringDeletionQueue → Matched s r) (hInfo : s.collection = some info) :
    RemovesExactly s (s.removeSuspendedKeys now r) r ↔ SinglePage s r := by
  constructor
  · intro hExactly p hPos
    by_contra hPage
    exact not_removesExactly now hInfo hPos hPage hExactly
  · intro hSingle
    have hMatched := KeepsPositions.matched hLocated hTracked hSingle hDoomed
    have hSorted := hTracked.sound.life.pending_sorted r
    have hPlaced := hMatched.recorded.placed_of_removal now hSorted hInfo
    have hPages := removeSuspendedKeys_page now r hInfo
    have hFirst : (s.removeSuspendedKeys now r).page r 0 = s.keptKeys r := by
      rw [hPages, if_pos rfl]
    have hSingle' : SinglePage (s.removeSuspendedKeys now r) r := by
      intro p hPos
      rw [hPages, if_neg]
      · exact hSingle p hPos
      · intro hIs
        rw [Prod.mk.injEq] at hIs
        exact Nat.ne_of_gt hPos hIs.2
    refine ⟨s.keptKeys r, ⟨1, ?_⟩, ⟨1, ?_⟩, ?_, ?_⟩
    · intro n hLe
      rw [flatMap_range_of_single hSingle' hLe, hFirst]
    · intro n hLe
      rw [flatMap_range_of_single ?_ hLe, hMatched.keptKeys_eq hSorted]
      intro p hPos
      unfold unsuspendedKeys
      rw [hSingle p hPos]
      rfl
    · rcases removeSuspendedKeys_eq now r hInfo with ⟨root, oldRoots, stale, ringKeys, _, _, hEq⟩
      rw [hEq]
      simp only [ringStatus, ringStatus_insert, if_true]
    · intro p i key hHere
      have hZero : p = 0 := by
        by_contra hPos
        rw [hSingle' p (Nat.pos_of_ne_zero hPos)] at hHere
        simp at hHere
      rw [hZero, hFirst] at hHere
      rw [hPlaced.1 i key hHere, hZero, Nat.zero_add]

namespace PalletState

/- Every operation on the collection keeps its positions. -/
def PositionsKept (id : Identifier) (s : PalletState T) (o : PalletOp T)
    (_ : PalletState T) : Prop :=
  o.identifier = id → KeepsPositions (s.stores id) o.call.op

theorem located_of_run {id : Identifier} {s : PalletState T}
    (hRun : RunUnder dispatch (PositionsKept id) genesis s)
    (hUsable : (s.stores id).collection = none → (s.stores id).retired = false) :
    Tracked (s.stores id) ∧ Located (s.stores id) := by
  refine store_invariant_of_run (fun id' store => id' = id →
      (store.collection = none → store.retired = false) → Tracked store ∧ Located store)
    hRun ?_ (fun _ _ _ => ⟨tracked_empty, located_empty⟩) id
    rfl hUsable
  intro s s' o store hAllowed hApply _ hOld hId hUsable'
  have hUsable₀ := (ringEffect_of_apply hApply).usable_before hUsable'
  rcases hOld hId hUsable₀ with ⟨hTracked, hLocated⟩
  have hSuspended := hTracked.sound.life.not_suspended hUsable₀
  have hKeeps : KeepsPositions (s.stores o.identifier) o.call.op := by
    rw [hId]
    exact hAllowed hId
  exact ⟨hTracked.apply hSuspended hKeeps.keepsTrack hApply,
    hLocated.apply hTracked hUsable₀ hKeeps hApply⟩

/-
  After a run in which every removal looked at all pages of its ring, a removal takes exactly the
  suspended keys out of a ring if and only if the ring has one page.
-/
theorem removes_suspended_keys (id : Identifier) (s : PalletState T)
    (hRun : RunUnder dispatch (PositionsKept id) genesis s)
    (hLive : (s.stores id).collection.isSome = true)
    (now : Nat) (r : RingIndex) (revision : Option RevisionIndex) (store : CollectionStore T)
    (hRemove : (s.stores id).apply ⟨now, .removeSuspendedKeys r revision⟩ = .ok store)
    (hDoomed : (r, 0) ∈ (s.stores id).ringDeletionQueue → Matched (s.stores id) r) :
    RemovesExactly (s.stores id) store r ↔ SinglePage (s.stores id) r := by
  rcases Option.isSome_iff_exists.mp hLive with ⟨info, hInfo⟩
  have hUsable : (s.stores id).collection = none → (s.stores id).retired = false := by
    intro hNone
    rw [hInfo] at hNone
    exact absurd hNone (Option.some_ne_none info)
  rcases located_of_run hRun hUsable with ⟨hTracked, hLocated⟩
  rw [(removeSuspendedKeysAuthorized_eq_ok hRemove).2.2.2]
  exact removesExactly_iff now hLocated hTracked hDoomed hInfo

--
-- Sample Runs
--

def suspendOps : List (TimedOp sampleConfig) :=
  [⟨0, .createCollection () 1 .flexible .r2e9 none⟩, ⟨0, .addMembers [10, 11, 12]⟩,
    ⟨0, .onboardMembers 0 0 (some (10 : Nat))⟩,
    ⟨0, .startRemovalSession⟩,
    ⟨0, .removeMembers [(11 : Nat)]⟩,
    ⟨0, .endRemovalSession⟩]

def removalOf (r : RingIndex) : PalletOp sampleConfig :=
  ⟨sampleIdentifier, ⟨0, .removeSuspendedKeys r none⟩⟩

theorem positionsKept_of_sparing (s : PalletState sampleConfig) (o : PalletOp sampleConfig)
    (s' : PalletState sampleConfig) (hSparing : sparing s o = true) :
    PositionsKept sampleIdentifier s o s' := by
  intro _
  rcases o with ⟨id, now, op⟩
  cases op with
  | mergeRings b t => simp [sparing] at hSparing
  | removeSuspendedKeys r revision =>
    simp [sparing] at hSparing
  | _ => exact trivial

/- The middle one of three keys is removed. -/
theorem removes_suspended_keys_sample : ∃ (s : PalletState sampleConfig)
        (store : CollectionStore sampleConfig),
      (s.stores sampleIdentifier).page 0 0 = [10, 11, 12] ∧
        (s.stores sampleIdentifier).pending 0 = [1] ∧
        store.page 0 0 = [10, 12] ∧
        RemovesExactly (s.stores sampleIdentifier) store 0 := by
  have hTest : (performAll sparing suspendOps).any (fun s =>
        let store := s.stores sampleIdentifier
        (store.collection.any fun info => info.mode = .flexible) ∧ store.page 0 0 = [10, 11, 12]
          ∧ store.pending 0 = [1]
          ∧ (0, 0) ∉ store.ringDeletionQueue
          ∧ (store.apply (removalOf 0).call).toOption.any fun store' => store'.page 0 0 = [10, 12])
        = true := by
    decide +kernel
  have hReached : ∃ s, RunUnder dispatch (PositionsKept sampleIdentifier) genesis s ∧ _ :=
    exists_run_of_execute (fun s o s' hSparing _ => positionsKept_of_sparing s o s' hSparing) hTest
  rcases hReached with ⟨s, hRun, hStore⟩
  simp only [decide_eq_true_eq] at hStore
  rcases hStore with ⟨hFlexible, hPage, hPending, hNot, hNext⟩
  simp only [Option.any_eq_true, decide_eq_true_eq] at hFlexible
  rcases hFlexible with ⟨info, hInfo, hMode⟩
  rcases Except.exists_ok_of_any hNext with ⟨store, hRemove, hAfter⟩
  rw [decide_eq_true_eq] at hAfter
  have hLive : (s.stores sampleIdentifier).collection.isSome = true := by
    rw [hInfo]
    rfl
  have hSingle : SinglePage (s.stores sampleIdentifier) 0 := by
    refine (located_of_run hRun ?_).1.flexible hLive ?_ 0
    · intro hNone
      rw [hInfo] at hNone
      exact absurd hNone (Option.some_ne_none info)
    · intro info' hSame
      rw [hInfo, Option.some.injEq] at hSame
      rw [← hSame]
      exact hMode
  refine ⟨s, store, hPage, hPending, hAfter, ?_⟩
  exact (removes_suspended_keys sampleIdentifier s hRun hLive 0
    0 none store hRemove fun hMem => absurd hMem hNot).mpr
    hSingle

--
-- Stores Written Out
--

deriving instance DecidableEq for CollectionInfo

instance {n : Nat} : DecidableEq (BoundedVec Nat n) :=
  fun xs ys =>
    decidable_of_iff (xs.toList = ys.toList) (by
      rcases xs with ⟨xs, hXs⟩
      rcases ys with ⟨ys, hYs⟩
      simp)

/- A store is the one written out.  Both have built no root, so that roots need not be compared. -/
def sameStore (t s : CollectionStore sampleConfig) : Bool :=
  s.collection = t.collection && s.suspendedCollection = t.suspendedCollection
    && s.retired = t.retired
    && s.currentRingIndex = t.currentRingIndex
    && s.onboardingSize = t.onboardingSize
    && s.ringKeys.entries = t.ringKeys.entries
    && s.ringKeysStatus.entries = t.ringKeysStatus.entries
    && s.pendingSuspensions.entries = t.pendingSuspensions.entries
    && s.activeMembers = t.activeMembers
    && s.members.entries = t.members.entries
    && s.ringsState = t.ringsState
    && s.staleRings = t.staleRings
    && s.queueHead = t.queueHead
    && s.queueTail = t.queueTail
    && s.onboardingQueue.entries = t.onboardingQueue.entries
    && s.ringDeletionQueue = t.ringDeletionQueue
    && (s.root.entries.isEmpty && t.root.entries.isEmpty)
    && (s.oldRoots.entries.isEmpty && t.oldRoots.entries.isEmpty)
    && (s.rootChanges.isEmpty && t.rootChanges.isEmpty)

theorem eq_of_sameStore {s t : CollectionStore sampleConfig} (hSame : sameStore t s = true) :
    s = t := by
  simp only [sameStore, Bool.and_eq_true, decide_eq_true_eq, List.isEmpty_iff] at hSame
  rcases hSame with ⟨⟨⟨⟨⟨⟨⟨⟨⟨⟨⟨⟨⟨⟨⟨⟨⟨⟨hInfo, hSuspended⟩, hRetired⟩, hIndex⟩,
      hSize⟩, hKeys⟩, hStatus⟩, hPending⟩, hActive⟩, hMembers⟩, hState⟩,
      hStale⟩, hHead⟩, hTail⟩, hQueue⟩, hDeletion⟩, hRoot⟩, hOld⟩, hChanges⟩
  rcases s
  rcases t
  simp only at *
  subst hInfo hSuspended hRetired hIndex hSize hActive hState hStale
  subst hHead hTail hDeletion
  rw [AList.ext hKeys, AList.ext hStatus, AList.ext hPending, AList.ext hMembers,
    AList.ext hQueue, AList.ext (hRoot.1.trans hRoot.2.symm),
    AList.ext (hOld.1.trans hOld.2.symm), hChanges.1, hChanges.2]

def entriesAt (f : Nat → RingPosition) (keys : List Nat) :
    List (Sigma fun _ : Nat => RingPosition) :=
  keys.map fun k => ⟨k, f k⟩

theorem nodupKeys_entriesAt {f : Nat → RingPosition} {keys : List Nat} (hNodup : keys.Nodup) :
    (entriesAt f keys).NodupKeys := by
  rw [List.NodupKeys, List.keys, entriesAt, List.map_map]
  exact (List.map_id keys).symm ▸ hNodup

/- As many members as a page has room for were added. -/
def queuedStore : CollectionStore sampleConfig :=
  { CollectionStore.empty with
    collection := some ⟨.external (), .appendOnly, .r2e10, none⟩
    onboardingSize := 1
    members := ⟨entriesAt (fun _ => .onboarding 0 0) (List.range 255).reverse,
        nodupKeys_entriesAt (List.nodup_reverse.mpr List.nodup_range)⟩
    onboardingQueue := ⟨[⟨0, ⟨List.range 255, show (List.range 255).length ≤ 255 by simp⟩⟩],
        List.nodupKeys_singleton _⟩ }

def filledStore : CollectionStore sampleConfig :=
  { queuedStore with
    ringKeys := ⟨[⟨(0, 0), ⟨List.range 255, show (List.range 255).length ≤ 255 by simp⟩⟩],
        List.nodupKeys_singleton _⟩
    ringKeysStatus := ⟨[⟨0, { total := 255 }⟩], List.nodupKeys_singleton _⟩
    activeMembers := 255
    members := ⟨entriesAt (fun k => .included 0 0 k) (List.range 255).reverse,
        nodupKeys_entriesAt (List.nodup_reverse.mpr List.nodup_range)⟩
    staleRings := {0}
    onboardingQueue := .empty }

/- The first page after the removal of key 3. -/
def keptPage : RingPage sampleConfig :=
  ⟨[0, 1, 2] ++ List.range' 4 251,
    show ([0, 1, 2] ++ List.range' 4 251).length ≤ 255 by simp⟩

/- Where key 3 was removed, and 255 is on the next page. -/
def keptPosition (k : Nat) : RingPosition :=
  if k = 3 then .suspended
  else if k = 255 then .included 0 1 0
  else .included 0 0 (if k < 3 then k else k - 1)

def keptKeys : List Nat :=
  (List.range' 4 251).reverse ++ [2, 1, 0, 3, 255]

theorem keptKeys_nodup : keptKeys.Nodup := by
  rw [keptKeys, List.nodup_append]
  refine ⟨List.nodup_reverse.mpr List.nodup_range', by decide, ?_⟩
  intro a hLeft b hRight hSame
  rw [List.mem_reverse, List.mem_range'_1] at hLeft
  simp only [List.mem_cons, List.not_mem_nil, or_false] at hRight
  omega

def keptStore : CollectionStore sampleConfig :=
  { filledStore with
    ringKeys := ⟨[⟨(0, 0), keptPage⟩, ⟨(0, 1), queuedAlone 255⟩], by
        unfold List.NodupKeys
        decide⟩
    ringKeysStatus := ⟨[⟨0, { total := 254 }⟩], List.nodupKeys_singleton _⟩
    activeMembers := 254
    members := ⟨entriesAt keptPosition keptKeys, nodupKeys_entriesAt keptKeys_nodup⟩ }

--
-- A Ring of Two Pages
--

/- One more member, which is put before the key it follows. -/
def followUp : PalletOp sampleConfig :=
  ⟨sampleIdentifier, ⟨0, .addMembers [(256 : Nat)]⟩⟩

def followOnboard : TimedOp sampleConfig :=
  ⟨0, .onboardMembers 0 0 (some (256 : Nat))⟩

/- The collection, and key number 254 of its first two pages. -/
def spilled (s : PalletState sampleConfig) (key : Nat) : Bool :=
  let store := s.stores sampleIdentifier
  store.collection.isSome ∧ store.currentRingIndex = 0 ∧ store.page 0 1 = [(255 : Nat)]
    ∧ ((List.range 2).flatMap (store.page 0))[254]? = some key

theorem queued_of_create :
    (performAll (fun _ _ => true)
      [⟨0, .createCollection () 1 .appendOnly .r2e10 none⟩, ⟨0, .addMembers (List.range 255)⟩]).any
      (fun s => sameStore queuedStore (s.stores sampleIdentifier)) = true := by
  decide +kernel

theorem filled_of_queued :
    (queuedStore.apply ⟨0, .onboardMembers 0 0 (some (0 : Nat))⟩).toOption.any
      (sameStore filledStore) = true := by
  decide +kernel

def spilledStore (store : CollectionStore sampleConfig) (key : Nat) : Bool :=
  store.collection.isSome ∧ store.currentRingIndex = 0 ∧ store.page 0 1 = [(255 : Nat)]
    ∧ ((List.range 2).flatMap (store.page 0))[254]? = some key

/- One place of the next page is filled, and key 3 leaves. -/
theorem kept_of_filled :
    (filledStore.apply ⟨0, .addMembers [(255 : Nat)]⟩).toOption.any (fun s₁ =>
      (s₁.apply ⟨0, .onboardMembers 0 0 (some (255 : Nat))⟩).toOption.any fun s₂ =>
        (s₂.apply ⟨0, .startRemovalSession⟩).toOption.any fun s₃ =>
          (s₃.apply ⟨0, .removeMembers [(3 : Nat)]⟩).toOption.any fun s₄ =>
            (s₄.apply ⟨0, .endRemovalSession⟩).toOption.any fun s₅ =>
              spilledStore s₅ 254 && (s₅.apply (removalOf 0).call).toOption.any
                  (sameStore keptStore)) = true := by
  decide +kernel

theorem spilled_of_kept :
    (keptStore.apply followUp.call).toOption.any (fun s₁ =>
      spilledStore s₁ 255 && (s₁.apply followOnboard).toOption.any fun s₂ =>
          ((List.range 2).flatMap (s₂.page 0))[254]? = some (256 : Nat)) = true := by
  decide +kernel

variable {test : CollectionStore sampleConfig → Bool} {ids : OwnerMap sampleConfig}

theorem exists_dispatch {s : PalletState sampleConfig} {op : Op sampleConfig}
    (hIds : s.updateIdentifiers sampleIdentifier op = .ok ids)
    (hNext : ((s.stores sampleIdentifier).apply ⟨0, op⟩).toOption.any test = true) :
    ∃ s', s.dispatch ⟨sampleIdentifier, ⟨0, op⟩⟩ = .ok s'
      ∧ test (s'.stores sampleIdentifier) = true := by
  rcases Except.exists_ok_of_any hNext with ⟨store, hApply, hTest⟩
  rcases dispatch_of_apply (s := s) (o := ⟨sampleIdentifier, ⟨0, op⟩⟩) hApply hIds with
    ⟨s', hDispatch, hStore⟩
  refine ⟨s', hDispatch, ?_⟩
  rw [show s'.stores sampleIdentifier = store from hStore]
  exact hTest

theorem exists_next {s : PalletState sampleConfig} {op : Op sampleConfig}
    (hRun : RunUnder dispatch (fun _ _ _ => True) genesis s)
    (hIds : s.updateIdentifiers sampleIdentifier op = .ok ids)
    (hNext : ((s.stores sampleIdentifier).apply ⟨0, op⟩).toOption.any test = true) :
    ∃ s', RunUnder dispatch (fun _ _ _ => True) genesis s' ∧
      test (s'.stores sampleIdentifier) = true := by
  rcases exists_dispatch hIds hNext with ⟨s', hDispatch, hTest⟩
  exact ⟨s', hRun.snoc trivial hDispatch, hTest⟩

/- A run to a ring of two pages, and the removal of key 3. -/
theorem exists_kept : ∃ s s₁ : PalletState sampleConfig,
    RunUnder dispatch (fun _ _ _ => True) genesis s ∧ spilled s 254 = true ∧
      s.dispatch (removalOf 0) = .ok s₁ ∧
      s₁.stores sampleIdentifier = keptStore := by
  rcases exists_run_of_execute (fun _ _ _ _ _ => trivial) queued_of_create with ⟨s₂, hRun₂, hQueued⟩
  have hFilled := filled_of_queued
  rw [← eq_of_sameStore hQueued] at hFilled
  rcases exists_next hRun₂ rfl hFilled with ⟨s₃, hRun₃, hSame₃⟩
  have hNext := kept_of_filled
  rw [← eq_of_sameStore hSame₃] at hNext
  rcases exists_next hRun₃ rfl hNext with ⟨s₄, hRun₄, hNext₄⟩
  rcases exists_next hRun₄ rfl hNext₄ with ⟨s₅, hRun₅, hNext₅⟩
  rcases exists_next hRun₅ rfl hNext₅ with ⟨s₆, hRun₆, hNext₆⟩
  rcases exists_next hRun₆ rfl hNext₆ with ⟨s₇, hRun₇, hNext₇⟩
  rcases exists_next hRun₇ rfl hNext₇ with ⟨s, hRun, hLast⟩
  rw [Bool.and_eq_true] at hLast
  rcases exists_dispatch rfl hLast.2 with ⟨s₁, hRemove, hKept⟩
  exact ⟨s, s₁, hRun, hLast.1, hRemove, eq_of_sameStore hKept⟩

/- A key is suspended on the first of two pages and removed, and one more member is onboarded. -/
theorem exists_spill : ∃ (s s₁ s₂ : PalletState sampleConfig)
        (store : CollectionStore sampleConfig),
      RunUnder dispatch (fun _ _ _ => True) genesis s ∧ spilled s 254 = true ∧
        s.dispatch (removalOf 0) = .ok s₁ ∧
        s₁.dispatch followUp = .ok s₂ ∧
        spilled s₂ 255 = true ∧
        (s₂.stores sampleIdentifier).apply followOnboard = .ok store ∧
        ((List.range 2).flatMap (store.page 0))[254]? = some (256 : Nat) := by
  rcases exists_kept with ⟨s, s₁, hRun, hSpilled, hRemove, hKept⟩
  have hNext := spilled_of_kept
  rw [← hKept] at hNext
  rcases exists_dispatch rfl hNext with ⟨s₂, hAdd, hLast⟩
  rw [Bool.and_eq_true] at hLast
  rcases Except.exists_ok_of_any hLast.2 with ⟨store, hOnboard, hAfter⟩
  rw [decide_eq_true_eq] at hAfter
  exact ⟨s, s₁, s₂, store, hRun, hSpilled, hRemove, hAdd, hLast.1, hOnboard, hAfter⟩

/-
  The total of a ring of two pages counts the keys of the
  first one only after one of them was removed.
-/
theorem later_page_uncounted : ∃ (s : PalletState sampleConfig)
        (store : CollectionStore sampleConfig),
      RunUnder dispatch (fun _ _ _ => True) genesis s ∧
        (s.stores sampleIdentifier).collection.isSome = true ∧
        (s.stores sampleIdentifier).apply (removalOf 0).call = .ok store ∧
        ¬ RemovesExactly (s.stores sampleIdentifier) store 0 := by
  rcases exists_spill with ⟨s, s₁, _, _, hRun, hSpilled, hRemove, _⟩
  simp only [spilled, decide_eq_true_eq] at hSpilled
  rcases hSpilled with ⟨hLive, _, hPage, _⟩
  rcases dispatch_eq_ok hRemove with ⟨store, hApply, _⟩
  rcases Option.isSome_iff_exists.mp hLive with ⟨info, hInfo⟩
  refine ⟨s, store, hRun, hLive, hApply, ?_⟩
  rw [(removeSuspendedKeysAuthorized_eq_ok hApply).2.2.2]
  apply not_removesExactly 0 hInfo Nat.one_pos
  rw [hPage]
  exact List.cons_ne_nil _ _

end PalletState

end Individuality.MembersPallet
