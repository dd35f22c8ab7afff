import Individuality.MembersPallet.RingEffect
import Individuality.MembersPallet.Sample

/-
  What holds of a collection in every reachable state: rings are created in order, a deleted
  identifier stays retired, and keys that no ring counts wait for their deletion.

  Main declaration: `Lifecycle`
-/

namespace Individuality.MembersPallet

open StorageMap (getD_insert getD_remove get_insert get_remove)

variable {T : Config} {s s' : CollectionStore T} {info : CollectionInfo T}
variable {top : CollectionStore.AvailableRing T} {new : List T.Member}

open CollectionStore

--
-- The Invariant
--

structure Lifecycle (s : CollectionStore T) : Prop where
  current_le : s.currentRingIndex ≤ u32Max
  live_not_suspended : s.collection.isSome = true → s.suspendedCollection = none
  suspended_retired : s.suspendedCollection.isSome = true → s.retired = true
  unused : s.collection = none → s.retired = false →
      (∀ r p, s.page r p = []) ∧
        (∀ r, (s.ringStatus r).total = 0) ∧
        s.ringDeletionQueue = ∅
  page_le :
    s.collection.isSome = true → ∀ r p, s.page r p ≠ [] → r ≤ s.currentRingIndex
  total_le : s.collection.isSome = true →
      ∀ r, 0 < (s.ringStatus r).total → r ≤ s.currentRingIndex
  queued_lt :
    s.collection.isSome = true → ∀ r, s.ringQueued r → r < s.currentRingIndex
  page_counted : ∀ r, s.page r 0 ≠ [] →
      (r, 0) ∈ s.ringDeletionQueue ∨ 0 < (s.ringStatus r).total
  pending_sorted : ∀ r, (s.pending r).Pairwise (· < ·)
  size_allowed : ∀ info, s.collection = some info →
      flexibleSizeAllowed T info.mode info.ringSize

theorem Lifecycle.not_suspended (hLife : Lifecycle s)
    (hUsable : s.collection = none → s.retired = false) :
    s.suspendedCollection = none := by
  by_contra hSome
  have hIsSome : s.suspendedCollection.isSome = true := Option.isSome_iff_ne_none.mpr hSome
  have hRetired := hLife.suspended_retired hIsSome
  cases hInfo : s.collection with
  | none =>
    rw [hUsable hInfo] at hRetired
    exact Bool.false_ne_true hRetired
  | some info =>
    exact hSome (hLife.live_not_suspended (by
      rw [hInfo]
      rfl))

theorem lifecycle_empty :
    Lifecycle (CollectionStore.empty : CollectionStore T) where
  current_le := Nat.zero_le _
  live_not_suspended := fun _ => rfl
  suspended_retired := fun hSome => by
    simp [CollectionStore.empty] at hSome
  unused := fun _ _ => ⟨fun _ _ => rfl, fun _ => rfl, rfl⟩
  page_le := fun _ _ _ hPage => absurd rfl hPage
  total_le := fun _ _ hTotal => absurd hTotal (Nat.lt_irrefl 0)
  queued_lt := fun hSome => by
    simp [CollectionStore.empty] at hSome
  page_counted := fun _ hPage => absurd rfl hPage
  pending_sorted := fun _ => List.Pairwise.nil
  size_allowed := fun _ hInfo => by
    simp [CollectionStore.empty] at hInfo

--
-- Reads after a Write
--

theorem ringStatus_insert (m : StorageMap RingIndex RingStatus) (r r' : RingIndex)
    (status : RingStatus) :
    (m.insert r status).getD r' {} =
      if r' = r then status else m.getD r' {} :=
  getD_insert m r status r' {}

/- The pages that are counted are those with a key on them. -/
theorem lt_pageCount_iff {pageSize total p : Nat} (hSize : 0 < pageSize) :
    p < pageCount pageSize total ↔ p * pageSize < total := by
  have hDiv := Nat.div_add_mod' total pageSize
  have hMod := Nat.mod_lt total hSize
  unfold pageCount
  constructor
  · intro hLt
    have hLe : p ≤ total / pageSize := by
      split_ifs at hLt <;> omega
    rcases Nat.lt_or_eq_of_le hLe with hBelow | hEq
    · calc
        p * pageSize < (p + 1) * pageSize := Nat.mul_lt_mul_of_pos_right (Nat.lt_succ_self p) hSize
        _ ≤ total / pageSize * pageSize := Nat.mul_le_mul_right pageSize hBelow
        _ ≤ total := Nat.div_mul_le_self total pageSize
    · rw [hEq] at hLt ⊢
      split_ifs at hLt <;> omega
  · intro hLt
    have hLe : p ≤ total / pageSize := (Nat.le_div_iff_mul_le hSize).mpr (Nat.le_of_lt hLt)
    rcases Nat.lt_or_eq_of_le hLe with hBelow | hEq
    · exact Nat.lt_of_lt_of_le hBelow (Nat.le_add_right _ _)
    · rw [hEq] at hLt ⊢
      split_ifs <;> omega

/- The available ring is not before the current ring. -/
theorem availableRing_index (maxRingSize : Nat) (hLe : s.currentRingIndex ≤ u32Max) :
    s.currentRingIndex ≤ (s.availableRing maxRingSize).2.ringIndex ∧
      (s.availableRing maxRingSize).2.ringIndex ≤ u32Max := by
  rcases availableRing_cases s maxRingSize with ⟨_, hEq⟩ | ⟨_, hEq⟩
  · rw [hEq]
    exact ⟨Nat.le_refl _, hLe⟩
  · rw [hEq]
    exact ⟨le_saturatingAdd hLe 1, saturatingAdd_le _ _ _⟩

/- Collecting keys for a build leaves the total alone. -/
theorem collectKeys_total
    (s : CollectionStore T) (r : RingIndex) (passes : Nat) (status : RingStatus) (toInclude : Nat)
    (keys : List T.Member) :
    (s.collectKeys r passes status toInclude keys).1.total = status.total := by
  induction passes generalizing status toInclude keys with
  | zero => rfl
  | succ passes ih =>
    unfold collectKeys
    simp only
    split_ifs
    · rfl
    · rfl
    · rw [ih]

/- Suspending a member keeps the pending lists sorted. -/
theorem suspendMember_pending_sorted {key : T.Member} (hSuspend : suspendMember s key = .ok s')
    (hSorted : ∀ r, (s.pending r).Pairwise (· < ·)) :
    ∀ r, (s'.pending r).Pairwise (· < ·) := by
  intro r'
  rcases suspendMember_cases hSuspend with ⟨r, p, i, indices, _, hNew, hIndices, rfl⟩
      | ⟨q, t, _, rfl⟩ | ⟨_, rfl⟩
  · simp only [pending, getD_insert]
    split_ifs with hEq
    · rw [hIndices]
      exact pairwise_lt_orderedInsert (hSorted r) hNew
    · exact hSorted r'
  · unfold suspendQueued
    split <;> exact hSorted r'
  · exact hSorted r'

/- Dropping the pending list of a ring keeps the others. -/
theorem pending_sorted_remove (r : RingIndex) (hSorted : ∀ r, (s.pending r).Pairwise (· < ·)) :
    ∀ r', ((s.pendingSuspensions.remove r).getD r' .empty).toList.Pairwise (· < ·) := by
  intro r'
  rw [getD_remove]
  split_ifs
  · exact List.Pairwise.nil
  · exact hSorted r'

--
-- Every Effect Keeps It
--

theorem lifecycle_of_addition (hLife : Lifecycle s) (hNew : new ≠ [])
    (hAddition : Addition s s' info top new) :
    Lifecycle s' := by
  have hLive : s.collection.isSome = true := by
    rw [hAddition.collection]
    rfl
  have hIndex := availableRing_index info.ringSize.ringCapacity hLife.current_le
  rw [hAddition.available] at hIndex
  rcases hAddition.writes with ⟨filled, members, ringKeys, head, queue, stale, hPages, rfl⟩
  have hCurrent : s.currentRingIndex ≤ top.ringIndex ∧ top.ringIndex ≤
          (if filled then saturatingAdd u32Max top.ringIndex 1
          else top.ringIndex) ∧
        (if filled then saturatingAdd u32Max top.ringIndex 1 else top.ringIndex) ≤ u32Max := by
    refine ⟨hIndex.1, ?_, ?_⟩
    · split_ifs
      · exact le_saturatingAdd hIndex.2 1
      · exact Nat.le_refl _
    · split_ifs
      · exact saturatingAdd_le _ _ _
      · exact hIndex.2
  have hPage : ∀ r p, r ≠ top.ringIndex → CollectionStore.page
          { s with ringKeys := ringKeys } r p = s.page r p :=
    hPages
  refine ⟨hCurrent.2.2, hLife.live_not_suspended, hLife.suspended_retired, ?_, ?_, ?_, ?_, ?_,
    hLife.pending_sorted, hLife.size_allowed⟩
  · intro hNone
    exact absurd hLive (by simp [show s.collection = none from
      hNone])
  · intro _ r p hNe
    by_cases hTop : r = top.ringIndex
    · rw [hTop]
      exact hCurrent.2.1
    · have hOld := hLife.page_le hLive r p (by
        rw [← hPage r p hTop]
        exact hNe)
      exact le_trans hOld (le_trans hCurrent.1 hCurrent.2.1)
  · intro _ r hTotal
    by_cases hTop : r = top.ringIndex
    · rw [hTop]
      exact hCurrent.2.1
    · simp only [ringStatus, ringStatus_insert, if_neg hTop] at hTotal
      have hOld := hLife.total_le hLive r hTotal
      exact le_trans hOld (le_trans hCurrent.1 hCurrent.2.1)
  · intro _ r hQueued
    have hOld := hLife.queued_lt hLive r hQueued
    exact lt_of_lt_of_le hOld (le_trans hCurrent.1 hCurrent.2.1)
  · intro r hNe
    by_cases hTop : r = top.ringIndex
    · right
      simp only [ringStatus, ringStatus_insert, if_pos hTop]
      exact saturatingAdd_pos (by decide) (List.length_pos_iff.mpr hNew)
    · simp only [ringStatus, ringStatus_insert, if_neg hTop]
      apply hLife.page_counted r
      rw [← hPage r 0 hTop]
      exact hNe

variable {op : Op T}

theorem RingEffect.lifecycle (hEffect : RingEffect s op s') (hLife : Lifecycle s) :
    Lifecycle s' := by
  cases hEffect with
  | quiet op head tail queue members stale oldRoots size =>
    exact ⟨hLife.current_le, hLife.live_not_suspended,
      hLife.suspended_retired, hLife.unused, hLife.page_le,
      hLife.total_le, hLife.queued_lt, hLife.page_counted,
      hLife.pending_sorted, hLife.size_allowed⟩
  | created op info size hNone hSuspended hRetired hSize =>
    rcases hLife.unused hNone hRetired with ⟨hPages, hTotals, hQueue⟩
    refine ⟨hLife.current_le, fun _ => hSuspended,
      hLife.suspended_retired, ?_, ?_, ?_, ?_,
      hLife.page_counted, hLife.pending_sorted, ?_⟩
    · intro hNo
      simp at hNo
    · intro _ r p hNe
      exact absurd (hPages r p) hNe
    · intro _ r hTotal
      have hZero := hTotals r
      exact absurd hTotal (by
        rw [Nat.not_lt, Nat.le_zero]
        exact hZero)
    · rintro _ r ⟨e, hMem, _⟩
      simp [hQueue] at hMem
    · rintro info' hInfo
      simp only [Option.some.injEq] at hInfo
      rw [← hInfo]
      exact hSize
  | dropped op info hInfo =>
    refine ⟨hLife.current_le, ?_, fun _ => rfl, ?_, ?_, ?_,
      ?_, hLife.page_counted, hLife.pending_sorted, ?_⟩
    · intro hSome
      simp at hSome
    · intro _ hRetired
      simp at hRetired
    · intro hSome
      simp at hSome
    · intro hSome
      simp at hSome
    · intro hSome
      simp at hSome
    · intro info' hInfo
      simp at hInfo
  | sessionStarted state hState =>
    exact ⟨hLife.current_le, hLife.live_not_suspended,
      hLife.suspended_retired, hLife.unused, hLife.page_le,
      hLife.total_le, hLife.queued_lt, hLife.page_counted,
      hLife.pending_sorted, hLife.size_allowed⟩
  | sessionEnded state =>
    exact ⟨hLife.current_le, hLife.live_not_suspended,
      hLife.suspended_retired, hLife.unused, hLife.page_le,
      hLife.total_le, hLife.queued_lt, hLife.page_counted,
      hLife.pending_sorted, hLife.size_allowed⟩
  | suspended keys pendingSuspensions queue members
      hMutating hFold =>
      refine ⟨hLife.current_le, hLife.live_not_suspended,
        hLife.suspended_retired, hLife.unused, hLife.page_le,
        hLife.total_le, hLife.queued_lt, hLife.page_counted,
        ?_, hLife.size_allowed⟩
      exact List.foldlM_invariant (fun x => ∀ r, (x.pending r).Pairwise (· < ·)) hFold
        (fun _ _ _ _ hStep => suspendMember_pending_sorted hStep)
        hLife.pending_sorted
  | added op s' info top hOp hNew hAddition =>
    exact lifecycle_of_addition hLife hNew hAddition
  | built op info r toInclude i root stale oldRoots
      immutableSince hInfo =>
      have hTotal : ∀ r', (StorageMap.getD (s.ringKeysStatus.insert r
                { (s.collectKeys r toInclude (s.ringStatus r)
                    toInclude []).1 with
                  immutableSince := immutableSince })
              r' {}).total
              = (s.ringStatus r').total := by
        intro r'
        rw [ringStatus_insert]
        split_ifs with hEq
        · rw [hEq]
          exact collectKeys_total s r toInclude _ _ _
        · rfl
      refine ⟨hLife.current_le, hLife.live_not_suspended,
        hLife.suspended_retired, ?_, hLife.page_le, ?_,
        hLife.queued_lt, ?_, hLife.pending_sorted,
        hLife.size_allowed⟩
      · intro hNone
        simp [show s.collection = none from hNone] at hInfo
      · intro hLive r' hPos
        exact hLife.total_le hLive r' (lt_of_lt_of_eq hPos (hTotal r'))
      · intro r' hNe
        rcases hLife.page_counted r' hNe with hMem | hPos
        · exact Or.inl hMem
        · exact Or.inr (lt_of_lt_of_eq hPos (hTotal r').symm)
  | merged b t info f root oldRoots changes stale hInfo hMode
      hNe hBaseNe hTargetNe hBase hTarget hLengths
      hBasePending hTargetPending hKeys hFold hRoot hChanges =>
      have hLive : s.collection.isSome = true := by
        rw [hInfo]
        rfl
      have hBaseLe := hLife.page_le hLive b 0 hBase
      refine ⟨hLife.current_le, hLife.live_not_suspended,
        hLife.suspended_retired, ?_, ?_, ?_, hLife.queued_lt,
        ?_, hLife.pending_sorted, hLife.size_allowed⟩
      · intro hNone
        simp [show s.collection = none from hNone] at hInfo
      · intro _ r p hPage
        simp only [CollectionStore.page, ringPage, getD_remove, getD_insert]
          at hPage
        split_ifs at hPage with hT hB
        · exact absurd rfl hPage
        · rw [Prod.mk.injEq] at hB
          rw [hB.1]
          exact hBaseLe
        · exact hLife.page_le hLive r p hPage
      · intro _ r hTotal
        simp only [ringStatus, getD_remove, getD_insert] at hTotal
        split_ifs at hTotal with hT hB
        · exact absurd hTotal (Nat.lt_irrefl 0)
        · rw [hB]
          exact hBaseLe
        · exact hLife.total_le hLive r hTotal
      · intro r hPage
        simp only [CollectionStore.page, ringPage, ringStatus, getD_remove, getD_insert,
          Prod.mk.injEq, and_true] at hPage ⊢
        split_ifs at hPage ⊢ with hT hB
        · exact absurd rfl hPage
        · right
          exact saturatingAdd_pos (by decide) (List.length_pos_iff.mpr hTarget)
        · exact hLife.page_counted r hPage
  | reset r revision info root oldRoots stale ringKeys hInfo
      hPending hRoot hPages =>
      have hLive : s.collection.isSome = true := by
        rw [hInfo]
        rfl
      have hKept : s.keptKeys r ≠ [] → r ≤ s.currentRingIndex := by
        intro hNe
        apply hLife.page_le hLive r 0
        intro hNil
        apply hNe
        simp [keptKeys, hNil, removePositions]
      refine ⟨hLife.current_le, hLife.live_not_suspended,
        hLife.suspended_retired, ?_, ?_, ?_, hLife.queued_lt,
        ?_, pending_sorted_remove r hLife.pending_sorted,
        hLife.size_allowed⟩
      · intro hNone
        simp [show s.collection = none from hNone] at hInfo
      · intro _ r' p hPage
        rw [CollectionStore.page, ringPage, hPages] at hPage
        split_ifs at hPage with hEq
        · rw [Prod.mk.injEq] at hEq
          rw [hEq.1]
          exact hKept hPage
        · exact hLife.page_le hLive r' p hPage
      · intro _ r' hTotal
        simp only [ringStatus, ringStatus_insert] at hTotal
        split_ifs at hTotal with hEq
        · rw [hEq]
          exact hKept (List.length_pos_iff.mp hTotal)
        · exact hLife.total_le hLive r' hTotal
      · intro r' hPage
        rw [CollectionStore.page, ringPage, hPages] at hPage
        simp only [ringStatus, ringStatus_insert, Prod.mk.injEq, and_true] at hPage ⊢
        split_ifs at hPage ⊢ with hEq
        · exact Or.inr (List.length_pos_iff.mpr hPage)
        · exact hLife.page_counted r' hPage
  | enqueued op r root oldRoots changes stale hOp =>
    refine ⟨hLife.current_le, hLife.live_not_suspended,
      hLife.suspended_retired, ?_, hLife.page_le, ?_, ?_, ?_,
      pending_sorted_remove r hLife.pending_sorted,
      hLife.size_allowed⟩
    · intro hNone hRetired
      rcases hOp with ⟨_, hLive, _⟩ | ⟨_, hSuspended⟩
      · simp [show s.collection = none from hNone] at hLive
      · have hGone := hLife.suspended_retired hSuspended
        rw [show s.retired = false from hRetired] at hGone
        exact absurd hGone (by decide)
    · intro hLive r' hTotal
      simp only [ringStatus, getD_remove] at hTotal
      split_ifs at hTotal with hEq
      · exact absurd hTotal (Nat.lt_irrefl 0)
      · exact hLife.total_le hLive r' hTotal
    · intro hLive r' hQueued
      rcases hQueued with ⟨⟨r'', p⟩, hMem, rfl⟩
      rw [Finset.mem_union, mem_ringPageEntries_iff] at hMem
      rcases hMem with hOld | ⟨rfl, hPage⟩
      · exact hLife.queued_lt hLive r'' ⟨_, hOld, rfl⟩
      · rcases hOp with ⟨_, _, hNe, _⟩ | ⟨_, hSuspended⟩
        · have hTotal : 0 < (s.ringStatus r'').total := by
            by_contra hZero
            have hZero : (s.ringStatus r'').total = 0 := by
              omega
            simp [hZero, pageCount] at hPage
          have hLe := hLife.total_le hLive r'' hTotal
          exact lt_of_le_of_ne hLe hNe
        · have hNot := hLife.live_not_suspended hLive
          simp [hNot] at hSuspended
    · intro r' hPage
      simp only [ringStatus, getD_remove, Finset.mem_union, mem_ringPageEntries_iff]
      rcases hLife.page_counted r' hPage with hMem | hTotal
      · exact Or.inl (Or.inl hMem)
      · by_cases hEq : r' = r
        · left
          right
          rw [hEq] at hTotal
          refine ⟨hEq, ?_⟩
          rw [lt_pageCount_iff T.flexibleRingCapacity_pos, Nat.zero_mul]
          exact hTotal
        · rw [if_neg hEq]
          exact Or.inr hTotal
  | pageDeleted r p hMem =>
    have hPageSub : ∀ r' p', CollectionStore.page
            { s with
              ringKeys := s.ringKeys.remove (r, p) } r' p'
          = if (r', p') = (r, p) then [] else s.page r' p' := by
      intro r' p'
      simp only [CollectionStore.page, ringPage, getD_remove]
      split_ifs <;> rfl
    refine ⟨hLife.current_le, hLife.live_not_suspended,
      hLife.suspended_retired, ?_, ?_, hLife.total_le, ?_,
      ?_, hLife.pending_sorted, hLife.size_allowed⟩
    · intro hNone hRetired
      have hQueue := (hLife.unused hNone hRetired).2.2
      simp [hQueue] at hMem
    · intro hLive r' p' hPage
      apply hLife.page_le hLive r' p'
      intro hNil
      apply hPage
      have hSub := hPageSub r' p'
      rw [hNil] at hSub
      exact hSub.trans (ite_self [])
    · rintro hLive r' ⟨e, hE, hIndex⟩
      exact hLife.queued_lt hLive r' ⟨e, Finset.mem_of_mem_erase hE, hIndex⟩
    · intro r' hPage
      have hSub := hPageSub r' 0
      by_cases hEq : (r', 0) = (r, p)
      · rw [if_pos hEq] at hSub
        exact absurd hSub hPage
      · rw [if_neg hEq] at hSub
        rcases hLife.page_counted r' (by
            rw [← hSub]
            exact hPage) with hOld | hTotal
        · exact Or.inl (Finset.mem_erase.mpr ⟨hEq, hOld⟩)
        · exact Or.inr hTotal
  | finalized hSuspended hStatus hQueue =>
    have hDead : s.collection.isSome = true → False := by
      intro hLive
      rw [hLife.live_not_suspended hLive] at hSuspended
      simp at hSuspended
    refine ⟨Nat.zero_le _, fun _ => rfl, ?_, ?_, ?_, ?_, ?_,
      hLife.page_counted, hLife.pending_sorted,
      hLife.size_allowed⟩
    · intro hSome
      simp at hSome
    · intro _ hRetired
      rw [hLife.suspended_retired hSuspended] at hRetired
      simp at hRetired
    · exact fun hLive => (hDead hLive).elim
    · exact fun hLive => (hDead hLive).elim
    · exact fun hLive => (hDead hLive).elim

--
-- Statuses and Roots
--

/- The counters of the rings, and which rings have a root. -/
structure Bookkeeping (s : CollectionStore T) : Prop where
  total_le_max : ∀ r, (s.ringStatus r).total ≤ u32Max
  included_le : ∀ r, (s.ringStatus r).included ≤ (s.ringStatus r).total
  unused_root : s.collection = none → s.retired = false → ∀ r, s.root.get r = none
  root_le : s.collection.isSome = true →
      ∀ r, s.root.get r ≠ none → r ≤ s.currentRingIndex
  root_status : ∀ r, s.root.get r ≠ none → s.ringKeysStatus.get r ≠ none

theorem bookkeeping_empty : Bookkeeping (CollectionStore.empty : CollectionStore T)
    where
  total_le_max := fun _ => Nat.zero_le _
  included_le := fun _ => Nat.le_refl _
  unused_root := fun _ _ _ => rfl
  root_le := fun hSome => by
    simp [CollectionStore.empty] at hSome
  root_status := fun _ hRoot => absurd rfl hRoot

/- The status of the available ring is that of the current. -/
theorem availableRing_status (s : CollectionStore T) (maxRingSize : Nat) :
    (s.availableRing maxRingSize).2.status = s.ringStatus s.currentRingIndex := by
  rcases availableRing_cases s maxRingSize with ⟨_, hEq⟩ | ⟨_, hEq⟩
  · rw [hEq]
    rfl
  · rw [hEq]

/- Collecting keys never includes more than the total. -/
theorem collectKeys_included_le
    (s : CollectionStore T) (r : RingIndex) (passes : Nat) (status : RingStatus)
    (toInclude : Nat) (keys : List T.Member) (hLe : status.included ≤ status.total) :
    (s.collectKeys r passes status toInclude keys).1.included ≤ status.total := by
  induction passes generalizing status toInclude keys with
  | zero => exact hLe
  | succ passes ih =>
    unfold collectKeys
    simp only
    split_ifs
    · exact hLe
    · exact hLe
    · apply ih
      refine Nat.le_trans (saturatingAdd_le_add _ _ _) ?_
      simp only
      omega

/- A lookup among the statuses after one of them is written. -/
theorem ringKeysStatus_ne_none_of_insert {m : StorageMap RingIndex RingStatus} {r r' : RingIndex}
    {status : RingStatus} (hOld : r' ≠ r → m.get r' ≠ none) :
    (m.insert r status).get r' ≠ none := by
  rw [get_insert]
  split_ifs with hEq
  · exact Option.some_ne_none _
  · exact hOld hEq

theorem Addition.current_le (hAddition : Addition s s' info top new) (hLife : Lifecycle s) :
    s.currentRingIndex ≤ s'.currentRingIndex := by
  have hIndex := availableRing_index info.ringSize.ringCapacity hLife.current_le
  rw [hAddition.available] at hIndex
  rcases hAddition.advance with ⟨hNext, _⟩ | ⟨hSame, _⟩
  · rw [hNext]
    exact le_trans hIndex.1 (le_saturatingAdd hIndex.2 1)
  · rw [hSame]
    exact hIndex.1

theorem bookkeeping_of_addition (hLife : Lifecycle s) (hBook : Bookkeeping s)
    (hAddition : Addition s s' info top new) :
    Bookkeeping s' := by
  have hLive : s.collection.isSome = true := by
    rw [hAddition.collection]
    rfl
  have hStatus := availableRing_status s info.ringSize.ringCapacity
  rw [hAddition.available] at hStatus
  have hCurrent := Addition.current_le hAddition hLife
  rcases hAddition.writes with ⟨filled, members, ringKeys, head, queue, stale, _, rfl⟩
  have hOldTotal := hBook.total_le_max s.currentRingIndex
  have hOldIncluded := hBook.included_le s.currentRingIndex
  rw [← hStatus] at hOldTotal hOldIncluded
  refine ⟨?_, ?_, ?_, ?_, ?_⟩
  · intro r
    simp only [ringStatus, ringStatus_insert]
    split_ifs
    · exact saturatingAdd_le _ _ _
    · exact hBook.total_le_max r
  · intro r
    simp only [ringStatus, ringStatus_insert]
    split_ifs
    · exact Nat.le_trans hOldIncluded (le_saturatingAdd hOldTotal new.length)
    · exact hBook.included_le r
  · intro hNone
    exact absurd hLive (by simp [show s.collection = none from
      hNone])
  · intro _ r hRoot
    exact le_trans (hBook.root_le hLive r hRoot) hCurrent
  · intro r hRoot
    exact ringKeysStatus_ne_none_of_insert fun _ => hBook.root_status r hRoot

theorem RingEffect.bookkeeping (hEffect : RingEffect s op s') (hLife : Lifecycle s)
    (hBook : Bookkeeping s) :
    Bookkeeping s' := by
  cases hEffect with
  | created op info size hNone hSuspended hRetired hSize =>
    refine ⟨hBook.total_le_max, hBook.included_le, ?_, ?_, hBook.root_status⟩
    · intro hNo
      simp at hNo
    · intro _ r hRoot
      exact absurd (hBook.unused_root hNone hRetired r) hRoot
  | dropped op info hInfo =>
    refine ⟨hBook.total_le_max, hBook.included_le, ?_, ?_, hBook.root_status⟩
    · intro _ hRetired
      simp at hRetired
    · intro hSome
      simp at hSome
  | added op s' info top hOp hNew hAddition =>
    exact bookkeeping_of_addition hLife hBook hAddition
  | built op info r toInclude i root stale oldRoots
      immutableSince hInfo hUnincluded =>
      have hLive : s.collection.isSome = true := by
        rw [hInfo]
        rfl
      have hTotal := collectKeys_total s r toInclude (s.ringStatus r) toInclude []
      have hIncluded := collectKeys_included_le s r toInclude (s.ringStatus r)
          toInclude [] (hBook.included_le r)
      have hRingLe := hLife.total_le hLive r (by omega)
      refine ⟨?_, ?_, ?_, ?_, ?_⟩
      · intro r'
        simp only [ringStatus, ringStatus_insert]
        split_ifs
        · exact Nat.le_trans (Nat.le_of_eq hTotal) (hBook.total_le_max r)
        · exact hBook.total_le_max r'
      · intro r'
        simp only [ringStatus, ringStatus_insert]
        split_ifs
        · exact Nat.le_trans hIncluded (Nat.le_of_eq hTotal.symm)
        · exact hBook.included_le r'
      · intro hNone
        simp [show s.collection = none from hNone] at hInfo
      · intro _ r' hRoot
        rw [get_insert] at hRoot
        split_ifs at hRoot with hEq
        · rw [hEq]
          exact hRingLe
        · exact hBook.root_le hLive r' hRoot
      · intro r' hRoot
        apply ringKeysStatus_ne_none_of_insert
        intro hNe
        rw [StorageMap.get_insert_of_ne _ _ hNe] at hRoot
        exact hBook.root_status r' hRoot
  | merged b t info f root oldRoots changes stale hInfo hMode
      hNe hBaseNe hTargetNe hBase hTarget hLengths
      hBasePending hTargetPending hKeys hFold hRoot =>
      have hLive : s.collection.isSome = true := by
        rw [hInfo]
        rfl
      refine ⟨?_, ?_, ?_, ?_, ?_⟩
      · intro r
        simp only [ringStatus, getD_remove, getD_insert]
        split_ifs
        · exact Nat.zero_le _
        · exact saturatingAdd_le _ _ _
        · exact hBook.total_le_max r
      · intro r
        simp only [ringStatus, getD_remove, getD_insert]
        split_ifs
        · exact Nat.le_refl _
        · exact Nat.le_trans (hBook.included_le b) (le_saturatingAdd (hBook.total_le_max b) _)
        · exact hBook.included_le r
      · intro hNone
        simp [show s.collection = none from hNone] at hInfo
      · intro _ r hSome
        rw [hRoot] at hSome
        split_ifs at hSome
        · exact absurd rfl hSome
        · exact hBook.root_le hLive r hSome
      · intro r hSome
        rw [hRoot] at hSome
        split_ifs at hSome with hEq
        · exact absurd rfl hSome
        · rw [get_remove, if_neg hEq]
          exact ringKeysStatus_ne_none_of_insert fun _ => hBook.root_status r hSome
  | reset r revision info root oldRoots stale ringKeys hInfo
      hPending hRoot hPages =>
      have hLive : s.collection.isSome = true := by
        rw [hInfo]
        rfl
      have hOld : ∀ r', root.get r' ≠ none → s.root.get r' ≠ none := by
        intro r' hSome hNone
        apply hSome
        rw [hRoot]
        split_ifs with hEq
        · rw [← hEq, hNone, Option.map_none]
        · exact hNone
      have hKept : (s.keptKeys r).length ≤ u32Max := by
        have hPage := (s.ringPage r 0).length_le
        have hLess := length_removePositions_le 0 (s.pending r) (s.page r 0)
        have hCapacity := T.maxFlexibleRingExponent.ringCapacity_le
        unfold keptKeys u32Max
        unfold CollectionStore.page at hLess ⊢
        unfold Config.flexibleRingCapacity at hPage
        omega
      refine ⟨?_, ?_, ?_, ?_, ?_⟩
      · intro r'
        simp only [ringStatus, ringStatus_insert]
        split_ifs
        · exact hKept
        · exact hBook.total_le_max r'
      · intro r'
        simp only [ringStatus, ringStatus_insert]
        split_ifs
        · exact Nat.zero_le _
        · exact hBook.included_le r'
      · intro hNone
        simp [show s.collection = none from hNone] at hInfo
      · intro _ r' hSome
        exact hBook.root_le hLive r' (hOld r' hSome)
      · intro r' hSome
        exact ringKeysStatus_ne_none_of_insert fun _ => hBook.root_status r' (hOld r' hSome)
  | enqueued op r root oldRoots changes stale hOp hRoot =>
    have hOld : ∀ r', root.get r' ≠ none → r' ≠ r ∧ s.root.get r' ≠ none := by
      intro r' hSome
      rw [hRoot] at hSome
      split_ifs at hSome with hEq
      · exact absurd rfl hSome
      · exact ⟨hEq, hSome⟩
    refine ⟨?_, ?_, ?_, ?_, ?_⟩
    · intro r'
      simp only [ringStatus, getD_remove]
      split_ifs
      · exact Nat.zero_le _
      · exact hBook.total_le_max r'
    · intro r'
      simp only [ringStatus, getD_remove]
      split_ifs
      · exact Nat.le_refl _
      · exact hBook.included_le r'
    · intro hNone hRetired r'
      rw [hRoot]
      split_ifs
      · rfl
      · exact hBook.unused_root hNone hRetired r'
    · intro hLive r' hSome
      exact hBook.root_le hLive r' (hOld r' hSome).2
    · intro r' hSome
      rw [get_remove, if_neg (hOld r' hSome).1]
      exact hBook.root_status r' (hOld r' hSome).2
  | finalized hSuspended hStatus hQueue =>
    refine ⟨hBook.total_le_max, hBook.included_le, hBook.unused_root, ?_, hBook.root_status⟩
    intro hLive
    rw [hLife.live_not_suspended hLive] at hSuspended
    simp at hSuspended
  | _ =>
    exact ⟨hBook.total_le_max, hBook.included_le,
      hBook.unused_root, hBook.root_le, hBook.root_status⟩

--
-- Every Run Keeps It
--

--
-- Unused Storage
--

/- A collection that was created stays live or retired. -/
theorem RingEffect.used (hEffect : RingEffect s op s')
    (hUsed : s.collection = none → s.retired = true) (hNone : s'.collection = none) :
    s'.retired = true := by
  cases hEffect with
  | created => simp at hNone
  | dropped => rfl
  | added op s' info top _ _ hAddition =>
    rcases hAddition.writes with ⟨_, _, _, _, _, _, _, rfl⟩
    exact hUsed hNone
  | _ => exact hUsed hNone

/- On unused storage the first write creates the collection. -/
theorem apply_empty {call : TimedOp T} (hApply : CollectionStore.empty.apply call = .ok s') :
    s' = .empty ∨ s'.collection.isSome = true := by
  rcases call with ⟨now, op⟩
  cases op with
  | createCollection owner size mode ringSize delay =>
    rcases createCollection_eq_ok hApply with ⟨_, _, _, _, rfl⟩
    exact Or.inr rfl
  | startRemovalSession | endRemovalSession =>
    cases hApply
    exact Or.inl rfl
  | removeRing r => cases (removeRing_eq_ok hApply).1
  | deleteCollection owner =>
    rcases deleteCollection_eq_ok hApply with ⟨info, hInfo, _⟩
    cases hInfo
  | removeMembers keys => cases (queueMemberSuspensions_eq_ok hApply).1
  | mergeRings b t =>
    rcases mergeRings_eq_ok hApply with ⟨_, _, _, _, _, _, hInfo, _⟩
    cases hInfo
  | selfInclude signature message member callValidAt =>
    rcases doSelfInclude_eq_ok (selfInclude_eq_ok hApply) with ⟨_, _, _, _, _, _, _, hInfo, _⟩
    cases hInfo
  | buildRing ready r ringExponent revision toInclude =>
    cases (buildRingAuthorized_eq_ok hApply).2.2.2
  | onboardMembers r head first =>
    rcases onboardMembersAuthorized_eq_ok hApply with ⟨b, hOnboard⟩
    cases hOnboard
  | mergeQueuePages h h' =>
    exact absurd rfl (mergeQueuePagesAuthorized_eq_ok hApply).2.2.1
  | removeSuspendedKeys r revision =>
    exact absurd rfl (removeSuspendedKeysAuthorized_eq_ok hApply).2.2.1
  | deleteRingPage r p =>
    have hMem := (deleteRingPageAuthorized_eq_ok hApply).1
    exact absurd hMem (Finset.notMem_empty _)
  | enqueueRingDeletion r =>
    cases (enqueueRingDeletionAuthorized_eq_ok hApply).1
  | deleteOnboardingQueuePage p =>
    cases (deleteOnboardingQueuePageAuthorized_eq_ok hApply).1
  | finalizeCollectionDeletion =>
    cases (finalizeCollectionDeletion_eq_ok hApply).1
  | removeOrphanedMembers => cases (removeOrphanedMembers_eq_ok hApply).1
  | addMembers _ | setOnboardingSize _ | markRingStale _ | cleanUpOldRoots _ _ =>
    cases hApply

/- Storage is empty until a collection is created in it. -/
def EmptyUntilUsed (s : CollectionStore T) : Prop :=
  s.collection = none → s.retired = false → s = .empty

theorem EmptyUntilUsed.apply {call : TimedOp T} (hEmpty : EmptyUntilUsed s)
    (hApply : s.apply call = .ok s') :
    EmptyUntilUsed s' := by
  intro hNone hRetired
  by_cases hUsed : s.collection = none → s.retired = true
  · have hRetired' := (ringEffect_of_apply hApply).used hUsed hNone
    rw [hRetired] at hRetired'
    cases hRetired'
  · rw [Classical.not_imp, Bool.not_eq_true] at hUsed
    rw [hEmpty hUsed.1 hUsed.2] at hApply
    rcases apply_empty hApply with hSame | hLive
    · exact hSame
    · rw [hNone] at hLive
      cases hLive

namespace PalletState

variable {allowed : PalletState T → PalletOp T → PalletState T → Prop}

/-
  What holds of unused storage, and is kept by every allowed operation on one collection, holds of
  every collection after a run.
-/
theorem store_invariant_of_run {s s' : PalletState T} (I : Identifier → CollectionStore T → Prop)
    (hRun : RunUnder dispatch allowed s s')
    (hStep : ∀ (s s' : PalletState T) (o : PalletOp T) (store : CollectionStore T), allowed s o s' →
        (s.stores o.identifier).apply o.call = .ok store →
        s'.stores = Function.update s.stores o.identifier store →
        I o.identifier (s.stores o.identifier) →
        I o.identifier store)
    (hStart : ∀ id, I id (s.stores id)) :
    ∀ id, I id (s'.stores id) := by
  refine RunUnder.invariant (fun s => ∀ id, I id (s.stores id)) hRun ?_ hStart
  intro s o s' hAllowed hDispatch hAll id
  rcases dispatch_eq_ok hDispatch with ⟨store, hApply, hStores⟩
  by_cases hId : id = o.identifier
  · subst hId
    have hKept := hStep s s' o store hAllowed hApply hStores (hAll o.identifier)
    rw [hStores, Function.update_self]
    exact hKept
  · rw [hStores, Function.update_of_ne hId]
    exact hAll id

/- Whatever is called, every collection stays well kept. -/
theorem every_store_kept {s : PalletState T} (hRun : RunUnder dispatch allowed genesis s)
    (id : Identifier) :
    Lifecycle (s.stores id) ∧ Bookkeeping (s.stores id) ∧ EmptyUntilUsed (s.stores id) := by
  refine store_invariant_of_run
    (fun _ store => Lifecycle store ∧ Bookkeeping store ∧ EmptyUntilUsed store)
    hRun ?_ ?_ id
  · rintro s s' o store _ hApply _ ⟨hLife, hBook, hEmpty⟩
    have hEffect := ringEffect_of_apply hApply
    exact ⟨hEffect.lifecycle hLife, hEffect.bookkeeping hLife hBook, hEmpty.apply hApply⟩
  · intro _
    exact ⟨lifecycle_empty, bookkeeping_empty, fun _ _ => rfl⟩

theorem every_store_kept_sample : ∃ s : PalletState sampleConfig,
    RunUnder dispatch (fun _ _ _ => True) genesis s
      ∧ ((s.stores sampleIdentifier).ringStatus 0).total = 3
      ∧ Lifecycle (s.stores sampleIdentifier)
      ∧ Bookkeeping (s.stores sampleIdentifier)
      ∧ EmptyUntilUsed (s.stores sampleIdentifier) := by
  have hExecute : (performAll (fun _ _ => true)
      [⟨0, .createCollection () 1 .flexible .r2e9 none⟩, ⟨0, .addMembers [10, 11, 12]⟩,
        ⟨0, .onboardMembers 0 0 (some 10)⟩]).any (fun s =>
          decide (((s.stores sampleIdentifier).ringStatus 0).total = 3)) = true := by
    decide +kernel
  have hReached : ∃ s, RunUnder dispatch (fun _ _ _ => True) genesis s
      ∧ decide (((s.stores sampleIdentifier).ringStatus 0).total = 3) = true :=
    exists_run_of_execute (fun _ _ _ _ _ => trivial) hExecute
  rcases hReached with ⟨s, hRun, hTest⟩
  exact ⟨s, hRun, of_decide_eq_true hTest, every_store_kept hRun sampleIdentifier⟩

end PalletState

end Individuality.MembersPallet
