import Individuality.Base.Traces
import Individuality.MembersPallet.RingKeys

/-
  The asynchronous deletion of a ring: the pages that wait for their deletion only lose keys, and
  the count of active members stays the sum of the ring totals.

  Main declaration: `PalletState.ring_deletion_frame`
-/

namespace Individuality.MembersPallet

open StorageMap (getD_insert getD_remove)

variable {T : Config} {s s' : CollectionStore T} {r : RingIndex}

open CollectionStore

--
-- Steps That Respect a Pending Deletion
--

/- The sum of the totals of all rings. -/
def totalMembers (s : CollectionStore T) : Nat :=
  s.ringKeysStatus.sum fun _ status => status.total

/-
  No ring with a first page that waits for its deletion is merged, suspended keys are removed from
  such a ring only when all keys of the page are suspended, and members are placed only while they
  can be counted and the current ring has room.
-/
def Undisturbed (s : CollectionStore T) : Op T → Prop
  | .mergeRings b t =>
    (b, 0) ∉ s.ringDeletionQueue ∧ (t, 0) ∉ s.ringDeletionQueue
  | .removeSuspendedKeys r _ =>
    (r, 0) ∈ s.ringDeletionQueue → ∀ i < (s.page r 0).length, i ∈ s.pending r
  | op =>
    op.addsMembers = true → s.activeMembers + (membersToAdd s op).length ≤ u32Max ∧
        ∀ info, s.collection = some info → ¬ s.topRing.isFull info.ringSize.ringCapacity
            ∨ s.currentRingIndex = u32Max

variable {op : Op T}

theorem Undisturbed.sparesDoomed (hUndisturbed : Undisturbed s op) (r : RingIndex) :
    SparesDoomed r s op := by
  cases op with
  | mergeRings b t =>
    intro hEq
    rw [← hEq]
    exact hUndisturbed.1
  | removeSuspendedKeys r' revision =>
    intro hEq
    rw [← hEq]
    exact hUndisturbed
  | _ => trivial

theorem Undisturbed.room (hUndisturbed : Undisturbed s op) (hAdds : op.addsMembers = true) :
    s.activeMembers + (membersToAdd s op).length ≤ u32Max ∧ ∀ info, s.collection = some info →
        ¬ s.topRing.isFull info.ringSize.ringCapacity ∨ s.currentRingIndex = u32Max := by
  cases op with
  | mergeRings b t => exact absurd hAdds Bool.false_ne_true
  | removeSuspendedKeys r revision =>
    exact absurd hAdds Bool.false_ne_true
  | _ => exact hUndisturbed hAdds

--
-- The Count of Active Members
--

theorem weightAt_total (m : StorageMap RingIndex RingStatus) (r : RingIndex) :
    StorageMap.weightAt (fun _ status => status.total) r (m.get r) = (m.getD r {}).total := by
  unfold StorageMap.getD
  cases m.get r with
  | none => rfl
  | some status => rfl

/- Writing a status exchanges its total in the sum. -/
theorem total_sum_insert (s : CollectionStore T) (r : RingIndex) (status : RingStatus) :
    (s.ringKeysStatus.insert r status).sum (fun _ status => status.total) + (s.ringStatus r).total
      = totalMembers s + status.total := by
  unfold ringStatus totalMembers
  rw [← weightAt_total]
  exact StorageMap.sum_insert _ _ r status

theorem total_sum_remove (s : CollectionStore T) (r : RingIndex) :
    (s.ringKeysStatus.remove r).sum (fun _ status => status.total) + (s.ringStatus r).total
      = totalMembers s := by
  unfold ringStatus totalMembers
  rw [← weightAt_total]
  exact StorageMap.sum_remove _ _ r

/-
  The active members are counted by the rings, the first page of a ring that is not being deleted is
  counted by it, and the rings of a flexible collection hold their keys in order.
-/
structure Accounted (s : CollectionStore T) : Prop where
  life : Lifecycle s
  active : s.activeMembers = totalMembers s
  page_le : ∀ r, (r, 0) ∉ s.ringDeletionQueue →
      (s.page r 0).length ≤ (s.ringStatus r).total
  sound : (s.collection = none → s.retired = false) →
      (∀ info, s.collection = some info → info.mode = .flexible) →
        ∀ r, RingsSound s r

theorem accounted_empty : Accounted (CollectionStore.empty : CollectionStore T)
    where
  life := lifecycle_empty
  active := rfl
  page_le := fun _ _ => Nat.zero_le _
  sound := fun _ _ r => ringsSound_empty r

/- With room in it, the current ring is the available one. -/
theorem available_of_room {maxRingSize : Nat}
    (hRoom : ¬ s.topRing.isFull maxRingSize ∨ s.currentRingIndex = u32Max) :
    (s.availableRing maxRingSize).2.ringIndex = s.currentRingIndex := by
  rcases availableRing_cases s maxRingSize with ⟨_, hEq⟩ | ⟨hFull, hEq⟩
  · rw [hEq]
    rfl
  · rw [hEq]
    rcases hRoom with hNot | hLast
    · exact absurd hFull hNot
    · rw [hLast]
      rfl

theorem accounted_of_addition
    {info : CollectionInfo T} {top : AvailableRing T} {new : List T.Member}
    (hAccounted : Accounted s)
    (hRoom : s.activeMembers + new.length ≤ u32Max ∧ ∀ info, s.collection = some info →
        ¬ s.topRing.isFull info.ringSize.ringCapacity ∨ s.currentRingIndex = u32Max)
    (hAddition : Addition s s' info top new) :
    s'.activeMembers = totalMembers s' ∧ ∀ r, (r, 0) ∉ s'.ringDeletionQueue →
        (s'.page r 0).length ≤ (s'.ringStatus r).total := by
  have hTop := available_of_room (hRoom.2 info hAddition.collection)
  have hStatus := availableRing_status s info.ringSize.ringCapacity
  rw [hAddition.available] at hTop hStatus
  rw [← hTop] at hStatus
  have hFirst := congrFun hAddition.pages 0
  have hGrows := length_pushPages_le T.flexibleRingCapacity
      nextRingPage (s.page top.ringIndex) top.pageIndex new 0
  rcases hAddition.writes with ⟨filled, members, ringKeys, head, queue, stale, hOther, hEq⟩
  have hOldTotal : (s.ringStatus top.ringIndex).total ≤ totalMembers s := by
    have hSum := total_sum_remove s top.ringIndex
    omega
  have hActive := hAccounted.active
  have hNewTotal : saturatingAdd u32Max top.status.total new.length
        = (s.ringStatus top.ringIndex).total + new.length := by
    rw [hStatus]
    apply saturatingAdd_of_le
    omega
  constructor
  · have hSum := total_sum_insert s top.ringIndex
        { top.status with
          total := saturatingAdd u32Max top.status.total new.length }
    have hCount : s'.activeMembers = s.activeMembers + new.length := by
      rw [hEq]
      exact saturatingAdd_of_le hRoom.1
    have hTotals : totalMembers s' + (s.ringStatus top.ringIndex).total = totalMembers s
            + saturatingAdd u32Max top.status.total
                new.length := by
      rw [hEq]
      exact hSum
    omega
  · intro r hNot
    have hPageLe := hAccounted.page_le r (by
      rw [hEq] at hNot
      exact hNot)
    by_cases hIs : r = top.ringIndex
    · subst hIs
      rw [hFirst]
      have hNew : (s'.ringStatus top.ringIndex).total
            = (s.ringStatus top.ringIndex).total + new.length := by
        rw [hEq, ringStatus, ringStatus_insert, if_pos rfl]
        exact hNewTotal
      rw [hNew]
      omega
    · have hSamePage : s'.page r 0 = s.page r 0 := by
        rw [hEq]
        exact hOther r 0 hIs
      have hSameStatus : s'.ringStatus r = s.ringStatus r := by
        rw [hEq, ringStatus, ringStatus_insert, if_neg hIs]
        rfl
      rw [hSamePage, hSameStatus]
      exact hPageLe

/- The status of a merged ring counts its only page. -/
theorem RingSound.total_eq (hSound : RingSound s r) (hNot : (r, 0) ∉ s.ringDeletionQueue)
    (hPage : s.page r 0 ≠ []) (hLt : (s.page r 0).length < T.flexibleRingCapacity) :
    (s.ringStatus r).total = (s.page r 0).length := by
  rcases hSound with ⟨_, hDoomed⟩ | ⟨keys, hHolds⟩
  · exact absurd (hDoomed 0 hPage) hNot
  · rw [hHolds.total, ← hHolds.eq_page hLt]

theorem RingEffect.counts (hEffect : RingEffect s op s') (hUndisturbed : Undisturbed s op)
    (hAccounted : Accounted s) :
    s'.activeMembers = totalMembers s' ∧ ∀ r, (r, 0) ∉ s'.ringDeletionQueue →
        (s'.page r 0).length ≤ (s'.ringStatus r).total := by
  have hActive := hAccounted.active
  have hPageLe := hAccounted.page_le
  cases hEffect with
  | added op s' info top hOp hNew hAddition =>
    exact accounted_of_addition hAccounted (hUndisturbed.room hOp) hAddition
  | built op info r toInclude i root stale oldRoots
      immutableSince hInfo hUnincluded =>
      have hTotal := collectKeys_total s r toInclude (s.ringStatus r) toInclude []
      constructor
      · have hSum := total_sum_insert s r
            { (s.collectKeys r toInclude (s.ringStatus r)
                toInclude []).1 with
              immutableSince := immutableSince }
        rw [hTotal] at hSum
        refine hActive.trans ?_
        unfold totalMembers at hSum ⊢
        exact (Nat.add_right_cancel hSum).symm
      · intro r' hNot
        refine Nat.le_trans (hPageLe r' hNot) ?_
        simp only [ringStatus, ringStatus_insert]
        split_ifs with hEq
        · rw [hEq]
          exact Nat.le_of_eq hTotal.symm
        · exact Nat.le_refl _
  | merged b t info f root oldRoots changes stale hInfo hMode
      hNe hBaseNe hTargetNe hBase hTarget hLengths
      hBasePending hTargetPending hKeys hFold hRoot =>
      have hLive : s.collection.isSome = true := by
        rw [hInfo]
        rfl
      have hCapacity : info.ringSize.ringCapacity ≤ T.flexibleRingCapacity :=
        (hAccounted.life.size_allowed info hInfo hMode).2
      have hBound := capacity_le T
      have hSound : ∀ r, RingsSound s r := by
        apply hAccounted.sound
        · intro hNone
          simp [hNone] at hLive
        · intro info' hInfo'
          rw [hInfo, Option.some.injEq] at hInfo'
          rw [← hInfo']
          exact hMode
      have hTargetTotal := (hSound t).ring.total_eq hUndisturbed.2 hTarget (by omega)
      have hBaseTotal := (hSound b).ring.total_eq hUndisturbed.1 hBase (by omega)
      have hSmall : (s.ringStatus b).total + (s.page t 0).length ≤ u32Max := by
        rw [hBaseTotal]
        refine Nat.le_trans (Nat.le_of_lt hLengths) ?_
        refine Nat.le_trans info.ringSize.ringCapacity_le ?_
        decide
      constructor
      · refine hActive.trans ?_
        unfold totalMembers
        rw [saturatingAdd_of_le hSmall, hBaseTotal, ← hTargetTotal]
        have hInsert := total_sum_insert s b
            { s.ringStatus b with
              total := (s.page b 0).length + (s.ringStatus t).total }
        have hRemove := total_sum_remove
            { s with
              ringKeysStatus := s.ringKeysStatus.insert b
                  { s.ringStatus b with
                    total := (s.page b 0).length + (s.ringStatus t).total } } t
        have hOther : CollectionStore.ringStatus
                { s with
                  ringKeysStatus := s.ringKeysStatus.insert b
                      { s.ringStatus b with
                        total := (s.page b 0).length + (s.ringStatus t).total } } t
              = s.ringStatus t := by
          rw [ringStatus, ringStatus_insert, if_neg (Ne.symm hNe)]
          rfl
        rw [hOther] at hRemove
        unfold totalMembers at hInsert hRemove
        simp only at hInsert hRemove ⊢
        omega
      · intro r hNot
        have hOld := hPageLe r hNot
        simp only [CollectionStore.page, ringPage, ringStatus, getD_remove, getD_insert,
          Prod.mk.injEq, and_true]
        split_ifs with hT hB
        · exact Nat.zero_le _
        · rw [hKeys, List.length_append, ← hBaseTotal]
          exact Nat.le_of_eq (saturatingAdd_of_le hSmall).symm
        · exact hOld
  | reset r revision info root oldRoots stale ringKeys hInfo
      hPending hRoot hPages =>
      have hKept : (s.keptKeys r).length ≤ (s.ringStatus r).total := by
        by_cases hMem : (r, 0) ∈ s.ringDeletionQueue
        · rw [keptKeys_eq_nil (hAccounted.life.pending_sorted r) (hUndisturbed hMem)]
          exact Nat.zero_le _
        · exact Nat.le_trans (length_removePositions_le 0 _ _) (hPageLe r hMem)
      constructor
      · have hSum := total_sum_insert s r
            { s.ringStatus r with
              total := (s.keptKeys r).length
              included := 0 }
        rw [← hActive] at hSum
        unfold totalMembers
        simp only at hSum ⊢
        omega
      · intro r' hNot
        rw [CollectionStore.page, ringPage, hPages]
        simp only [ringStatus, ringStatus_insert, Prod.mk.injEq, and_true]
        split_ifs with hEq
        · exact Nat.le_refl _
        · exact hPageLe r' hNot
  | enqueued op r root oldRoots changes stale hOp hRoot =>
    constructor
    · have hSum := total_sum_remove s r
      rw [← hActive] at hSum
      unfold totalMembers
      simp only at hSum ⊢
      omega
    · intro r' hNot
      rw [Finset.mem_union, not_or, mem_ringPageEntries_iff] at hNot
      have hOld := hPageLe r' hNot.1
      simp only [ringStatus, getD_remove]
      split_ifs with hEq
      · subst hEq
        have hZero : (s.ringStatus r').total = 0 := by
          by_contra hPos
          apply hNot.2
          refine ⟨rfl, ?_⟩
          rw [lt_pageCount_iff T.flexibleRingCapacity_pos, Nat.zero_mul]
          exact Nat.pos_of_ne_zero hPos
        rw [hZero] at hOld
        exact hOld
      · exact hOld
  | pageDeleted r p hMem =>
    refine ⟨hActive, ?_⟩
    intro r' hNot
    simp only [CollectionStore.page, ringPage, getD_remove]
    split_ifs with hEq
    · exact Nat.zero_le _
    · apply hPageLe r'
      intro hOld
      exact hNot (Finset.mem_erase.mpr ⟨hEq, hOld⟩)
  | finalized hSuspended hStatus hQueue =>
    refine ⟨?_, hPageLe⟩
    exact (StorageMap.sum_of_get_eq_none hStatus _).symm
  | _ => exact ⟨hActive, hPageLe⟩

theorem RingEffect.usable_before (hEffect : RingEffect s op s')
    (hUsable : s'.collection = none → s'.retired = false) :
    s.collection = none → s.retired = false := by
  cases hEffect with
  | created op info size hNone hSuspended hRetired hSize =>
    exact fun _ => hRetired
  | dropped op info hInfo =>
    exact absurd (hUsable rfl) (by simp)
  | added op s' info top hOp hNew hAddition =>
    rcases hAddition.writes with ⟨_, _, _, _, _, _, _, rfl⟩
    exact hUsable
  | _ => exact hUsable

/- The same collection before and after, and the same mode. -/
theorem RingEffect.sound_before (hEffect : RingEffect s op s')
    (hUsable : s'.collection = none → s'.retired = false)
    (hFlexible : ∀ info, s'.collection = some info → info.mode = .flexible) :
    (s.collection = none → s.retired = false) ∧
      ∀ info, s.collection = some info → info.mode = .flexible := by
  refine ⟨hEffect.usable_before hUsable, ?_⟩
  cases hEffect with
  | created op info size hNone hSuspended hRetired hSize =>
    intro info' hInfo
    rw [hNone] at hInfo
    exact absurd hInfo (Option.some_ne_none info').symm
  | dropped op info hInfo =>
    exact absurd (hUsable rfl) (by simp)
  | added op s' info top hOp hNew hAddition =>
    rcases hAddition.writes with ⟨_, _, _, _, _, _, _, rfl⟩
    exact hFlexible
  | _ => exact hFlexible

theorem RingEffect.accounted (hEffect : RingEffect s op s') (hUndisturbed : Undisturbed s op)
    (hAccounted : Accounted s) :
    Accounted s' := by
  rcases hEffect.counts hUndisturbed hAccounted with ⟨hActive, hPageLe⟩
  refine ⟨hEffect.lifecycle hAccounted.life, hActive, hPageLe, ?_⟩
  intro hUsable hFlexible r
  rcases hEffect.sound_before hUsable hFlexible with ⟨hUsable₀, hFlexible₀⟩
  exact hEffect.ringsSound (fun _ => hFlexible₀) (fun _ => hUndisturbed.sparesDoomed r)
    (hAccounted.sound hUsable₀ hFlexible₀ r)

--
-- Doomed Pages Only Lose Keys
--

theorem RingEffect.doomed_page {p : PageIndex} (hEffect : RingEffect s op s') (hLife : Lifecycle s)
    (hUndisturbed : Undisturbed s op) (hMem : (r, p) ∈ s.ringDeletionQueue) :
    ∀ key ∈ s'.page r p, key ∈ s.page r p := by
  intro key hKey
  cases hEffect with
  | added op s' info top hOp hNew hAddition =>
    have hOther : r ≠ top.ringIndex := by
      intro hEq
      apply not_placesInto_of_queued hLife ⟨_, hMem, rfl⟩
      refine ⟨hOp, info, hAddition.collection, ?_⟩
      rw [hAddition.available]
      exact hEq.symm
    rcases hAddition.writes with ⟨_, _, _, _, _, _, hPages, rfl⟩
    rw [← hPages r p hOther]
    exact hKey
  | merged b t info f root oldRoots changes stale =>
    have hNotBase : (r, p) ≠ (b, 0) := by
      intro hEq
      rw [hEq] at hMem
      exact hUndisturbed.1 hMem
    simp only [CollectionStore.page, ringPage, getD_remove, getD_insert, if_neg hNotBase] at hKey
    split_ifs at hKey
    · exact absurd hKey List.not_mem_nil
    · exact hKey
  | reset r' revision info root oldRoots stale ringKeys hInfo
      hPending hRoot hPages =>
      rw [CollectionStore.page, ringPage, hPages] at hKey
      split_ifs at hKey with hEq
      · rw [Prod.mk.injEq] at hEq
        rw [hEq.1, hEq.2]
        exact mem_of_mem_removePositions hKey
      · exact hKey
  | pageDeleted r' p' hQueued =>
    simp only [CollectionStore.page, ringPage, getD_remove] at hKey
    split_ifs at hKey
    · exact absurd hKey List.not_mem_nil
    · exact hKey
  | _ => exact hKey

/- Only removing a ring queues its pages, as they are. -/
theorem RingEffect.page_queued {p : PageIndex} (hEffect : RingEffect s op s')
    (hOld : (r, p) ∉ s.ringDeletionQueue) (hNew : (r, p) ∈ s'.ringDeletionQueue) :
    (op = .removeRing r ∨ op = .enqueueRingDeletion r) ∧ s'.page r p = s.page r p := by
  cases hEffect with
  | added op s' info top hOp hNew hAddition =>
    rcases hAddition.writes with ⟨_, _, _, _, _, _, _, rfl⟩
    exact absurd hNew hOld
  | enqueued op r' root oldRoots changes stale hOp hRoot =>
    rw [Finset.mem_union, mem_ringPageEntries_iff] at hNew
    rcases hNew with hQueued | ⟨rfl, _⟩
    · exact absurd hQueued hOld
    · refine ⟨?_, rfl⟩
      rcases hOp with ⟨hRemove, _⟩ | ⟨hEnqueue, _⟩
      · exact Or.inl hRemove
      · exact Or.inr hEnqueue
  | pageDeleted r' p' hMem =>
    exact absurd (Finset.mem_of_mem_erase hNew) hOld
  | _ => exact absurd hNew hOld

/- Deleting a page forgets members of that page only. -/
theorem forgetMembers_get (r : RingIndex) (p : PageIndex) (i : Nat) (keys : List T.Member)
    (members : MemberMap T) {key : T.Member} (hNot : key ∉ keys) :
    (forgetMembers r p i keys members).get key = members.get key := by
  induction keys generalizing i members with
  | nil => rfl
  | cons first keys ih =>
    rw [List.mem_cons, not_or] at hNot
    unfold forgetMembers
    rw [ih (i + 1) _ hNot.2]
    split_ifs
    · rw [StorageMap.get_remove, if_neg hNot.1]
    · rfl

namespace PalletState

/- The step respects the pending deletions of its collection. -/
def KeepsPages (s : PalletState T) (o : PalletOp T) (_ : PalletState T) : Prop :=
  Undisturbed (s.stores o.identifier) o.call.op

variable {steps : List (TraceStep (PalletState T) (PalletOp T))}

/-
  A removal of ring `r` in the run queued its page `p`, which stayed queued ever since, and the keys
  that are on the page in `s` were on it then.
-/
def DoomedWith (id : Identifier) (r : RingIndex) (p : PageIndex) (s : PalletState T) :
    List (TraceStep (PalletState T) (PalletOp T)) → Prop :=
  Since (fun x => x.op.identifier = id
      ∧ (x.op.call.op = .removeRing r ∨ x.op.call.op = .enqueueRingDeletion r)
      ∧ (r, p) ∉ (x.pre.stores id).ringDeletionQueue
      ∧ (r, p) ∈ (x.post.stores id).ringDeletionQueue
      ∧ ∀ key ∈ (s.stores id).page r p, key ∈ (x.pre.stores id).page r p)
    fun x => (r, p) ∉ (x.post.stores id).ringDeletionQueue

theorem accounted_of_run {s : PalletState T} (hRun : RunUnder dispatch KeepsPages genesis s)
    (id : Identifier) :
    Accounted (s.stores id) := by
  refine store_invariant_of_run (fun _ => Accounted) hRun ?_ (fun _ => accounted_empty) id
  intro s o s' store hKeeps hApply _ hAccounted
  exact (ringEffect_of_apply hApply).accounted hKeeps hAccounted

theorem doomedWith_of_trace {s : PalletState T}
    (hTrace : Trace dispatch KeepsPages genesis steps s) :
    ∀ id r p, (r, p) ∈ (s.stores id).ringDeletionQueue → DoomedWith id r p s steps := by
  induction hTrace with
  | nil =>
    intro id r p hMem
    simp [genesis, CollectionStore.empty] at hMem
  | @snoc steps s s' o hTrace hKeeps hDispatch ih =>
    rcases dispatch_eq_ok hDispatch with ⟨store, hApply, hStores⟩
    have hEffect := ringEffect_of_apply hApply
    intro id r p hMem
    by_cases hId : o.identifier = id
    · subst hId
      have hStore : s'.stores o.identifier = store := by
        rw [hStores, Function.update_self]
      have hQueued := hMem
      rw [hStore] at hMem
      by_cases hOld : (r, p) ∈ (s.stores o.identifier).ringDeletionQueue
      · refine Since.snoc ?_ (not_not_intro hQueued)
        refine (ih o.identifier r p hOld).mono ?_
        rintro x ⟨hIs, hOp, hNot, hIn, hKeys⟩
        refine ⟨hIs, hOp, hNot, hIn, fun key hKey => hKeys key ?_⟩
        rw [hStore] at hKey
        exact hEffect.doomed_page (accounted_of_run hTrace.run o.identifier).life hKeeps
          hOld key hKey
      · rcases hEffect.page_queued hOld hMem with ⟨hOp, hPage⟩
        refine Since.last ⟨rfl, hOp, hOld, hQueued, ?_⟩
        intro key hKey
        rw [hStore, hPage] at hKey
        exact hKey
    · have hSame : s'.stores id = s.stores id := by
        rw [hStores, Function.update_of_ne (Ne.symm hId)]
      have hQueued := hMem
      rw [hSame] at hMem
      refine Since.snoc ?_ (not_not_intro hQueued)
      refine (ih id r p hMem).mono ?_
      rw [hSame]
      exact fun _ hDoomed => hDoomed

/-
  In a run that respects pending deletions, the active members are the sum of the ring totals after
  every step, and deleting a page of a ring changes only the entries of keys that were in the ring
  when it was removed.
-/
theorem ring_deletion_frame (steps : List (TraceStep (PalletState T) (PalletOp T)))
    (s : PalletState T) (hTrace : Trace dispatch KeepsPages genesis steps s) :
    (∀ id, (s.stores id).activeMembers = totalMembers (s.stores id)) ∧
      ∀ id now r p s', s.dispatch ⟨id, ⟨now, .deleteRingPage r p⟩⟩ = .ok s' →
        ∀ key, (s'.stores id).members.get key ≠ (s.stores id).members.get key →
          key ∈ (s.stores id).page r p ∧ DoomedWith id r p s steps := by
  refine ⟨fun id => (accounted_of_run hTrace.run id).active, ?_⟩
  intro id now r p s' hDispatch key hChanged
  rcases dispatch_eq_ok hDispatch with ⟨store, hApply, hStores⟩
  have hStore : s'.stores id = store := by
    rw [hStores]
    exact Function.update_self ..
  rcases deleteRingPageAuthorized_eq_ok hApply with ⟨hMem, hEq⟩
  refine ⟨?_, doomedWith_of_trace hTrace id r p hMem⟩
  by_contra hNot
  apply hChanged
  rw [hStore, hEq]
  exact forgetMembers_get r p 0 _ _ hNot

/-
  A run after which 254 members are counted by the rings, and none as active: a ring is suspended
  from while its page waits for its deletion.
-/
theorem active_members_lost : ∃ s : PalletState sampleConfig,
      RunUnder dispatch (fun _ _ _ => True) genesis s ∧ (s.stores sampleIdentifier).activeMembers
          ≠ totalMembers (s.stores sampleIdentifier) := by
  rcases exists_revival with ⟨s, s₁, s₂, hRun, hDispatch, hAfter, _, _, hActive, hSum⟩
  refine ⟨s₂, ?_, ?_⟩
  · have hFirst : RunUnder dispatch (fun _ _ _ => True) genesis s₁ :=
      RunUnder.snoc (hRun.weaken fun _ _ _ _ => trivial) trivial hDispatch
    exact hFirst.trans (hAfter.weaken fun _ _ _ _ => trivial)
  · intro hEq
    unfold totalMembers at hEq
    rw [hActive, hSum] at hEq
    exact absurd hEq (by decide)

/- The operation disturbs no ring, and its ring has room. -/
def undisturbed (s : PalletState sampleConfig) (o : PalletOp sampleConfig) : Bool :=
  let store := s.stores o.identifier
  sparing s o && decide (store.activeMembers + (membersToAdd store o.call.op).length ≤ u32Max)
    && store.collection.all fun info =>
      ¬ store.topRing.isFull info.ringSize.ringCapacity

theorem keepsPages_of_undisturbed (s : PalletState sampleConfig) (o : PalletOp sampleConfig)
    (s' : PalletState sampleConfig) (hOp : undisturbed s o = true) :
    KeepsPages s o s' := by
  unfold undisturbed at hOp
  simp only [Bool.and_eq_true, decide_eq_true_eq] at hOp
  rcases hOp with ⟨⟨hSparing, hActive⟩, hRoom⟩
  have hRoom' : ∀ info, (s.stores o.identifier).collection = some info →
        ¬ (s.stores o.identifier).topRing.isFull info.ringSize.ringCapacity
          ∨ (s.stores o.identifier).currentRingIndex = u32Max := by
    intro info hInfo
    rw [hInfo, Option.all_some, decide_eq_true_eq] at hRoom
    exact Or.inl hRoom
  rcases o with ⟨id, now, op⟩
  cases op with
  | mergeRings b t => simp [sparing] at hSparing
  | removeSuspendedKeys r revision =>
    simp [sparing] at hSparing
  | _ => exact fun _ => ⟨hActive, hRoom'⟩

/- A ring of three members waits for its deletion. -/
def doomOps : List (TimedOp sampleConfig) :=
  [⟨0, .createCollection () 1 .flexible .r2e9 none⟩, ⟨0, .addMembers [10, 11, 12]⟩,
    ⟨0, .onboardMembers 0 0 (some 10)⟩,
    ⟨0, .deleteCollection ()⟩,
    ⟨0, .enqueueRingDeletion 0⟩]

/- Deleting the page forgets member 11, who was in the ring. -/
theorem ring_deletion_frame_sample :
    ∃ (steps : List (TraceStep (PalletState sampleConfig) (PalletOp sampleConfig)))
      (s s' : PalletState sampleConfig),
      Trace dispatch KeepsPages genesis steps s ∧ s.dispatch
            ⟨sampleIdentifier, ⟨1, .deleteRingPage 0 0⟩⟩
          = .ok s' ∧
        (s'.stores sampleIdentifier).members.get 11 ≠ (s.stores sampleIdentifier).members.get 11 ∧
        DoomedWith sampleIdentifier 0 0 s steps := by
  have hExecute : (performAll undisturbed doomOps).any (fun s =>
          (s.dispatch ⟨sampleIdentifier, ⟨1, .deleteRingPage 0 0⟩⟩).toOption.any fun s' =>
            (s'.stores sampleIdentifier).members.get 11
              ≠ (s.stores sampleIdentifier).members.get 11)
        = true := by
    decide +kernel
  rcases exists_run_of_execute (fun s o s' hOp _ => keepsPages_of_undisturbed s o s' hOp)
      hExecute with ⟨s, hRun, hTest⟩
  rcases Except.exists_ok_of_any hTest with ⟨s', hDispatch, hGet⟩
  rw [decide_eq_true_eq] at hGet
  rcases hRun.exists_trace with ⟨steps, hTrace⟩
  exact ⟨steps, s, s', hTrace, hDispatch, hGet,
    ((ring_deletion_frame steps s hTrace).2 sampleIdentifier 1 0 0 s' hDispatch 11 hGet).2⟩

end PalletState

end Individuality.MembersPallet
