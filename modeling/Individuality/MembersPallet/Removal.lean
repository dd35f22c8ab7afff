import Individuality.MembersPallet.Lifecycle
import Individuality.MembersPallet.Sample

/-
  Rings that were removed: their roots stay expired as long as nothing is written to the pages that
  wait for their deletion.

  Main declaration: `PalletState.removed_ring_expired`
-/

namespace Individuality.MembersPallet

open StorageMap (getD_remove)

variable {T : Config} {s s' : CollectionStore T} {r : RingIndex}

open CollectionStore

--
-- Steps That Leave a Doomed Page Alone
--

/-
  While the first page of ring `r` waits for its deletion, no ring is merged into `r`, and suspended
  keys are removed from `r` only when all keys of the page are suspended.
-/
def SparesDoomed (r : RingIndex) (s : CollectionStore T) : Op T → Prop
  | .mergeRings base _ =>
    base = r → (r, 0) ∉ s.ringDeletionQueue
  | .removeSuspendedKeys r' _ =>
    r' = r → (r, 0) ∈ s.ringDeletionQueue → ∀ i < (s.page r 0).length, i ∈ s.pending r
  | _ => True

/- The operation would place members into ring `r`. -/
def PlacesInto (r : RingIndex) (s : CollectionStore T) (op : Op T) : Prop :=
  op.addsMembers = true ∧ ∃ info, s.collection = some info ∧
      (s.availableRing info.ringSize.ringCapacity).2.ringIndex = r

/- The ring has no root and counts no keys. -/
def RingGone (r : RingIndex) (s : CollectionStore T) : Prop :=
  s.root.get r = none ∧ (s.ringStatus r).total = 0

/- Nothing is kept of a page whose keys are all suspended. -/
theorem keptKeys_eq_nil (hSorted : (s.pending r).Pairwise (· < ·))
    (hAll : ∀ i < (s.page r 0).length, i ∈ s.pending r) :
    s.keptKeys r = [] := by
  rw [List.eq_nil_iff_forall_not_mem]
  intro key hMem
  have hFrom : PositionsFrom 0 (s.pending r) := ⟨hSorted, fun _ _ => Nat.zero_le _⟩
  rcases (mem_removePositions_iff hFrom).mp hMem with ⟨j, hGet, hNot⟩
  rcases List.getElem?_eq_some_iff.mp hGet with ⟨hLt, _⟩
  rw [Nat.zero_add] at hNot
  exact hNot (hAll j hLt)

--
-- A Gone Ring Stays Gone
--

/- The first page of a ring without keys waits for deletion. -/
theorem doomed_of_ringGone (hLife : Lifecycle s) (hGone : RingGone r s) (hPage : s.page r 0 ≠ []) :
    (r, 0) ∈ s.ringDeletionQueue := by
  rcases hLife.page_counted r hPage with hMem | hTotal
  · exact hMem
  · rw [hGone.2] at hTotal
    exact absurd hTotal (Nat.lt_irrefl 0)

variable {op : Op T}

theorem RingEffect.ringGone (hEffect : RingEffect s op s') (hLife : Lifecycle s)
    (hSpares : SparesDoomed r s op) (hPlaces : ¬ PlacesInto r s op) (hGone : RingGone r s) :
    RingGone r s' := by
  cases hEffect with
  | added op s' info top hOp hNew hAddition =>
    have hOther : r ≠ top.ringIndex := by
      intro hEq
      apply hPlaces
      refine ⟨hOp, info, hAddition.collection, ?_⟩
      rw [hAddition.available, hEq]
    rcases hAddition.writes with ⟨_, _, _, _, _, _, _, rfl⟩
    refine ⟨hGone.1, ?_⟩
    simp only [ringStatus, ringStatus_insert, if_neg hOther]
    exact hGone.2
  | built op info r' toInclude i root stale oldRoots
      immutableSince hInfo hUnincluded =>
      have hOther : r ≠ r' := by
        intro hEq
        rw [← hEq, hGone.2] at hUnincluded
        omega
      constructor
      · rw [StorageMap.get_insert_of_ne _ _ hOther]
        exact hGone.1
      · simp only [ringStatus, ringStatus_insert, if_neg hOther]
        exact hGone.2
  | merged b t info f root oldRoots changes stale hInfo hMode
      hNe hBaseNe hTargetNe hBase hTarget hLengths
      hBasePending hTargetPending hKeys hFold hRoot hChanges =>
      have hOther : r ≠ b := by
        intro hEq
        have hDoomed := doomed_of_ringGone hLife hGone (hEq ▸ hBase)
        exact hSpares hEq.symm hDoomed
      constructor
      · rw [hRoot]
        split_ifs
        · rfl
        · exact hGone.1
      · simp only [ringStatus, getD_remove, StorageMap.getD_insert, if_neg hOther]
        split_ifs
        · rfl
        · exact hGone.2
  | reset r' revision info root oldRoots stale ringKeys hInfo
      hPending hRoot =>
      constructor
      · rw [hRoot]
        split_ifs with hEq
        · rw [← hEq, hGone.1, Option.map_none]
        · exact hGone.1
      · simp only [ringStatus, ringStatus_insert]
        split_ifs with hEq
        · rw [← hEq, List.length_eq_zero_iff]
          apply keptKeys_eq_nil (hLife.pending_sorted r)
          intro i hLt
          have hDoomed := doomed_of_ringGone hLife hGone
              (List.length_pos_iff.mp (Nat.lt_of_le_of_lt (Nat.zero_le i) hLt))
          exact hSpares hEq.symm hDoomed i hLt
        · exact hGone.2
  | enqueued op r' root oldRoots changes stale hOp hRoot =>
    constructor
    · rw [hRoot]
      split_ifs
      · rfl
      · exact hGone.1
    · simp only [ringStatus, getD_remove]
      split_ifs
      · rfl
      · exact hGone.2
  | _ => exact hGone

/- Enqueueing a ring for its deletion makes it gone. -/
theorem ringGone_enqueueRingForDeletion (s : CollectionStore T) (now : Nat) (r : RingIndex) :
    RingGone r (s.enqueueRingForDeletion now r) := by
  rcases enqueueRingForDeletion_eq s now r with ⟨root, oldRoots, changes, stale, hRoot, _, hEq⟩
  rw [hEq]
  constructor
  · rw [hRoot, if_pos rfl]
  · simp only [ringStatus, getD_remove]
    rfl

/- Onboarding and self-inclusion never place members into a ring that waits for its deletion. -/
theorem not_placesInto_of_queued (hLife : Lifecycle s) (hQueued : s.ringQueued r) :
    ¬ PlacesInto r s op := by
  rintro ⟨_, info, hInfo, hIndex⟩
  have hLive : s.collection.isSome = true := by
    rw [hInfo]
    rfl
  have hLt := hLife.queued_lt hLive r hQueued
  have hLe := (availableRing_index info.ringSize.ringCapacity hLife.current_le).1
  rw [hIndex] at hLe
  exact absurd hLt (Nat.not_lt.mpr hLe)

/- Only enqueueing a ring makes it wait for deletion. -/
theorem RingEffect.queued_cases (hEffect : RingEffect s op s') (hQueued : s'.ringQueued r) :
    s.ringQueued r ∨ RingGone r s' := by
  cases hEffect with
  | added op s' info top hOp hNew hAddition =>
    rcases hAddition.writes with ⟨_, _, _, _, _, _, _, rfl⟩
    exact Or.inl hQueued
  | enqueued op r' root oldRoots changes stale hOp hRoot =>
    rcases hQueued with ⟨⟨r'', p⟩, hMem, rfl⟩
    rw [Finset.mem_union, mem_ringPageEntries_iff] at hMem
    rcases hMem with hOld | ⟨rfl, _⟩
    · exact Or.inl ⟨_, hOld, rfl⟩
    · right
      constructor
      · rw [hRoot, if_pos rfl]
      · simp only [ringStatus, getD_remove]
        rfl
  | pageDeleted r' p hMem =>
    rcases hQueued with ⟨e, hE, hIndex⟩
    exact Or.inl ⟨e, Finset.mem_of_mem_erase hE, hIndex⟩
  | _ => exact Or.inl hQueued

/- A ring that waits for its deletion is gone. -/
theorem RingEffect.queuedGone (hEffect : RingEffect s op s') (hLife : Lifecycle s)
    (hSpares : SparesDoomed r s op) (hGone : s.ringQueued r → RingGone r s) :
    s'.ringQueued r → RingGone r s' := by
  intro hQueued
  rcases hEffect.queued_cases hQueued with hOld | hNew
  · exact hEffect.ringGone hLife hSpares (not_placesInto_of_queued hLife hOld) (hGone hOld)
  · exact hNew

--
-- Expired Revisions
--

/- Every revision of the ring is refused. -/
def RevisionsExpired (r : RingIndex) (s : CollectionStore T) : Prop :=
  ∀ now revision, s.isRevisionValid now r revision = false ∧ ∀ proof context msg, ∃ e,
      s.verifyMembership now proof r revision context msg = .error e

theorem getRootAtRevision_of_ringGone (hGone : RingGone r s) (now : Nat)
    (revision : RevisionIndex) :
    s.getRootAtRevision now r revision = .error Error.noRoot := by
  simp [getRootAtRevision, hGone.1]

theorem revisionsExpired_of_ringGone (hGone : RingGone r s) :
    RevisionsExpired r s := by
  intro now revision
  constructor
  · simp [isRevisionValid, hGone.1]
  · intro proof context msg
    cases hInfo : s.collection with
    | none =>
      refine ⟨Error.collectionNotFound, ?_⟩
      simp only [verifyMembership, hInfo, okOr]
      rfl
    | some info =>
      refine ⟨Error.noRoot, ?_⟩
      simp only [verifyMembership, hInfo, okOr, getRootAtRevision_of_ringGone hGone]
      rfl

namespace PalletState

/- The step spares the doomed page of ring `r` of `id`. -/
def SparesRing (id : Identifier) (r : RingIndex) (s : PalletState T) (o : PalletOp T)
    (_ : PalletState T) : Prop :=
  o.identifier = id → SparesDoomed r (s.stores id) o.call.op

/- The step also places no members into ring `r` of `id`. -/
def KeepsRemoved (id : Identifier) (r : RingIndex) (s : PalletState T) (o : PalletOp T)
    (s' : PalletState T) : Prop :=
  SparesRing id r s o s' ∧ (o.identifier = id → ¬ PlacesInto r (s.stores id) o.call.op)

theorem queuedGone_of_run {id : Identifier} {s : PalletState T}
    (hRun : RunUnder dispatch (SparesRing id r) genesis s) :
    Lifecycle (s.stores id) ∧ ((s.stores id).ringQueued r → RingGone r (s.stores id)) := by
  refine store_invariant_of_run (fun id' store => id' = id →
      Lifecycle store ∧ (store.ringQueued r → RingGone r store))
    hRun ?_ ?_ id rfl
  · rintro s o s' store hSpares hApply _ hInv rfl
    rcases hInv rfl with ⟨hLife, hGone⟩
    have hEffect := ringEffect_of_apply hApply
    exact ⟨hEffect.lifecycle hLife, hEffect.queuedGone hLife (hSpares rfl) hGone⟩
  · intro id' _
    refine ⟨lifecycle_empty, ?_⟩
    rintro ⟨e, hMem, _⟩
    simp [genesis, CollectionStore.empty] at hMem

theorem ringGone_of_run {id : Identifier} {s s' : PalletState T}
    (hRun : RunUnder dispatch (KeepsRemoved id r) s s') (hLife : Lifecycle (s.stores id))
    (hGone : RingGone r (s.stores id)) :
    RingGone r (s'.stores id) := by
  refine (store_invariant_of_run (fun id' store => id' = id → Lifecycle store ∧ RingGone r store)
    hRun ?_ ?_ id rfl).2
  · rintro s o s' store ⟨hSpares, hPlaces⟩ hApply _ hInv rfl
    rcases hInv rfl with ⟨hLife, hGone⟩
    have hEffect := ringEffect_of_apply hApply
    exact ⟨hEffect.lifecycle hLife, hEffect.ringGone hLife (hSpares rfl) (hPlaces rfl) hGone⟩
  · rintro id' rfl
    exact ⟨hLife, hGone⟩

/-
  When every step spares the doomed page of the ring, the revisions of a removed ring stay expired
  until members are placed into a new ring of that index.
-/
theorem removed_ring_expired (id : Identifier) (r : RingIndex) (now : Nat) (s s₁ s₂ : PalletState T)
    (hBefore : RunUnder dispatch (SparesRing id r) genesis s)
    (hRemove : s.dispatch ⟨id, ⟨now, .removeRing r⟩⟩ = .ok s₁)
    (hAfter : RunUnder dispatch (KeepsRemoved id r) s₁ s₂) :
    RevisionsExpired r (s₂.stores id) := by
  rcases queuedGone_of_run hBefore with ⟨hLife, hGone⟩
  rcases dispatch_eq_ok hRemove with ⟨store, hApply, hStores⟩
  have hStore : s₁.stores id = store := by
    rw [hStores]
    exact Function.update_self ..
  have hLife₁ : Lifecycle (s₁.stores id) := by
    rw [hStore]
    exact (ringEffect_of_apply hApply).lifecycle hLife
  have hGone₁ : RingGone r (s₁.stores id) := by
    rw [hStore]
    rcases (removeRing_eq_ok hApply).2.2 with ⟨hQueued, hSame⟩ | ⟨_, hEnqueue⟩
    · rw [hSame]
      exact hGone hQueued
    · rw [hEnqueue]
      exact ringGone_enqueueRingForDeletion _ now r
  exact revisionsExpired_of_ringGone (ringGone_of_run hAfter hLife₁ hGone₁)

--
-- A Removed Ring That Comes Back
--

/- Fill ring 0 and build its root. -/
def fillOps : List (TimedOp sampleConfig) :=
  [⟨0, .createCollection () 1 .flexible .r2e9 none⟩, ⟨0, .addMembers (List.range 255)⟩,
    ⟨0, .onboardMembers 0 0 (some (0 : Nat))⟩,
    ⟨0, .buildRing true 0 .r2e9 none 255⟩]

/- Suspend a member of the removed ring 0, and build it. -/
def reviveOps : List (TimedOp sampleConfig) :=
  [⟨1, .startRemovalSession⟩, ⟨1, .removeMembers [(3 : Nat)]⟩, ⟨1, .endRemovalSession⟩,
    ⟨1, .removeSuspendedKeys 0 none⟩,
    ⟨1, .buildRing true 0 .r2e9 none 254⟩]

/- Suspend a member of the removed ring 0, and delete its page. -/
def pageDeletionOps : List (TimedOp sampleConfig) :=
  [⟨1, .startRemovalSession⟩, ⟨1, .removeMembers [(3 : Nat)]⟩,
    ⟨1, .endRemovalSession⟩, ⟨1, .deleteRingPage 0 0⟩]

def removal : PalletOp sampleConfig :=
  ⟨sampleIdentifier, ⟨1, .removeRing 0⟩⟩

/- The operation writes to no ring that exists. -/
def sparing (_ : PalletState sampleConfig) (o : PalletOp sampleConfig) : Bool :=
  match o.call.op with
  | .mergeRings _ _ => false
  | .removeSuspendedKeys _ _ => false
  | _ => true

def placesNone (_ : PalletState sampleConfig) (o : PalletOp sampleConfig) : Bool :=
  o.call.op.addsMembers = false

def leaving (s : PalletState sampleConfig) (o : PalletOp sampleConfig) : Bool :=
  sparing s o && placesNone s o

theorem sparesRing_of_sparing (s : PalletState sampleConfig) (o : PalletOp sampleConfig)
    (s' : PalletState sampleConfig) (hSparing : sparing s o = true) :
    SparesRing sampleIdentifier 0 s o s' := by
  intro _
  rcases o with ⟨id, now, op⟩
  cases op with
  | mergeRings b t => simp [sparing] at hSparing
  | removeSuspendedKeys r revision =>
    simp [sparing] at hSparing
  | _ => exact trivial

theorem keepsRemoved_of_leaving (s : PalletState sampleConfig) (o : PalletOp sampleConfig)
    (s' : PalletState sampleConfig) (hLeaving : leaving s o = true) :
    KeepsRemoved sampleIdentifier 0 s o s' := by
  unfold leaving placesNone at hLeaving
  rw [Bool.and_eq_true, decide_eq_true_eq] at hLeaving
  refine ⟨sparesRing_of_sparing s o s' hLeaving.1, ?_⟩
  rintro _ ⟨hAdds, _⟩
  rw [hLeaving.2] at hAdds
  cases hAdds

/-
  After its removal ring 0 has 254 members and a valid
  revision 0 again, while no member is counted as active.
-/
def revives (s₁ : PalletState sampleConfig) : Bool :=
  (execute dispatch placesNone s₁ (reviveOps.map fun call =>
      ⟨sampleIdentifier, call⟩)).any fun s₂ =>
    let store := s₂.stores sampleIdentifier
    store.isRevisionValid 1 0 0 ∧ store.activeMembers = 0
      ∧ (store.ringKeysStatus.sum fun _ status => status.total) = 254

/- After its removal the 255 keys of ring 0 are deleted. -/
def losesPage (s₁ : PalletState sampleConfig) : Bool :=
  (execute dispatch leaving s₁ (pageDeletionOps.map fun call =>
      ⟨sampleIdentifier, call⟩)).any fun s₂ =>
    ((s₁.stores sampleIdentifier).page 0 0).length = 255
      ∧ (s₂.stores sampleIdentifier).page 0 0 = []

def removedThen (s : PalletState sampleConfig) : Bool :=
  match s.dispatch removal with
  | .error _ => false
  | .ok s₁ =>
    (s.stores sampleIdentifier).isRevisionValid 1 0 0 && revives s₁ && losesPage s₁

set_option maxRecDepth 100000 in
theorem removedThen_of_fillOps :
    (performAll sparing fillOps).any removedThen = true := by
  decide +kernel

/- A full ring with a root is removed. -/
theorem exists_removal : ∃ s s₁ : PalletState sampleConfig,
      RunUnder dispatch (SparesRing sampleIdentifier 0) genesis s ∧ s.dispatch removal = .ok s₁ ∧
        (s.stores sampleIdentifier).isRevisionValid 1 0 0 = true ∧
        revives s₁ = true ∧
        losesPage s₁ = true := by
  have hReached : ∃ s, RunUnder dispatch (SparesRing sampleIdentifier 0)
          genesis s ∧ removedThen s = true :=
    exists_run_of_execute (fun s o s' hSparing _ => sparesRing_of_sparing s o s' hSparing)
      removedThen_of_fillOps
  rcases hReached with ⟨s, hRun, hTest⟩
  unfold removedThen at hTest
  cases hDispatch : s.dispatch removal with
  | error e => simp [hDispatch] at hTest
  | ok s₁ =>
    simp only [hDispatch, Bool.and_eq_true, and_assoc] at hTest
    exact ⟨s, s₁, hRun, hDispatch, hTest⟩

/- A removed ring is suspended from and built again. -/
theorem exists_revival : ∃ s s₁ s₂ : PalletState sampleConfig,
      RunUnder dispatch (SparesRing sampleIdentifier 0) genesis s ∧ s.dispatch removal = .ok s₁ ∧
        RunUnder dispatch (fun s o _ => placesNone s o = true) s₁ s₂ ∧
        (s.stores sampleIdentifier).isRevisionValid 1 0 0 = true ∧
        (s₂.stores sampleIdentifier).isRevisionValid 1 0 0 = true ∧
        (s₂.stores sampleIdentifier).activeMembers = 0 ∧
        ((s₂.stores sampleIdentifier).ringKeysStatus.sum fun _ status => status.total) = 254 := by
  rcases exists_removal with ⟨s, s₁, hRun, hDispatch, hValid, hRevives, _⟩
  rcases exists_run_of_execute (fun _ _ _ hNone _ => hNone) hRevives with ⟨s₂, hAfter, hTest⟩
  rw [decide_eq_true_eq] at hTest
  exact ⟨s, s₁, s₂, hRun, hDispatch, hAfter, hValid, hTest⟩

/- The revisions of ring 0 stay expired while a member is suspended and its page is deleted. -/
theorem removed_ring_expired_sample : ∃ s s₁ s₂ : PalletState sampleConfig,
      (s.stores sampleIdentifier).isRevisionValid 1 0 0 = true ∧ s.dispatch removal = .ok s₁ ∧
        ((s₁.stores sampleIdentifier).page 0 0).length = 255 ∧
        (s₂.stores sampleIdentifier).page 0 0 = [] ∧
        RevisionsExpired 0 (s₂.stores sampleIdentifier) := by
  rcases exists_removal with ⟨s, s₁, hRun, hDispatch, hValid, _, hLoses⟩
  have hAfter : ∃ s₂, RunUnder dispatch (KeepsRemoved sampleIdentifier 0) s₁ s₂ ∧ _ :=
    exists_run_of_execute (fun s o s' hLeaving _ => keepsRemoved_of_leaving s o s' hLeaving) hLoses
  rcases hAfter with ⟨s₂, hRun₂, hTest⟩
  rw [decide_eq_true_eq] at hTest
  refine ⟨s, s₁, s₂, hValid, hDispatch, hTest.1, hTest.2, ?_⟩
  exact removed_ring_expired sampleIdentifier 0 1 s s₁ s₂ hRun hDispatch hRun₂

/-
  A run in which a removed ring has a valid revision again,
  although no members were placed into any ring.
-/
theorem removed_ring_revived : ∃ s s₁ s₂ : PalletState sampleConfig,
      RunUnder dispatch (fun _ _ _ => True) genesis s ∧ s.dispatch removal = .ok s₁ ∧
        RunUnder dispatch (fun _ o _ => o.call.op.addsMembers = false) s₁ s₂ ∧
        (s.stores sampleIdentifier).isRevisionValid 1 0 0 = true ∧
        (s₂.stores sampleIdentifier).isRevisionValid 1 0 0 = true ∧
        ¬ RevisionsExpired 0 (s₂.stores sampleIdentifier) := by
  rcases exists_revival with ⟨s, s₁, s₂, hRun, hDispatch, hAfter, hBefore, hValid, _⟩
  refine ⟨s, s₁, s₂, hRun.weaken fun _ _ _ _ => trivial,
    hDispatch, ?_, hBefore, hValid, ?_⟩
  · refine hAfter.weaken ?_
    intro s o s' hNone
    simpa [placesNone] using hNone
  · intro hExpired
    have hRefused := (hExpired 1 0).1
    rw [hValid] at hRefused
    exact absurd hRefused (by decide)

end PalletState

end Individuality.MembersPallet
