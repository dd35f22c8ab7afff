import Individuality.NftClaims.Spent

/-
  A block's deletion is queued when all its leaves are minted, or when its deadline has passed.

  Main declaration: `mem_queueTreeDeletions`
-/

namespace Individuality.NftClaims

open CreditTrees

open ClaimsState

variable {T : Config} {call : Claim T} {tree : NftClaimCreditTree}

/- Queueing adds the blocks that are named, and no other. -/
theorem mem_queueTreeDeletions
    {blocks : List Nat} {queued : BoundedVec Nat T.maxQueuedTreeDeletions} {block : Nat}
    (hMem : block ∈ (blocks.foldl (queueTreeDeletion (T := T)) queued).toList) :
    block ∈ queued.toList ∨ block ∈ blocks := by
  induction blocks generalizing queued with
  | nil => exact Or.inl hMem
  | cons head rest ih =>
    rcases ih hMem with hQueued | hRest
    · unfold queueTreeDeletion at hQueued
      cases hPush : queued.tryPush head with
      | none =>
        rw [hPush] at hQueued
        exact Or.inl hQueued
      | some pushed =>
        rw [hPush] at hQueued
        dsimp only [Option.getD_some] at hQueued
        rw [BoundedVec.tryPush_eq_some_iff.mp hPush, List.mem_append, List.mem_singleton] at hQueued
        rcases hQueued with hOld | rfl
        · exact Or.inl hOld
        · exact Or.inr (List.mem_cons_self ..)
    · exact Or.inr (List.mem_cons_of_mem _ hRest)

--
-- What Claims Leave
--

/-
  Claims keep the clock and the sequences.  They only remove
  and only queue blocks that are completed.
-/
structure Proceeds (s s' : ClaimsState T) : Prop where
  now : s'.now = s.now
  expected : s'.nextExpectedSequence = s.nextExpectedSequence
  accepted : s'.accepted = s.accepted
  missing : s'.missing = s.missing
  minted : ∀ leaf, leaf ∈ s.minted → leaf ∈ s'.minted
  trees : ∀ block tree,
      s.creditTrees.get block = some tree →
        s'.creditTrees.get block = some tree ∨ block ∈ s'.completed
  completed : ∀ block, block ∈ s.completed → block ∈ s'.completed
  pending : ∀ block,
      block ∈ s'.pendingTreeDeletions.toList →
        block ∈ s.pendingTreeDeletions.toList ∨ block ∈ s'.completed

theorem Proceeds.refl (s : ClaimsState T) : Proceeds s s :=
  { now := rfl
    expected := rfl
    accepted := rfl
    missing := rfl
    minted := fun _ hMem => hMem
    trees := fun _ _ hGet => Or.inl hGet
    completed := fun _ hMem => hMem
    pending := fun _ hMem => Or.inl hMem }

theorem Proceeds.trans {s s' s'' : ClaimsState T} (hFirst : Proceeds s s')
    (hSecond : Proceeds s' s'') :
    Proceeds s s'' where
  now := hSecond.now.trans hFirst.now
  expected := hSecond.expected.trans hFirst.expected
  accepted := hSecond.accepted.trans hFirst.accepted
  missing := hSecond.missing.trans hFirst.missing
  minted := fun leaf hMem => hSecond.minted leaf (hFirst.minted leaf hMem)
  trees := by
    intro block tree hGet
    rcases hFirst.trees block tree hGet with hKept | hDone
    · exact hSecond.trees block tree hKept
    · exact Or.inr (hSecond.completed block hDone)
  completed := fun block hMem =>
    hSecond.completed block (hFirst.completed block hMem)
  pending := by
    intro block hMem
    rcases hSecond.pending block hMem with hMid | hDone
    · rcases hFirst.pending block hMid with hOld | hDone
      · exact Or.inl hOld
      · exact Or.inr (hSecond.completed block hDone)
    · exact Or.inr hDone

theorem Proceeds.begun {s spent : ClaimsState T} (hBegun : Begun s spent call tree) :
    Proceeds s spent := by
  rcases hBegun.state with ⟨_, rfl, _⟩
  exact { Proceeds.refl s with }

theorem Proceeds.complete {s s' : ClaimsState T} {item : Nat}
    (hComplete : s.completeClaim call tree item = .ok s') :
    Proceeds s s' := by
  simp only [completeClaim, Except.bind_eq_ok, ensure_eq_ok_iff, exists_const] at hComplete
  rcases hComplete with ⟨_, hComplete⟩
  split at hComplete
  · cases hComplete
    exact
      { Proceeds.refl s with
        minted := fun leaf hMem =>
          List.mem_append_left _ hMem }
  · cases hComplete
    refine
      { now := rfl
        expected := rfl
        accepted := rfl
        missing := rfl
        minted := fun leaf hMem => List.mem_append_left _ hMem
        trees := ?_
        completed := fun block hMem => List.mem_append_left _ hMem
        pending := ?_ }
    · intro block tree' hGet
      by_cases hBlock : block = call.block
      · subst hBlock
        exact Or.inr (List.mem_append_right _ (List.mem_singleton_self _))
      · left
        change (s.creditTrees.remove call.block).get block = some tree'
        rw [StorageMap.get_remove, if_neg hBlock]
        exact hGet
    · intro block hMem
      have hQueued : block ∈ s.pendingTreeDeletions.toList ∨ block ∈ [call.block] :=
        mem_queueTreeDeletions hMem
      rcases hQueued with hOld | hNew
      · exact Or.inl hOld
      · exact Or.inr (List.mem_append_right _ hNew)

theorem Proceeds.setCollectionMinter {s s' : ClaimsState T} {nfts : Nfts T} {who : T.AccountId}
    {collection : Nat} {selection : Option ItemSelection} {isContract : Nat → Bool}
    (hSet : s.setCollectionMinter nfts who collection selection isContract = .ok s') :
    Proceeds s s' ∧ s'.claimedLeaves = s.claimedLeaves ∧ s'.minted = s.minted
      ∧ s'.completed = s.completed := by
  simp only [ClaimsState.setCollectionMinter, Except.bind_eq_ok] at hSet
  rcases hSet with ⟨_, _, _, _, hSet⟩
  cases selection with
  | none =>
    cases hSet
    exact ⟨{ Proceeds.refl s with }, rfl, rfl, rfl⟩
  | some selection =>
    simp only [Except.bind_eq_ok] at hSet
    rcases hSet with ⟨_, _, hSet⟩
    cases hSet
    exact ⟨{ Proceeds.refl s with }, rfl, rfl, rfl⟩

--
-- Paid Leaves
--

variable (content : Nat → NftClaimCreditTree)

/-
  Every claimed leaf, and every leaf of a completed block, was
  minted or belongs to a claim that is still under way.
-/
structure Paid (underWay : List (Nat × Nat)) (s : ClaimsState T) : Prop where
  claimed :
    ∀ block i, s.Claimed block i → (block, i) ∈ s.minted ∨ (block, i) ∈ underWay
  completed : ∀ block,
      block ∈ s.completed →
        ∀ i, i < (content block).leafCount →
          (block, i) ∈ s.minted ∨ (block, i) ∈ underWay

variable {content}

theorem paid_genesis : Paid content [] (ClaimsState.genesis T) where
  claimed := by
    intro block i hClaimed
    simp [ClaimsState.genesis, Claimed, leaves] at hClaimed
  completed := by
    intro block hMem
    cases hMem

namespace Paid

variable {underWay : List (Nat × Nat)} {s s' : ClaimsState T}

theorem of_same (hPaid : Paid content underWay s) (hLeaves : s'.claimedLeaves = s.claimedLeaves)
    (hMinted : s'.minted = s.minted) (hCompleted : s'.completed = s.completed) :
    Paid content underWay s' where
  claimed := by
    intro block i hClaimed
    rw [hMinted]
    apply hPaid.claimed block i
    unfold Claimed leaves at hClaimed ⊢
    rw [← hLeaves]
    exact hClaimed
  completed := by
    rw [hMinted, hCompleted]
    exact hPaid.completed

/- A claim under way has spent its leaf. -/
theorem begun (hPaid : Paid content underWay s) (hBegun : Begun s s' call tree) :
    Paid content ((call.block, call.leafIndex) :: underWay) s' := by
  have hLeaves := hBegun.leaves
  rcases hBegun.state with ⟨_, rfl, _⟩
  refine { claimed := ?_, completed := ?_ }
  · intro block i hClaimed
    rcases (hLeaves block i).mp hClaimed with hOld | ⟨rfl, rfl⟩
    · rcases hPaid.claimed block i hOld with hMinted | hSpent
      · exact Or.inl hMinted
      · exact Or.inr (List.mem_cons_of_mem _ hSpent)
    · exact Or.inr (List.mem_cons_self ..)
  · intro block hMem i hLt
    rcases hPaid.completed block hMem i hLt with
      hMinted | hSpent
    · exact Or.inl hMinted
    · exact Or.inr (List.mem_cons_of_mem _ hSpent)

/- A claim that is over has minted its leaf. -/
theorem complete {item : Nat} (hInv : SpentInvariant content s)
    (hPaid : Paid content ((call.block, call.leafIndex) :: underWay) s)
    (hComplete : s.completeClaim call (content call.block) item = .ok s') :
    Paid content underWay s' := by
  rcases completeClaim_spec hComplete with ⟨_, _, hLeaves, hMinted, hTrees⟩
  have hMove : ∀ leaf, (leaf ∈ s.minted ∨ leaf ∈ (call.block, call.leafIndex) :: underWay) →
          leaf ∈ s'.minted ∨ leaf ∈ underWay := by
    intro leaf hLeaf
    rw [hMinted, List.mem_append, List.mem_singleton]
    rw [List.mem_cons] at hLeaf
    rcases hLeaf with hOld | hOwn | hSpent
    · exact Or.inl (Or.inl hOld)
    · exact Or.inl (Or.inr hOwn)
    · exact Or.inr hSpent
  refine { claimed := ?_, completed := ?_ }
  · intro block i hClaimed
    apply hMove
    apply hPaid.claimed block i
    unfold Claimed leaves at hClaimed ⊢
    rw [← hLeaves]
    exact hClaimed
  · intro block hMem i hLt
    apply hMove
    rcases hTrees with ⟨_, hSame⟩ | ⟨hAll, _, hAppend⟩
    · rw [hSame] at hMem
      exact hPaid.completed block hMem i hLt
    · rw [hAppend, List.mem_append, List.mem_singleton] at hMem
      rcases hMem with hOld | rfl
      · exact hPaid.completed block hOld i hLt
      · exact hPaid.claimed call.block i (Bitmap.isSet_of_le_ones (hInv.below call.block) hAll hLt)

theorem claim {selector : Reentry T}
    (hSelect : ∀ underWay (s : ClaimsState T), SpentInvariant content s →
        Paid content underWay s → Paid content underWay (selector.run s).1
            ∧ Proceeds s (selector.run s).1)
    (hInv : SpentInvariant content s)
    (hPaid : Paid content underWay s)
    (hClaim : s.claim call selector.run = .ok s') :
    Paid content underWay s' ∧ Proceeds s s' := by
  simp only [ClaimsState.claim, Except.bind_eq_ok] at hClaim
  rcases hClaim with ⟨⟨tree, spent⟩, hBegin, ⟨item, selected⟩, hItem, hComplete⟩
  have hBegun := beginClaim_spec hBegin
  have hSpent := hInv.begun hBegun
  have hSelected : SpentInvariant content selected ∧ Paid content
            ((call.block, call.leafIndex) :: underWay) selected
        ∧ Proceeds spent selected := by
    rcases selectItem_spec hItem with hEq | ⟨_, hEq⟩
    · rw [hEq]
      exact ⟨hSpent, hPaid.begun hBegun, Proceeds.refl spent⟩
    · rw [hEq]
      exact ⟨(selector.run_spent spent hSpent).1, hSelect _ spent hSpent (hPaid.begun hBegun)⟩
  refine ⟨?_, ?_⟩
  · have hTree := (hInv.held _ _ hBegun.held).1
    dsimp only at hComplete
    rw [hTree] at hComplete
    exact complete hSelected.1 hSelected.2.1 hComplete
  · exact ((Proceeds.begun hBegun).trans hSelected.2.2).trans (Proceeds.complete hComplete)

end Paid

theorem Reentry.run_paid (selector : Reentry T) (underWay : List (Nat × Nat)) (s : ClaimsState T)
    (hInv : SpentInvariant content s) (hPaid : Paid content underWay s) :
    Paid content underWay (selector.run s).1 ∧ Proceeds s (selector.run s).1 := by
  induction selector generalizing s underWay with
  | done item => exact ⟨hPaid, Proceeds.refl s⟩
  | claim call selector rest hSelector hRest =>
    unfold Reentry.run
    cases hClaim : s.claim call selector.run with
    | error e => exact hRest underWay s hInv hPaid
    | ok s₁ =>
      have hStep := Paid.claim hSelector hInv hPaid hClaim
      have hThen := hRest underWay s₁ (hInv.claim selector.run_spent hClaim).1 hStep.1
      exact ⟨hThen.1, hStep.2.trans hThen.2⟩
  | setCollectionMinter nfts who collection selection isContract
      rest hRest =>
      unfold Reentry.run
      cases hSet : s.setCollectionMinter nfts who collection selection
          isContract with
      | error e => exact hRest underWay s hInv hPaid
      | ok s₁ =>
        have hStep := Proceeds.setCollectionMinter hSet
        have hThen := hRest underWay s₁ (hInv.setCollectionMinter hSet).1
            (hPaid.of_same hStep.2.1 hStep.2.2.1 hStep.2.2.2)
        exact ⟨hThen.1, hStep.1.trans hThen.2⟩
  | attempt inner rest hInner hRest =>
    unfold Reentry.run
    cases hItem : (inner.run s).2 with
    | none => exact hRest underWay s hInv hPaid
    | some item =>
      have hStep := hInner underWay s hInv hPaid
      have hThen := hRest underWay (inner.run s).1 (inner.run_spent s hInv).1 hStep.1
      exact ⟨hThen.1, hStep.2.trans hThen.2⟩

--
-- Sweeps
--

theorem mem_foldl_retireBlock {blocks : List Nat} {state : ClaimsState T × List Nat} {block : Nat}
    (hMem : block ∈ (blocks.foldl retireBlock state).2) :
    block ∈ state.2 ∨ block ∈ blocks := by
  induction blocks generalizing state with
  | nil => exact Or.inl hMem
  | cons head rest ih =>
    rcases ih hMem with hState | hRest
    · dsimp only [retireBlock] at hState
      split at hState
      · rw [List.mem_append, List.mem_singleton] at hState
        rcases hState with hOld | rfl
        · exact Or.inl hOld
        · exact Or.inr (List.mem_cons_self ..)
      · exact Or.inl hState
    · exact Or.inr (List.mem_cons_of_mem _ hRest)

/- A sweep removes trees and bitmaps whose deadline has passed, and queues no other blocks. -/
theorem doSweepExpiredTrees_spec {s : ClaimsState T} (hInv : SpentInvariant content s) :
    ∃ gone : Nat → Prop, (∀ block, gone block →
        expiryDeadline (content block).timestamp T.treeTtl ≤ s.now)
        ∧ (∀ block, ¬ gone block →
          s.doSweepExpiredTrees.creditTrees.get block = s.creditTrees.get block)
        ∧ (∀ block i, s.doSweepExpiredTrees.Claimed block i → s.Claimed block i)
        ∧ (∀ block, block ∈ s.doSweepExpiredTrees.pendingTreeDeletions.toList →
            block ∈ s.pendingTreeDeletions.toList ∨ gone block)
        ∧ s.doSweepExpiredTrees.now = s.now
        ∧ s.doSweepExpiredTrees.minted = s.minted
        ∧ s.doSweepExpiredTrees.completed = s.completed
        ∧ s.doSweepExpiredTrees.nextExpectedSequence = s.nextExpectedSequence
        ∧ s.doSweepExpiredTrees.accepted = s.accepted
        ∧ s.doSweepExpiredTrees.missing = s.missing := by
  let drained := drainDueExpiries T.twox T.treeTtl s.now T.maxTreeDeletionsPerMessage s.treeExpiries
  rcases SpentInvariant.foldl_retireBlock_spec drained.1
      ({ s with treeExpiries := drained.2 }, []) with
    ⟨hTrees, hLeaves, trees, bitmaps, hState⟩
  have hEq : s.doSweepExpiredTrees
      = (drained.1.foldl retireBlock ({ s with treeExpiries := drained.2 }, [])
          ).1.queueTreeDeletions
        (drained.1.foldl retireBlock ({ s with treeExpiries := drained.2 }, [])).2 := rfl
  refine ⟨(· ∈ drained.1), ?_, ?_, ?_, ?_, ?_⟩
  · intro block hMem
    rcases mem_drainDueExpiries_iff.mp hMem with ⟨timestamp, hDue⟩
    have hEntry := mem_dueExpiries hDue
    rw [← hInv.entries timestamp block hEntry.1]
    exact hEntry.2
  · intro block hNotMem
    rw [hEq]
    exact (hTrees block).trans (if_neg hNotMem)
  · intro block i hClaimed
    rw [hEq] at hClaimed
    unfold Claimed ClaimsState.leaves StorageMap.getD at hClaimed ⊢
    dsimp only [queueTreeDeletions] at hClaimed
    rw [hLeaves block] at hClaimed
    split at hClaimed
    · simp at hClaimed
    · exact hClaimed
  · intro block hMem
    rw [hEq] at hMem
    rcases mem_queueTreeDeletions hMem with hOld | hExpired
    · left
      rw [hState] at hOld
      exact hOld
    · right
      rcases mem_foldl_retireBlock hExpired with hNil | hGone
      · cases hNil
      · exact hGone
  · rw [hEq]
    dsimp only [queueTreeDeletions]
    rw [hState]
    exact ⟨rfl, rfl, rfl, rfl, rfl, rfl⟩

end Individuality.NftClaims
