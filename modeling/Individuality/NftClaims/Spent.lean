import Individuality.NftClaims.Claiming

/-
  The leaves of a block stay claimed until no delivery can
  bring its tree back, so that no leaf is minted twice.

  Main declaration: `FixedContent`
-/

namespace Individuality.NftClaims

open StorageMap (get_insert get_remove)

open CreditTrees

variable {T : Config} {tree : NftClaimCreditTree} {call : Claim T}

/- Every tree delivered for a block is the one it has. -/
def FixedContent (content : Nat → NftClaimCreditTree) : Op T → Prop
  | .receiveCreditTrees batch =>
    ∀ update ∈ batch.toList, update.tree.leafCount ≠ 0 → update.tree.root ≠ zeroHash →
      update.tree.leafCount ≤ T.maxCreditsPerTree → update.tree = content update.block
  | _ => True

open ClaimsState

variable (content : Nat → NftClaimCreditTree)

/- The tree of a block is gone and not accepted any more. -/
def Over (s : ClaimsState T) (block : Nat) : Prop :=
  s.creditTrees.get block = none ∧ expiryDeadline (content block).timestamp T.treeTtl ≤ s.now

/-
  Trees and bitmaps are filed for expiry, and what was minted
  stays claimed until the tree of its block is over.
-/
structure SpentInvariant (s : ClaimsState T) : Prop where
  held : ∀ block tree,
      s.creditTrees.get block = some tree →
        tree = content block
          ∧ s.treeExpiries.get
              ((content block).timestamp, block) = some ()
  entries : ∀ timestamp block,
      s.treeExpiries.get (timestamp, block) = some () →
        timestamp = (content block).timestamp
  bitmaps : ∀ block bitmap,
      s.claimedLeaves.get block = some bitmap →
        s.treeExpiries.get
          ((content block).timestamp, block) = some ()
  below : ∀ block i, s.Claimed block i → i < (content block).leafCount
  minted :
    ∀ block i, (block, i) ∈ s.minted → s.Claimed block i ∨ Over content s block
  completed : ∀ block,
      block ∈ s.completed →
        (∀ i, i < (content block).leafCount → s.Claimed block i)
          ∨ Over content s block
  once : s.minted.Nodup

variable {content}

theorem spentInvariant_genesis :
    SpentInvariant content (ClaimsState.genesis T) where
  held := by
    intro block tree hGet
    simp [ClaimsState.genesis] at hGet
  entries := by
    intro timestamp block hGet
    simp [ClaimsState.genesis] at hGet
  bitmaps := by
    intro block bitmap hGet
    simp [ClaimsState.genesis] at hGet
  below := by
    intro block i hClaimed
    simp [ClaimsState.genesis, Claimed, leaves] at hClaimed
  minted := by
    intro block i hMem
    cases hMem
  completed := by
    intro block hMem
    cases hMem
  once := List.nodup_nil

--
-- Claims
--

namespace SpentInvariant

variable {s s' : ClaimsState T}

/- What was minted cannot be claimed in a held tree. -/
theorem notMem_minted (hInv : SpentInvariant content s) {block i : Nat}
    (hHeld : s.creditTrees.get block = some tree) (hUnclaimed : s.Unclaimed block i) :
    (block, i) ∉ s.minted := by
  intro hMem
  rcases hInv.minted block i hMem with hClaimed | hOver
  · exact not_claimed_of_unclaimed hUnclaimed hClaimed
  · rw [hOver.1] at hHeld
    cases hHeld

/- A held tree with an unclaimed leaf was not completed. -/
theorem notMem_completed (hInv : SpentInvariant content s) {block i : Nat}
    (hHeld : s.creditTrees.get block = some tree) (hIndex : i < tree.leafCount)
    (hUnclaimed : s.Unclaimed block i) :
    block ∉ s.completed := by
  intro hMem
  rw [(hInv.held block tree hHeld).1] at hIndex
  rcases hInv.completed block hMem with hAll | hOver
  · exact not_claimed_of_unclaimed hUnclaimed (hAll i hIndex)
  · rw [hOver.1] at hHeld
    cases hHeld

/- Spending a leaf of a held tree. -/
theorem begun (hInv : SpentInvariant content s) (hBegun : Begun s s' call tree) :
    SpentInvariant content s' := by
  have hHeld := hInv.held call.block tree hBegun.held
  have hLeaves := hBegun.leaves
  have hIndex := hBegun.index
  rcases hBegun.state with ⟨claimedLeaves, rfl, hOthers⟩
  exact
    { held := hInv.held
      entries := hInv.entries
      bitmaps := by
        intro block bitmap hGet
        by_cases hBlock : block = call.block
        · subst hBlock
          exact hHeld.2
        · dsimp only at hGet
          rw [hOthers block hBlock] at hGet
          exact hInv.bitmaps block bitmap hGet
      below := by
        intro block i hClaimed
        rcases (hLeaves block i).mp hClaimed with hOld | hNew
        · exact hInv.below block i hOld
        · rw [hNew.1, hNew.2, ← hHeld.1]
          exact hIndex
      minted := by
        intro block i hMem
        rcases hInv.minted block i hMem with hOld | hOver
        · exact Or.inl ((hLeaves block i).mpr (Or.inl hOld))
        · exact Or.inr hOver
      completed := by
        intro block hMem
        rcases hInv.completed block hMem with hAll | hOver
        · refine Or.inl fun i hLt => ?_
          exact (hLeaves block i).mpr (Or.inl (hAll i hLt))
        · exact Or.inr hOver
      once := hInv.once }

/- Minting a leaf that is claimed and was not minted. -/
theorem complete {item : Nat} (hInv : SpentInvariant content s)
    (hClaimed : s.Claimed call.block call.leafIndex)
    (hNotMem : (call.block, call.leafIndex) ∉ s.minted)
    (hComplete : s.completeClaim call (content call.block) item = .ok s') :
    SpentInvariant content s' := by
  rcases completeClaim_spec hComplete with ⟨hNow, hExpiries, hLeaves, hMinted, hTrees⟩
  have hSame : ∀ block i, s'.Claimed block i ↔ s.Claimed block i := by
    intro block i
    unfold Claimed leaves
    rw [hLeaves]
  have hGet : ∀ block tree, s'.creditTrees.get block = some tree →
          s.creditTrees.get block = some tree := by
    intro block tree hGet
    rcases hTrees with ⟨hEq, _⟩ | ⟨_, hRemoved, _⟩
    · rw [hEq] at hGet
      exact hGet
    · rw [hRemoved, get_remove] at hGet
      split at hGet
      · cases hGet
      · exact hGet
  have hOver : ∀ block, Over content s block → Over content s' block := by
    rintro block ⟨hNone, hDue⟩
    refine ⟨?_, by rw [hNow]; exact hDue⟩
    cases hTree : s'.creditTrees.get block with
    | none => rfl
    | some tree =>
      rw [hGet block tree hTree] at hNone
      cases hNone
  have hKept : ∀ block, block ∈ s.completed →
          (∀ i, i < (content block).leafCount → s'.Claimed block i) ∨ Over content s' block := by
    intro block hMem
    rcases hInv.completed block hMem with hAll | hOld
    · refine Or.inl fun i hLt => ?_
      exact (hSame block i).mpr (hAll i hLt)
    · exact Or.inr (hOver block hOld)
  refine
    { held := ?_
      entries := ?_
      bitmaps := ?_
      below := ?_
      minted := ?_
      completed := ?_
      once := ?_ }
  · intro block tree hTree
    rw [hExpiries]
    exact hInv.held block tree (hGet block tree hTree)
  · rw [hExpiries]
    exact hInv.entries
  · rw [hExpiries, hLeaves]
    exact hInv.bitmaps
  · intro block i hSet
    exact hInv.below block i ((hSame block i).mp hSet)
  · intro block i hMem
    rw [hMinted, List.mem_append, List.mem_singleton, Prod.mk.injEq] at hMem
    rcases hMem with hOld | ⟨rfl, rfl⟩
    · rcases hInv.minted block i hOld with hSet | hGone
      · exact Or.inl ((hSame block i).mpr hSet)
      · exact Or.inr (hOver block hGone)
    · exact Or.inl ((hSame _ _).mpr hClaimed)
  · intro block hMem
    rcases hTrees with ⟨_, hEq⟩ | ⟨hAll, _, hAppend⟩
    · rw [hEq] at hMem
      exact hKept block hMem
    · rw [hAppend, List.mem_append, List.mem_singleton] at hMem
      rcases hMem with hOld | rfl
      · exact hKept block hOld
      · refine Or.inl fun i hLt => ?_
        rw [hSame]
        exact Bitmap.isSet_of_le_ones (hInv.below call.block) hAll hLt
  · rw [hMinted]
    refine List.Nodup.append hInv.once (List.nodup_singleton _) ?_
    rintro leaf hOld hNew
    rw [List.mem_singleton] at hNew
    exact hNotMem (hNew ▸ hOld)

/-
  A claim whose selection keeps the invariant keeps it, and
  mints a leaf that was not claimed before.
-/
theorem claim {select : ClaimsState T → ClaimsState T × Option Nat}
    (hInv : SpentInvariant content s)
    (hSelect : ∀ s, SpentInvariant content s →
        SpentInvariant content (select s).1 ∧ Advances s (select s).1)
    (hClaim : s.claim call select = .ok s') :
    SpentInvariant content s' ∧ Advances s s' := by
  simp only [ClaimsState.claim, Except.bind_eq_ok] at hClaim
  rcases hClaim with ⟨⟨tree, spent⟩, hBegin, ⟨item, selected⟩, hItem, hComplete⟩
  have hBegun := beginClaim_spec hBegin
  have hSpent := hInv.begun hBegun
  have hSelected : SpentInvariant content selected ∧ Advances spent selected := by
    rcases selectItem_spec hItem with hEq | ⟨_, hEq⟩
    · rw [hEq]
      exact ⟨hSpent, Advances.refl spent⟩
    · rw [hEq]
      exact hSelect spent hSpent
  have hOwn : spent.Claimed call.block call.leafIndex := (hBegun.leaves _ _).mpr (Or.inr ⟨rfl, rfl⟩)
  have hNotMem : (call.block, call.leafIndex) ∉ selected.minted := by
    intro hMem
    rcases hSelected.2.minted _ _ hMem with hOld | hUnclaimed
    · have hNone := hInv.notMem_minted hBegun.held hBegun.unclaimed
      rcases hBegun.state with ⟨_, rfl, _⟩
      exact hNone hOld
    · exact not_claimed_of_unclaimed hUnclaimed hOwn
  refine ⟨?_, ?_⟩
  · have hTree := (hInv.held _ _ hBegun.held).1
    dsimp only at hComplete
    rw [hTree] at hComplete
    exact hSelected.1.complete (hSelected.2.claimed _ _ hOwn) hNotMem hComplete
  · exact (hBegun.advances.trans hSelected.2).complete hBegun.unclaimed hComplete

/- Nothing but the minters changes with a registration. -/
theorem setCollectionMinter {nfts : Nfts T} {who : T.AccountId} {collection : Nat}
    {selection : Option ItemSelection} {isContract : Nat → Bool} (hInv : SpentInvariant content s)
    (hSet : s.setCollectionMinter nfts who collection selection isContract = .ok s') :
    SpentInvariant content s' ∧ Advances s s' := by
  simp only [ClaimsState.setCollectionMinter, Except.bind_eq_ok] at hSet
  rcases hSet with ⟨_, _, _, _, hSet⟩
  cases selection with
  | none =>
    cases hSet
    exact ⟨{ hInv with }, { Advances.refl s with }⟩
  | some selection =>
    simp only [Except.bind_eq_ok] at hSet
    rcases hSet with ⟨_, _, hSet⟩
    cases hSet
    exact ⟨{ hInv with }, { Advances.refl s with }⟩

end SpentInvariant

/- A minter contract keeps the invariant. -/
theorem Reentry.run_spent (selector : Reentry T) (s : ClaimsState T)
    (hInv : SpentInvariant content s) :
    SpentInvariant content (selector.run s).1 ∧ Advances s (selector.run s).1 := by
  induction selector generalizing s with
  | done item => exact ⟨hInv, Advances.refl s⟩
  | claim call selector rest hSelector hRest =>
    unfold Reentry.run
    cases hClaim : s.claim call selector.run with
    | error e => exact hRest s hInv
    | ok s₁ =>
      have hStep := hInv.claim hSelector hClaim
      have hThen := hRest s₁ hStep.1
      exact ⟨hThen.1, hStep.2.trans hThen.2⟩
  | setCollectionMinter nfts who collection selection isContract
      rest hRest =>
      unfold Reentry.run
      cases hSet : s.setCollectionMinter nfts who collection selection
          isContract with
      | error e => exact hRest s hInv
      | ok s₁ =>
        have hStep := hInv.setCollectionMinter hSet
        have hThen := hRest s₁ hStep.1
        exact ⟨hThen.1, hStep.2.trans hThen.2⟩
  | attempt inner rest hInner hRest =>
    unfold Reentry.run
    cases hItem : (inner.run s).2 with
    | none => exact hRest s hInv
    | some item =>
      have hStep := hInner s hInv
      have hThen := hRest (inner.run s).1 hStep.1
      exact ⟨hThen.1, hStep.2.trans hThen.2⟩

--
-- Deliveries
--

namespace SpentInvariant

variable {s s' : ClaimsState T} {update : CreditTreeDelivery}

/- A tree is stored for a block that is not over. -/
theorem storeTree (hInv : SpentInvariant content s) (hContent : update.tree = content update.block)
    (hDue : ¬ expiryDeadline update.tree.timestamp T.treeTtl ≤ s.now) :
    SpentInvariant content (s.storeTree update) := by
  have hOver : ∀ block, Over content s block → Over content (s.storeTree update) block := by
    rintro block ⟨hNone, hPast⟩
    have hNe : block ≠ update.block := by
      rintro rfl
      rw [hContent] at hDue
      exact hDue hPast
    exact ⟨(StorageMap.get_insert_of_ne _ _ hNe).trans hNone, hPast⟩
  have hEntry : ∀ key, s.treeExpiries.get key = some () →
          (s.storeTree update).treeExpiries.get key = some () := by
    intro key hGet
    change (s.treeExpiries.insert _ ()).get key = some ()
    rw [get_insert]
    split
    · rfl
    · exact hGet
  refine
    { held := ?_
      entries := ?_
      bitmaps := fun block bitmap hGet => hEntry _ (hInv.bitmaps block bitmap hGet)
      below := hInv.below
      minted := ?_
      completed := ?_
      once := hInv.once }
  · intro block tree hGet
    change (s.creditTrees.insert _ _).get block = some tree at hGet
    rw [get_insert] at hGet
    by_cases hBlock : block = update.block
    · rw [if_pos hBlock, Option.some.injEq] at hGet
      subst hBlock
      refine ⟨hGet ▸ hContent, ?_⟩
      rw [← hContent]
      exact StorageMap.get_insert_self _ _ _
    · rw [if_neg hBlock] at hGet
      have hHeld := hInv.held block tree hGet
      exact ⟨hHeld.1, hEntry _ hHeld.2⟩
  · intro timestamp block hGet
    change (s.treeExpiries.insert _ ()).get (timestamp, block) = some () at hGet
    rw [get_insert] at hGet
    by_cases hKey : (timestamp, block) = (update.tree.timestamp, update.block)
    · rw [Prod.mk.injEq] at hKey
      rw [hKey.1, hKey.2, hContent]
    · rw [if_neg hKey] at hGet
      exact hInv.entries timestamp block hGet
  · intro block i hMem
    rcases hInv.minted block i hMem with hClaimed | hOld
    · exact Or.inl hClaimed
    · exact Or.inr (hOver block hOld)
  · intro block hMem
    rcases hInv.completed block hMem with hAll | hOld
    · exact Or.inl hAll
    · exact Or.inr (hOver block hOld)

theorem receiveTree {state : ClaimsState T × List Nat} (hInv : SpentInvariant content state.1)
    (hContent : update.tree.leafCount ≠ 0 → update.tree.root ≠ zeroHash →
      update.tree.leafCount ≤ T.maxCreditsPerTree → update.tree = content update.block) :
    SpentInvariant content (ClaimsState.receiveTree state update).1 := by
  unfold ClaimsState.receiveTree
  split
  · exact hInv
  · rename_i hValid
    push Not at hValid
    split
    · exact hInv
    · rename_i hFits
      split
      · exact hInv
      · rename_i hFresh
        have hTree := hContent hValid.1 hValid.2 (Nat.le_of_not_lt hFits)
        split
        · split
          · exact hInv
          · exact hInv
        · apply hInv.storeTree hTree
          simpa [treeHasExpired] using hFresh

theorem receiveCreditTrees {batch : BoundedVec CreditTreeDelivery T.maxTreesPerMessage}
    (hInv : SpentInvariant content s)
    (hContent : FixedContent content (Op.receiveCreditTrees batch)) :
    SpentInvariant content (s.receiveCreditTrees batch) := by
  have hFold : ∀ (updates : List CreditTreeDelivery) (state : ClaimsState T × List Nat),
        (∀ update ∈ updates, update ∈ batch.toList) →
        SpentInvariant content state.1 → SpentInvariant content
            (updates.foldl ClaimsState.receiveTree state).1 := by
    intro updates
    induction updates with
    | nil =>
      intro state _ hState
      exact hState
    | cons update updates ih =>
      intro state hMem hState
      apply ih
      · intro other hOther
        exact hMem other (List.mem_cons_of_mem _ hOther)
      · exact hState.receiveTree (hContent update (hMem update (List.mem_cons_self ..)))
  exact
    { hFold batch.toList (s, []) (fun _ hMem => hMem) hInv
        with }

--
-- Sweeps
--

/- The blocks of a sweep lose their trees and bitmaps. -/
theorem foldl_retireBlock_spec (blocks : List Nat) (state : ClaimsState T × List Nat) :
    (∀ block, (blocks.foldl retireBlock state).1.creditTrees.get block = if block ∈ blocks then none
          else state.1.creditTrees.get block)
      ∧ (∀ block, (blocks.foldl retireBlock state).1.claimedLeaves.get block
          = if block ∈ blocks then none else state.1.claimedLeaves.get block)
      ∧ ∃ creditTrees claimedLeaves, (blocks.foldl retireBlock state).1
          = { state.1 with
              creditTrees := creditTrees
              claimedLeaves := claimedLeaves } := by
  induction blocks generalizing state with
  | nil => exact ⟨by simp, by simp, _, _, rfl⟩
  | cons head rest ih =>
    rcases ih (retireBlock state head) with ⟨hTrees, hLeaves, trees, leaves, hState⟩
    refine ⟨?_, ?_, trees, leaves, hState⟩
    · intro block
      rw [List.foldl_cons, hTrees block]
      dsimp only [retireBlock]
      rw [get_remove]
      by_cases hHead : block = head <;> by_cases hTail : block ∈ rest <;> simp [hHead, hTail]
    · intro block
      rw [List.foldl_cons, hLeaves block]
      dsimp only [retireBlock]
      rw [get_remove]
      by_cases hHead : block = head <;> by_cases hTail : block ∈ rest <;> simp [hHead, hTail]

theorem doSweepExpiredTrees (hInv : SpentInvariant content s) :
    SpentInvariant content s.doSweepExpiredTrees := by
  unfold ClaimsState.doSweepExpiredTrees
  dsimp only
  generalize hDrained : drainDueExpiries T.twox T.treeTtl s.now
      T.maxTreeDeletionsPerMessage s.treeExpiries = drained
  have hRetired : ∀ block, block ∈ drained.1 → ((content block).timestamp, block)
              ∈ dueExpiries T.twox T.treeTtl s.now T.maxTreeDeletionsPerMessage s.treeExpiries
            ∧ expiryDeadline (content block).timestamp T.treeTtl ≤ s.now := by
    intro block hMem
    rw [← hDrained, mem_drainDueExpiries_iff] at hMem
    rcases hMem with ⟨timestamp, hDue⟩
    have hEntry := mem_dueExpiries hDue
    have hTime := hInv.entries timestamp block hEntry.1
    rw [← hTime]
    exact ⟨hDue, hEntry.2⟩
  have hStays : ∀ block, block ∉ drained.1 → s.treeExpiries.get ((content block).timestamp, block)
            = some () →
          drained.2.get ((content block).timestamp, block) = some () := by
    intro block hNotMem hGet
    rw [← hDrained] at hNotMem ⊢
    rw [get_drainDueExpiries_of_notMem, hGet]
    intro hDue
    exact hNotMem (mem_drainDueExpiries_iff.mpr ⟨_, hDue⟩)
  rcases foldl_retireBlock_spec drained.1 ({ s with treeExpiries := drained.2 }, []) with
    ⟨hTrees, hLeaves, trees, bitmaps, hState⟩
  generalize hSwept : (drained.1.foldl retireBlock
      ({ s with treeExpiries := drained.2 }, [])) = swept
    at hTrees hLeaves hState ⊢
  dsimp only at hTrees hLeaves hState
  have hOver : ∀ block, block ∈ drained.1 ∨ Over content s block → Over content swept.1 block := by
    intro block hCase
    have hNow : swept.1.now = s.now := by
      rw [hState]
    unfold Over
    rw [hTrees block, hNow]
    rcases hCase with hMem | ⟨hNone, hDue⟩
    · exact ⟨if_pos hMem, (hRetired block hMem).2⟩
    · refine ⟨?_, hDue⟩
      split
      · rfl
      · exact hNone
  have hClaimed : ∀ block i, s.Claimed block i →
          swept.1.Claimed block i ∨ Over content swept.1 block := by
    intro block i hSet
    by_cases hMem : block ∈ drained.1
    · exact Or.inr (hOver block (Or.inl hMem))
    · left
      unfold Claimed ClaimsState.leaves at hSet ⊢
      unfold StorageMap.getD at hSet ⊢
      rw [hLeaves block, if_neg hMem]
      exact hSet
  have hExpiries : swept.1.treeExpiries = drained.2 := by
    rw [hState]
  have hMinted : swept.1.minted = s.minted := by
    rw [hState]
  have hCompleted : swept.1.completed = s.completed := by
    rw [hState]
  refine
    { held := ?_
      entries := ?_
      bitmaps := ?_
      below := ?_
      minted := ?_
      completed := ?_
      once := ?_ }
  · intro block tree hGet
    change swept.1.creditTrees.get block = some tree at hGet
    change tree = content block ∧ swept.1.treeExpiries.get _ = some ()
    rw [hTrees block] at hGet
    split at hGet
    · cases hGet
    · rename_i hMem
      have hHeld := hInv.held block tree hGet
      rw [hExpiries]
      exact ⟨hHeld.1, hStays block hMem hHeld.2⟩
  · intro timestamp block hGet
    change swept.1.treeExpiries.get _ = some () at hGet
    rw [hExpiries, ← hDrained] at hGet
    exact hInv.entries timestamp block (get_of_get_drainDueExpiries hGet)
  · intro block bitmap hGet
    change swept.1.claimedLeaves.get block = some bitmap at hGet
    change swept.1.treeExpiries.get _ = some ()
    rw [hLeaves block] at hGet
    split at hGet
    · cases hGet
    · rename_i hMem
      rw [hExpiries]
      exact hStays block hMem (hInv.bitmaps block bitmap hGet)
  · intro block i hSet
    apply hInv.below block i
    change swept.1.Claimed block i at hSet
    unfold Claimed ClaimsState.leaves at hSet ⊢
    unfold StorageMap.getD at hSet ⊢
    rw [hLeaves block] at hSet
    by_cases hMem : block ∈ drained.1
    · simp [hMem] at hSet
    · rw [if_neg hMem] at hSet
      exact hSet
  · intro block i hMem
    change (block, i) ∈ swept.1.minted at hMem
    rw [hMinted] at hMem
    rcases hInv.minted block i hMem with hSet | hOld
    · exact hClaimed block i hSet
    · exact Or.inr (hOver block (Or.inr hOld))
  · intro block hMem
    change block ∈ swept.1.completed at hMem
    rw [hCompleted] at hMem
    rcases hInv.completed block hMem with hAll | hOld
    · by_cases hGone : block ∈ drained.1
      · exact Or.inr (hOver block (Or.inl hGone))
      · left
        intro i hLt
        have hSet := hAll i hLt
        change swept.1.Claimed block i
        unfold Claimed ClaimsState.leaves at hSet ⊢
        unfold StorageMap.getD at hSet ⊢
        rw [hLeaves block, if_neg hGone]
        exact hSet
    · exact Or.inr (hOver block (Or.inr hOld))
  · change swept.1.minted.Nodup
    rw [hMinted]
    exact hInv.once

--
-- Steps
--

theorem setTime {now : Nat} (hInv : SpentInvariant content s) (hLe : s.now ≤ now) :
    SpentInvariant content { s with now := now } :=
  { hInv with
    minted := by
      intro block i hMem
      rcases hInv.minted block i hMem with hSet | hOld
      · exact Or.inl hSet
      · exact Or.inr ⟨hOld.1, Nat.le_trans hOld.2 hLe⟩
    completed := by
      intro block hMem
      rcases hInv.completed block hMem with hAll | hOld
      · exact Or.inl hAll
      · exact Or.inr ⟨hOld.1, Nat.le_trans hOld.2 hLe⟩ }

theorem perform {op : Op T} (hInv : SpentInvariant content s) (hContent : FixedContent content op)
    (hStep : s.perform op = .ok s') :
    SpentInvariant content s' := by
  cases op with
  | receiveCreditTrees batch =>
    cases hStep
    exact hInv.receiveCreditTrees hContent
  | claim call selector =>
    exact (hInv.claim selector.run_spent hStep).1
  | setCollectionMinter nfts who collection selection
      isContract =>
      exact (hInv.setCollectionMinter hStep).1
  | clearCollectionMinter collection =>
    cases hStep
    exact { hInv with }
  | sweepExpiredTrees =>
    cases hStep
    exact hInv.doSweepExpiredTrees
  | sendTreeDeletions delivered =>
    cases hStep
    unfold ClaimsState.doSendTreeDeletions
    cases delivered with
    | false => exact hInv
    | true => exact { hInv with }
  | setTime now =>
    unfold ClaimsState.perform at hStep
    simp only [Except.bind_eq_ok, ensure_eq_ok_iff, exists_const, Except.pure_eq_ok] at hStep
    rcases hStep with ⟨hLe, rfl⟩
    exact hInv.setTime hLe

end SpentInvariant

end Individuality.NftClaims
