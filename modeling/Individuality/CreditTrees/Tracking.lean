import Individuality.CreditTrees.Chains
import Individuality.NftClaims.Receipt

/-
  Where each recorded tree is, and what both chains know about the blocks they are finished with.

  Main declaration: `Finished`
-/

namespace Individuality.CreditTrees

open NftClaims (ClaimsState SpentInvariant Paid Deliverable)

open NftCredits (CreditsState CreditBuffer rootTtl rootTtlGrace)

variable {C : Chains}

section Tracking

variable (content : Nat → NftClaimCreditTree)

/-
  All credits of a block were minted, or the deadline of its tree has passed on the claims chain.
-/
def Finished {T : NftClaims.Config} (s : ClaimsState T) (block : Nat) : Prop :=
  (∀ i, i < (content block).leafCount → (block, i) ∈ s.minted)
    ∨ expiryDeadline (content block).timestamp T.treeTtl ≤ s.now

/- The claims chain holds a tree, or its delivery is in flight, queued, or was dropped. -/
def Somewhere (w : World C) (block : Nat) (tree : NftClaimCreditTree) : Prop :=
  w.claims.creditTrees.get block = some tree ∨ (∃ message ∈ w.toClaims, ∃ update ∈ message,
      update.block = block ∧ update.tree = tree)
    ∨ (∃ sequence, (sequence, block) ∈ w.credits.deliveryQueue.toList)
    ∨ block ∈ w.credits.dropped

/- The sequences that are still to arrive, in order. -/
def arriving (w : World C) : List Nat :=
  w.toClaims.flatten.filterMap (·.sequence) ++ w.credits.deliveryQueue.toList.map Prod.fst

/- What is known about the recorded trees. -/
structure Tracked (w : World C) : Prop where
  spent : SpentInvariant content w.claims
  paid : Paid content [] w.claims
  recorded : ∀ block tree,
      w.credits.recorded.get block = some tree →
        tree = content block
          ∧ block < w.credits.number
          ∧ Deliverable C.claims tree
  roots : ∀ block tree,
      w.credits.creditRoots.get block = some tree →
        w.credits.recorded.get block = some tree
  expiries : ∀ timestamp block,
      w.credits.rootExpiries.get (timestamp, block)
          = some () →
        timestamp = (content block).timestamp
  clock : w.credits.now < u64Max
  flight : ∀ message,
      message ∈ w.toClaims →
        message.length ≤ C.claims.maxTreesPerMessage
          ∧ ∀ update ∈ message,
            w.credits.recorded.get update.block = some update.tree
  coming : Gaps.Ascends u64Max w.claims.nextExpectedSequence
      (arriving w) w.credits.nextCreditTreeSequence
  next : w.credits.nextCreditTreeSequence ≤ u64Max
  exact : Gaps.Exact u64Max
      (w.claims.nextExpectedSequence, w.claims.missing)
      w.claims.accepted
  deletions : ∀ block,
      (block ∈ w.claims.pendingTreeDeletions.toList
        ∨ ∃ message ∈ w.toGame, block ∈ message) →
        Finished content w.claims block
  absent : ∀ block tree,
      w.credits.recorded.get block = some tree →
      w.credits.creditRoots.get block = none → Finished content w.claims block
  accounted : ∀ block tree,
      w.credits.recorded.get block = some tree →
        Finished content w.claims block ∨ Somewhere w block tree

variable {content}

theorem tracked_genesis : Tracked content (World.genesis C) where
  spent := NftClaims.spentInvariant_genesis
  paid := NftClaims.paid_genesis
  recorded := by
    intro block tree hGet
    simp [World.genesis, CreditsState.genesis] at hGet
  roots := by
    intro block tree hGet
    simp [World.genesis, CreditsState.genesis] at hGet
  expiries := by
    intro timestamp block hGet
    simp [World.genesis, CreditsState.genesis] at hGet
  clock := by
    change 0 < u64Max
    decide
  flight := by
    intro message hMem
    cases hMem
  coming := Nat.le_refl 0
  next := Nat.zero_le _
  exact := Gaps.exact_start
  deletions := by
    rintro block (hMem | ⟨message, hMem, _⟩)
    · cases hMem
    · cases hMem
  absent := by
    intro block tree hGet
    simp [World.genesis, CreditsState.genesis] at hGet
  accounted := by
    intro block tree hGet
    simp [World.genesis, CreditsState.genesis] at hGet

--
-- Steps of the Claims Chain
--

/-
  What the claims chain does on its own: it loses trees and
  queues deletions of blocks that are finished only.
-/
structure ClaimsStep (content : Nat → NftClaimCreditTree) {T : NftClaims.Config}
    (s s' : ClaimsState T) : Prop where
  spent : SpentInvariant content s'
  paid : Paid content [] s'
  expected : s'.nextExpectedSequence = s.nextExpectedSequence
  accepted : s'.accepted = s.accepted
  missing : s'.missing = s.missing
  finished : ∀ block, Finished content s block → Finished content s' block
  trees : ∀ block tree,
      s.creditTrees.get block = some tree →
        s'.creditTrees.get block = some tree ∨ Finished content s' block
  pending : ∀ block,
      block ∈ s'.pendingTreeDeletions.toList →
        block ∈ s.pendingTreeDeletions.toList ∨ Finished content s' block

variable {w : World C}

theorem Somewhere.of_claims {s' : ClaimsState C.claims} {block : Nat} {tree : NftClaimCreditTree}
    (hStep : ClaimsStep content w.claims s') (hSomewhere : Somewhere w block tree) :
    Finished content s' block ∨ Somewhere { w with claims := s' } block tree := by
  rcases hSomewhere with hHeld | hElse
  · rcases hStep.trees block tree hHeld with hKept | hDone
    · exact Or.inr (Or.inl hKept)
    · exact Or.inl hDone
  · exact Or.inr (Or.inr hElse)

theorem Tracked.of_claims {s' : ClaimsState C.claims} (hTracked : Tracked content w)
    (hStep : ClaimsStep content w.claims s') :
    Tracked content { w with claims := s' } where
  spent := hStep.spent
  paid := hStep.paid
  recorded := hTracked.recorded
  roots := hTracked.roots
  expiries := hTracked.expiries
  clock := hTracked.clock
  flight := hTracked.flight
  coming := by
    dsimp only
    rw [hStep.expected]
    exact hTracked.coming
  next := hTracked.next
  exact := by
    dsimp only
    rw [hStep.expected, hStep.accepted, hStep.missing]
    exact hTracked.exact
  deletions := by
    rintro block (hMem | hMessage)
    · rcases hStep.pending block hMem with hOld | hDone
      · exact hStep.finished block (hTracked.deletions block (Or.inl hOld))
      · exact hDone
    · exact hStep.finished block (hTracked.deletions block (Or.inr hMessage))
  absent := by
    intro block tree hGet hNone
    exact hStep.finished block (hTracked.absent block tree hGet hNone)
  accounted := by
    intro block tree hGet
    rcases hTracked.accounted block tree hGet with
      hDone | hSomewhere
    · exact Or.inl (hStep.finished block hDone)
    · exact hSomewhere.of_claims hStep

variable {T : NftClaims.Config} {s : ClaimsState T}

/- Claims finish the blocks whose trees they remove. -/
theorem ClaimsStep.of_proceeds {s' : ClaimsState T} (hSpent : SpentInvariant content s')
    (hPaid : Paid content [] s') (hProceeds : NftClaims.Proceeds s s') :
    ClaimsStep content s s' := by
  have hDone : ∀ block, block ∈ s'.completed → Finished content s' block := by
    intro block hMem
    refine Or.inl fun i hLt => ?_
    rcases hPaid.completed block hMem i hLt with hMinted | hNil
    · exact hMinted
    · cases hNil
  exact
    { spent := hSpent
      paid := hPaid
      expected := hProceeds.expected
      accepted := hProceeds.accepted
      missing := hProceeds.missing
      finished := by
        rintro block (hAll | hDue)
        · refine Or.inl fun i hLt => ?_
          exact hProceeds.minted _ (hAll i hLt)
        · exact Or.inr (hProceeds.now ▸ hDue)
      trees := by
        intro block tree hGet
        rcases hProceeds.trees block tree hGet with
          hKept | hCompleted
        · exact Or.inl hKept
        · exact Or.inr (hDone block hCompleted)
      pending := by
        intro block hMem
        rcases hProceeds.pending block hMem with
          hOld | hCompleted
        · exact Or.inl hOld
        · exact Or.inr (hDone block hCompleted) }

theorem ClaimsStep.claim {s' : ClaimsState T} {call : NftClaims.Claim T}
    {selector : NftClaims.Reentry T} (hSpent : SpentInvariant content s) (hPaid : Paid content [] s)
    (hClaim : s.claim call selector.run = .ok s') :
    ClaimsStep content s s' := by
  have hStep := Paid.claim (fun underWay s hInv hPaid => selector.run_paid underWay s hInv hPaid)
      hSpent hPaid hClaim
  exact ClaimsStep.of_proceeds (hSpent.claim selector.run_spent hClaim).1 hStep.1 hStep.2

theorem ClaimsStep.setCollectionMinter {s' : ClaimsState T} {nfts : NftClaims.Nfts T}
    {who : T.AccountId} {collection : Nat}
    {selection : Option NftClaims.ItemSelection} {isContract : Nat → Bool}
    (hSpent : SpentInvariant content s) (hPaid : Paid content [] s)
    (hSet : s.setCollectionMinter nfts who collection selection isContract = .ok s') :
    ClaimsStep content s s' := by
  have hStep := NftClaims.Proceeds.setCollectionMinter hSet
  exact ClaimsStep.of_proceeds (hSpent.setCollectionMinter hSet).1
      (hPaid.of_same hStep.2.1 hStep.2.2.1 hStep.2.2.2)
      hStep.1

theorem ClaimsStep.clearCollectionMinter (hSpent : SpentInvariant content s)
    (hPaid : Paid content [] s) (collection : Nat) :
    ClaimsStep content s (s.clearCollectionMinter collection) :=
  ClaimsStep.of_proceeds { hSpent with } (hPaid.of_same rfl rfl rfl)
    { NftClaims.Proceeds.refl s with }

theorem ClaimsStep.sweep (hSpent : SpentInvariant content s) (hPaid : Paid content [] s) :
    ClaimsStep content s s.doSweepExpiredTrees := by
  rcases NftClaims.doSweepExpiredTrees_spec hSpent with
    ⟨gone, hDue, hTrees, hClaimed, hPending, hNow, hMinted,
      hCompleted, hExpected, hAccepted, hMissing⟩
  have hFinished : ∀ block, gone block → Finished content s.doSweepExpiredTrees block := by
    intro block hGone
    refine Or.inr ?_
    rw [hNow]
    exact hDue block hGone
  refine
    { spent := hSpent.doSweepExpiredTrees
      paid := ?_
      expected := hExpected
      accepted := hAccepted
      missing := hMissing
      finished := ?_
      trees := ?_
      pending := ?_ }
  · refine { claimed := ?_, completed := ?_ }
    · intro block i hSet
      rw [hMinted]
      exact hPaid.claimed block i (hClaimed block i hSet)
    · rw [hMinted, hCompleted]
      exact hPaid.completed
  · intro block hDone
    unfold Finished at hDone ⊢
    rw [hMinted, hNow]
    exact hDone
  · intro block tree hGet
    by_cases hGone : gone block
    · exact Or.inr (hFinished block hGone)
    · left
      rw [hTrees block hGone]
      exact hGet
  · intro block hMem
    rcases hPending block hMem with hOld | hGone
    · exact Or.inl hOld
    · exact Or.inr (hFinished block hGone)

theorem ClaimsStep.setTime {now : Nat} (hSpent : SpentInvariant content s)
    (hPaid : Paid content [] s) (hLe : s.now ≤ now) :
    ClaimsStep content s { s with now := now } where
  spent := hSpent.setTime hLe
  paid := hPaid.of_same rfl rfl rfl
  expected := rfl
  accepted := rfl
  missing := rfl
  finished := by
    rintro block (hAll | hDue)
    · exact Or.inl hAll
    · exact Or.inr (Nat.le_trans hDue hLe)
  trees := fun _ _ hGet => Or.inl hGet
  pending := fun _ hMem => Or.inl hMem

--
-- Deliveries of Trees
--

/- A batch of deliveries, as the claims chain takes it. -/
theorem Tracked.deliver {message : List CreditTreeDelivery} {rest : List (List CreditTreeDelivery)}
    (hTracked : Tracked content w) (hFlight : w.toClaims = message :: rest) :
    Tracked content
      { w with
        claims := World.receiveTrees w.claims message
        toClaims := rest } := by
  have hMessage := hTracked.flight message (by rw [hFlight]; simp)
  rcases BoundedVec.ofList?_isSome_iff.mpr hMessage.1 with ⟨batch, hBatch⟩
  have hList : batch.toList = message := BoundedVec.ofList?_eq_some_iff.mp hBatch
  have hContent : ∀ update ∈ batch.toList, update.tree = content update.block := by
    intro update hMem
    rw [hList] at hMem
    exact (hTracked.recorded _ _ (hMessage.2 update hMem)).1
  have hFine : ∀ update ∈ batch.toList, Deliverable C.claims update.tree := by
    intro update hMem
    rw [hList] at hMem
    exact (hTracked.recorded _ _ (hMessage.2 update hMem)).2.2
  rcases NftClaims.receiveCreditTrees_notes w.claims batch with
    ⟨accepted, trees, expiries, hSublist, hReceive, hTrees⟩
  have hState : World.receiveTrees w.claims message = w.claims.receiveCreditTrees batch := by
    unfold World.receiveTrees
    rw [hBatch]
  have hSequences : Gaps.Ascends u64Max w.claims.nextExpectedSequence
        (batch.toList.filterMap (·.sequence) ++ (rest.flatten.filterMap (·.sequence)
            ++ w.credits.deliveryQueue.toList.map Prod.fst))
        w.credits.nextCreditTreeSequence := by
    have hComing := hTracked.coming
    unfold arriving at hComing
    rw [hFlight, List.flatten_cons, List.filterMap_append, List.append_assoc, ← hList] at hComing
    exact hComing
  have hCap := hTracked.exact.capped
  dsimp only at hCap
  have hAccepted : ∃ hi, Gaps.Ascends u64Max w.claims.nextExpectedSequence accepted hi := by
    refine ⟨w.credits.nextCreditTreeSequence, ?_⟩
    apply Gaps.Ascends.sublist _ hCap hSequences
    exact hSublist.trans (List.sublist_append_left _ _)
  rcases hAccepted with ⟨hi, hAccepted⟩
  have hNoted : World.receiveTrees w.claims message
        = { w.claims with
            creditTrees := trees
            treeExpiries := expiries
            nextExpectedSequence :=
              (accepted.foldl (Gaps.note u64Max) (w.claims.nextExpectedSequence,
                  w.claims.missing)).1
            missing := (accepted.foldl (Gaps.note u64Max) (w.claims.nextExpectedSequence,
                w.claims.missing)).2
            accepted := w.claims.accepted ++ accepted } := by
    rw [hState, hReceive]
    unfold ClaimsState.noteSequences
    dsimp only
    rw [hAccepted.insertionSort_eq, NftClaims.noteSequence_eq]
  have hSpent : SpentInvariant content (World.receiveTrees w.claims message) := by
    rw [hState]
    apply hTracked.spent.receiveCreditTrees
    intro update hMem _ _ _
    exact hContent update hMem
  have hKeep : ∀ block tree, w.claims.creditTrees.get block = some tree →
          (World.receiveTrees w.claims message ).creditTrees.get block = some tree := by
    intro block tree hGet
    rw [hNoted]
    dsimp only
    rw [hTrees]
    exact (NftClaims.foldl_receiveTree_spec batch.toList (w.claims, [])).2.1 block tree hGet
  have hHolds : ∀ update ∈ message, (World.receiveTrees w.claims message
            ).creditTrees.get update.block = some update.tree
          ∨ Finished content (World.receiveTrees w.claims message)
              update.block := by
    intro update hMem
    rw [← hList] at hMem
    have hEither : (batch.toList.foldl ClaimsState.receiveTree
            (w.claims, [])).1.creditTrees.get update.block = some update.tree
          ∨ expiryDeadline update.tree.timestamp C.claims.treeTtl ≤ w.claims.now :=
      NftClaims.foldl_receiveTree_holds hTracked.spent hContent hFine hMem
    rcases hEither with hHeld | hDue
    · left
      rw [hNoted]
      dsimp only
      rw [hTrees]
      exact hHeld
    · refine Or.inr (Or.inr ?_)
      rw [hNoted, ← hContent update hMem]
      exact hDue
  have hFinished : ∀ block, Finished content w.claims block → Finished content
            (World.receiveTrees w.claims message) block := by
    intro block hDone
    rw [hNoted]
    exact hDone
  refine
    { spent := hSpent
      paid := ?_
      recorded := hTracked.recorded
      roots := hTracked.roots
      expiries := hTracked.expiries
      clock := hTracked.clock
      flight := ?_
      coming := ?_
      next := hTracked.next
      exact := ?_
      deletions := ?_
      absent := ?_
      accounted := ?_ }
  · dsimp only
    rw [hNoted]
    exact hTracked.paid.of_same rfl rfl rfl
  · intro other hMem
    exact hTracked.flight other (by rw [hFlight]; exact List.mem_cons_of_mem _ hMem)
  · dsimp only
    rw [hNoted]
    exact Gaps.Ascends.after hSublist hCap hSequences
  · dsimp only
    rw [hNoted]
    exact (hTracked.exact.foldl_note hAccepted).1
  · rintro block (hMem | hInFlight)
    · dsimp only at hMem
      rw [hNoted] at hMem
      exact hFinished block (hTracked.deletions block (Or.inl hMem))
    · exact hFinished block (hTracked.deletions block (Or.inr hInFlight))
  · intro block tree hGet hNone
    exact hFinished block (hTracked.absent block tree hGet hNone)
  · intro block tree hGet
    rcases hTracked.accounted block tree hGet with
      hDone | hHeld | ⟨other, hMem, update, hUpdate, hEq⟩ | hElse
    · exact Or.inl (hFinished block hDone)
    · exact Or.inr (Or.inl (hKeep block tree hHeld))
    · rw [hFlight, List.mem_cons] at hMem
      rcases hMem with rfl | hRest
      · rcases hHolds update hUpdate with hHeld | hDone
        · rw [hEq.1, hEq.2] at hHeld
          exact Or.inr (Or.inl hHeld)
        · rw [hEq.1] at hDone
          exact Or.inl hDone
      · exact Or.inr (Or.inr (Or.inl ⟨other, hRest, update, hUpdate, hEq⟩))
    · exact Or.inr (Or.inr (Or.inr hElse))

end Tracking

end Individuality.CreditTrees
