import Individuality.Base.Merkle
import Individuality.CreditTrees.Effects
import Individuality.NftCredits.Buffers

/-
  The buffers of awards and the trees built from them, over all runs of the two chains.

  Main declaration: `awards_kept`
-/

namespace Individuality.CreditTrees

open NftCredits

open NftCredits.AwardingState

variable {A : AwardChains} {w w' : AwardWorld A}

--
-- Steps
--

/- Only the start of a block records a root. -/
theorem same_perform {C : Chains} {w w' : World C} {op : Op C} (hOp : op.startsBlock = false)
    (hStep : w.perform op = .ok w') :
    w'.credits.recorded = w.credits.recorded ∧ w'.credits.number = w.credits.number := by
  cases chainEffect_of_perform hStep with
  | initialized => cases hOp
  | sent room routed => exact doSendCreditTrees_same w.credits room routed
  | deletionsDelivered message =>
    exact receiveDeletions_same w.credits message
  | replayed | swept | creditsTimed | treesDelivered | claimed
  | deletionsSent =>
    exact ⟨rfl, rfl⟩

/- A step of the chains keeps what holds of the buffers. -/
theorem buffered_perform {op : AwardOp A} (hBuffered : Buffered w.awarding)
    (hStep : w.perform op = .ok w') :
    Buffered w'.awarding := by
  cases awardEffect_of_perform hStep with
  | initialized _ hInitialize =>
    exact (hBuffered.onInitialize hInitialize).1
  | awarded _ grants => exact hBuffered.awardCredits grants
  | forgotten => exact hBuffered.of_awardedCredits _
  | swept => exact hBuffered.doSweepExpiredAwards.1
  | chains _ _ hOp hWorld =>
    have hSame := same_perform hOp hWorld
    exact hBuffered.of_credits hSame.2 hSame.1

theorem buffered_of_run {allowed : AwardWorld A → AwardOp A → AwardWorld A → Prop}
    (hRun : RunUnder AwardWorld.perform allowed (AwardWorld.genesis A) w) :
    Buffered w.awarding := by
  refine hRun.invariant (fun w => Buffered w.awarding) ?_ buffered_genesis
  intro w op w' _ hStep hBuffered
  exact buffered_perform hBuffered hStep

/- All blocks that an award may go to have numbers. -/
def AwardsInRange (w : AwardWorld A) (op : AwardOp A) (_ : AwardWorld A) : Prop :=
  match op with
  | .award _ _ _ => InRange w.awarding
  | _ => True

/- No step takes a defensive branch. -/
theorem defensives_perform {op : AwardOp A} (hBuffered : Buffered w.awarding)
    (hRange : AwardsInRange w op w') (hStep : w.perform op = .ok w') :
    w'.awarding.defensives = w.awarding.defensives := by
  cases awardEffect_of_perform hStep with
  | initialized _ hInitialize => exact (hBuffered.onInitialize hInitialize).2
  | awarded _ _ _ hSlots hRoom =>
    exact hBuffered.defensives_awardCredits hRange hSlots hRoom
  | swept => exact hBuffered.doSweepExpiredAwards.2
  | forgotten | chains => rfl

theorem defensives_of_run
    (hRun : RunUnder AwardWorld.perform AwardsInRange (AwardWorld.genesis A) w) :
    w.awarding.defensives = [] := by
  have hBoth := hRun.invariant (fun w => Buffered w.awarding ∧ w.awarding.defensives = []) (by
        rintro w op w' hRange hStep ⟨hBuffered, hQuiet⟩
        exact ⟨buffered_perform hBuffered hStep, (defensives_perform hBuffered hRange hStep).trans
            hQuiet⟩)
      ⟨buffered_genesis, rfl⟩
  exact hBoth.2

--
-- Buffers and Trees
--

/-
  The buffers of a state reach from its block to the cursor, hold the awards announced for them in
  their order, and each award announced for an earlier block is a leaf of its tree.
-/
structure AwardsKept (s : AwardingState A.awarding) : Prop where
  range : ∀ block,
      s.creditBuffers.get block ≠ none →
        s.credits.number ≤ block
          ∧ block < s.credits.number + maxPendingCreditTrees
  contiguous : (∀ block, s.creditBuffers.get block = none)
      ∨ ∃ first,
        ∀ block,
          s.creditBuffers.get block ≠ none
            ↔ first ≤ block ∧ block ≤ s.creditBufferCursor
  full : ∀ block buffer,
      s.creditBuffers.get block = some buffer →
        1 ≤ buffer.awards ∧ buffer.awards ≤ awardsPerTree
  chunks : ∀ block buffer,
      s.creditBuffers.get block = some buffer →
        (List.range chunksPerTree).flatMap
            (fun index => (s.chunk block index).toList)
          = s.awardsAt block
          ∧ s.blockAwards block buffer.awards = s.awardsAt block
          ∧ (s.awardsAt block).length = buffer.awards
          ∧ ∀ a ∈ s.announcedAt block, a.gameIndex = buffer.gameIndex
  waiting : ∀ a ∈ s.announced,
      s.credits.number ≤ a.block →
        ∃ buffer,
          s.creditBuffers.get a.block = some buffer
            ∧ (s.blockAwards a.block buffer.awards)[a.leafIndex]? = some a.award
  committed : ∀ a ∈ s.announced,
      a.block < s.credits.number →
        ∃ first rest tree,
          s.announcedAt a.block = first :: rest
            ∧ s.credits.recorded.get a.block = some tree
            ∧ tree.root
              = A.awarding.merkleRoot
                (nftClaimCreditLeaves (s.awardsAt a.block))
            ∧ (nftClaimCreditLeaves (s.awardsAt a.block))[a.leafIndex]?
              = some a.award.leaf
            ∧ tree.leafCount = (s.awardsAt a.block).length
            ∧ tree.gameIndex = a.gameIndex
            ∧ tree.timestamp = first.awardTime
  quiet : s.defensives = []

theorem awardsKept_of_buffered {s : AwardingState A.awarding} (hBuffered : Buffered s)
    (hQuiet : s.defensives = []) :
    AwardsKept s where
  range := by
    intro block hSome
    rcases Option.ne_none_iff_exists'.mp hSome with ⟨buffer, hGet⟩
    exact ⟨(hBuffered.le_of_get hSome).1, (hBuffered.pending block buffer hGet).1⟩
  contiguous := by
    rcases hBuffered.contiguous with ⟨hEmpty, _⟩ | hRange
    · exact Or.inl hEmpty
    · exact Or.inr ⟨s.credits.number, hRange⟩
  full := by
    intro block buffer hGet
    have hPending := hBuffered.pending block buffer hGet
    exact ⟨hPending.2.1, hPending.2.2.1⟩
  chunks := by
    intro block buffer hGet
    have hPending := hBuffered.pending block buffer hGet
    have hLe := (hBuffered.le_of_get (by rw [hGet]; simp)).1
    have hStored := (hBuffered.waiting block hLe).1
    have hLength : (s.awardsAt block).length = buffer.awards := by
      rw [length_awardsAt, hPending.2.2.2.count]
    refine ⟨?_, ?_, hLength, hPending.2.2.2.game⟩
    · refine (hStored.flatMap_range _).trans ?_
      apply List.take_of_length_le
      rw [hLength]
      exact hPending.2.2.1
    · exact blockAwards_of_stored hStored hPending.2.2.2.count
  waiting := by
    intro a hMem hLe
    have hPlace := hBuffered.place hMem
    have hWaiting := hBuffered.waiting a.block hLe
    cases hGet : s.creditBuffers.get a.block with
    | none =>
      rw [hWaiting.2.2 hGet] at hPlace
      cases hPlace.1
    | some buffer =>
      have hPending := hBuffered.pending _ _ hGet
      refine ⟨buffer, rfl, ?_⟩
      rw [blockAwards_of_stored hWaiting.1 hPending.2.2.2.count]
      exact hPlace.2
  committed := by
    intro a hMem hLt
    have hPlace := hBuffered.place hMem
    rcases hBuffered.built a.block hLt with ⟨hNone, _⟩ | ⟨buffer, hHolds, _, _, hRecorded⟩
    · rw [hNone] at hPlace
      cases hPlace.1
    · cases hAnnounced : s.announcedAt a.block with
      | nil =>
        rw [hAnnounced] at hPlace
        cases hPlace.1
      | cons first rest =>
        refine ⟨first, rest, _, rfl, hRecorded, rfl, ?_, rfl, (hHolds.game a hPlace.1).symm, ?_⟩
        · unfold nftClaimCreditLeaves
          rw [List.getElem?_map, hPlace.2]
          rfl
        · exact (hHolds.date first (by rw [hAnnounced]; rfl)).symm
  quiet := hQuiet

/-
  As long as the blocks that an award may go to have numbers,
  the buffers and the trees keep all awards.
-/
theorem awards_kept (hRun : RunUnder AwardWorld.perform AwardsInRange (AwardWorld.genesis A) w) :
    AwardsKept w.awarding :=
  awardsKept_of_buffered (buffered_of_run hRun) (defensives_of_run hRun)

--
-- Sample Runs
--

/- A hash whose first byte is never zero. -/
def sampleBlake2 (bytes : List (BitVec 8)) : Hash :=
  (Vector.replicate 32 (bytes.foldl (fun h byte => 3#8 * h + 5#8 * byte + 7#8)
      0#8)).set 0 1#8 hash_pos

theorem sampleBlake2_ne_zero (bytes : List (BitVec 8)) :
    sampleBlake2 bytes ≠ zeroHash := by
  intro hZero
  have hByte := congrArg (fun hash : Hash => hash[0]?) hZero
  simp [sampleBlake2, zeroHash] at hByte

def sampleAwardConfig : AwardConfig where
  Claimant := Nat
  creditLeaf := fun claimant credit =>
    Vector.zipWith (fun x y => 3#8 * x + 5#8 * y) (sampleHash claimant) credit
  blake2 := sampleBlake2
  merkleRoot := fun leaves =>
    Merkle.root (fun left right => sampleBlake2 (left.toList ++ right.toList))
      zeroHash (leaves.map fun leaf => sampleBlake2 leaf.toList)
  twox := id
  maxQueuedCreditTrees := 4
  maxCreditTreesPerMessage := 2
  maxTreeDeletionsPerMessage := 2
  maxRootsPerSweep := 2
  replayCooldownSeconds := 5
  claimsChainTreeTtl := 50
  maxCreditBlocksPerClaimant := 2
  awardRetentionTtl := 20
  maxAwardBlocksPerSweep := 2

def sampleAwardChains : AwardChains where
  awarding := sampleAwardConfig
  AccountId := Nat
  verifyProof := fun root proof leafCount leafIndex leaf =>
    decide (leafIndex < leafCount ∧ Merkle.rehash (fun left right =>
            sampleBlake2 (left.toList ++ right.toList))
          proof leafCount leafIndex
          (sampleBlake2 leaf.toList)
        = root)
  maxTreesPerMessage := 2
  maxProofNodes := 11
  maxCreditsPerTree := 2048
  maxTreeDeletionsPerMessage := 2
  maxQueuedTreeDeletions := 2
  treesFit := two_fit
  leavesFit := Nat.le_refl 2048
  proofsFit := by
    rw [show (2048 : Nat) = 2 ^ 11 by rfl, Nat.clog_pow 2 11 Nat.one_lt_two]
  rootNonzero := by
    intro leaves hSome
    refine Merkle.root_of_forall (p := fun hash => hash ≠ zeroHash)
        zeroHash (fun _ _ => sampleBlake2_ne_zero _) ?_ ?_
    · intro hNil
      exact hSome (List.map_eq_nil_iff.mp hNil)
    · intro hash hMem
      rw [List.mem_map] at hMem
      rcases hMem with ⟨leaf, _, rfl⟩
      exact sampleBlake2_ne_zero _

def sampleGrant (claimant : Nat) :
    Grant sampleAwardChains.awarding where
  award := { claimant := claimant, credit := sampleHash 9 }
  creditSlot := 0

/-
  Awards of two games in one block spill into the next one,
  and the first awards are swept after their time.
-/
def sampleAwardOps : List (AwardOp sampleAwardChains) :=
  [ .chains (.creditsTime 10000), .award 1 [sampleGrant 3, sampleGrant 4, sampleGrant 3] 10,
    .award 2 [sampleGrant 3] 11,
    .onInitialize,
    .award 2 [sampleGrant 5] 12,
    .onInitialize,
    .chains (.creditsTime 30000),
    .sweepExpiredAwards,
    .award 2 [sampleGrant 6] 30 ]

instance {C : AwardConfig} (s : AwardingState C) :
    Decidable (InRange s) :=
  inferInstanceAs (Decidable (_ ≤ _))

def inRangeCheck (w : AwardWorld sampleAwardChains) :
    AwardOp sampleAwardChains → Bool
  | .award _ _ _ => decide (InRange w.awarding)
  | _ => true

theorem inRangeCheck_spec (w : AwardWorld sampleAwardChains) (op : AwardOp sampleAwardChains)
    (w' : AwardWorld sampleAwardChains) (hCheck : inRangeCheck w op = true)
    (_ : w.perform op = .ok w') :
    AwardsInRange w op w' := by
  cases op with
  | award gameIndex grants awardTime =>
    have hRange : InRange w.awarding := of_decide_eq_true hCheck
    exact hRange
  | _ => trivial

theorem awards_kept_sample : ∃ w : AwardWorld sampleAwardChains,
      AwardsKept w.awarding ∧ w.awarding.announced.map (fun a => (a.block, a.leafIndex))
          = [(0, 0), (0, 1), (1, 0), (1, 1), (2, 0)]
        ∧ (w.awarding.credits.recorded.get 1).map (fun tree => (tree.leafCount, tree.timestamp))
          = some (2, 11)
        ∧ w.awarding.blockAwards 0 2 = [] := by
  have hExecute : (execute AwardWorld.perform inRangeCheck (AwardWorld.genesis sampleAwardChains)
        sampleAwardOps).any (fun w =>
            decide (w.awarding.announced.map (fun a => (a.block, a.leafIndex))
                = [(0, 0), (0, 1), (1, 0), (1, 1), (2, 0)]
              ∧ (w.awarding.credits.recorded.get 1).map
                  (fun tree => (tree.leafCount, tree.timestamp))
                = some (2, 11)
              ∧ (w.awarding.blockAwards 0 2).isEmpty = true))
        = true := by
    decide +kernel
  rcases exists_run_of_execute inRangeCheck_spec hExecute with ⟨w, hRun, hTest⟩
  rw [decide_eq_true_eq] at hTest
  exact ⟨w, awards_kept hRun, hTest.1, hTest.2.1, List.isEmpty_iff.mp hTest.2.2⟩

--
-- The Last Blocks
--

section Last

variable {C : AwardConfig} {s : AwardingState C} {gameIndex awardTime : Nat}

/- A buffer is below the limit of the block. -/
theorem chosen_lt {block : Nat} {buffer : PendingBuffer}
    (hChosen : s.creditAwardBuffer s.credits.number s.creditBufferCursor gameIndex
        = some (block, buffer)) :
    block < saturatingAdd u32Max s.credits.number
        maxPendingCreditTrees := by
  unfold creditAwardBuffer at hChosen
  simp only [Option.ite_none_right_eq_some, Option.some.injEq] at hChosen
  rw [hChosen.2] at hChosen
  exact hChosen.1

/- A branch that was taken stays noted. -/
theorem defensives_awardNftClaimCredit {grant : Grant C} (hNoted : s.defensives ≠ []) :
    (s.awardNftClaimCredit gameIndex grant awardTime ).1.defensives ≠ [] := by
  unfold awardNftClaimCredit
  split
  · exact List.append_ne_nil_of_left_ne_nil hNoted _
  · split
    · exact hNoted
    · split
      · exact List.append_ne_nil_of_left_ne_nil hNoted _
      · split
        · exact List.append_ne_nil_of_left_ne_nil hNoted _
        · exact hNoted

theorem defensives_foldl (grants : List (Grant C)) (count : Nat) (hNoted : s.defensives ≠ []) :
    (grants.foldl (fun state grant =>
        let next := AwardingState.awardNftClaimCredit state.1 gameIndex grant awardTime
        (next.1, state.2 + next.2))
      (s, count)).1.defensives ≠ [] := by
  induction grants generalizing s count with
  | nil => exact hNoted
  | cons grant grants ih =>
    rw [List.foldl_cons]
    exact ih _ (defensives_awardNftClaimCredit hNoted)

/- The claimants of some grants have no slot awarded. -/
def Fresh (s : AwardingState C) (gameIndex : Nat) (grants : List (Grant C)) : Prop :=
  ∀ grant ∈ grants, grant.creditSlot < awardedCreditsCapacity ∧ StorageMap.getD s.awardedCredits
      (gameIndex, grant.award.claimant) 0 = 0

/- In the block before the last, fresh awards all go into one buffer, unless a branch is taken. -/
theorem length_announcedAt_burst (hBuffered : Buffered s) (hNumber : s.credits.number + 1 = u32Max)
    {grants : List (Grant C)} (hNodup : (grants.map fun grant => grant.award.claimant).Nodup)
    (hFresh : Fresh s gameIndex grants) (count : Nat)
    (hQuiet : (grants.foldl (fun state grant =>
          let next := AwardingState.awardNftClaimCredit state.1 gameIndex grant awardTime
          (next.1, state.2 + next.2))
        (s, count)).1.defensives = []) :
    (s.announcedAt s.credits.number).length + grants.length ≤ awardsPerTree := by
  induction grants generalizing s count with
  | nil =>
    cases hGet : s.creditBuffers.get s.credits.number with
    | none =>
      have hWaiting := hBuffered.waiting s.credits.number (Nat.le_refl _)
      rw [hWaiting.2.2 hGet]
      exact Nat.zero_le _
    | some buffer =>
      have hPending := hBuffered.pending _ _ hGet
      rw [← hPending.2.2.2.count]
      exact hPending.2.2.1
  | cons grant grants ih =>
    rw [List.foldl_cons] at hQuiet
    dsimp only at hQuiet
    have hGrant := hFresh grant (List.mem_cons_self ..)
    have hAwarded : ¬ s.slotIsAwarded gameIndex grant = true := by
      unfold slotIsAwarded
      rw [hGrant.2]
      simp
    have hNoted : ∀ branch : Defensive, (s.defensive branch).defensives ≠ [] := by
      intro branch hNil
      exact List.append_ne_nil_of_right_ne_nil _ (List.cons_ne_nil _ _) hNil
    cases hChosen : s.creditAwardBuffer s.credits.number
        s.creditBufferCursor gameIndex with
    | none =>
      have hStep : s.awardNftClaimCredit gameIndex grant awardTime
            = (s.defensive .noBuffer, 0) := by
        unfold awardNftClaimCredit
        rw [if_neg (not_not.mpr hGrant.1), if_neg hAwarded, hChosen]
      rw [hStep] at hQuiet
      exact absurd hQuiet (defensives_foldl grants _ (hNoted _))
    | some chosen =>
      rcases chosen with ⟨block, buffer⟩
      have hOpens := hBuffered.opens hChosen
      have hLimit := chosen_lt hChosen
      have hTop := saturatingAdd_le u32Max s.credits.number maxPendingCreditTrees
      have hLe := hOpens.le
      have hBlock : block = s.credits.number := by omega
      subst hBlock
      rcases hBuffered.award_cases hGrant.1 hChosen with hSame | ⟨chunk, hPush, hStep⟩
      · exfalso
        unfold awardNftClaimCredit at hSame
        rw [if_neg (not_not.mpr hGrant.1), if_neg hAwarded, hChosen] at hSame
        dsimp only at hSame
        split at hSame
        · exact absurd (congrArg Prod.fst hSame) (by
              intro hEq
              have hLength := congrArg (fun t : AwardingState C => t.defensives.length) hEq
              simp [AwardingState.defensive] at hLength)
        · cases congrArg Prod.snd hSame
      · rw [hStep] at hQuiet
        have hRest := ih (hBuffered.recordAward hOpens hPush) hNumber (List.nodup_cons.mp hNodup).2
            (by
              intro other hMem
              have hOther := hFresh other (List.mem_cons_of_mem _ hMem)
              refine ⟨hOther.1, ?_⟩
              have hNe : other.award.claimant ≠ grant.award.claimant := by
                intro hSameClaimant
                apply (List.nodup_cons.mp hNodup).1
                dsimp only
                rw [← hSameClaimant, List.mem_map]
                exact ⟨other, hMem, rfl⟩
              have hKey : ((gameIndex, other.award.claimant) : Nat × C.Claimant)
                    ≠ (gameIndex, grant.award.claimant) := by
                intro hEq
                exact hNe (Prod.mk.inj hEq).2
              refine (StorageMap.getD_insert _ _ _ _ _).trans ?_
              rw [if_neg hKey]
              exact hOther.2)
            _ hQuiet
        change ((s.recordAward gameIndex grant awardTime s.credits.number buffer chunk).announcedAt
                s.credits.number).length
            + grants.length ≤ awardsPerTree at hRest
        rw [announcedAt_recordAward, if_pos rfl, List.length_append, List.length_singleton]
          at hRest
        rw [List.length_cons]
        omega

end Last

/- More awards than a buffer holds take a branch there. -/
theorem not_awardsKept_burst {gameIndex awardTime : Nat} {grants : List (Grant A.awarding)}
    (hBuffered : Buffered w.awarding) (hNumber : w.awarding.credits.number + 1 = u32Max)
    (hNodup : (grants.map fun grant => grant.award.claimant).Nodup)
    (hFresh : Fresh w.awarding gameIndex grants) (hLength : grants.length = awardsPerTree + 1) :
    ¬ AwardsKept (w.withAwarding (w.awarding.awardCredits gameIndex grants awardTime
        ).1).awarding := by
  intro hKept
  have hQuiet : (w.awarding.awardCredits gameIndex grants awardTime ).1.defensives = [] :=
    hKept.quiet
  unfold AwardingState.awardCredits at hQuiet
  have hFits := length_announcedAt_burst hBuffered hNumber hNodup hFresh _ hQuiet
  omega

theorem perform_award {gameIndex awardTime : Nat} {grants : List (Grant A.awarding)}
    (hSlots : ∀ grant ∈ grants, grant.creditSlot < awardedCreditsCapacity)
    (hCapacity : grants.length ≤ w.awarding.remainingCreditCapacity gameIndex) :
    w.perform (.award gameIndex grants awardTime) = .ok
        (w.withAwarding (w.awarding.awardCredits gameIndex grants awardTime ).1) := by
  unfold AwardWorld.perform
  dsimp only
  rw [ensure_of hSlots, ensure_of hCapacity]
  rfl

/- The chains after some blocks without awards. -/
def blocksLater (n : Nat) : AwardWorld sampleAwardChains :=
  (AwardWorld.genesis sampleAwardChains).withAwarding
    { AwardingState.genesis sampleAwardConfig with
      credits :=
        { CreditsState.genesis sampleAwardConfig.config with
          number := n } }

theorem run_blocksLater {n : Nat} (hLe : n ≤ u32Max) :
    RunUnder AwardWorld.perform (fun _ _ _ => True) (AwardWorld.genesis sampleAwardChains)
      (blocksLater n) := by
  induction n with
  | zero => exact Relation.ReflTransGen.refl
  | succ n ih =>
    refine (ih (Nat.le_of_succ_le hLe)).tail ⟨AwardOp.onInitialize, trivial, ?_⟩
    have hLt : n < u32Max := hLe
    have hInitialize : (blocksLater n).awarding.onInitialize
          = .ok (blocksLater (n + 1)).awarding := by
      unfold AwardingState.onInitialize
      have hNumber : (blocksLater n).awarding.credits.number < u32Max := hLt
      rw [ensure_of hNumber]
      rfl
    unfold AwardWorld.perform
    dsimp only
    rw [hInitialize]
    rfl

/- One more award than a buffer holds. -/
def burst : List (Grant sampleAwardChains.awarding) :=
  (List.range (awardsPerTree + 1)).map sampleGrant

/-
  In the block before the last, the capacity is more than what can be recorded, and a caller that
  respects it runs into a defensive branch.
-/
theorem capacity_overstated : ∃ w : AwardWorld sampleAwardChains,
      RunUnder AwardWorld.perform (fun _ _ _ => True) (AwardWorld.genesis sampleAwardChains) w
        ∧ ¬ AwardsKept w.awarding := by
  have hBlocks : u32Max - 1 ≤ u32Max := Nat.sub_le _ _
  have hRun := run_blocksLater hBlocks
  have hNodup : (burst.map fun grant => grant.award.claimant).Nodup := by
    have hMap : burst.map (fun grant => grant.award.claimant) = List.range (awardsPerTree + 1) := by
      unfold burst
      rw [List.map_map]
      exact List.map_id _
    rw [hMap]
    exact List.nodup_range
  have hFresh : Fresh (blocksLater (u32Max - 1)).awarding 1 burst := by
    intro grant hMem
    unfold burst at hMem
    rw [List.mem_map] at hMem
    rcases hMem with ⟨claimant, _, rfl⟩
    refine ⟨?_, StorageMap.getD_empty _ _⟩
    change 0 < awardedCreditsCapacity
    decide
  refine ⟨(blocksLater (u32Max - 1)).withAwarding
      ((blocksLater (u32Max - 1)).awarding.awardCredits 1 burst 0).1, ?_, ?_⟩
  · refine hRun.tail ⟨.award 1 burst 0, trivial, ?_⟩
    have hSlots : ∀ grant ∈ burst, grant.creditSlot < awardedCreditsCapacity :=
      fun grant hMem => (hFresh grant hMem).1
    have hCapacity : burst.length
          ≤ (blocksLater (u32Max - 1) ).awarding.remainingCreditCapacity 1 := by
      unfold burst
      rw [List.length_map, List.length_range]
      decide +kernel
    exact perform_award hSlots hCapacity
  · have hNumber : (blocksLater (u32Max - 1)).awarding.credits.number + 1 = u32Max := by
      change u32Max - 1 + 1 = u32Max
      exact Nat.sub_add_cancel (by decide)
    have hBurst : burst.length = awardsPerTree + 1 := by
      unfold burst
      rw [List.length_map, List.length_range]
    exact not_awardsKept_burst (buffered_of_run hRun) hNumber hNodup hFresh hBurst

end Individuality.CreditTrees
