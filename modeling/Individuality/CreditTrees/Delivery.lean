import Individuality.CreditTrees.Effects
import Individuality.CreditTrees.Recording

/-
  No credit tree is lost between the game chain and the claims chain, no root goes too early, and
  the gaps that the claims chain reports are exact.

  Main declaration: `no_tree_lost`
-/

namespace Individuality.CreditTrees

open NftClaims (ClaimsState Nfts Claim)

open NftCredits (CreditsState CreditBuffer)

variable {C : Chains}

/- Every recorded tree is the content of its block. -/
def Agrees (content : Nat → NftClaimCreditTree) (w : World C) : Prop :=
  ∀ block tree, w.credits.recorded.get block = some tree → tree = content block

--
-- Steps
--

variable {content : Nat → NftClaimCreditTree} {w w' : World C} {D : NftCredits.Config}

theorem onInitialize_spec {s s' : CreditsState D} {buffer : Option (CreditBuffer D)}
    (hStep : s.onInitialize buffer = .ok s') :
    s' = { s with number := s.number + 1 } ∨ ∃ awarded : CreditBuffer D,
        awarded.awards.length ≠ 0 ∧ s' = (({ s with number := s.number + 1 }
              : CreditsState D).recordRoot s.number (CreditsState.creditTree awarded)
            ).queueCreditTreeDelivery s.number := by
  simp only [CreditsState.onInitialize, Except.bind_eq_ok,
    ensure_eq_ok_iff, exists_const, Except.pure_eq_ok] at hStep
  rcases hStep with ⟨_, rfl⟩
  unfold CreditsState.buildCreditTree
  split
  · exact Or.inl rfl
  · rename_i awarded
    split
    · exact Or.inl rfl
    · rename_i hAwards
      exact Or.inr ⟨awarded, hAwards, rfl⟩

/- Queueing a delivery leaves the recorded roots. -/
theorem recorded_queueCreditTreeDelivery (s : CreditsState D) (block : Nat) :
    (s.queueCreditTreeDelivery block).recorded = s.recorded := by
  unfold CreditsState.queueCreditTreeDelivery
  split <;> rfl

theorem Tracked.initialize {buffer : Option (CreditBuffer C.credits)}
    {credits : CreditsState C.credits} (hTracked : Tracked content w)
    (hAgrees : Agrees content { w with credits := credits })
    (hStep : w.credits.onInitialize buffer = .ok credits) :
    Tracked content { w with credits := credits } := by
  rcases onInitialize_spec hStep with rfl | ⟨awarded, hAwards, rfl⟩
  · exact hTracked.number
  · refine hTracked.record ?_ (deliverable_creditTree hAwards)
    apply hAgrees
    dsimp only
    rw [recorded_queueCreditTreeDelivery]
    exact StorageMap.get_insert_self _ _ _

theorem Tracked.sendTreeDeletions (hTracked : Tracked content w) (routed : Bool) :
    Tracked content
      { w with
        claims := w.claims.doSendTreeDeletions routed
        toGame :=
          if routed then
            w.toGame ++ [w.claims.deletionMessage]
          else w.toGame } := by
  cases routed with
  | false => exact hTracked
  | true =>
    refine
      { hTracked with
        spent := { hTracked.spent with }
        paid := hTracked.paid.of_same rfl rfl rfl
        deletions := ?_ }
    rintro block (hMem | ⟨message, hMem, hBlock⟩)
    · exact hTracked.deletions block (Or.inl (List.mem_of_mem_drop hMem))
    · change message ∈ w.toGame ++ [w.claims.deletionMessage] at hMem
      rw [List.mem_append, List.mem_singleton] at hMem
      rcases hMem with hOld | rfl
      · exact hTracked.deletions block (Or.inr ⟨message, hOld, hBlock⟩)
      · exact hTracked.deletions block (Or.inl (List.mem_of_mem_take hBlock))

variable {op : Op C}

theorem Tracked.perform (hTracked : Tracked content w) (hClose : ClocksClose w')
    (hAgrees : Agrees content w') (hStep : w.perform op = .ok w') :
    Tracked content w' := by
  cases chainEffect_of_perform hStep with
  | initialized _ _ hInitialize =>
    exact hTracked.initialize hAgrees hInitialize
  | sent room routed => exact hTracked.send room routed
  | replayed _ _ _ hReplay => exact hTracked.replay hReplay
  | swept => exact hTracked.sweepExpiredRoots hClose
  | creditsTimed millis hMillis =>
    have hNow : millis / 1000 < u64Max := Nat.lt_of_le_of_lt (Nat.div_le_div_right hMillis)
        (by decide)
    exact { hTracked with clock := hNow }
  | treesDelivered _ _ hFlight => exact hTracked.deliver hFlight
  | deletionsDelivered _ _ hFlight =>
    exact hTracked.deliverDeletions hFlight
  | claimed _ call _ hTrees hDeletions hClaims =>
    apply hTracked.of_claims
    cases call with
    | receiveCreditTrees batch => exact absurd rfl (hTrees batch)
    | claim => exact ClaimsStep.claim hTracked.spent hTracked.paid hClaims
    | setCollectionMinter =>
      exact ClaimsStep.setCollectionMinter hTracked.spent hTracked.paid hClaims
    | clearCollectionMinter collection =>
      cases hClaims
      exact ClaimsStep.clearCollectionMinter hTracked.spent hTracked.paid collection
    | sweepExpiredTrees =>
      cases hClaims
      exact ClaimsStep.sweep hTracked.spent hTracked.paid
    | sendTreeDeletions delivered =>
      exact absurd rfl (hDeletions delivered)
    | setTime =>
      unfold ClaimsState.perform at hClaims
      simp only [Except.bind_eq_ok, ensure_eq_ok_iff, exists_const, Except.pure_eq_ok] at hClaims
      rcases hClaims with ⟨hLe, rfl⟩
      exact ClaimsStep.setTime hTracked.spent hTracked.paid hLe
  | deletionsSent routed => exact hTracked.sendTreeDeletions routed

--
-- Recorded Roots
--

/- Blocks that are not built yet have no root. -/
def RecordedBefore (w : World C) : Prop :=
  ∀ block tree, w.credits.recorded.get block = some tree → block < w.credits.number

/- Deliveries leave the recorded roots. -/
theorem doSendCreditTrees_same (s : CreditsState D) (room : Option Nat) (routed : Bool) :
    (s.doSendCreditTrees room routed).1.recorded = s.recorded
      ∧ (s.doSendCreditTrees room routed).1.number = s.number := by
  unfold CreditsState.doSendCreditTrees
  cases CreditsState.maxTreesPerMessage D room with
  | none => exact ⟨rfl, rfl⟩
  | some capacity =>
    dsimp only
    split
    · exact ⟨rfl, rfl⟩
    · exact ⟨rfl, rfl⟩

/- Deletions leave the recorded roots. -/
theorem receiveDeletions_same (s : CreditsState C.credits) (message : List Nat) :
    (World.receiveDeletions s message).recorded = s.recorded
      ∧ (World.receiveDeletions s message).number = s.number := by
  unfold World.receiveDeletions
  split
  · rename_i blocks _
    have hRemoved : RootsRemoved (fun _ => True) s
          (blocks.toList.foldl CreditsState.removeCreditRoot s) :=
      foldl_removeCreditRoot_spec blocks.toList s fun _ _ => trivial
    rcases hRemoved.state with ⟨_, _, hState⟩
    unfold CreditsState.doReceiveTreeDeletions
    rw [hState]
    exact ⟨rfl, rfl⟩
  · exact ⟨rfl, rfl⟩

/- A step records the root of one new block, or none, and the number of blocks does not go down. -/
theorem recorded_perform (hStep : w.perform op = .ok w') :
    (w'.credits.recorded = w.credits.recorded ∧ w.credits.number ≤ w'.credits.number)
      ∨ ∃ tree, w'.credits.recorded = w.credits.recorded.insert w.credits.number tree
          ∧ w'.credits.number = w.credits.number + 1 := by
  cases chainEffect_of_perform hStep with
  | initialized _ _ hInitialize =>
    rcases onInitialize_spec hInitialize with
      rfl | ⟨awarded, _, rfl⟩
    · exact Or.inl ⟨rfl, Nat.le_succ _⟩
    · refine Or.inr ⟨CreditsState.creditTree awarded, ?_, ?_⟩
      · exact recorded_queueCreditTreeDelivery _ _
      · dsimp only
        unfold CreditsState.queueCreditTreeDelivery
        split <;> rfl
  | sent room routed =>
    have hSame := doSendCreditTrees_same w.credits room routed
    exact Or.inl ⟨hSame.1, Nat.le_of_eq hSame.2.symm⟩
  | deletionsDelivered message =>
    have hSame := receiveDeletions_same w.credits message
    exact Or.inl ⟨hSame.1, Nat.le_of_eq hSame.2.symm⟩
  | replayed | swept | creditsTimed | treesDelivered | claimed
  | deletionsSent =>
    exact Or.inl ⟨rfl, Nat.le_refl _⟩

theorem RecordedBefore.perform (hBefore : RecordedBefore w) (hStep : w.perform op = .ok w') :
    RecordedBefore w' := by
  intro block tree hGet
  rcases recorded_perform hStep with ⟨hSame, hLe⟩ | ⟨_, hInsert, hNumber⟩
  · rw [hSame] at hGet
    exact Nat.lt_of_lt_of_le (hBefore block tree hGet) hLe
  · rw [hInsert, StorageMap.get_insert] at hGet
    rw [hNumber]
    by_cases hBlock : block = w.credits.number
    · rw [hBlock]
      exact Nat.lt_succ_self _
    · rw [if_neg hBlock] at hGet
      exact Nat.lt_succ_of_lt (hBefore block tree hGet)

/- What agrees after a step agreed before. -/
theorem Agrees.of_perform (hBefore : RecordedBefore w) (hStep : w.perform op = .ok w')
    (hAgrees : Agrees content w') :
    Agrees content w := by
  intro block tree hGet
  apply hAgrees block tree
  rcases recorded_perform hStep with ⟨hSame, _⟩ | ⟨_, hInsert, _⟩
  · rw [hSame]
    exact hGet
  · have hLt := hBefore block tree hGet
    rw [hInsert, StorageMap.get_insert_of_ne]
    · exact hGet
    · omega

/- The tree of each block, as it was recorded. -/
def contentOf (w : World C) (block : Nat) : NftClaimCreditTree :=
  w.credits.recorded.getD block
    { gameIndex := 0
      root := zeroHash
      leafCount := 0
      timestamp := 0 }

theorem agrees_contentOf (w : World C) : Agrees (contentOf w) w := by
  intro block tree hGet
  unfold contentOf StorageMap.getD
  rw [hGet]
  rfl

/- The roots recorded at the end agree on the way there. -/
theorem tracked_of_run
    (hRun : RunUnder World.perform (fun _ _ w' => ClocksClose w')
        (World.genesis C) w) :
    RecordedBefore w ∧ ∀ content, Agrees content w → Tracked content w := by
  refine hRun.invariant
    (fun w => RecordedBefore w ∧ ∀ content, Agrees content w → Tracked content w)
    ?_ ⟨?_, fun _ _ => tracked_genesis⟩
  · rintro w op w' hClose hStep ⟨hBefore, hTracked⟩
    refine ⟨hBefore.perform hStep, ?_⟩
    intro content hAgrees
    have hOld := hTracked content (hAgrees.of_perform hBefore hStep)
    exact hOld.perform hClose hAgrees hStep
  · intro block tree hGet
    simp [World.genesis, CreditsState.genesis] at hGet

--
-- No Tree Is Lost
--

/- All credits of a tree were minted on the claims chain. -/
def FullyClaimed (w : World C) (block : Nat) (tree : NftClaimCreditTree) : Prop :=
  ∀ i, i < tree.leafCount → (block, i) ∈ w.claims.minted

/- The deadline of a tree has passed on the claims chain. -/
def DeadlinePassed (w : World C) (tree : NftClaimCreditTree) : Prop :=
  expiryDeadline tree.timestamp C.claims.treeTtl ≤ w.claims.now

/-
  Every recorded tree that may still be claimed is somewhere, a root goes only when nothing can be
  claimed with it, and exactly the sequences that were never accepted are reported.
-/
structure NoTreeLost (w : World C) : Prop where
  accounted : ∀ block tree,
      w.credits.recorded.get block = some tree →
      ¬ DeadlinePassed w tree →
        FullyClaimed w block tree ∨ Somewhere w block tree
  absent : ∀ block tree,
      w.credits.recorded.get block = some tree →
      w.credits.creditRoots.get block = none →
        FullyClaimed w block tree ∨ DeadlinePassed w tree
  missing : ∀ sequence,
      (∃ run ∈ w.claims.missing, run.1 ≤ sequence ∧ sequence ≤ run.2)
        ↔ sequence < w.claims.nextExpectedSequence
          ∧ sequence ∉ w.claims.accepted

theorem no_tree_lost
    (hRun : RunUnder World.perform (fun _ _ w' => ClocksClose w')
        (World.genesis C) w) :
    NoTreeLost w := by
  have hTracked := (tracked_of_run hRun).2 _ (agrees_contentOf w)
  have hFinished : ∀ block tree, w.credits.recorded.get block = some tree →
        Finished (contentOf w) w.claims block →
          FullyClaimed w block tree ∨ DeadlinePassed w tree := by
    intro block tree hGet hDone
    have hTree := (hTracked.recorded block tree hGet).1
    unfold FullyClaimed DeadlinePassed
    rw [hTree]
    exact hDone
  refine
    { accounted := ?_
      absent := ?_
      missing := hTracked.exact.exact }
  · intro block tree hGet hPassed
    rcases hTracked.accounted block tree hGet with
      hDone | hSomewhere
    · rcases hFinished block tree hGet hDone with hAll | hPast
      · exact Or.inl hAll
      · exact absurd hPast hPassed
    · exact Or.inr hSomewhere
  · intro block tree hGet hNone
    exact hFinished block tree hGet (hTracked.absent block tree hGet hNone)

--
-- Sample Run
--

theorem hash_pos : 0 < 32 :=
  Nat.zero_lt_succ 31

/- A root over hashes whose first byte is never zero. -/
def sampleRoot (leaves : List Hash) : Hash :=
  (leaves.foldl (Vector.zipWith fun x y => 3#8 * x + 5#8 * y) zeroHash).set 0 1#8 hash_pos

theorem sampleRoot_ne_zero (leaves : List Hash) : sampleRoot leaves ≠ zeroHash := by
  intro hZero
  have hByte := congrArg (fun hash : Hash => hash[0]?) hZero
  simp [sampleRoot, zeroHash] at hByte

def sampleHash (k : Nat) : Hash :=
  Vector.replicate 32 (BitVec.ofNat 8 k)

theorem two_fit : 2 ≤ 2 :=
  Nat.le_refl 2

def sampleChains : Chains where
  credits :=
    { Award := Nat
      creditLeaf := sampleHash
      merkleRoot := sampleRoot
      twox := id
      awardsPerTree := 2
      maxQueuedCreditTrees := 1
      maxCreditTreesPerMessage := 2
      maxTreeDeletionsPerMessage := 2
      maxRootsPerSweep := 2
      replayCooldownSeconds := 5
      claimsChainTreeTtl := 50 }
  claims :=
    { AccountId := Nat
      Claimant := Unit
      creditLeaf := fun _ credit => credit
      verifyProof := fun root proof leafCount leafIndex leaf =>
        match leafCount, leafIndex, proof with
        | 2, 0, [sibling] =>
          decide (root = sampleRoot [leaf, sibling])
        | 2, 1, [sibling] =>
          decide (root = sampleRoot [sibling, leaf])
        | _, _, _ => false
      twox := id
      treeTtl := 50
      maxTreesPerMessage := 2
      maxProofNodes := 1
      maxCreditsPerTree := 2
      maxTreeDeletionsPerMessage := 2
      maxQueuedTreeDeletions := 2 }
  sameTtl := rfl
  treesFit := two_fit
  leavesFit := two_fit
  rootNonzero := fun leaves _ => sampleRoot_ne_zero leaves

/- Two awards, first made at some second. -/
def sampleBuffer (timestamp : Nat) : CreditBuffer sampleChains.credits where
  gameIndex := 1
  timestamp := timestamp
  awards := ⟨[(3 : Nat), (4 : Nat)], two_fit⟩

def sampleNfts : Nfts sampleChains.claims where
  collectionOwner := fun _ => some (1 : Nat)
  itemDrawBounds := fun _ => some (1, 1)
  itemExists := fun _ _ => true
  mintWithoutDeposit := fun _ _ _ => true

def sampleClaim (leafIndex : Nat) :
    Claim sampleChains.claims where
  claimant := some ()
  block := 0
  credit := sampleHash (3 + leafIndex)
  leafIndex := leafIndex
  proof := ⟨[sampleHash (4 - leafIndex)], Nat.le_refl 1⟩
  collection := 7
  mintTo := (1 : Nat)
  before := sampleNfts
  after := sampleNfts

/-
  The delivery of block 1 is dropped and replayed, block 0 is
  claimed and its root deleted, and block 2 arrives too late.
-/
def sampleOps : List (Op sampleChains) :=
  [ .creditsTime 20000, .claimsTime 21000, .onInitialize (some (sampleBuffer 10)),
    .onInitialize (some (sampleBuffer 15)),
    .sendCreditTrees (some 5) false,
    .sendCreditTrees (some 5) true,
    .deliverTrees,
    .replayCreditTrees ⟨[0, 1], two_fit⟩ (some 2) true,
    .setCollectionMinter sampleNfts (1 : Nat) 7 (some .random) (fun _ => true),
    .claim (sampleClaim 0) (.done none),
    .claim (sampleClaim 1) (.done none),
    .deliverTrees,
    .sendTreeDeletions true,
    .deliverDeletions,
    .onInitialize (some (sampleBuffer 20)),
    .sendCreditTrees (some 1) true,
    .claimsTime 90000,
    .deliverTrees,
    .sweepExpiredTrees,
    .onInitialize (some (sampleBuffer 85)),
    .sendCreditTrees (some 1) true,
    .deliverTrees ]

instance (w : World C) : Decidable (ClocksClose w) :=
  inferInstanceAs (Decidable (_ ∧ _))

def sampleCheck (w : World sampleChains) (op : Op sampleChains) : Bool :=
  match w.perform op with
  | .ok w' => decide (ClocksClose w')
  | .error _ => false

theorem no_tree_lost_sample : ∃ w : World sampleChains,
      NoTreeLost w ∧ w.claims.minted = [(0, 0), (0, 1)] ∧ w.credits.dropped = [1]
        ∧ w.credits.creditRoots.get 0 = none
        ∧ (w.claims.creditTrees.get 3).isSome = true
        ∧ w.claims.accepted = [0, 2]
        ∧ w.claims.missing = [(1, 1)] := by
  have hExecute : (execute World.perform sampleCheck (World.genesis sampleChains) sampleOps).any
        (fun w =>
          decide (w.claims.minted = [(0, 0), (0, 1)] ∧ w.credits.dropped = [1]
            ∧ w.credits.creditRoots.get 0 = none
            ∧ (w.claims.creditTrees.get 3).isSome = true
            ∧ w.claims.accepted = [0, 2]
            ∧ w.claims.missing = [(1, 1)])) = true := by
    decide +kernel
  have hReach : ∃ w, RunUnder World.perform (fun _ _ w' => ClocksClose w')
            (World.genesis sampleChains) w
          ∧ _ :=
    exists_run_of_execute (fun w op w' hCheck hStep => by
        unfold sampleCheck at hCheck
        rw [hStep] at hCheck
        exact of_decide_eq_true hCheck)
      hExecute
  rcases hReach with ⟨w, hRun, hTest⟩
  exact ⟨w, no_tree_lost hRun, of_decide_eq_true hTest⟩

end Individuality.CreditTrees
