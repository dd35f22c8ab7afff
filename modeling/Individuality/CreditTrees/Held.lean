import Individuality.CreditTrees.Buffers

/-
  The trees that the claims chain holds are the recorded ones,
  whatever the clocks of the two chains say.

  Main declaration: `Faithful`
-/

namespace Individuality.CreditTrees

open NftClaims (ClaimsState SpentInvariant FixedContent)

open NftCredits

open NftCredits.AwardingState

--
-- Chains
--

section Worlds

variable {C : Chains} {w w' : World C}

/-
  Roots and messages carry recorded trees, and the claims
  chain is right about any content that agrees with them.
-/
structure Faithful (w : World C) : Prop where
  roots : ∀ block tree,
      w.credits.creditRoots.get block = some tree →
        w.credits.recorded.get block = some tree
  flight : ∀ message ∈ w.toClaims,
      ∀ update ∈ message, w.credits.recorded.get update.block = some update.tree
  spent : ∀ content, Agrees content w → SpentInvariant content w.claims

theorem faithful_genesis : Faithful (World.genesis C) where
  roots := by
    intro block tree hGet
    simp [World.genesis, CreditsState.genesis] at hGet
  flight := by
    intro message hMem
    cases hMem
  spent := fun content _ => NftClaims.spentInvariant_genesis

/- A held tree was recorded, as no other content fits it. -/
theorem Faithful.held (hFaithful : Faithful w) {block : Nat} {tree : NftClaimCreditTree}
    (hGet : w.claims.creditTrees.get block = some tree) :
    w.credits.recorded.get block = some tree := by
  cases hRecorded : w.credits.recorded.get block with
  | some recorded =>
    have hSpent := hFaithful.spent (contentOf w) (agrees_contentOf w)
    have hTree := (hSpent.held block tree hGet).1
    have hContent := agrees_contentOf w block recorded hRecorded
    rw [hTree, hContent]
  | none =>
    let other : NftClaimCreditTree := { tree with leafCount := tree.leafCount + 1 }
    have hAgrees : Agrees (Function.update (contentOf w) block other) w := by
      intro b t hB
      have hNe : b ≠ block := by
        rintro rfl
        rw [hRecorded] at hB
        cases hB
      rw [Function.update_of_ne hNe]
      exact agrees_contentOf w b t hB
    have hTree := ((hFaithful.spent _ hAgrees).held block tree hGet).1
    rw [Function.update_self] at hTree
    have hCount := congrArg (·.leafCount) hTree
    exact absurd hCount (Nat.ne_of_lt (Nat.lt_succ_self _))

variable {toClaims : List (List CreditTreeDelivery)}

/- More recorded trees, and messages that carry them. -/
theorem Faithful.grow (hFaithful : Faithful w) {credits : CreditsState C.credits}
    (toGame : List (List Nat))
    (hKept : ∀ block tree, w.credits.recorded.get block = some tree →
        credits.recorded.get block = some tree)
    (hRoots : ∀ block tree, credits.creditRoots.get block = some tree →
        credits.recorded.get block = some tree)
    (hFlight : ∀ message ∈ toClaims, ∀ update ∈ message,
        credits.recorded.get update.block = some update.tree) :
    Faithful
      { credits := credits
        claims := w.claims
        toClaims := toClaims
        toGame := toGame } where
  roots := hRoots
  flight := hFlight
  spent := by
    intro content hAgrees
    apply hFaithful.spent content
    intro block tree hGet
    exact hAgrees block tree (hKept block tree hGet)

/- A step of the claims chain, on messages that were sent. -/
theorem Faithful.onClaims (hFaithful : Faithful w)
    {op : NftClaims.Op C.claims} {claims : ClaimsState C.claims} (toGame : List (List Nat))
    (hStep : w.claims.perform op = .ok claims)
    (hContent : ∀ content, Agrees content w → FixedContent content op)
    (hSent : ∀ message ∈ toClaims, message ∈ w.toClaims) :
    Faithful
      { credits := w.credits
        claims := claims
        toClaims := toClaims
        toGame := toGame } where
  roots := hFaithful.roots
  flight := by
    intro message hMem
    exact hFaithful.flight message (hSent message hMem)
  spent := by
    intro content hAgrees
    exact (hFaithful.spent content hAgrees).perform (hContent content hAgrees) hStep

/- A step that starts no block keeps the chains faithful. -/
theorem Faithful.perform {op : Op C} (hFaithful : Faithful w) (hOp : op.startsBlock = false)
    (hStep : w.perform op = .ok w') :
    Faithful w' := by
  have hTrivial : ∀ message ∈ w.toClaims, message ∈ w.toClaims := fun _ hMem => hMem
  cases chainEffect_of_perform hStep with
  | initialized => cases hOp
  | sent room routed =>
    have hSame := doSendCreditTrees_same w.credits room routed
    have hRoots : (w.credits.doSendCreditTrees room routed
          ).1.creditRoots = w.credits.creditRoots := by
      unfold CreditsState.doSendCreditTrees
      split
      · rfl
      · dsimp only
        split <;> rfl
    have hSent : ∀ message ∈ (w.credits.doSendCreditTrees room routed ).2.toList,
          ∀ update ∈ message, w.credits.creditRoots.get update.block = some update.tree := by
      intro message hMem update hUpdate
      rw [Option.mem_toList] at hMem
      unfold CreditsState.doSendCreditTrees at hMem
      split at hMem
      · cases hMem
      · dsimp only at hMem
        split at hMem
        · cases hMem
        · dsimp only at hMem
          split at hMem
          · cases hMem
            exact mem_resolveCreditTrees hUpdate
          · cases hMem
    apply hFaithful.grow
    · intro block tree hGet
      rw [hSame.1]
      exact hGet
    · intro block tree hGet
      rw [hRoots] at hGet
      rw [hSame.1]
      exact hFaithful.roots block tree hGet
    · intro message hMem update hUpdate
      rw [hSame.1]
      rw [List.mem_append] at hMem
      rcases hMem with hOld | hNew
      · exact hFaithful.flight message hOld update hUpdate
      · exact hFaithful.roots _ _ (hSent message hNew update hUpdate)
  | replayed =>
    apply hFaithful.grow
    · exact fun _ _ hGet => hGet
    · exact hFaithful.roots
    · intro message hMem update hUpdate
      rw [List.mem_append, List.mem_singleton] at hMem
      rcases hMem with hOld | rfl
      · exact hFaithful.flight message hOld update hUpdate
      · exact hFaithful.roots _ _ (mem_resolveCreditTrees hUpdate)
  | swept =>
    apply hFaithful.grow
    · exact fun _ _ hGet => hGet
    · intro block tree hGet
      apply hFaithful.roots
      change (List.foldl (·.remove ·) w.credits.creditRoots _).get block = some tree at hGet
      rw [StorageMap.get_foldl_remove] at hGet
      split at hGet
      · cases hGet
      · exact hGet
    · exact hFaithful.flight
  | creditsTimed =>
    exact hFaithful.grow _ (fun _ _ hGet => hGet) hFaithful.roots hFaithful.flight
  | treesDelivered message rest hFlight =>
    have hSent : ∀ m ∈ rest, m ∈ w.toClaims := by
      intro m hMem
      rw [hFlight]
      exact List.mem_cons_of_mem _ hMem
    unfold World.receiveTrees
    cases hBatch :
      (BoundedVec.ofList? message : Option (BoundedVec CreditTreeDelivery
          C.claims.maxTreesPerMessage)) with
    | none =>
      exact
        { roots := hFaithful.roots
          flight := fun m hMem => hFaithful.flight m (hSent m hMem)
          spent := hFaithful.spent }
    | some batch =>
      have hReceive : w.claims.perform (.receiveCreditTrees batch)
            = .ok (w.claims.receiveCreditTrees batch) :=
        rfl
      refine hFaithful.onClaims _ hReceive ?_ hSent
      intro content hAgrees update hMem _ _ _
      rw [BoundedVec.ofList?_eq_some_iff] at hBatch
      rw [hBatch] at hMem
      apply hAgrees
      apply hFaithful.flight message
      · rw [hFlight]
        exact List.mem_cons_self ..
      · exact hMem
  | deletionsDelivered message =>
    have hSame := receiveDeletions_same w.credits message
    apply hFaithful.grow
    · intro block tree hGet
      rw [hSame.1]
      exact hGet
    · intro block tree hGet
      rw [hSame.1]
      apply hFaithful.roots
      unfold World.receiveDeletions at hGet
      split at hGet
      · rename_i blocks _
        exact (foldl_removeCreditRoot_spec blocks.toList w.credits
            fun _ _ => True.intro).roots block tree hGet
      · exact hGet
    · intro m hMem update hUpdate
      rw [hSame.1]
      exact hFaithful.flight m hMem update hUpdate
  | claimed _ call _ hTrees _ hClaims =>
    cases call with
    | receiveCreditTrees batch => exact absurd rfl (hTrees batch)
    | _ => exact hFaithful.onClaims _ hClaims (fun _ _ => trivial) hTrivial
  | deletionsSent routed =>
    have hSend : w.claims.perform (.sendTreeDeletions routed)
          = .ok (w.claims.doSendTreeDeletions routed) :=
      rfl
    exact hFaithful.onClaims _ hSend (fun _ _ => trivial) hTrivial

end Worlds

--
-- Chains with Awards
--

section Awards

variable {D : AwardConfig} {s s' : AwardingState D}

theorem credits_awardNftClaimCredit {gameIndex awardTime : Nat} {grant : Grant D} :
    (s.awardNftClaimCredit gameIndex grant awardTime).1.credits = s.credits := by
  unfold awardNftClaimCredit
  split
  · rfl
  · split
    · rfl
    · split
      · rfl
      · split <;> rfl

theorem credits_awardCredits {gameIndex awardTime : Nat} (grants : List (Grant D)) :
    (s.awardCredits gameIndex grants awardTime).1.credits = s.credits := by
  unfold awardCredits
  generalize (0 : Nat) = count
  induction grants generalizing s count with
  | nil => rfl
  | cons grant grants ih =>
    rw [List.foldl_cons]
    exact (ih _).trans credits_awardNftClaimCredit

theorem credits_clearAwards (block : Nat) :
    (s.clearAwards block).credits = s.credits := by
  unfold clearAwards
  dsimp only
  split <;> rfl

theorem credits_doSweepExpiredAwards :
    s.doSweepExpiredAwards.credits = s.credits := by
  unfold doSweepExpiredAwards
  dsimp only
  generalize hSwept :
    ({ s with
        awardExpiries := (drainDueExpiries D.twox D.awardRetentionTtl
            s.credits.now D.maxAwardBlocksPerSweep s.awardExpiries).2 } : AwardingState D) = swept
  have hSame : swept.credits = s.credits := by
    rw [← hSwept]
  clear hSwept
  generalize (drainDueExpiries D.twox D.awardRetentionTtl s.credits.now
      D.maxAwardBlocksPerSweep s.awardExpiries).1 = blocks
  induction blocks generalizing swept with
  | nil => exact hSame
  | cons block blocks ih =>
    rw [List.foldl_cons]
    exact ih _ ((credits_clearAwards block).trans hSame)

/- A new block records one tree, or none. -/
theorem credits_onInitialize (hStep : s.onInitialize = .ok s') :
    s'.credits = s.startBlock.credits ∨ ∃ tree, s'.credits
        = (s.startBlock.credits.recordRoot s.credits.number tree).queueCreditTreeDelivery
            s.credits.number := by
  simp only [AwardingState.onInitialize, Except.bind_eq_ok,
    ensure_eq_ok_iff, exists_const, Except.pure_eq_ok] at hStep
  rcases hStep with ⟨_, rfl⟩
  unfold AwardingState.buildCreditTree
  rw [Nat.add_sub_cancel]
  split
  · exact Or.inl rfl
  · rename_i buffer _
    unfold buildTree
    dsimp only
    split
    · left
      split <;> rfl
    · right
      split
      · exact ⟨_, rfl⟩
      · exact ⟨_, rfl⟩

end Awards

section AwardWorlds

variable {A : AwardChains} {w w' : AwardWorld A}

theorem creditRoots_queueCreditTreeDelivery {D : NftCredits.Config} (s : CreditsState D)
    (block : Nat) :
    (s.queueCreditTreeDelivery block).creditRoots = s.creditRoots := by
  unfold CreditsState.queueCreditTreeDelivery
  split <;> rfl

/- More recorded trees leave the chains faithful. -/
theorem faithful_withAwarding (hFaithful : Faithful w.world) {awarding : AwardingState A.awarding}
    (hKept : ∀ block tree, w.awarding.credits.recorded.get block = some tree →
        awarding.credits.recorded.get block = some tree)
    (hRoots : ∀ block tree, awarding.credits.creditRoots.get block = some tree →
        awarding.credits.recorded.get block = some tree) :
    Faithful (w.withAwarding awarding).world :=
  hFaithful.grow w.toGame hKept hRoots fun message hMem update hUpdate =>
      hKept _ _ (hFaithful.flight message hMem update hUpdate)

/- A step keeps the chains faithful. -/
theorem faithful_perform {op : AwardOp A} (hBuffered : Buffered w.awarding)
    (hFaithful : Faithful w.world) (hStep : w.perform op = .ok w') :
    Faithful w'.world := by
  have hSame : ∀ awarding : AwardingState A.awarding, awarding.credits = w.awarding.credits →
          Faithful (w.withAwarding awarding).world := by
    intro awarding hCredits
    unfold AwardWorld.world AwardWorld.withAwarding
    dsimp only
    rw [hCredits]
    exact hFaithful
  cases awardEffect_of_perform hStep with
  | initialized awarding hInitialize =>
    have hNone := (hBuffered.waiting w.awarding.credits.number (Nat.le_refl _)).2.1
    rcases credits_onInitialize hInitialize with
      hCredits | ⟨tree, hCredits⟩
    · apply faithful_withAwarding hFaithful
      · intro block tree hGet
        rw [hCredits]
        exact hGet
      · intro block tree hGet
        rw [hCredits] at hGet ⊢
        exact hFaithful.roots block tree hGet
    · have hRecorded : awarding.credits.recorded = w.awarding.credits.recorded.insert
              w.awarding.credits.number tree := by
        rw [hCredits]
        exact recorded_queueCreditTreeDelivery _ _
      have hRoots : awarding.credits.creditRoots = w.awarding.credits.creditRoots.insert
              w.awarding.credits.number tree := by
        rw [hCredits]
        exact creditRoots_queueCreditTreeDelivery _ _
      have hKept : ∀ block t, w.awarding.credits.recorded.get block = some t →
              awarding.credits.recorded.get block = some t := by
        intro block t hGet
        have hNe : block ≠ w.awarding.credits.number := by
          rintro rfl
          rw [hNone] at hGet
          cases hGet
        rw [hRecorded, StorageMap.get_insert_of_ne _ _ hNe]
        exact hGet
      apply faithful_withAwarding hFaithful hKept
      · intro block t hGet
        rw [hRoots, StorageMap.get_insert] at hGet
        rw [hRecorded, StorageMap.get_insert]
        split
        · rename_i hBlock
          rw [if_pos hBlock] at hGet
          exact hGet
        · rename_i hBlock
          rw [if_neg hBlock] at hGet
          exact hFaithful.roots block t hGet
  | awarded _ grants => exact hSame _ (credits_awardCredits grants)
  | forgotten => exact hSame _ rfl
  | swept => exact hSame _ credits_doSweepExpiredAwards
  | chains _ _ hOp hWorld => exact hFaithful.perform hOp hWorld

theorem faithful_of_run {allowed : AwardWorld A → AwardOp A → AwardWorld A → Prop}
    (hRun : RunUnder AwardWorld.perform allowed (AwardWorld.genesis A) w) :
    Faithful w.world := by
  have hBoth := hRun.invariant (fun w => Buffered w.awarding ∧ Faithful w.world) (by
        rintro w op w' _ hStep ⟨hBuffered, hFaithful⟩
        exact ⟨buffered_perform hBuffered hStep, faithful_perform hBuffered hFaithful hStep⟩)
      ⟨buffered_genesis, faithful_genesis⟩
  exact hBoth.2

end AwardWorlds

end Individuality.CreditTrees
