import Individuality.CreditTrees.Awarding

/-
  What a step of the chains can do.  Every invariant of the
  chains is proved by cases on these effects.

  Main declaration: `ChainEffect`
-/

namespace Individuality.CreditTrees

open Except (bind_eq_ok pure_eq_ok)

open NftCredits NftClaims

variable {C : Chains}

/- The trees that a replay sends again. -/
def replayedTrees (s : CreditsState C.credits)
    (blocks : BoundedVec Nat C.credits.maxCreditTreesPerMessage) :
    List CreditTreeDelivery :=
  s.resolveCreditTrees (blocks.toList.map fun block => (none, block))

/- A step that succeeded, by what it did. -/
inductive ChainEffect (w : World C) : Op C → World C → Prop
  | initialized
      (buffer : Option (CreditBuffer C.credits))
      (credits : CreditsState C.credits)
      (hInitialize : w.credits.onInitialize buffer = .ok credits) :
      ChainEffect w (.onInitialize buffer) { w with credits := credits }
  | sent (room : Option Nat) (routed : Bool) :
      ChainEffect w (.sendCreditTrees room routed)
        { w with
          credits := (w.credits.doSendCreditTrees room routed).1
          toClaims :=
            w.toClaims
              ++ (w.credits.doSendCreditTrees room routed).2.toList }
  | replayed (blocks : BoundedVec Nat C.credits.maxCreditTreesPerMessage) (room : Option Nat)
      (routed : Bool)
      (hReplay : w.credits.doReplayCreditTrees blocks room routed = .ok
          ({ w.credits with lastReplayTime := some w.credits.now },
            replayedTrees w.credits blocks)) :
      ChainEffect w (.replayCreditTrees blocks room routed)
        { w with
          credits := { w.credits with lastReplayTime := some w.credits.now }
          toClaims := w.toClaims ++ [replayedTrees w.credits blocks] }
  | swept : ChainEffect w .sweepExpiredRoots
      { w with credits := w.credits.doSweepExpiredRoots }
  | creditsTimed (millis : Nat) (hMillis : millis ≤ u64Max) :
      ChainEffect w (.creditsTime millis)
        { w with credits := { w.credits with now := millis / 1000 } }
  | treesDelivered (message : List CreditTreeDelivery) (rest : List (List CreditTreeDelivery))
      (hFlight : w.toClaims = message :: rest) :
      ChainEffect w .deliverTrees
        { w with
          claims := World.receiveTrees w.claims message
          toClaims := rest }
  | deletionsDelivered (message : List Nat) (rest : List (List Nat))
      (hFlight : w.toGame = message :: rest) :
      ChainEffect w .deliverDeletions
        { w with
          credits := World.receiveDeletions w.credits message
          toGame := rest }
  | claimed (op : Op C) (call : NftClaims.Op C.claims) (claims : ClaimsState C.claims)
      (hTrees : ∀ batch, call ≠ .receiveCreditTrees batch)
      (hDeletions : ∀ delivered, call ≠ .sendTreeDeletions delivered)
      (hClaims : w.claims.perform call = .ok claims) :
      ChainEffect w op { w with claims := claims }
  | deletionsSent (routed : Bool) : ChainEffect w (.sendTreeDeletions routed)
      { w with
        claims := w.claims.doSendTreeDeletions routed
        toGame :=
          if routed then w.toGame ++ [w.claims.deletionMessage]
          else w.toGame }

variable {w w' : World C}

theorem onClaims_effect {op : Op C} {call : NftClaims.Op C.claims}
    (hTrees : ∀ batch, call ≠ .receiveCreditTrees batch)
    (hDeletions : ∀ delivered, call ≠ .sendTreeDeletions delivered)
    (hStep : w.onClaims call = .ok w') :
    ChainEffect w op w' := by
  simp only [World.onClaims, bind_eq_ok, mapError_eq_ok_iff, pure_eq_ok] at hStep
  rcases hStep with ⟨claims, hClaims, rfl⟩
  exact .claimed op call claims hTrees hDeletions hClaims

/- Every successful step has one of these effects. -/
theorem chainEffect_of_perform {op : Op C} (hStep : w.perform op = .ok w') :
    ChainEffect w op w' := by
  cases op with
  | onInitialize buffer =>
    simp only [World.perform, bind_eq_ok, mapError_eq_ok_iff, pure_eq_ok] at hStep
    rcases hStep with ⟨credits, hInitialize, rfl⟩
    exact .initialized buffer credits hInitialize
  | sendCreditTrees room routed =>
    cases hStep
    exact .sent room routed
  | replayCreditTrees blocks room routed =>
    simp only [World.perform, bind_eq_ok, mapError_eq_ok_iff, pure_eq_ok] at hStep
    rcases hStep with ⟨sent, hReplay, rfl⟩
    have hSent := hReplay
    simp only [CreditsState.doReplayCreditTrees, bind_eq_ok, ensure_eq_ok_iff, exists_const,
      pure_eq_ok] at hSent
    rcases hSent with ⟨_, _, _, _, _, _, _, _, rfl⟩
    exact .replayed blocks room routed hReplay
  | sweepExpiredRoots =>
    cases hStep
    exact .swept
  | creditsTime millis =>
    simp only [World.perform, bind_eq_ok, ensure_eq_ok_iff, exists_const, pure_eq_ok] at hStep
    rcases hStep with ⟨⟨hMillis, _⟩, rfl⟩
    exact .creditsTimed millis hMillis
  | deliverTrees =>
    unfold World.perform at hStep
    cases hFlight : w.toClaims with
    | nil => simp only [hFlight, reduceCtorEq] at hStep
    | cons message rest =>
      simp only [hFlight, Except.ok.injEq] at hStep
      rw [← hStep]
      exact .treesDelivered message rest hFlight
  | deliverDeletions =>
    unfold World.perform at hStep
    cases hFlight : w.toGame with
    | nil => simp only [hFlight, reduceCtorEq] at hStep
    | cons message rest =>
      simp only [hFlight, Except.ok.injEq] at hStep
      rw [← hStep]
      exact .deletionsDelivered message rest hFlight
  | claim | setCollectionMinter | clearCollectionMinter
  | sweepExpiredTrees =>
    exact onClaims_effect (fun _ hEq => by cases hEq) (fun _ hEq => by cases hEq) hStep
  | sendTreeDeletions routed =>
    cases hStep
    exact .deletionsSent routed
  | claimsTime millis =>
    simp only [World.perform, bind_eq_ok, ensure_eq_ok_iff, exists_const] at hStep
    exact onClaims_effect (fun _ hEq => by cases hEq) (fun _ hEq => by cases hEq) hStep.2

/- A step with the awards, by what it did. -/
inductive AwardEffect {A : AwardChains} (w : AwardWorld A) :
    AwardOp A → AwardWorld A → Prop
  | initialized (awarding : AwardingState A.awarding)
      (hInitialize : w.awarding.onInitialize = .ok awarding) :
      AwardEffect w .onInitialize (w.withAwarding awarding)
  | awarded (gameIndex : Nat) (grants : List (Grant A.awarding)) (awardTime : Nat)
      (hSlots : ∀ grant ∈ grants, grant.creditSlot < awardedCreditsCapacity)
      (hRoom : grants.length ≤ w.awarding.remainingCreditCapacity gameIndex) :
      AwardEffect w (.award gameIndex grants awardTime)
        (w.withAwarding (w.awarding.awardCredits gameIndex grants awardTime).1)
  | forgotten (op : AwardOp A)
      (awardedCredits : DoubleMap Nat A.awarding.Claimant
          (BitVec awardedCreditsCapacity)) :
      AwardEffect w op
        (w.withAwarding { w.awarding with awardedCredits := awardedCredits })
  | swept : AwardEffect w .sweepExpiredAwards
      (w.withAwarding w.awarding.doSweepExpiredAwards)
  | chains (op : Op A.chains) (world : World A.chains) (hOp : op.startsBlock = false)
      (hWorld : w.world.perform op = .ok world) :
      AwardEffect w (.chains op) (w.withWorld world)

/- Every successful step has one of these effects. -/
theorem awardEffect_of_perform {A : AwardChains} {w w' : AwardWorld A} {op : AwardOp A}
    (hStep : w.perform op = .ok w') :
    AwardEffect w op w' := by
  cases op with
  | onInitialize =>
    simp only [AwardWorld.perform, bind_eq_ok, mapError_eq_ok_iff, pure_eq_ok] at hStep
    rcases hStep with ⟨awarding, hInitialize, rfl⟩
    exact .initialized awarding hInitialize
  | award gameIndex grants awardTime =>
    simp only [AwardWorld.perform, bind_eq_ok, ensure_eq_ok_iff, exists_const, pure_eq_ok] at hStep
    rcases hStep with ⟨hSlots, hRoom, rfl⟩
    exact .awarded gameIndex grants awardTime hSlots hRoom
  | clearGameCredits | forgetPlayerCredits =>
    cases hStep
    exact .forgotten _ _
  | sweepExpiredAwards =>
    cases hStep
    exact .swept
  | chains op =>
    simp only [AwardWorld.perform, bind_eq_ok, ensure_eq_ok_iff, exists_const, mapError_eq_ok_iff,
      pure_eq_ok] at hStep
    rcases hStep with ⟨hOp, world, hWorld, rfl⟩
    exact .chains op world hOp hWorld

end Individuality.CreditTrees
