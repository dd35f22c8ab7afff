import Individuality.CreditTrees.Chains
import Individuality.NftCredits.Awards
import Mathlib.Data.Nat.Log

/-
  The game chain with its buffers of awards, and the claims
  chain, with the messages in flight between them.

  Main declaration: `AwardChains`
-/

namespace Individuality.CreditTrees

open NftClaims (ClaimsState)

open NftCredits
  (AwardConfig AwardingState Grant awardsPerTree awardedCreditsCapacity)

/-
  The two pallets as they are set up together.  A claimant and a leaf are the same on both chains,
  and the proofs of a tree of the largest size fit a claim.
-/
structure AwardChains where
  awarding : AwardConfig
  AccountId : Type
  [accountEq : DecidableEq AccountId]
  verifyProof : Hash → List Hash → Nat → Nat → Hash → Bool
  maxTreesPerMessage : Nat
  maxProofNodes : Nat
  maxCreditsPerTree : Nat
  maxTreeDeletionsPerMessage : Nat
  maxQueuedTreeDeletions : Nat
  treesFit : awarding.maxCreditTreesPerMessage ≤ maxTreesPerMessage
  leavesFit : awardsPerTree ≤ maxCreditsPerTree
  proofsFit : Nat.clog 2 maxCreditsPerTree ≤ maxProofNodes
  rootNonzero : ∀ leaves, leaves ≠ [] → awarding.merkleRoot leaves ≠ zeroHash

def AwardChains.claims (A : AwardChains) : NftClaims.Config where
  AccountId := A.AccountId
  accountEq := A.accountEq
  Claimant := A.awarding.Claimant
  creditLeaf := A.awarding.creditLeaf
  verifyProof := A.verifyProof
  twox := A.awarding.twox
  treeTtl := A.awarding.claimsChainTreeTtl
  maxTreesPerMessage := A.maxTreesPerMessage
  maxProofNodes := A.maxProofNodes
  maxCreditsPerTree := A.maxCreditsPerTree
  maxTreeDeletionsPerMessage := A.maxTreeDeletionsPerMessage
  maxQueuedTreeDeletions := A.maxQueuedTreeDeletions

def AwardChains.chains (A : AwardChains) : Chains where
  credits := A.awarding.config
  claims := A.claims
  sameTtl := rfl
  treesFit := A.treesFit
  leavesFit := A.leavesFit
  rootNonzero := A.rootNonzero

variable {A : AwardChains}

structure AwardWorld (A : AwardChains) where
  awarding : AwardingState A.awarding
  claims : ClaimsState A.claims
  toClaims : List (List CreditTreeDelivery)
  toGame : List (List Nat)

/- The two chains without the buffers. -/
def AwardWorld.world (w : AwardWorld A) : World A.chains :=
  { credits := w.awarding.credits
    claims := w.claims
    toClaims := w.toClaims
    toGame := w.toGame }

/- The buffers with other chains around them. -/
def AwardWorld.withWorld (w : AwardWorld A) (world : World A.chains) : AwardWorld A :=
  { awarding := { w.awarding with credits := world.credits }
    claims := world.claims
    toClaims := world.toClaims
    toGame := world.toGame }

def AwardWorld.genesis (A : AwardChains) : AwardWorld A :=
  { awarding := .genesis A.awarding
    claims := .genesis A.claims
    toClaims := []
    toGame := [] }

inductive AwardError where
  | credits (e : NftCredits.Error)
  | chains (e : ChainError)
  | creditSlotOutOfBounds
  | noCreditCapacity
  | blockStarts
  deriving DecidableEq, Repr

/-
  The steps of both pallets.  A caller awards credits of one
  game, as many as the capacity it read allows.
-/
inductive AwardOp (A : AwardChains) where
  | onInitialize
  | award
      (gameIndex : Nat)
      (grants : List (Grant A.awarding))
      (awardTime : Nat)
  | clearGameCredits (gameIndex limit : Nat) (found : DoubleMap.Backend A.awarding.Claimant)
  | forgetPlayerCredits
      (gameIndex : Nat)
      (player : A.awarding.Claimant)
  | sweepExpiredAwards
  | chains (op : Op A.chains)

/- The steps at which a block of the game chain starts. -/
def Op.startsBlock {C : Chains} : Op C → Bool
  | .onInitialize _ => true
  | _ => false

namespace AwardWorld

def withAwarding (w : AwardWorld A) (awarding : AwardingState A.awarding) : AwardWorld A :=
  { w with awarding := awarding }

def perform (w : AwardWorld A) :
    AwardOp A → Except AwardError (AwardWorld A)
  | .onInitialize => do
    let awarding ← w.awarding.onInitialize.mapError AwardError.credits
    return w.withAwarding awarding
  | .award gameIndex grants awardTime => do
    ensure (∀ grant ∈ grants, grant.creditSlot < awardedCreditsCapacity)
      AwardError.creditSlotOutOfBounds
    ensure (grants.length ≤ w.awarding.remainingCreditCapacity gameIndex)
      AwardError.noCreditCapacity
    return w.withAwarding (w.awarding.awardCredits gameIndex grants awardTime).1
  | .clearGameCredits gameIndex limit found =>
    .ok (w.withAwarding (w.awarding.clearGameCredits gameIndex limit found))
  | .forgetPlayerCredits gameIndex player =>
    .ok (w.withAwarding (w.awarding.forgetPlayerCredits gameIndex player))
  | .sweepExpiredAwards =>
    .ok (w.withAwarding w.awarding.doSweepExpiredAwards)
  | .chains op => do
    ensure (op.startsBlock = false) AwardError.blockStarts
    let world ← (w.world.perform op).mapError AwardError.chains
    return w.withWorld world

end AwardWorld

end Individuality.CreditTrees
