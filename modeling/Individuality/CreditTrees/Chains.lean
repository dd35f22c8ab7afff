import Individuality.NftClaims.Pallet
import Individuality.NftCredits.Pallet

/-
  The game chain and the claims chain, with the messages in flight between them.

  Main declaration: `Chains`
-/

namespace Individuality.CreditTrees

open NftClaims (ClaimsState Claim Reentry Nfts ItemSelection)

open NftCredits (CreditsState CreditBuffer rootTtlGrace)

/-
  The two pallets as they are set up together: the deadline is one, a message of the game chain
  decodes on the claims chain, and a tree of the game chain fits its bitmap.  The root over some
  leaves is never zero.
-/
structure Chains where
  credits : NftCredits.Config
  claims : NftClaims.Config
  sameTtl : credits.claimsChainTreeTtl = claims.treeTtl
  treesFit : credits.maxCreditTreesPerMessage ≤ claims.maxTreesPerMessage
  leavesFit : credits.awardsPerTree ≤ claims.maxCreditsPerTree
  rootNonzero : ∀ leaves, leaves ≠ [] → credits.merkleRoot leaves ≠ zeroHash

variable {C : Chains}

/- Both channels are lossless and deliver in order. -/
structure World (C : Chains) where
  credits : CreditsState C.credits
  claims : ClaimsState C.claims
  toClaims : List (List CreditTreeDelivery)
  toGame : List (List Nat)

def World.genesis (C : Chains) : World C :=
  { credits := .genesis C.credits
    claims := .genesis C.claims
    toClaims := []
    toGame := [] }

inductive ChainError where
  | credits (e : NftCredits.Error)
  | claims (e : NftClaims.Error)
  | nothingInFlight
  | clock
  deriving DecidableEq, Repr

/- Clocks are set in milliseconds and read in seconds. -/
inductive Op (C : Chains) where
  | onInitialize (buffer : Option (CreditBuffer C.credits))
  | sendCreditTrees (room : Option Nat) (routed : Bool)
  | replayCreditTrees (blocks : BoundedVec Nat C.credits.maxCreditTreesPerMessage)
      (room : Option Nat) (routed : Bool)
  | sweepExpiredRoots
  | creditsTime (millis : Nat)
  | deliverTrees
  | deliverDeletions
  | claim (call : Claim C.claims) (selector : Reentry C.claims)
  | setCollectionMinter (nfts : Nfts C.claims) (who : C.claims.AccountId) (collection : Nat)
      (selection : Option ItemSelection) (isContract : Nat → Bool)
  | clearCollectionMinter (collection : Nat)
  | sweepExpiredTrees
  | sendTreeDeletions (routed : Bool)
  | claimsTime (millis : Nat)

namespace World

/- A message that does not decode changes nothing. -/
def receiveTrees (s : ClaimsState C.claims) (message : List CreditTreeDelivery) :
    ClaimsState C.claims :=
  match BoundedVec.ofList? message with
  | some batch => s.receiveCreditTrees batch
  | none => s

def receiveDeletions (s : CreditsState C.credits) (message : List Nat) : CreditsState C.credits :=
  match BoundedVec.ofList? message with
  | some blocks => s.doReceiveTreeDeletions blocks
  | none => s

/- A step of the claims pallet alone. -/
def onClaims (w : World C) (op : NftClaims.Op C.claims) :
    Except ChainError (World C) := do
  let claims ← (w.claims.perform op).mapError ChainError.claims
  return { w with claims := claims }

def perform (w : World C) :
    Op C → Except ChainError (World C)
  | .onInitialize buffer => do
    let credits ← (w.credits.onInitialize buffer).mapError ChainError.credits
    return { w with credits := credits }
  | .sendCreditTrees room routed =>
    let sent := w.credits.doSendCreditTrees room routed
    .ok
      { w with
        credits := sent.1
        toClaims := w.toClaims ++ sent.2.toList }
  | .replayCreditTrees blocks room routed => do
    let sent ← (w.credits.doReplayCreditTrees blocks room routed ).mapError ChainError.credits
    return {
      w with
      credits := sent.1
      toClaims := w.toClaims ++ [sent.2] }
  | .sweepExpiredRoots =>
    .ok { w with credits := w.credits.doSweepExpiredRoots }
  | .creditsTime millis => do
    ensure (millis ≤ u64Max ∧ w.credits.now ≤ millis / 1000) ChainError.clock
    return {
      w with
      credits := { w.credits with now := millis / 1000 } }
  | .deliverTrees =>
    match w.toClaims with
    | [] => .error .nothingInFlight
    | message :: rest =>
      .ok
        { w with
          claims := receiveTrees w.claims message
          toClaims := rest }
  | .deliverDeletions =>
    match w.toGame with
    | [] => .error .nothingInFlight
    | message :: rest =>
      .ok
        { w with
          credits := receiveDeletions w.credits message
          toGame := rest }
  | .claim call selector => w.onClaims (.claim call selector)
  | .setCollectionMinter nfts who collection selection
      isContract =>
      w.onClaims (.setCollectionMinter nfts who collection selection isContract)
  | .clearCollectionMinter collection =>
    w.onClaims (.clearCollectionMinter collection)
  | .sweepExpiredTrees => w.onClaims .sweepExpiredTrees
  | .sendTreeDeletions routed =>
    .ok
      { w with
        claims := w.claims.doSendTreeDeletions routed
        toGame :=
          if routed then
            w.toGame ++ [w.claims.deletionMessage]
          else w.toGame }
  | .claimsTime millis => do
    ensure (millis ≤ u64Max) ChainError.clock
    w.onClaims (.setTime (millis / 1000))

end World

/- The clocks differ by less than the grace of the roots. -/
def ClocksClose (w : World C) : Prop :=
  w.credits.now < w.claims.now + rootTtlGrace ∧ w.claims.now < w.credits.now + rootTtlGrace

end Individuality.CreditTrees
