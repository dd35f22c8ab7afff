import Individuality.Base.Bitmap
import Individuality.CreditTrees.Expiry

/-
  The storage of the nft-claims pallet: the credit trees that are held, the leaves that were
  claimed, and the deletions that wait to be sent.

  Main declaration: `Config`
-/

namespace Individuality.NftClaims

open CreditTrees

/-
  The parameters of the pallet: the hash of an award, the check of a Merkle proof, and the hash that
  orders the blocks filed under one timestamp.
-/
structure Config where
  AccountId : Type
  [accountEq : DecidableEq AccountId]
  Claimant : Type
  creditLeaf : Claimant → Hash → Hash
  verifyProof : Hash → List Hash → Nat → Nat → Hash → Bool
  twox : Nat → Nat
  treeTtl : Nat
  maxTreesPerMessage : Nat
  maxProofNodes : Nat
  maxCreditsPerTree : Nat
  maxTreeDeletionsPerMessage : Nat
  maxQueuedTreeDeletions : Nat

instance (T : Config) : DecidableEq T.AccountId :=
  T.accountEq

inductive Error where
  | badOrigin
  | unknownCreditTree
  | leafIndexOutOfBounds
  | alreadyClaimed
  | invalidProof
  | unknownCollection
  | notCollectionOwner
  | collectionNotRegistered
  | collectionOwnerChanged
  | noItems
  | minterContract
  | minterNotAContract
  | unknownItem
  | mint
  | clockWentBack
  deriving DecidableEq, Repr

--
-- Collections
--

/- A contract is named by its address. -/
inductive ItemSelection where
  | random
  | contract (address : Nat)
  deriving DecidableEq, Repr

structure CollectionMinter (T : Config) where
  owner : T.AccountId
  selection : ItemSelection

/- What the pallet of the NFTs answers. -/
structure Nfts (T : Config) where
  collectionOwner : Nat → Option T.AccountId
  itemDrawBounds : Nat → Option (Nat × Nat)
  itemExists : Nat → Nat → Bool
  mintWithoutDeposit : Nat → Nat → T.AccountId → Bool

--
-- State
--

/-
  The storage, with the clock the pallet reads.  The last fields only record what happened: the
  leaves that were minted, the blocks whose trees a claim removed, the accepted sequences, and the
  runs of sequences reported as missing.
-/
structure ClaimsState (T : Config) where
  now : Nat
  creditTrees : StorageMap Nat NftClaimCreditTree
  nextExpectedSequence : Nat
  claimedLeaves : StorageMap Nat Bitmap
  collectionMinters : StorageMap Nat (CollectionMinter T)
  treeExpiries : Expiries
  pendingTreeDeletions : BoundedVec Nat T.maxQueuedTreeDeletions
  minted : List (Nat × Nat)
  completed : List Nat
  accepted : List Nat
  missing : List (Nat × Nat)

def ClaimsState.genesis (T : Config) : ClaimsState T :=
  { now := 0
    creditTrees := .empty
    nextExpectedSequence := 0
    claimedLeaves := .empty
    collectionMinters := .empty
    treeExpiries := .empty
    pendingTreeDeletions := .empty
    minted := []
    completed := []
    accepted := []
    missing := [] }

--
-- Claims
--

/-
  The arguments of a claim, with the identity its origin was
  resolved to and the NFTs before and after the selection.
-/
structure Claim (T : Config) where
  claimant : Option T.Claimant
  block : Nat
  credit : Hash
  leafIndex : Nat
  proof : BoundedVec Hash T.maxProofNodes
  collection : Nat
  mintTo : T.AccountId
  before : Nfts T
  after : Nfts T

/-
  What a minter contract does before it returns an item, or fails: it claims, it registers a minter,
  or it makes a call of its own that is undone when it fails.
-/
inductive Reentry (T : Config) where
  | done (item : Option Nat)
  | claim
      (call : Claim T)
      (selector : Reentry T)
      (rest : Reentry T)
  | setCollectionMinter (nfts : Nfts T) (who : T.AccountId) (collection : Nat)
      (selection : Option ItemSelection) (isContract : Nat → Bool) (rest : Reentry T)
  | attempt
      (inner : Reentry T)
      (rest : Reentry T)

end Individuality.NftClaims
