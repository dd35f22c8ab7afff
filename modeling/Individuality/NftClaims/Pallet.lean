import Individuality.NftClaims.Types
import Individuality.Base.Runs

/-
  The operations of the nft-claims pallet: the delivery of trees, claims with their contract
  selections, the sweep of expired trees, and the deletions sent to the game chain.

  Main declaration: `ClaimsState.receiveCreditTrees`
-/

namespace Individuality.NftClaims

open CreditTrees

variable {T : Config}

def leafIsClaimed (bitmap : Bitmap) (leafIndex : Nat) : Bool :=
  bitmap.isSet leafIndex

def claimedLeafCount (bitmap : Bitmap) : Nat :=
  bitmap.ones

namespace ClaimsState

/- The leaves of a block that were claimed. -/
def leaves (s : ClaimsState T) (block : Nat) : Bitmap :=
  s.claimedLeaves.getD block []

--
-- Deliveries
--

/- Step over one accepted sequence, with the expected one and the runs reported as missing. -/
def noteSequence (state : Nat × List (Nat × Nat)) (sequence : Nat) : Nat × List (Nat × Nat) :=
  if sequence < state.1 then state
  else
    (saturatingAdd u64Max sequence 1,
      if sequence > state.1 then
        state.2 ++ [(state.1, sequence - 1)]
      else state.2)

def noteSequences (s : ClaimsState T) (accepted : List Nat) : ClaimsState T :=
  let noted := (accepted.insertionSort (· ≤ ·)).foldl noteSequence
      (s.nextExpectedSequence, s.missing)
  { s with
    nextExpectedSequence := noted.1
    missing := noted.2
    accepted := s.accepted ++ accepted }

def treeHasExpired (s : ClaimsState T) (treeTimestamp : Nat) : Bool :=
  decide (s.now ≥ expiryDeadline treeTimestamp T.treeTtl)

/- File the tree of a block under its timestamp. -/
def noteTreeExpiry (s : ClaimsState T) (block timestamp : Nat) : ClaimsState T :=
  { s with
    treeExpiries := s.treeExpiries.insert (timestamp, block) () }

def storeTree (s : ClaimsState T) (update : CreditTreeDelivery) : ClaimsState T :=
  ({ s with
    creditTrees := s.creditTrees.insert update.block update.tree }
    : ClaimsState T).noteTreeExpiry update.block update.tree.timestamp

/- One delivery of a batch, with the sequences accepted. -/
def receiveTree (state : ClaimsState T × List Nat)
    (update : CreditTreeDelivery) : ClaimsState T × List Nat :=
  if update.tree.leafCount = 0
      ∨ update.tree.root = zeroHash then state
  else if update.tree.leafCount > T.maxCreditsPerTree then state
  else if state.1.treeHasExpired update.tree.timestamp then
    state
  else
    match state.1.creditTrees.get update.block with
    | some existing =>
      if existing ≠ update.tree then state
      else (state.1, state.2 ++ update.sequence.toList)
    | none =>
      (state.1.storeTree update, state.2 ++ update.sequence.toList)

def receiveCreditTrees (s : ClaimsState T)
    (batch : BoundedVec CreditTreeDelivery T.maxTreesPerMessage) :
    ClaimsState T :=
  let received := batch.toList.foldl receiveTree (s, [])
  received.1.noteSequences received.2

--
-- Deletions
--

/- A block that does not fit into the queue is dropped. -/
def queueTreeDeletion (queued : BoundedVec Nat T.maxQueuedTreeDeletions)
    (block : Nat) : BoundedVec Nat T.maxQueuedTreeDeletions :=
  (queued.tryPush block).getD queued

def queueTreeDeletions (s : ClaimsState T) (blocks : List Nat) : ClaimsState T :=
  { s with
    pendingTreeDeletions := blocks.foldl queueTreeDeletion s.pendingTreeDeletions }

/- The blocks that the next message names. -/
def deletionMessage (s : ClaimsState T) : List Nat :=
  s.pendingTreeDeletions.toList.take T.maxTreeDeletionsPerMessage

def dropFront (queued : BoundedVec Nat T.maxQueuedTreeDeletions)
    (taken : Nat) : BoundedVec Nat T.maxQueuedTreeDeletions :=
  ⟨queued.toList.drop taken, Nat.le_trans (by simp) queued.length_le⟩

/- A message that the router refuses leaves the queue. -/
def doSendTreeDeletions (s : ClaimsState T) (delivered : Bool) : ClaimsState T :=
  if delivered then
    { s with
      pendingTreeDeletions := dropFront s.pendingTreeDeletions (min T.maxTreeDeletionsPerMessage
          s.pendingTreeDeletions.length) }
  else s

--
-- Claims
--

/- Widen a bitmap to the leaves and set the bit of one. -/
def withLeaf (maxCreditsPerTree : Nat) (bitmap : Bitmap) (leafIndex leafCount : Nat) : Bitmap :=
  let bytes := (leafCount + 7) / 8
  let widened : Bitmap :=
    if bitmap.length < bytes then
      (Bitmap.resize bitmap bytes).take ((maxCreditsPerTree + 7) / 8)
    else bitmap
  Bitmap.setBit widened leafIndex

def spendLeaf (s : ClaimsState T) (block leafIndex leafCount : Nat) :
    Except Error (ClaimsState T) :=
  if leafIndex ≥ leafCount
      ∨ leafCount > T.maxCreditsPerTree then
    .error .leafIndexOutOfBounds
  else
    .ok
      { s with
        claimedLeaves := s.claimedLeaves.insert block (withLeaf T.maxCreditsPerTree (s.leaves block)
            leafIndex leafCount) }

/- The part of a claim before the selection: its checks and the spending of the leaf. -/
def beginClaim (s : ClaimsState T) (call : Claim T) :
    Except Error (NftClaimCreditTree × ClaimsState T) := do
  let claimant ← okOr call.claimant Error.badOrigin
  let tree ← okOr (s.creditTrees.get call.block) Error.unknownCreditTree
  ensure (call.leafIndex < tree.leafCount) Error.leafIndexOutOfBounds
  let leaf := T.creditLeaf claimant call.credit
  ensure (leafIsClaimed (s.leaves call.block) call.leafIndex = false) Error.alreadyClaimed
  ensure (T.verifyProof tree.root call.proof.toList tree.leafCount call.leafIndex leaf = true)
    Error.invalidProof
  let spent ← s.spendLeaf call.block call.leafIndex tree.leafCount
  return (tree, spent)

/- The first four bytes of a credit, as a number. -/
def creditDraw (credit : Hash) : Nat :=
  ((credit.toList.take 4).reverse.foldl (fun n byte => 256 * n + byte.toNat) 0)

/-
  The item that a selection names, where a minter contract may change the state before it answers.
-/
def runSelection (s : ClaimsState T) (call : Claim T)
    (select : ClaimsState T → ClaimsState T × Option Nat) :
    ItemSelection → Except Error (Nat × ClaimsState T)
  | .random => do
    let bounds ← okOr (call.before.itemDrawBounds call.collection) Error.unknownCollection
    ensure (bounds.2 > 0 ∧ bounds.1 > 0) Error.noItems
    return (creditDraw call.credit % bounds.1, s)
  | .contract _ => do
    let item ← okOr (select s).2 Error.minterContract
    return (item, (select s).1)

def selectItem (s : ClaimsState T) (call : Claim T)
    (select : ClaimsState T → ClaimsState T × Option Nat) :
    Except Error (Nat × ClaimsState T) := do
  let registration ← okOr (s.collectionMinters.get call.collection) Error.collectionNotRegistered
  let owner ← okOr (call.before.collectionOwner call.collection) Error.unknownCollection
  ensure (owner = registration.owner) Error.collectionOwnerChanged
  let selected ← s.runSelection call select registration.selection
  ensure (call.after.itemExists call.collection selected.1 = true) Error.unknownItem
  return selected

def removeTree (s : ClaimsState T) (block : Nat) : ClaimsState T :=
  ({ s with
    creditTrees := s.creditTrees.remove block
    completed := s.completed ++ [block] }
    : ClaimsState T).queueTreeDeletions [block]

/-
  The part of a claim after the selection: the mint, and the
  removal of the tree once all leaves are claimed.
-/
def completeClaim (s : ClaimsState T) (call : Claim T) (tree : NftClaimCreditTree)
    (item : Nat) : Except Error (ClaimsState T) := do
  ensure (call.after.mintWithoutDeposit call.collection item call.mintTo = true) Error.mint
  let claimed := claimedLeafCount (s.leaves call.block)
  let mintedState : ClaimsState T :=
    { s with
      minted := s.minted ++ [(call.block, call.leafIndex)] }
  if claimed < tree.leafCount then
    return mintedState
  else
    return mintedState.removeTree call.block

def claim (s : ClaimsState T) (call : Claim T)
    (select : ClaimsState T → ClaimsState T × Option Nat) :
    Except Error (ClaimsState T) := do
  let begun ← s.beginClaim call
  let selected ← begun.2.selectItem call select
  selected.2.completeClaim call begun.1 selected.1

--
-- Minters
--

def validateSelection (isContract : Nat → Bool) :
    ItemSelection → Except Error Unit
  | .random => .ok ()
  | .contract address =>
    ensure (isContract address = true) Error.minterNotAContract

def setCollectionMinter (s : ClaimsState T) (nfts : Nfts T) (who : T.AccountId) (collection : Nat)
    (selection : Option ItemSelection) (isContract : Nat → Bool) :
    Except Error (ClaimsState T) := do
  let owner ← okOr (nfts.collectionOwner collection) Error.unknownCollection
  ensure (who = owner) Error.notCollectionOwner
  match selection with
  | some selection => do
    validateSelection isContract selection
    return {
      s with
      collectionMinters := s.collectionMinters.insert collection
          { owner := owner, selection := selection } }
  | none =>
    return {
      s with
      collectionMinters := s.collectionMinters.remove collection }

/- A deleted collection, or one with a new owner. -/
def clearCollectionMinter (s : ClaimsState T) (collection : Nat) : ClaimsState T :=
  { s with
    collectionMinters := s.collectionMinters.remove collection }

--
-- Sweeps
--

/- Retire one block, with the trees that expired. -/
def retireBlock (state : ClaimsState T × List Nat) (block : Nat) : ClaimsState T × List Nat :=
  ({ state.1 with
      claimedLeaves := state.1.claimedLeaves.remove block
      creditTrees := state.1.creditTrees.remove block },
    if state.1.creditTrees.containsKey block then
      state.2 ++ [block]
    else state.2)

def doSweepExpiredTrees (s : ClaimsState T) : ClaimsState T :=
  let drained := drainDueExpiries T.twox T.treeTtl s.now T.maxTreeDeletionsPerMessage s.treeExpiries
  let swept := drained.1.foldl retireBlock ({ s with treeExpiries := drained.2 }, [])
  swept.1.queueTreeDeletions swept.2

/- A dispatch that fails leaves no trace. -/
def settle (s : ClaimsState T) (result : Except Error (ClaimsState T)) : ClaimsState T :=
  match result with
  | .ok s' => s'
  | .error _ => s

end ClaimsState

--
-- Contract Selections
--

/- The state a contract leaves, with the item it returns. -/
def Reentry.run :
    Reentry T → ClaimsState T → ClaimsState T × Option Nat
  | .done item => fun s => (s, item)
  | .claim call selector rest => fun s =>
    rest.run (s.settle (s.claim call selector.run))
  | .setCollectionMinter nfts who collection selection
      isContract rest => fun s =>
      rest.run (s.settle (s.setCollectionMinter nfts who collection selection isContract))
  | .attempt inner rest => fun s =>
    match (inner.run s).2 with
    | some _ => rest.run (inner.run s).1
    | none => rest.run s

--
-- Steps
--

inductive Op (T : Config) where
  | receiveCreditTrees (batch : BoundedVec CreditTreeDelivery T.maxTreesPerMessage)
  | claim (call : Claim T) (selector : Reentry T)
  | setCollectionMinter (nfts : Nfts T) (who : T.AccountId) (collection : Nat)
      (selection : Option ItemSelection) (isContract : Nat → Bool)
  | clearCollectionMinter (collection : Nat)
  | sweepExpiredTrees
  | sendTreeDeletions (delivered : Bool)
  | setTime (now : Nat)

namespace ClaimsState

def perform (s : ClaimsState T) :
    Op T → Except Error (ClaimsState T)
  | .receiveCreditTrees batch =>
    .ok (s.receiveCreditTrees batch)
  | .claim call selector => s.claim call selector.run
  | .setCollectionMinter nfts who collection selection
      isContract =>
      s.setCollectionMinter nfts who collection selection isContract
  | .clearCollectionMinter collection =>
    .ok (s.clearCollectionMinter collection)
  | .sweepExpiredTrees => .ok s.doSweepExpiredTrees
  | .sendTreeDeletions delivered =>
    .ok (s.doSendTreeDeletions delivered)
  | .setTime now => do
    ensure (s.now ≤ now) Error.clockWentBack
    return { s with now := now }

/- The state after a dispatch, whether or not it fails. -/
def dispatch (s : ClaimsState T) (op : Op T) : ClaimsState T :=
  s.settle (s.perform op)

end ClaimsState

end Individuality.NftClaims
