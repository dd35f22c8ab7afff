import Individuality.CreditTrees.Expiry

/-
  The roots of the nft-credits pallet: their recording, their
  delivery to the claims chain, and their removal.

  Main declaration: `Config`
-/

namespace Individuality.NftCredits

open CreditTrees

--
-- State
--

/-
  The parameters of the pallet, with the hash of an award, the Merkle root over hashes, and the hash
  that orders the blocks filed under one timestamp.
-/
structure Config where
  Award : Type
  creditLeaf : Award → Hash
  merkleRoot : List Hash → Hash
  twox : Nat → Nat
  awardsPerTree : Nat
  maxQueuedCreditTrees : Nat
  maxCreditTreesPerMessage : Nat
  maxTreeDeletionsPerMessage : Nat
  maxRootsPerSweep : Nat
  replayCooldownSeconds : Nat
  claimsChainTreeTtl : Nat

inductive Error where
  | noBlocksToReplay
  | unsortedReplayBlocks
  | exceedsClaimsChannelCapacity
  | noCreditTreeForBlock
  | replayCooldownActive
  | creditTreeXcmFailed
  | lastBlock
  deriving DecidableEq, Repr

/- The awards buffered for one block. -/
structure CreditBuffer (C : Config) where
  gameIndex : Nat
  timestamp : Nat
  awards : BoundedVec C.Award C.awardsPerTree

/-
  The storage, with the number of the current block and the clock the pallet reads.  The last fields
  only record what happened: every root ever recorded, and the blocks whose delivery was dropped.
-/
structure CreditsState (C : Config) where
  number : Nat
  now : Nat
  creditRoots : StorageMap Nat NftClaimCreditTree
  deliveryQueue : BoundedVec (Nat × Nat) C.maxQueuedCreditTrees
  lastReplayTime : Option Nat
  rootExpiries : Expiries
  nextCreditTreeSequence : Nat
  recorded : StorageMap Nat NftClaimCreditTree
  dropped : List Nat

def CreditsState.genesis (C : Config) : CreditsState C :=
  { number := 0
    now := 0
    creditRoots := .empty
    deliveryQueue := .empty
    lastReplayTime := none
    rootExpiries := .empty
    nextCreditTreeSequence := 0
    recorded := .empty
    dropped := [] }

/- How long the game chain keeps a root past the deadline. -/
def rootTtlGrace : Nat :=
  30 * 24 * 60 * 60

def rootTtl (C : Config) : Nat :=
  saturatingAdd u64Max C.claimsChainTreeTtl rootTtlGrace

namespace CreditsState

variable {C : Config}

--
-- Recording
--

def queueCreditTreeDelivery (s : CreditsState C) (block : Nat) : CreditsState C :=
  match
    s.deliveryQueue.tryPush (s.nextCreditTreeSequence, block)
  with
  | none => { s with dropped := s.dropped ++ [block] }
  | some queued =>
    { s with
      deliveryQueue := queued
      nextCreditTreeSequence :=
        saturatingAdd u64Max s.nextCreditTreeSequence 1 }

def recordRoot (s : CreditsState C) (block : Nat) (tree : NftClaimCreditTree) : CreditsState C :=
  { s with
    creditRoots := s.creditRoots.insert block tree
    rootExpiries := s.rootExpiries.insert (tree.timestamp, block) ()
    recorded := s.recorded.insert block tree }

/- The commitment to the awards of a buffer. -/
def creditTree (buffer : CreditBuffer C) : NftClaimCreditTree :=
  { gameIndex := buffer.gameIndex
    root := C.merkleRoot (buffer.awards.toList.map C.creditLeaf)
    leafCount := buffer.awards.length
    timestamp := buffer.timestamp }

def buildCreditTree (s : CreditsState C) (block : Nat) : Option (CreditBuffer C) → CreditsState C
  | none => s
  | some buffer =>
    if buffer.awards.length = 0 then s
    else
      (s.recordRoot block (creditTree buffer) ).queueCreditTreeDelivery block

/- A new block builds the tree of the block before it. -/
def onInitialize (s : CreditsState C) (buffer : Option (CreditBuffer C)) :
    Except Error (CreditsState C) := do
  ensure (s.number < u32Max) Error.lastBlock
  let started : CreditsState C := { s with number := s.number + 1 }
  return started.buildCreditTree s.number buffer

--
-- Deliveries
--

def resolveCreditTrees (s : CreditsState C) (blocks : List (Option Nat × Nat)) :
    List CreditTreeDelivery :=
  blocks.filterMap fun entry =>
    (s.creditRoots.get entry.2).map fun tree =>
      { sequence := entry.1, block := entry.2, tree := tree }

/- The trees that fit one message, for a channel with room for some number of trees. -/
def maxTreesPerMessage (C : Config) (room : Option Nat) : Option Nat :=
  match room with
  | none => none
  | some trees =>
    let count := min trees C.maxCreditTreesPerMessage
    if count > 0 then some count else none

def dropFront (queued : BoundedVec (Nat × Nat) C.maxQueuedCreditTrees) (taken : Nat) :
    BoundedVec (Nat × Nat) C.maxQueuedCreditTrees :=
  ⟨queued.toList.drop taken, Nat.le_trans (by simp) queued.length_le⟩

/- The deliveries of the first entries of the queue. -/
def nextUpdates (s : CreditsState C) (taken : Nat) : List CreditTreeDelivery :=
  s.resolveCreditTrees
    ((s.deliveryQueue.toList.take taken).map fun entry => (some entry.1, entry.2))

/- The state, and the message that was sent, if any. -/
def doSendCreditTrees (s : CreditsState C) (room : Option Nat) (routed : Bool) :
    CreditsState C × Option (List CreditTreeDelivery) :=
  match maxTreesPerMessage C room with
  | none => (s, none)
  | some capacity =>
    let taken := min capacity s.deliveryQueue.length
    let updates := s.nextUpdates taken
    if updates.length > 0 ∧ routed = false then (s, none)
    else
      ({ s with
          deliveryQueue := dropFront s.deliveryQueue taken },
        if updates.length > 0 then some updates else none)

def cooldownOver (s : CreditsState C) : Bool :=
  match s.lastReplayTime with
  | none => true
  | some last =>
    decide (s.now - last ≥ C.replayCooldownSeconds)

def doReplayCreditTrees (s : CreditsState C) (blocks : BoundedVec Nat C.maxCreditTreesPerMessage)
    (room : Option Nat) (routed : Bool) :
    Except Error (CreditsState C × List CreditTreeDelivery) := do
  ensure (blocks.isEmpty = false) Error.noBlocksToReplay
  ensure (((blocks.toList.zip blocks.toList.tail).all fun w => decide (w.1 < w.2)) = true)
    Error.unsortedReplayBlocks
  let capacity ← okOr (maxTreesPerMessage C room) Error.exceedsClaimsChannelCapacity
  ensure (blocks.length ≤ capacity) Error.exceedsClaimsChannelCapacity
  let updates := s.resolveCreditTrees (blocks.toList.map fun block => (none, block))
  ensure (updates.isEmpty = false) Error.noCreditTreeForBlock
  ensure (s.cooldownOver = true) Error.replayCooldownActive
  ensure (routed = true) Error.creditTreeXcmFailed
  return ({ s with lastReplayTime := some s.now }, updates)

--
-- Removal
--

def removeCreditRoot (s : CreditsState C) (block : Nat) : CreditsState C :=
  match s.creditRoots.get block with
  | none => s
  | some tree =>
    { s with
      creditRoots := s.creditRoots.remove block
      rootExpiries := s.rootExpiries.remove (tree.timestamp, block) }

def doReceiveTreeDeletions (s : CreditsState C)
    (blocks : BoundedVec Nat C.maxTreeDeletionsPerMessage) :
    CreditsState C :=
  blocks.toList.foldl removeCreditRoot s

def doSweepExpiredRoots (s : CreditsState C) : CreditsState C :=
  let drained := drainDueExpiries C.twox (rootTtl C) s.now C.maxRootsPerSweep s.rootExpiries
  { s with
    rootExpiries := drained.2
    creditRoots := drained.1.foldl (·.remove ·) s.creditRoots }

end CreditsState

end Individuality.NftCredits
