import Individuality.NftCredits.Pallet

/-
  The awards of the nft-credits pallet: the buffers that wait for their trees, the chunks their
  awards are stored in, the tree built at the start of each block, and the sweep of the awards that
  expired.

  Main declaration: `AwardConfig`
-/

namespace Individuality.NftCredits

open CreditTrees

--
-- State
--

def awardsPerChunk : Nat := 32

def chunksPerTree : Nat := 64

def awardsPerTree : Nat := chunksPerTree * awardsPerChunk

def maxPendingCreditTrees : Nat := 8

/- The slots that the mask of awarded credits holds. -/
def awardedCreditsCapacity : Nat := 128

/-
  The parameters of the pallet, with the leaf of a credit, the hash of the trees, the Merkle root
  over leaves, and the hash that orders the keys of a map.
-/
structure AwardConfig where
  Claimant : Type
  [claimantEq : DecidableEq Claimant]
  creditLeaf : Claimant → Hash → Hash
  blake2 : List (BitVec 8) → Hash
  merkleRoot : List Hash → Hash
  twox : Nat → Nat
  maxQueuedCreditTrees : Nat
  maxCreditTreesPerMessage : Nat
  maxTreeDeletionsPerMessage : Nat
  maxRootsPerSweep : Nat
  replayCooldownSeconds : Nat
  claimsChainTreeTtl : Nat
  maxCreditBlocksPerClaimant : Nat
  awardRetentionTtl : Nat
  maxAwardBlocksPerSweep : Nat

instance (C : AwardConfig) : DecidableEq C.Claimant :=
  C.claimantEq

structure NftClaimCreditAward (C : AwardConfig) where
  claimant : C.Claimant
  credit : Hash

/- The leaf that an award contributes. -/
def NftClaimCreditAward.leaf {C : AwardConfig} (award : NftClaimCreditAward C) : Hash :=
  C.creditLeaf award.claimant award.credit

def AwardConfig.config (C : AwardConfig) : Config where
  Award := NftClaimCreditAward C
  creditLeaf := NftClaimCreditAward.leaf
  merkleRoot := C.merkleRoot
  twox := C.twox
  awardsPerTree := awardsPerTree
  maxQueuedCreditTrees := C.maxQueuedCreditTrees
  maxCreditTreesPerMessage := C.maxCreditTreesPerMessage
  maxTreeDeletionsPerMessage := C.maxTreeDeletionsPerMessage
  maxRootsPerSweep := C.maxRootsPerSweep
  replayCooldownSeconds := C.replayCooldownSeconds
  claimsChainTreeTtl := C.claimsChainTreeTtl

/- A buffer of awards that waits for its tree. -/
structure PendingBuffer where
  gameIndex : Nat
  timestamp : Nat
  awards : Nat
  deriving DecidableEq, Repr

/- An award with the place it was announced to go to. -/
structure Announcement (C : AwardConfig) where
  block : Nat
  leafIndex : Nat
  gameIndex : Nat
  awardTime : Nat
  award : NftClaimCreditAward C

/- The branches that are not meant to be taken. -/
inductive Defensive where
  | slotBeyondMask
  | noBuffer
  | noRoomInChunk
  | awardsMissing
  | emptyBuffer
  | chunksLeft
  deriving DecidableEq, Repr

/- An award that is asked for, with the slot it takes. -/
structure Grant (C : AwardConfig) where
  award : NftClaimCreditAward C
  creditSlot : Nat

/-
  The storage, with the chunks of awards as they were when the current block started.  The last
  fields only record what happened: the awards that were announced, and the defensive branches that
  were taken.
-/
structure AwardingState (C : AwardConfig) where
  credits : CreditsState C.config
  creditBuffers : StorageMap Nat PendingBuffer
  creditBufferCursor : Nat
  creditAwards : DoubleMap Nat Nat
      (BoundedVec (NftClaimCreditAward C) awardsPerChunk)
  startedAwards : DoubleMap Nat Nat
      (BoundedVec (NftClaimCreditAward C) awardsPerChunk)
  awardedCredits : DoubleMap Nat C.Claimant (BitVec awardedCreditsCapacity)
  creditBlocks : StorageMap C.Claimant
      (BoundedVec Nat C.maxCreditBlocksPerClaimant)
  awardExpiries : Expiries
  announced : List (Announcement C)
  defensives : List Defensive

def AwardingState.genesis (C : AwardConfig) : AwardingState C :=
  { credits := .genesis C.config
    creditBuffers := .empty
    creditBufferCursor := 0
    creditAwards := .empty
    startedAwards := .empty
    awardedCredits := .empty
    creditBlocks := .empty
    awardExpiries := .empty
    announced := []
    defensives := [] }

namespace AwardingState

variable {C : AwardConfig}

def defensive (s : AwardingState C) (branch : Defensive) : AwardingState C :=
  { s with defensives := s.defensives ++ [branch] }

/- A chunk of the awards of a block. -/
def chunk (s : AwardingState C) (block index : Nat) :
    BoundedVec (NftClaimCreditAward C) awardsPerChunk :=
  StorageMap.getD s.creditAwards (block, index) .empty

--
-- Buffers
--

/-
  The buffer that an award goes into, as it stands before the award.  The buffer under the cursor is
  left when it is full or belongs to another game.
-/
def creditAwardBuffer (s : AwardingState C) (now cursor gameIndex : Nat) :
    Option (Nat × PendingBuffer) :=
  let fresh : PendingBuffer := { gameIndex := gameIndex, timestamp := 0, awards := 0 }
  let buffer := max cursor now
  let chosen :=
    match s.creditBuffers.get buffer with
    | some pending =>
      if pending.awards < awardsPerTree
          ∧ pending.gameIndex = gameIndex then
        (buffer, pending)
      else (saturatingAdd u32Max buffer 1, fresh)
    | none => (buffer, fresh)
  let limit := saturatingAdd u32Max now maxPendingCreditTrees
  if chosen.1 < limit then some chosen else none

def remainingCreditCapacity (s : AwardingState C) (gameIndex : Nat) : Nat :=
  let now := s.credits.number
  match
    s.creditAwardBuffer now s.creditBufferCursor gameIndex
  with
  | none => 0
  | some (buffer, pending) =>
    let opened := saturatingAdd u32Max (buffer - now) 1
    let further := maxPendingCreditTrees - opened
    saturatingAdd u32Max (awardsPerTree - pending.awards)
      (saturatingMul u32Max further awardsPerTree)

--
-- Awards
--

def slotIsAwarded (s : AwardingState C) (gameIndex : Nat) (grant : Grant C) : Bool :=
  (StorageMap.getD s.awardedCredits (gameIndex, grant.award.claimant) 0).getLsbD grant.creditSlot

def markSlot (s : AwardingState C) (gameIndex : Nat) (grant : Grant C) : AwardingState C :=
  let key := (gameIndex, grant.award.claimant)
  { s with
    awardedCredits := s.awardedCredits.insert key (StorageMap.getD s.awardedCredits key 0
        ||| BitVec.twoPow _ grant.creditSlot) }

/- The blocks of a claimant, with one more at the end. -/
def noteBlock (blocks : BoundedVec Nat C.maxCreditBlocksPerClaimant) (block : Nat) :
    BoundedVec Nat C.maxCreditBlocksPerClaimant :=
  if blocks.toList.getLast? = some block then blocks
  else
    match blocks.tryPush block with
    | some noted => noted
    | none =>
      let shifted := blocks.eraseIdx 0
      (shifted.tryPush block).getD shifted

def noteCreditBlock (s : AwardingState C) (claimant : C.Claimant) (block : Nat) : AwardingState C :=
  { s with
    creditBlocks := s.creditBlocks.insert claimant (noteBlock (s.creditBlocks.getD claimant .empty)
        block) }

/- Store an award behind the last one of its buffer. -/
def storeAward (s : AwardingState C) (block : Nat) (buffer : PendingBuffer)
    (chunk : BoundedVec (NftClaimCreditAward C) awardsPerChunk)
    (awardTime : Nat) : AwardingState C :=
  { s with
    creditAwards := s.creditAwards.insert (block, buffer.awards / awardsPerChunk) chunk
    creditBuffers := s.creditBuffers.insert block
        { buffer with
          timestamp :=
            if buffer.awards = 0 then awardTime
            else buffer.timestamp
          awards := saturatingAdd u32Max buffer.awards 1 }
    creditBufferCursor := block }

def announce (s : AwardingState C) (announcement : Announcement C) : AwardingState C :=
  { s with announced := s.announced ++ [announcement] }

/- An award behind the others of its buffer, announced. -/
def recordAward (s : AwardingState C) (gameIndex : Nat) (grant : Grant C)
    (awardTime block : Nat) (buffer : PendingBuffer)
    (chunk : BoundedVec (NftClaimCreditAward C) awardsPerChunk) :
    AwardingState C :=
  let stored := s.storeAward block buffer chunk awardTime
  let noted := (stored.markSlot gameIndex grant).noteCreditBlock grant.award.claimant block
  noted.announce
    { block := block
      leafIndex := buffer.awards
      gameIndex := gameIndex
      awardTime := awardTime
      award := grant.award }

/- The state, and the number of awards that were recorded. -/
def awardNftClaimCredit (s : AwardingState C) (gameIndex : Nat) (grant : Grant C)
    (awardTime : Nat) : AwardingState C × Nat :=
  if ¬ grant.creditSlot < awardedCreditsCapacity then
    (s.defensive .slotBeyondMask, 0)
  else if s.slotIsAwarded gameIndex grant then (s, 0)
  else
    match
      s.creditAwardBuffer s.credits.number s.creditBufferCursor gameIndex
    with
    | none => (s.defensive .noBuffer, 0)
    | some (block, buffer) =>
      match
        (s.chunk block (buffer.awards / awardsPerChunk) ).tryPush grant.award
      with
      | none => (s.defensive .noRoomInChunk, 0)
      | some chunk =>
        (s.recordAward gameIndex grant awardTime block buffer chunk, 1)

/- The awards of one caller, with how many were recorded. -/
def awardCredits (s : AwardingState C) (gameIndex : Nat) (grants : List (Grant C))
    (awardTime : Nat) : AwardingState C × Nat :=
  grants.foldl (fun state grant =>
      let next := state.1.awardNftClaimCredit gameIndex grant awardTime
      (next.1, state.2 + next.2))
    (s, 0)

/- The awards a game gives up, some of them or one player's. -/
def clearGameCredits (s : AwardingState C) (gameIndex limit : Nat)
    (found : DoubleMap.Backend C.Claimant) : AwardingState C :=
  { s with
    awardedCredits := (s.awardedCredits.clearPrefix gameIndex limit found).1 }

def forgetPlayerCredits (s : AwardingState C) (gameIndex : Nat)
    (player : C.Claimant) : AwardingState C :=
  { s with
    awardedCredits := s.awardedCredits.remove (gameIndex, player) }

--
-- Trees
--

/- The awards of the tree of a block, in leaf order. -/
def blockAwards (s : AwardingState C) (block leafCount : Nat) : List (NftClaimCreditAward C) :=
  (List.range ((leafCount + awardsPerChunk - 1) / awardsPerChunk)
    ).flatMap fun index => (s.chunk block index).toList

def nftClaimCreditLeaves (awards : List (NftClaimCreditAward C)) : List Hash :=
  awards.map NftClaimCreditAward.leaf

/- The commitment to some awards of a buffer. -/
def awardTree (gameIndex timestamp : Nat) (awards : List (NftClaimCreditAward C)) :
    NftClaimCreditTree :=
  { gameIndex := gameIndex
    root := C.merkleRoot (nftClaimCreditLeaves awards)
    leafCount := awards.length
    timestamp := timestamp }

def noteAwardExpiry (s : AwardingState C) (block timestamp : Nat) : AwardingState C :=
  { s with
    awardExpiries := s.awardExpiries.insert (timestamp, block) () }

def recordTree (s : AwardingState C) (block : Nat) (tree : NftClaimCreditTree) : AwardingState C :=
  { s with
    credits := (s.credits.recordRoot block tree ).queueCreditTreeDelivery block }

/- The buffer is taken, and its tree recorded. -/
def buildTree (s : AwardingState C) (block : Nat) (buffer : PendingBuffer) : AwardingState C :=
  let taken : AwardingState C := { s with creditBuffers := s.creditBuffers.remove block }
  let awards := taken.blockAwards block buffer.awards
  let checked :=
    if awards.length ≠ buffer.awards then
      taken.defensive .awardsMissing
    else taken
  if awards.length = 0 then checked.defensive .emptyBuffer
  else
    (checked.recordTree block (awardTree buffer.gameIndex buffer.timestamp awards)
      ).noteAwardExpiry block buffer.timestamp

def buildCreditTree (s : AwardingState C) (now : Nat) : AwardingState C :=
  match s.creditBuffers.get (now - 1) with
  | none => s
  | some buffer => s.buildTree (now - 1) buffer

def startBlock (s : AwardingState C) : AwardingState C :=
  { s with
    credits := { s.credits with number := s.credits.number + 1 }
    startedAwards := s.creditAwards }

def onInitialize (s : AwardingState C) :
    Except Error (AwardingState C) := do
  ensure (s.credits.number < u32Max) Error.lastBlock
  return s.startBlock.buildCreditTree (s.credits.number + 1)

--
-- Sweeps
--

/-
  What a removal of the chunks of a block finds: those that were written in the current block, and
  those that were there when it started, in the order of the hash of their index.
-/
def foundChunks (s : AwardingState C) (block : Nat) : DoubleMap.Backend Nat :=
  { overlay :=
      ((s.creditAwards.entriesAt block).map Prod.fst).filter fun index =>
          (s.chunk block index).length ≠
            (StorageMap.getD s.startedAwards (block, index) .empty).length
    backend := ((s.startedAwards.entriesAt block).map Prod.fst
        ).insertionSort fun a b => C.twox a ≤ C.twox b }

def clearAwards (s : AwardingState C) (block : Nat) : AwardingState C :=
  let cleared := s.creditAwards.clearPrefix block chunksPerTree (s.foundChunks block)
  let swept : AwardingState C := { s with creditAwards := cleared.1 }
  if cleared.2.2 = false then swept.defensive .chunksLeft
  else swept

def doSweepExpiredAwards (s : AwardingState C) :
    AwardingState C :=
  let drained := drainDueExpiries C.twox C.awardRetentionTtl s.credits.now
      C.maxAwardBlocksPerSweep s.awardExpiries
  drained.1.foldl clearAwards { s with awardExpiries := drained.2 }

end AwardingState

end Individuality.NftCredits
