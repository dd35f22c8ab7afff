import Individuality.MembersSubscriber.Types
import Individuality.Base.Paged
import Mathlib.Data.Finset.Card
import Mathlib.Data.List.Sort

/-
  The members-subscriber pallet: it stores the ring roots that the notifier sends, looks for gaps
  among them, and requests the missing ones again.

  Main declaration: `SubscriberState.storeRingRoots`
-/

namespace Individuality.MembersSubscriber

open NotifierSubscriber

variable {R : Type} (T : Config)

--
-- Storing Ring Roots
--

/- The storage that the loop of `store_ring_roots` changes. -/
structure Storing (R : Type) where
  ringRoots : RingRootMap R
  state : RingCollectionState

/- The record of a root that came with a batch. -/
def recordOf (batch : RingRootUpdatesBatch R) (revision : RevisionIndex)
    (root : R) : RingCommitmentRecord R where
  root := root
  revision := revision
  sourceTime := batch.sourceTime
  sourceSequence := batch.sequence

/- Push a record, evicting the oldest when there is no room. -/
def pushRecord (roots : List (RingCommitmentRecord R)) (record : RingCommitmentRecord R) :
    List (RingCommitmentRecord R) :=
  if T.maxRecentRootsPerRing ≤ roots.length then
    roots.tail ++ [record]
  else
    roots ++ [record]

/- Track a deleted index while there is room for it. -/
def trackDeleted (deletedIndices : Finset RingIndex) (ringIndex : RingIndex) : Finset RingIndex :=
  if deletedIndices.card < T.maxDeletedRingsPerCollection
      ∨ ringIndex ∈ deletedIndices then
    insert ringIndex deletedIndices
  else
    deletedIndices

/- The effect of any update on what is known of its index. -/
def RingCollectionState.noteUpdate (state : RingCollectionState)
    (ringIndex : RingIndex) : RingCollectionState :=
  { state with
    nextRingIndex :=
      if state.nextRingIndex ≤ ringIndex then
        saturatingAdd u32Max ringIndex 1
      else state.nextRingIndex
    missingIndices := state.missingIndices.remove ringIndex }

/- One pass of the loop of `store_ring_roots`. -/
def storeUpdate (batch : RingRootUpdatesBatch R) (generation : Generation) (w : Storing R)
    (update : RingRootUpdate R) : Storing R :=
  let state := w.state.noteUpdate update.ringIndex
  let key := (generation, batch.identifier, update.ringIndex)
  match update.op with
  | .built revision root =>
    let roots := w.ringRoots.getD key []
    let state := { state with
      ringCount :=
        if roots.isEmpty then
          saturatingAdd u32Max state.ringCount 1
        else state.ringCount
      deletedIndices := state.deletedIndices.erase update.ringIndex }
    if roots.any fun r => r.revision = revision then
      { w with state := state }
    else
      { ringRoots :=
          w.ringRoots.insert key (pushRecord T roots (recordOf batch revision root))
        state := state }
  | .deleted =>
    { ringRoots := w.ringRoots.remove key
      state := { state with
        ringCount :=
          if w.ringRoots.containsKey key then
            state.ringCount - 1
          else state.ringCount
        deletedIndices := trackDeleted T state.deletedIndices update.ringIndex } }

namespace SubscriberState

def storeRingRoots (s : SubscriberState R) (now : Nat)
    (batch : RingRootUpdatesBatch R) : SubscriberState R :=
  let state := s.collectionState batch.identifier
  let w := batch.updates.foldl (storeUpdate T batch s.currentGeneration)
      { ringRoots := s.ringRoots
        state := { state with
          nextRingIndex :=
            max state.nextRingIndex batch.nextRingIndex } }
  { s with
    ringRoots := w.ringRoots
    ringCollectionStates := s.ringCollectionStates.insert batch.identifier
        { w.state with lastBatchReceivedTime := now } }

def recordBatchProcessed (s : SubscriberState R) (sequence : SequenceNumber) : SubscriberState R :=
  { s with
    processingState :=
      { s.processingState with
        lastProcessedSequence := sequence } }

/-
  Retire the live generation and drop what is known of the collections.  No more collections are
  stored than the two bounded removals take away.
-/
def clearAllRingData (s : SubscriberState R) : SubscriberState R :=
  { s with
    currentGeneration := saturatingAdd u32Max s.currentGeneration 1
    queuedRingPurge := some (s.queuedRingPurge.getD ⟨s.currentGeneration, 0⟩)
    ringCollectionStates := .empty
    ringCollectionExponents := .empty
    processingState := {} }

--
-- Calls of the Notifier
--

/-
  A page of an initialization with a higher sequence than the
  one the subscription is active with starts it anew.
-/
def prepareInitialization (s : SubscriberState R) (sequence : SequenceNumber) :
    Except Failure (SubscriberState R) :=
  match s.subscription with
  | .active initializedAtSequence =>
    if sequence < initializedAtSequence then
      .error Error.subscriptionAlreadyActive
    else if initializedAtSequence < sequence then
      .ok s.clearAllRingData
    else
      .ok s
  | _ => .ok s

def initializeRingRoots (s : SubscriberState R) (now : Nat) (ringExponent : RingExponent)
    (roots : RingRootUpdatesBatch R) :
    Except Failure (SubscriberState R) := do
  let s ← s.prepareInitialization roots.sequence
  ensure (s.ringCollectionExponents.containsKey roots.identifier = true
      ∨ s.ringCollectionExponents.keys.length < T.maxCollections)
    Error.tooManyCollections
  let s := (s.storeRingRoots T now roots).recordBatchProcessed roots.sequence
  return { s with
    subscription := .active roots.sequence
    ringCollectionExponents := s.ringCollectionExponents.insert roots.identifier ringExponent }

def ensureSubscriptionActive (s : SubscriberState R) : Except Failure Unit :=
  match s.subscription with
  | .active _ => .ok ()
  | .inactive => .error Error.subscriptionInactive
  | .terminated => .error Error.subscriptionTerminated

/-
  Batches older than the last one are ignored, and so are
  those of a collection that was not initialized.
-/
def processRingUpdates (s : SubscriberState R) (now : Nat) (batch : RingRootUpdatesBatch R) :
    Except Failure (SubscriberState R) := do
  s.ensureSubscriptionActive
  if batch.sequence
      < s.processingState.lastProcessedSequence then
    return s
  else if s.ringCollectionExponents.containsKey
      batch.identifier = false then
    return s
  else
    return (s.storeRingRoots T now batch).recordBatchProcessed batch.sequence

/- Only a termination that is local informs the notifier. -/
def terminateSubscription (s : SubscriberState R) (fromNotifier : Bool) :
    Except Failure (SubscriberState R × List NotifierCall) :=
  match s.subscription with
  | .inactive => .error Error.subscriptionInactive
  | .terminated => .ok (s, [])
  | .active _ =>
    .ok ({ s.clearAllRingData with subscription := .terminated },
        if fromNotifier then [] else [.unsubscribe])

--
-- The Gap Scan
--

/-
  The loop of the gap scan over `n` indices from `idx` on.  It
  stops at an index that can not be recorded.
-/
def scanFrom (present : RingIndex → Bool) :
    Nat → RingIndex → RingCollectionState → RingCollectionState
  | 0, _, state => state
  | n + 1, idx, state =>
    let next := saturatingAdd u32Max idx 1
    if present idx = true ∨ idx ∈ state.deletedIndices then
      scanFrom present n (idx + 1) { state with nextScanIndex := next }
    else if state.missingIndices.keys.length
          < T.maxMissingRootsPerCollection
        ∨ state.missingIndices.containsKey idx = true then
      scanFrom present n (idx + 1)
        { state with
          missingIndices := state.missingIndices.insert idx 0
          nextScanIndex := next }
    else
      state

/- As many rings are stored or deleted as there are indices. -/
def accountedFor (state : RingCollectionState) : Bool :=
  state.nextRingIndex ≤ saturatingAdd u32Max state.ringCount state.deletedIndices.card

def detectMissingRingsInCollection (s : SubscriberState R)
    (identifier : Identifier) : SubscriberState R :=
  let state := s.collectionState identifier
  let state' :=
    if accountedFor state then
      { state with
        missingIndices := .empty
        nextScanIndex := state.nextRingIndex }
    else
      let scanEnd := min state.nextRingIndex
          (saturatingAdd u32Max state.nextScanIndex T.maxGapScanPerCall)
      scanFrom T (fun idx =>
          s.ringRoots.containsKey (s.currentGeneration, identifier, idx))
        (scanEnd - state.nextScanIndex) state.nextScanIndex
        state
  { s with
    ringCollectionStates := s.ringCollectionStates.insert identifier state' }

def authorizeDetectMissingRings (s : SubscriberState R) (now : Nat)
    (identifier : Identifier) : Except Failure Unit := do
  let state := s.collectionState identifier
  ensure (s.subscription.isActive = true) Failure.call
  ensure (T.gapScanCooldownSeconds ≤ now - state.lastBatchReceivedTime) Failure.future
  ensure (state.nextScanIndex < state.nextRingIndex) (AuthorizeInvalidity.nothingToScan : Failure)
  ensure (state.deletedIndices.card < T.maxDeletedRingsPerCollection)
    (AuthorizeInvalidity.deletedIndicesAtCapacity : Failure)
  ensure (state.missingIndices.keys.length < T.maxMissingRootsPerCollection)
    (AuthorizeInvalidity.missingIndicesAtCapacity : Failure)

def detectMissingRings (s : SubscriberState R) (now : Nat) (identifier : Identifier) :
    Except Failure (SubscriberState R) := do
  s.authorizeDetectMissingRings T now identifier
  return s.detectMissingRingsInCollection T identifier

--
-- Replay Requests
--

/- The ascending list of the indices in a list. -/
def indicesSet (indices : List RingIndex) : List RingIndex :=
  indices.foldr (fun idx set =>
      if idx ∈ set then set else set.orderedInsert (· ≤ ·) idx)
    []

/-
  Count an attempt to have an index replayed.  The index is
  abandoned at the threshold, else it is requested.
-/
def attemptReplay (w : StorageMap RingIndex Nat × List RingIndex) (idx : RingIndex) :
    StorageMap RingIndex Nat × List RingIndex :=
  match w.1.get idx with
  | none => w
  | some attempts =>
    let attempts := saturatingAdd u32Max attempts 1
    if T.replayAbandonThreshold ≤ attempts then
      (w.1.remove idx, w.2)
    else
      (w.1.insert idx attempts, w.2 ++ [idx])

/- The requests that are sent until the first one fails. -/
def sentRequests (accepts : NotifierCall → Bool) (selfParaId : ParaId) (identifier : Identifier)
    (toSend : List RingIndex) : List NotifierCall :=
  ((chunks T.maxUpdatesPerBatch toSend).map
    (NotifierCall.requestReplay selfParaId identifier)).takeWhile accepts

def processCollectionReplay (s : SubscriberState R) (accepts : NotifierCall → Bool)
    (selfParaId : ParaId) (identifier : Identifier) (indices : List RingIndex) :
    SubscriberState R × List NotifierCall :=
  let state := s.collectionState identifier
  if indices = [] ∨ state.missingIndices.isEmpty = true then
    (s, [])
  else
    let w := indices.foldl (attemptReplay T) (state.missingIndices, [])
    ({ s with
        ringCollectionStates := s.ringCollectionStates.insert identifier
            { state with missingIndices := w.1 } },
      sentRequests T accepts selfParaId identifier w.2)

def authorizeReplayMissingRoots (s : SubscriberState R) (now : Nat) (identifier : Identifier)
    (indices : List RingIndex) : Except Failure Unit := do
  ensure (s.subscription.isActive = true) Failure.call
  ensure (T.replayCooldownSeconds ≤ now - s.processingState.lastReplayRequestTime) Failure.stale
  ensure (indices.any (s.collectionState identifier).missingIndices.containsKey = true)
    Failure.stale

def replayMissingRoots (s : SubscriberState R) (now : Nat) (accepts : NotifierCall → Bool)
    (selfParaId : ParaId) (identifier : Identifier) (indices : List RingIndex) :
    Except Failure (SubscriberState R × List NotifierCall) := do
  s.authorizeReplayMissingRoots T now identifier indices
  let w := s.processCollectionReplay T accepts selfParaId identifier (indicesSet indices)
  let s := w.1
  return (
    if w.2 = [] then s
    else { s with
      processingState :=
        { s.processingState with
          lastReplayRequestTime := now } },
    w.2)

--
-- Purging Stale Roots
--

/- The stored keys of a generation. -/
def generationKeys (ringRoots : RingRootMap R) (generation : Generation) :
    List (Generation × Identifier × RingIndex) :=
  ringRoots.keys.filter fun key => key.1 = generation

def authorizePurgeStaleRingRoots (s : SubscriberState R) :
    Except Failure RingPurgeProgress := do
  let progress ← okOr s.queuedRingPurge (AuthorizeInvalidity.nothingToPurge : Failure)
  ensure (progress.generation < s.currentGeneration)
    (AuthorizeInvalidity.purgeGenerationNotStale : Failure)
  return progress

def purgeStaleRingRoots (s : SubscriberState R) :
    Except Failure (SubscriberState R) := do
  let progress ← s.authorizePurgeStaleRingRoots
  let generation := progress.generation
  let ringRoots := ((generationKeys s.ringRoots generation).take
      T.purgePageSize).foldl (·.remove ·) s.ringRoots
  let next := saturatingAdd u32Max generation 1
  return { s with
    ringRoots := ringRoots
    queuedRingPurge :=
      if generationKeys ringRoots generation ≠ [] then
        some ⟨generation, saturatingAdd u32Max progress.page 1⟩
      else if next < s.currentGeneration then
        some ⟨next, 0⟩
      else
        none }

end SubscriberState

--
-- Operations
--

/- The calls of the pallet. -/
inductive SubscriberOp (R : Type) where
  | receive (call : SubscriberCall R)
  | terminateSubscription
  | replayMissingRoots (identifier : Identifier) (indices : List RingIndex)
  | purgeStaleRingRoots
  | detectMissingRings (identifier : Identifier)

/-
  What a call reads of its chain: the time, the parachain
  identifier, and which messages the router accepts.
-/
structure Chain where
  now : Nat
  selfParaId : ParaId
  accepts : NotifierCall → Bool

namespace SubscriberState

/- The calls that come from the notifier. -/
def receive (s : SubscriberState R) (now : Nat) :
    SubscriberCall R → Except Failure (SubscriberState R)
  | .initializeRingRoots ringExponent roots =>
    s.initializeRingRoots T now ringExponent roots
  | .updateRingRoots updates =>
    s.processRingUpdates T now updates
  | .terminateSubscription =>
    Prod.fst <$> s.terminateSubscription true

/-
  The state after a call, and the messages it sends to the notifier.  A failed call is rolled back.
-/
def apply (s : SubscriberState R) (chain : Chain) :
    SubscriberOp R → Except Failure (SubscriberState R × List NotifierCall)
  | .receive call =>
    (fun s => (s, [])) <$> s.receive T chain.now call
  | .terminateSubscription => s.terminateSubscription false
  | .replayMissingRoots identifier indices =>
    s.replayMissingRoots T chain.now chain.accepts chain.selfParaId identifier indices
  | .purgeStaleRingRoots =>
    (fun s => (s, [])) <$> s.purgeStaleRingRoots T
  | .detectMissingRings identifier =>
    (fun s => (s, [])) <$> s.detectMissingRings T chain.now identifier

--
-- Reads for Other Pallets
--

/-
  The newest root of a ring never expires, an older one does
  some time after the source time of its successor.
-/
def isWindowRecordRetained (now : Nat) (roots : List (RingCommitmentRecord R))
    (index : Nat) : Bool :=
  match roots[index + 1]? with
  | none => true
  | some successor =>
    now < saturatingAdd u64Max successor.sourceTime T.oldRootRetentionDuration

def ringRevision (s : SubscriberState R) (identifier : Identifier)
    (ringIndex : RingIndex) : Option RevisionIndex := do
  let roots ← s.currentRingRoots identifier ringIndex
  let newest ← roots.getLast?
  return newest.revision

def isRevisionValid (s : SubscriberState R) (now : Nat) (identifier : Identifier)
    (ringIndex : RingIndex) (revision : RevisionIndex) : Bool :=
  match s.currentRingRoots identifier ringIndex with
  | none => false
  | some roots =>
    match roots.findIdx? fun r => r.revision = revision with
    | none => false
    | some index => isWindowRecordRetained T now roots index

end SubscriberState

end Individuality.MembersSubscriber
