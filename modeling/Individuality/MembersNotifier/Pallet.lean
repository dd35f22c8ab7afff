import Individuality.MembersNotifier.Types
import Individuality.Base.Paged

/-
  The members-notifier pallet: it records which rings changed, seals them into batches, and sends
  the roots of the changed rings to the subscribers.

  Main declaration: `NotifierState.onRingRootChange`
-/

namespace Individuality.MembersNotifier

open NotifierSubscriber

variable {R : Type} {T : Config}

--
-- Surroundings
--

/-
  What a call reads of its chain: the time in seconds, the block number, the ring roots, the largest
  message size of the channel to a parachain, and which messages the router accepts.
-/
structure Chain (R : Type) where
  now : Nat
  block : Nat
  provider : RingRootsProvider R
  maxMessageSize : ParaId → Option Nat
  accepts : ParaId → SubscriberCall R → Bool

/- The messages of a call, with the parachains they are for. -/
abbrev Sent (R : Type) := List (ParaId × SubscriberCall R)

/- How many updates fit into one message to a parachain. -/
def maxUpdatesPerXcm (T : Config) (chain : Chain R) (paraId : ParaId) : Option Nat := do
  let maxPayload ← chain.maxMessageSize paraId
  let count := (maxPayload - T.xcmOverhead) / T.updateSize
  if count = 0 then none
  else some (min count T.maxUpdatesPerBatch)

--
-- Resolving Updates
--

/-
  Walk through the indices and the roots found for them side
  by side: an index without a root is a deletion.
-/
def mergeUpdates :
    List RingIndex →
    List (RingIndex × R × RevisionIndex) →
    List (RingRootUpdate R)
  | [], _ => []
  | idx :: indices, [] =>
    ⟨idx, .deleted⟩ :: mergeUpdates indices []
  | idx :: indices, (ringIndex, root, revision) :: roots =>
    if ringIndex = idx then
      ⟨ringIndex, .built revision root⟩ :: mergeUpdates indices roots
    else
      ⟨idx, .deleted⟩ :: mergeUpdates indices ((ringIndex, root, revision) :: roots)

def resolveUpdatesForIndices (provider : RingRootsProvider R) (identifier : Identifier)
    (indices : List RingIndex) : List (RingRootUpdate R) :=
  mergeUpdates indices (provider.getRingRoots identifier indices)

namespace NotifierState

--
-- Changes of Ring Roots
--

/- Move on to the next write page when this one is full. -/
def openWritePage (s : NotifierState T) : NotifierState T :=
  let page := s.pageState.writePage
  if T.maxUpdatesPerBatch ≤ s.pageUpdatesCount.getD page 0 then
    { s with
      pageState := { s.pageState with writePage := nextPage page } }
  else
    s

def recordUpdate (s : NotifierState T) (identifier : Identifier)
    (ringIndex : RingIndex) : NotifierState T :=
  let page := s.pageState.writePage
  { s with
    pendingUpdates := s.pendingUpdates.insert (page, identifier, ringIndex) ()
    pageUpdatesCount := s.pageUpdatesCount.insert page (saturatingAdd u32Max
        (s.pageUpdatesCount.getD page 0) 1) }

/-
  Record that a ring of a collection changed, unless nobody
  subscribes to the collection or the write page has it.
-/
def onRingRootChange (s : NotifierState T) (identifier : Identifier)
    (ringIndex : RingIndex) : NotifierState T :=
  if identifier ∉ s.subscribedCollections then
    s
  else if s.pendingUpdates.containsKey
      (s.pageState.writePage, identifier, ringIndex) then
    s
  else
    s.openWritePage.recordUpdate identifier ringIndex

--
-- Subscriptions
--

/-
  All collections of all subscribers.  There are no more of
  them than the bounded removal of the old ones takes away.
-/
def rebuildSubscribedCollections (s : NotifierState T) : NotifierState T :=
  { s with
    subscribedCollections := (s.subscribers.entries.flatMap fun e =>
        e.2.collections.toList.map Prod.fst).toFinset }

def registerForInit (s : NotifierState T) (now : Nat) (paraId : ParaId)
    (collections : Collections T) : NotifierState T :=
  { s with
    subscribers := s.subscribers.insert paraId
        { collections := collections
          lastInitSequence := s.sealedBatchSequence }
    pendingInit := s.pendingInit.insert paraId
        { collections := collections
          currentCollectionIndex := 0
          afterRingIndex := none
          sequence := s.sealedBatchSequence
          sourceTime := now } }

def doSubscribe (s : NotifierState T) (now : Nat) (paraId : ParaId) (collections : Collections T) :
    Except Failure (NotifierState T) := do
  ensure (s.subscribers.containsKey paraId = false) (Error.alreadySubscribed : Failure)
  ensure (s.subscribers.keys.length < T.maxSubscribers) (Error.tooManySubscribers : Failure)
  let s := { s with
    subscriptionWhitelist := s.subscriptionWhitelist.remove paraId }
  return (s.registerForInit now paraId collections).rebuildSubscribedCollections

/- Identifiers are in strictly ascending order. -/
def ensureCollectionOrder :
    List (Identifier × RingExponent) → Bool
  | a :: b :: rest =>
    a.1.toList < b.1.toList ∧ ensureCollectionOrder (b :: rest)
  | _ => true

def subscribe (s : NotifierState T) (now : Nat) (paraId : ParaId) (collections : Collections T) :
    Except Failure (NotifierState T) := do
  ensure (ensureCollectionOrder collections.toList = true) (Error.invalidCollectionsList : Failure)
  s.doSubscribe now paraId collections

def authorizeSubscribeWhitelisted (s : NotifierState T)
    (paraId : ParaId) : Except Failure Unit := do
  ensure (s.subscriptionWhitelist.containsKey paraId = true)
    (CustomInvalidity.notWhitelisted : Failure)
  ensure (s.subscribers.containsKey paraId = false) (CustomInvalidity.alreadySubscribed : Failure)
  ensure (s.subscribers.keys.length < T.maxSubscribers)
    (CustomInvalidity.tooManySubscribers : Failure)

def subscribeWhitelisted (s : NotifierState T) (now : Nat)
    (paraId : ParaId) : Except Failure (NotifierState T) := do
  s.authorizeSubscribeWhitelisted paraId
  let collections ← okOr (s.subscriptionWhitelist.get paraId) (Error.notWhitelisted : Failure)
  s.doSubscribe now paraId collections

/-
  Clear what is stored of the batch.  There are no more of the
  indices and recipients than the bounded removals take away.
-/
def clearBatch (s : NotifierState T) : NotifierState T :=
  { s with
    currentBatch := none
    sealedBatchIndices := .empty
    subscribersWithCurrentBatch := ∅ }

/- One subscriber fewer waits for the batch. -/
def countDown (s : NotifierState T) (batch : BatchDistributionState) : NotifierState T :=
  if batch.remainingSubscribers - 1 = 0 then
    s.clearBatch
  else
    { s with
      currentBatch :=
        some { batch with
          remainingSubscribers := batch.remainingSubscribers - 1 } }

/- Take a subscriber that left out of the current batch. -/
def leaveBatch (s : NotifierState T) (paraId : ParaId)
    (info : SubscriberInfo T) : NotifierState T :=
  match s.currentBatch with
  | none => s
  | some batch =>
    if paraId ∈ s.subscribersWithCurrentBatch then
      { s with
        subscribersWithCurrentBatch := s.subscribersWithCurrentBatch.erase paraId }
    else if info.lastInitSequence < batch.sequence
        ∧ 0 < batch.remainingSubscribers then
      s.countDown batch
    else
      s

/-
  A subscriber is informed unless it unsubscribed by itself,
  and no matter whether the message can be sent.
-/
def unsubscribe (s : NotifierState T) (accepts : ParaId → SubscriberCall R → Bool) (paraId : ParaId)
    (fromSubscriber : Bool) :
    Except Failure (NotifierState T × Sent R) := do
  let info ← okOr (s.subscribers.get paraId) (Error.subscriberNotFound : Failure)
  let removed : NotifierState T := { s with
    lastReplayTime := (info.collections.toList.map Prod.fst).foldl
        (fun times identifier => times.remove (paraId, identifier))
        s.lastReplayTime
    subscribers := s.subscribers.remove paraId
    pendingInit := s.pendingInit.remove paraId }
  return ( removed.rebuildSubscribedCollections.leaveBatch paraId info,
    if fromSubscriber then []
    else
      [(paraId, .terminateSubscription)].filter fun message =>
        accepts message.1 message.2)

--
-- Replays
--

/- Indices are in strictly ascending order. -/
def isAscending : List RingIndex → Bool
  | a :: b :: rest => a < b ∧ isAscending (b :: rest)
  | _ => true

/-
  Send the roots that a subscriber asks for.  Its collections
  are sorted, so that a binary search finds what they contain.
-/
def requestReplay (s : NotifierState T) (chain : Chain R) (paraId : ParaId)
    (identifier : Identifier) (indices : BoundedVec RingIndex T.maxUpdatesPerBatch) :
    Except Failure (NotifierState T × Sent R) := do
  ensure (indices.toList ≠ []) (Error.emptyRingIndices : Failure)
  let info ← okOr (s.subscribers.get paraId) (Error.subscriberNotFound : Failure)
  ensure (identifier ∈ info.collections.toList.map Prod.fst)
    (Error.notSubscribedToCollection : Failure)
  let next := chain.provider.nextRingIndex identifier
  ensure (isAscending indices.toList = true ∧ (indices.toList.getLast?.all (· < next)) = true)
    (Error.invalidRingIndex : Failure)
  let maxPerXcm ← okOr (maxUpdatesPerXcm T chain paraId) (Error.xcmSendFailed : Failure)
  ensure (indices.length ≤ maxPerXcm) (Error.exceedsChannelCapacity : Failure)
  ensure (((s.lastReplayTime.get (paraId, identifier)).all fun last =>
      T.replayCooldownSeconds ≤ chain.now - last) = true)
    (Error.replayCooldownActive : Failure)
  let updates := resolveUpdatesForIndices chain.provider identifier indices.toList
  ensure (updates.length ≤ T.maxUpdatesPerBatch) (Error.tooManyUpdates : Failure)
  let message := SubscriberCall.updateRingRoots
      { identifier := identifier
        sequence := s.sealedBatchSequence
        sourceTime := chain.now
        updates := updates
        nextRingIndex := next }
  ensure (chain.accepts paraId message = true) (Error.xcmSendFailed : Failure)
  return (
    { s with
      lastReplayTime := s.lastReplayTime.insert (paraId, identifier) chain.now },
    [(paraId, message)])

--
-- Sealing
--

/- There are sealed pages, or updates that may be sealed. -/
def hasProcessableUpdates (s : NotifierState T) (block : Nat) : Bool :=
  let page := s.pageState.writePage
  let count := s.pageUpdatesCount.getD page 0
  if s.pageState.sendPage ≠ page then
    true
  else if count = 0 then
    false
  else
    T.updateTriggerBlocks ≤ block - s.pageState.lastUpdateBlock ∨ T.updateTriggerThreshold ≤ count

def authorizeEnqueueUpdates (s : NotifierState T) (block : Nat)
    (sendPage : PageIndex) : Except Failure Unit := do
  ensure (s.currentBatch = none) (CustomInvalidity.batchInProgress : Failure)
  ensure (s.pageState.sendPage ≤ sendPage) Failure.stale
  ensure (sendPage ≤ s.pageState.sendPage) Failure.future
  ensure (s.hasProcessableUpdates block = true) (CustomInvalidity.noPendingWork : Failure)

/- The rings of a page, with their collections. -/
def pageUpdates (s : NotifierState T) (page : PageIndex) : List (Identifier × RingIndex) :=
  (s.pendingUpdates.keys.filter fun key => key.1 = page).map Prod.snd

/- The changed rings of a collection in ascending order. -/
def changedIndices (updates : List (Identifier × RingIndex))
    (identifier : Identifier) : List RingIndex :=
  ((updates.filter fun update =>
    update.1 = identifier).map Prod.snd).insertionSort (· ≤ ·)

/- The collections of a page that still have a subscriber. -/
def changedCollections (s : NotifierState T) (updates : List (Identifier × RingIndex)) :
    List Identifier :=
  (updates.map Prod.fst).filter fun identifier =>
    identifier ∈ s.subscribedCollections

/- Advance the write page before it is the one to be sent. -/
def sealWritePage (s : NotifierState T) : NotifierState T :=
  if s.pageState.sendPage = s.pageState.writePage then
    { s with
      pageState :=
        { s.pageState with
          writePage := nextPage s.pageState.writePage } }
  else
    s

/- Remove the updates of a page, at most as many as fit into a batch, and advance the send page. -/
def cleanupSendBuffer (s : NotifierState T) (block : Nat) (page : PageIndex) : NotifierState T :=
  { s with
    pendingUpdates := ((s.pendingUpdates.keys.filter fun key =>
        key.1 = page).take T.maxUpdatesPerBatch).foldl (·.remove ·) s.pendingUpdates
    pageUpdatesCount := s.pageUpdatesCount.remove page
    pageState :=
      { s.pageState with
        sendPage := nextPage s.pageState.sendPage
        lastUpdateBlock := block } }

/- The first elements of a list, as many as fit. -/
def truncateFrom {α : Type} {n : Nat} (xs : List α) : BoundedVec α n :=
  ⟨xs.take n, List.length_take_le n xs⟩

/- Store the changed indices of collections for the batch. -/
def storeSealedIndices (s : NotifierState T) (updates : List (Identifier × RingIndex))
    (collections : List Identifier) : NotifierState T :=
  { s with
    sealedBatchIndices := collections.foldl (fun sealedIndices identifier =>
          sealedIndices.insert identifier (truncateFrom (changedIndices updates identifier)))
        s.sealedBatchIndices }

def startBatch (s : NotifierState T) (now block : Nat) : NotifierState T :=
  let sequence := saturatingAdd u64Max s.sealedBatchSequence 1
  { s with
    sealedBatchSequence := sequence
    currentBatch := some
        { sequence := sequence
          sourceTime := now
          sealedAt := block
          remainingSubscribers := s.subscribers.keys.length } }

/- Seal the send page into a batch, or drain it when it holds nothing for any subscriber. -/
def enqueueUpdates (s : NotifierState T) (now block : Nat) (sendPage : PageIndex) :
    Except Failure (NotifierState T) := do
  s.authorizeEnqueueUpdates block sendPage
  let page := s.pageState.sendPage
  let updates := s.pageUpdates page
  let collections := s.changedCollections updates
  if s.subscribers.keys.length = 0 ∨ collections = [] then
    return s.sealWritePage.cleanupSendBuffer block page
  else
    return ((s.sealWritePage.startBatch now block).storeSealedIndices updates
        collections).cleanupSendBuffer block page

--
-- Sending the Batch
--

def authorizeSendBatch (s : NotifierState T) (paraId : ParaId)
    (sequence : SequenceNumber) : Except Failure Unit := do
  let batch ← okOr s.currentBatch (CustomInvalidity.noBatchActive : Failure)
  ensure (batch.sequence ≤ sequence) Failure.stale
  ensure (sequence ≤ batch.sequence) Failure.future
  ensure (batch.remainingSubscribers ≠ 0) (CustomInvalidity.noBatchActive : Failure)
  ensure (paraId ∉ s.subscribersWithCurrentBatch) (CustomInvalidity.alreadySent : Failure)
  let info ← okOr (s.subscribers.get paraId) (CustomInvalidity.subscriberNotFound : Failure)
  ensure (info.lastInitSequence < batch.sequence) Failure.stale

/- The messages of the batch about one collection. -/
def collectionMessages (s : NotifierState T) (provider : RingRootsProvider R)
    (sequence : SequenceNumber) (sourceTime maxPerXcm : Nat)
    (identifier : Identifier) : List (SubscriberCall R) :=
  match s.sealedBatchIndices.get identifier with
  | none => []
  | some indices =>
    (chunks maxPerXcm (resolveUpdatesForIndices provider identifier
        indices.toList)).map fun updates =>
      .updateRingRoots
        { identifier := identifier
          sequence := sequence
          sourceTime := sourceTime
          updates := updates
          nextRingIndex := provider.nextRingIndex identifier }

def batchMessages (s : NotifierState T) (provider : RingRootsProvider R)
    (sequence : SequenceNumber) (sourceTime maxPerXcm : Nat)
    (info : SubscriberInfo T) : List (SubscriberCall R) :=
  info.collections.toList.flatMap fun collection =>
    s.collectionMessages provider sequence sourceTime maxPerXcm collection.1

/- A subscriber needs the batch no more. -/
def markProcessed (s : NotifierState T) (batch : BatchDistributionState)
    (paraId : ParaId) : NotifierState T :=
  { s with
    subscribersWithCurrentBatch := insert paraId s.subscribersWithCurrentBatch }.countDown batch

/-
  A subscriber without a channel is skipped.  When a message
  can not be sent, the whole batch is sent again later.
-/
def sendBatch (s : NotifierState T) (chain : Chain R) (paraId : ParaId)
    (sequence : SequenceNumber) :
    Except Failure (NotifierState T × Sent R) := do
  s.authorizeSendBatch paraId sequence
  let batch ← okOr s.currentBatch (Error.noBatchActive : Failure)
  let info ← okOr (s.subscribers.get paraId) (Error.subscriberNotFound : Failure)
  match maxUpdatesPerXcm T chain paraId with
  | none | some 0 => return (s.markProcessed batch paraId, [])
  | some (n + 1) =>
    let messages := s.batchMessages chain.provider sequence batch.sourceTime (n + 1) info
    return (
      if messages.all (chain.accepts paraId) then
        s.markProcessed batch paraId
      else
        s,
      (messages.filter (chain.accepts paraId)).map (paraId, ·))

--
-- Sending Initializations
--

/- No index comes before every index. -/
def precedes : Option RingIndex → Option RingIndex → Bool
  | none, some _ => true
  | some a, some b => a < b
  | _, none => false

def authorizeSendInitPage (s : NotifierState T) (paraId : ParaId) (currentCollectionIndex : Nat)
    (afterRingIndex : Option RingIndex) :
    Except Failure Unit := do
  let state ← okOr (s.pendingInit.get paraId) (CustomInvalidity.noPendingInit : Failure)
  ensure (¬ currentCollectionIndex < state.currentCollectionIndex) Failure.stale
  ensure (¬ state.currentCollectionIndex < currentCollectionIndex) Failure.future
  ensure (precedes afterRingIndex state.afterRingIndex = false) Failure.stale
  ensure (precedes state.afterRingIndex afterRingIndex = false) Failure.future

def buildInitBatch (T : Config) (state : PendingInitState T) (provider : RingRootsProvider R)
    (identifier : Identifier) (roots : List (RingIndex × R × RevisionIndex)) :
    RingRootUpdatesBatch R where
  identifier := identifier
  sequence := state.sequence
  sourceTime := state.sourceTime
  updates := (roots.map fun root =>
      ⟨root.1, .built root.2.2 root.2.1⟩).take T.maxUpdatesPerBatch
  nextRingIndex := provider.nextRingIndex identifier

/- What is left of an initialization after a page. -/
def advanceInitPagination (state : PendingInitState T) (mightHaveMore : Bool)
    (lastReturnedIndex : Option RingIndex) :
    Option (PendingInitState T) :=
  if mightHaveMore then
    some { state with afterRingIndex := lastReturnedIndex }
  else if state.currentCollectionIndex
      < state.collections.length - 1 then
    some { state with
      currentCollectionIndex := saturatingAdd u32Max state.currentCollectionIndex 1
      afterRingIndex := none }
  else
    none

def setPendingInit (s : NotifierState T) (paraId : ParaId)
    (state : Option (PendingInitState T)) : NotifierState T :=
  { s with
    pendingInit :=
      match state with
      | none => s.pendingInit.remove paraId
      | some state => s.pendingInit.insert paraId state }

def sendInitPage (s : NotifierState T) (chain : Chain R) (paraId : ParaId)
    (currentCollectionIndex : Nat) (afterRingIndex : Option RingIndex) :
    Except Failure (NotifierState T × Sent R) := do
  s.authorizeSendInitPage paraId currentCollectionIndex afterRingIndex
  let state ← okOr (s.pendingInit.get paraId) (Error.noPendingInit : Failure)
  match maxUpdatesPerXcm T chain paraId with
  | none => return (s, [])
  | some maxPerXcm =>
    match state.collections.toList[
        state.currentCollectionIndex]? with
    | none => return (s.setPendingInit paraId none, [])
    | some (identifier, ringExponent) =>
      let roots := chain.provider.getRingRootsPaginated T identifier state.afterRingIndex maxPerXcm
      let message := SubscriberCall.initializeRingRoots ringExponent
          (buildInitBatch T state chain.provider identifier roots)
      if chain.accepts paraId message then
        return ( s.setPendingInit paraId (advanceInitPagination state (roots.length = maxPerXcm)
              (roots.getLast?.map Prod.fst)),
          [(paraId, message)])
      else
        return (s, [])

--
-- Abandoning the Batch
--

def abandonStuckBatch (s : NotifierState T) (block : Nat) : Except Failure (NotifierState T) := do
  let batch ← okOr s.currentBatch (CustomInvalidity.noBatchActive : Failure)
  ensure (T.stuckBatchTimeout ≤ block - batch.sealedAt) (CustomInvalidity.batchNotStuck : Failure)
  return s.clearBatch

end NotifierState

--
-- Operations
--

/- The calls of the pallet, and the hook of the provider. -/
inductive NotifierOp (T : Config) where
  | subscribe (paraId : ParaId) (collections : Collections T)
  | unsubscribe (paraId : ParaId) (fromSubscriber : Bool)
  | requestReplay (paraId : ParaId) (identifier : Identifier)
      (indices : BoundedVec RingIndex T.maxUpdatesPerBatch)
  | enqueueUpdates (sendPage : PageIndex)
  | sendBatch (paraId : ParaId) (sequence : SequenceNumber)
  | sendInitPage
      (paraId : ParaId)
      (currentCollectionIndex : Nat)
      (afterRingIndex : Option RingIndex)
  | abandonStuckBatch
  | subscribeWhitelisted (paraId : ParaId)
  | onRingRootChange (identifier : Identifier) (ringIndex : RingIndex)

/- The state after a call and the messages it sends.  A failed call is rolled back. -/
def NotifierState.apply (s : NotifierState T) (chain : Chain R) :
    NotifierOp T → Except Failure (NotifierState T × Sent R)
  | .subscribe paraId collections =>
    (fun s => (s, [])) <$> s.subscribe chain.now paraId collections
  | .unsubscribe paraId fromSubscriber =>
    s.unsubscribe chain.accepts paraId fromSubscriber
  | .requestReplay paraId identifier indices =>
    s.requestReplay chain paraId identifier indices
  | .enqueueUpdates sendPage =>
    (fun s => (s, [])) <$> s.enqueueUpdates chain.now chain.block sendPage
  | .sendBatch paraId sequence =>
    s.sendBatch chain paraId sequence
  | .sendInitPage paraId currentCollectionIndex afterRingIndex =>
    s.sendInitPage chain paraId currentCollectionIndex afterRingIndex
  | .abandonStuckBatch =>
    (fun s => (s, [])) <$> s.abandonStuckBatch chain.block
  | .subscribeWhitelisted paraId =>
    (fun s => (s, [])) <$> s.subscribeWhitelisted chain.now paraId
  | .onRingRootChange identifier ringIndex =>
    .ok (s.onRingRootChange identifier ringIndex, [])

end Individuality.MembersNotifier
