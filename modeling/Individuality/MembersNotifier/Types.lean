import Individuality.NotifierSubscriber.Types
import Mathlib.Data.List.Sort

/-
  The storage of the members-notifier pallet: who subscribes to which collections, the changed rings
  in their pages, the batch in distribution, and the initializations under way.

  Main declaration: `Config`
-/

namespace Individuality.MembersNotifier

open NotifierSubscriber

--
-- Configuration
--

/-
  The constants of the pallet, and what it takes from the encoding: the size of an XCM message
  without updates, and the largest size of an update.  The roots of a collection are iterated in the
  order of their hashed keys.
-/
structure Config where
  maxSubscribers : Nat
  maxUpdatesPerBatch : Nat
  maxCollectionsPerSubscriber : Nat
  updateTriggerBlocks : Nat
  updateTriggerThreshold : Nat
  stuckBatchTimeout : Nat
  replayCooldownSeconds : Nat
  xcmOverhead : Nat
  updateSize : Nat
  hashedKey : RingIndex → Nat
  hashedKey_injective : Function.Injective hashedKey
  updateTriggerThreshold_le : updateTriggerThreshold ≤ maxUpdatesPerBatch
  updateSize_pos : 0 < updateSize

--
-- Failures
--

inductive Error where
  | subscriberNotFound
  | alreadySubscribed
  | tooManySubscribers
  | invalidCollectionsList
  | tooManyUpdates
  | xcmSendFailed
  | notSubscribedToCollection
  | invalidRingIndex
  | exceedsChannelCapacity
  | noBatchActive
  | noPendingInit
  | replayCooldownActive
  | emptyRingIndices
  | notWhitelisted
  deriving DecidableEq, Repr

inductive CustomInvalidity where
  | batchInProgress
  | noPendingWork
  | noBatchActive
  | alreadySent
  | subscriberNotFound
  | noPendingInit
  | batchNotStuck
  | notWhitelisted
  | tooManySubscribers
  | alreadySubscribed
  deriving DecidableEq, Repr

/- An error of a call, or a refusal by its authorization. -/
inductive Failure where
  | error (e : Error)
  | custom (reason : CustomInvalidity)
  | stale
  | future
  deriving DecidableEq, Repr

instance : Coe Error Failure := ⟨Failure.error⟩

instance : Coe CustomInvalidity Failure := ⟨Failure.custom⟩

--
-- Ring Roots
--

/-
  The ring roots as the provider of them reports them: the roots of all collections, and the index
  of the next ring of each.
-/
structure RingRootsProvider (R : Type) where
  roots : StorageMap (Identifier × RingIndex) (R × RevisionIndex)
  nextRingIndex : Identifier → RingIndex

namespace RingRootsProvider

variable {R : Type}

def root (provider : RingRootsProvider R) (identifier : Identifier)
    (ringIndex : RingIndex) : Option (R × RevisionIndex) :=
  provider.roots.get (identifier, ringIndex)

/- A root together with its index. -/
def entry (provider : RingRootsProvider R) (identifier : Identifier) (ringIndex : RingIndex) :
    Option (RingIndex × R × RevisionIndex) :=
  (provider.root identifier ringIndex).map fun root => (ringIndex, root)

def getRingRoots (provider : RingRootsProvider R) (identifier : Identifier)
    (indices : List RingIndex) :
    List (RingIndex × R × RevisionIndex) :=
  indices.filterMap (provider.entry identifier)

/- The rings of a collection in the order of their keys. -/
def sortedRings (provider : RingRootsProvider R) (T : Config)
    (identifier : Identifier) : List RingIndex :=
  ((provider.roots.keys.filter fun key =>
    key.1 = identifier).map Prod.snd).insertionSort fun r r' => T.hashedKey r ≤ T.hashedKey r'

/- A ring that is iterated after another one. -/
def isAfter (T : Config) (afterKey : Option RingIndex) (ringIndex : RingIndex) : Bool :=
  match afterKey with
  | none => true
  | some key => T.hashedKey key < T.hashedKey ringIndex

def getRingRootsPaginated (provider : RingRootsProvider R) (T : Config)
    (identifier : Identifier) (afterKey : Option RingIndex)
    (limit : Nat) : List (RingIndex × R × RevisionIndex) :=
  (((provider.sortedRings T identifier).filter (isAfter T afterKey)).take limit).filterMap
      (provider.entry identifier)

end RingRootsProvider

--
-- Storage
--

/- The pages are numbered with 16 bits. -/
def pageCount : Nat := 65536

def nextPage (page : PageIndex) : PageIndex :=
  (page + 1) % pageCount

structure PagingState where
  writePage : PageIndex := 0
  sendPage : PageIndex := 0
  lastUpdateBlock : Nat := 0
  deriving DecidableEq, Repr

/- The state of the batch being distributed. -/
structure BatchDistributionState where
  sequence : SequenceNumber
  sourceTime : Nat
  sealedAt : Nat
  remainingSubscribers : Nat
  deriving DecidableEq, Repr

/- The collections of a subscription with their exponents. -/
abbrev Collections (T : Config) :=
  BoundedVec (Identifier × RingExponent) T.maxCollectionsPerSubscriber

structure SubscriberInfo (T : Config) where
  collections : Collections T
  lastInitSequence : SequenceNumber

/- An initialization that is sent page by page. -/
structure PendingInitState (T : Config) where
  collections : Collections T
  currentCollectionIndex : Nat
  afterRingIndex : Option RingIndex
  sequence : SequenceNumber
  sourceTime : Nat

structure NotifierState (T : Config) where
  subscribers : StorageMap ParaId (SubscriberInfo T)
  subscriptionWhitelist : StorageMap ParaId (Collections T)
  subscribedCollections : Finset Identifier
  sealedBatchSequence : SequenceNumber
  pageState : PagingState
  pendingUpdates : StorageMap (PageIndex × Identifier × RingIndex) Unit
  pageUpdatesCount : StorageMap PageIndex Nat
  pendingInit : StorageMap ParaId (PendingInitState T)
  sealedBatchIndices : StorageMap Identifier
      (BoundedVec RingIndex T.maxUpdatesPerBatch)
  currentBatch : Option BatchDistributionState
  subscribersWithCurrentBatch : Finset ParaId
  lastReplayTime : StorageMap (ParaId × Identifier) Nat

/- The whitelist is the only storage that genesis fills. -/
def NotifierState.genesis {T : Config} (whitelist : StorageMap ParaId (Collections T)) :
    NotifierState T where
  subscribers := .empty
  subscriptionWhitelist := whitelist
  subscribedCollections := ∅
  sealedBatchSequence := 0
  pageState := {}
  pendingUpdates := .empty
  pageUpdatesCount := .empty
  pendingInit := .empty
  sealedBatchIndices := .empty
  currentBatch := none
  subscribersWithCurrentBatch := ∅
  lastReplayTime := .empty

end Individuality.MembersNotifier
