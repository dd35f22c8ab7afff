import Individuality.NotifierSubscriber.Types

/-
  The storage of the members-subscriber pallet: recent roots of every ring, and what is known about
  the rings of each collection.

  Main declaration: `Config`
-/

namespace Individuality.MembersSubscriber

open NotifierSubscriber

--
-- Configuration
--

/- The constants of the pallet.  The last field is checked by `integrity_test`. -/
structure Config where
  maxMissingRootsPerCollection : Nat
  maxDeletedRingsPerCollection : Nat
  maxGapScanPerCall : Nat
  gapScanCooldownSeconds : Nat
  purgePageSize : Nat
  maxCollections : Nat
  replayCooldownSeconds : Nat
  maxUpdatesPerBatch : Nat
  replayAbandonThreshold : Nat
  maxRecentRootsPerRing : Nat
  oldRootRetentionDuration : Nat
  maxRecentRootsPerRing_pos : 0 < maxRecentRootsPerRing

--
-- Failures
--

inductive Error where
  | subscriptionInactive
  | subscriptionTerminated
  | subscriptionAlreadyActive
  | tooManyCollections
  deriving DecidableEq, Repr

inductive AuthorizeInvalidity where
  | nothingToPurge
  | purgeGenerationNotStale
  | nothingToScan
  | deletedIndicesAtCapacity
  | missingIndicesAtCapacity
  deriving DecidableEq, Repr

/- An error of a call, or a refusal by its authorization. -/
inductive Failure where
  | error (e : Error)
  | custom (reason : AuthorizeInvalidity)
  | call
  | stale
  | future
  deriving DecidableEq, Repr

instance : Coe Error Failure := ⟨Failure.error⟩

instance : Coe AuthorizeInvalidity Failure :=
  ⟨Failure.custom⟩

--
-- Storage
--

/- Increased whenever all ring data is cleared. -/
abbrev Generation := Nat

structure RingPurgeProgress where
  generation : Generation
  page : Nat
  deriving DecidableEq, Repr

/- What is known about the rings of one collection. -/
structure RingCollectionState where
  ringCount : Nat := 0
  nextRingIndex : RingIndex := 0
  nextScanIndex : RingIndex := 0
  missingIndices : StorageMap RingIndex Nat := .empty
  deletedIndices : Finset RingIndex := ∅
  lastBatchReceivedTime : Nat := 0

inductive SubscriptionStatus where
  | inactive
  | active (initializedAtSequence : SequenceNumber)
  | terminated
  deriving DecidableEq, Repr

/- The subscriber accepts updates of ring roots. -/
def SubscriptionStatus.isActive : SubscriptionStatus → Bool
  | active _ => true
  | _ => false

structure UpdatesProcessingState where
  lastProcessedSequence : SequenceNumber := 0
  lastReplayRequestTime : Nat := 0
  deriving DecidableEq, Repr

section Store

variable (R : Type)

structure RingCommitmentRecord where
  root : R
  revision : RevisionIndex
  sourceTime : Nat
  sourceSequence : SequenceNumber
  deriving DecidableEq, Repr

/- The recent roots of the rings, oldest first, at most `MaxRecentRootsPerRing` of each. -/
abbrev RingRootMap :=
  StorageMap (Generation × Identifier × RingIndex) (List (RingCommitmentRecord R))

structure SubscriberState where
  ringRoots : RingRootMap R
  currentGeneration : Generation
  queuedRingPurge : Option RingPurgeProgress
  ringCollectionStates : StorageMap Identifier RingCollectionState
  ringCollectionExponents : StorageMap Identifier RingExponent
  subscription : SubscriptionStatus
  processingState : UpdatesProcessingState

end Store

namespace SubscriberState

variable {R : Type}

def genesis : SubscriberState R where
  ringRoots := .empty
  currentGeneration := 0
  queuedRingPurge := none
  ringCollectionStates := .empty
  ringCollectionExponents := .empty
  subscription := .inactive
  processingState := {}

def collectionState (s : SubscriberState R) (identifier : Identifier) : RingCollectionState :=
  s.ringCollectionStates.getD identifier {}

/- The roots of a ring in the live generation. -/
def currentRingRoots (s : SubscriberState R) (identifier : Identifier) (ringIndex : RingIndex) :
    Option (List (RingCommitmentRecord R)) :=
  s.ringRoots.get (s.currentGeneration, identifier, ringIndex)

/- The recent roots of a ring, none when it is not stored. -/
def window (s : SubscriberState R) (identifier : Identifier)
    (ringIndex : RingIndex) : List (RingCommitmentRecord R) :=
  (s.currentRingRoots identifier ringIndex).getD []

end SubscriberState

end Individuality.MembersSubscriber
