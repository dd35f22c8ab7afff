import Individuality.MembersPallet.Types

/-
  The types that the members-notifier and the members-subscriber pallets share: updates of ring
  roots, and the calls that the pallets send each other.  A ring root is of any type `R`.

  Main declaration: `RingRootOp`
-/

namespace Individuality.NotifierSubscriber

export MembersPallet (RingExponent)

/- Parachain identifiers, which number the subscribers. -/
abbrev ParaId := Nat

/- The sequence number of a batch, 64 bits. -/
abbrev SequenceNumber := Nat

section Updates

variable (R : Type)

/- Whether a ring root was built or deleted. -/
inductive RingRootOp where
  | built (revision : RevisionIndex) (root : R)
  | deleted
  deriving DecidableEq, Repr

structure RingRootUpdate where
  ringIndex : RingIndex
  op : RingRootOp R
  deriving DecidableEq, Repr

/- Updates of one collection.  At most `MaxUpdatesPerBatch` of them are sent in one batch. -/
structure RingRootUpdatesBatch where
  identifier : Identifier
  sequence : SequenceNumber
  sourceTime : Nat
  updates : List (RingRootUpdate R)
  nextRingIndex : RingIndex
  deriving DecidableEq, Repr

/- The calls that the notifier sends to a subscriber. -/
inductive SubscriberCall where
  | initializeRingRoots (ringExponent : RingExponent) (roots : RingRootUpdatesBatch R)
  | updateRingRoots (updates : RingRootUpdatesBatch R)
  | terminateSubscription
  deriving DecidableEq

end Updates

/-
  The calls that a subscriber sends to the notifier.  The notifier derives the parachain of an
  `unsubscribe` from the origin of the message.
-/
inductive NotifierCall where
  | unsubscribe
  | requestReplay
      (subscriberParachainId : ParaId)
      (identifier : Identifier)
      (ringRootIndices : List RingIndex)
  deriving DecidableEq

end Individuality.NotifierSubscriber
