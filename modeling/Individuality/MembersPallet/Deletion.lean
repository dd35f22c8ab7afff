import Individuality.MembersPallet.Rings

/-
  Removing rings and deleting collections, page by page, and cleaning up archived roots.

  Main declaration: `CollectionStore.removeRing`
-/

namespace Individuality.MembersPallet

variable {T : Config}

namespace CollectionStore

--
-- Removing Rings
--

/- The ring has pages that wait for their deletion. -/
def ringQueued (s : CollectionStore T) (ringIndex : RingIndex) : Prop :=
  ∃ e ∈ s.ringDeletionQueue, e.1 = ringIndex

instance
    (s : CollectionStore T)
    (ringIndex : RingIndex) :
    Decidable (s.ringQueued ringIndex) :=
  inferInstanceAs (Decidable (∃ e ∈ s.ringDeletionQueue, e.1 = ringIndex))

/- The number of pages that `total` keys fill. -/
def pageCount (pageSize total : Nat) : Nat :=
  total / pageSize + if total % pageSize = 0 then 0 else 1

/- The pages of a ring, as entries of the deletion queue. -/
def ringPageEntries (ringIndex : RingIndex) (pages : Nat) : Finset (RingIndex × PageIndex) :=
  ((List.range pages).map fun p => (ringIndex, p)).toFinset

def enqueueRingForDeletion (s : CollectionStore T) (now : Nat)
    (ringIndex : RingIndex) : CollectionStore T :=
  let s₁ := s.deleteRoot now ringIndex
  let status := s₁.ringStatus ringIndex
  let s₂ := { s₁ with
    staleRings := s₁.staleRings.erase ringIndex
    pendingSuspensions := s₁.pendingSuspensions.remove ringIndex
    ringKeysStatus := s₁.ringKeysStatus.remove ringIndex }
  if status.total = 0 then
    s₂
  else
    { s₂ with
      activeMembers := s₂.activeMembers - status.total
      ringDeletionQueue := s₂.ringDeletionQueue ∪ ringPageEntries ringIndex
          (pageCount T.flexibleRingCapacity status.total) }

def removeRing (s : CollectionStore T) (now : Nat) (ringIndex : RingIndex) :
    Except Failure (CollectionStore T) := do
  ensure (s.collection.isSome = true) Error.collectionNotFound
  ensure (ringIndex ≠ s.currentRingIndex) Error.invalidRing
  if s.ringQueued ringIndex then
    return s
  else
    return s.enqueueRingForDeletion now ringIndex

/-
  Remove the members whose recorded position is the one the
  deleted page gives them, from position `i` on.
-/
def forgetMembers (ringIndex : RingIndex) (pageIndex : PageIndex) :
    Nat → List T.Member → StorageMap T.Member RingPosition → StorageMap T.Member RingPosition
  | _, [], members => members
  | i, key :: keys, members =>
    forgetMembers ringIndex pageIndex (i + 1) keys (if members.get key
          = some (.included ringIndex pageIndex i) then
        members.remove key
      else members)

def deleteRingPage (s : CollectionStore T) (ringIndex : RingIndex)
    (pageIndex : PageIndex) : CollectionStore T :=
  { s with
    members := forgetMembers ringIndex pageIndex 0 (s.page ringIndex pageIndex) s.members
    ringKeys := s.ringKeys.remove (ringIndex, pageIndex) }

def deleteRingPageAuthorized (s : CollectionStore T) (ringIndex : RingIndex)
    (pageIndex : PageIndex) :
    Except Failure (CollectionStore T) := do
  ensure ((ringIndex, pageIndex) ∈ s.ringDeletionQueue) InvalidTransaction.stale
  let s := { s with
    ringDeletionQueue := s.ringDeletionQueue.erase (ringIndex, pageIndex) }
  return s.deleteRingPage ringIndex pageIndex

--
-- Deleting Collections
--

def deleteCollection (s : CollectionStore T) (owner : T.Location) :
    Except Failure (CollectionStore T) := do
  let info ← okOr s.collection Error.collectionNotFound
  ensure (info.owner = .external owner) Error.notCollectionOwner
  ensure (s.suspendedCollection.isSome = false) Error.collectionMarkedForDeletion
  return { s with
    collection := none
    suspendedCollection := some info
    retired := true }

def enqueueRingDeletionAuthorized (s : CollectionStore T) (now : Nat) (ringIndex : RingIndex) :
    Except Failure (CollectionStore T) := do
  ensure (s.suspendedCollection.isSome = true) InvalidTransaction.stale
  ensure (s.ringKeysStatus.containsKey ringIndex = true) InvalidTransaction.stale
  return s.enqueueRingForDeletion now ringIndex

/- Every ring, ring page and queue page was deleted. -/
def ensureRingsAndQueueDeleted (s : CollectionStore T) : Except Failure Unit := do
  ensure (s.suspendedCollection.isSome = true) InvalidTransaction.stale
  ensure (s.ringKeysStatus.isEmpty = true) InvalidTransaction.future
  ensure (s.ringDeletionQueue = ∅) InvalidTransaction.future
  ensure (s.onboardingQueue.isEmpty = true) InvalidTransaction.future

/- The number of orphaned entries one call removes. -/
def orphanedMembersRemovalLimit : Nat := 500

def removeOrphanedMembersAuthorized (s : CollectionStore T) :
    Except Failure (CollectionStore T) := do
  s.ensureRingsAndQueueDeleted
  ensure (s.members.isEmpty = false) InvalidTransaction.stale
  return { s with
    members := ((T.hashOrder s.members.keys).take orphanedMembersRemovalLimit).foldl
        (·.remove ·) s.members }

def finalizeCollectionDeletionAuthorized (s : CollectionStore T) :
    Except Failure (CollectionStore T) := do
  s.ensureRingsAndQueueDeleted
  ensure (s.members.isEmpty = true) InvalidTransaction.future
  return { s with
    suspendedCollection := none
    currentRingIndex := 0
    onboardingSize := 0
    activeMembers := 0
    ringsState := .appendOnly
    queueHead := 0
    queueTail := 0 }

--
-- Cleaning Up Archived Roots
--

/- The oldest archived revision of a ring. -/
def firstOldRevision (s : CollectionStore T) (ringIndex : RingIndex) : Option RevisionIndex :=
  ((s.oldRoots.keys.filter (·.1 = ringIndex)).map (·.2)).min?

/- The archived root is past its retention at time `now`. -/
def rootExpired (s : CollectionStore T) (now : Nat) (ringIndex : RingIndex)
    (revision : RevisionIndex) : Bool :=
  match s.oldRoots.get (ringIndex, revision) with
  | none => false
  | some old =>
    saturatingAdd u64Max old.archivedAt T.oldRootRetentionDuration ≤ now

/- The loop of `clean_up_old_roots_authorized`. -/
def cleanOldRoots (now : Nat) (ringIndex : RingIndex) :
    Nat → CollectionStore T → CollectionStore T
  | 0, s => s
  | limit + 1, s =>
    match s.firstOldRevision ringIndex with
    | none => s
    | some revision =>
      if s.rootExpired now ringIndex revision then
        cleanOldRoots now ringIndex limit
          { s with
            oldRoots := s.oldRoots.remove (ringIndex, revision) }
      else
        s

def cleanUpOldRootsAuthorized (s : CollectionStore T) (now : Nat) (ringIndex : RingIndex)
    (limit : Nat) :
    Except Failure (CollectionStore T) := do
  let first ← okOr (s.firstOldRevision ringIndex) (if s.ringKeysStatus.containsKey ringIndex then
        InvalidTransaction.future
      else InvalidTransaction.stale)
  ensure (s.rootExpired now ringIndex first = true) InvalidTransaction.future
  return cleanOldRoots now ringIndex limit s

end CollectionStore

end Individuality.MembersPallet
