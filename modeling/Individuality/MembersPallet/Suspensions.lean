import Individuality.MembersPallet.Rings
import Mathlib.Data.List.Sort

/-
  Removal sessions: marking members as suspended while a session is open, and removing their keys
  from the rings afterwards.

  Main declaration: `CollectionStore.queueMemberSuspensions`
-/

namespace Individuality.MembersPallet

variable {T : Config}

namespace CollectionStore

--
-- Sessions
--

def startRemovalSession (s : CollectionStore T) :
    Except Failure (CollectionStore T) :=
  if s.collection.isSome then do
    let state ← okOr s.ringsState.startMutationSession Error.couldNotStartRemovalSession
    return { s with ringsState := state }
  else
    .ok s

def endRemovalSession (s : CollectionStore T) :
    Except Failure (CollectionStore T) :=
  if s.collection.isSome then do
    let state ← okOr s.ringsState.endMutationSession Error.noRemovalSession
    return { s with ringsState := state }
  else
    .ok s

--
-- Queueing Suspensions
--

/- Insert a position into the sorted list of a ring's pending suspensions, unless it is there. -/
def suspendIncluded (s : CollectionStore T) (ringIndex : RingIndex) (ringPosition : Nat) :
    Except Failure (CollectionStore T) := do
  let suspendedIndices := s.pending ringIndex
  ensure (ringPosition ∉ suspendedIndices) Error.keyAlreadySuspended
  let suspendedIndices ← okOr
      (BoundedVec.ofList? (suspendedIndices.orderedInsert (· ≤ ·) ringPosition))
      Error.tooManyMembers
  return { s with
    pendingSuspensions := s.pendingSuspensions.insert ringIndex suspendedIndices }

/- Take a suspended key out of its page of the queue. -/
def suspendQueued (s : CollectionStore T) (queuePage : PageIndex)
    (key : T.Member) : CollectionStore T :=
  match (s.queuePage queuePage).idxOf? key with
  | some idx =>
    { s with
      onboardingQueue := s.onboardingQueue.insert queuePage
          ((s.queueBlock queuePage).eraseIdx idx) }
  | none => s

/- One pass of the loop of `queue_member_suspensions`. -/
def suspendMember (s : CollectionStore T) (key : T.Member) :
    Except Failure (CollectionStore T) := do
  let position ← okOr (s.members.get key) Error.invalidSuspensions
  let s ←
    match position with
    | .included ringIndex _ ringPosition =>
      s.suspendIncluded ringIndex ringPosition
    | .onboarding queuePage _ =>
      pure (s.suspendQueued queuePage key)
    | .suspended => pure s
  return { s with members := s.members.insert key .suspended }

/- `remove_members`. -/
def queueMemberSuspensions (s : CollectionStore T) (suspensions : List T.Member) :
    Except Failure (CollectionStore T) := do
  ensure (s.ringsState.isMutating = true) Error.noRemovalSession
  suspensions.foldlM suspendMember s

--
-- Removing Suspended Keys
--

abbrev MemberMap (T : Config) :=
  StorageMap T.Member RingPosition

/- Give an included member of the ring its new position. -/
def moveIncluded (ringIndex : RingIndex) (members : MemberMap T) (key : T.Member)
    (newPosition : Nat) : MemberMap T :=
  match members.get key with
  | some (.included memberRing ringPage _) =>
    if ringIndex ≠ memberRing then
      members
    else
      members.insert key (.included memberRing ringPage newPosition)
  | _ => members

/-
  The loop of `remove_suspended_keys` over the keys from position `i` on, with the suspended
  positions that were not met yet.  The flag tells whether every retained key fitted into the new
  page.
-/
def retainKeys (ringIndex : RingIndex) :
    Nat → List Nat → List T.Member → MemberMap T → RingPage T → Bool × MemberMap T × RingPage T
  | _, _, [], members, newKeys => (true, members, newKeys)
  | i, suspended, key :: keys, members, newKeys =>
    if suspended.head? = some i then
      retainKeys ringIndex (i + 1) suspended.tail keys members newKeys
    else
      let members := moveIncluded ringIndex members key newKeys.length
      match newKeys.tryPush key with
      | none => (false, members, newKeys)
      | some newKeys =>
        retainKeys ringIndex (i + 1) suspended keys members newKeys

/- Archive the root of a ring and replace it by the root of the empty ring, one revision later. -/
def resetRoot (s : CollectionStore T) (now : Nat) (ringSize : RingExponent)
    (ringIndex : RingIndex) : CollectionStore T :=
  match s.root.get ringIndex with
  | none => s
  | some root =>
    let emptyIntermediate := T.startMembers ringSize
    { s with
      oldRoots := s.oldRoots.insert (ringIndex, root.revision)
          { root := root.root, archivedAt := now }
      root := s.root.insert ringIndex
          { root := T.finishMembers emptyIntermediate
            revision := saturatingAdd u32Max root.revision 1
            intermediate := emptyIntermediate } }

/- Write the keys that stay in a ring, and count the rest out. -/
def writeRetained (s : CollectionStore T) (ringIndex : RingIndex) (members : MemberMap T)
    (newKeys : RingPage T) : CollectionStore T :=
  let status := s.ringStatus ringIndex
  let newTotal := newKeys.length
  let suspendedCount := status.total - newTotal
  { s with
    members := members
    ringKeysStatus := s.ringKeysStatus.insert ringIndex
        { status with total := newTotal, included := 0 }
    activeMembers := s.activeMembers - suspendedCount
    ringKeys :=
      if newKeys.isEmpty then
        s.ringKeys.remove (ringIndex, 0)
      else s.ringKeys.insert (ringIndex, 0) newKeys }

/-
  Nothing happens when the collection is being deleted.  When a retained key does not fit, only the
  members written so far are kept.
-/
def removeSuspendedKeys (s : CollectionStore T) (now : Nat)
    (ringIndex : RingIndex) : CollectionStore T :=
  match s.collection with
  | none => s
  | some info =>
    let (fits, members, newKeys) := retainKeys ringIndex 0 (s.pending ringIndex)
        (s.page ringIndex 0) s.members .empty
    if fits = false then
      { s with members := members }
    else
      let s₁ := (s.writeRetained ringIndex members newKeys).resetRoot now info.ringSize ringIndex
      { s₁ with
        staleRings :=
          if 0 < newKeys.length then
            insert ringIndex s₁.staleRings
          else s₁.staleRings
        pendingSuspensions := s₁.pendingSuspensions.remove ringIndex }

def shouldRemoveSuspendedKeys (s : CollectionStore T) (ringIndex : RingIndex)
    (checkRingsState : Bool) : Bool :=
  if s.suspendedCollection.isSome then
    false
  else if checkRingsState && !s.ringsState.isAppendOnly then
    false
  else
    s.pending ringIndex ≠ []

def ensureCanRemoveSuspendedKeys (s : CollectionStore T) (ringIndex : RingIndex)
    (revision : Option RevisionIndex) :
    Except Failure Unit := do
  ensure (s.shouldRemoveSuspendedKeys ringIndex true = true) InvalidTransaction.stale
  let currentRevision := s.ringRevision ringIndex
  ensure (revisionLt revision currentRevision = false) InvalidTransaction.stale
  ensure (revisionLt currentRevision revision = false) InvalidTransaction.future

def removeSuspendedKeysAuthorized (s : CollectionStore T) (now : Nat) (ringIndex : RingIndex)
    (revision : Option RevisionIndex) :
    Except Failure (CollectionStore T) := do
  s.ensureCanRemoveSuspendedKeys ringIndex revision
  return s.removeSuspendedKeys now ringIndex

end CollectionStore

end Individuality.MembersPallet
