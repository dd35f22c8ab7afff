import Individuality.MembersPallet.Suspensions
import Individuality.MembersPallet.Deletion
import Individuality.Base.Runs

/-
  The operations of the members pallet, the state of the
  whole pallet, and the reads that other pallets rely on.

  Main declaration: `Op`
-/

namespace Individuality.MembersPallet

variable {T : Config}

namespace CollectionStore

--
-- Creating and Configuring a Collection
--

/-
  Flexible collections are limited in their ring size, so that the keys of a ring fit into one page.
-/
def flexibleSizeAllowed (T : Config) (mode : RingMode) (ringSize : RingExponent) : Prop :=
  mode = .flexible → ringSize.exponent ≤ T.maxFlexibleRingExponent.exponent
      ∧ ringSize.ringCapacity ≤ T.maxFlexibleRingExponent.ringCapacity

instance
    (mode : RingMode)
    (ringSize : RingExponent) :
    Decidable (flexibleSizeAllowed T mode ringSize) :=
  inferInstanceAs (Decidable (_ → _))

def createCollection (s : CollectionStore T) (owner : T.Location) (onboardingSize : Nat)
    (mode : RingMode) (ringSize : RingExponent) (selfInclusionDelay : Option Nat) :
    Except Failure (CollectionStore T) := do
  ensure (s.collection.isSome = false ∧ s.suspendedCollection.isSome = false)
    Error.collectionAlreadyExists
  ensure (s.retired = false) Error.identifierRetired
  ensure (flexibleSizeAllowed T mode ringSize) Error.invalidRingSizeForFlexible
  ensure (onboardingSize ≤ ringSize.ringCapacity) Error.invalidOnboardingSize
  return { s with
    collection := some
        { owner := .external owner
          mode := mode
          ringSize := ringSize
          selfInclusionDelay := selfInclusionDelay }
    onboardingSize := onboardingSize
    ringsState := .appendOnly }

def setOnboardingSize (s : CollectionStore T) (onboardingSize : Nat) :
    Except Failure (CollectionStore T) := do
  let info ← okOr s.collection Error.collectionNotFound
  ensure (onboardingSize ≤ info.ringSize.ringCapacity) Error.invalidOnboardingSize
  return { s with onboardingSize := onboardingSize }

end CollectionStore

--
-- Operations
--

/- The calls of the pallet and the functions it offers to other pallets. -/
inductive Op (T : Config) where
  | createCollection (owner : T.Location) (onboardingSize : Nat) (mode : RingMode)
      (ringSize : RingExponent) (selfInclusionDelay : Option Nat)
  | addMembers (members : List T.Member)
  | removeRing (ringIndex : RingIndex)
  | deleteCollection (owner : T.Location)
  | removeMembers (suspensions : List T.Member)
  | startRemovalSession
  | endRemovalSession
  | mergeRings (baseRingIndex targetRingIndex : RingIndex)
  | setOnboardingSize (onboardingSize : Nat)
  | selfInclude
      (signature : T.Signature)
      (message : T.Message)
      (member : T.Member)
      (callValidAt : Nat)
  | buildRing (chunksReady : Bool) (ringIndex : RingIndex) (ringExponent : RingExponent)
      (revision : Option RevisionIndex) (toInclude : Nat)
  | onboardMembers
      (ringIndex : RingIndex)
      (head : PageIndex)
      (firstMember : Option T.Member)
  | mergeQueuePages (initialHead newHead : PageIndex)
  | removeSuspendedKeys
      (ringIndex : RingIndex)
      (revision : Option RevisionIndex)
  | deleteRingPage (ringIndex : RingIndex) (pageIndex : PageIndex)
  | enqueueRingDeletion (ringIndex : RingIndex)
  | deleteOnboardingQueuePage (pageIndex : PageIndex)
  | finalizeCollectionDeletion
  | removeOrphanedMembers
  | markRingStale (ringIndex : RingIndex)
  | cleanUpOldRoots (ringIndex : RingIndex) (limit : Nat)

/- An operation together with the time at which it runs. -/
structure TimedOp (T : Config) where
  now : Nat
  op : Op T

/-
  The effect of an operation on the storage of its collection.  A failed operation is rolled back.
-/
def CollectionStore.apply (s : CollectionStore T) (call : TimedOp T) :
    Except Failure (CollectionStore T) :=
  let now := call.now
  match call.op with
  | .createCollection owner size mode ringSize delay =>
    s.createCollection owner size mode ringSize delay
  | .addMembers members => s.addMembers now members
  | .removeRing r => s.removeRing now r
  | .deleteCollection owner => s.deleteCollection owner
  | .removeMembers keys => s.queueMemberSuspensions keys
  | .startRemovalSession => s.startRemovalSession
  | .endRemovalSession => s.endRemovalSession
  | .mergeRings base target => s.mergeRings now base target
  | .setOnboardingSize size => s.setOnboardingSize size
  | .selfInclude signature message member callValidAt =>
    s.selfInclude now signature message member callValidAt
  | .buildRing ready r ringExponent revision toInclude =>
    s.buildRingAuthorized now ready r ringExponent revision toInclude
  | .onboardMembers r head firstMember =>
    s.onboardMembersAuthorized r head firstMember
  | .mergeQueuePages initialHead newHead =>
    s.mergeQueuePagesAuthorized initialHead newHead
  | .removeSuspendedKeys r revision =>
    s.removeSuspendedKeysAuthorized now r revision
  | .deleteRingPage r p => s.deleteRingPageAuthorized r p
  | .enqueueRingDeletion r =>
    s.enqueueRingDeletionAuthorized now r
  | .deleteOnboardingQueuePage p =>
    s.deleteOnboardingQueuePageAuthorized p
  | .finalizeCollectionDeletion =>
    s.finalizeCollectionDeletionAuthorized
  | .removeOrphanedMembers =>
    s.removeOrphanedMembersAuthorized
  | .markRingStale r => s.markRingStaleAuthorized r
  | .cleanUpOldRoots r limit =>
    s.cleanUpOldRootsAuthorized now r limit

--
-- The Whole Pallet
--

abbrev OwnerMap (T : Config) :=
  StorageMap (OwnerOf T) (BoundedVec Identifier T.maxCollections)

structure PalletState (T : Config) where
  stores : Identifier → CollectionStore T
  identifiersOf : OwnerMap T

structure PalletOp (T : Config) where
  identifier : Identifier
  call : TimedOp T

namespace PalletState

def genesis : PalletState T where
  stores := fun _ => .empty
  identifiersOf := .empty

/- The identifiers an owner has after an operation. -/
def updateIdentifiers (s : PalletState T) (identifier : Identifier)
    (op : Op T) : Except Failure (OwnerMap T) :=
  match op with
  | .createCollection owner _ _ _ _ => do
    let ids ← okOr ((s.identifiersOf.getD (.external owner) .empty).tryPush identifier)
        Error.tooManyCollections
    return s.identifiersOf.insert (.external owner) ids
  | .finalizeCollectionDeletion =>
    match (s.stores identifier).suspendedCollection with
    | none => .ok s.identifiersOf
    | some info =>
      match s.identifiersOf.get info.owner with
      | none => .ok s.identifiersOf
      | some ids =>
        .ok (s.identifiersOf.insert info.owner (ids.retain (· ≠ identifier)))
  | _ => .ok s.identifiersOf

def dispatch (s : PalletState T) (o : PalletOp T) : Except Failure (PalletState T) := do
  let store ← (s.stores o.identifier).apply o.call
  let ids ← s.updateIdentifiers o.identifier o.call.op
  return {
    stores := Function.update s.stores o.identifier store
    identifiersOf := ids }

/- A successful operation is one on its own collection. -/
theorem dispatch_eq_ok {s s' : PalletState T} {o : PalletOp T} (hDispatch : s.dispatch o = .ok s') :
    ∃ store, (s.stores o.identifier).apply o.call = .ok store ∧
        s'.stores = Function.update s.stores o.identifier store := by
  unfold dispatch at hDispatch
  rw [Except.bind_eq_ok] at hDispatch
  rcases hDispatch with ⟨store, hStore, hRest⟩
  rw [Except.bind_eq_ok] at hRest
  rcases hRest with ⟨ids, _, hOk⟩
  rw [Except.pure_eq_ok] at hOk
  exact ⟨store, hStore, by rw [← hOk]⟩

end PalletState

--
-- Reads for Other Pallets
--

namespace CollectionStore

/- The root of a ring at a revision that is still accepted. -/
def getRootAtRevision (s : CollectionStore T) (now : Nat) (ringIndex : RingIndex)
    (revision : RevisionIndex) : Except Failure T.Members :=
  match s.root.get ringIndex with
  | none => .error Error.noRoot
  | some current =>
    if current.revision = revision then
      .ok current.root
    else
      match s.oldRoots.get (ringIndex, revision) with
      | none => .error Error.noRoot
      | some old =>
        if now < saturatingAdd u64Max old.archivedAt
            T.oldRootRetentionDuration then
          .ok old.root
        else
          .error Error.noRoot

def verifyMembership (s : CollectionStore T) (now : Nat) (proof : T.Proof)
    (ringIndex : RingIndex) (revision : RevisionIndex) (context : Context)
    (msg : T.Message) : Except Failure (Alias × Context) := do
  let info ← okOr s.collection Error.collectionNotFound
  let root ← s.getRootAtRevision now ringIndex revision
  let memberAlias ← okOr (T.validate info.ringSize proof root context msg) Error.invalidProof
  return (memberAlias, context)

def isRevisionValid (s : CollectionStore T) (now : Nat) (ringIndex : RingIndex)
    (revision : RevisionIndex) : Bool :=
  if s.collection.isSome = false then
    false
  else
    match s.root.get ringIndex with
    | none => false
    | some current =>
      if current.revision = revision then
        true
      else
        match s.oldRoots.get (ringIndex, revision) with
        | none => false
        | some old =>
          now < saturatingAdd u64Max old.archivedAt T.oldRootRetentionDuration

end CollectionStore

end Individuality.MembersPallet
