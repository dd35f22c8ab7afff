import Individuality.MembersPallet.Types
import Individuality.MembersPallet.Queue

/-
  Rings of a collection: placing members into the ring that
  is being populated, building ring roots, and merging rings.

  Main declaration: `CollectionStore.availableRing`
-/

namespace Individuality.MembersPallet

variable {T : Config}

namespace CollectionStore

--
-- The Ring That Accepts Members
--

/- The place for the next addition, and a ring status. -/
structure AvailableRing (T : Config) where
  ringIndex : RingIndex
  pageIndex : PageIndex
  keys : RingPage T
  status : RingStatus

/- The available ring, read without moving the ring index. -/
def topRing (s : CollectionStore T) : AvailableRing T :=
  let status := s.ringStatus s.currentRingIndex
  let pageIndex := status.total / T.flexibleRingCapacity
  { ringIndex := s.currentRingIndex
    pageIndex := pageIndex
    keys := s.ringPage s.currentRingIndex pageIndex
    status := status }

def AvailableRing.isFull (a : AvailableRing T) (maxRingSize : Nat) : Prop :=
  maxRingSize ≤ a.pageIndex * T.flexibleRingCapacity + a.keys.length

instance
    (a : AvailableRing T)
    (maxRingSize : Nat) :
    Decidable (a.isFull maxRingSize) :=
  inferInstanceAs (Decidable (_ ≤ _))

/-
  The available ring.  When the current ring is full, the ring index moves on, but the status stays
  the one of the full ring.
-/
def availableRing (s : CollectionStore T) (maxRingSize : Nat) :
    CollectionStore T × AvailableRing T :=
  let top := s.topRing
  if top.isFull maxRingSize then
    let next := saturatingAdd u32Max s.currentRingIndex 1
    ({ s with currentRingIndex := next },
      { ringIndex := next
        pageIndex := 0
        keys := s.ringPage next 0
        status := top.status })
  else
    (s, top)

--
-- Onboarding
--

/-
  The number of members to onboard and whether they fill the
  ring, when the conditions for onboarding are met.
-/
def shouldOnboardMembers (s : CollectionStore T) (ringIndex : RingIndex) (status : RingStatus)
    (openSlots availableForInclusion : Nat) (onboardingSize maxRingSize : Nat) :
    Option (Nat × Bool) :=
  if s.suspendedCollection.isSome then
    none
  else if s.ringsState.isAppendOnly = false then
    none
  else if s.pendingSuspensions.containsKey ringIndex then
    none
  else
    let toInclude := min availableForInclusion openSlots
    if toInclude = 0 then
      none
    else
      let canOnboardWithCohort : Bool := onboardingSize ≤ toInclude
          ∧ saturatingAdd u32Max status.total toInclude ≤ maxRingSize - onboardingSize
      let ringFilled : Bool := openSlots = toInclude
      if ringFilled || canOnboardWithCohort then
        some (toInclude, ringFilled)
      else
        none

/- A store and the open page of the ring it is filling. -/
structure Filling (T : Config) where
  store : CollectionStore T
  pageIndex : PageIndex
  keys : RingPage T

/- One pass of the loop of `onboard_members`. -/
def placeKey (ringIndex : RingIndex) (f : Filling T)
    (key : T.Member) : Except Failure (Filling T) := do
  ensure (f.store.members.containsKey key = true) Error.keyNotFound
  let position := .included ringIndex f.pageIndex f.keys.length
  let s :=
    { f.store with
      members := f.store.members.insert key position }
  let keys ← okOr (f.keys.tryPush key) Error.tooManyMembers
  if T.flexibleRingCapacity ≤ keys.length then
    let s :=
      { s with
        ringKeys := s.ringKeys.insert (ringIndex, f.pageIndex) keys }
    let pageIndex := saturatingAdd u32Max f.pageIndex 1
    return ⟨s, pageIndex, s.ringPage ringIndex pageIndex⟩
  else
    return ⟨s, f.pageIndex, keys⟩

def placeKeys (ringIndex : RingIndex) (f : Filling T)
    (keys : List T.Member) : Except Failure (Filling T) :=
  keys.foldlM (placeKey ringIndex) f

/- Write the open page, unless no key was added to it. -/
def Filling.close (f : Filling T) (ringIndex : RingIndex) : CollectionStore T :=
  if f.keys.isEmpty then
    f.store
  else
    { f.store with
      ringKeys := f.store.ringKeys.insert (ringIndex, f.pageIndex) f.keys }

/-
  The keys at the front of the queue, from one page or from
  two, and the page the last of them came from.
-/
def queueFront (s : CollectionStore T) (openSlots : Nat) : PageIndex × List T.Member :=
  let first := s.queuePage s.queueHead
  if first.length < openSlots ∧ s.queueHead ≠ s.queueTail then
    let head := nextQueuePage s.queueHead
    (head, first ++ s.queuePage head)
  else
    (s.queueHead, first)

/-
  Count `added` members of the available ring, mark the ring
  as stale, and move on to the next ring when it is filled.
-/
def recordAdditions (s : CollectionStore T) (top : AvailableRing T) (added : Nat)
    (ringFilled : Bool) : CollectionStore T :=
  { s with
    activeMembers := saturatingAdd u32Max s.activeMembers added
    ringKeysStatus := s.ringKeysStatus.insert top.ringIndex
        { top.status with
          total := saturatingAdd u32Max top.status.total added }
    staleRings := insert top.ringIndex s.staleRings
    currentRingIndex :=
      if ringFilled then
        saturatingAdd u32Max s.currentRingIndex 1
      else s.currentRingIndex }

/- Put the keys that were not onboarded back. -/
def restoreQueue (s : CollectionStore T) (head : PageIndex) (remainingKeys : List T.Member) :
    Except Failure (CollectionStore T) :=
  let oldHead := s.queueHead
  if T.onboardingQueuePageSize < remainingKeys.length then do
    let splitIdx := remainingKeys.length - T.onboardingQueuePageSize
    let first ← okOr (BoundedVec.ofList? (remainingKeys.take splitIdx)) .panic
    let second ← okOr (BoundedVec.ofList? (remainingKeys.drop splitIdx)) .panic
    return { s with
      onboardingQueue := (s.onboardingQueue.insert oldHead first).insert head second }
  else if remainingKeys ≠ [] then do
    let keys ← okOr (BoundedVec.ofList? remainingKeys) .panic
    return { s with
      onboardingQueue := (s.onboardingQueue.remove oldHead).insert head keys
      queueHead := head }
  else
    .ok { s with
      onboardingQueue := (s.onboardingQueue.remove head).remove oldHead
      queueHead :=
        if head ≠ s.queueTail then nextQueuePage head
        else head }

/-
  Onboard members into the available ring.  The flag tells whether a group was onboarded; without
  one, nothing is written.
-/
def onboardMembers (s : CollectionStore T) (mustBuild : Bool) :
    Except Failure (Bool × CollectionStore T) := do
  let info ← okOr s.collection Error.collectionNotFound
  let maxRingSize := info.ringSize.ringCapacity
  let (s₁, top) := s.availableRing maxRingSize
  let openSlots := maxRingSize - (top.keys.length + top.pageIndex * T.flexibleRingCapacity)
  let (head, front) := s₁.queueFront openSlots
  match
    s₁.shouldOnboardMembers top.ringIndex top.status
      openSlots front.length s₁.onboardingSize maxRingSize
  with
  | none =>
    if mustBuild then .error Error.prematureOnboarding
    else return (false, s)
  | some (toInclude, ringFilled) => do
    let f ← placeKeys top.ringIndex ⟨s₁, top.pageIndex, top.keys⟩ (front.take toInclude)
    let s₂ := (f.close top.ringIndex).recordAdditions top toInclude ringFilled
    let s₃ ← s₂.restoreQueue head (front.drop toInclude)
    return (true, s₃)

/- The checks of `onboard_members`, with cheaper reads. -/
def canOnboardMembers (s : CollectionStore T) (ringIndex : RingIndex) (head : PageIndex) : Bool :=
  match s.collection with
  | none => false
  | some info =>
    let maxRingSize := info.ringSize.ringCapacity
    let status := s.ringStatus ringIndex
    let openSlots := maxRingSize - status.total
    let firstPageLen := (s.queuePage head).length
    let availableForInclusion :=
      if firstPageLen < openSlots ∧ head ≠ s.queueTail then
        saturatingAdd u32Max firstPageLen (s.queuePage (nextQueuePage head)).length
      else firstPageLen
    (s.shouldOnboardMembers ringIndex status openSlots availableForInclusion s.onboardingSize
      maxRingSize).isSome

def ensureCanOnboardMembers (s : CollectionStore T) (ringIndex : RingIndex) (head : PageIndex)
    (firstMember : Option T.Member) :
    Except Failure Unit := do
  ensure (ringIndex = s.currentRingIndex) InvalidTransaction.stale
  ensure (head = s.queueHead) InvalidTransaction.stale
  ensure (s.canOnboardMembers ringIndex head = true) InvalidTransaction.stale
  ensure (firstMember = (s.queuePage head).head?) InvalidTransaction.stale

def onboardMembersAuthorized (s : CollectionStore T) (ringIndex : RingIndex) (head : PageIndex)
    (firstMember : Option T.Member) :
    Except Failure (CollectionStore T) := do
  s.ensureCanOnboardMembers ringIndex head firstMember
  let (_, s') ← s.onboardMembers true
  return s'

--
-- Self-Inclusion
--

/- Take the key at `idx` out of a page of the queue. -/
def removeFromQueuePage (s : CollectionStore T) (queuePage : PageIndex)
    (idx : Nat) : CollectionStore T :=
  let keys := (s.queueBlock queuePage).eraseIdx idx
  if keys.isEmpty then
    { s with
      onboardingQueue := s.onboardingQueue.remove queuePage
      queueHead :=
        if s.queueHead = queuePage ∧ s.queueHead ≠ s.queueTail
        then nextQueuePage queuePage
        else s.queueHead }
  else
    { s with
      onboardingQueue := s.onboardingQueue.insert queuePage keys }

def doSelfInclude (s : CollectionStore T) (member : T.Member) :
    Except Failure (CollectionStore T) := do
  let info ← okOr s.collection Error.collectionNotFound
  let maxRingSize := info.ringSize.ringCapacity
  ensure (s.ringsState.isAppendOnly = true) Error.removalSessionInProgress
  let position ← okOr (s.members.get member) Error.notMember
  match position with
  | .onboarding queuePage _ => do
    let idx ← okOr ((s.queuePage queuePage).idxOf? member) Error.keyNotFound
    let s₁ := s.removeFromQueuePage queuePage idx
    let (s₂, top) := s₁.availableRing maxRingSize
    let keys ← okOr (top.keys.tryPush member) Error.tooManyMembers
    let s₃ := { s₂ with
      ringKeys := s₂.ringKeys.insert (top.ringIndex, top.pageIndex) keys
      members := s₂.members.insert member (.included top.ringIndex top.pageIndex top.keys.length) }
    return s₃.recordAdditions top 1 (maxRingSize ≤ saturatingAdd u32Max top.status.total 1)
  | _ => .error Error.notOnboarding

/- The tolerance for `call_valid_at`, in seconds. -/
def selfInclusionTimeTolerance : Nat := 600

/-
  `self_include` as it is dispatched: the checks of the `AsMember` extension, then the inclusion.
-/
def selfInclude (s : CollectionStore T) (now : Nat) (signature : T.Signature)
    (message : T.Message) (member : T.Member) (callValidAt : Nat) :
    Except Failure (CollectionStore T) := do
  ensure (callValidAt ≤ now) InvalidTransaction.future
  ensure (now ≤ saturatingAdd u64Max callValidAt selfInclusionTimeTolerance)
    InvalidTransaction.stale
  let info ← okOr s.collection (InvalidTransaction.custom 201)
  let delay ← okOr info.selfInclusionDelay (InvalidTransaction.custom 202)
  ensure (s.ringsState.isAppendOnly = true) (InvalidTransaction.custom 203)
  let position ← okOr (s.members.get member) (InvalidTransaction.custom 204)
  match position with
  | .onboarding _ queuedAt => do
    ensure (saturatingAdd u64Max queuedAt delay ≤ now) (InvalidTransaction.custom 206)
    ensure (T.verifySignature signature message member = true) InvalidTransaction.badProof
    s.doSelfInclude member
  | _ => .error (InvalidTransaction.custom 205)

--
-- Building Ring Roots
--

/-
  The loop of `build_ring`: gather up to `toInclude` keys that are not included yet, page by page.
  Every pass but the last takes at least one key, so `toInclude` passes are enough.
-/
def collectKeys (s : CollectionStore T) (ringIndex : RingIndex) :
    Nat → RingStatus → Nat → List T.Member → RingStatus × List T.Member
  | 0, status, _, keysToPush => (status, keysToPush)
  | passes + 1, status, toInclude, keysToPush =>
    if toInclude = 0 then
      (status, keysToPush)
    else
      let pageSize := T.flexibleRingCapacity
      let workingPage := status.included / pageSize
      let keys := s.page ringIndex workingPage
      let includedInPage := status.included % pageSize
      let unincludedLeftInPage := min (status.total - status.included) (pageSize - includedInPage)
      let toPush := min toInclude unincludedLeftInPage
      if toPush = 0 then
        (status, keysToPush)
      else
        collectKeys s ringIndex passes
          { status with
            included := saturatingAdd u32Max status.included toPush }
          (toInclude - toPush)
          (keysToPush ++ (keys.drop includedInPage).take toPush)

def shouldBuildRing (s : CollectionStore T) (ringIndex : RingIndex) (limit : Nat) : Option Nat :=
  if s.suspendedCollection.isSome then
    none
  else if s.ringsState.isAppendOnly = false then
    none
  else if s.pendingSuspensions.containsKey ringIndex then
    none
  else
    let status := s.ringStatus ringIndex
    let toInclude := min (status.total - status.included) limit
    if toInclude = 0 then none else some toInclude

/- The revision of the next build, and where it starts from. -/
def nextBuild (s : CollectionStore T) (ringSize : RingExponent) (ringIndex : RingIndex) :
    Except Failure (RevisionIndex × T.Intermediate) :=
  match s.root.get ringIndex with
  | some existing => do
    let next ← okOr (checkedAdd u32Max existing.revision 1) .overflow
    return (next, existing.intermediate)
  | none => .ok (0, T.startMembers ringSize)

/-
  Build a ring root.  `chunksReady` tells whether the chunks
  manager has the chunks of the ring exponent.
-/
def buildRing (s : CollectionStore T) (now : Nat) (chunksReady : Bool) (ringIndex : RingIndex)
    (toInclude : Nat) :
    Except Failure (CollectionStore T) := do
  let info ← okOr s.collection Error.collectionNotFound
  let (nextRevision, intermediate) ← s.nextBuild info.ringSize ringIndex
  let (status, keysToPush) := s.collectKeys ringIndex toInclude
      (s.ringStatus ringIndex) toInclude []
  ensure (chunksReady = true) Error.couldNotPush
  let intermediate ← okOr (T.pushMembers info.ringSize intermediate keysToPush) Error.couldNotPush
  let status :=
    if status.included = status.total
        ∧ info.mode = .appendOnly
        ∧ status.total = info.ringSize.ringCapacity then
      { status with immutableSince := some now }
    else status
  let root := T.finishMembers intermediate
  let s₁ := { s with
    staleRings :=
      if status.included = status.total then
        s.staleRings.erase ringIndex
      else s.staleRings
    ringKeysStatus := s.ringKeysStatus.insert ringIndex status
    root := s.root.insert ringIndex
        { root := root
          revision := nextRevision
          intermediate := intermediate }
    oldRoots :=
      match s.root.get ringIndex with
      | some existing =>
        s.oldRoots.insert (ringIndex, existing.revision)
          { root := existing.root, archivedAt := now }
      | none => s.oldRoots }
  return s₁.onRingRootChange ringIndex (.built nextRevision root)

/- `None` is before every revision. -/
def revisionLt : Option Nat → Option Nat → Bool
  | none, none => false
  | none, some _ => true
  | some _, none => false
  | some a, some b => a < b

def ensureCanBuildRing (s : CollectionStore T) (ringIndex : RingIndex)
    (ringExponent : RingExponent) (revision : Option RevisionIndex)
    (toInclude : Nat) : Except Failure Unit := do
  let info ← okOr s.collection InvalidTransaction.stale
  ensure (info.ringSize = ringExponent) InvalidTransaction.stale
  ensure (revisionLt revision (s.ringRevision ringIndex) = false) InvalidTransaction.stale
  let pendingInclusion ← okOr (s.shouldBuildRing ringIndex
      T.ringBuildingMemberLimit) InvalidTransaction.stale
  ensure (toInclude ≠ 0 ∧ toInclude ≤ pendingInclusion) InvalidTransaction.stale

/-
  A revision ahead of the stored one passes: it only orders
  the transaction behind the earlier builds in the pool.
-/
def buildRingAuthorized (s : CollectionStore T) (now : Nat) (chunksReady : Bool)
    (ringIndex : RingIndex) (ringExponent : RingExponent) (revision : Option RevisionIndex)
    (toInclude : Nat) :
    Except Failure (CollectionStore T) := do
  s.ensureCanBuildRing ringIndex ringExponent revision toInclude
  s.buildRing now chunksReady ringIndex toInclude

def ensureCanMarkRingStale (s : CollectionStore T)
    (ringIndex : RingIndex) : Except Failure Unit := do
  ensure (s.suspendedCollection.isSome = false) InvalidTransaction.stale
  ensure (ringIndex ∉ s.staleRings) InvalidTransaction.stale
  ensure ((s.ringStatus ringIndex).included < (s.ringStatus ringIndex).total)
    InvalidTransaction.stale

def markRingStaleAuthorized (s : CollectionStore T) (ringIndex : RingIndex) :
    Except Failure (CollectionStore T) := do
  s.ensureCanMarkRingStale ringIndex
  return { s with staleRings := insert ringIndex s.staleRings }

--
-- Archived Roots
--

/- Move the current root to the old roots.  The flag tells whether there was one. -/
def archiveRoot (s : CollectionStore T) (now : Nat)
    (ringIndex : RingIndex) : Bool × CollectionStore T :=
  match s.root.get ringIndex with
  | none => (false, s)
  | some root =>
    (true,
      { s with
        root := s.root.remove ringIndex
        oldRoots := s.oldRoots.insert (ringIndex, root.revision)
            { root := root.root, archivedAt := now } })

/- Archive the root and notify of the deletion if it existed. -/
def deleteRoot (s : CollectionStore T) (now : Nat) (ringIndex : RingIndex) : CollectionStore T :=
  match s.archiveRoot now ringIndex with
  | (true, s') => s'.onRingRootChange ringIndex .deleted
  | (false, s') => s'

--
-- Merging Rings
--

/- One pass of the loop of `merge_rings`. -/
def moveToBase (baseRingIndex : RingIndex) (f : Filling T)
    (key : T.Member) : Except Failure (Filling T) := do
  ensure (f.store.members.containsKey key = true) Error.notMember
  let position := .included baseRingIndex 0 f.keys.length
  let s :=
    { f.store with
      members := f.store.members.insert key position }
  let keys ← okOr (f.keys.tryPush key) Error.tooManyMembers
  return ⟨s, f.pageIndex, keys⟩

def mergeRings (s : CollectionStore T) (now : Nat) (baseRingIndex targetRingIndex : RingIndex) :
    Except Failure (CollectionStore T) := do
  let info ← okOr s.collection Error.collectionNotFound
  let maxRingSize := info.ringSize.ringCapacity
  ensure (info.mode = .flexible) Error.collectionNotFlexible
  ensure (s.ringsState.isAppendOnly = true) Error.removalSessionInProgress
  ensure (baseRingIndex ≠ targetRingIndex ∧ baseRingIndex ≠ s.currentRingIndex
      ∧ targetRingIndex ≠ s.currentRingIndex)
    Error.invalidRing
  let baseKeys := s.ringPage baseRingIndex 0
  let baseStatus := s.ringStatus baseRingIndex
  ensure (baseKeys.isEmpty = false) Error.invalidRing
  ensure (baseKeys.length < maxRingSize / 2) Error.ringAboveMergeThreshold
  ensure (s.pending baseRingIndex = []) Error.suspensionsPending
  let targetKeys := s.ringPage targetRingIndex 0
  ensure (targetKeys.isEmpty = false) Error.invalidRing
  ensure (targetKeys.length < maxRingSize / 2) Error.ringAboveMergeThreshold
  ensure (s.pending targetRingIndex = []) Error.suspensionsPending
  let total := saturatingAdd u32Max baseStatus.total targetKeys.length
  let f ← targetKeys.toList.foldlM (moveToBase baseRingIndex) ⟨s, 0, baseKeys⟩
  let s₁ := { f.store with
    ringKeys := f.store.ringKeys.insert (baseRingIndex, 0) f.keys
    ringKeysStatus := f.store.ringKeysStatus.insert baseRingIndex
        { baseStatus with total := total } }
  let s₂ := s₁.deleteRoot now targetRingIndex
  return { s₂ with
    staleRings := (insert baseRingIndex s₂.staleRings).erase targetRingIndex
    ringKeys := s₂.ringKeys.remove (targetRingIndex, 0)
    ringKeysStatus := s₂.ringKeysStatus.remove targetRingIndex }

end CollectionStore

end Individuality.MembersPallet
