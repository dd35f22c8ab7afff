import Individuality.MembersPallet.Types
import Individuality.Base.Cyclic

/-
  The onboarding queue of a collection: adding members,
  merging the two pages at its front and deleting its pages.

  Main declaration: `nextQueuePage`
-/

namespace Individuality.MembersPallet

/- `checked_add(1).unwrap_or(0)` on a `u32` page index. -/
def nextQueuePage (p : PageIndex) : PageIndex :=
  (checkedAdd u32Max p 1).getD 0

/- The number of page indices a `u32` can hold. -/
abbrev pageIndexCount : Nat := u32Max + 1

theorem nextQueuePage_eq_cyclicNext (p : PageIndex) :
    nextQueuePage p = cyclicNext pageIndexCount p := by
  unfold nextQueuePage checkedAdd cyclicNext pageIndexCount
  by_cases h : p + 1 ≤ u32Max
  · simp [h, Nat.lt_succ_of_le h]
  · simp [h, Nat.not_lt.mpr (Nat.succ_le_of_lt (Nat.lt_of_not_le h))]

variable {T : Config}

namespace CollectionStore

--
-- Adding Members
--

/- Write a page that ends with `key` at the tail. -/
def writeQueueTail (s : CollectionStore T) (now : Nat) (tail : PageIndex) (keys : QueuePage T)
    (key : T.Member) : CollectionStore T :=
  { s with
    queueTail := tail
    onboardingQueue := s.onboardingQueue.insert tail keys
    members := s.members.insert key (.onboarding tail now) }

def pushToOnboardingQueue (s : CollectionStore T) (now : Nat) (key : T.Member) :
    Except Failure (CollectionStore T) :=
  match (s.queueBlock s.queueTail).tryPush key with
  | some keys =>
    .ok (s.writeQueueTail now s.queueTail keys key)
  | none => do
    let tail := nextQueuePage s.queueTail
    ensure (tail ≠ s.queueHead) Error.tooManyMembers
    let keys ← okOr (BoundedVec.ofList? [key]) .panic
    return s.writeQueueTail now tail keys key

/- One pass of the loop of `add_members`. -/
def addMember (now : Nat) (s : CollectionStore T) (member : T.Member) :
    Except Failure (CollectionStore T) :=
  match s.members.get member with
  | none => do
    ensure (T.isMemberValid member = true) Error.invalidMemberKey
    s.pushToOnboardingQueue now member
  | some .suspended => s.pushToOnboardingQueue now member
  | some _ => .error Error.keyAlreadyInUse

def addMembers (s : CollectionStore T) (now : Nat) (members : List T.Member) :
    Except Failure (CollectionStore T) := do
  let _ ← okOr s.collection Error.collectionNotFound
  members.foldlM (addMember now) s

--
-- Merging the Front Pages
--

inductive QueueMergeAction (T : Config) where
  | merge (initialHead newHead : PageIndex) (firstKeyPage secondKeyPage : QueuePage T)
  | noAction

def shouldMergeQueuePages (s : CollectionStore T) : QueueMergeAction T :=
  if s.suspendedCollection.isSome then
    .noAction
  else if s.queueHead = s.queueTail then
    .noAction
  else
    let newHead := nextQueuePage s.queueHead
    let first := s.queueBlock s.queueHead
    let second := s.queueBlock newHead
    if T.onboardingQueuePageSize < first.length + second.length
    then .noAction
    else .merge s.queueHead newHead first second

def ensureCanMergeQueuePages (s : CollectionStore T) (initialHead newHead : PageIndex) :
    Except Failure Unit :=
  match s.shouldMergeQueuePages with
  | .merge currentHead currentNewHead _ _ =>
    ensure (initialHead = currentHead ∧ newHead = currentNewHead) InvalidTransaction.stale
  | .noAction => .error InvalidTransaction.stale

/- Move a queued key to the page `newHead`. -/
def moveQueued (newHead : PageIndex) (s : CollectionStore T) (key : T.Member) :
    Except Failure (CollectionStore T) :=
  match s.members.get key with
  | none => .error Error.keyNotFound
  | some (.onboarding _ queuedAt) =>
    .ok
      { s with
        members := s.members.insert key (.onboarding newHead queuedAt) }
  | some _ => .ok s

def mergeQueuePages (s : CollectionStore T) (initialHead newHead : PageIndex)
    (firstKeyPage secondKeyPage : QueuePage T) :
    Except Failure (CollectionStore T) := do
  let s ← firstKeyPage.toList.foldlM (moveQueued newHead) s
  let keys ← okOr (firstKeyPage.tryExtend secondKeyPage.toList) Error.tooManyMembers
  return { s with
    onboardingQueue := (s.onboardingQueue.remove initialHead).insert newHead keys
    queueHead := newHead }

def mergeQueuePagesAuthorized (s : CollectionStore T) (initialHead newHead : PageIndex) :
    Except Failure (CollectionStore T) := do
  s.ensureCanMergeQueuePages initialHead newHead
  s.mergeQueuePages initialHead newHead (s.queueBlock initialHead) (s.queueBlock newHead)

--
-- Deleting the Queue of a Deleted Collection
--

def ensureCanDeleteOnboardingQueuePage (s : CollectionStore T)
    (q : PageIndex) : Except Failure Unit := do
  ensure (s.suspendedCollection.isSome) InvalidTransaction.stale
  ensure (s.ringKeysStatus.isEmpty = true) InvalidTransaction.future
  ensure (s.ringDeletionQueue = ∅) InvalidTransaction.future
  ensure (s.onboardingQueue.containsKey q = true) InvalidTransaction.stale

def deleteOnboardingQueuePage (s : CollectionStore T) (q : PageIndex) : CollectionStore T :=
  { s with
    onboardingQueue := s.onboardingQueue.remove q
    members := (s.queuePage q).foldl (·.remove ·) s.members }

def deleteOnboardingQueuePageAuthorized (s : CollectionStore T) (q : PageIndex) :
    Except Failure (CollectionStore T) := do
  s.ensureCanDeleteOnboardingQueuePage q
  return s.deleteOnboardingQueuePage q

end CollectionStore

end Individuality.MembersPallet
