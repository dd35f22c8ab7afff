import Individuality.MembersPallet.Effects

/-
  The effects an operation can have on the rings of a collection.  Every invariant about rings is
  proved by cases on these effects.

  Main declaration: `RingEffect`
-/

namespace Individuality.MembersPallet

variable {T : Config} {s s' : CollectionStore T} {now : Nat} {r : RingIndex}

open CollectionStore

/- The operations that place members into a ring. -/
def Op.addsMembers : Op T → Bool
  | .onboardMembers _ _ _ => true
  | .selfInclude _ _ _ _ => true
  | _ => false

/- The members that an operation places. -/
def membersToAdd (s : CollectionStore T) : Op T → List T.Member
  | .onboardMembers _ _ _ => s.onboardBatch
  | .selfInclude _ _ member _ => [member]
  | _ => []

/- The emptied root a ring has after a removal of its keys. -/
def emptiedRoot (T : Config) (ringSize : RingExponent) (old : RingRoot T) : RingRoot T where
  root := T.finishMembers (T.startMembers ringSize)
  revision := saturatingAdd u32Max old.revision 1
  intermediate := T.startMembers ringSize

inductive RingEffect (s : CollectionStore T) :
    Op T → CollectionStore T → Prop
  | quiet (op : Op T) (head tail : PageIndex) (queue : StorageMap PageIndex (QueuePage T))
      (members : MemberMap T) (stale : Finset RingIndex)
      (oldRoots : StorageMap (RingIndex × RevisionIndex) (OldRoot T)) (size : Nat) :
      RingEffect s op { s with
        queueHead := head
        queueTail := tail
        onboardingQueue := queue
        members := members
        staleRings := stale
        oldRoots := oldRoots
        onboardingSize := size }
  | created (op : Op T) (info : CollectionInfo T) (size : Nat) (hNone : s.collection = none)
      (hSuspended : s.suspendedCollection = none) (hRetired : s.retired = false)
      (hSize : flexibleSizeAllowed T info.mode info.ringSize) :
      RingEffect s op { s with
        collection := some info
        onboardingSize := size
        ringsState := .appendOnly }
  | dropped (op : Op T) (info : CollectionInfo T) (hInfo : s.collection = some info) :
      RingEffect s op { s with
        collection := none
        suspendedCollection := some info
        retired := true }
  | sessionStarted (state : RingMembersState)
      (hState : s.collection = none → state = s.ringsState) :
      RingEffect s .startRemovalSession
        { s with ringsState := state }
  | sessionEnded (state : RingMembersState)
      (hState : s.ringsState.isAppendOnly = true → state = s.ringsState) :
      RingEffect s .endRemovalSession
        { s with ringsState := state }
  | suspended (keys : List T.Member)
      (pendingSuspensions : StorageMap RingIndex
          (BoundedVec Nat T.flexibleRingCapacity))
      (queue : StorageMap PageIndex (QueuePage T))
      (members : MemberMap T)
      (hMutating : s.ringsState.isMutating = true)
      (hFold : keys.foldlM suspendMember s
          = .ok { s with
              pendingSuspensions := pendingSuspensions
              onboardingQueue := queue
              members := members }) :
      RingEffect s (.removeMembers keys) { s with
        pendingSuspensions := pendingSuspensions
        onboardingQueue := queue
        members := members }
  | added (op : Op T) (s' : CollectionStore T) (info : CollectionInfo T) (top : AvailableRing T)
      (hOp : op.addsMembers = true) (hNe : membersToAdd s op ≠ [])
      (hAddition : Addition s s' info top (membersToAdd s op)) :
      RingEffect s op s'
  | built (op : Op T) (info : CollectionInfo T) (r : RingIndex) (toInclude : Nat)
      (i : T.Intermediate) (root : RingRoot T) (stale : Finset RingIndex)
      (oldRoots : StorageMap (RingIndex × RevisionIndex) (OldRoot T)) (immutableSince : Option Nat)
      (hInfo : s.collection = some info)
      (hUnincluded : 0 < toInclude ∧ toInclude ≤
          (s.ringStatus r).total - (s.ringStatus r).included)
      (hFrom : s.root.get r = none ∧ root.revision = 0
            ∧ i = T.startMembers info.ringSize
          ∨ ∃ existing, s.root.get r = some existing
            ∧ existing.revision + 1 ≤ u32Max
            ∧ root.revision = existing.revision + 1
            ∧ i = existing.intermediate)
      (hPush : T.pushMembers info.ringSize i
            (s.collectKeys r toInclude (s.ringStatus r) toInclude []).2
          = some root.intermediate)
      (hFinish : root.root = T.finishMembers root.intermediate) :
      RingEffect s op { s with
        staleRings := stale
        oldRoots := oldRoots
        ringKeysStatus :=
          s.ringKeysStatus.insert r
            { (s.collectKeys r toInclude (s.ringStatus r)
                toInclude []).1 with
              immutableSince := immutableSince }
        root := s.root.insert r root
        rootChanges :=
          s.rootChanges ++ [(r, .built root.revision root.root)] }
  | merged (b t : RingIndex) (info : CollectionInfo T) (f : Filling T)
      (root : StorageMap RingIndex (RingRoot T))
      (oldRoots : StorageMap (RingIndex × RevisionIndex) (OldRoot T))
      (changes : List (RingIndex × RingRootOp T)) (stale : Finset RingIndex)
      (hInfo : s.collection = some info) (hMode : info.mode = .flexible) (hNe : b ≠ t)
      (hBaseNe : b ≠ s.currentRingIndex) (hTargetNe : t ≠ s.currentRingIndex)
      (hBase : s.page b 0 ≠ []) (hTarget : s.page t 0 ≠ [])
      (hLengths :
        (s.page b 0).length + (s.page t 0).length < info.ringSize.ringCapacity)
      (hBasePending : s.pending b = [])
      (hTargetPending : s.pending t = [])
      (hKeys : f.keys.toList = s.page b 0 ++ s.page t 0)
      (hFold : (s.page t 0).foldlM (moveToBase b) ⟨s, 0, s.ringPage b 0⟩ = .ok f)
      (hRoot : ∀ r, root.get r =
          if r = t then none else s.root.get r)
      (hChanges : s.root.get t = none ∧ changes = s.rootChanges
          ∨ s.root.get t ≠ none ∧ changes = s.rootChanges ++ [(t, .deleted)]) :
      RingEffect s (.mergeRings b t) { s with
        members := f.store.members
        ringKeys := (s.ringKeys.insert (b, 0) f.keys).remove (t, 0)
        ringKeysStatus :=
          (s.ringKeysStatus.insert b
            { s.ringStatus b with
              total :=
                saturatingAdd u32Max (s.ringStatus b).total
                  (s.page t 0).length }).remove t
        root := root
        oldRoots := oldRoots
        rootChanges := changes
        staleRings := stale }
  | reset (r : RingIndex) (revision : Option RevisionIndex) (info : CollectionInfo T)
      (root : StorageMap RingIndex (RingRoot T))
      (oldRoots : StorageMap (RingIndex × RevisionIndex) (OldRoot T)) (stale : Finset RingIndex)
      (ringKeys : StorageMap (RingIndex × PageIndex) (RingPage T))
      (hInfo : s.collection = some info) (hPending : s.pending r ≠ [])
      (hRoot : ∀ r', root.get r' =
          if r' = r then
            (s.root.get r).map (emptiedRoot T info.ringSize)
          else s.root.get r')
      (hKeys : ∀ e, (ringKeys.getD e .empty : RingPage T).toList =
          if e = (r, 0) then s.keptKeys r
          else s.page e.1 e.2) :
      RingEffect s (.removeSuspendedKeys r revision) { s with
        members := (retainKeys r 0 (s.pending r) (s.page r 0) s.members .empty).2.1
        ringKeysStatus :=
          s.ringKeysStatus.insert r
            { s.ringStatus r with
              total := (s.keptKeys r).length
              included := 0 }
        activeMembers :=
          s.activeMembers - ((s.ringStatus r).total - (s.keptKeys r).length)
        ringKeys := ringKeys
        root := root
        oldRoots := oldRoots
        staleRings := stale
        pendingSuspensions := s.pendingSuspensions.remove r }
  | enqueued (op : Op T) (r : RingIndex) (root : StorageMap RingIndex (RingRoot T))
      (oldRoots : StorageMap (RingIndex × RevisionIndex) (OldRoot T))
      (changes : List (RingIndex × RingRootOp T)) (stale : Finset RingIndex)
      (hOp : op = .removeRing r ∧ s.collection.isSome = true
            ∧ r ≠ s.currentRingIndex ∧ ¬ s.ringQueued r
          ∨ op = .enqueueRingDeletion r ∧ s.suspendedCollection.isSome = true)
      (hRoot : ∀ r', root.get r' =
          if r' = r then none else s.root.get r')
      (hChanges : s.root.get r = none ∧ changes = s.rootChanges
          ∨ s.root.get r ≠ none ∧ changes = s.rootChanges ++ [(r, .deleted)]) :
      RingEffect s op { s with
        root := root
        oldRoots := oldRoots
        rootChanges := changes
        staleRings := stale
        pendingSuspensions := s.pendingSuspensions.remove r
        ringKeysStatus := s.ringKeysStatus.remove r
        activeMembers := s.activeMembers - (s.ringStatus r).total
        ringDeletionQueue :=
          s.ringDeletionQueue
            ∪ ringPageEntries r
              (pageCount T.flexibleRingCapacity
                (s.ringStatus r).total) }
  | pageDeleted (r : RingIndex) (p : PageIndex) (hMem : (r, p) ∈ s.ringDeletionQueue) :
      RingEffect s (.deleteRingPage r p) { s with
        ringDeletionQueue := s.ringDeletionQueue.erase (r, p)
        members := forgetMembers r p 0 (s.page r p) s.members
        ringKeys := s.ringKeys.remove (r, p) }
  | finalized (hSuspended : s.suspendedCollection.isSome = true)
      (hStatus : ∀ r, s.ringKeysStatus.get r = none) (hQueue : s.ringDeletionQueue = ∅) :
      RingEffect s .finalizeCollectionDeletion { s with
        suspendedCollection := none
        currentRingIndex := 0
        onboardingSize := 0
        activeMembers := 0
        ringsState := .appendOnly
        queueHead := 0
        queueTail := 0 }

theorem RingEffect.same (s : CollectionStore T) (op : Op T) :
    RingEffect s op s :=
  .quiet op s.queueHead s.queueTail s.onboardingQueue
    s.members s.staleRings s.oldRoots s.onboardingSize

theorem ringEffect_of_mergeRings {b t : RingIndex} (hMerge : s.mergeRings now b t = .ok s') :
    RingEffect s (.mergeRings b t) s' := by
  rcases mergeRings_eq_ok hMerge with ⟨info, f, root, oldRoots, changes, stale, hInfo, hMode, _,
      hNe, hBaseNe, hTargetNe, hBase, hTarget, hBaseLt,
      hTargetLt, hBasePending, hTargetPending, hFold, hRoot, hChanges,
      rfl⟩
  exact .merged b t info f root oldRoots changes stale hInfo
    hMode hNe hBaseNe hTargetNe hBase hTarget (by omega)
    hBasePending hTargetPending (moveToBase_foldlM_frame hFold).2 hFold
    hRoot hChanges

variable {revision : Option RevisionIndex}

theorem ringEffect_of_buildRing {ready : Bool} {ringExponent : RingExponent} {toInclude : Nat}
    (hBuild : s.buildRingAuthorized now ready r ringExponent revision toInclude = .ok s') :
    RingEffect s (.buildRing ready r ringExponent revision toInclude)
      s' := by
  rcases buildRingAuthorized_eq_ok hBuild with ⟨_, hLe, hPos, hBuild⟩
  rcases buildRing_eq_ok hBuild with
    ⟨info, next, i, i', stale, oldRoots, immutableSince, hInfo, hFrom, hPush, rfl⟩
  exact .built _ info r toInclude i ⟨T.finishMembers i', next, i'⟩ stale oldRoots
    immutableSince hInfo ⟨hPos, hLe⟩ hFrom hPush rfl

theorem ringEffect_of_removeSuspendedKeys
    (hRemove : s.removeSuspendedKeysAuthorized now r revision = .ok s') :
    RingEffect s (.removeSuspendedKeys r revision) s' := by
  rcases removeSuspendedKeysAuthorized_eq_ok hRemove with ⟨_, _, hPending, rfl⟩
  cases hInfo : s.collection with
  | none =>
    rw [removeSuspendedKeys, hInfo]
    exact .same s _
  | some info =>
    rcases removeSuspendedKeys_eq now r hInfo with
      ⟨root, oldRoots, stale, ringKeys, hRoot, hKeys, hEq⟩
    rw [hEq]
    exact .reset r revision info root oldRoots stale ringKeys hInfo hPending hRoot hKeys

theorem ringEffect_of_enqueue {op : Op T} (now : Nat)
    (hOp : op = .removeRing r ∧ s.collection.isSome = true
          ∧ r ≠ s.currentRingIndex ∧ ¬ s.ringQueued r
        ∨ op = .enqueueRingDeletion r ∧ s.suspendedCollection.isSome = true) :
    RingEffect s op (s.enqueueRingForDeletion now r) := by
  rcases enqueueRingForDeletion_eq s now r with
    ⟨root, oldRoots, changes, stale, hRoot, hChanges, hEq⟩
  rw [hEq]
  exact .enqueued op r root oldRoots changes stale hOp hRoot hChanges

/- Every successful operation has one of the effects. -/
theorem ringEffect_of_apply {call : TimedOp T} (hApply : s.apply call = .ok s') :
    RingEffect s call.op s' := by
  rcases call with ⟨now, op⟩
  cases op with
  | createCollection owner size mode ringSize delay =>
    rcases createCollection_eq_ok hApply with ⟨hNone, hSuspended, hRetired, hSize, rfl⟩
    exact .created _ ⟨.external owner, mode, ringSize, delay⟩ size hNone hSuspended hRetired hSize
  | addMembers keys =>
    rcases addMembers_frame hApply with ⟨_, _, _, rfl⟩
    exact .quiet ..
  | removeRing r =>
    rcases removeRing_eq_ok hApply with ⟨hLive, hNe, ⟨_, rfl⟩ | ⟨hQueued, rfl⟩⟩
    · exact .same s' _
    · exact ringEffect_of_enqueue now (Or.inl ⟨rfl, hLive, hNe, hQueued⟩)
  | deleteCollection owner =>
    rcases deleteCollection_eq_ok hApply with ⟨info, hInfo, rfl⟩
    exact .dropped _ info hInfo
  | removeMembers keys =>
    rcases queueMemberSuspensions_frame hApply with ⟨pending, queue, members, rfl⟩
    rcases queueMemberSuspensions_eq_ok hApply with ⟨hMutating, hFold⟩
    exact .suspended keys pending queue members hMutating hFold
  | startRemovalSession =>
    rcases startRemovalSession_eq_ok hApply with ⟨state, rfl, hState⟩
    exact .sessionStarted state hState
  | endRemovalSession =>
    rcases endRemovalSession_eq_ok hApply with ⟨state, rfl, hState⟩
    exact .sessionEnded state hState
  | mergeRings b t => exact ringEffect_of_mergeRings hApply
  | setOnboardingSize size =>
    rw [setOnboardingSize_eq_ok hApply]
    exact .quiet ..
  | selfInclude signature message member callValidAt =>
    rcases addition_of_doSelfInclude (selfInclude_eq_ok hApply) with ⟨info, top, hAddition⟩
    exact .added _ s' info top rfl (List.cons_ne_nil _ _) hAddition
  | buildRing ready r ringExponent revision toInclude =>
    exact ringEffect_of_buildRing hApply
  | onboardMembers r head first =>
    rcases onboardMembersAuthorized_eq_ok hApply with ⟨b, hOnboard⟩
    rcases addition_of_onboardMembers hOnboard with ⟨info, top, hPos, hAddition⟩
    exact .added _ s' info top rfl hPos hAddition
  | mergeQueuePages h h' =>
    rcases mergeQueuePages_frame (mergeQueuePagesAuthorized_eq_ok hApply).2.2.2 with ⟨_, _, _, rfl⟩
    exact .quiet ..
  | removeSuspendedKeys r revision =>
    exact ringEffect_of_removeSuspendedKeys hApply
  | deleteRingPage r p =>
    rcases deleteRingPageAuthorized_eq_ok hApply with ⟨hMem, rfl⟩
    exact .pageDeleted r p hMem
  | enqueueRingDeletion r =>
    rcases enqueueRingDeletionAuthorized_eq_ok hApply with ⟨hSuspended, rfl⟩
    exact ringEffect_of_enqueue now (Or.inr ⟨rfl, hSuspended⟩)
  | deleteOnboardingQueuePage p =>
    rcases deleteOnboardingQueuePageAuthorized_eq_ok hApply with ⟨_, _, _, rfl⟩
    exact .quiet ..
  | finalizeCollectionDeletion =>
    rcases finalizeCollectionDeletion_eq_ok hApply with ⟨hSuspended, hStatus, hQueue, rfl⟩
    exact .finalized hSuspended hStatus hQueue
  | removeOrphanedMembers =>
    rcases removeOrphanedMembers_eq_ok hApply with ⟨_, _, rfl⟩
    exact .quiet ..
  | markRingStale r =>
    rw [markRingStale_eq_ok hApply]
    exact .quiet ..
  | cleanUpOldRoots r limit =>
    rcases cleanUpOldRoots_eq_ok hApply with ⟨_, rfl⟩
    exact .quiet ..

end Individuality.MembersPallet
