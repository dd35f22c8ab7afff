import Individuality.MembersPallet.Effects

/-
  Which operations read and write the current and the archived roots: most do neither, and the
  others archive the root of one ring without reading the archive.

  Main declaration: `CollectionStore.withRoots`
-/

namespace Individuality.MembersPallet

variable {T : Config}

abbrev RootMap (T : Config) :=
  StorageMap RingIndex (RingRoot T)

abbrev OldRootMap (T : Config) :=
  StorageMap (RingIndex × RevisionIndex) (OldRoot T)

/- The operation removes archived roots. -/
def Op.cleansUp : Op T → Bool
  | .cleanUpOldRoots _ _ => true
  | _ => false

namespace CollectionStore

def withRoots (root : RootMap T) (oldRoots : OldRootMap T)
    (s : CollectionStore T) : CollectionStore T :=
  { s with root := root, oldRoots := oldRoots }

def withOldRoots (oldRoots : OldRootMap T) (s : CollectionStore T) : CollectionStore T :=
  { s with oldRoots := oldRoots }

def Filling.withRoots (root : RootMap T) (oldRoots : OldRootMap T) (f : Filling T) : Filling T :=
  { f with store := f.store.withRoots root oldRoots }

--
-- Operations That Leave the Roots Alone
--

section Frames

variable (s : CollectionStore T) (root : RootMap T) (old : OldRootMap T)

theorem createCollection_withRoots (owner : T.Location) (size : Nat) (mode : RingMode)
    (ringSize : RingExponent) (delay : Option Nat) :
    (s.withRoots root old).createCollection owner size mode ringSize delay
      = withRoots root old <$> s.createCollection owner size mode ringSize
          delay := by
  simp only [createCollection, map_bind]
  rfl

theorem setOnboardingSize_withRoots (size : Nat) :
    (s.withRoots root old).setOnboardingSize size
      = withRoots root old <$> s.setOnboardingSize size := by
  simp only [setOnboardingSize, map_bind]
  rfl

theorem deleteCollection_withRoots (owner : T.Location) :
    (s.withRoots root old).deleteCollection owner
      = withRoots root old <$> s.deleteCollection owner := by
  simp only [deleteCollection, map_bind]
  rfl

theorem startRemovalSession_withRoots :
    (s.withRoots root old).startRemovalSession = withRoots root old <$> s.startRemovalSession := by
  change (if s.collection.isSome then _ else _) = _
  unfold startRemovalSession
  split
  · simp only [map_bind]
    rfl
  · rfl

theorem endRemovalSession_withRoots :
    (s.withRoots root old).endRemovalSession = withRoots root old <$> s.endRemovalSession := by
  change (if s.collection.isSome then _ else _) = _
  unfold endRemovalSession
  split
  · simp only [map_bind]
    rfl
  · rfl

theorem pushToOnboardingQueue_withRoots (now : Nat) (key : T.Member) :
    (s.withRoots root old).pushToOnboardingQueue now key
      = withRoots root old <$> s.pushToOnboardingQueue now key := by
  have hBlock : (s.withRoots root old).queueBlock (s.withRoots root old).queueTail
      = s.queueBlock s.queueTail := rfl
  unfold pushToOnboardingQueue
  rw [hBlock]
  cases (s.queueBlock s.queueTail).tryPush key with
  | some keys => rfl
  | none =>
    simp only [map_bind]
    rfl

theorem addMember_withRoots (now : Nat) (key : T.Member) :
    addMember now (s.withRoots root old) key = withRoots root old <$> addMember now s key := by
  have hMembers : (s.withRoots root old).members = s.members := rfl
  unfold addMember
  rw [hMembers]
  cases s.members.get key with
  | none =>
    simp only [map_bind, pushToOnboardingQueue_withRoots]
  | some position =>
    cases position with
    | suspended =>
      exact pushToOnboardingQueue_withRoots _ _ _ _ _
    | onboarding q t => rfl
    | included r p i => rfl

theorem addMembers_withRoots (now : Nat) (keys : List T.Member) :
    (s.withRoots root old).addMembers now keys = withRoots root old <$> s.addMembers now keys := by
  have hFold := List.foldlM_map_state (fun s key => addMember_withRoots s root old now key) keys s
  simp only [addMembers, map_bind, ← hFold]
  rfl

theorem suspendQueued_withRoots (q : PageIndex) (key : T.Member) :
    (s.withRoots root old).suspendQueued q key = (s.suspendQueued q key).withRoots root old := by
  have hPage : (s.withRoots root old).queuePage q = s.queuePage q := rfl
  unfold suspendQueued
  rw [hPage]
  cases (s.queuePage q).idxOf? key with
  | some idx => rfl
  | none => rfl

theorem suspendMember_withRoots (key : T.Member) :
    suspendMember (s.withRoots root old) key = withRoots root old <$> suspendMember s key := by
  simp only [suspendMember, map_bind]
  refine bind_congr fun position => ?_
  cases position with
  | onboarding q t =>
    simp only [pure_bind, suspendQueued_withRoots]
    rfl
  | included r p i =>
    simp only [suspendIncluded, bind_assoc, map_bind, pure_bind]
    rfl
  | suspended => rfl

theorem queueMemberSuspensions_withRoots (keys : List T.Member) :
    (s.withRoots root old).queueMemberSuspensions keys = withRoots root old <$>
        s.queueMemberSuspensions keys := by
  have hFold := List.foldlM_map_state (fun s key => suspendMember_withRoots s root old key) keys s
  simp only [queueMemberSuspensions, map_bind, ← hFold]
  rfl

theorem availableRing_withRoots (maxRingSize : Nat) :
    (s.withRoots root old).availableRing maxRingSize
      = ((s.availableRing maxRingSize).1.withRoots root old, (s.availableRing maxRingSize).2) := by
  by_cases hFull : s.topRing.isFull maxRingSize
  · have hFull' : (s.withRoots root old).topRing.isFull maxRingSize := hFull
    simp only [availableRing, if_pos hFull, if_pos hFull']
    rfl
  · have hFull' : ¬ (s.withRoots root old).topRing.isFull
        maxRingSize := hFull
    simp only [availableRing, if_neg hFull, if_neg hFull']
    rfl

theorem removeFromQueuePage_withRoots (q : PageIndex) (idx : Nat) :
    (s.withRoots root old).removeFromQueuePage q idx
      = (s.removeFromQueuePage q idx).withRoots root old := by
  change (if ((s.queueBlock q).eraseIdx idx).isEmpty then _ else _) = _
  unfold removeFromQueuePage
  simp only []
  split <;> rfl

theorem doSelfInclude_withRoots (member : T.Member) :
    (s.withRoots root old).doSelfInclude member
      = withRoots root old <$> s.doSelfInclude member := by
  simp only [doSelfInclude, map_bind]
  refine bind_congr fun info => ?_
  refine bind_congr fun _ => ?_
  refine bind_congr fun position => ?_
  cases position with
  | onboarding q t =>
    simp only [map_bind, removeFromQueuePage_withRoots, availableRing_withRoots]
    rfl
  | included r p i => rfl
  | suspended => rfl

theorem selfInclude_withRoots (now : Nat) (signature : T.Signature) (message : T.Message)
    (member : T.Member) (callValidAt : Nat) :
    (s.withRoots root old).selfInclude now signature message member callValidAt
      = withRoots root old <$> s.selfInclude now signature message member
          callValidAt := by
  simp only [selfInclude, map_bind]
  iterate 5 refine bind_congr fun _ => ?_
  refine bind_congr fun position => ?_
  cases position with
  | onboarding q t =>
    simp only [map_bind, doSelfInclude_withRoots]
  | included r p i => rfl
  | suspended => rfl

theorem placeKey_withRoots (r : RingIndex) (f : Filling T) (key : T.Member) :
    placeKey r (f.withRoots root old) key = Filling.withRoots root old <$> placeKey r f key := by
  simp only [placeKey, map_bind]
  refine bind_congr fun _ => ?_
  refine bind_congr fun keys => ?_
  split <;> rfl

theorem placeKeys_withRoots (r : RingIndex) (f : Filling T) (keys : List T.Member) :
    placeKeys r (f.withRoots root old) keys = Filling.withRoots root old <$> placeKeys r f keys :=
  List.foldlM_map_state (fun f key => placeKey_withRoots root old r f key) keys f

theorem close_withRoots (f : Filling T) (r : RingIndex) :
    (f.withRoots root old).close r = (f.close r).withRoots root old := by
  change (if f.keys.isEmpty then _ else _) = _
  unfold Filling.close
  split <;> rfl

theorem restoreQueue_withRoots (head : PageIndex) (keys : List T.Member) :
    (s.withRoots root old).restoreQueue head keys
      = withRoots root old <$> s.restoreQueue head keys := by
  unfold restoreQueue
  simp only []
  split
  · simp only [map_bind]
    rfl
  · split
    · simp only [map_bind]
      rfl
    · rfl

theorem onboardMembers_withRoots (mustBuild : Bool) :
    (s.withRoots root old).onboardMembers mustBuild
      = Prod.map id (withRoots root old) <$> s.onboardMembers mustBuild := by
  simp only [onboardMembers, map_bind]
  refine bind_congr fun info => ?_
  rw [availableRing_withRoots]
  rcases s.availableRing info.ringSize.ringCapacity with ⟨s₁, top⟩
  generalize hSlots : info.ringSize.ringCapacity
      - (top.keys.length + top.pageIndex * T.flexibleRingCapacity) = slots
  have hFront : (s₁.withRoots root old).queueFront slots = s₁.queueFront slots := rfl
  have hShould : ∀ available, (s₁.withRoots root old).shouldOnboardMembers
        top.ringIndex top.status slots available
        (s₁.withRoots root old).onboardingSize
        info.ringSize.ringCapacity
      = s₁.shouldOnboardMembers top.ringIndex top.status slots available s₁.onboardingSize
          info.ringSize.ringCapacity := fun _ => rfl
  have hAdditions : ∀ (s₂ : CollectionStore T) n filled,
      (s₂.withRoots root old).recordAdditions top n filled
        = (s₂.recordAdditions top n filled).withRoots root
            old := fun _ _ _ => rfl
  have hFill : (⟨s₁.withRoots root old, top.pageIndex, top.keys⟩ : Filling T)
      = Filling.withRoots root old ⟨s₁, top.pageIndex, top.keys⟩ := rfl
  simp only [hFront, hShould]
  generalize s₁.shouldOnboardMembers top.ringIndex top.status slots
      (s₁.queueFront slots).2.length s₁.onboardingSize
      info.ringSize.ringCapacity = should
  cases should with
  | none => cases mustBuild <;> rfl
  | some decision =>
    rcases decision with ⟨n, filled⟩
    simp only [map_bind, hFill, placeKeys_withRoots, bind_map_left, close_withRoots]
    refine bind_congr fun f => ?_
    simp only [hAdditions, restoreQueue_withRoots, bind_map_left]
    rfl

theorem onboardMembersAuthorized_withRoots (r : RingIndex) (head : PageIndex)
    (first : Option T.Member) :
    (s.withRoots root old).onboardMembersAuthorized r head first
      = withRoots root old <$> s.onboardMembersAuthorized r head first := by
  simp only [onboardMembersAuthorized, map_bind, onboardMembers_withRoots, bind_map_left]
  rfl

theorem moveQueued_withRoots (head : PageIndex) (key : T.Member) :
    moveQueued head (s.withRoots root old) key = withRoots root old <$> moveQueued head s key := by
  have hMembers : (s.withRoots root old).members = s.members := rfl
  unfold moveQueued
  rw [hMembers]
  cases s.members.get key with
  | none => rfl
  | some position =>
    cases position with
    | onboarding q t => rfl
    | included r p i => rfl
    | suspended => rfl

theorem mergeQueuePagesAuthorized_withRoots (head newHead : PageIndex) :
    (s.withRoots root old).mergeQueuePagesAuthorized head newHead
      = withRoots root old <$> s.mergeQueuePagesAuthorized head newHead := by
  simp only [mergeQueuePagesAuthorized, map_bind, mergeQueuePages]
  refine bind_congr fun _ => ?_
  change List.foldlM (moveQueued newHead) (s.withRoots root old)
      (s.queueBlock head).toList >>= _ = _
  rw [List.foldlM_map_state fun s key => moveQueued_withRoots s root old newHead key,
    bind_map_left]
  rfl

theorem deleteRingPageAuthorized_withRoots (r : RingIndex) (p : PageIndex) :
    (s.withRoots root old).deleteRingPageAuthorized r p = withRoots root old <$>
        s.deleteRingPageAuthorized r p := by
  simp only [deleteRingPageAuthorized, map_bind]
  rfl

theorem deleteOnboardingQueuePageAuthorized_withRoots (q : PageIndex) :
    (s.withRoots root old).deleteOnboardingQueuePageAuthorized q
      = withRoots root old <$> s.deleteOnboardingQueuePageAuthorized q := by
  simp only [deleteOnboardingQueuePageAuthorized, map_bind]
  rfl

theorem removeOrphanedMembersAuthorized_withRoots :
    (s.withRoots root old).removeOrphanedMembersAuthorized = withRoots root old <$>
        s.removeOrphanedMembersAuthorized := by
  simp only [removeOrphanedMembersAuthorized, map_bind]
  rfl

theorem finalizeCollectionDeletionAuthorized_withRoots :
    (s.withRoots root old).finalizeCollectionDeletionAuthorized = withRoots root old <$>
        s.finalizeCollectionDeletionAuthorized := by
  simp only [finalizeCollectionDeletionAuthorized, map_bind]
  rfl

theorem markRingStaleAuthorized_withRoots (r : RingIndex) :
    (s.withRoots root old).markRingStaleAuthorized r = withRoots root old <$>
        s.markRingStaleAuthorized r := by
  simp only [markRingStaleAuthorized, map_bind]
  rfl

end Frames

--
-- Operations That Archive a Root
--

/- The old roots once the root of a ring is added to them. -/
def archived (s : CollectionStore T) (now : Nat) (r : RingIndex)
    (old : OldRootMap T) : OldRootMap T :=
  match s.root.get r with
  | none => old
  | some root =>
    old.insert (r, root.revision) { root := root.root, archivedAt := now }

section Archiving

variable (s : CollectionStore T) (old : OldRootMap T) (now : Nat) (r : RingIndex)

theorem archived_of_get_none (hNone : s.root.get r = none) :
    s.archived now r old = old := by
  simp only [archived, hNone]

theorem archived_of_get_some {root : RingRoot T} (hRoot : s.root.get r = some root) :
    s.archived now r old = old.insert (r, root.revision)
        { root := root.root, archivedAt := now } := by
  simp only [archived, hRoot]

theorem collectKeys_withOldRoots (passes : Nat) (status : RingStatus) (toInclude : Nat)
    (keys : List T.Member) :
    (s.withOldRoots old).collectKeys r passes status toInclude keys
      = s.collectKeys r passes status toInclude keys := by
  induction passes generalizing status toInclude keys with
  | zero => rfl
  | succ passes ih =>
    simp only [collectKeys, ih]
    rfl

theorem buildRingAuthorized_withOldRoots (ready : Bool) (ringExponent : RingExponent)
    (revision : Option RevisionIndex) (toInclude : Nat) :
    (s.withOldRoots old).buildRingAuthorized now ready r ringExponent revision toInclude
      = withOldRoots (s.archived now r old) <$>
          s.buildRingAuthorized now ready r ringExponent revision toInclude := by
  simp only [buildRingAuthorized, buildRing, map_bind, collectKeys_withOldRoots]
  refine bind_congr fun _ => ?_
  refine bind_congr fun info => ?_
  refine bind_congr fun next => ?_
  refine bind_congr fun _ => ?_
  refine bind_congr fun i => ?_
  have hSame : (s.withOldRoots old).root = s.root := rfl
  rw [hSame]
  cases hRoot : s.root.get r with
  | none =>
    rw [archived_of_get_none s old now r hRoot]
    rfl
  | some root =>
    rw [archived_of_get_some s old now r hRoot]
    rfl

theorem archiveRoot_withOldRoots :
    (s.withOldRoots old).archiveRoot now r
      = ((s.archiveRoot now r).1, (s.archiveRoot now r).2.withOldRoots (s.archived now r old)) := by
  unfold archived archiveRoot
  have hSame : (s.withOldRoots old).root = s.root := rfl
  rw [hSame]
  cases s.root.get r with
  | none => rfl
  | some root => rfl

theorem deleteRoot_withOldRoots :
    (s.withOldRoots old).deleteRoot now r = (s.deleteRoot now r).withOldRoots
        (s.archived now r old) := by
  unfold deleteRoot
  rw [archiveRoot_withOldRoots]
  rcases s.archiveRoot now r with ⟨existed, s'⟩
  cases existed <;> rfl

theorem moveToBase_withRoots (root : RootMap T) (b : RingIndex) (f : Filling T) (key : T.Member) :
    moveToBase b (f.withRoots root old) key
      = Filling.withRoots root old <$> moveToBase b f key := by
  simp only [moveToBase, map_bind]
  rfl

theorem mergeRings_withOldRoots (b t : RingIndex) :
    (s.withOldRoots old).mergeRings now b t
      = withOldRoots (s.archived now t old) <$> s.mergeRings now b t := by
  simp only [mergeRings, map_bind]
  iterate 10 refine bind_congr fun _ => ?_
  change List.foldlM (moveToBase b) (Filling.withRoots s.root old ⟨s, 0, s.ringPage b 0⟩)
      (s.ringPage t 0).toList >>= _ = _
  rw [List.foldlM_map_state fun f key => moveToBase_withRoots old s.root b f key,
    bind_map_left]
  refine Except.bind_congr_of_ok fun f hFold => ?_
  rcases (moveToBase_foldlM_frame hFold).1 with ⟨members, hStore⟩
  rcases f with ⟨store, p, keys⟩
  simp only [] at hStore
  subst hStore
  let merged : CollectionStore T := { s with
    members := members
    ringKeys := s.ringKeys.insert (b, 0) keys
    ringKeysStatus := s.ringKeysStatus.insert b
        { s.ringStatus b with
          total := saturatingAdd u32Max (s.ringStatus b).total (s.ringPage t 0).length } }
  exact congrArg (fun s₂ : CollectionStore T =>
      (Except.ok { s₂ with
        staleRings := (insert b s₂.staleRings).erase t
        ringKeys := s₂.ringKeys.remove (t, 0)
        ringKeysStatus := s₂.ringKeysStatus.remove t } : Except Failure (CollectionStore T)))
    (deleteRoot_withOldRoots merged old now t)

theorem enqueueRingForDeletion_withOldRoots :
    (s.withOldRoots old).enqueueRingForDeletion now r
      = (s.enqueueRingForDeletion now r).withOldRoots (s.archived now r old) := by
  unfold enqueueRingForDeletion
  rw [deleteRoot_withOldRoots]
  generalize s.deleteRoot now r = s₁
  have hStatus : (s₁.withOldRoots (s.archived now r old)).ringStatus r = s₁.ringStatus r := rfl
  simp only [hStatus]
  split <;> rfl

theorem enqueueRingDeletionAuthorized_withOldRoots :
    (s.withOldRoots old).enqueueRingDeletionAuthorized now r
      = withOldRoots (s.archived now r old) <$> s.enqueueRingDeletionAuthorized now r := by
  simp only [enqueueRingDeletionAuthorized, map_bind, enqueueRingForDeletion_withOldRoots]
  rfl

theorem resetRoot_withOldRoots (ringSize : RingExponent) :
    (s.withOldRoots old).resetRoot now ringSize r
      = (s.resetRoot now ringSize r).withOldRoots (s.archived now r old) := by
  unfold resetRoot archived
  have hSame : (s.withOldRoots old).root = s.root := rfl
  rw [hSame]
  cases s.root.get r with
  | none => rfl
  | some root => rfl

end Archiving

--
-- One Step
--

/-
  What a step does to the archive: it keeps every current root, or archives the root of one ring.
-/
inductive ArchiveStep (now : Nat) (s s' : CollectionStore T) :
    (OldRootMap T → OldRootMap T) → Prop
  | kept (hKept : ∀ r root, s.root.get r = some root → s'.root.get r = some root) :
      ArchiveStep now s s' id
  | archived (r : RingIndex) (hOthers : ∀ r', r' ≠ r → s'.root.get r' = s.root.get r') :
      ArchiveStep now s s' (s.archived now r)

variable {f : CollectionStore T → Except Failure (CollectionStore T)}

/- An operation that commutes with every change of the roots leaves them alone. -/
theorem archiveStep_of_withRoots {now : Nat} {s s' : CollectionStore T}
    (hFrame : ∀ s root old, f (s.withRoots root old) = withRoots root old <$> f s)
    (hStep : f s = .ok s') :
    ∃ archive, ArchiveStep now s s' archive ∧
      ∀ old, f (s.withOldRoots old) = .ok (s'.withOldRoots (archive old)) := by
  have hSame : s' = s'.withRoots s.root s.oldRoots := by
    have hRun := hFrame s s.root s.oldRoots
    rw [hStep] at hRun
    have hOk : f s = .ok (s'.withRoots s.root s.oldRoots) := hRun
    rw [hStep] at hOk
    exact Except.ok.inj hOk
  have hRoot : s'.root = s.root := by
    rw [hSame]
    rfl
  refine ⟨id, ArchiveStep.kept fun r root hGet => ?_, fun old => ?_⟩
  · rw [hRoot]
    exact hGet
  · have hRun := hFrame s s.root old
    have hRight : s'.withRoots s.root old = s'.withOldRoots old := by
      rw [← hRoot]
      rfl
    rw [hStep] at hRun
    exact hRun.trans (congrArg Except.ok hRight)

theorem archiveStep_of_archived {now : Nat} {r : RingIndex} {s s' : CollectionStore T}
    (hFrame : ∀ old, f (s.withOldRoots old) = withOldRoots (s.archived now r old) <$> f s)
    (hStep : f s = .ok s') (hOthers : ∀ r', r' ≠ r → s'.root.get r' = s.root.get r') :
    ∃ archive, ArchiveStep now s s' archive ∧
      ∀ old, f (s.withOldRoots old) = .ok (s'.withOldRoots (archive old)) := by
  refine ⟨s.archived now r, ArchiveStep.archived r hOthers, fun old => ?_⟩
  rw [hFrame, hStep]
  rfl

theorem archiveStep_same (now : Nat) (s : CollectionStore T) :
    ArchiveStep now s s id :=
  ArchiveStep.kept fun _ _ hGet => hGet

theorem enqueueRingForDeletion_others (s : CollectionStore T) (now : Nat) (r r' : RingIndex)
    (hNe : r' ≠ r) :
    (s.enqueueRingForDeletion now r).root.get r' = s.root.get r' := by
  rcases enqueueRingForDeletion_eq s now r with ⟨root, _, _, _, hRoot, _, hEq⟩
  have hGet := hRoot r'
  rw [if_neg hNe] at hGet
  rw [hEq]
  exact hGet

theorem archiveStep_of_removeRing {now : Nat} {r : RingIndex} {s s' : CollectionStore T}
    (hRemove : s.removeRing now r = .ok s') :
    ∃ archive, ArchiveStep now s s' archive ∧ ∀ old, (s.withOldRoots old).removeRing now r
        = .ok (s'.withOldRoots (archive old)) := by
  rcases removeRing_eq_ok hRemove with ⟨hLive, hNe, hQueued | hFree⟩
  · rcases hQueued with ⟨hQueued, hEq⟩
    subst hEq
    refine ⟨id, archiveStep_same now s', fun old => ?_⟩
    have hQueued' : (s'.withOldRoots old).ringQueued r := hQueued
    unfold removeRing at hRemove ⊢
    rw [if_pos hQueued']
    rw [ensure_of hLive, ensure_of hNe] at hRemove
    have hLive' : (s'.withOldRoots old).collection.isSome = true := hLive
    have hNe' : r ≠ (s'.withOldRoots old).currentRingIndex := hNe
    rw [ensure_of hLive', ensure_of hNe']
    rfl
  · rcases hFree with ⟨hFree, hEq⟩
    refine archiveStep_of_archived (r := r) (f := fun s => s.removeRing now r) (fun old => ?_)
      hRemove fun r' hOther => ?_
    · have hFree' : ¬ (s.withOldRoots old).ringQueued r := hFree
      simp only [removeRing, map_bind, if_neg hFree,
        if_neg hFree', enqueueRingForDeletion_withOldRoots]
      rfl
    · rw [hEq]
      exact enqueueRingForDeletion_others s now r r' hOther

theorem archiveStep_of_removeSuspendedKeys
    {now : Nat} {r : RingIndex} {revision : Option RevisionIndex} {s s' : CollectionStore T}
    (hRemove : s.removeSuspendedKeysAuthorized now r revision = .ok s') :
    ∃ archive, ArchiveStep now s s' archive ∧ ∀ old,
        (s.withOldRoots old).removeSuspendedKeysAuthorized now r revision
          = .ok (s'.withOldRoots (archive old)) := by
  rcases removeSuspendedKeysAuthorized_eq_ok hRemove with ⟨_, _, _, hEq⟩
  have hChecks : ∀ old, (s.withOldRoots old).removeSuspendedKeysAuthorized now r revision = .ok
              ((s.withOldRoots old).removeSuspendedKeys now r) := by
    intro old
    unfold removeSuspendedKeysAuthorized at hRemove ⊢
    rw [Except.bind_eq_ok] at hRemove
    rcases hRemove with ⟨_, hEnsure, _⟩
    have hEnsure' : (s.withOldRoots old).ensureCanRemoveSuspendedKeys r revision = .ok () := hEnsure
    rw [hEnsure']
    rfl
  simp only [hChecks, hEq]
  cases hInfo : s.collection with
  | none =>
    have hSame : s.removeSuspendedKeys now r = s := by
      simp only [removeSuspendedKeys, hInfo]
    refine ⟨id, ?_, fun old => ?_⟩
    · rw [hSame]
      exact archiveStep_same now s
    · have hInfo' : (s.withOldRoots old).collection = none := hInfo
      simp only [removeSuspendedKeys, hInfo, hInfo', id]
  | some info =>
    refine ⟨s.archived now r, ArchiveStep.archived r fun r' hNe => ?_,
      fun old => ?_⟩
    · rcases removeSuspendedKeys_eq now r hInfo with ⟨_, _, _, _, hRoot, _, hWrites⟩
      have hGet := hRoot r'
      rw [if_neg hNe] at hGet
      rw [hWrites]
      exact hGet
    · have hInfo' : (s.withOldRoots old).collection = some info := hInfo
      have hWrite : ∀ members newKeys, (s.withOldRoots old).writeRetained r members newKeys
          = (s.writeRetained r members newKeys).withOldRoots
              old := fun _ _ => rfl
      rcases hLoop : retainKeys r 0 (s.pending r) (s.page r 0) s.members .empty with
        ⟨fits, members, newKeys⟩
      have hFits := (retainKeys_newKeys r 0 (s.pending r) (s.page r 0) s.members .empty (by
          have hLength := (s.ringPage r 0).length_le
          simp only [BoundedVec.length_def, BoundedVec.toList_empty, List.length_nil]
          unfold CollectionStore.page
          omega)).1
      rw [hLoop] at hFits
      have hLoop' : retainKeys r 0 ((s.withOldRoots old).pending r) ((s.withOldRoots old).page r 0)
            (s.withOldRoots old).members .empty
          = (fits, members, newKeys) := hLoop
      have hFits' : fits = true := hFits
      subst hFits'
      simp only [removeSuspendedKeys, hInfo, hInfo', hLoop, hLoop', hWrite, resetRoot_withOldRoots]
      rfl

theorem archiveStep_of_apply {call : TimedOp T} {s s' : CollectionStore T}
    (hKeeps : call.op.cleansUp = false) (hApply : s.apply call = .ok s') :
    ∃ archive, ArchiveStep call.now s s' archive ∧ ∀ old,
        (s.withOldRoots old).apply call = .ok (s'.withOldRoots (archive old)) := by
  rcases call with ⟨now, op⟩
  cases op with
  | createCollection owner size mode ringSize delay =>
    exact archiveStep_of_withRoots (f := fun s => s.createCollection owner size mode ringSize delay)
      (fun s root old =>
        createCollection_withRoots s root old owner size mode ringSize delay)
      hApply
  | addMembers keys =>
    exact archiveStep_of_withRoots (f := fun s => s.addMembers now keys)
      (fun s root old => addMembers_withRoots s root old now keys)
      hApply
  | removeRing r => exact archiveStep_of_removeRing hApply
  | deleteCollection owner =>
    exact archiveStep_of_withRoots (f := fun s => s.deleteCollection owner)
      (fun s root old => deleteCollection_withRoots s root old owner)
      hApply
  | removeMembers keys =>
    exact archiveStep_of_withRoots (f := fun s => s.queueMemberSuspensions keys)
      (fun s root old => queueMemberSuspensions_withRoots s root old keys)
      hApply
  | startRemovalSession =>
    exact archiveStep_of_withRoots (f := fun s => s.startRemovalSession)
      startRemovalSession_withRoots hApply
  | endRemovalSession =>
    exact archiveStep_of_withRoots (f := fun s => s.endRemovalSession)
      endRemovalSession_withRoots hApply
  | mergeRings b t =>
    refine archiveStep_of_archived (r := t) (f := fun s => s.mergeRings now b t)
      (fun old => mergeRings_withOldRoots s old now b t)
      hApply fun r' hNe => ?_
    rcases mergeRings_eq_ok hApply with
      ⟨_, _, _, _, _, _, _, _, _, _, _, _, _, _, _, _, _, _, _, hRoot, _, hEq⟩
    have hGet := hRoot r'
    rw [if_neg hNe] at hGet
    rw [hEq]
    exact hGet
  | setOnboardingSize size =>
    exact archiveStep_of_withRoots (f := fun s => s.setOnboardingSize size)
      (fun s root old => setOnboardingSize_withRoots s root old size)
      hApply
  | selfInclude signature message member validAt =>
    exact archiveStep_of_withRoots
      (f := fun s => s.selfInclude now signature message member validAt)
      (fun s root old =>
        selfInclude_withRoots s root old now signature message member validAt)
      hApply
  | buildRing ready r ringExponent revision toInclude =>
    refine archiveStep_of_archived (r := r) (f := fun s =>
        s.buildRingAuthorized now ready r ringExponent revision toInclude)
      (fun old =>
        buildRingAuthorized_withOldRoots s old now r ready ringExponent revision toInclude)
      hApply fun r' hNe => ?_
    rcases buildRingAuthorized_eq_ok hApply with ⟨_, _, _, hBuild⟩
    rcases buildRing_eq_ok hBuild with ⟨_, _, _, _, _, _, _, _, _, _, hEq⟩
    rw [hEq]
    exact StorageMap.get_insert_of_ne _ _ hNe
  | onboardMembers r head first =>
    exact archiveStep_of_withRoots (f := fun s => s.onboardMembersAuthorized r head first)
      (fun s root old =>
        onboardMembersAuthorized_withRoots s root old r head first)
      hApply
  | mergeQueuePages head newHead =>
    exact archiveStep_of_withRoots (f := fun s => s.mergeQueuePagesAuthorized head newHead)
      (fun s root old =>
        mergeQueuePagesAuthorized_withRoots s root old head newHead)
      hApply
  | removeSuspendedKeys r revision =>
    exact archiveStep_of_removeSuspendedKeys hApply
  | deleteRingPage r p =>
    exact archiveStep_of_withRoots (f := fun s => s.deleteRingPageAuthorized r p)
      (fun s root old => deleteRingPageAuthorized_withRoots s root old r p)
      hApply
  | enqueueRingDeletion r =>
    refine archiveStep_of_archived (r := r) (f := fun s => s.enqueueRingDeletionAuthorized now r)
      (fun old =>
        enqueueRingDeletionAuthorized_withOldRoots s old now r)
      hApply fun r' hNe => ?_
    rcases enqueueRingDeletionAuthorized_eq_ok hApply with ⟨_, hEq⟩
    rw [hEq]
    exact enqueueRingForDeletion_others s now r r' hNe
  | deleteOnboardingQueuePage q =>
    exact archiveStep_of_withRoots (f := fun s => s.deleteOnboardingQueuePageAuthorized q)
      (fun s root old =>
        deleteOnboardingQueuePageAuthorized_withRoots s root old q)
      hApply
  | finalizeCollectionDeletion =>
    exact archiveStep_of_withRoots (f := fun s => s.finalizeCollectionDeletionAuthorized)
      finalizeCollectionDeletionAuthorized_withRoots hApply
  | removeOrphanedMembers =>
    exact archiveStep_of_withRoots (f := fun s => s.removeOrphanedMembersAuthorized)
      removeOrphanedMembersAuthorized_withRoots hApply
  | markRingStale r =>
    exact archiveStep_of_withRoots (f := fun s => s.markRingStaleAuthorized r)
      (fun s root old => markRingStaleAuthorized_withRoots s root old r)
      hApply
  | cleanUpOldRoots r limit => simp [Op.cleansUp] at hKeeps

end CollectionStore

end Individuality.MembersPallet
