import Individuality.MembersPallet.RingEffect
import Individuality.MembersPallet.Sample

/-
  Ring roots as a subscriber sees them: the calls of
  `on_ring_root_change` against the roots that are stored.

  Main declaration: `rootChanges_notified`
-/

namespace Individuality.MembersPallet

variable {T : Config} {s s' : CollectionStore T}

open CollectionStore

--
-- Writes of Ring Roots
--

/-
  What an operation can do to the roots of a collection and to the calls that report their changes.
-/
inductive RootWrite (s s' : CollectionStore T) (op : Op T) : Prop
  | unchanged
      (hRoot : s'.root = s.root)
      (hChanges : s'.rootChanges = s.rootChanges)
  | built (r : RingIndex) (root : RingRoot T) (hRoot : s'.root = s.root.insert r root)
      (hChanges :
        s'.rootChanges = s.rootChanges ++ [(r, .built root.revision root.root)])
  | deleted (r : RingIndex)
      (hRoot : ∀ r', s'.root.get r' =
          if r' = r then none else s.root.get r')
      (hChanges : s.root.get r = none ∧ s'.rootChanges = s.rootChanges
          ∨ s.root.get r ≠ none
            ∧ s'.rootChanges = s.rootChanges ++ [(r, .deleted)])
  | reset (r : RingIndex) (revision : Option RevisionIndex) (info : CollectionInfo T)
      (hOp : op = .removeSuspendedKeys r revision) (hInfo : s.collection = some info)
      (hRoot : ∀ r', s'.root.get r' =
          if r' = r then
            (s.root.get r).map (emptiedRoot T info.ringSize)
          else s.root.get r')
      (hChanges : s'.rootChanges = s.rootChanges)

variable {op : Op T}

theorem RingEffect.rootWrite (hEffect : RingEffect s op s') :
    RootWrite s s' op := by
  cases hEffect with
  | added op s' info top hOp hNew hAddition =>
    rcases hAddition.writes with ⟨_, _, _, _, _, _, _, rfl⟩
    exact .unchanged rfl rfl
  | built op info r toInclude i root =>
    exact .built r root rfl rfl
  | merged b t info f root oldRoots changes stale _ _ _ _ _ _
      _ _ _ _ _ _ hRoot hChanges =>
      exact .deleted t hRoot hChanges
  | reset r revision info root oldRoots stale ringKeys hInfo
      _ hRoot =>
      exact .reset r revision info rfl hInfo hRoot rfl
  | enqueued op r root oldRoots changes stale hOp hRoot
      hChanges =>
      exact .deleted r hRoot hChanges
  | _ => exact .unchanged rfl rfl

/- Every successful operation is one of these writes. -/
theorem rootWrite_of_apply {call : TimedOp T} (hApply : s.apply call = .ok s') :
    RootWrite s s' call.op :=
  (ringEffect_of_apply hApply).rootWrite

--
-- The Views of Provider and Subscriber
--

/- The root value and revision of every ring that has one. -/
abbrev RootView (T : Config) :=
  RingIndex → Option (T.Members × RevisionIndex)

def providerView (s : CollectionStore T) : RootView T :=
  fun r => (s.root.get r).map fun x => (x.root, x.revision)

/- How a subscriber applies one notification. -/
def applyChange (view : RootView T) (change : RingIndex × RingRootOp T) : RootView T :=
  match change.2 with
  | .built revision root =>
    Function.update view change.1 (some (root, revision))
  | .deleted => Function.update view change.1 none

/- What a subscriber knows after a list of notifications. -/
def subscriberView (changes : List (RingIndex × RingRootOp T)) :
    RootView T :=
  changes.foldl applyChange fun _ => none

/- Every ring whose root differs afterwards was reported. -/
def Notified (s s' : CollectionStore T) : Prop :=
  ∃ calls, s'.rootChanges = s.rootChanges ++ calls ∧
      ∀ r, providerView s' r ≠ providerView s r → ∃ op, (r, op) ∈ calls

/-
  The operation empties the root of a ring of a live collection after a removal of suspended keys,
  and the emptied root differs from the one stored before.
-/
def SilentReset (s : CollectionStore T) (op : Op T) : Prop :=
  ∃ r revision info old, op = .removeSuspendedKeys r revision ∧ s.collection = some info ∧
      s.root.get r = some old ∧
      (T.finishMembers (T.startMembers info.ringSize), saturatingAdd u32Max old.revision 1)
        ≠ (old.root, old.revision)

theorem applyChange_of_ne (view : RootView T) {change : RingIndex × RingRootOp T} {r : RingIndex}
    (hNe : change.1 ≠ r) :
    applyChange view change r = view r := by
  rcases change with ⟨r', op⟩
  cases op <;> exact Function.update_of_ne (Ne.symm hNe) _ _

/- Notifications about other rings leave a view alone. -/
theorem foldl_applyChange_of_notMem {calls : List (RingIndex × RingRootOp T)} {r : RingIndex}
    (view : RootView T) (hNot : ∀ op, (r, op) ∉ calls) :
    calls.foldl applyChange view r = view r := by
  induction calls generalizing view with
  | nil => rfl
  | cons change calls ih =>
    rw [List.foldl_cons, ih]
    · apply applyChange_of_ne
      intro hEq
      apply hNot change.2
      rw [← hEq]
      exact List.mem_cons_self ..
    · intro op hMem
      exact hNot op (List.mem_cons_of_mem _ hMem)

/- A write that is no silent reset is the effect of the notifications that were sent for it. -/
theorem RootWrite.applied (hWrite : RootWrite s s' op) (hReset : ¬ SilentReset s op) :
    ∃ calls, s'.rootChanges = s.rootChanges ++ calls ∧
        providerView s' = calls.foldl applyChange (providerView s) := by
  cases hWrite with
  | unchanged hRoot hChanges =>
    refine ⟨[], by simp [hChanges], ?_⟩
    funext r
    simp [providerView, hRoot]
  | built r root hRoot hChanges =>
    refine ⟨_, hChanges, ?_⟩
    funext r'
    by_cases h : r' = r
    · subst h
      simp [providerView, hRoot, applyChange]
    · simp [providerView, hRoot, applyChange, StorageMap.get_insert_of_ne _ _ h, h]
  | deleted r hRoot hChanges =>
    rcases hChanges with ⟨hNone, hSame⟩ | ⟨_, hCall⟩
    · refine ⟨[], by simp [hSame], ?_⟩
      funext r'
      by_cases h : r' = r
      · subst h
        simp [providerView, hRoot, hNone]
      · simp [providerView, hRoot, h]
    · refine ⟨_, hCall, ?_⟩
      funext r'
      by_cases h : r' = r
      · subst h
        simp [providerView, hRoot, applyChange]
      · simp [providerView, hRoot, applyChange, h]
  | reset r revision info hOp hInfo hRoot hChanges =>
    refine ⟨[], by simp [hChanges], ?_⟩
    funext r'
    by_cases h : r' = r
    · subst h
      cases hOld : s.root.get r' with
      | none => simp [providerView, hRoot, hOld]
      | some old =>
        have hSame : (T.finishMembers (T.startMembers info.ringSize),
                saturatingAdd u32Max old.revision 1)
              = (old.root, old.revision) := by
          by_contra hDiff
          exact hReset ⟨r', revision, info, old, hOp, hInfo, hOld, hDiff⟩
        simpa [providerView, hRoot, hOld, emptiedRoot] using hSame
    · simp [providerView, hRoot, h]

theorem RootWrite.notified (hWrite : RootWrite s s' op) (hReset : ¬ SilentReset s op) :
    Notified s s' := by
  rcases hWrite.applied hReset with ⟨calls, hCalls, hView⟩
  refine ⟨calls, hCalls, ?_⟩
  intro r hDiff
  by_contra hNot
  apply hDiff
  rw [hView]
  exact foldl_applyChange_of_notMem _ fun op hMem => hNot ⟨op, hMem⟩

/- A silent reset changes a root and reports nothing. -/
theorem not_notified_of_silentReset {call : TimedOp T} (hApply : s.apply call = .ok s')
    (hReset : SilentReset s call.op) :
    ¬ Notified s s' := by
  rcases call with ⟨now, op⟩
  rcases hReset with ⟨r, revision, info, old, rfl, hInfo, hOld, hDiff⟩
  rcases removeSuspendedKeysAuthorized_eq_ok hApply with ⟨_, _, _, rfl⟩
  rcases removeSuspendedKeys_eq now r hInfo with ⟨root, oldRoots, stale, ringKeys, hRoot, _, hEq⟩
  rw [hEq]
  rintro ⟨calls, hCalls, hAll⟩
  have hNil : calls = [] := by simpa using hCalls
  subst hNil
  have hChanged := hAll r (by simpa [providerView, hRoot, hOld] using hDiff)
  simp at hChanged

--
-- Every Root Change Is Notified
--

namespace PalletState

/- The operation is no silent reset of its collection. -/
def NoSilentReset (s : PalletState T) (o : PalletOp T) (_ : PalletState T) : Prop :=
  ¬ SilentReset (s.stores o.identifier) o.call.op

/-
  In a run without silent resets, a subscriber that applies
  every notification knows the stored roots.
-/
theorem subscriberView_of_run {s s' : PalletState T} (hRun : RunUnder dispatch NoSilentReset s s')
    (hStart : ∀ id, subscriberView (s.stores id).rootChanges = providerView (s.stores id)) :
    ∀ id, subscriberView (s'.stores id).rootChanges = providerView (s'.stores id) := by
  refine RunUnder.invariant (fun s => ∀ id,
      subscriberView (s.stores id).rootChanges = providerView (s.stores id))
    hRun ?_ hStart
  intro s o s' hAllowed hDispatch hView id
  rcases dispatch_eq_ok hDispatch with ⟨store, hApply, hStores⟩
  rw [hStores]
  by_cases hId : id = o.identifier
  · subst hId
    rw [Function.update_self]
    rcases (rootWrite_of_apply hApply).applied hAllowed with ⟨calls, hCalls, hProvider⟩
    rw [hCalls, hProvider, subscriberView, List.foldl_append, ← hView]
    rfl
  · rw [Function.update_of_ne hId]
    exact hView id

/-
  A step notifies every root change exactly when it is no silent reset, and after a run without
  silent resets a subscriber knows the provider's roots.
-/
theorem rootChanges_notified :
    (∀ (s s' : PalletState T) (o : PalletOp T), RunUnder dispatch (fun _ _ _ => True) genesis s →
        s.dispatch o = .ok s' →
        ((∀ id, Notified (s.stores id) (s'.stores id))
          ↔ ¬ SilentReset (s.stores o.identifier) o.call.op)) ∧
      (∀ s : PalletState T, RunUnder dispatch NoSilentReset genesis s →
        ∀ id, subscriberView (s.stores id).rootChanges = providerView (s.stores id)) := by
  constructor
  · intro s s' o _ hDispatch
    rcases dispatch_eq_ok hDispatch with ⟨store, hApply, hStores⟩
    constructor
    · intro hAll hReset
      have hOwn := hAll o.identifier
      rw [hStores, Function.update_self] at hOwn
      exact not_notified_of_silentReset hApply hReset hOwn
    · intro hReset id
      rw [hStores]
      by_cases hId : id = o.identifier
      · subst hId
        rw [Function.update_self]
        exact (rootWrite_of_apply hApply).notified hReset
      · rw [Function.update_of_ne hId]
        exact ⟨[], by simp, fun r hDiff => absurd rfl hDiff⟩
  · intro s hRun
    apply subscriberView_of_run hRun
    intro id
    rfl

/- The operation is not a removal of suspended keys. -/
def keepsSuspended (_ : PalletState sampleConfig) (o : PalletOp sampleConfig) : Bool :=
  match o.call.op with
  | .removeSuspendedKeys _ _ => false
  | _ => true

theorem noSilentReset_of_keepsSuspended (s : PalletState sampleConfig) (o : PalletOp sampleConfig)
    (s' : PalletState sampleConfig) (hKeeps : keepsSuspended s o = true) :
    NoSilentReset s o s' := by
  rintro ⟨r, revision, info, old, hOp, _⟩
  simp [keepsSuspended, hOp] at hKeeps

/- A build of a ring, and then the suspension of a member. -/
def suspensionOps : List (TimedOp sampleConfig) :=
  [⟨0, .createCollection () 1 .flexible .r2e9 none⟩, ⟨0, .addMembers [10, 11, 12]⟩,
    ⟨0, .onboardMembers 0 0 (some 10)⟩,
    ⟨0, .buildRing true 0 .r2e9 none 3⟩,
    ⟨0, .startRemovalSession⟩,
    ⟨0, .removeMembers [11]⟩,
    ⟨0, .endRemovalSession⟩]

/- Building ring 0 is seen by a subscriber. -/
theorem rootChanges_notified_sample : ∃ s : PalletState sampleConfig,
      RunUnder dispatch NoSilentReset genesis s ∧
        providerView (s.stores sampleIdentifier) 0 = some ([10, 11, 12], 0) ∧
        subscriberView (s.stores sampleIdentifier).rootChanges
          = providerView (s.stores sampleIdentifier) := by
  have hExecute : (performAll keepsSuspended suspensionOps).any (fun s =>
          providerView (s.stores sampleIdentifier) 0 = some ([10, 11, 12], 0)) = true := by
    decide +kernel
  have hReached : ∃ s, RunUnder dispatch NoSilentReset genesis s ∧ decide
          (providerView (s.stores sampleIdentifier) 0 = some ([10, 11, 12], 0)) = true :=
    exists_run_of_execute (fun s o s' hKeeps _ => noSilentReset_of_keepsSuspended s o s' hKeeps)
      hExecute
  rcases hReached with ⟨s, hRun, hTest⟩
  exact ⟨s, hRun, of_decide_eq_true hTest, rootChanges_notified.2 s hRun sampleIdentifier⟩

def suspensionReset : PalletOp sampleConfig :=
  ⟨sampleIdentifier, ⟨0, .removeSuspendedKeys 0 (some 0)⟩⟩

/- After the reset, ring 0 has a root nobody was told about. -/
def resetUnseen (s : PalletState sampleConfig) : Bool :=
  match s.dispatch suspensionReset with
  | .error _ => false
  | .ok s' =>
    let before := s.stores sampleIdentifier
    let after := s'.stores sampleIdentifier
    after.rootChanges.length = before.rootChanges.length
      ∧ providerView after 0 ≠ providerView before 0
      ∧ subscriberView after.rootChanges 0 ≠ providerView after 0

/-
  A reachable step that changes a root without notifying,
  after which a subscriber still accepts the suspended key.
-/
theorem rootChange_unnotified : ∃ (s s' : PalletState sampleConfig)
        (o : PalletOp sampleConfig),
      RunUnder dispatch (fun _ _ _ => True) genesis s ∧ s.dispatch o = .ok s' ∧
        ¬ Notified (s.stores o.identifier) (s'.stores o.identifier) ∧
        subscriberView (s'.stores o.identifier).rootChanges
          ≠ providerView (s'.stores o.identifier) := by
  have hExecute : (performAll (fun _ _ => true) suspensionOps).any resetUnseen = true := by
    decide +kernel
  have hReached : ∃ s, RunUnder dispatch (fun _ _ _ => True) genesis s ∧ resetUnseen s = true :=
    exists_run_of_execute (fun _ _ _ _ _ => trivial) hExecute
  rcases hReached with ⟨s, hRun, hTest⟩
  unfold resetUnseen at hTest
  cases hDispatch : s.dispatch suspensionReset with
  | error e => simp [hDispatch] at hTest
  | ok s' =>
    simp only [hDispatch, decide_eq_true_eq] at hTest
    rcases hTest with ⟨hLength, hRoot, hView⟩
    refine ⟨s, s', suspensionReset, hRun, hDispatch, ?_, ?_⟩
    · rintro ⟨calls, hCalls, hAll⟩
      have hNil : calls = [] := by
        have hSum := congrArg List.length hCalls
        rw [List.length_append] at hSum
        exact List.length_eq_zero_iff.mp (by
          have hSame : suspensionReset.identifier = sampleIdentifier := rfl
          rw [hSame] at hSum
          omega)
      subst hNil
      rcases hAll 0 hRoot with ⟨op, hMem⟩
      simp at hMem
    · intro hEq
      exact hView (congrFun hEq 0)

end PalletState

end Individuality.MembersPallet
