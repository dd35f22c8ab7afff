import Individuality.MembersNotifier.Pallet

/-
  What a call of the members-notifier pallet can do.  Every
  invariant of the pallet is proved by cases on these effects.

  Main declaration: `NotifierEffect`
-/

namespace Individuality.MembersNotifier

open Except (bind_eq_ok map_eq_ok pure_eq_ok)

open NotifierSubscriber

variable {R : Type} {T : Config} {paraId : ParaId}

--
-- Resolved Updates
--

/- The update that brings a ring to the provider's root. -/
def resolve (provider : RingRootsProvider R) (identifier : Identifier)
    (idx : RingIndex) : RingRootUpdate R where
  ringIndex := idx
  op :=
    match provider.root identifier idx with
    | none => .deleted
    | some (root, revision) => .built revision root

/-
  The walk resolves each index by itself.  A root that was
  found for a later index does not match before it.
-/
theorem resolveUpdatesForIndices_eq_map (provider : RingRootsProvider R) (identifier : Identifier)
    (indices : List RingIndex) :
    resolveUpdatesForIndices provider identifier indices
      = indices.map (resolve provider identifier) := by
  unfold resolveUpdatesForIndices RingRootsProvider.getRingRoots
  induction indices with
  | nil => rfl
  | cons idx indices ih =>
    rw [List.map_cons, ← ih]
    cases hRoot : provider.root identifier idx with
    | some root =>
      have hEntry : provider.entry identifier idx = some (idx, root) := by
        unfold RingRootsProvider.entry
        rw [hRoot]
        rfl
      rw [List.filterMap_cons_some hEntry]
      rcases root with ⟨root, revision⟩
      rw [mergeUpdates, if_pos rfl, resolve, hRoot]
    | none =>
      have hEntry : provider.entry identifier idx = none := by
        unfold RingRootsProvider.entry
        rw [hRoot]
        rfl
      have hResolve : resolve provider identifier idx = ⟨idx, .deleted⟩ := by
        rw [resolve, hRoot]
      rw [List.filterMap_cons_none hEntry, hResolve]
      cases hRest : indices.filterMap (provider.entry identifier) with
      | nil => rfl
      | cons found rest =>
        rcases found with ⟨ringIndex, root, revision⟩
        have hNe : ringIndex ≠ idx := by
          intro hSame
          have hMem : (ringIndex, root, revision) ∈ indices.filterMap
                    (provider.entry identifier) := by
            rw [hRest]
            exact List.mem_cons_self
          rcases List.mem_filterMap.mp hMem with ⟨later, _, hLater⟩
          unfold RingRootsProvider.entry at hLater
          rw [Option.map_eq_some_iff] at hLater
          rcases hLater with ⟨found, hFound, hPair⟩
          have hIndex : later = ringIndex := congrArg Prod.fst hPair
          rw [hIndex, hSame, hRoot] at hFound
          exact absurd hFound (by simp)
        rw [mergeUpdates, if_neg hNe]

--
-- Effects
--

/- A subscriber was registered. -/
def NotifierState.joined (s : NotifierState T) (now : Nat) (paraId : ParaId)
    (collections : Collections T) : NotifierState T :=
  ({ s with
    subscriptionWhitelist := s.subscriptionWhitelist.remove paraId }.registerForInit now paraId
        collections).rebuildSubscribedCollections

/- A subscriber was taken out, apart from the batch. -/
def NotifierState.removed (s : NotifierState T) (paraId : ParaId)
    (info : SubscriberInfo T) : NotifierState T :=
  { s with
    lastReplayTime := (info.collections.toList.map Prod.fst).foldl
        (fun times identifier => times.remove (paraId, identifier))
        s.lastReplayTime
    subscribers := s.subscribers.remove paraId
    pendingInit := s.pendingInit.remove paraId }.rebuildSubscribedCollections

/- The send page was sealed into a batch. -/
def NotifierState.sealed (s : NotifierState T) (now block : Nat) : NotifierState T :=
  ((s.sealWritePage.startBatch now block).storeSealedIndices (s.pageUpdates s.pageState.sendPage)
    (s.changedCollections (s.pageUpdates s.pageState.sendPage))).cleanupSendBuffer block
        s.pageState.sendPage

def NotifierState.drained (s : NotifierState T) (block : Nat) : NotifierState T :=
  s.sealWritePage.cleanupSendBuffer block s.pageState.sendPage

/- The answer to a request of roots. -/
def NotifierState.replayMessage (s : NotifierState T) (chain : Chain R) (identifier : Identifier)
    (indices : List RingIndex) : SubscriberCall R :=
  .updateRingRoots
    { identifier := identifier
      sequence := s.sealedBatchSequence
      sourceTime := chain.now
      updates := indices.map (resolve chain.provider identifier)
      nextRingIndex := chain.provider.nextRingIndex identifier }

/- The page of an initialization that is sent next. -/
def initRoots (state : PendingInitState T) (provider : RingRootsProvider R) (maxPerXcm : Nat)
    (identifier : Identifier) :
    List (RingIndex × R × RevisionIndex) :=
  provider.getRingRootsPaginated T identifier state.afterRingIndex maxPerXcm

def initMessage (state : PendingInitState T) (provider : RingRootsProvider R)
    (maxPerXcm : Nat) (identifier : Identifier) (ringExponent : RingExponent) : SubscriberCall R :=
  .initializeRingRoots ringExponent (NotifierState.buildInitBatch T state provider identifier
      (initRoots state provider maxPerXcm identifier))

/- A call that succeeded, by what it did. -/
inductive NotifierEffect (s : NotifierState T) (chain : Chain R) :
    NotifierOp T → NotifierState T → Sent R → Prop
  | joined (op : NotifierOp T) (paraId : ParaId) (collections : Collections T)
      (hOp : op = .subscribe paraId collections ∨ op = .subscribeWhitelisted paraId)
      (hNew : s.subscribers.get paraId = none)
      (hRoom : s.subscribers.keys.length < T.maxSubscribers) :
      NotifierEffect s chain op
        (s.joined chain.now paraId collections) []
  | left (paraId : ParaId) (fromSubscriber : Bool) (info : SubscriberInfo T)
      (hInfo : s.subscribers.get paraId = some info) :
      NotifierEffect s chain
        (.unsubscribe paraId fromSubscriber)
        ((s.removed paraId info).leaveBatch paraId info)
        (if fromSubscriber then []
          else
            [(paraId, .terminateSubscription)].filter
              fun message => chain.accepts message.1 message.2)
  | replayed (paraId : ParaId) (identifier : Identifier)
      (indices : BoundedVec RingIndex T.maxUpdatesPerBatch) (info : SubscriberInfo T)
      (hInfo : s.subscribers.get paraId = some info)
      (hMem : identifier ∈ info.collections.toList.map Prod.fst) :
      NotifierEffect s chain
        (.requestReplay paraId identifier indices)
        { s with
          lastReplayTime :=
            s.lastReplayTime.insert (paraId, identifier)
              chain.now }
        [(paraId, s.replayMessage chain identifier indices.toList)]
  | drained (hBatch : s.currentBatch = none)
      (hNone : s.subscribers.keys.length = 0 ∨ s.changedCollections
          (s.pageUpdates s.pageState.sendPage) = []) :
      NotifierEffect s chain
        (.enqueueUpdates s.pageState.sendPage)
        (s.drained chain.block) []
  | sealed (hBatch : s.currentBatch = none) (hSubscribers : s.subscribers.keys.length ≠ 0)
      (hCollections : s.changedCollections
          (s.pageUpdates s.pageState.sendPage) ≠ []) :
      NotifierEffect s chain
        (.enqueueUpdates s.pageState.sendPage)
        (s.sealed chain.now chain.block) []
  | skipped (paraId : ParaId) (batch : BatchDistributionState) (info : SubscriberInfo T)
      (hBatch : s.currentBatch = some batch) (hRemaining : batch.remainingSubscribers ≠ 0)
      (hWaiting : paraId ∉ s.subscribersWithCurrentBatch)
      (hInfo : s.subscribers.get paraId = some info)
      (hEntitled : info.lastInitSequence < batch.sequence)
      (hChannel : maxUpdatesPerXcm T chain paraId = none
          ∨ maxUpdatesPerXcm T chain paraId = some 0) :
      NotifierEffect s chain (.sendBatch paraId batch.sequence)
        (s.markProcessed batch paraId) []
  | delivered (paraId : ParaId) (batch : BatchDistributionState) (info : SubscriberInfo T) (n : Nat)
      (hBatch : s.currentBatch = some batch) (hRemaining : batch.remainingSubscribers ≠ 0)
      (hWaiting : paraId ∉ s.subscribersWithCurrentBatch)
      (hInfo : s.subscribers.get paraId = some info)
      (hEntitled : info.lastInitSequence < batch.sequence)
      (hChannel : maxUpdatesPerXcm T chain paraId = some (n + 1))
      (hAll : (s.batchMessages chain.provider batch.sequence
          batch.sourceTime (n + 1) info).all
            (chain.accepts paraId) = true) :
      NotifierEffect s chain (.sendBatch paraId batch.sequence)
        (s.markProcessed batch paraId)
        ((s.batchMessages chain.provider batch.sequence
          batch.sourceTime (n + 1) info).map (paraId, ·))
  | retried (paraId : ParaId) (batch : BatchDistributionState) (info : SubscriberInfo T) (n : Nat)
      (hBatch : s.currentBatch = some batch) (hWaiting : paraId ∉ s.subscribersWithCurrentBatch)
      (hInfo : s.subscribers.get paraId = some info)
      (hEntitled : info.lastInitSequence < batch.sequence)
      (hChannel : maxUpdatesPerXcm T chain paraId = some (n + 1))
      (hAll : (s.batchMessages chain.provider batch.sequence
          batch.sourceTime (n + 1) info).all
            (chain.accepts paraId) = false) :
      NotifierEffect s chain (.sendBatch paraId batch.sequence)
        s
        (((s.batchMessages chain.provider batch.sequence
          batch.sourceTime (n + 1) info).filter
            (chain.accepts paraId)).map (paraId, ·))
  | initStalled (paraId : ParaId) (index : Nat) (afterRingIndex : Option RingIndex) :
      NotifierEffect s chain
        (.sendInitPage paraId index afterRingIndex) s []
  | initFinished (paraId : ParaId) (index : Nat) (afterRingIndex : Option RingIndex)
      (state : PendingInitState T) (hState : s.pendingInit.get paraId = some state)
      (hEnd : state.collections.toList[state.currentCollectionIndex]? = none) :
      NotifierEffect s chain
        (.sendInitPage paraId index afterRingIndex)
        (s.setPendingInit paraId none) []
  | initPage (paraId : ParaId) (index : Nat) (afterRingIndex : Option RingIndex)
      (state : PendingInitState T) (identifier : Identifier) (ringExponent : RingExponent)
      (maxPerXcm : Nat) (hState : s.pendingInit.get paraId = some state)
      (hCollection : state.collections.toList[state.currentCollectionIndex]?
          = some (identifier, ringExponent))
      (hChannel : maxUpdatesPerXcm T chain paraId = some maxPerXcm) :
      NotifierEffect s chain
        (.sendInitPage paraId index afterRingIndex)
        (s.setPendingInit paraId (NotifierState.advanceInitPagination state
            ((initRoots state chain.provider maxPerXcm
              identifier).length = maxPerXcm)
            ((initRoots state chain.provider maxPerXcm
              identifier).getLast?.map Prod.fst)))
        [(paraId, initMessage state chain.provider maxPerXcm identifier
            ringExponent)]
  | abandoned (batch : BatchDistributionState) (hBatch : s.currentBatch = some batch) :
      NotifierEffect s chain .abandonStuckBatch s.clearBatch []
  | changed (identifier : Identifier) (ringIndex : RingIndex) :
      NotifierEffect s chain
        (.onRingRootChange identifier ringIndex)
        (s.onRingRootChange identifier ringIndex) []

section Inversion

open NotifierState

variable {s s' : NotifierState T} {chain : Chain R} {sent : Sent R}

theorem doSubscribe_eq_ok {now : Nat} {collections : Collections T}
    (hCall : s.doSubscribe now paraId collections = .ok s') :
    s.subscribers.get paraId = none ∧ s.subscribers.keys.length < T.maxSubscribers
      ∧ s' = s.joined now paraId collections := by
  unfold doSubscribe at hCall
  simp only [bind_eq_ok, ensure_eq_ok_iff, StorageMap.containsKey_eq_false_iff, pure_eq_ok,
    exists_const] at hCall
  exact ⟨hCall.1, hCall.2.1, hCall.2.2.symm⟩

theorem enqueueUpdates_effect {sendPage : PageIndex}
    (hCall : s.enqueueUpdates chain.now chain.block sendPage = .ok s') :
    NotifierEffect s chain (.enqueueUpdates sendPage) s' [] := by
  unfold enqueueUpdates authorizeEnqueueUpdates at hCall
  simp only [bind_eq_ok, ensure_eq_ok_iff, exists_const] at hCall
  rcases hCall with ⟨hAuthorized, hCall⟩
  rcases hAuthorized with ⟨hBatch, hLe, hGe, _⟩
  have hPage : sendPage = s.pageState.sendPage := Nat.le_antisymm hGe hLe
  rw [hPage]
  by_cases hNone : s.subscribers.keys.length = 0 ∨ s.changedCollections
      (s.pageUpdates s.pageState.sendPage) = []
  · rw [if_pos hNone, pure_eq_ok] at hCall
    rw [← hCall]
    exact .drained hBatch hNone
  · rw [if_neg hNone, pure_eq_ok] at hCall
    rw [← hCall]
    exact .sealed hBatch (fun hZero => hNone (.inl hZero)) (fun hNil => hNone (.inr hNil))

theorem requestReplay_effect {identifier : Identifier}
    {indices : BoundedVec RingIndex T.maxUpdatesPerBatch}
    (hCall : s.requestReplay chain paraId identifier indices = .ok (s', sent)) :
    NotifierEffect s chain (.requestReplay paraId identifier indices) s' sent := by
  unfold requestReplay at hCall
  simp only [bind_eq_ok, ensure_eq_ok_iff, okOr_eq_ok_iff, exists_const, pure_eq_ok,
    Prod.mk.injEq, resolveUpdatesForIndices_eq_map] at hCall
  rcases hCall with ⟨_, info, hInfo, hMem, _, _, _, _, _, _, _, hState, hSent⟩
  rw [← hState, ← hSent]
  exact .replayed paraId identifier indices info hInfo hMem

theorem sendBatch_effect {sequence : SequenceNumber}
    (hCall : s.sendBatch chain paraId sequence = .ok (s', sent)) :
    NotifierEffect s chain (.sendBatch paraId sequence) s'
      sent := by
  unfold sendBatch authorizeSendBatch at hCall
  simp only [bind_eq_ok, ensure_eq_ok_iff, okOr_eq_ok_iff, exists_const] at hCall
  rcases hCall with ⟨hAuthorized, batch', hBatch', info', hInfo', hCall⟩
  rcases hAuthorized with ⟨batch, hBatch, hLe, hGe, hRemaining, hWaiting, info, hInfo, hEntitled⟩
  rw [hBatch, Option.some.injEq] at hBatch'
  rw [hInfo, Option.some.injEq] at hInfo'
  subst hBatch' hInfo'
  have hSequence : sequence = batch.sequence := Nat.le_antisymm hGe hLe
  subst hSequence
  cases hChannel : maxUpdatesPerXcm T chain paraId with
  | none =>
    rw [hChannel] at hCall
    simp only [pure_eq_ok, Prod.mk.injEq] at hCall
    rw [← hCall.1, ← hCall.2]
    exact .skipped paraId batch info hBatch hRemaining hWaiting hInfo hEntitled (.inl hChannel)
  | some count =>
    cases count with
    | zero =>
      rw [hChannel] at hCall
      simp only [pure_eq_ok, Prod.mk.injEq] at hCall
      rw [← hCall.1, ← hCall.2]
      exact .skipped paraId batch info hBatch hRemaining hWaiting hInfo hEntitled (.inr hChannel)
    | succ n =>
      rw [hChannel] at hCall
      simp only [pure_eq_ok, Prod.mk.injEq] at hCall
      rw [← hCall.1, ← hCall.2]
      cases hAll : (s.batchMessages chain.provider batch.sequence
          batch.sourceTime (n + 1) info).all (chain.accepts paraId) with
      | true =>
        rw [if_pos rfl, List.filter_eq_self.mpr (List.all_eq_true.mp hAll)]
        exact .delivered paraId batch info n hBatch hRemaining hWaiting hInfo hEntitled hChannel
          hAll
      | false =>
        rw [if_neg Bool.false_ne_true]
        exact .retried paraId batch info n hBatch hWaiting hInfo hEntitled hChannel hAll

theorem sendInitPage_effect {index : Nat} {afterRingIndex : Option RingIndex}
    (hCall : s.sendInitPage chain paraId index afterRingIndex = .ok (s', sent)) :
    NotifierEffect s chain (.sendInitPage paraId index afterRingIndex) s' sent := by
  unfold sendInitPage at hCall
  simp only [bind_eq_ok, okOr_eq_ok_iff] at hCall
  rcases hCall with ⟨_, _, state, hState, hCall⟩
  cases hChannel : maxUpdatesPerXcm T chain paraId with
  | none =>
    rw [hChannel] at hCall
    simp only [pure_eq_ok, Prod.mk.injEq] at hCall
    rw [← hCall.1, ← hCall.2]
    exact .initStalled paraId index afterRingIndex
  | some maxPerXcm =>
    rw [hChannel] at hCall
    simp only at hCall
    cases hCollection :
        state.collections.toList[ state.currentCollectionIndex]? with
    | none =>
      rw [hCollection] at hCall
      simp only [pure_eq_ok, Prod.mk.injEq] at hCall
      rw [← hCall.1, ← hCall.2]
      exact .initFinished paraId index afterRingIndex state hState hCollection
    | some collection =>
      rcases collection with ⟨identifier, ringExponent⟩
      rw [hCollection] at hCall
      simp only at hCall
      split_ifs at hCall with hAccepts
      · simp only [pure_eq_ok, Prod.mk.injEq] at hCall
        rw [← hCall.1, ← hCall.2]
        exact .initPage paraId index afterRingIndex state identifier ringExponent maxPerXcm hState
          hCollection hChannel
      · simp only [pure_eq_ok, Prod.mk.injEq] at hCall
        rw [← hCall.1, ← hCall.2]
        exact .initStalled paraId index afterRingIndex

/- Every successful call has one of these effects. -/
theorem notifierEffect_of_apply {op : NotifierOp T} (hApply : s.apply chain op = .ok (s', sent)) :
    NotifierEffect s chain op s' sent := by
  cases op with
  | subscribe paraId collections =>
    simp only [NotifierState.apply, NotifierState.subscribe,
      map_eq_ok, bind_eq_ok, ensure_eq_ok_iff,
      exists_const, Prod.mk.injEq] at hApply
    rcases hApply with ⟨s₁, ⟨_, hCall⟩, hState, hSent⟩
    rcases doSubscribe_eq_ok hCall with ⟨hNew, hRoom, hEq⟩
    rw [← hState, ← hSent, hEq]
    exact .joined _ paraId collections (.inl rfl) hNew hRoom
  | unsubscribe paraId fromSubscriber =>
    simp only [NotifierState.apply, NotifierState.unsubscribe,
      bind_eq_ok, okOr_eq_ok_iff, pure_eq_ok,
      Prod.mk.injEq] at hApply
    rcases hApply with ⟨info, hInfo, hState, hSent⟩
    rw [← hState, ← hSent]
    exact .left paraId fromSubscriber info hInfo
  | requestReplay paraId identifier indices =>
    exact requestReplay_effect hApply
  | enqueueUpdates sendPage =>
    simp only [NotifierState.apply, map_eq_ok, Prod.mk.injEq] at hApply
    rcases hApply with ⟨s₁, hCall, hState, hSent⟩
    rw [← hState, ← hSent]
    exact enqueueUpdates_effect hCall
  | sendBatch paraId sequence =>
    exact sendBatch_effect hApply
  | sendInitPage paraId index afterRingIndex =>
    exact sendInitPage_effect hApply
  | abandonStuckBatch =>
    simp only [NotifierState.apply, NotifierState.abandonStuckBatch, map_eq_ok,
      bind_eq_ok, okOr_eq_ok_iff, ensure_eq_ok_iff,
      exists_const, pure_eq_ok, Prod.mk.injEq]
      at hApply
    rcases hApply with ⟨s₁, ⟨batch, hBatch, _, hEq⟩, hState, hSent⟩
    rw [← hState, ← hSent, ← hEq]
    exact .abandoned batch hBatch
  | subscribeWhitelisted paraId =>
    simp only [NotifierState.apply, NotifierState.subscribeWhitelisted, map_eq_ok,
      bind_eq_ok, okOr_eq_ok_iff, Prod.mk.injEq]
      at hApply
    rcases hApply with ⟨s₁, ⟨_, _, collections, _, hCall⟩, hState, hSent⟩
    rcases doSubscribe_eq_ok hCall with ⟨hNew, hRoom, hEq⟩
    rw [← hState, ← hSent, hEq]
    exact .joined _ paraId collections (.inr rfl) hNew hRoom
  | onRingRootChange identifier ringIndex =>
    simp only [NotifierState.apply, Except.ok.injEq, Prod.mk.injEq] at hApply
    rw [← hApply.1, ← hApply.2]
    exact .changed identifier ringIndex

end Inversion

end Individuality.MembersNotifier
