import Individuality.Base.Runs
import Individuality.MembersNotifier.Sample
import Individuality.MembersNotifier.Effects
import Individuality.MembersSubscriber.Pallet

/-
  Notifier and subscriber together.  Messages may be lost, repeated and reordered, and still the
  subscriber accepts only roots that the provider had.

  Main declaration: `Link.step`
-/

namespace Individuality.NotifierSubscriber

open Except (bind_eq_ok map_eq_ok pure_eq_ok)

open MembersNotifier (RingRootsProvider NotifierState NotifierOp NotifierEffect)
open MembersSubscriber (SubscriberState SubscriberOp RingCommitmentRecord
  RingRootMap Storing)

--
-- Messages
--

section Messages

variable {R : Type}

/- One of the providers has this root for the ring. -/
def HadRoot (provided : List (RingRootsProvider R)) (identifier : Identifier)
    (ringIndex : RingIndex) (revision : RevisionIndex) (root : R) : Prop :=
  ∃ provider ∈ provided, provider.root identifier ringIndex = some (root, revision)

def UpdatesProvided (provided : List (RingRootsProvider R)) (identifier : Identifier)
    (updates : List (RingRootUpdate R)) : Prop :=
  ∀ update ∈ updates, ∀ revision root, update.op = .built revision root →
    HadRoot provided identifier update.ringIndex revision root

def CallProvided (provided : List (RingRootsProvider R)) :
    SubscriberCall R → Prop
  | .initializeRingRoots _ batch
  | .updateRingRoots batch =>
    UpdatesProvided provided batch.identifier batch.updates
  | .terminateSubscription => True

theorem HadRoot.mono {provided provided' : List (RingRootsProvider R)} (hSub : provided ⊆ provided')
    {identifier : Identifier} {ringIndex : RingIndex} {revision : RevisionIndex} {root : R}
    (hHad : HadRoot provided identifier ringIndex revision root) :
    HadRoot provided' identifier ringIndex revision root := by
  rcases hHad with ⟨provider, hMem, hRoot⟩
  exact ⟨provider, hSub hMem, hRoot⟩

variable {call : SubscriberCall R}

theorem CallProvided.mono {provided provided' : List (RingRootsProvider R)}
    (hSub : provided ⊆ provided') (hCall : CallProvided provided call) :
    CallProvided provided' call := by
  cases call with
  | terminateSubscription => trivial
  | initializeRingRoots _ batch =>
    exact fun update hMem revision root hOp => (hCall update hMem revision root hOp).mono hSub
  | updateRingRoots batch =>
    exact fun update hMem revision root hOp => (hCall update hMem revision root hOp).mono hSub

theorem updatesProvided_resolve (provider : RingRootsProvider R) (identifier : Identifier)
    (indices : List RingIndex) :
    UpdatesProvided [provider] identifier
      (indices.map (MembersNotifier.resolve provider identifier)) := by
  intro update hMem revision root hOp
  rcases List.mem_map.mp hMem with ⟨idx, _, rfl⟩
  unfold MembersNotifier.resolve at hOp ⊢
  dsimp only at hOp ⊢
  cases hRoot : provider.root identifier idx with
  | none =>
    rw [hRoot] at hOp
    cases hOp
  | some found =>
    rw [hRoot] at hOp
    cases hOp
    exact ⟨provider, List.mem_singleton_self _, hRoot⟩

variable {N : MembersNotifier.Config} {s s' : NotifierState N} {chain : MembersNotifier.Chain R}

theorem callProvided_batchMessages {sequence : SequenceNumber} {sourceTime maxPerXcm : Nat}
    {info : MembersNotifier.SubscriberInfo N}
    (hMem : call ∈ s.batchMessages chain.provider sequence sourceTime maxPerXcm info) :
    CallProvided [chain.provider] call := by
  rcases List.mem_flatMap.mp hMem with ⟨collection, _, hMessages⟩
  unfold NotifierState.collectionMessages at hMessages
  cases hIndices : s.sealedBatchIndices.get collection.1 with
  | none =>
    rw [hIndices] at hMessages
    cases hMessages
  | some indices =>
    rw [hIndices] at hMessages
    rcases List.mem_map.mp hMessages with ⟨updates, hChunk, rfl⟩
    rw [MembersNotifier.resolveUpdatesForIndices_eq_map] at hChunk
    exact fun update hUpdate => updatesProvided_resolve _ _ _ update
      (mem_of_mem_chunks hChunk hUpdate)

theorem callProvided_initMessage
    (state : MembersNotifier.PendingInitState N) (provider : RingRootsProvider R)
    (maxPerXcm : Nat) (identifier : Identifier) (ringExponent : RingExponent) :
    CallProvided [provider] (MembersNotifier.initMessage state provider maxPerXcm identifier
        ringExponent) := by
  intro update hMem revision root hOp
  rcases List.mem_map.mp (List.mem_of_mem_take hMem) with ⟨found, hFound, rfl⟩
  rcases List.mem_filterMap.mp hFound with ⟨idx, _, hEntry⟩
  rcases Option.map_eq_some_iff.mp hEntry with ⟨pair, hPair, rfl⟩
  cases hOp
  exact ⟨provider, List.mem_singleton_self _, hPair⟩

/- The notifier sends what its provider has. -/
theorem callProvided_of_effect {op : NotifierOp N} {sent : MembersNotifier.Sent R}
    (hEffect : NotifierEffect s chain op s' sent) :
    ∀ message ∈ sent, CallProvided [chain.provider] message.2 := by
  intro message hMem
  cases hEffect with
  | left paraId fromSubscriber info hInfo =>
    split at hMem
    · cases hMem
    · rw [List.mem_singleton.mp (List.mem_of_mem_filter hMem)]
      trivial
  | replayed paraId identifier indices info hInfo hCollection =>
    rw [List.mem_singleton.mp hMem]
    exact updatesProvided_resolve _ _ _
  | delivered paraId batch info n _ _ _ _ _ _ _ =>
    rcases List.mem_map.mp hMem with ⟨call, hCall, rfl⟩
    exact callProvided_batchMessages hCall
  | retried paraId batch info n _ _ _ _ _ _ =>
    rcases List.mem_map.mp hMem with ⟨call, hCall, rfl⟩
    exact callProvided_batchMessages (List.mem_of_mem_filter hCall)
  | initPage paraId index afterRingIndex state identifier ringExponent maxPerXcm
      _ _ _ =>
    rw [List.mem_singleton.mp hMem]
    exact callProvided_initMessage _ _ _ _ _
  | _ => cases hMem

end Messages

--
-- Windows
--

section Windows

variable {R : Type} {S : MembersSubscriber.Config}

/- The roots of a ring: bounded, distinct, and once provided. -/
structure WindowSound (S : MembersSubscriber.Config) (provided : List (RingRootsProvider R))
    (identifier : Identifier) (ringIndex : RingIndex)
    (roots : List (RingCommitmentRecord R)) : Prop where
  bounded : roots.length ≤ S.maxRecentRootsPerRing
  distinct : (roots.map fun record => record.revision).Nodup
  provided : ∀ record ∈ roots,
    HadRoot provided identifier ringIndex record.revision record.root

def RootsSound (S : MembersSubscriber.Config) (provided : List (RingRootsProvider R))
    (ringRoots : RingRootMap R) : Prop :=
  ∀ generation identifier ringIndex, WindowSound S provided identifier ringIndex
      (ringRoots.getD (generation, identifier, ringIndex) [])

variable {provided : List (RingRootsProvider R)} {identifier : Identifier}
variable {ringIndex : RingIndex} {ringRoots : RingRootMap R}

theorem windowSound_nil : WindowSound S provided identifier ringIndex [] where
  bounded := Nat.zero_le _
  distinct := List.nodup_nil
  provided := fun _ hMem => (List.not_mem_nil hMem).elim

theorem WindowSound.push {roots : List (RingCommitmentRecord R)} {record : RingCommitmentRecord R}
    (hSound : WindowSound S provided identifier ringIndex roots)
    (hNew : ∀ r ∈ roots, r.revision ≠ record.revision)
    (hHad : HadRoot provided identifier ringIndex record.revision record.root) :
    WindowSound S provided identifier ringIndex (MembersSubscriber.pushRecord S roots record) := by
  have hKept : ∀ kept, List.Sublist kept roots → kept.length < S.maxRecentRootsPerRing →
        WindowSound S provided identifier ringIndex (kept ++ [record]) := by
    intro kept hSublist hRoom
    constructor
    · rw [List.length_append]
      exact hRoom
    · rw [List.map_append, List.map_singleton, List.nodup_append]
      refine ⟨hSound.distinct.sublist (hSublist.map _), List.nodup_singleton _, ?_⟩
      intro revision hOld revision' hLast
      rcases List.mem_map.mp hOld with ⟨r, hMem, rfl⟩
      rw [List.mem_singleton.mp hLast]
      exact hNew r (hSublist.subset hMem)
    · intro r hMem
      rcases List.mem_append.mp hMem with hOld | hLast
      · exact hSound.provided r (hSublist.subset hOld)
      · rw [List.mem_singleton.mp hLast]
        exact hHad
  have hPos := S.maxRecentRootsPerRing_pos
  have hBound := hSound.bounded
  unfold MembersSubscriber.pushRecord
  split_ifs with hFull
  · refine hKept _ (List.tail_sublist roots) ?_
    rw [List.length_tail]
    omega
  · exact hKept _ (List.Sublist.refl roots) (Nat.lt_of_not_le hFull)

theorem RootsSound.remove (hSound : RootsSound S provided ringRoots)
    (key : MembersSubscriber.Generation × Identifier × RingIndex) :
    RootsSound S provided (ringRoots.remove key) := by
  intro generation identifier ringIndex
  rw [StorageMap.getD_remove]
  split_ifs
  · exact windowSound_nil
  · exact hSound _ _ _

variable {batch : RingRootUpdatesBatch R}

theorem RootsSound.storeUpdate {generation : MembersSubscriber.Generation}
    {w : Storing R} {update : RingRootUpdate R} (hSound : RootsSound S provided w.ringRoots)
    (hUpdate : ∀ revision root, update.op = .built revision root →
      HadRoot provided batch.identifier update.ringIndex revision root) :
    RootsSound S provided
      (MembersSubscriber.storeUpdate S batch generation w update).ringRoots := by
  unfold MembersSubscriber.storeUpdate
  cases hOp : update.op with
  | deleted => exact hSound.remove _
  | built revision root =>
    dsimp only
    by_cases hKnown : (w.ringRoots.getD (generation, batch.identifier, update.ringIndex) []).any
        (fun r => r.revision = revision) = true
    · rw [if_pos hKnown]
      exact hSound
    · rw [if_neg hKnown]
      intro generation' identifier ringIndex
      rw [StorageMap.getD_insert]
      split_ifs with hKey
      · cases hKey
        refine (hSound _ _ _).push ?_ (hUpdate revision root hOp)
        intro r hMem hSame
        exact hKnown (List.any_eq_true.mpr ⟨r, hMem, decide_eq_true hSame⟩)
      · exact hSound _ _ _

theorem RootsSound.storeRingRoots {s : SubscriberState R}
    (hSound : RootsSound S provided s.ringRoots) (now : Nat)
    (hBatch : UpdatesProvided provided batch.identifier batch.updates) :
    RootsSound S provided (s.storeRingRoots S now batch).ringRoots := by
  refine List.foldlRecOn (motive := fun w : Storing R => RootsSound S provided w.ringRoots)
    batch.updates _ hSound ?_
  intro w hW update hMem
  exact hW.storeUpdate (hBatch update hMem)

/- Whatever a message does, the windows stay sound. -/
theorem RootsSound.receive {s s' : SubscriberState R} {now : Nat} {call : SubscriberCall R}
    (hSound : RootsSound S provided s.ringRoots) (hCall : CallProvided provided call)
    (hReceive : s.receive S now call = .ok s') :
    RootsSound S provided s'.ringRoots := by
  cases call with
  | initializeRingRoots ringExponent roots =>
    simp only [SubscriberState.receive, SubscriberState.initializeRingRoots,
      bind_eq_ok, pure_eq_ok] at hReceive
    rcases hReceive with ⟨s₁, hPrepare, _, _, rfl⟩
    have hSame : s₁.ringRoots = s.ringRoots := by
      unfold SubscriberState.prepareInitialization at hPrepare
      split at hPrepare
      · split_ifs at hPrepare <;> cases hPrepare <;> rfl
      · cases hPrepare
        rfl
    rw [← hSame] at hSound
    exact hSound.storeRingRoots now hCall
  | updateRingRoots updates =>
    simp only [SubscriberState.receive, SubscriberState.processRingUpdates, bind_eq_ok] at hReceive
    rcases hReceive with ⟨_, _, hStored⟩
    split_ifs at hStored <;> cases hStored
    · exact hSound
    · exact hSound
    · exact hSound.storeRingRoots now hCall
  | terminateSubscription =>
    simp only [SubscriberState.receive, map_eq_ok] at hReceive
    rcases hReceive with ⟨⟨s₁, calls⟩, hTerminate, rfl⟩
    unfold SubscriberState.terminateSubscription at hTerminate
    split at hTerminate <;> cases hTerminate <;> exact hSound

/- A call of the subscriber itself only ever drops roots. -/
theorem RootsSound.apply {s s' : SubscriberState R} {chain : MembersSubscriber.Chain}
    {op : SubscriberOp R} {calls : List NotifierCall} (hSound : RootsSound S provided s.ringRoots)
    (hLocal : ∀ call, op ≠ .receive call) (hApply : s.apply S chain op = .ok (s', calls)) :
    RootsSound S provided s'.ringRoots := by
  cases op with
  | receive call => exact absurd rfl (hLocal call)
  | terminateSubscription =>
    simp only [SubscriberState.apply] at hApply
    unfold SubscriberState.terminateSubscription at hApply
    split at hApply <;> cases hApply <;> exact hSound
  | replayMissingRoots identifier indices =>
    simp only [SubscriberState.apply, SubscriberState.replayMissingRoots,
      bind_eq_ok, pure_eq_ok, Prod.mk.injEq] at hApply
    rcases hApply with ⟨_, _, rfl, _⟩
    unfold SubscriberState.processCollectionReplay
    dsimp only
    split_ifs <;> exact hSound
  | purgeStaleRingRoots =>
    simp only [SubscriberState.apply, SubscriberState.purgeStaleRingRoots,
      map_eq_ok, bind_eq_ok, pure_eq_ok, Prod.mk.injEq] at hApply
    rcases hApply with ⟨_, ⟨progress, _, rfl⟩, rfl, _⟩
    exact List.foldlRecOn (motive := RootsSound S provided) _ _ hSound
      fun _ hKept key _ => hKept.remove key
  | detectMissingRings identifier =>
    simp only [SubscriberState.apply, SubscriberState.detectMissingRings,
      map_eq_ok, bind_eq_ok, pure_eq_ok, Prod.mk.injEq] at hApply
    rcases hApply with ⟨_, ⟨_, _, rfl⟩, rfl, _⟩
    exact hSound

end Windows

--
-- Both Pallets
--

section System

variable {R : Type}

/-
  The provider, the notifier and one of its subscribers, with every message that was ever sent to
  it.  `provided` is a ghost: all that the provider ever had.
-/
structure Link (R : Type) (N : MembersNotifier.Config) where
  provider : RingRootsProvider R
  notifier : NotifierState N
  subscriber : SubscriberState R
  sent : List (SubscriberCall R)
  provided : List (RingRootsProvider R)

/-
  A message may be delivered whenever it was sent before, so it may be lost, repeated or overtaken.
-/
inductive LinkOp (R : Type) (N : MembersNotifier.Config) where
  | provide (provider : RingRootsProvider R)
  | notifier
    (now block : Nat)
    (maxMessageSize : ParaId → Option Nat)
    (accepts : ParaId → SubscriberCall R → Bool)
    (op : NotifierOp N)
  | deliver (now index : Nat)
  | subscriber (chain : MembersSubscriber.Chain) (op : SubscriberOp R)

variable {N : MembersNotifier.Config} (S : MembersSubscriber.Config)

namespace Link

def start (provider : RingRootsProvider R)
    (whitelist : StorageMap ParaId (MembersNotifier.Collections N)) :
    Link R N where
  provider := provider
  notifier := .genesis whitelist
  subscriber := .genesis
  sent := []
  provided := [provider]

/- The subscriber is the parachain `selfParaId`. -/
def step (selfParaId : ParaId) (w : Link R N) :
    LinkOp R N → Except Unit (Link R N)
  | .provide provider =>
    .ok { w with
      provider := provider
      provided := provider :: w.provided }
  | .notifier now block maxMessageSize accepts op => do
    let (notifier, sent) ← (w.notifier.apply ⟨now, block, w.provider, maxMessageSize, accepts⟩
        op).mapError fun _ => ()
    return { w with
      notifier := notifier
      sent := w.sent ++ (sent.filter (·.1 = selfParaId)).map Prod.snd }
  | .deliver now index => do
    let call ← okOr w.sent[index]? ()
    let subscriber ← (w.subscriber.receive S now call).mapError fun _ => ()
    return { w with subscriber := subscriber }
  | .subscriber _ (.receive _) => .error ()
  | .subscriber chain op => do
    let (subscriber, _) ← (w.subscriber.apply S chain op).mapError fun _ => ()
    return { w with subscriber := subscriber }

structure Sound (w : Link R N) : Prop where
  current : w.provider ∈ w.provided
  messages : ∀ call ∈ w.sent, CallProvided w.provided call
  windows : RootsSound S w.provided w.subscriber.ringRoots

variable {S} {w w' : Link R N}

theorem sound_start (provider : RingRootsProvider R)
    (whitelist : StorageMap ParaId (MembersNotifier.Collections N)) :
    Sound S (start provider whitelist) where
  current := List.mem_singleton_self _
  messages := fun _ hMem => (List.not_mem_nil hMem).elim
  windows := by
    intro generation identifier ringIndex
    change WindowSound S _ _ _ (StorageMap.getD .empty _ [])
    rw [StorageMap.getD_empty]
    exact windowSound_nil

variable {selfParaId : ParaId}

theorem Sound.step {op : LinkOp R N} (hSound : Sound S w)
    (hStep : w.step S selfParaId op = .ok w') :
    Sound S w' := by
  cases op with
  | provide provider =>
    cases hStep
    have hGrown : w.provided ⊆ provider :: w.provided := List.subset_cons_self _ _
    refine ⟨List.mem_cons_self, fun call hMem => (hSound.messages call hMem).mono hGrown,
      ?_⟩
    intro generation identifier ringIndex
    have hWindow := hSound.windows generation identifier ringIndex
    exact ⟨hWindow.bounded, hWindow.distinct, fun record hMem =>
      (hWindow.provided record hMem).mono hGrown⟩
  | notifier now block maxMessageSize accepts op =>
    simp only [Link.step, bind_eq_ok, mapError_eq_ok_iff, pure_eq_ok] at hStep
    rcases hStep with ⟨⟨notifier, sent⟩, hApply, rfl⟩
    refine ⟨hSound.current, ?_, hSound.windows⟩
    intro call hMem
    rcases List.mem_append.mp hMem with hOld | hNew
    · exact hSound.messages call hOld
    · rcases List.mem_map.mp hNew with ⟨message, hMessage, rfl⟩
      have hProvided := callProvided_of_effect
        (MembersNotifier.notifierEffect_of_apply hApply) message
        (List.mem_of_mem_filter hMessage)
      exact hProvided.mono (List.cons_subset.mpr ⟨hSound.current, List.nil_subset _⟩)
  | deliver now index =>
    simp only [Link.step, bind_eq_ok, mapError_eq_ok_iff, okOr_eq_ok_iff, pure_eq_ok] at hStep
    rcases hStep with ⟨call, hCall, subscriber, hReceive, rfl⟩
    exact ⟨hSound.current, hSound.messages, hSound.windows.receive
      (hSound.messages call (List.mem_of_getElem? hCall)) hReceive⟩
  | subscriber chain op =>
    cases op with
    | receive call => cases hStep
    | _ =>
      simp only [Link.step, bind_eq_ok, mapError_eq_ok_iff, pure_eq_ok] at hStep
      rcases hStep with ⟨⟨subscriber, calls⟩, hApply, rfl⟩
      exact ⟨hSound.current, hSound.messages, hSound.windows.apply
        (fun _ hCall => by cases hCall) hApply⟩

/-
  However messages are lost, repeated or reordered, a window of the subscriber holds at most the
  configured number of roots, of distinct revisions that the provider once had, and only such
  revisions are accepted.
-/
theorem accepted_was_provided {provider : RingRootsProvider R}
    {whitelist : StorageMap ParaId (MembersNotifier.Collections N)}
    (hRun : RunUnder (step S selfParaId) (fun _ _ _ => True)
      (start provider whitelist) w)
    (identifier : Identifier) (ringIndex : RingIndex) :
    WindowSound S w.provided identifier ringIndex (w.subscriber.window identifier ringIndex)
      ∧ ∀ now revision, w.subscriber.isRevisionValid S now identifier ringIndex revision = true →
          ∃ root, HadRoot w.provided identifier ringIndex revision root := by
  have hSound : Sound S w :=
    RunUnder.invariant (Sound S) hRun (fun _ _ _ _ hStep hSound => hSound.step hStep)
      (sound_start provider whitelist)
  refine ⟨hSound.windows _ _ _, ?_⟩
  intro now revision hValid
  unfold SubscriberState.isRevisionValid at hValid
  cases hRoots : w.subscriber.currentRingRoots identifier ringIndex with
  | none =>
    rw [hRoots] at hValid
    cases hValid
  | some roots =>
    rw [hRoots] at hValid
    dsimp only at hValid
    have hWindow := hSound.windows w.subscriber.currentGeneration identifier ringIndex
    have hGet : w.subscriber.ringRoots.getD
        (w.subscriber.currentGeneration, identifier, ringIndex) [] = roots := by
      unfold StorageMap.getD
      unfold SubscriberState.currentRingRoots at hRoots
      rw [hRoots]
      rfl
    rw [hGet] at hWindow
    cases hFind : roots.findIdx? (fun r => r.revision = revision) with
    | none =>
      rw [hFind] at hValid
      cases hValid
    | some index =>
      rcases List.findIdx?_eq_some_iff_getElem.mp hFind with ⟨hLt, hTest, _⟩
      have hRevision := of_decide_eq_true hTest
      have hHad := hWindow.provided _ (List.getElem_mem hLt)
      rw [hRevision] at hHad
      exact ⟨_, hHad⟩

end Link

end System

--
-- Sample Run
--

namespace Link

open MembersPallet (sampleIdentifier)

def sampleSubscriber : MembersSubscriber.Config where
  maxMissingRootsPerCollection := 4
  maxDeletedRingsPerCollection := 4
  maxGapScanPerCall := 8
  gapScanCooldownSeconds := 10
  purgePageSize := 4
  maxCollections := 2
  replayCooldownSeconds := 0
  maxUpdatesPerBatch := 4
  replayAbandonThreshold := 3
  maxRecentRootsPerRing := 2
  oldRootRetentionDuration := 100
  maxRecentRootsPerRing_pos := Nat.two_pos

/- One ring, whose root 7 has revision 1. -/
def sampleProvider : RingRootsProvider Nat :=
  ⟨StorageMap.empty.insert (sampleIdentifier, 0) (7, 1), fun _ => 1⟩

/- The subscriber joins and receives the first page twice. -/
def sampleOps : List (LinkOp Nat MembersNotifier.sampleConfig) :=
  [.notifier 0 0 (fun _ => some 20) (fun _ _ => true)
      (.subscribe 9 MembersNotifier.sampleCollections),
    .notifier 0 0 (fun _ => some 20) (fun _ _ => true) (.sendInitPage 9 0 none),
    .deliver 5 0, .deliver 6 0]

theorem accepted_was_provided_sample :
    ∃ w : Link Nat MembersNotifier.sampleConfig,
      w.subscriber.isRevisionValid sampleSubscriber 7 sampleIdentifier 0 1 = true
        ∧ ∃ root, HadRoot w.provided sampleIdentifier 0 1 root := by
  have hExecute : (execute (step sampleSubscriber 9) (fun _ _ => true)
        (start sampleProvider .empty) sampleOps).any
          (fun w => w.subscriber.isRevisionValid sampleSubscriber 7
            sampleIdentifier 0 1) = true := by
    decide +kernel
  rcases exists_run_of_execute (fun _ _ _ _ _ => trivial) hExecute with ⟨w, hRun, hValid⟩
  exact ⟨w, hValid, (accepted_was_provided hRun sampleIdentifier 0).2 7 1 hValid⟩

end Link

end Individuality.NotifierSubscriber
