import Individuality.MembersNotifier.Effects
import Individuality.MembersNotifier.Sample
import Individuality.Base.Runs

/-
  The counter of the batch in distribution.  The steps carry along who was served: who was handed
  the batch, or skipped for lack of a channel.

  Main declaration: `Distribution.batch_accounting`
-/

namespace Individuality.MembersNotifier

open Except (bind_eq_ok ok_bind)
open StorageMap (getD_insert get_empty get_insert get_remove sum_congr weightAt_some)

open NotifierSubscriber NotifierState

variable {R : Type} {T : Config} {n sequence : SequenceNumber} {served : List ParaId} {p : ParaId}
variable {info : SubscriberInfo T} {remaining : Nat} {batch : BatchDistributionState}

--
-- Frames
--

section Frames

variable (s : NotifierState T)

theorem openWritePage_frame : ∃ pageState,
      s.openWritePage = { s with pageState := pageState } := by
  unfold openWritePage
  dsimp only
  split_ifs
  · exact ⟨_, rfl⟩
  · exact ⟨_, rfl⟩

theorem onRingRootChange_frame (identifier : Identifier) (ringIndex : RingIndex) :
    ∃ pageState pendingUpdates pageUpdatesCount,
      s.onRingRootChange identifier ringIndex = { s with
        pageState := pageState
        pendingUpdates := pendingUpdates
        pageUpdatesCount := pageUpdatesCount } := by
  rcases openWritePage_frame s with ⟨pageState, hOpened⟩
  unfold onRingRootChange
  rw [hOpened]
  split_ifs
  · exact ⟨_, _, _, rfl⟩
  · exact ⟨_, _, _, rfl⟩
  · exact ⟨_, _, _, rfl⟩

theorem sealWritePage_frame : ∃ pageState,
      s.sealWritePage = { s with pageState := pageState } := by
  unfold sealWritePage
  split_ifs
  · exact ⟨_, rfl⟩
  · exact ⟨_, rfl⟩

theorem drained_frame (block : Nat) : ∃ pageState pendingUpdates pageUpdatesCount,
      s.drained block = { s with
        pageState := pageState
        pendingUpdates := pendingUpdates
        pageUpdatesCount := pageUpdatesCount } := by
  rcases sealWritePage_frame s with ⟨pageState, hSealed⟩
  unfold drained
  rw [hSealed]
  exact ⟨_, _, _, rfl⟩

theorem sealed_frame (now block : Nat) :
    ∃ pageState pendingUpdates pageUpdatesCount sealedBatchIndices,
      s.sealed now block = { s.startBatch now block with
        pageState := pageState
        pendingUpdates := pendingUpdates
        pageUpdatesCount := pageUpdatesCount
        sealedBatchIndices := sealedBatchIndices } := by
  rcases sealWritePage_frame s with ⟨pageState, hSealed⟩
  unfold sealed
  rw [hSealed]
  exact ⟨_, _, _, _, rfl⟩

end Frames

--
-- Waiting Subscribers
--

/- A subscriber that has still to receive a batch counts. -/
def awaits (recipients : Finset ParaId) (sequence : SequenceNumber) (paraId : ParaId)
    (info : SubscriberInfo T) : Nat :=
  if info.lastInitSequence < sequence ∧ paraId ∉ recipients then
    1
  else
    0

/- How many subscribers have still to receive a batch. -/
def NotifierState.waiting (s : NotifierState T) (sequence : SequenceNumber) : Nat :=
  s.subscribers.sum (awaits s.subscribersWithCurrentBatch sequence)

theorem sum_one_eq_length_keys {κ ν : Type} (m : StorageMap κ ν) :
    m.sum (fun _ _ => 1) = m.keys.length := by
  simp [StorageMap.sum, AList.keys, List.keys]

/-
  The counter of a batch, and that nobody is served twice.
  A subscriber that came after sealing does not count.
-/
structure Balanced (s : NotifierState T) (sequence : SequenceNumber) (remaining : Nat)
    (served : List ParaId) : Prop where
  remaining_eq : remaining = s.waiting sequence
  recipients_subscribe :
    ∀ p ∈ s.subscribersWithCurrentBatch, s.subscribers.get p ≠ none
  served_nodup : served.Nodup
  mem_served_iff : ∀ p info,
      s.subscribers.get p = some info →
      info.lastInitSequence < sequence →
        (p ∈ s.subscribersWithCurrentBatch ↔ p ∈ served)

/- With nobody waiting everybody entitled has been served. -/
theorem Balanced.served_of_zero {s : NotifierState T} (hBalanced : Balanced s sequence 0 served)
    (hInfo : s.subscribers.get p = some info) (hEntitled : info.lastInitSequence < sequence) :
    p ∈ served := by
  rw [← hBalanced.mem_served_iff p info hInfo hEntitled]
  by_contra hWaiting
  have hLe := StorageMap.le_sum_of_get hInfo (awaits s.subscribersWithCurrentBatch sequence)
  have hZero : s.waiting sequence = 0 := hBalanced.remaining_eq.symm
  unfold NotifierState.waiting at hZero
  rw [hZero, awaits, if_pos ⟨hEntitled, hWaiting⟩] at hLe
  exact absurd hLe (by decide)

/- With somebody waiting not everybody has been served. -/
theorem Balanced.exists_unserved {s : NotifierState T}
    (hBalanced : Balanced s sequence remaining served) (hPos : 0 < remaining) :
    ∃ p info, s.subscribers.get p = some info ∧ info.lastInitSequence < sequence ∧ p ∉ served := by
  by_contra hAll
  have hZero : s.waiting sequence = 0 := by
    have hWeights : s.subscribers.sum (awaits s.subscribersWithCurrentBatch sequence)
          = s.subscribers.sum (fun _ _ => 0) := by
      apply sum_congr
      intro p info hInfo
      unfold awaits
      rw [if_neg]
      rintro ⟨hEntitled, hWaiting⟩
      rw [hBalanced.mem_served_iff p info hInfo hEntitled] at hWaiting
      exact hAll ⟨p, info, hInfo, hEntitled, hWaiting⟩
    unfold NotifierState.waiting
    rw [hWeights]
    simp [StorageMap.sum]
  rw [hBalanced.remaining_eq, hZero] at hPos
  exact absurd hPos (by decide)

/- Marking a waiting subscriber lowers the count by one. -/
theorem Balanced.serve {s : NotifierState T} (hBalanced : Balanced s sequence remaining served)
    (hInfo : s.subscribers.get p = some info) (hEntitled : info.lastInitSequence < sequence)
    (hWaiting : p ∉ s.subscribersWithCurrentBatch) :
    Balanced
      { s with
        subscribersWithCurrentBatch := insert p s.subscribersWithCurrentBatch }
      sequence (remaining - 1) (served ++ [p]) := by
  have hUnserved : p ∉ served := by
    rw [← hBalanced.mem_served_iff p info hInfo hEntitled]
    exact hWaiting
  refine ⟨?_, ?_, ?_, ?_⟩
  · have hReweigh := StorageMap.sum_reweigh s.subscribers
        (awaits s.subscribersWithCurrentBatch sequence)
        (awaits (insert p s.subscribersWithCurrentBatch) sequence) p
        (by
          intro p' info' hNe _
          unfold awaits
          simp only [Finset.mem_insert, hNe, false_or])
    rw [hInfo, weightAt_some, weightAt_some] at hReweigh
    have hOld : awaits s.subscribersWithCurrentBatch sequence p info
        = 1 := if_pos ⟨hEntitled, hWaiting⟩
    have hNew : awaits (insert p s.subscribersWithCurrentBatch) sequence p info = 0 := by
      unfold awaits
      rw [if_neg]
      rintro ⟨_, hNot⟩
      exact hNot (Finset.mem_insert_self _ _)
    rw [hOld, hNew, Nat.add_zero] at hReweigh
    rw [hBalanced.remaining_eq]
    unfold NotifierState.waiting
    rw [hReweigh]
    exact Nat.add_sub_cancel _ 1
  · intro p' hMem
    rcases Finset.mem_insert.mp hMem with hSame | hOld
    · rw [hSame, hInfo]
      exact Option.some_ne_none info
    · exact hBalanced.recipients_subscribe p' hOld
  · rw [List.nodup_append]
    refine ⟨hBalanced.served_nodup, List.nodup_singleton p, ?_⟩
    intro p' hMem q hQ hSame
    rw [List.mem_singleton] at hQ
    rw [hSame, hQ] at hMem
    exact hUnserved hMem
  · intro p' info' hInfo' hEntitled'
    rw [List.mem_append, List.mem_singleton, Finset.mem_insert,
      hBalanced.mem_served_iff p' info' hInfo' hEntitled']
    exact Or.comm

/- A newcomer is not entitled to the batch. -/
theorem Balanced.join {s : NotifierState T} (hBalanced : Balanced s sequence remaining served)
    (hNew : s.subscribers.get p = none) (hLate : ¬ info.lastInitSequence < sequence) :
    Balanced { s with subscribers := s.subscribers.insert p info } sequence remaining served := by
  refine ⟨?_, ?_, hBalanced.served_nodup, ?_⟩
  · rw [hBalanced.remaining_eq]
    unfold NotifierState.waiting
    rw [StorageMap.sum_insert_of_get_eq_none hNew]
    unfold awaits
    rw [if_neg (fun hBoth => hLate hBoth.1), Nat.add_zero]
  · intro p' hMem
    rw [get_insert]
    split_ifs
    · exact Option.some_ne_none info
    · exact hBalanced.recipients_subscribe p' hMem
  · intro p' info' hInfo' hEntitled'
    rw [get_insert] at hInfo'
    split_ifs at hInfo' with hSame
    · rw [Option.some.injEq] at hInfo'
      rw [hInfo'] at hLate
      exact absurd hEntitled' hLate
    · exact hBalanced.mem_served_iff p' info' hInfo' hEntitled'

/- A subscriber that left does not count any more. -/
theorem waiting_remove (s : NotifierState T) (sequence : SequenceNumber)
    (hInfo : s.subscribers.get p = some info) :
    s.waiting sequence = (s.subscribers.remove p).sum
          (awaits s.subscribersWithCurrentBatch sequence)
        + awaits s.subscribersWithCurrentBatch sequence p
            info := by
  have hRemove := StorageMap.sum_remove s.subscribers
      (awaits s.subscribersWithCurrentBatch sequence) p
  rw [hInfo, weightAt_some] at hRemove
  exact hRemove.symm

/- A waiting subscriber leaves. -/
theorem Balanced.leave_waiting {s : NotifierState T}
    (hBalanced : Balanced s sequence remaining served) (hInfo : s.subscribers.get p = some info)
    (hWaiting : p ∉ s.subscribersWithCurrentBatch) :
    Balanced { s with subscribers := s.subscribers.remove p } sequence
      (remaining - awaits s.subscribersWithCurrentBatch sequence p info)
      served := by
  refine ⟨?_, ?_, hBalanced.served_nodup, ?_⟩
  · rw [hBalanced.remaining_eq, waiting_remove s sequence hInfo, Nat.add_sub_cancel]
    rfl
  · intro p' hMem
    rw [get_remove, if_neg]
    · exact hBalanced.recipients_subscribe p' hMem
    · intro hSame
      rw [hSame] at hMem
      exact hWaiting hMem
  · intro p' info' hInfo' hEntitled'
    rw [get_remove] at hInfo'
    split_ifs at hInfo' with hSame
    exact hBalanced.mem_served_iff p' info' hInfo' hEntitled'

/- A subscriber that has the batch leaves. -/
theorem Balanced.leave_served {s : NotifierState T}
    (hBalanced : Balanced s sequence remaining served) (hInfo : s.subscribers.get p = some info)
    (hServed : p ∈ s.subscribersWithCurrentBatch) :
    Balanced
      { s with
        subscribers := s.subscribers.remove p
        subscribersWithCurrentBatch := s.subscribersWithCurrentBatch.erase p }
      sequence remaining served := by
  refine ⟨?_, ?_, hBalanced.served_nodup, ?_⟩
  · have hWeight : awaits s.subscribersWithCurrentBatch sequence p info
        = 0 := if_neg fun hBoth => hBoth.2 hServed
    rw [hBalanced.remaining_eq, waiting_remove s sequence hInfo, hWeight, Nat.add_zero]
    unfold NotifierState.waiting
    apply sum_congr
    intro p' info' hInfo'
    rw [get_remove] at hInfo'
    split_ifs at hInfo' with hSame
    unfold awaits
    simp only [Finset.mem_erase, ne_eq, hSame, not_false_eq_true, true_and]
  · intro p' hMem
    rcases Finset.mem_erase.mp hMem with ⟨hNe, hOld⟩
    rw [get_remove, if_neg hNe]
    exact hBalanced.recipients_subscribe p' hOld
  · intro p' info' hInfo' hEntitled'
    rw [get_remove] at hInfo'
    split_ifs at hInfo' with hSame
    rw [Finset.mem_erase, hBalanced.mem_served_iff p' info' hInfo' hEntitled']
    exact and_iff_right hSame

--
-- Distribution
--

/- The pallet, and who was served of its current batch. -/
structure Distribution (T : Config) where
  pallet : NotifierState T
  served : List ParaId

/-
  The router took every message of the batch to a subscriber,
  or there is no channel that they could be sent over.
-/
def servedWhole (s : NotifierState T) (chain : Chain R) (paraId : ParaId) : Bool :=
  match s.currentBatch, s.subscribers.get paraId,
      maxUpdatesPerXcm T chain paraId with
  | some batch, some info, some (n + 1) =>
    (s.batchMessages chain.provider batch.sequence
      batch.sourceTime (n + 1) info).all (chain.accepts paraId)
  | _, _, _ => true

/- Who is served after a call that led to the state `s'`. -/
def noteServed (s s' : NotifierState T) (chain : Chain R)
    (served : List ParaId) : NotifierOp T → List ParaId
  | .sendBatch paraId _ =>
    if servedWhole s chain paraId then served ++ [paraId]
    else served
  | .enqueueUpdates _ =>
    if s'.currentBatch.isSome then [] else served
  | _ => served

theorem noteServed_sendBatch (s s' : NotifierState T) (chain : Chain R) (served : List ParaId)
    (p : ParaId) (sequence : SequenceNumber) :
    noteServed s s' chain served (.sendBatch p sequence)
      = if servedWhole s chain p then served ++ [p] else served :=
  rfl

theorem noteServed_enqueueUpdates (s s' : NotifierState T) (chain : Chain R) (served : List ParaId)
    (page : PageIndex) :
    noteServed s s' chain served (.enqueueUpdates page)
      = if s'.currentBatch.isSome then [] else served :=
  rfl

/- The counter and the recipients of the current batch. -/
structure Accounting (w : Distribution T) : Prop where
  lastInit_le : ∀ p info,
      w.pallet.subscribers.get p = some info →
        info.lastInitSequence ≤ w.pallet.sealedBatchSequence
  no_recipients :
    w.pallet.currentBatch = none → w.pallet.subscribersWithCurrentBatch = ∅
  sequence_eq : ∀ batch,
      w.pallet.currentBatch = some batch →
        batch.sequence = w.pallet.sealedBatchSequence
  remaining_pos :
    ∀ batch, w.pallet.currentBatch = some batch → 0 < batch.remainingSubscribers
  balanced : ∀ batch,
      w.pallet.currentBatch = some batch →
        Balanced w.pallet batch.sequence
          batch.remainingSubscribers w.served

/- Batches are sealed one at a time. -/
theorem NotifierEffect.no_batch_of_enqueueUpdates
    {s s' : NotifierState T} {chain : Chain R} {sent : Sent R} {page : PageIndex}
    (hEffect : NotifierEffect s chain (.enqueueUpdates page) s' sent) :
    s.currentBatch = none := by
  cases hEffect with
  | drained hNone _ => exact hNone
  | «sealed» hNone _ _ => exact hNone
  | joined op p collections hOp _ _ =>
    rcases hOp with hEq | hEq
    · cases hEq
    · cases hEq

namespace Distribution

def start (whitelist : StorageMap ParaId (Collections T)) :
    Distribution T where
  pallet := .genesis whitelist
  served := []

def step (w : Distribution T) (call : Chain R × NotifierOp T) :
    Except Failure (Distribution T) := do
  let result ← w.pallet.apply call.1 call.2
  return {
    pallet := result.1
    served := noteServed w.pallet result.1 call.1 w.served call.2 }

/- Batches are sealed while their numbers can be counted. -/
def Countable (w : Distribution T) (call : Chain R × NotifierOp T) (_ : Distribution T) : Prop :=
  ∀ page, call.2 = .enqueueUpdates page → w.pallet.sealedBatchSequence < u64Max

variable {call : Chain R × NotifierOp T}

theorem step_eq_ok {w w' : Distribution T} (hStep : step w call = .ok w') :
    (∃ sent, NotifierEffect w.pallet call.1 call.2 w'.pallet sent) ∧ w'.served
        = noteServed w.pallet w'.pallet call.1 w.served
            call.2 := by
  unfold step at hStep
  simp only [bind_eq_ok, Except.pure_eq_ok] at hStep
  rcases hStep with ⟨result, hApply, hEq⟩
  rcases result with ⟨s', sent⟩
  rw [← hEq]
  exact ⟨⟨sent, notifierEffect_of_apply hApply⟩, rfl⟩

theorem accounting_start (whitelist : StorageMap ParaId (Collections T)) :
    Accounting (start whitelist) where
  lastInit_le := by
    intro p info hInfo
    exact absurd (Eq.trans (get_empty p).symm hInfo) (by simp)
  no_recipients := fun _ => rfl
  sequence_eq := fun _ hBatch => by cases hBatch
  remaining_pos := fun _ hBatch => by cases hBatch
  balanced := fun _ hBatch => by cases hBatch

/- Nothing that the counter depends on has changed. -/
theorem accounting_of_same {w : Distribution T} (hAccounting : Accounting w) {s : NotifierState T}
    (hSubscribers : s.subscribers = w.pallet.subscribers)
    (hSequence : s.sealedBatchSequence = w.pallet.sealedBatchSequence)
    (hBatch : s.currentBatch = w.pallet.currentBatch)
    (hRecipients : s.subscribersWithCurrentBatch = w.pallet.subscribersWithCurrentBatch) :
    Accounting { pallet := s, served := w.served } := by
  refine ⟨?_, ?_, ?_, ?_, ?_⟩
  · simp only [hSubscribers, hSequence]
    exact hAccounting.lastInit_le
  · simp only [hBatch, hRecipients]
    exact hAccounting.no_recipients
  · simp only [hBatch, hSequence]
    exact hAccounting.sequence_eq
  · simp only [hBatch]
    exact hAccounting.remaining_pos
  · intro batch hCurrent
    have hOld := hAccounting.balanced batch (hBatch ▸ hCurrent)
    refine ⟨?_, ?_, hOld.served_nodup, ?_⟩
    · unfold NotifierState.waiting
      rw [hSubscribers, hRecipients]
      exact hOld.remaining_eq
    · rw [hSubscribers, hRecipients]
      exact hOld.recipients_subscribe
    · rw [hSubscribers, hRecipients]
      exact hOld.mem_served_iff

/- Nothing is left of a batch that was cleared. -/
theorem accounting_clearBatch {s : NotifierState T}
    (hLe : ∀ p info, s.subscribers.get p = some info →
        info.lastInitSequence ≤ s.sealedBatchSequence)
    (served : List ParaId) :
    Accounting { pallet := s.clearBatch, served := served } where
  lastInit_le := hLe
  no_recipients := fun _ => rfl
  sequence_eq := fun _ hBatch => by cases hBatch
  remaining_pos := fun _ hBatch => by cases hBatch
  balanced := fun _ hBatch => by cases hBatch

/- The batch goes on with one subscriber fewer, or is over. -/
theorem accounting_countDown {s : NotifierState T}
    (hLe : ∀ p info, s.subscribers.get p = some info →
        info.lastInitSequence ≤ s.sealedBatchSequence)
    (hSequence : batch.sequence = s.sealedBatchSequence)
    (hBalanced : Balanced s batch.sequence (batch.remainingSubscribers - 1) served) :
    Accounting { pallet := s.countDown batch, served := served } := by
  unfold countDown
  split_ifs with hZero
  · exact accounting_clearBatch hLe served
  · refine ⟨hLe, ?_, ?_, ?_, ?_⟩
    · intro hNone
      cases hNone
    · intro batch' hBatch
      rw [← Option.some.inj hBatch]
      exact hSequence
    · intro batch' hBatch
      rw [← Option.some.inj hBatch]
      exact Nat.pos_of_ne_zero hZero
    · intro batch' hBatch
      rw [← Option.some.inj hBatch]
      exact ⟨hBalanced.remaining_eq, hBalanced.recipients_subscribe, hBalanced.served_nodup,
        hBalanced.mem_served_iff⟩

/- A batch is over exactly when all entitled are served. -/
theorem countDown_none_iff {s : NotifierState T}
    (hBalanced : Balanced s batch.sequence (batch.remainingSubscribers - 1) served) :
    (s.countDown batch).currentBatch = none ↔ ∀ p info,
        (s.countDown batch).subscribers.get p = some info →
        info.lastInitSequence < batch.sequence → p ∈ served := by
  have hSubscribers : (s.countDown batch).subscribers = s.subscribers := by
    unfold countDown
    split_ifs
    · rfl
    · rfl
  rw [hSubscribers]
  unfold countDown
  constructor
  · intro hNone p info hInfo hEntitled
    split_ifs at hNone with hZero
    rw [hZero] at hBalanced
    exact hBalanced.served_of_zero hInfo hEntitled
  · intro hAll
    rw [if_pos]
    · rfl
    · by_contra hNe
      rcases hBalanced.exists_unserved (Nat.pos_of_ne_zero hNe) with
        ⟨p, info, hInfo, hEntitled, hUnserved⟩
      exact hUnserved (hAll p info hInfo hEntitled)

/-
  The batch is over exactly when everybody who subscribes and
  was there when it was sealed has been served.
-/
def OverWhenServed (batch : BatchDistributionState) (w : Distribution T) : Prop :=
  w.pallet.currentBatch = none ↔ ∀ p info, w.pallet.subscribers.get p = some info →
      info.lastInitSequence < batch.sequence → p ∈ w.served

/- A batch that goes on has not been sent to everybody. -/
theorem overWhenServed_of_same {w : Distribution T} (hAccounting : Accounting w)
    {batch' : BatchDistributionState} (hBatch : w.pallet.currentBatch = some batch')
    (hSequence : batch'.sequence = batch.sequence) :
    OverWhenServed batch w := by
  rcases (hAccounting.balanced batch' hBatch).exists_unserved
    (hAccounting.remaining_pos batch' hBatch) with
    ⟨p, info, hInfo, hEntitled, hUnserved⟩
  unfold OverWhenServed
  rw [hBatch]
  constructor
  · intro hNone
    cases hNone
  · intro hAll
    rw [hSequence] at hEntitled
    exact absurd (hAll p info hInfo hEntitled) hUnserved

/- Both parts of what a step keeps of the accounting. -/
def Kept (w w' : Distribution T) : Prop :=
  Accounting w' ∧ ∀ batch, w.pallet.currentBatch = some batch → OverWhenServed batch w'

theorem kept_of_same {w : Distribution T} (hAccounting : Accounting w) {s : NotifierState T}
    (hSubscribers : s.subscribers = w.pallet.subscribers)
    (hSequence : s.sealedBatchSequence = w.pallet.sealedBatchSequence)
    (hBatch : s.currentBatch = w.pallet.currentBatch)
    (hRecipients : s.subscribersWithCurrentBatch = w.pallet.subscribersWithCurrentBatch) :
    Kept w { pallet := s, served := w.served } := by
  have hSame := accounting_of_same hAccounting hSubscribers hSequence hBatch hRecipients
  refine ⟨hSame, ?_⟩
  intro batch hCurrent
  exact overWhenServed_of_same hSame (hBatch.trans hCurrent) rfl

theorem kept_joined {w : Distribution T} (hAccounting : Accounting w)
    (now : Nat) (collections : Collections T) (hNew : w.pallet.subscribers.get p = none) :
    Kept w
      { pallet := w.pallet.joined now p collections
        served := w.served } := by
  have hJoined : Accounting
        { pallet := w.pallet.joined now p collections
          served := w.served } := by
    refine ⟨?_, hAccounting.no_recipients, hAccounting.sequence_eq, hAccounting.remaining_pos, ?_⟩
    · intro p' info hInfo
      have hGet : (w.pallet.subscribers.insert p ⟨collections, w.pallet.sealedBatchSequence⟩).get p'
          = some info := hInfo
      rw [get_insert] at hGet
      split_ifs at hGet with hSame
      · rw [← Option.some.inj hGet]
        exact Nat.le_refl _
      · exact hAccounting.lastInit_le p' info hGet
    · intro batch hBatch
      have hLate : ¬ w.pallet.sealedBatchSequence < batch.sequence := by
        rw [hAccounting.sequence_eq batch hBatch]
        exact Nat.lt_irrefl _
      have hBalanced : Balanced
            { w.pallet with
              subscribers := w.pallet.subscribers.insert p
                  ⟨collections, w.pallet.sealedBatchSequence⟩ }
            batch.sequence batch.remainingSubscribers
            w.served :=
        (hAccounting.balanced batch hBatch).join hNew hLate
      exact ⟨hBalanced.remaining_eq, hBalanced.recipients_subscribe, hBalanced.served_nodup,
        hBalanced.mem_served_iff⟩
  exact ⟨hJoined, fun batch hBatch => overWhenServed_of_same hJoined hBatch rfl⟩

theorem leaveBatch_of_none {s : NotifierState T} (hBatch : s.currentBatch = none) (p : ParaId)
    (info : SubscriberInfo T) :
    s.leaveBatch p info = s := by
  unfold leaveBatch
  rw [hBatch]

theorem leaveBatch_of_some {s : NotifierState T} (hBatch : s.currentBatch = some batch) (p : ParaId)
    (info : SubscriberInfo T) :
    s.leaveBatch p info =
      if p ∈ s.subscribersWithCurrentBatch then
        { s with
          subscribersWithCurrentBatch := s.subscribersWithCurrentBatch.erase p }
      else if info.lastInitSequence < batch.sequence
          ∧ 0 < batch.remainingSubscribers then
        s.countDown batch
      else
        s := by
  unfold leaveBatch
  rw [hBatch]

/- The subscribers and the recipients changed in the same batch and the counter still fits them. -/
theorem kept_of_batch {w : Distribution T} (hAccounting : Accounting w) {s : NotifierState T}
    (hCurrent : w.pallet.currentBatch = some batch)
    (hBatch : s.currentBatch = w.pallet.currentBatch)
    (hSequence : s.sealedBatchSequence = w.pallet.sealedBatchSequence)
    (hLe : ∀ p info, s.subscribers.get p = some info →
        info.lastInitSequence ≤ s.sealedBatchSequence)
    (hBalanced : Balanced s batch.sequence batch.remainingSubscribers w.served) :
    Kept w { pallet := s, served := w.served } := by
  have hSame : ∀ batch', s.currentBatch = some batch' → batch' = batch := by
    intro batch' hSome
    rw [hBatch, hCurrent, Option.some.injEq] at hSome
    exact hSome.symm
  have hNew : Accounting { pallet := s, served := w.served } := by
    refine ⟨hLe, ?_, ?_, ?_, ?_⟩
    · intro hNone
      simp only [hBatch, hCurrent] at hNone
      cases hNone
    · intro batch' hSome
      rw [hSame batch' hSome]
      simp only [hSequence]
      exact hAccounting.sequence_eq batch hCurrent
    · intro batch' hSome
      rw [hSame batch' hSome]
      exact hAccounting.remaining_pos batch hCurrent
    · intro batch' hSome
      rw [hSame batch' hSome]
      exact hBalanced
  exact ⟨hNew, fun batch' hSome =>
    overWhenServed_of_same hNew (hBatch.trans hSome) rfl⟩

theorem kept_left {w : Distribution T} (hAccounting : Accounting w)
    (hInfo : w.pallet.subscribers.get p = some info) :
    Kept w
      { pallet := (w.pallet.removed p info).leaveBatch p info
        served := w.served } := by
  have hLe : ∀ p' info', (w.pallet.removed p info).subscribers.get p' = some info' →
          info'.lastInitSequence ≤ (w.pallet.removed p info).sealedBatchSequence := by
    intro p' info' hGet
    have hRemoved : (w.pallet.subscribers.remove p).get p' = some info' := hGet
    rw [get_remove] at hRemoved
    split_ifs at hRemoved with hSame
    exact hAccounting.lastInit_le p' info' hRemoved
  cases hCurrent : w.pallet.currentBatch with
  | none =>
    have hNone : (w.pallet.removed p info).currentBatch = none := hCurrent
    rw [leaveBatch_of_none hNone]
    refine ⟨⟨hLe, hAccounting.no_recipients,
      hAccounting.sequence_eq, hAccounting.remaining_pos, ?_⟩,
      ?_⟩
    · intro batch hSome
      rw [hNone] at hSome
      cases hSome
    · intro batch hSome
      rw [hCurrent] at hSome
      cases hSome
  | some batch =>
    have hSome : (w.pallet.removed p info).currentBatch = some batch := hCurrent
    have hBalanced := hAccounting.balanced batch hCurrent
    have hPos := hAccounting.remaining_pos batch hCurrent
    rw [leaveBatch_of_some hSome]
    by_cases hServed : p ∈ (w.pallet.removed p info).subscribersWithCurrentBatch
    · have hLeft := hBalanced.leave_served hInfo hServed
      rw [if_pos hServed]
      exact kept_of_batch hAccounting hCurrent rfl rfl hLe
        ⟨hLeft.remaining_eq, hLeft.recipients_subscribe, hLeft.served_nodup, hLeft.mem_served_iff⟩
    · have hLeft := hBalanced.leave_waiting hInfo hServed
      unfold awaits at hLeft
      rw [if_neg hServed]
      by_cases hEntitled : info.lastInitSequence < batch.sequence
      · rw [if_pos ⟨hEntitled, hServed⟩] at hLeft
        rw [if_pos ⟨hEntitled, hPos⟩]
        have hAfter : Balanced (w.pallet.removed p info) batch.sequence
              (batch.remainingSubscribers - 1) w.served :=
          ⟨hLeft.remaining_eq, hLeft.recipients_subscribe, hLeft.served_nodup, hLeft.mem_served_iff⟩
        refine ⟨accounting_countDown hLe (hAccounting.sequence_eq batch hCurrent) hAfter, ?_⟩
        intro batch' hBatch'
        rw [hCurrent, Option.some.injEq] at hBatch'
        rw [← hBatch']
        exact countDown_none_iff hAfter
      · rw [if_neg (fun hBoth => hEntitled hBoth.1), Nat.sub_zero] at hLeft
        rw [if_neg (fun hBoth => hEntitled hBoth.1)]
        exact kept_of_batch hAccounting hCurrent rfl rfl hLe
          ⟨hLeft.remaining_eq, hLeft.recipients_subscribe, hLeft.served_nodup, hLeft.mem_served_iff⟩

/- Everybody waits for a batch that was just sealed. -/
theorem kept_sealed {w : Distribution T} (hAccounting : Accounting w)
    (hBatch : w.pallet.currentBatch = none) (hSubscribers : w.pallet.subscribers.keys.length ≠ 0)
    (hLt : w.pallet.sealedBatchSequence < u64Max) (now block : Nat) :
    Kept w
      { pallet := w.pallet.sealed now block
        served := [] } := by
  have hNoRecipients := hAccounting.no_recipients hBatch
  rcases sealed_frame w.pallet now block with ⟨pageState, pending, counts, indices, hSealed⟩
  have hSequence : saturatingAdd u64Max w.pallet.sealedBatchSequence 1
        = w.pallet.sealedBatchSequence + 1 :=
    saturatingAdd_of_le hLt
  have hWaiting : w.pallet.subscribers.keys.length = w.pallet.subscribers.sum
            (awaits w.pallet.subscribersWithCurrentBatch (w.pallet.sealedBatchSequence + 1)) := by
    rw [← sum_one_eq_length_keys]
    apply sum_congr
    intro p info hInfo
    symm
    unfold awaits
    rw [if_pos]
    refine ⟨Nat.lt_succ_of_le (hAccounting.lastInit_le p info hInfo), ?_⟩
    rw [hNoRecipients]
    exact Finset.notMem_empty p
  refine ⟨?_, ?_⟩
  · rw [hSealed]
    unfold startBatch
    rw [hSequence]
    refine ⟨?_, ?_, ?_, ?_, ?_⟩
    · intro p info hInfo
      exact Nat.le_succ_of_le (hAccounting.lastInit_le p info hInfo)
    · intro hNone
      cases hNone
    · intro batch hSome
      rw [← Option.some.inj hSome]
    · intro batch hSome
      rw [← Option.some.inj hSome]
      exact Nat.pos_of_ne_zero hSubscribers
    · intro batch hSome
      rw [← Option.some.inj hSome]
      refine ⟨?_, ?_, List.nodup_nil, ?_⟩
      · exact hWaiting
      · intro p hMem
        simp only [hNoRecipients] at hMem
        exact absurd hMem (Finset.notMem_empty p)
      · intro p info _ _
        simp only [hNoRecipients, Finset.notMem_empty, List.not_mem_nil]
  · intro batch hSome
    rw [hBatch] at hSome
    cases hSome

theorem kept_marked {w : Distribution T} (hAccounting : Accounting w)
    (hBatch : w.pallet.currentBatch = some batch)
    (hWaiting : p ∉ w.pallet.subscribersWithCurrentBatch)
    (hInfo : w.pallet.subscribers.get p = some info)
    (hEntitled : info.lastInitSequence < batch.sequence) :
    Kept w
      { pallet := w.pallet.markProcessed batch p
        served := w.served ++ [p] } := by
  have hServed := (hAccounting.balanced batch hBatch).serve hInfo hEntitled hWaiting
  refine ⟨accounting_countDown hAccounting.lastInit_le
    (hAccounting.sequence_eq batch hBatch) hServed, ?_⟩
  intro batch' hBatch'
  rw [hBatch, Option.some.injEq] at hBatch'
  rw [← hBatch']
  exact countDown_none_iff hServed

/- Every call keeps the accounting of the batch. -/
theorem accounting_step {w w' : Distribution T} (hAccounting : Accounting w)
    (hCountable : Countable w call w') (hStep : step w call = .ok w') :
    Accounting w' ∧ (call.2 ≠ .abandonStuckBatch → ∀ batch,
        w.pallet.currentBatch = some batch → OverWhenServed batch w') := by
  rcases call with ⟨chain, op⟩
  rcases step_eq_ok hStep with ⟨⟨sent, hEffect⟩, hServed⟩
  rcases w' with ⟨s', served'⟩
  simp only at hEffect hServed
  have hKept : op ≠ .abandonStuckBatch → Kept w ⟨s', served'⟩ := by
    rw [hServed]
    intro hOp
    cases hEffect with
    | joined op p collections hOp' hNew _ =>
      have hUnserved : noteServed w.pallet (w.pallet.joined chain.now p collections) chain
            w.served op = w.served := by
        rcases hOp' with hEq | hEq
        · rw [hEq]
          rfl
        · rw [hEq]
          rfl
      rw [hUnserved]
      exact kept_joined hAccounting chain.now collections hNew
    | left p fromSubscriber info hInfo =>
      exact kept_left hAccounting hInfo
    | replayed p identifier indices info _ _ =>
      exact kept_of_same hAccounting rfl rfl rfl rfl
    | drained hBatch _ =>
      rcases drained_frame w.pallet chain.block with ⟨pageState, pending, counts, hDrained⟩
      have hNone : (w.pallet.drained chain.block).currentBatch = none := by
        rw [hDrained]
        exact hBatch
      rw [noteServed_enqueueUpdates, hNone, hDrained]
      exact kept_of_same hAccounting rfl rfl rfl rfl
    | «sealed» hBatch hSubscribers _ =>
      rcases sealed_frame w.pallet chain.now chain.block with
        ⟨pageState, pending, counts, indices, hSealed⟩
      have hSome : (w.pallet.sealed chain.now chain.block).currentBatch.isSome = true := by
        rw [hSealed]
        rfl
      rw [noteServed_enqueueUpdates, if_pos hSome]
      exact kept_sealed hAccounting hBatch hSubscribers (hCountable _ rfl) chain.now chain.block
    | skipped p batch info hBatch _ hWaiting hInfo hEntitled
        hChannel =>
        have hWhole : servedWhole w.pallet chain p = true := by
          unfold servedWhole
          rcases hChannel with hNone | hZero
          · rw [hBatch, hInfo, hNone]
          · rw [hBatch, hInfo, hZero]
        rw [noteServed_sendBatch, if_pos hWhole]
        exact kept_marked hAccounting hBatch hWaiting hInfo hEntitled
    | delivered p batch info n hBatch _ hWaiting hInfo hEntitled
        hChannel hAll =>
        have hWhole : servedWhole w.pallet chain p = true := by
          unfold servedWhole
          rw [hBatch, hInfo, hChannel]
          exact hAll
        rw [noteServed_sendBatch, if_pos hWhole]
        exact kept_marked hAccounting hBatch hWaiting hInfo hEntitled
    | retried p batch info n hBatch hWaiting hInfo hEntitled
        hChannel hAll =>
        have hPart : servedWhole w.pallet chain p = false := by
          unfold servedWhole
          rw [hBatch, hInfo, hChannel]
          exact hAll
        rw [noteServed_sendBatch, hPart, if_neg Bool.false_ne_true]
        exact kept_of_same hAccounting rfl rfl rfl rfl
    | initStalled p index after =>
      exact kept_of_same hAccounting rfl rfl rfl rfl
    | initFinished p index after state _ _ =>
      exact kept_of_same hAccounting rfl rfl rfl rfl
    | initPage p index after state identifier exponent max _ _
        _ =>
        exact kept_of_same hAccounting rfl rfl rfl rfl
    | abandoned batch _ => exact absurd rfl hOp
    | changed identifier ringIndex =>
      rcases onRingRootChange_frame w.pallet identifier
        ringIndex with ⟨pageState, pending, counts, hChanged⟩
      rw [hChanged]
      exact kept_of_same hAccounting rfl rfl rfl rfl
  by_cases hOp : op = .abandonStuckBatch
  · refine ⟨?_, fun hNe => absurd hOp hNe⟩
    subst hOp
    cases hEffect with
    | abandoned batch hBatch =>
      exact accounting_clearBatch hAccounting.lastInit_le _
    | joined op p collections hOp' _ _ =>
      rcases hOp' with hEq | hEq
      · cases hEq
      · cases hEq
  · exact ⟨(hKept hOp).1, fun _ => (hKept hOp).2⟩

/-
  While the numbers of the batches can be counted, the counter of the current batch is the number of
  subscribers that it was sealed for and that have still to receive it.  Nobody is served twice, and
  the batch is over, unless abandoned, exactly when everybody has been served.
-/
theorem batch_accounting (whitelist : StorageMap ParaId (Collections T)) (w : Distribution T)
    (hRun : RunUnder (step (R := R)) Countable (start whitelist) w) (batch : BatchDistributionState)
    (hBatch : w.pallet.currentBatch = some batch) :
    batch.remainingSubscribers = w.pallet.waiting batch.sequence ∧ 0 < batch.remainingSubscribers
      ∧ (∀ p ∈ w.pallet.subscribersWithCurrentBatch, w.pallet.subscribers.get p ≠ none)
      ∧ w.served.Nodup
      ∧ ∀ (call : Chain R × NotifierOp T) w', step w call = .ok w' →
          call.2 ≠ .abandonStuckBatch → (w'.pallet.currentBatch = none ↔ ∀ p info,
              w'.pallet.subscribers.get p = some info →
              info.lastInitSequence < batch.sequence → p ∈ w'.served) := by
  have hAccounting : Accounting w := hRun.invariant Accounting
      (fun _ _ _ hCountable hStep hOld => (accounting_step hOld hCountable hStep).1)
      (accounting_start whitelist)
  have hBalanced := hAccounting.balanced batch hBatch
  refine ⟨hBalanced.remaining_eq, hAccounting.remaining_pos batch hBatch,
    hBalanced.recipients_subscribe, hBalanced.served_nodup, ?_⟩
  intro call w' hStep hOp
  have hCountable : Countable w call w' := by
    intro page hPage
    rcases step_eq_ok hStep with ⟨⟨sent, hEffect⟩, _⟩
    rw [hPage] at hEffect
    have hNone := hEffect.no_batch_of_enqueueUpdates
    rw [hBatch] at hNone
    cases hNone
  exact (accounting_step hAccounting hCountable hStep).2 hOp batch hBatch

private def sealsCounted (w : Distribution sampleConfig)
    (_ : Chain Nat × NotifierOp sampleConfig) : Bool :=
  w.pallet.sealedBatchSequence < u64Max

private theorem countable_of_sealsCounted
    (w : Distribution sampleConfig) (call : Chain Nat × NotifierOp sampleConfig)
    (w' : Distribution sampleConfig) (hCheck : sealsCounted w call = true) :
    Countable w call w' :=
  fun _ _ => of_decide_eq_true hCheck

/- One of two subscribers has been sent a batch. -/
theorem batch_accounting_sample : ∃ w batch,
      RunUnder (step (R := Nat)) Countable (start (T := sampleConfig) .empty) w
      ∧ w.pallet.currentBatch = some batch
      ∧ w.served = [1]
      ∧ batch.remainingSubscribers = w.pallet.waiting batch.sequence := by
  have hExecute : ((execute (step (R := Nat)) sealsCounted (start (T := sampleConfig) .empty)
        ([.subscribe 1 sampleCollections, .subscribe 2 sampleCollections,
          .onRingRootChange MembersPallet.sampleIdentifier 0,
          .enqueueUpdates 0,
          .sendBatch 1 1].map (sampleChain, ·))).any fun w =>
        w.pallet.currentBatch.isSome ∧ w.served = [1])
        = true := by
    decide +kernel
  have hReached := exists_run_of_execute
      (fun w call w' hCheck _ => countable_of_sealsCounted w call w' hCheck)
      hExecute
  rcases hReached with ⟨w, hRun, hTest⟩
  rw [decide_eq_true_eq] at hTest
  rcases Option.isSome_iff_exists.mp hTest.1 with ⟨batch, hBatch⟩
  exact ⟨w, batch, hRun, hBatch, hTest.2, (batch_accounting .empty w hRun batch hBatch).1⟩

/- Between batches, with no change recorded: the state after `n` batches. -/
private structure Idle (subscribers : StorageMap ParaId (SubscriberInfo sampleConfig))
    (n : SequenceNumber) (w : Distribution sampleConfig) : Prop where
  subscribers_eq : w.pallet.subscribers = subscribers
  collections_eq : w.pallet.subscribedCollections = {MembersPallet.sampleIdentifier}
  sequence_eq : w.pallet.sealedBatchSequence = n
  no_batch : w.pallet.currentBatch = none
  no_recipients : w.pallet.subscribersWithCurrentBatch = ∅
  one_page : w.pallet.pageState.sendPage = w.pallet.pageState.writePage
  no_count : ∀ page, w.pallet.pageUpdatesCount.getD page 0 = 0
  no_pending : ∀ key, w.pallet.pendingUpdates.get key = none

/- The call that records a change of the first ring. -/
private abbrev changeCall :
    Chain Nat × NotifierOp sampleConfig :=
  (sampleChain, .onRingRootChange MembersPallet.sampleIdentifier 0)

private def changedPallet (s : NotifierState sampleConfig) :
    NotifierState sampleConfig :=
  s.recordUpdate MembersPallet.sampleIdentifier 0

variable {subscribers : StorageMap ParaId (SubscriberInfo sampleConfig)}

private theorem step_change {w : Distribution sampleConfig} (hIdle : Idle subscribers n w) :
    step w changeCall = .ok
      { pallet := changedPallet w.pallet
        served := w.served } := by
  have hChanged : w.pallet.onRingRootChange MembersPallet.sampleIdentifier 0
        = changedPallet w.pallet := by
    unfold onRingRootChange
    rw [if_neg, if_neg]
    · unfold openWritePage
      dsimp only
      rw [hIdle.no_count, if_neg (by decide)]
      rfl
    · unfold StorageMap.containsKey
      rw [hIdle.no_pending]
      exact Bool.false_ne_true
    · rw [hIdle.collections_eq]
      exact fun hNot => hNot (Finset.mem_singleton_self _)
  unfold step
  rw [← hChanged]
  rfl

private abbrev sealCall (page : PageIndex) :
    Chain Nat × NotifierOp sampleConfig :=
  (sampleChain, .enqueueUpdates page)

/- The one change of an idle pallet is sealed. -/
private theorem step_seal {w : Distribution sampleConfig} (hIdle : Idle subscribers n w)
    (hSubscribers : subscribers.keys.length ≠ 0) :
    step { pallet := changedPallet w.pallet, served := w.served }
        (sealCall w.pallet.pageState.sendPage)
      = .ok
        { pallet := (changedPallet w.pallet).sealed 0 0
          served := [] } := by
  have hCount : (changedPallet w.pallet).pageUpdatesCount.getD
        w.pallet.pageState.writePage 0 = 1 := by
    unfold changedPallet recordUpdate
    dsimp only
    rw [getD_insert, if_pos rfl, hIdle.no_count]
    decide
  have hWork : (changedPallet w.pallet).hasProcessableUpdates 0 = true := by
    unfold hasProcessableUpdates
    dsimp only
    rw [if_neg (fun hNe => hNe hIdle.one_page)]
    rw [show (changedPallet w.pallet).pageState.writePage
      = w.pallet.pageState.writePage from rfl, hCount]
    rfl
  have hAuthorized : (changedPallet w.pallet).authorizeEnqueueUpdates 0
        w.pallet.pageState.sendPage = .ok () := by
    unfold authorizeEnqueueUpdates
    simp only [bind_eq_ok, ensure_eq_ok_iff, exists_const]
    exact ⟨hIdle.no_batch, Nat.le_refl _, Nat.le_refl _, hWork⟩
  have hCollections : (changedPallet w.pallet).changedCollections
        ((changedPallet w.pallet).pageUpdates w.pallet.pageState.sendPage) ≠ [] := by
    apply List.ne_nil_of_mem (a := MembersPallet.sampleIdentifier)
    unfold changedCollections
    rw [List.mem_filter, List.mem_map]
    refine ⟨⟨(MembersPallet.sampleIdentifier, 0), ?_, rfl⟩, ?_⟩
    · unfold pageUpdates
      rw [List.mem_map]
      refine ⟨(w.pallet.pageState.sendPage, MembersPallet.sampleIdentifier, 0), ?_, rfl⟩
      rw [List.mem_filter, StorageMap.mem_keys_iff, hIdle.one_page]
      refine ⟨?_, decide_eq_true rfl⟩
      unfold changedPallet recordUpdate
      rw [StorageMap.get_insert_self]
      exact Option.some_ne_none _
    · rw [decide_eq_true_eq]
      unfold changedPallet recordUpdate
      dsimp only
      rw [hIdle.collections_eq]
      exact Finset.mem_singleton_self _
  have hCall : (changedPallet w.pallet).enqueueUpdates 0 0 w.pallet.pageState.sendPage
        = .ok ((changedPallet w.pallet).sealed 0 0) := by
    unfold enqueueUpdates
    rw [hAuthorized, ok_bind]
    dsimp only
    rw [if_neg]
    · rfl
    · rintro (hZero | hNil)
      · apply hSubscribers
        rw [← hIdle.subscribers_eq]
        exact hZero
      · exact hCollections hNil
  rcases sealed_frame (changedPallet w.pallet) 0 0 with
    ⟨pageState, pending, counts, indices, hSealed⟩
  have hSome : ((changedPallet w.pallet).sealed 0 0).currentBatch.isSome = true := by
    rw [hSealed]
    rfl
  unfold step
  simp only [NotifierState.apply, sampleChain]
  rw [hCall]
  simp only [Functor.map, Except.map, ok_bind, noteServed_enqueueUpdates]
  rw [if_pos hSome]
  rfl

private def skipCall (n : SequenceNumber) : Chain Nat × NotifierOp sampleConfig :=
  (sampleChain, .sendBatch 1 n)

/- A lone subscriber, there from the start. -/
private def loneSubscriber :
    StorageMap ParaId (SubscriberInfo sampleConfig) :=
  StorageMap.empty.insert 1 ⟨sampleCollections, 0⟩

/- What the sealing of the one change leaves behind. -/
private structure JustSealed (subscribers : StorageMap ParaId (SubscriberInfo sampleConfig))
    (n : SequenceNumber) (s : NotifierState sampleConfig) : Prop where
  subscribers_eq : s.subscribers = subscribers
  collections_eq : s.subscribedCollections = {MembersPallet.sampleIdentifier}
  sequence_eq : s.sealedBatchSequence = n
  batch_eq : s.currentBatch = some ⟨n, 0, 0, subscribers.keys.length⟩
  no_recipients : s.subscribersWithCurrentBatch = ∅
  one_page : s.pageState.sendPage = s.pageState.writePage
  no_count : ∀ page, s.pageUpdatesCount.getD page 0 = 0
  no_pending : ∀ key, s.pendingUpdates.get key = none

private theorem justSealed {w : Distribution sampleConfig} (hIdle : Idle subscribers n w) :
    JustSealed subscribers (saturatingAdd u64Max n 1) ((changedPallet w.pallet).sealed 0 0) := by
  have hWrite : (changedPallet w.pallet).sealWritePage
        = { changedPallet w.pallet with
            pageState :=
              { w.pallet.pageState with
                writePage := nextPage w.pallet.pageState.writePage } } := by
    unfold sealWritePage
    rw [if_pos]
    · rfl
    · exact hIdle.one_page
  unfold NotifierState.sealed
  rw [hWrite]
  refine ⟨hIdle.subscribers_eq, hIdle.collections_eq, ?_, ?_, hIdle.no_recipients, ?_, ?_, ?_⟩
  · rw [← hIdle.sequence_eq]
    rfl
  · rw [← hIdle.sequence_eq, ← hIdle.subscribers_eq]
    rfl
  · exact congrArg nextPage hIdle.one_page
  · intro page
    change ((w.pallet.pageUpdatesCount.insert w.pallet.pageState.writePage _).remove
        w.pallet.pageState.sendPage).getD page 0 = 0
    rw [StorageMap.getD_remove, hIdle.one_page]
    by_cases hPage : page = w.pallet.pageState.writePage
    · rw [if_pos hPage]
    · rw [if_neg hPage, getD_insert, if_neg hPage]
      exact hIdle.no_count page
  · intro key
    change ((((w.pallet.pendingUpdates.insert (w.pallet.pageState.writePage,
        MembersPallet.sampleIdentifier, 0) ()).keys.filter fun key =>
            key.1 = w.pallet.pageState.sendPage).take 4).foldl
              (·.remove ·) (w.pallet.pendingUpdates.insert (w.pallet.pageState.writePage,
                  MembersPallet.sampleIdentifier, 0) ())).get key = none
    rw [StorageMap.eq_empty_of_get hIdle.no_pending, hIdle.one_page]
    have hKeys : (StorageMap.empty.insert (w.pallet.pageState.writePage,
        MembersPallet.sampleIdentifier, 0) ()).keys
        = [(w.pallet.pageState.writePage, MembersPallet.sampleIdentifier, 0)] := rfl
    rw [hKeys, StorageMap.get_foldl_remove, get_insert, get_empty]
    split_ifs with hMem hKey
    · rfl
    · rw [hKey] at hMem
      exact absurd (by simp) hMem
    · rfl

/- The lone subscriber is skipped, and the batch is over. -/
private theorem step_skip {s : NotifierState sampleConfig} (hSealed : JustSealed loneSubscriber n s)
    (hPos : 0 < n) :
    ∃ w, step { pallet := s, served := [] } (skipCall n) = .ok w ∧ Idle loneSubscriber n w := by
  have hInfo : s.subscribers.get 1 = some ⟨sampleCollections, 0⟩ := by
    rw [hSealed.subscribers_eq]
    rfl
  have hWaiting : 1 ∉ s.subscribersWithCurrentBatch := by
    rw [hSealed.no_recipients]
    exact Finset.notMem_empty 1
  have hAuthorized : s.authorizeSendBatch 1 n = .ok () := by
    unfold authorizeSendBatch
    simp only [bind_eq_ok, okOr_eq_ok_iff, ensure_eq_ok_iff, exists_const]
    exact ⟨_, hSealed.batch_eq, Nat.le_refl _, Nat.le_refl _,
      Nat.one_ne_zero, hWaiting, _, hInfo, hPos⟩
  have hCall : s.sendBatch sampleChain 1 n = .ok (s.markProcessed ⟨n, 0, 0, 1⟩ 1, []) := by
    unfold sendBatch
    rw [hAuthorized, ok_bind, hSealed.batch_eq, okOr_some, ok_bind, hInfo, okOr_some, ok_bind]
    rfl
  have hOver : s.markProcessed ⟨n, 0, 0, 1⟩ 1
        = { s with
            subscribersWithCurrentBatch := insert 1 s.subscribersWithCurrentBatch }.clearBatch := by
    unfold markProcessed countDown
    exact if_pos rfl
  refine ⟨⟨s.markProcessed ⟨n, 0, 0, 1⟩ 1,
    noteServed s (s.markProcessed ⟨n, 0, 0, 1⟩ 1) sampleChain [] (.sendBatch 1 n)⟩, ?_, ?_⟩
  · unfold step skipCall
    simp only [NotifierState.apply]
    rw [hCall]
    rfl
  · simp only [hOver]
    exact ⟨hSealed.subscribers_eq, hSealed.collections_eq,
      hSealed.sequence_eq, rfl, rfl, hSealed.one_page,
      hSealed.no_count, hSealed.no_pending⟩

private abbrev AnyRun (w : Distribution sampleConfig) : Prop :=
  RunUnder (step (R := Nat)) (fun _ _ _ => True) (start .empty) w

/- Batch after batch is sealed and skipped. -/
private theorem exists_idle (n : SequenceNumber) (hLe : n ≤ u64Max) :
    ∃ w, AnyRun w ∧ Idle loneSubscriber n w := by
  induction n with
  | zero =>
    refine ⟨⟨(NotifierState.genesis .empty).joined 0 1 sampleCollections, []⟩, ?_, ?_⟩
    · have hJoin : step (start .empty) (sampleChain, .subscribe 1 sampleCollections)
          = .ok ⟨(NotifierState.genesis .empty).joined 0 1 sampleCollections, []⟩ := rfl
      exact RunUnder.single trivial hJoin
    · refine ⟨rfl, ?_, rfl, rfl, rfl, rfl, ?_, ?_⟩
      · decide
      · exact fun page => StorageMap.getD_empty page 0
      · exact fun key => get_empty key
  | succ n ih =>
    rcases ih (Nat.le_of_succ_le hLe) with ⟨w, hRun, hIdle⟩
    have hSealed := justSealed hIdle
    rw [saturatingAdd_of_le hLe] at hSealed
    rcases step_skip hSealed (Nat.succ_pos n) with ⟨w', hSkip, hIdle'⟩
    refine ⟨w', ?_, hIdle'⟩
    have hChanged := hRun.snoc trivial (step_change hIdle)
    have hSealedRun := RunUnder.snoc hChanged trivial (step_seal hIdle (by decide))
    exact RunUnder.snoc hSealedRun trivial hSkip

private def lateSubscriber :
    StorageMap ParaId (SubscriberInfo sampleConfig) :=
  loneSubscriber.insert 2 ⟨sampleCollections, u64Max⟩

/-
  When the last sequence number is reached, a newcomer gets it too.  The next batch, of the same
  number, counts the newcomer although it is not entitled to it.
-/
theorem batch_accounting_fails : ∃ w batch,
      RunUnder (step (R := Nat)) (fun _ _ _ => True) (start (T := sampleConfig) .empty) w
      ∧ w.pallet.currentBatch = some batch
      ∧ batch.remainingSubscribers = 2
      ∧ w.pallet.waiting batch.sequence = 1 := by
  rcases exists_idle u64Max (Nat.le_refl _) with ⟨w, hRun, hIdle⟩
  have hJoin : step w (sampleChain, .subscribe 2 sampleCollections) = .ok
          { pallet := w.pallet.joined 0 2 sampleCollections
            served := w.served } := by
    have hCall : w.pallet.doSubscribe 0 2 sampleCollections
          = .ok (w.pallet.joined 0 2 sampleCollections) := by
      have hNew : w.pallet.subscribers.containsKey 2 = false := by
        rw [hIdle.subscribers_eq]
        rfl
      have hRoom : w.pallet.subscribers.keys.length < sampleConfig.maxSubscribers := by
        rw [hIdle.subscribers_eq]
        decide
      unfold doSubscribe
      rw [ensure_of hNew, ok_bind, ensure_of hRoom, ok_bind]
      rfl
    have hOrder : ensureCollectionOrder sampleCollections.toList = true := rfl
    unfold step
    simp only [NotifierState.apply, NotifierState.subscribe, sampleChain]
    rw [ensure_of hOrder, ok_bind, hCall]
    rfl
  have hIdle' : Idle lateSubscriber u64Max
        { pallet := w.pallet.joined 0 2 sampleCollections
          served := w.served } := by
    refine ⟨?_, ?_, hIdle.sequence_eq, hIdle.no_batch,
      hIdle.no_recipients, hIdle.one_page, hIdle.no_count,
      hIdle.no_pending⟩
    · simp only [joined, rebuildSubscribedCollections, registerForInit]
      rw [hIdle.subscribers_eq, hIdle.sequence_eq]
      rfl
    · simp only [joined, rebuildSubscribedCollections, registerForInit]
      rw [hIdle.subscribers_eq, hIdle.sequence_eq]
      decide
  have hSealed := justSealed hIdle'
  refine ⟨_, _, RunUnder.snoc (RunUnder.snoc (hRun.snoc trivial hJoin) trivial (step_change hIdle'))
      trivial (step_seal hIdle' (by decide)),
    hSealed.batch_eq, rfl, ?_⟩
  unfold NotifierState.waiting
  simp only [hSealed.subscribers_eq, hSealed.no_recipients]
  decide

end Distribution

end Individuality.MembersNotifier
