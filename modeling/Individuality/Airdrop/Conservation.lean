import Individuality.Airdrop.Lifecycle

/-
  Every operation of the airdrop pallet keeps all events sound
  and the hold equal to what they have outstanding.

  Main declaration: `LifeInvariant.moved`
-/

namespace Individuality.Airdrop

open Except (bind_eq_ok pure_eq_ok)
open StorageMap (get_insert get_insert_of_ne get_insert_self get_remove get_remove_self)
open DoubleMap (clearPrefix_done count_of_noneAt)

variable {T : Config} {w w' : World T} {eventId : EventId} {assetId : T.AssetId}
variable {amount : Nat} {s : AirdropState T} {event : T.Event}
variable {newStatus : Status} {info : T.Info} {chain : Chain T}

--
-- Moves and Drops
--

/- What a change of one event leaves alone for the others. -/
structure Elsewhere
    (w w' : World T)
    (eventId : EventId) : Prop where
  registrations : ∀ eventId' slot, eventId' ≠ eventId →
      w'.state.registrations.get (eventId', slot)
        = w.state.registrations.get (eventId', slot)
  winners : ∀ eventId' entry, eventId' ≠ eventId →
      w'.state.winners.get (eventId', entry)
        = w.state.winners.get (eventId', entry)
  entropy : ∀ eventId', eventId' ≠ eventId →
      w'.state.eventEntropy.get eventId' = w.state.eventEntropy.get eventId'
  life : ∀ eventId', eventId' ≠ eventId →
      lifeOf eventId' w'.journal = lifeOf eventId' w.journal

theorem Elsewhere.of_eq (hRegs : w'.state.registrations = w.state.registrations)
    (hWinners : w'.state.winners = w.state.winners)
    (hEntropy : w'.state.eventEntropy = w.state.eventEntropy)
    (hLife : ∀ eventId', eventId' ≠ eventId →
        lifeOf eventId' w'.journal = lifeOf eventId' w.journal) :
    Elsewhere w w' eventId := by
  refine ⟨?_, ?_, ?_, hLife⟩
  · intro eventId' slot _
    rw [hRegs]
  · intro eventId' entry _
    rw [hWinners]
  · intro eventId' _
    rw [hEntropy]

/- An amount that left the hold for an event. -/
structure Paid (w w' : World T) (eventId : EventId) (assetId : T.AssetId)
    (amount : Nat) : Prop where
  failures_eq : w'.failures = w.failures
  held : ∀ assetId',
      w'.funds.heldOf assetId'
          + (if assetId = assetId' then amount else 0)
        = w.funds.heldOf assetId'
  lifeHeld : w'.lifeHeld eventId = w.lifeHeld eventId
  lifePaid : w'.lifeClaimed eventId + w'.lifeRefunded eventId
      = w.lifeClaimed eventId + w.lifeRefunded eventId + amount

theorem Released.paid (hReleased : Released w w' eventId assetId amount) :
    Paid w w' eventId assetId amount := by
  refine ⟨hReleased.failures_eq, hReleased.held, hReleased.lifeHeld, ?_⟩
  rw [hReleased.lifeClaimed, hReleased.lifeRefunded]
  omega

/- A write to the storage leaves the funds alone. -/
theorem paid_withState (w : World T) (s : AirdropState T) (eventId : EventId)
    (assetId : T.AssetId) :
    Paid w (w.withState s) eventId assetId 0 := by
  refine ⟨rfl, ?_, rfl, rfl⟩
  intro assetId'
  rw [ite_self]
  rfl

/- A transition schedules the event for its new status only. -/
theorem AirdropState.get_transition
    (hIndex : ∀ t, s.actionSchedule.get (t, event.id) = some ()
        ↔ nextActionScheduledAt event.status event.info = t)
    (t : Nat)
    (eventId : EventId) :
    (s.transition event newStatus).1.actionSchedule.get (t, eventId) = some ()
      ↔ if eventId = event.id then
          nextActionScheduledAt newStatus event.info = t
        else s.actionSchedule.get (t, eventId) = some () := by
  unfold transition
  dsimp only
  by_cases hTime : nextActionScheduledAt event.status event.info
      = nextActionScheduledAt newStatus event.info
  · rw [if_neg (not_not_intro hTime)]
    by_cases hId : eventId = event.id
    · rw [if_pos hId, hId, hIndex, hTime]
    · rw [if_neg hId]
  · rw [if_pos hTime]
    dsimp only
    rw [get_insert, get_remove]
    simp only [Prod.mk.injEq]
    by_cases hId : eventId = event.id
    · rw [if_pos hId, hId]
      simp only [and_true]
      by_cases hNew : t = nextActionScheduledAt newStatus event.info
      · rw [if_pos hNew]
        exact ⟨fun _ => hNew.symm, fun _ => rfl⟩
      · rw [if_neg hNew]
        by_cases hOld : t = nextActionScheduledAt event.status event.info
        · rw [if_pos hOld]
          simp [Ne.symm hNew]
        · rw [if_neg hOld, hIndex]
          constructor
          · intro hEq
            exact absurd hEq.symm hOld
          · intro hEq
            exact absurd hEq.symm hNew
    · simp only [hId, and_false, if_false]

/-
  An event that gets a new status, with what leaves the hold
  taken from what it has outstanding, stays sound.
-/
theorem LifeInvariant.moved (hInv : LifeInvariant w)
    (hGet : w.state.events.get eventId = some event)
    (hEvents : w'.state.events = w.state.events.insert eventId { event with status := newStatus })
    (hSchedule : w'.state.actionSchedule = (w.state.transition event newStatus).1.actionSchedule)
    (hElse : Elsewhere w w' eventId)
    (hSound : StatusSound w'.state eventId event.info newStatus)
    (hPaid : Paid w w' eventId event.info.prize.assetId amount)
    (hAmount : event.info.prize.assetAmount * newStatus.slots event.info.prize.maxWinners + amount
        = outstanding event) :
    LifeInvariant w' := by
  have hEvent := hInv.event eventId
  rcases hEvent.sound event hGet with ⟨hId, hInfo, _⟩
  have hIndexAt : ∀ t, w.state.actionSchedule.get (t, event.id) = some ()
          ↔ nextActionScheduledAt event.status event.info = t := by
    intro t
    rw [hId, hEvent.index t, hGet]
    simp
  have hTransition : ∀ t eventId', (w.state.transition event newStatus).1.actionSchedule.get
              (t, eventId')
            = some ()
          ↔ if eventId' = event.id then
              nextActionScheduledAt newStatus event.info = t
            else
              w.state.actionSchedule.get (t, eventId') = some () :=
    AirdropState.get_transition hIndexAt
  have hOther : ∀ eventId', eventId' ≠ eventId → SameAt w w' eventId' := by
    intro eventId' hNe
    refine ⟨?_, ?_, ?_, ?_, ?_, ?_⟩
    · rw [hEvents]
      exact get_insert_of_ne _ _ hNe
    · intro t
      have hSame := hTransition t eventId'
      rw [if_neg (hId ▸ hNe), ← hSchedule] at hSame
      exact Option.ext fun u => hSame
    · intro slot
      exact hElse.registrations eventId' slot hNe
    · intro entry
      exact hElse.winners eventId' entry hNe
    · exact hElse.entropy eventId' hNe
    · exact hElse.life eventId' hNe
  refine hInv.update hOther ?_ ?_ hPaid.failures_eq
  · have hGet' : w'.state.events.get eventId = some { event with status := newStatus } := by
      rw [hEvents]
      exact get_insert_self _ _ _
    refine ⟨?_, ?_, ?_, ?_, ?_⟩
    · intro t
      rw [hSchedule, hTransition t eventId, if_pos hId.symm, hGet']
      simp
    · intro hNone
      rw [hGet'] at hNone
      cases hNone
    · intro event' hSome
      rw [hGet'] at hSome
      cases hSome
      exact ⟨hId, hInfo, hSound⟩
    · intro event' hSome
      rw [hGet'] at hSome
      cases hSome
      rw [hPaid.lifeHeld]
      exact hEvent.lifeHeld_eq event hGet
    · have hLife := hEvent.life_eq
      rw [hGet] at hLife
      rw [hPaid.lifeHeld, hPaid.lifePaid, hGet', hLife]
      dsimp only [Option.elim]
      have hNew : outstanding { event with status := newStatus } = event.info.prize.assetAmount
                * newStatus.slots event.info.prize.maxWinners :=
        rfl
      omega
  · intro assetId
    have hOwed := w.owed_insert eventId { event with status := newStatus } assetId
    rw [hGet, ← hEvents] at hOwed
    have hOld := hInv.held_eq assetId
    have hHeld := hPaid.held assetId
    have hNew : w'.owed assetId = w'.state.events.sum fun _ event => outstandingIn assetId event :=
      rfl
    dsimp only [Option.elim] at hOwed
    unfold outstandingIn at hOwed hNew
    rw [hNew]
    have hOut : outstanding { event with status := newStatus } + amount = outstanding event :=
      hAmount
    dsimp only at hOwed
    by_cases hAsset : event.info.prize.assetId = assetId
    · rw [if_pos hAsset, if_pos hAsset] at hOwed
      rw [if_pos hAsset] at hHeld
      omega
    · rw [if_neg hAsset, if_neg hAsset] at hOwed
      rw [if_neg hAsset] at hHeld
      omega

/- An event that is dropped with all that it has outstanding leaves nothing behind. -/
theorem LifeInvariant.dropped (hInv : LifeInvariant w)
    (hGet : w.state.events.get eventId = some event)
    (hEvents : w'.state.events = w.state.events.remove eventId)
    (hSchedule : w'.state.actionSchedule = w.state.actionSchedule.remove
        (nextActionScheduledAt event.status event.info, eventId))
    (hElse : Elsewhere w w' eventId)
    (hClean : Clean w'.state eventId)
    (hPaid : Paid w w' eventId event.info.prize.assetId (outstanding event)) :
    LifeInvariant w' := by
  have hEvent := hInv.event eventId
  have hOther : ∀ eventId', eventId' ≠ eventId → SameAt w w' eventId' := by
    intro eventId' hNe
    refine ⟨?_, ?_, ?_, ?_, ?_, ?_⟩
    · rw [hEvents, get_remove, if_neg hNe]
    · intro t
      rw [hSchedule, get_remove]
      exact if_neg fun h => hNe (Prod.mk.inj h).2
    · intro slot
      exact hElse.registrations eventId' slot hNe
    · intro entry
      exact hElse.winners eventId' entry hNe
    · exact hElse.entropy eventId' hNe
    · exact hElse.life eventId' hNe
  refine hInv.update hOther ?_ ?_ hPaid.failures_eq
  · have hGet' : w'.state.events.get eventId = none := by
      rw [hEvents]
      exact get_remove_self _ _
    refine ⟨?_, fun _ => hClean, ?_, ?_, ?_⟩
    · intro t
      rw [hGet', hSchedule, get_remove]
      simp only [Prod.mk.injEq, and_true]
      by_cases hTime : t = nextActionScheduledAt event.status event.info
      · rw [if_pos hTime]
        simp
      · rw [if_neg hTime, hEvent.index t, hGet]
        constructor
        · rintro ⟨event', hSome, hEq⟩
          cases hSome
          exact absurd hEq.symm hTime
        · rintro ⟨event', hSome, _⟩
          cases hSome
    · intro event' hSome
      rw [hGet'] at hSome
      cases hSome
    · intro event' hSome
      rw [hGet'] at hSome
      cases hSome
    · have hLife := hEvent.life_eq
      rw [hGet] at hLife
      rw [hPaid.lifeHeld, hPaid.lifePaid, hGet', hLife]
      rfl
  · intro assetId
    have hOwed := w.owed_remove hGet assetId
    rw [← hEvents] at hOwed
    have hOld := hInv.held_eq assetId
    have hHeld := hPaid.held assetId
    have hNew : w'.owed assetId = w'.state.events.sum fun _ event => outstandingIn assetId event :=
      rfl
    rw [hNew]
    unfold outstandingIn at hOwed ⊢
    by_cases hAsset : event.info.prize.assetId = assetId
    · rw [if_pos hAsset] at hOwed hHeld
      omega
    · rw [if_neg hAsset] at hOwed hHeld
      omega

--
-- Stored Transitions
--

namespace AirdropState

@[simp] theorem moveTo_events (s : AirdropState T) (eventId : EventId) (event : T.Event)
    (newStatus : Status) :
    (s.moveTo eventId event newStatus).events = s.events.insert eventId
        { event with status := newStatus } := by
  unfold moveTo transition insertEvent
  dsimp only
  split <;> rfl

@[simp] theorem moveTo_registrations (s : AirdropState T) (eventId : EventId) (event : T.Event)
    (newStatus : Status) :
    (s.moveTo eventId event newStatus).registrations = s.registrations := by
  unfold moveTo transition insertEvent
  dsimp only
  split <;> rfl

@[simp] theorem moveTo_winners (s : AirdropState T) (eventId : EventId) (event : T.Event)
    (newStatus : Status) :
    (s.moveTo eventId event newStatus).winners = s.winners := by
  unfold moveTo transition insertEvent
  dsimp only
  split <;> rfl

@[simp] theorem moveTo_eventEntropy (s : AirdropState T) (eventId : EventId) (event : T.Event)
    (newStatus : Status) :
    (s.moveTo eventId event newStatus).eventEntropy = s.eventEntropy := by
  unfold moveTo transition insertEvent
  dsimp only
  split <;> rfl

theorem transition_actionSchedule_congr {s' : AirdropState T}
    (hSchedule : s'.actionSchedule = s.actionSchedule) (event : T.Event) (newStatus : Status) :
    (s'.transition event newStatus).1.actionSchedule
      = (s.transition event newStatus).1.actionSchedule := by
  unfold transition
  dsimp only
  rw [hSchedule]
  split
  · rfl
  · exact hSchedule

/- An action that stays due at its time keeps its entry. -/
theorem transition_actionSchedule_of_eq
    (hTime : nextActionScheduledAt event.status event.info
        = nextActionScheduledAt newStatus event.info) :
    (s.transition event newStatus).1.actionSchedule = s.actionSchedule := by
  unfold transition
  dsimp only
  rw [if_neg (not_not_intro hTime)]

theorem statusSound_moveTo {newStatus status : Status} :
    StatusSound (s.moveTo eventId event newStatus) eventId info status
      ↔ StatusSound s eventId info status := by
  apply statusSound_congr
  · intro slot
    rw [moveTo_registrations]
  · intro entry
    rw [moveTo_winners]
  · rw [moveTo_eventEntropy]

end AirdropState

/- What is stored outside of the events is changed at one. -/
structure Local (s s' : AirdropState T) (eventId : EventId) : Prop where
  events : s'.events = s.events
  schedule : s'.actionSchedule = s.actionSchedule
  registrations : ∀ eventId' slot, eventId' ≠ eventId →
      s'.registrations.get (eventId', slot)
        = s.registrations.get (eventId', slot)
  winners : ∀ eventId' entry, eventId' ≠ eventId →
      s'.winners.get (eventId', entry) = s.winners.get (eventId', entry)
  entropy : ∀ eventId', eventId' ≠ eventId →
      s'.eventEntropy.get eventId' = s.eventEntropy.get eventId'

theorem Local.refl (s : AirdropState T) (eventId : EventId) :
    Local s s eventId :=
  ⟨rfl, rfl, fun _ _ _ => rfl, fun _ _ _ => rfl, fun _ _ => rfl⟩

/- A stored transition, after a change at the event. -/
theorem LifeInvariant.movedTo (hInv : LifeInvariant w)
    (hGet : w.state.events.get eventId = some event)
    (hState : w'.state = s.moveTo eventId event newStatus) (hLocal : Local w.state s eventId)
    (hLife : ∀ eventId', eventId' ≠ eventId →
        lifeOf eventId' w'.journal = lifeOf eventId' w.journal)
    (hSound : StatusSound s eventId event.info newStatus)
    (hPaid : Paid w w' eventId event.info.prize.assetId amount)
    (hAmount : event.info.prize.assetAmount * newStatus.slots event.info.prize.maxWinners + amount
        = outstanding event) :
    LifeInvariant w' := by
  refine hInv.moved hGet ?_ ?_ ?_ ?_ hPaid hAmount
  · rw [hState, AirdropState.moveTo_events, hLocal.events]
  · rw [hState]
    exact AirdropState.transition_actionSchedule_congr hLocal.schedule event newStatus
  · refine ⟨?_, ?_, ?_, hLife⟩
    · rw [hState, AirdropState.moveTo_registrations]
      exact hLocal.registrations
    · rw [hState, AirdropState.moveTo_winners]
      exact hLocal.winners
    · rw [hState, AirdropState.moveTo_eventEntropy]
      exact hLocal.entropy
  · rw [hState]
    exact AirdropState.statusSound_moveTo.mpr hSound

/- A status that is written without a transition. -/
theorem LifeInvariant.rewritten (hInv : LifeInvariant w)
    (hGet : w.state.events.get eventId = some event)
    (hState : w'.state = s.insertEvent eventId { event with status := newStatus })
    (hTime : nextActionScheduledAt event.status event.info
        = nextActionScheduledAt newStatus event.info)
    (hLocal : Local w.state s eventId)
    (hLife : ∀ eventId', eventId' ≠ eventId →
        lifeOf eventId' w'.journal = lifeOf eventId' w.journal)
    (hSound : StatusSound s eventId event.info newStatus)
    (hPaid : Paid w w' eventId event.info.prize.assetId amount)
    (hAmount : event.info.prize.assetAmount * newStatus.slots event.info.prize.maxWinners + amount
        = outstanding event) :
    LifeInvariant w' := by
  refine hInv.moved hGet ?_ ?_ ?_ ?_ hPaid hAmount
  · rw [hState]
    unfold AirdropState.insertEvent
    rw [hLocal.events]
  · rw [AirdropState.transition_actionSchedule_of_eq hTime, hState]
    exact hLocal.schedule
  · refine ⟨?_, ?_, ?_, hLife⟩
    · rw [hState]
      exact hLocal.registrations
    · rw [hState]
      exact hLocal.winners
    · rw [hState]
      exact hLocal.entropy
  · rw [hState]
    refine (statusSound_congr (s := s) ?_ ?_ ?_).mpr hSound
    · intro slot
      rfl
    · intro entry
      rfl
    · rfl

/- Funds that hold the same keep everything. -/
theorem LifeInvariant.withFunds {funds : Funds T} (hInv : LifeInvariant w)
    (hHeld : ∀ assetId, funds.heldOf assetId = w.funds.heldOf assetId) :
    LifeInvariant { w with funds := funds } := by
  refine ⟨?_, ?_, hInv.failures_eq⟩
  · intro eventId
    have hSame : SameAt w { w with funds := funds } eventId :=
      ⟨rfl, fun _ => rfl, fun _ => rfl, fun _ => rfl, rfl, rfl⟩
    exact (hInv.event eventId).congr hSame
  · intro assetId
    exact (hHeld assetId).trans (hInv.held_eq assetId)

--
-- Scheduling and Cancelling
--

theorem World.checkedMul_eq_some_iff {max a b n : Nat} :
    World.checkedMul max a b = some n ↔ a * b ≤ max ∧ a * b = n := by
  unfold World.checkedMul
  by_cases h : a * b ≤ max <;> simp [h]

theorem LifeInvariant.doSchedule {source : Option T.AccountId} (hInv : LifeInvariant w)
    (hSchedule : w.doSchedule chain eventId info source = .ok w') :
    LifeInvariant w' := by
  unfold World.doSchedule at hSchedule
  simp only [bind_eq_ok, ensure_eq_ok_iff, exists_const, okOr_eq_ok_iff, pure_eq_ok,
    World.checkedMul_eq_some_iff,
    StorageMap.containsKey_eq_false_iff] at hSchedule
  rcases hSchedule with ⟨_, hPos, hMax, _, _, _, hNew, toHold,
      ⟨hBalance, hToHold⟩, funds, hHold, hEq⟩
  have hHeld := Funds.heldOf_hold hHold
  have hClean := (hInv.event eventId).clean hNew
  have hOther : ∀ eventId', eventId' ≠ eventId → SameAt w w' eventId' := by
    intro eventId' hNe
    rw [← hEq]
    refine ⟨?_, ?_, fun _ => rfl, fun _ => rfl, rfl, ?_⟩
    · exact get_insert_of_ne _ _ hNe
    · intro t
      exact get_insert_of_ne _ _ fun h => hNe (Prod.mk.inj h).2
    · exact if_neg (Ne.symm hNe)
  refine hInv.update hOther ?_ ?_ ?_
  · have hGet : w'.state.events.get eventId = some
              { id := eventId
                info := info
                status := .scheduled
                source := source } := by
      rw [← hEq]
      exact get_insert_self _ _ _
    have hLife : lifeOf eventId w'.journal = [.scheduled toHold] := by
      rw [← hEq]
      exact if_pos rfl
    refine ⟨?_, ?_, ?_, ?_, ?_⟩
    · intro t
      rw [hGet, ← hEq]
      dsimp only
      rw [get_insert]
      simp only [Prod.mk.injEq, and_true]
      by_cases hTime : t = info.registrationStarts
      · rw [if_pos hTime]
        constructor
        · intro _
          exact ⟨_, rfl, hTime.symm⟩
        · intro _
          rfl
      · rw [if_neg hTime, (hInv.event eventId).index t, hNew]
        constructor
        · rintro ⟨event, hSome, _⟩
          cases hSome
        · rintro ⟨event, hSome, hAt⟩
          cases hSome
          exact absurd hAt.symm hTime
    · intro hNone
      rw [hGet] at hNone
      cases hNone
    · intro event hSome
      rw [hGet] at hSome
      cases hSome
      refine ⟨rfl, ⟨hPos, hMax, hBalance⟩, ?_⟩
      rw [← hEq]
      exact ⟨hClean.registrations, hClean.winners, hClean.entropy⟩
    · intro event hSome
      rw [hGet] at hSome
      cases hSome
      unfold World.lifeHeld
      rw [hLife, hToHold]
      exact Nat.add_zero _
    · rw [hGet]
      unfold World.lifeHeld World.lifeClaimed World.lifeRefunded
      rw [hLife, ← hToHold]
      simp [Movement.scheduledAmount, Movement.claimedAmount,
        Movement.refundedAmount, outstanding, Status.slots]
  · intro assetId
    have hOwed := w.owed_insert eventId
        { id := eventId
          info := info
          status := .scheduled
          source := source }
        assetId
    rw [hNew] at hOwed
    have hOld := hInv.held_eq assetId
    have hHeldAt := hHeld assetId
    rw [← hEq]
    refine hHeldAt.trans ?_
    rw [hOld, ← hToHold]
    exact hOwed.symm
  · rw [← hEq]

theorem LifeInvariant.schedule {source : T.AccountId} (hInv : LifeInvariant w)
    (hSchedule : w.schedule chain source eventId info = .ok w') :
    LifeInvariant w' := by
  unfold World.schedule at hSchedule
  simp only [bind_eq_ok] at hSchedule
  rcases hSchedule with ⟨_, _, funds, hTransfer, hDo⟩
  exact (hInv.withFunds (Funds.heldOf_transfer hTransfer)).doSchedule hDo

/- The whole prize is returned with the event. -/
theorem LifeInvariant.refundAndDropEvent (hInv : LifeInvariant w)
    (hGet : w.state.events.get eventId = some event)
    (hSlots : event.status.slots event.info.prize.maxWinners = event.info.prize.maxWinners)
    (hClean : Clean w.state eventId) :
    LifeInvariant (w.refundAndDropEvent chain event) := by
  rcases (hInv.event eventId).sound event hGet with ⟨hId, hInfo, _⟩
  have hLe := hInv.outstanding_le hGet
  have hOut : event.info.prize.assetAmount * event.info.prize.maxWinners = outstanding event := by
    unfold outstanding
    rw [hSlots]
  rw [← hOut] at hLe
  unfold World.refundAndDropEvent
  rw [hId]
  dsimp only
  have hReleased : Released w (w.releaseRemainingPrizes chain eventId event.source
          event.info.prize event.info.prize.maxWinners)
        eventId event.info.prize.assetId
        (event.info.prize.assetAmount * event.info.prize.maxWinners) :=
    World.releaseRemainingPrizes_spec hInfo.prize_le hLe
  generalize w.releaseRemainingPrizes chain eventId event.source
      event.info.prize event.info.prize.maxWinners = v
      at hReleased ⊢
  have hPaid := hReleased.paid
  rw [hOut] at hPaid
  refine hInv.dropped hGet ?_ ?_ ?_ ?_
      ⟨hPaid.failures_eq, hPaid.held, hPaid.lifeHeld, hPaid.lifePaid⟩
  · rw [← hReleased.state_eq]
    rfl
  · rw [← hReleased.state_eq]
    rfl
  · apply Elsewhere.of_eq
    · rw [← hReleased.state_eq]
      rfl
    · rw [← hReleased.state_eq]
      rfl
    · rw [← hReleased.state_eq]
      rfl
    · exact hReleased.lifeOther
  · rw [← hReleased.state_eq] at hClean
    exact ⟨hClean.registrations, hClean.winners, hClean.entropy⟩

theorem LifeInvariant.doRemoveScheduled (hInv : LifeInvariant w)
    (hRemove : w.doRemoveScheduled chain eventId = .ok w') :
    LifeInvariant w' := by
  unfold World.doRemoveScheduled at hRemove
  simp only [bind_eq_ok, ensure_eq_ok_iff, exists_const, okOr_eq_ok_iff, pure_eq_ok] at hRemove
  rcases hRemove with ⟨event, hGet, hStatus, hEq⟩
  have hSound := ((hInv.event eventId).sound event hGet).status
  rw [hStatus] at hSound
  rw [← hEq]
  refine hInv.refundAndDropEvent hGet ?_ ⟨hSound.1, hSound.2.1, hSound.2.2⟩
  rw [hStatus]
  rfl

/- A transition that releases nothing. -/
theorem LifeInvariant.movedFreely (hInv : LifeInvariant w)
    (hGet : w.state.events.get eventId = some event) (hLocal : Local w.state s eventId)
    (hSound : StatusSound s eventId event.info newStatus)
    (hSlots : newStatus.slots event.info.prize.maxWinners
        = event.status.slots event.info.prize.maxWinners) :
    LifeInvariant (w.withState (s.moveTo eventId event newStatus)) := by
  refine hInv.movedTo hGet rfl hLocal (fun _ _ => rfl) hSound (paid_withState _ _ _ _) ?_
  rw [hSlots]
  rfl

/- A status that is rewritten, where nothing is released. -/
theorem LifeInvariant.rewrittenFreely (hInv : LifeInvariant w)
    (hGet : w.state.events.get eventId = some event)
    (hTime : nextActionScheduledAt event.status event.info
        = nextActionScheduledAt newStatus event.info)
    (hLocal : Local w.state s eventId)
    (hSound : StatusSound s eventId event.info newStatus)
    (hSlots : newStatus.slots event.info.prize.maxWinners
        = event.status.slots event.info.prize.maxWinners) :
    LifeInvariant (w.withState (s.insertEvent eventId { event with status := newStatus })) := by
  refine hInv.rewritten hGet rfl hTime hLocal (fun _ _ => rfl) hSound (paid_withState _ _ _ _) ?_
  rw [hSlots]
  rfl

theorem LifeInvariant.doCancel (hInv : LifeInvariant w) (chain : Chain T) (eventId : EventId) :
    LifeInvariant (w.doCancel chain eventId) := by
  unfold World.doCancel
  cases hGet : w.state.events.get eventId with
  | none => exact hInv
  | some event =>
    have hEvent := (hInv.event eventId).sound event hGet
    have hSound := hEvent.status
    have hRefl := Local.refl w.state eventId
    dsimp only
    cases hStatus : event.status with
    | scheduled =>
      rw [hStatus] at hSound
      refine hInv.refundAndDropEvent hGet ?_ ⟨hSound.1, hSound.2.1, hSound.2.2⟩
      rw [hStatus]
      rfl
    | clearingRegistrations total effective claimed cleaned =>
      exact hInv
    | clearingWinners total effective claimed cleaned =>
      exact hInv
    | finalizing effective claimed => exact hInv
    | registering total =>
      rw [hStatus] at hSound
      have hLe := hInv.outstanding_le hGet
      have hOut : event.info.prize.assetAmount * event.info.prize.maxWinners
            = outstanding event := by
        unfold outstanding
        rw [hStatus]
        rfl
      rw [← hOut] at hLe
      have hReleased : Released w
            (w.releaseRemainingPrizes chain eventId event.source event.info.prize
              event.info.prize.maxWinners)
            eventId event.info.prize.assetId
            (event.info.prize.assetAmount * event.info.prize.maxWinners) :=
        World.releaseRemainingPrizes_spec hEvent.info.prize_le hLe
      dsimp only
      generalize w.releaseRemainingPrizes chain eventId event.source
          event.info.prize event.info.prize.maxWinners = v
          at hReleased ⊢
      have hPaid := hReleased.paid
      rw [hReleased.state_eq]
      refine hInv.movedTo hGet rfl hRefl hReleased.lifeOther ?_
          ⟨hPaid.failures_eq, hPaid.held, hPaid.lifeHeld, hPaid.lifePaid⟩
          ?_
      · refine ⟨?_, Nat.zero_le _⟩
        rw [count_of_noneAt hSound.2.1]
      · rw [← hOut]
        exact Nat.zero_add _
    | awaitingEntropy total effective moment =>
      rw [hStatus] at hSound
      refine hInv.movedFreely hGet hRefl ?_ ?_
      · refine ⟨?_, hSound.2.1.le_maxWinners⟩
        rw [count_of_noneAt hSound.2.2.1]
        exact Nat.zero_le _
      · rw [hStatus]
        rfl
    | drawWinners total effective added key =>
      rw [hStatus] at hSound
      refine hInv.movedFreely hGet hRefl ?_ ?_
      · exact ⟨hSound.2.2.1.trans hSound.2.2.2, hSound.2.1.le_maxWinners⟩
      · rw [hStatus]
        rfl
    | claiming total effective claimed =>
      rw [hStatus] at hSound
      refine hInv.movedFreely hGet hRefl hSound.2.2 ?_
      rw [hStatus]
      rfl

--
-- The Life Cycle
--

/- An authorized call has an event in a permitted status. -/
theorem World.event_of_authorize
    {source : TransactionSource} {permits : Status → Bool} {timed : Bool}
    (hAuthorize : w.authorize chain source eventId permits timed = .ok ()) :
    ∃ event, w.state.events.get eventId = some event ∧ permits event.status = true := by
  unfold World.authorize World.ensureLocal at hAuthorize
  simp only [bind_eq_ok, ensure_eq_ok_iff, exists_const, okOr_eq_ok_iff] at hAuthorize
  rcases hAuthorize with ⟨_, event, hGet, hPermits, _⟩
  exact ⟨event, hGet, hPermits⟩

theorem LifeInvariant.startRegistration {source : TransactionSource} (hInv : LifeInvariant w)
    (hAuthorize : w.authorizeStartRegistration chain source eventId = .ok ())
    (hStart : w.startRegistration eventId = .ok w') :
    LifeInvariant w' := by
  rcases World.event_of_authorize hAuthorize with ⟨event, hGet, hPermits⟩
  have hSound := ((hInv.event eventId).sound event hGet).status
  unfold World.startRegistration at hStart
  rw [hGet, okOr_some, Except.ok_bind, pure_eq_ok] at hStart
  rw [← hStart]
  cases hStatus : event.status with
  | scheduled =>
    rw [hStatus] at hSound
    refine hInv.movedFreely hGet (Local.refl _ _) ?_ ?_
    · refine ⟨?_, hSound.2.1, hSound.2.2⟩
      exact (count_of_noneAt hSound.1).symm
    · rw [hStatus]
      rfl
  | registering | awaitingEntropy | drawWinners | claiming
    | clearingRegistrations | clearingWinners | finalizing =>
      rw [hStatus] at hPermits
      cases hPermits

theorem LifeInvariant.closeRegistration (hInv : LifeInvariant w)
    (hClose : w.closeRegistration chain eventId = .ok w') :
    LifeInvariant w' := by
  unfold World.closeRegistration at hClose
  simp only [bind_eq_ok, okOr_eq_ok_iff] at hClose
  rcases hClose with ⟨event, hGet, hClose⟩
  have hEvent := (hInv.event eventId).sound event hGet
  have hSound := hEvent.status
  cases hStatus : event.status with
  | registering total =>
    rw [hStatus] at hSound hClose
    dsimp only at hClose
    have hOut : outstanding event = event.info.prize.assetAmount * event.info.prize.maxWinners := by
      unfold outstanding
      rw [hStatus]
      rfl
    by_cases hZero : total = 0
    · rw [if_pos hZero, pure_eq_ok] at hClose
      rw [← hClose]
      refine hInv.refundAndDropEvent hGet ?_ ⟨?_, hSound.2.1, hSound.2.2⟩
      · rw [hStatus]
        rfl
      · apply DoubleMap.noneAt_of_count
        rw [← hSound.1]
        exact hZero
    rw [if_neg hZero, pure_eq_ok] at hClose
    have hCapped := event.info.prize.winnerCap.mulFloor_le total
    have hMaxPos := hEvent.info.maxWinners_pos
    generalize hEffective : max (min event.info.prize.maxWinners
        (event.info.prize.winnerCap.mulFloor total)) 1
        = effective at hClose
    have hElected : Elected event.info total effective := by
      refine ⟨?_, ?_, ?_⟩ <;> omega
    -- what is released covers the slots that are not kept
    have hAmount : event.info.prize.assetAmount * effective + event.info.prize.assetAmount
              * (event.info.prize.maxWinners - effective)
          = outstanding event := by
      rw [hOut, ← Nat.mul_add, Nat.add_sub_cancel' hElected.le_maxWinners]
    have hHeld : event.info.prize.assetAmount * (event.info.prize.maxWinners - effective)
          ≤ w.funds.heldOf event.info.prize.assetId := by
      have hLe := hInv.outstanding_le hGet
      omega
    have hBalance : event.info.prize.assetAmount * (event.info.prize.maxWinners - effective)
          ≤ T.maxBalance := by
      have hLe := hEvent.info.prize_le
      omega
    have hReleased : Released w (if event.info.prize.maxWinners - effective > 0 then
            w.releaseRemainingPrizes chain eventId event.source event.info.prize
              (event.info.prize.maxWinners - effective)
          else w)
          eventId event.info.prize.assetId
          (event.info.prize.assetAmount * (event.info.prize.maxWinners - effective)) := by
      by_cases hUnused : event.info.prize.maxWinners - effective > 0
      · rw [if_pos hUnused]
        exact World.releaseRemainingPrizes_spec hBalance hHeld
      · rw [if_neg hUnused]
        have hNone : event.info.prize.maxWinners - effective = 0 := by
          omega
        rw [hNone, Nat.mul_zero]
        exact released_zero w eventId _
    generalize (if event.info.prize.maxWinners - effective > 0 then
        w.releaseRemainingPrizes chain eventId event.source event.info.prize
          (event.info.prize.maxWinners - effective)
      else w) = v at hReleased hClose
    have hPaid := hReleased.paid
    rw [← hClose, hReleased.state_eq]
    exact hInv.movedTo hGet rfl (Local.refl _ _) hReleased.lifeOther
        ⟨hSound.1, hElected, hSound.2.1, hSound.2.2⟩
        ⟨hPaid.failures_eq, hPaid.held, hPaid.lifeHeld, hPaid.lifePaid⟩
        hAmount
  | scheduled | awaitingEntropy | drawWinners | claiming
    | clearingRegistrations | clearingWinners | finalizing =>
      rw [hStatus] at hClose
      cases hClose

theorem LifeInvariant.captureEntropy (hInv : LifeInvariant w)
    (hCapture : w.captureEntropy chain eventId = .ok w') :
    LifeInvariant w' := by
  unfold World.captureEntropy at hCapture
  simp only [bind_eq_ok, okOr_eq_ok_iff] at hCapture
  rcases hCapture with ⟨event, hGet, hCapture⟩
  have hSound := ((hInv.event eventId).sound event hGet).status
  cases hStatus : event.status with
  | awaitingEntropy total effective moment =>
    rw [hStatus] at hSound hCapture
    simp only [bind_eq_ok, okOr_eq_ok_iff, pure_eq_ok] at hCapture
    rcases hCapture with ⟨entropy, _, hEq⟩
    rw [← hEq]
    refine hInv.movedFreely hGet ?_ ?_ ?_
    · refine ⟨rfl, rfl, fun _ _ _ => rfl, fun _ _ _ => rfl, ?_⟩
      intro eventId' hNe
      exact get_insert_of_ne _ _ hNe
    · refine ⟨hSound.1, hSound.2.1, ?_, Nat.zero_le _⟩
      exact (count_of_noneAt hSound.2.2.1).le
    · rw [hStatus]
      rfl
  | scheduled | registering | drawWinners | claiming
    | clearingRegistrations | clearingWinners | finalizing =>
      rw [hStatus] at hCapture
      cases hCapture

/- Storing winners adds no more entries than there are. -/
theorem World.count_addWinners
    (eventId : EventId) (winners : DoubleMap EventId T.Entry BigEndianU256) (key : BigEndianU256)
    (batch : List (BigEndianU256 × T.Entry)) :
    (World.addWinners eventId winners key batch).1.count eventId
      ≤ winners.count eventId + batch.length := by
  induction batch generalizing winners key with
  | nil => exact Nat.le_refl _
  | cons e rest ih =>
    rcases e with ⟨slot, entry⟩
    have hRest := ih (winners.insert (eventId, entry) slot) slot
    have hInsert := DoubleMap.count_insert_le winners eventId entry slot
    unfold World.addWinners
    rw [List.length_cons]
    omega

theorem World.get_addWinners_of_ne {eventId' : EventId} (hNe : eventId' ≠ eventId)
    (winners : DoubleMap EventId T.Entry BigEndianU256) (key : BigEndianU256)
    (batch : List (BigEndianU256 × T.Entry)) (entry : T.Entry) :
    (World.addWinners eventId winners key batch).1.get (eventId', entry)
      = winners.get (eventId', entry) := by
  induction batch generalizing winners key with
  | nil => rfl
  | cons e rest ih =>
    rcases e with ⟨slot, entry'⟩
    unfold World.addWinners
    rw [ih]
    exact get_insert_of_ne _ _ fun h => hNe (Prod.mk.inj h).1

/- The iteration does not run out before the batch is full. -/
theorem World.length_drawnBatch {cappedRemaining : Nat}
    (hLe : cappedRemaining ≤ w.state.registrations.count eventId) (key : BigEndianU256) :
    (w.drawnBatch eventId key cappedRemaining).length = cappedRemaining := by
  unfold World.drawnBatch
  rw [List.length_take, List.length_append, DoubleMap.length_iterPrefix]
  omega

theorem LifeInvariant.drawWinners (hInv : LifeInvariant w)
    (hDraw : w.drawWinners chain eventId = .ok w') :
    LifeInvariant w' := by
  unfold World.drawWinners at hDraw
  simp only [bind_eq_ok, okOr_eq_ok_iff] at hDraw
  rcases hDraw with ⟨event, hGet, hDraw⟩
  have hEvent := (hInv.event eventId).sound event hGet
  have hSound := hEvent.status
  cases hStatus : event.status with
  | drawWinners total effective added key =>
    rw [hStatus] at hSound hDraw
    rcases hSound with ⟨hTotal, hElected, hCount, hAdded⟩
    have hEnough : min (effective - added) chain.limits.drawLimit
          ≤ w.state.registrations.count eventId := by
      have hLe := hElected.le_total
      omega
    have hFull := World.length_drawnBatch hEnough key
    have hLimit : effective ≤ u32Max := by
      have hMax := hEvent.info.maxWinners_le
      have hElectedMax := hElected.le_maxWinners
      have hCap : World.maxWinnersLimit ≤ u32Max := by decide
      omega
    dsimp only at hDraw
    rw [hFull, if_pos rfl, pure_eq_ok] at hDraw
    have hNew : added + min (effective - added) chain.limits.drawLimit ≤ u32Max := by
      omega
    rw [saturatingAdd_of_le hNew] at hDraw
    have hCountNew := World.count_addWinners eventId w.state.winners key
        (w.drawnBatch eventId key (min (effective - added) chain.limits.drawLimit))
    rw [hFull] at hCountNew
    rw [← hDraw]
    refine hInv.rewrittenFreely hGet ?_ ?_ ⟨hTotal, hElected, ?_, ?_⟩ ?_
    · rw [hStatus]
      rfl
    · refine ⟨rfl, rfl, fun _ _ _ => rfl, ?_, fun _ _ => rfl⟩
      intro eventId' entry hNe
      exact World.get_addWinners_of_ne hNe _ _ _ entry
    · exact hCountNew.trans (Nat.add_le_add_right hCount _)
    · omega
    · rw [hStatus]
      rfl
  | scheduled | registering | awaitingEntropy | claiming
    | clearingRegistrations | clearingWinners | finalizing =>
      rw [hStatus] at hDraw
      cases hDraw

theorem LifeInvariant.closeDrawing (hInv : LifeInvariant w)
    (hClose : w.closeDrawing eventId = .ok w') :
    LifeInvariant w' := by
  unfold World.closeDrawing at hClose
  simp only [bind_eq_ok, okOr_eq_ok_iff] at hClose
  rcases hClose with ⟨event, hGet, hClose⟩
  have hSound := ((hInv.event eventId).sound event hGet).status
  cases hStatus : event.status with
  | drawWinners total effective added key =>
    rw [hStatus] at hSound hClose
    rw [← Except.pure_eq_ok.mp hClose]
    refine hInv.movedFreely hGet (Local.refl _ _) ⟨hSound.1, hSound.2.1, ?_⟩ ?_
    · exact ⟨hSound.2.2.1.trans hSound.2.2.2, hSound.2.1.le_maxWinners⟩
    · rw [hStatus]
      rfl
  | scheduled | registering | awaitingEntropy | claiming
    | clearingRegistrations | clearingWinners | finalizing =>
      rw [hStatus] at hClose
      cases hClose

theorem LifeInvariant.closeClaiming (hInv : LifeInvariant w)
    (hClose : w.closeClaiming eventId = .ok w') :
    LifeInvariant w' := by
  unfold World.closeClaiming at hClose
  simp only [bind_eq_ok, okOr_eq_ok_iff] at hClose
  rcases hClose with ⟨event, hGet, hClose⟩
  have hSound := ((hInv.event eventId).sound event hGet).status
  cases hStatus : event.status with
  | claiming total effective claimed =>
    rw [hStatus] at hSound hClose
    rw [← Except.pure_eq_ok.mp hClose]
    refine hInv.movedFreely hGet (Local.refl _ _) hSound.2.2 ?_
    rw [hStatus]
    rfl
  | scheduled | registering | awaitingEntropy | drawWinners
    | clearingRegistrations | clearingWinners | finalizing =>
      rw [hStatus] at hClose
      cases hClose

/- Fewer winners are awarded after a batch of them is gone. -/
theorem Awarded.mono {s' : AirdropState T} {effective claimed : Nat}
    (hAwarded : Awarded s eventId info effective claimed)
    (hSub : ∀ entry slot, s'.winners.get (eventId, entry) = some slot →
        s.winners.get (eventId, entry) = some slot) :
    Awarded s' eventId info effective claimed := by
  refine ⟨?_, hAwarded.le_maxWinners⟩
  have hLe := DoubleMap.count_le_of_forall hSub
  have hOld := hAwarded.le_effective
  omega

theorem LifeInvariant.cleanUpRegistrationsInner
    {clearCount : Nat} {backend : DoubleMap.Backend BigEndianU256} (hInv : LifeInvariant w)
    (hClean : w.cleanUpRegistrationsInner eventId clearCount backend = .ok w') :
    LifeInvariant w' := by
  unfold World.cleanUpRegistrationsInner at hClean
  simp only [bind_eq_ok, okOr_eq_ok_iff] at hClean
  rcases hClean with ⟨event, hGet, hClean⟩
  have hSound := ((hInv.event eventId).sound event hGet).status
  cases hStatus : event.status with
  | clearingRegistrations total effective claimed cleaned =>
    rw [hStatus] at hSound hClean
    dsimp only at hClean
    have hLocal : Local w.state
          { w.state with
            registrations := (w.state.registrations.clearPrefix eventId clearCount backend).1 }
          eventId := by
      refine ⟨rfl, rfl, ?_, fun _ _ _ => rfl, fun _ _ => rfl⟩
      intro eventId' slot hNe
      exact DoubleMap.get_clearPrefix_of_ne hNe slot
    by_cases hDone : (w.state.registrations.clearPrefix eventId clearCount backend).2.2 = true
    · rw [if_pos hDone, pure_eq_ok] at hClean
      rw [← hClean]
      refine hInv.movedFreely hGet hLocal ⟨clearPrefix_done hDone, ?_⟩ ?_
      · exact hSound.mono fun _ _ h => h
      · rw [hStatus]
        rfl
    · rw [if_neg hDone, pure_eq_ok] at hClean
      rw [← hClean]
      refine hInv.rewrittenFreely hGet ?_ hLocal (hSound.mono fun _ _ h => h) ?_
      · rw [hStatus]
        rfl
      · rw [hStatus]
        rfl
  | scheduled | registering | awaitingEntropy | drawWinners
    | claiming | clearingWinners | finalizing =>
      rw [hStatus] at hClean
      cases hClean

theorem LifeInvariant.cleanUpWinnersInner {clearCount : Nat} {backend : DoubleMap.Backend T.Entry}
    (hInv : LifeInvariant w) (hClean : w.cleanUpWinnersInner eventId clearCount backend = .ok w') :
    LifeInvariant w' := by
  unfold World.cleanUpWinnersInner at hClean
  simp only [bind_eq_ok, okOr_eq_ok_iff] at hClean
  rcases hClean with ⟨event, hGet, hClean⟩
  have hSound := ((hInv.event eventId).sound event hGet).status
  cases hStatus : event.status with
  | clearingWinners total effective claimed cleaned =>
    rw [hStatus] at hSound hClean
    dsimp only at hClean
    have hLocal : Local w.state
          { w.state with
            winners := (w.state.winners.clearPrefix eventId clearCount backend).1 }
          eventId := by
      refine ⟨rfl, rfl, fun _ _ _ => rfl, ?_, fun _ _ => rfl⟩
      intro eventId' entry hNe
      exact DoubleMap.get_clearPrefix_of_ne hNe entry
    have hAwarded : Awarded
          { w.state with
            winners := (w.state.winners.clearPrefix eventId clearCount backend).1 }
          eventId event.info effective claimed :=
      hSound.2.mono fun _ _ h => DoubleMap.get_of_clearPrefix h
    by_cases hDone : (w.state.winners.clearPrefix eventId clearCount backend).2.2 = true
    · rw [if_pos hDone, pure_eq_ok] at hClean
      rw [← hClean]
      refine hInv.movedFreely hGet hLocal ⟨hSound.1, clearPrefix_done hDone, hAwarded⟩ ?_
      rw [hStatus]
      rfl
    · rw [if_neg hDone, pure_eq_ok] at hClean
      rw [← hClean]
      refine hInv.rewrittenFreely hGet ?_ hLocal ⟨hSound.1, hAwarded⟩ ?_
      · rw [hStatus]
        rfl
      · rw [hStatus]
        rfl
  | scheduled | registering | awaitingEntropy | drawWinners
    | claiming | clearingRegistrations | finalizing =>
      rw [hStatus] at hClean
      cases hClean

theorem LifeInvariant.finalize (hInv : LifeInvariant w)
    (hFinalize : w.finalize chain eventId = .ok w') :
    LifeInvariant w' := by
  unfold World.finalize at hFinalize
  simp only [bind_eq_ok, okOr_eq_ok_iff] at hFinalize
  rcases hFinalize with ⟨event, hGet, hFinalize⟩
  have hEvent := (hInv.event eventId).sound event hGet
  have hSound := hEvent.status
  cases hStatus : event.status with
  | finalizing effective claimed =>
    rw [hStatus] at hSound hFinalize
    dsimp only at hFinalize
    have hOut : event.info.prize.assetAmount * (effective - claimed) = outstanding event := by
      unfold outstanding
      rw [hStatus]
      rfl
    have hHeld := hInv.outstanding_le hGet
    rw [← hOut] at hHeld
    have hBalance : event.info.prize.assetAmount * (effective - claimed) ≤ T.maxBalance := by
      have hSlots : effective - claimed ≤ event.info.prize.maxWinners :=
        le_trans (Nat.sub_le _ _) hSound.2.2.le_maxWinners
      exact (Nat.mul_le_mul_left _ hSlots).trans hEvent.info.prize_le
    have hReleased : Released w (if effective - claimed > 0 then
            w.releaseRemainingPrizes chain eventId event.source
              event.info.prize (effective - claimed)
          else w)
          eventId event.info.prize.assetId
          (event.info.prize.assetAmount * (effective - claimed)) := by
      by_cases hUnclaimed : effective - claimed > 0
      · rw [if_pos hUnclaimed]
        exact World.releaseRemainingPrizes_spec hBalance hHeld
      · rw [if_neg hUnclaimed]
        have hNone : effective - claimed = 0 := by omega
        rw [hNone, Nat.mul_zero]
        exact released_zero w eventId _
    generalize (if effective - claimed > 0 then
        w.releaseRemainingPrizes chain eventId event.source event.info.prize (effective - claimed)
      else w) = v at hReleased hFinalize
    have hPaid := hReleased.paid
    rw [hOut] at hPaid
    rw [← Except.pure_eq_ok.mp hFinalize]
    refine hInv.dropped hGet ?_ ?_ ?_ ?_
        ⟨hPaid.failures_eq, hPaid.held, hPaid.lifeHeld, hPaid.lifePaid⟩
    · rw [← hReleased.state_eq]
      rfl
    · rw [← hReleased.state_eq, hStatus]
      rfl
    · refine ⟨?_, ?_, ?_, hReleased.lifeOther⟩
      · intro eventId' slot _
        rw [← hReleased.state_eq]
        rfl
      · intro eventId' entry _
        rw [← hReleased.state_eq]
        rfl
      · intro eventId' hNe
        rw [← hReleased.state_eq]
        exact (get_remove _ _ _).trans (if_neg hNe)
    · rw [← hReleased.state_eq] at hSound
      exact ⟨hSound.1, hSound.2.1, get_remove_self _ _⟩
  | scheduled | registering | awaitingEntropy | drawWinners
    | claiming | clearingRegistrations | clearingWinners =>
      rw [hStatus] at hFinalize
      cases hFinalize

--
-- Participation and Claims
--

variable {slot : BigEndianU256}

theorem LifeInvariant.registerSlotIn {entry : T.Entry} (hInv : LifeInvariant w)
    (hGet : w.state.events.get eventId = some event)
    (hRegister : w.registerSlotIn eventId event slot entry = .ok w') :
    LifeInvariant w' := by
  have hSound := ((hInv.event eventId).sound event hGet).status
  unfold World.registerSlotIn at hRegister
  cases hStatus : event.status with
  | registering total =>
    rw [hStatus] at hSound hRegister
    simp only [bind_eq_ok, ensure_eq_ok_iff, exists_const, okOr_eq_ok_iff, pure_eq_ok,
      checkedAdd_eq_some_iff,
      StorageMap.containsKey_eq_false_iff] at hRegister
    rcases hRegister with ⟨hFree, total', ⟨_, hTotal⟩, hEq⟩
    rw [← hEq]
    refine hInv.rewrittenFreely hGet ?_ ?_ ⟨?_, hSound.2.1, hSound.2.2⟩ ?_
    · rw [hStatus]
      rfl
    · refine ⟨rfl, rfl, ?_, fun _ _ _ => rfl, fun _ _ => rfl⟩
      intro eventId' slot' hNe
      exact get_insert_of_ne _ _ fun h => hNe (Prod.mk.inj h).1
    · rw [DoubleMap.count_insert_new hFree, if_pos rfl, ← hSound.1]
      exact hTotal
    · rw [hStatus]
      rfl
  | scheduled | awaitingEntropy | drawWinners | claiming
    | clearingRegistrations | clearingWinners | finalizing =>
      rw [hStatus] at hRegister
      cases hRegister

theorem LifeInvariant.registerSlot {entry : T.Entry} (hInv : LifeInvariant w)
    (hRegister : w.registerSlot eventId slot entry = .ok w') :
    LifeInvariant w' := by
  unfold World.registerSlot at hRegister
  simp only [bind_eq_ok, okOr_eq_ok_iff] at hRegister
  rcases hRegister with ⟨event, hGet, hRegister⟩
  exact hInv.registerSlotIn hGet hRegister

theorem LifeInvariant.doParticipateWithAlias
    {participantOrigin : T.Entry} {proof : T.Proof} {ringIndex revision : Nat}
    (hInv : LifeInvariant w)
    (hParticipate : w.doParticipateWithAlias chain eventId participantOrigin
          proof ringIndex revision
        = .ok w') :
    LifeInvariant w' := by
  unfold World.doParticipateWithAlias at hParticipate
  simp only [bind_eq_ok, okOr_eq_ok_iff] at hParticipate
  rcases hParticipate with ⟨event, hGet, hParticipate⟩
  cases hStatus : event.status with
  | registering total =>
    rw [hStatus] at hParticipate
    simp only [bind_eq_ok] at hParticipate
    rcases hParticipate with ⟨_, _, hRegister⟩
    exact hInv.registerSlotIn hGet hRegister
  | scheduled | awaitingEntropy | drawWinners | claiming
    | clearingRegistrations | clearingWinners | finalizing =>
      rw [hStatus] at hParticipate
      cases hParticipate

theorem LifeInvariant.doParticipateWithAccount {accountId : T.AccountId} {signature : T.Signature}
    (hInv : LifeInvariant w)
    (hParticipate : w.doParticipateWithAccount chain accountId eventId signature = .ok w') :
    LifeInvariant w' := by
  unfold World.doParticipateWithAccount at hParticipate
  simp only [bind_eq_ok] at hParticipate
  rcases hParticipate with ⟨_, _, _, _, hRegister⟩
  exact hInv.registerSlot hRegister

variable {beneficiary : T.AccountId}

/- A claim pays one prize, and removes one winner. -/
theorem LifeInvariant.doClaim {registrant : T.Entry} (hInv : LifeInvariant w)
    (hClaim : w.doClaim chain eventId registrant beneficiary = .ok w') :
    LifeInvariant w' := by
  unfold World.doClaim at hClaim
  simp only [bind_eq_ok, okOr_eq_ok_iff] at hClaim
  rcases hClaim with ⟨event, hGet, hClaim⟩
  have hEvent := (hInv.event eventId).sound event hGet
  have hSound := hEvent.status
  cases hStatus : event.status with
  | claiming total effective claimed =>
    rw [hStatus] at hSound hClaim
    rcases hSound with ⟨hTotal, hElected, hAwarded⟩
    simp only [bind_eq_ok, ensure_eq_ok_iff, exists_const, okOr_eq_ok_iff, pure_eq_ok] at hClaim
    rcases hClaim with ⟨_, _, slot, hWinner, ⟨released, funds⟩, hRelease, funds', hTransfer, hEq⟩
    have hRemoved := DoubleMap.count_remove hWinner eventId
    rw [if_pos rfl] at hRemoved
    have hUnclaimed := hAwarded.le_effective
    -- the winner that is removed still has a slot
    have hSlot : claimed + 1 ≤ effective := by omega
    have hMax : claimed + 1 ≤ u32Max := by
      have hMaxWinners := hEvent.info.maxWinners_le
      have hElectedMax := hElected.le_maxWinners
      have hCap : World.maxWinnersLimit ≤ u32Max := by decide
      omega
    have hOut : event.info.prize.assetAmount * (effective - (claimed + 1))
            + event.info.prize.assetAmount
          = outstanding event := by
      have hSucc : effective - claimed = effective - (claimed + 1) + 1 := by
        omega
      unfold outstanding
      rw [hStatus]
      dsimp only [Status.slots]
      rw [hSucc, Nat.mul_succ]
    have hHeld : event.info.prize.assetAmount ≤ w.funds.heldOf event.info.prize.assetId := by
      have hLe := hInv.outstanding_le hGet
      omega
    rcases Funds.release_held hHeld .exact with ⟨funds'', hRelease', hKept⟩
    rw [hRelease'] at hRelease
    cases hRelease
    rw [if_pos rfl, saturatingAdd_of_le hMax] at hEq
    have hPaid : Paid w w' eventId event.info.prize.assetId
          event.info.prize.assetAmount := by
      rw [← hEq]
      refine ⟨rfl, ?_, ?_, ?_⟩
      · intro assetId
        dsimp only
        rw [Funds.heldOf_transfer hTransfer]
        exact hKept assetId
      · simp [World.lifeHeld, lifeOf, Movement.scheduledAmount]
      · simp only [World.lifeClaimed, World.lifeRefunded,
          lifeOf, ↓reduceIte, List.map_cons, List.sum_cons,
          Movement.claimedAmount, Movement.refundedAmount]
        omega
    have hState : w'.state = AirdropState.insertEvent
              { w.state with
                winners := w.state.winners.remove (eventId, registrant) }
              eventId
              { event with
                status := .claiming total effective (claimed + 1) } := by
      rw [← hEq]
    refine hInv.rewritten hGet hState ?_ ?_ ?_ ⟨hTotal, hElected, ?_, hAwarded.le_maxWinners⟩ hPaid
        hOut
    · rw [hStatus]
      rfl
    · refine ⟨rfl, rfl, fun _ _ _ => rfl, ?_, fun _ _ => rfl⟩
      intro eventId' entry hNe
      refine (get_remove _ _ _).trans ?_
      exact if_neg fun h => hNe (Prod.mk.inj h).1
    · intro eventId' hNe
      rw [← hEq]
      exact if_neg (Ne.symm hNe)
    · dsimp only
      omega
  | scheduled | registering | awaitingEntropy | drawWinners
    | clearingRegistrations | clearingWinners | finalizing =>
      rw [hStatus] at hClaim
      cases hClaim

--
-- Assets
--

/- Assets that are supported are not part of any event. -/
theorem LifeInvariant.withAssets (hInv : LifeInvariant w)
    (supportedAssets : StorageMap T.AssetId Nat) :
    LifeInvariant
      { w with
        state := { w.state with supportedAssets := supportedAssets } } := by
  refine ⟨?_, hInv.held_eq, hInv.failures_eq⟩
  intro eventId
  have hSame : SameAt w
        { w with
          state :=
            { w.state with
              supportedAssets := supportedAssets } }
        eventId :=
    ⟨rfl, fun _ => rfl, fun _ => rfl, fun _ => rfl, rfl, rfl⟩
  exact (hInv.event eventId).congr hSame

theorem LifeInvariant.enableAsset {source : T.AccountId} (hInv : LifeInvariant w)
    (hEnable : w.enableAsset chain assetId source = .ok w') :
    LifeInvariant w' := by
  unfold World.enableAsset at hEnable
  simp only [bind_eq_ok, ensure_eq_ok_iff, exists_const, pure_eq_ok] at hEnable
  rcases hEnable with ⟨_, funds, hTransfer, hEq⟩
  rw [← hEq]
  exact (hInv.withFunds (Funds.heldOf_transfer hTransfer)).withAssets _

theorem LifeInvariant.disableAsset (hInv : LifeInvariant w)
    (hDisable : w.disableAsset chain assetId beneficiary = .ok w') :
    LifeInvariant w' := by
  unfold World.disableAsset at hDisable
  simp only [bind_eq_ok, pure_eq_ok] at hDisable
  rcases hDisable with ⟨_, _, funds, hTransfer, hEq⟩
  rw [← hEq]
  exact (hInv.withFunds (Funds.heldOf_transfer hTransfer)).withAssets _

--
-- Runs
--

theorem LifeInvariant.genesis : LifeInvariant (World.genesis : World T) := by
  refine ⟨?_, fun _ => rfl, rfl⟩
  intro eventId
  refine ⟨?_, ?_, ?_, ?_, rfl⟩
  · intro t
    constructor
    · intro hGet
      cases hGet
    · rintro ⟨event, hGet, _⟩
      cases hGet
  · intro _
    exact ⟨fun _ => rfl, fun _ => rfl, rfl⟩
  · intro event hGet
    cases hGet
  · intro event hGet
    cases hGet

/- One operation keeps all events sound. -/
theorem LifeInvariant.dispatch {call : Chain T × Op T} (hInv : LifeInvariant w)
    (hCall : w.dispatch call = .ok w') :
    LifeInvariant w' := by
  rcases call with ⟨chain, op⟩
  cases op with
  | scheduleEvent eventId info => exact hInv.doSchedule hCall
  | removeScheduledEvent eventId =>
    exact hInv.doRemoveScheduled hCall
  | enableAsset assetId source => exact hInv.enableAsset hCall
  | disableAsset assetId beneficiary =>
    exact hInv.disableAsset hCall
  | startRegistrationAuthorized source eventId =>
    rcases Except.bind_eq_ok.mp hCall with ⟨_, hAuth, hBody⟩
    exact hInv.startRegistration hAuth hBody
  | closeRegistrationAuthorized source eventId =>
    rcases Except.bind_eq_ok.mp hCall with ⟨_, _, hBody⟩
    exact hInv.closeRegistration hBody
  | captureEntropyAuthorized source eventId =>
    rcases Except.bind_eq_ok.mp hCall with ⟨_, _, hBody⟩
    exact hInv.captureEntropy hBody
  | drawWinnersAuthorized source eventId =>
    rcases Except.bind_eq_ok.mp hCall with ⟨_, _, hBody⟩
    exact hInv.drawWinners hBody
  | closeDrawingAuthorized source eventId =>
    rcases Except.bind_eq_ok.mp hCall with ⟨_, _, hBody⟩
    exact hInv.closeDrawing hBody
  | closeClaimingAuthorized source eventId =>
    rcases Except.bind_eq_ok.mp hCall with ⟨_, _, hBody⟩
    exact hInv.closeClaiming hBody
  | cleanUpRegistrationsAuthorized source eventId backend =>
    rcases Except.bind_eq_ok.mp hCall with ⟨_, _, hBody⟩
    exact hInv.cleanUpRegistrationsInner hBody
  | cleanUpWinnersAuthorized source eventId backend =>
    rcases Except.bind_eq_ok.mp hCall with ⟨_, _, hBody⟩
    exact hInv.cleanUpWinnersInner hBody
  | finalizeAuthorized source eventId =>
    rcases Except.bind_eq_ok.mp hCall with ⟨_, _, hBody⟩
    exact hInv.finalize hBody
  | schedule source eventId info => exact hInv.schedule hCall
  | removeScheduled eventId =>
    unfold World.dispatch at hCall
    dsimp only at hCall
    cases hRemove : w.doRemoveScheduled chain eventId with
    | error e =>
      rw [hRemove] at hCall
      cases hCall
      exact hInv
    | ok v =>
      rw [hRemove] at hCall
      cases hCall
      exact hInv.doRemoveScheduled hRemove
  | cancel eventId =>
    cases hCall
    exact hInv.doCancel chain eventId
  | participateWithAlias eventId participantOrigin proof
      ringIndex revision =>
      exact hInv.doParticipateWithAlias hCall
  | participateWithAccount accountId eventId signature =>
    exact hInv.doParticipateWithAccount hCall
  | participateWithSlot eventId slot entry =>
    exact hInv.registerSlot hCall
  | claim eventId registrant beneficiary =>
    exact hInv.doClaim hCall
  | setFree assetId who amount =>
    cases hCall
    exact hInv.withFunds fun _ => rfl

/- Every reachable world has all events sound. -/
theorem LifeInvariant.run (hRun : RunUnder World.dispatch (fun _ _ _ => True) .genesis w) :
    LifeInvariant w :=
  RunUnder.invariant LifeInvariant hRun (fun _ _ _ _ hCall hInv => hInv.dispatch hCall) .genesis

end Individuality.Airdrop
