import Individuality.Airdrop.Pallet
import Individuality.Base.Runs

/-
  What holds of every event of the airdrop pallet through its life: where it is scheduled, what is
  stored for it in each status, and what is held, claimed and refunded for it.

  Main declaration: `Status.slots`
-/

namespace Individuality.Airdrop

variable {T : Config} {eventId : EventId} {w w' : World T} {chain : Chain T} {f : Funds T}
variable {assetId : T.AssetId} {amount : Nat}

--
-- Prizes
--

/- The prizes of a status that are not awarded or returned. -/
def Status.slots (maxWinners : Nat) : Status → Nat
  | .scheduled => maxWinners
  | .registering _ => maxWinners
  | .awaitingEntropy _ effectiveWinners _ => effectiveWinners
  | .drawWinners _ effectiveWinners _ _ => effectiveWinners
  | .claiming _ effectiveWinners claimed =>
    effectiveWinners - claimed
  | .clearingRegistrations _ effectiveWinners claimed _ =>
    effectiveWinners - claimed
  | .clearingWinners _ effectiveWinners claimed _ =>
    effectiveWinners - claimed
  | .finalizing effectiveWinners claimed =>
    effectiveWinners - claimed

/- What an event has outstanding. -/
def outstanding (event : T.Event) : Nat :=
  event.info.prize.assetAmount * event.status.slots event.info.prize.maxWinners

/- What an event has outstanding in an asset. -/
def outstandingIn (assetId : T.AssetId) (event : T.Event) : Nat :=
  if event.info.prize.assetId = assetId then outstanding event
  else 0

namespace World

/- What all events have outstanding in an asset. -/
def owed (w : World T) (assetId : T.AssetId) : Nat :=
  w.state.events.sum fun _ event => outstandingIn assetId event

end World

--
-- Movements of One Life
--

/- The movements of an event back to the last time that it was scheduled. -/
def lifeOf (eventId : EventId) :
    List (EventId × Movement) → List Movement
  | [] => []
  | (eventId', movement) :: rest =>
    if eventId' = eventId then
      match movement with
      | .scheduled amount => [.scheduled amount]
      | .claimed amount =>
        .claimed amount :: lifeOf eventId rest
      | .refunded amount =>
        .refunded amount :: lifeOf eventId rest
    else lifeOf eventId rest

def Movement.scheduledAmount : Movement → Nat
  | scheduled amount => amount
  | _ => 0

def Movement.claimedAmount : Movement → Nat
  | claimed amount => amount
  | _ => 0

def Movement.refundedAmount : Movement → Nat
  | refunded amount => amount
  | _ => 0

namespace World

/- What was held when the event was last scheduled. -/
def lifeHeld (w : World T) (eventId : EventId) : Nat :=
  ((lifeOf eventId w.journal).map Movement.scheduledAmount).sum

/- What was claimed since the event was last scheduled. -/
def lifeClaimed (w : World T) (eventId : EventId) : Nat :=
  ((lifeOf eventId w.journal).map Movement.claimedAmount).sum

/- What was refunded since the event was last scheduled. -/
def lifeRefunded (w : World T) (eventId : EventId) : Nat :=
  ((lifeOf eventId w.journal).map Movement.refundedAmount).sum

end World

--
-- Storage of One Event
--

/- The checks of a schedule that its prize has to pass. -/
structure InfoSound (info : T.Info) : Prop where
  maxWinners_pos : 0 < info.prize.maxWinners
  maxWinners_le : info.prize.maxWinners ≤ World.maxWinnersLimit
  prize_le : info.prize.assetAmount * info.prize.maxWinners ≤ T.maxBalance

/- A number of winners that a draw may have. -/
structure Elected (info : T.Info) (totalParticipants effectiveWinners : Nat) : Prop where
  one_le : 1 ≤ effectiveWinners
  le_maxWinners : effectiveWinners ≤ info.prize.maxWinners
  le_total : effectiveWinners ≤ totalParticipants

/- Winners with those who claimed are within their number. -/
structure Awarded (s : AirdropState T) (eventId : EventId) (info : T.Info)
    (effectiveWinners claimed : Nat) : Prop where
  le_effective : s.winners.count eventId + claimed ≤ effectiveWinners
  le_maxWinners : effectiveWinners ≤ info.prize.maxWinners

/- What is stored for an event in a status. -/
def StatusSound (s : AirdropState T) (eventId : EventId) (info : T.Info) : Status → Prop
  | .scheduled =>
    s.registrations.NoneAt eventId ∧ s.winners.NoneAt eventId ∧ s.eventEntropy.get eventId = none
  | .registering total =>
    total = s.registrations.count eventId ∧ s.winners.NoneAt eventId
      ∧ s.eventEntropy.get eventId = none
  | .awaitingEntropy total effective _ =>
    total = s.registrations.count eventId ∧ Elected info total effective ∧ s.winners.NoneAt eventId
      ∧ s.eventEntropy.get eventId = none
  | .drawWinners total effective added _ =>
    total = s.registrations.count eventId ∧ Elected info total effective
      ∧ s.winners.count eventId ≤ added
      ∧ added ≤ effective
  | .claiming total effective claimed =>
    total = s.registrations.count eventId ∧ Elected info total effective
      ∧ Awarded s eventId info effective claimed
  | .clearingRegistrations _ effective claimed _ =>
    Awarded s eventId info effective claimed
  | .clearingWinners _ effective claimed _ =>
    s.registrations.NoneAt eventId ∧ Awarded s eventId info effective claimed
  | .finalizing effective claimed =>
    s.registrations.NoneAt eventId ∧ s.winners.NoneAt eventId
      ∧ Awarded s eventId info effective claimed

/- Nothing is stored for an event outside of the events. -/
structure Clean (s : AirdropState T) (eventId : EventId) : Prop where
  registrations : s.registrations.NoneAt eventId
  winners : s.winners.NoneAt eventId
  entropy : s.eventEntropy.get eventId = none

/- An event as it is stored under its identifier. -/
structure EventSound (s : AirdropState T) (eventId : EventId) (event : T.Event) : Prop where
  id_eq : event.id = eventId
  info : InfoSound event.info
  status : StatusSound s eventId event.info event.status

/-
  What holds of one event: it is scheduled for its next action only, its storage is as its status
  says, and what was held for it, which is its whole prize, is claimed, refunded or outstanding.
-/
structure EventInvariant (w : World T) (eventId : EventId) : Prop where
  index : ∀ t,
      w.state.actionSchedule.get (t, eventId) = some ()
        ↔ ∃ event,
            w.state.events.get eventId = some event
              ∧ nextActionScheduledAt event.status event.info = t
  clean : w.state.events.get eventId = none → Clean w.state eventId
  sound : ∀ event,
      w.state.events.get eventId = some event → EventSound w.state eventId event
  lifeHeld_eq : ∀ event,
      w.state.events.get eventId = some event →
        w.lifeHeld eventId
          = event.info.prize.assetAmount * event.info.prize.maxWinners
  life_eq : w.lifeHeld eventId
      = w.lifeClaimed eventId + w.lifeRefunded eventId
        + (w.state.events.get eventId).elim 0 outstanding

/- All events are sound, the hold is what they have outstanding, and no assertion failed. -/
structure LifeInvariant (w : World T) : Prop where
  event : ∀ eventId, EventInvariant w eventId
  held_eq : ∀ assetId, w.funds.heldOf assetId = w.owed assetId
  failures_eq : w.failures = []

--
-- Frames
--

/- Two worlds in which one event is stored alike. -/
structure SameAt (w w' : World T) (eventId : EventId) :
    Prop where
  event : w'.state.events.get eventId = w.state.events.get eventId
  schedule : ∀ t,
      w'.state.actionSchedule.get (t, eventId)
        = w.state.actionSchedule.get (t, eventId)
  registrations : ∀ slot,
      w'.state.registrations.get (eventId, slot)
        = w.state.registrations.get (eventId, slot)
  winners : ∀ entry,
      w'.state.winners.get (eventId, entry)
        = w.state.winners.get (eventId, entry)
  entropy : w'.state.eventEntropy.get eventId = w.state.eventEntropy.get eventId
  life : lifeOf eventId w'.journal = lifeOf eventId w.journal

theorem count_congr {α κ ν : Type} [DecidableEq α] [DecidableEq κ] {m m' : DoubleMap α κ ν} {a : α}
    (hSame : ∀ k, m'.get (a, k) = m.get (a, k)) :
    m'.count a = m.count a := by
  apply Nat.le_antisymm
  · apply DoubleMap.count_le_of_forall
    intro k v hGet
    rw [← hSame]
    exact hGet
  · apply DoubleMap.count_le_of_forall
    intro k v hGet
    rw [hSame]
    exact hGet

theorem noneAt_congr {α κ ν : Type} [DecidableEq α] [DecidableEq κ] {m m' : DoubleMap α κ ν} {a : α}
    (hSame : ∀ k, m'.get (a, k) = m.get (a, k)) :
    m'.NoneAt a ↔ m.NoneAt a := by
  unfold DoubleMap.NoneAt
  simp only [hSame]

/- What is stored for a status depends on these reads only. -/
theorem statusSound_congr {s s' : AirdropState T} {info : T.Info} {status : Status}
    (hRegs : ∀ slot, s'.registrations.get (eventId, slot) = s.registrations.get (eventId, slot))
    (hWinners : ∀ entry, s'.winners.get (eventId, entry) = s.winners.get (eventId, entry))
    (hEntropy : s'.eventEntropy.get eventId = s.eventEntropy.get eventId) :
    StatusSound s' eventId info status ↔ StatusSound s eventId info status := by
  have hAwarded : ∀ effective claimed, Awarded s' eventId info effective claimed
          ↔ Awarded s eventId info effective claimed := by
    intro effective claimed
    constructor
    · rintro ⟨hLe, hMax⟩
      rw [count_congr hWinners] at hLe
      exact ⟨hLe, hMax⟩
    · rintro ⟨hLe, hMax⟩
      rw [← count_congr hWinners] at hLe
      exact ⟨hLe, hMax⟩
  cases status <;>
    simp only [StatusSound, noneAt_congr hRegs, noneAt_congr hWinners, count_congr hRegs,
      count_congr hWinners, hEntropy, hAwarded]

theorem EventInvariant.congr (hSame : SameAt w w' eventId) (hInv : EventInvariant w eventId) :
    EventInvariant w' eventId := by
  refine ⟨?_, ?_, ?_, ?_, ?_⟩
  · intro t
    rw [hSame.schedule, hSame.event]
    exact hInv.index t
  · intro hNone
    rw [hSame.event] at hNone
    rcases hInv.clean hNone with ⟨hRegs, hWinners, hEntropy⟩
    refine ⟨?_, ?_, ?_⟩
    · exact (noneAt_congr hSame.registrations).mpr hRegs
    · exact (noneAt_congr hSame.winners).mpr hWinners
    · rw [hSame.entropy]
      exact hEntropy
  · intro event hGet
    rw [hSame.event] at hGet
    rcases hInv.sound event hGet with ⟨hId, hInfo, hStatus⟩
    refine ⟨hId, hInfo, ?_⟩
    exact (statusSound_congr hSame.registrations hSame.winners hSame.entropy).mpr hStatus
  · intro event hGet
    rw [hSame.event] at hGet
    unfold World.lifeHeld
    rw [hSame.life]
    exact hInv.lifeHeld_eq event hGet
  · unfold World.lifeHeld World.lifeClaimed World.lifeRefunded
    rw [hSame.life, hSame.event]
    exact hInv.life_eq

/- An operation on one event has to keep that one sound. -/
theorem LifeInvariant.update (hInv : LifeInvariant w)
    (hOther : ∀ eventId', eventId' ≠ eventId → SameAt w w' eventId')
    (hEvent : EventInvariant w' eventId)
    (hHeld : ∀ assetId, w'.funds.heldOf assetId = w'.owed assetId)
    (hFailures : w'.failures = w.failures) :
    LifeInvariant w' := by
  refine ⟨?_, hHeld, hFailures.trans hInv.failures_eq⟩
  intro eventId'
  by_cases h : eventId' = eventId
  · rw [h]
    exact hEvent
  · exact (hInv.event eventId').congr (hOther eventId' h)

--
-- Outstanding Prizes
--

theorem World.owed_insert (w : World T) (eventId : EventId) (event : T.Event)
    (assetId : T.AssetId) :
    (w.state.events.insert eventId event).sum (fun _ event => outstandingIn assetId event)
        + (w.state.events.get eventId).elim 0 (outstandingIn assetId)
      = w.owed assetId + outstandingIn assetId event := by
  have hSum := StorageMap.sum_insert w.state.events
      (fun _ event => outstandingIn assetId event) eventId event
  cases hGet : w.state.events.get eventId with
  | none =>
    rw [hGet] at hSum
    exact hSum
  | some old =>
    rw [hGet] at hSum
    exact hSum

theorem World.owed_remove {event : T.Event} (hGet : w.state.events.get eventId = some event)
    (assetId : T.AssetId) :
    (w.state.events.remove eventId).sum (fun _ event => outstandingIn assetId event)
        + outstandingIn assetId event
      = w.owed assetId := by
  have hSum := StorageMap.sum_remove w.state.events
      (fun _ event => outstandingIn assetId event) eventId
  rw [hGet] at hSum
  exact hSum

/- What an event has outstanding is held. -/
theorem LifeInvariant.outstanding_le {event : T.Event} (hInv : LifeInvariant w)
    (hGet : w.state.events.get eventId = some event) :
    outstanding event ≤ w.funds.heldOf event.info.prize.assetId := by
  rw [hInv.held_eq]
  have hLe := StorageMap.le_sum_of_get hGet fun _ e => outstandingIn event.info.prize.assetId e
  have hSelf : outstandingIn event.info.prize.assetId event = outstanding event := if_pos rfl
  rw [← hSelf]
  exact hLe

--
-- Funds
--

theorem Funds.heldOf_hold {f' : Funds T} (hHold : f.hold chain assetId amount = .ok f')
    (assetId' : T.AssetId) :
    f'.heldOf assetId' = f.heldOf assetId' + if assetId = assetId' then amount else 0 := by
  unfold Funds.hold at hHold
  simp only [Except.bind_eq_ok, ensure_eq_ok_iff, exists_const, Except.pure_eq_ok] at hHold
  rcases hHold with ⟨_, hEq⟩
  rw [← hEq]
  unfold Funds.heldOf
  dsimp only
  rw [StorageMap.getD_insert]
  by_cases hSame : assetId' = assetId
  · rw [if_pos hSame, if_pos hSame.symm, hSame]
  · rw [if_neg hSame, if_neg (Ne.symm hSame), Nat.add_zero]

theorem Funds.heldOf_transfer {f' : Funds T} {source dest : T.AccountId}
    (hTransfer : f.transfer chain assetId source dest amount = .ok f') (assetId' : T.AssetId) :
    f'.heldOf assetId' = f.heldOf assetId' := by
  unfold Funds.transfer at hTransfer
  simp only [Except.bind_eq_ok, ensure_eq_ok_iff, exists_const, Except.pure_eq_ok] at hTransfer
  rcases hTransfer with ⟨_, hEq⟩
  rw [← hEq]
  rfl

/- Funds that are held are released in full. -/
theorem Funds.release_held (hLe : amount ≤ f.heldOf assetId) (precision : Precision) :
    ∃ f', f.release assetId amount precision = .ok (amount, f') ∧ ∀ assetId', f'.heldOf assetId'
          + (if assetId = assetId' then amount else 0)
        = f.heldOf assetId' := by
  unfold Funds.release
  rw [Nat.min_eq_left hLe]
  dsimp only
  rw [ensure_of (Or.inr rfl)]
  refine ⟨_, rfl, ?_⟩
  intro assetId'
  unfold Funds.heldOf
  dsimp only
  rw [StorageMap.getD_insert]
  by_cases hSame : assetId' = assetId
  · rw [if_pos hSame, if_pos hSame.symm, hSame]
    exact Nat.sub_add_cancel hLe
  · rw [if_neg hSame, if_neg (Ne.symm hSame), Nat.add_zero]

/- An amount that was released and recorded for an event. -/
structure Released (w w' : World T) (eventId : EventId) (assetId : T.AssetId)
    (amount : Nat) : Prop where
  state_eq : w'.state = w.state
  failures_eq : w'.failures = w.failures
  held : ∀ assetId',
      w'.funds.heldOf assetId'
          + (if assetId = assetId' then amount else 0)
        = w.funds.heldOf assetId'
  lifeHeld : w'.lifeHeld eventId = w.lifeHeld eventId
  lifeClaimed : w'.lifeClaimed eventId = w.lifeClaimed eventId
  lifeRefunded : w'.lifeRefunded eventId = w.lifeRefunded eventId + amount
  lifeOther : ∀ eventId', eventId' ≠ eventId →
      lifeOf eventId' w'.journal = lifeOf eventId' w.journal

theorem released_zero (w : World T) (eventId : EventId) (assetId : T.AssetId) :
    Released w w eventId assetId 0 := by
  refine ⟨rfl, rfl, ?_, rfl, rfl, rfl, fun _ _ => rfl⟩
  intro assetId'
  rw [ite_self, Nat.add_zero]

/- A refund out of the pot changes nothing but free funds. -/
theorem Released.withFunds {funds : Funds T} (hReleased : Released w w' eventId assetId amount)
    (hHeld : ∀ assetId', funds.heldOf assetId' = w'.funds.heldOf assetId') :
    Released w { w' with funds := funds } eventId assetId
      amount := by
  refine ⟨hReleased.state_eq, hReleased.failures_eq, ?_, hReleased.lifeHeld, hReleased.lifeClaimed,
    hReleased.lifeRefunded, hReleased.lifeOther⟩
  intro assetId'
  dsimp only
  rw [hHeld]
  exact hReleased.held assetId'

/- What is held for slots of a prize is released in full. -/
theorem World.releaseRemainingPrizes_spec
    {source : Option T.AccountId} {prize : AirdropPrize T.AssetId} {count : Nat}
    (hBalance : prize.assetAmount * count ≤ T.maxBalance)
    (hHeld : prize.assetAmount * count ≤ w.funds.heldOf prize.assetId) :
    Released w (w.releaseRemainingPrizes chain eventId source prize count)
      eventId prize.assetId (prize.assetAmount * count) := by
  unfold World.releaseRemainingPrizes
  by_cases hZero : count = 0
  · rw [if_pos hZero, hZero, Nat.mul_zero]
    exact released_zero w eventId prize.assetId
  rw [if_neg hZero, saturatingMul_of_le hBalance]
  rcases Funds.release_held hHeld .bestEffort with ⟨funds, hRelease, hKept⟩
  dsimp only
  rw [hRelease]
  dsimp only
  have hReleased : Released w
        { w with
          funds := funds
          journal := (eventId, .refunded (prize.assetAmount * count)) :: w.journal }
        eventId prize.assetId (prize.assetAmount * count) := by
    refine ⟨rfl, rfl, hKept, ?_, ?_, ?_, ?_⟩
    · simp [World.lifeHeld, lifeOf, Movement.scheduledAmount]
    · simp [World.lifeClaimed, lifeOf, Movement.claimedAmount]
    · simp [World.lifeRefunded, lifeOf, Movement.refundedAmount, Nat.add_comm]
    · intro eventId' hNe
      exact if_neg (Ne.symm hNe)
  by_cases hNothing : prize.assetAmount * count = 0
  · rw [if_pos hNothing]
    exact hReleased
  rw [if_neg hNothing]
  cases source with
  | none => exact hReleased
  | some who =>
    dsimp only
    cases hTransfer : funds.transfer chain prize.assetId T.airdropPotId who
        (prize.assetAmount * count) with
    | error e => exact hReleased
    | ok funds' =>
      exact hReleased.withFunds (Funds.heldOf_transfer hTransfer)

end Individuality.Airdrop
