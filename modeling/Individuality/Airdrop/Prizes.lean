import Individuality.Airdrop.Conservation
import Individuality.Airdrop.Sample

/-
  In every reachable state of the airdrop pallet the hold is
  what all events have outstanding, and an event that is gone
  leaves nothing behind.

  Main declarations:
    * `World.prizes_conserved`
    * `World.schedule_without_residue`
-/

namespace Individuality.Airdrop

variable {T : Config}

--
-- Counts in a Status
--

/- The participants and winners of a status with a draw. -/
def Status.draw? : Status → Option (Nat × Nat)
  | .awaitingEntropy total effective _ => some (total, effective)
  | .drawWinners total effective _ _ => some (total, effective)
  | .claiming total effective _ => some (total, effective)
  | _ => none

/- The winners and claims of a status after a draw. -/
def Status.award? : Status → Option (Nat × Nat)
  | .claiming _ effective claimed => some (effective, claimed)
  | .clearingRegistrations _ effective claimed _ =>
    some (effective, claimed)
  | .clearingWinners _ effective claimed _ =>
    some (effective, claimed)
  | .finalizing effective claimed => some (effective, claimed)
  | _ => none

theorem EventSound.elected {s : AirdropState T} {eventId : EventId} {event : T.Event}
    {total effective : Nat} (hSound : EventSound s eventId event)
    (hDraw : event.status.draw? = some (total, effective)) :
    total = s.registrations.count eventId ∧ Elected event.info total effective := by
  have hStatus := hSound.status
  cases hCase : event.status with
  | awaitingEntropy total' effective' moment =>
    rw [hCase] at hStatus hDraw
    cases hDraw
    exact ⟨hStatus.1, hStatus.2.1⟩
  | drawWinners total' effective' added key =>
    rw [hCase] at hStatus hDraw
    cases hDraw
    exact ⟨hStatus.1, hStatus.2.1⟩
  | claiming total' effective' claimed =>
    rw [hCase] at hStatus hDraw
    cases hDraw
    exact ⟨hStatus.1, hStatus.2.1⟩
  | scheduled | registering | clearingRegistrations
    | clearingWinners | finalizing =>
      rw [hCase] at hDraw
      cases hDraw

theorem EventSound.awarded {s : AirdropState T} {eventId : EventId} {event : T.Event}
    {effective claimed : Nat} (hSound : EventSound s eventId event)
    (hAward : event.status.award? = some (effective, claimed)) :
    Awarded s eventId event.info effective claimed := by
  have hStatus := hSound.status
  cases hCase : event.status with
  | claiming total effective' claimed' =>
    rw [hCase] at hStatus hAward
    cases hAward
    exact hStatus.2.2
  | clearingRegistrations total effective' claimed' cleaned =>
    rw [hCase] at hStatus hAward
    cases hAward
    exact hStatus
  | clearingWinners total effective' claimed' cleaned =>
    rw [hCase] at hStatus hAward
    cases hAward
    exact hStatus.2
  | finalizing effective' claimed' =>
    rw [hCase] at hStatus hAward
    cases hAward
    exact hStatus.2.2
  | scheduled | registering | awaitingEntropy | drawWinners =>
    rw [hCase] at hAward
    cases hAward

--
-- Reachable States
--

namespace World

/-
  The hold of an asset is what the events outstanding in it still have to award or return.  No event
  has more claims than winners, and a draw has at least one winner and no more than prizes or
  participants.  What was held for an event when it was scheduled is its whole prize, and it is what
  was claimed, refunded and is outstanding; so nothing but claims and refunds is left of it once the
  event is gone.
-/
theorem prizes_conserved (w : World T) (hRun : RunUnder dispatch (fun _ _ _ => True) genesis w) :
    (∀ assetId, w.funds.heldOf assetId = w.state.events.sum fun _ event =>
            if event.info.prize.assetId = assetId then
              event.info.prize.assetAmount * event.status.slots event.info.prize.maxWinners
            else 0)
      ∧ (∀ eventId event effective claimed, w.state.events.get eventId = some event →
          event.status.award? = some (effective, claimed) → claimed ≤ effective)
      ∧ (∀ eventId event total effective, w.state.events.get eventId = some event →
          event.status.draw? = some (total, effective) → 1 ≤ effective
              ∧ effective ≤ event.info.prize.maxWinners
              ∧ effective ≤ total
              ∧ total = w.state.registrations.count eventId)
      ∧ (∀ eventId event, w.state.events.get eventId = some event → w.lifeHeld eventId
            = event.info.prize.assetAmount * event.info.prize.maxWinners
          ∧ w.lifeHeld eventId = w.lifeClaimed eventId + w.lifeRefunded eventId + outstanding event)
      ∧ ∀ eventId, w.state.events.get eventId = none → w.lifeHeld eventId
          = w.lifeClaimed eventId + w.lifeRefunded eventId := by
  have hInv := LifeInvariant.run hRun
  refine ⟨hInv.held_eq, ?_, ?_, ?_, ?_⟩
  · intro eventId event effective claimed hGet hAward
    have hSound := (hInv.event eventId).sound event hGet
    have hLe := (hSound.awarded hAward).le_effective
    omega
  · intro eventId event total effective hGet hDraw
    have hSound := (hInv.event eventId).sound event hGet
    rcases hSound.elected hDraw with ⟨hTotal, hElected⟩
    exact ⟨hElected.one_le, hElected.le_maxWinners, hElected.le_total, hTotal⟩
  · intro eventId event hGet
    have hLife := (hInv.event eventId).life_eq
    rw [hGet] at hLife
    exact ⟨(hInv.event eventId).lifeHeld_eq event hGet, hLife⟩
  · intro eventId hGet
    have hLife := (hInv.event eventId).life_eq
    rw [hGet] at hLife
    exact hLife

/- A whole life: 30 are held, 10 claimed, and 20 refunded. -/
theorem prizes_conserved_sample : ∃ w,
      RunUnder dispatch (fun _ _ _ => True) (genesis : World sampleConfig) w ∧ w.lifeHeld 1 = 30
        ∧ w.lifeClaimed 1 = 10
        ∧ w.lifeRefunded 1 = 20
        ∧ w.lifeHeld 1 = w.lifeClaimed 1 + w.lifeRefunded 1 := by
  have hExecute : (performAll sampleLife).any (fun w =>
          decide ((w.state.events.get 1).isNone = true ∧ w.lifeHeld 1 = 30 ∧ w.lifeClaimed 1 = 10
              ∧ w.lifeRefunded 1 = 20)) = true := by
    decide +kernel
  have hReached := exists_run_of_execute (fun _ _ _ _ _ => (trivial : True)) hExecute
  rcases hReached with ⟨w, hRun, hTest⟩
  rw [decide_eq_true_eq] at hTest
  have hGone : w.state.events.get 1 = none := Option.isNone_iff_eq_none.mp hTest.1
  exact ⟨w, hRun, hTest.2.1, hTest.2.2.1, hTest.2.2.2, (prizes_conserved w hRun).2.2.2.2 1 hGone⟩

/-
  An event is scheduled for its next action only, its total counts its registrations while they are
  open, and an event that is not there has left nothing behind, nor has one that is only scheduled.
-/
theorem schedule_without_residue (w : World T)
    (hRun : RunUnder dispatch (fun _ _ _ => True) genesis w) :
    (∀ t eventId, w.state.actionSchedule.get (t, eventId) = some () ↔ ∃ event,
            w.state.events.get eventId = some event
              ∧ nextActionScheduledAt event.status event.info = t)
      ∧ (∀ eventId event total, w.state.events.get eventId = some event →
          event.status = .registering total → total = w.state.registrations.count eventId)
      ∧ (∀ eventId, w.state.events.get eventId = none → (∀ slot,
          w.state.registrations.get (eventId, slot) = none)
          ∧ (∀ entry, w.state.winners.get (eventId, entry) = none)
          ∧ w.state.eventEntropy.get eventId = none
          ∧ ∀ t, w.state.actionSchedule.get (t, eventId) = none)
      ∧ ∀ eventId event, w.state.events.get eventId = some event → event.status = .scheduled →
          (∀ slot, w.state.registrations.get (eventId, slot) = none)
            ∧ (∀ entry, w.state.winners.get (eventId, entry) = none)
            ∧ w.state.eventEntropy.get eventId = none := by
  have hInv := LifeInvariant.run hRun
  refine ⟨?_, ?_, ?_, ?_⟩
  · intro t eventId
    exact (hInv.event eventId).index t
  · intro eventId event total hGet hStatus
    have hSound := ((hInv.event eventId).sound event hGet).status
    rw [hStatus] at hSound
    exact hSound.1
  · intro eventId hGet
    have hClean := (hInv.event eventId).clean hGet
    refine ⟨hClean.registrations, hClean.winners, hClean.entropy, ?_⟩
    intro t
    have hIndex := (hInv.event eventId).index t
    cases hEntry : w.state.actionSchedule.get (t, eventId) with
    | none => rfl
    | some u =>
      rcases hIndex.mp hEntry with ⟨event, hSome, _⟩
      rw [hGet] at hSome
      cases hSome
  · intro eventId event hGet hStatus
    have hSound := ((hInv.event eventId).sound event hGet).status
    rw [hStatus] at hSound
    exact hSound

/- The same whole life leaves nothing of the event behind. -/
theorem schedule_without_residue_sample : ∃ w,
      RunUnder dispatch (fun _ _ _ => True) (genesis : World sampleConfig) w ∧ w.journal.length = 4
        ∧ w.state.registrations.get (1, 5) = none
        ∧ w.state.winners.get (1, .account 1) = none
        ∧ w.state.eventEntropy.get 1 = none := by
  have hExecute : (performAll sampleLife).any (fun w =>
          decide ((w.state.events.get 1).isNone = true ∧ w.journal.length = 4)) = true := by
    decide +kernel
  have hReached := exists_run_of_execute (fun _ _ _ _ _ => (trivial : True)) hExecute
  rcases hReached with ⟨w, hRun, hTest⟩
  rw [decide_eq_true_eq] at hTest
  have hGone : w.state.events.get 1 = none := Option.isNone_iff_eq_none.mp hTest.1
  rcases (schedule_without_residue w hRun).2.2.1 1 hGone with ⟨hRegs, hWinners, hEntropy, _⟩
  exact ⟨w, hRun, hTest.2, hRegs 5, hWinners (.account 1), hEntropy⟩

end World

end Individuality.Airdrop
