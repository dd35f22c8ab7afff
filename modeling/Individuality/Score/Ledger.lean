import Individuality.Score.Sample

/-
  The funds of the pot are split among schedules, the planned
  round, the paying rounds and the credit of participants.

  Main declaration: `World.payout_ledger`
-/

namespace Individuality.Score

open Except (bind_eq_ok ok_bind pure_eq_ok)
open StorageMap (get_insert get_remove le_sum_of_get sum_congr sum_insert sum_remove weightAt_some)
open BoundedVec (toList_eraseIdx toList_set)

open PeopleMulti (PeopleState Chain)

variable {T : Config} {amount : Nat} {who : T.Who} {account : T.Account}

--
-- Stages of the Funds
--

namespace ScoreState

/- What the schedules will still pay. -/
def scheduled (s : ScoreState T) : Nat :=
  (s.roundSchedules.toList.map fun schedule =>
    schedule.remaining * schedule.amountPerRound).sum

/- What the planned round will pay. -/
def planned (s : ScoreState T) : Nat :=
  s.roundPlanning.elim 0 (·.credit)

/- What the paying rounds have not paid yet. -/
def paying (s : ScoreState T) : Nat :=
  s.roundPayouts.sum fun _ round => round.remainingBalance

/- What all participants may redeem. -/
def totalCredit (s : ScoreState T) : Nat :=
  s.participants.sum fun _ score => score.credit

/- A weight of the points, added up over one round. -/
def overRound (s : ScoreState T) (roundIndex : Nat) (f : Nat → Nat) : Nat :=
  s.roundsPointsForParticipant.sum fun k points =>
    if k.1 = roundIndex then f points else 0

/- The points of all participants in a round. -/
def roundPoints (s : ScoreState T) (roundIndex : Nat) : Nat :=
  s.overRound roundIndex id

/- What is owed to those not drained from a paying round. -/
def owed (s : ScoreState T) (roundIndex : Nat) (round : RoundPayout) : Nat :=
  s.overRound roundIndex round.credited

end ScoreState

/-
  The holds of the pot are the stages of the funds, the points of the current round are counted, and
  every paying round covers what it owes.
-/
structure Balanced (w : World T) : Prop where
  payout_eq : w.pot.payout = w.score.scheduled + w.score.planned + w.score.paying
  credit_eq : w.pot.credit = w.score.totalCredit
  points_eq :
    w.score.currentRoundPoints = w.score.roundPoints w.score.currentRoundIndex
  owed_le : ∀ roundIndex round,
      w.score.roundPayouts.get roundIndex = some round →
        w.score.owed roundIndex round ≤ round.remainingBalance

/-
  What is owed also fits what is left, the funds fit a balance, points belong to rounds up to the
  current one, payouts to rounds before it, and no schedule without rounds is worth anything.
-/
structure LedgerInvariant (w : World T) : Prop
    extends Balanced w where
  total_le : w.pot.total ≤ u128Max
  points_le : w.score.currentRoundPoints ≤ u32Max
  entry_le : ∀ k points,
      w.score.roundsPointsForParticipant.get k = some points →
        k.1 ≤ w.score.currentRoundIndex
  payout_lt : ∀ roundIndex round,
      w.score.roundPayouts.get roundIndex = some round →
        roundIndex < w.score.currentRoundIndex
  schedule_backed : ∀ schedule ∈ w.score.roundSchedules.toList,
      schedule.remaining = 0 → schedule.amountPerRound = 0

/-
  Only rounds that are backed by a hold are scheduled, and the
  index of a round that is finished can be increased.
-/
def RoundsBacked (w : World T) (call : Chain T.Member T.Account × Op T) (_ : World T) : Prop :=
  match call.2 with
  | .schedulePayoutRounds amount count _ =>
    (count = 0 → amount = 0) ∧ amount * count ≤ u128Max
  | .transitionRound _ =>
    w.score.roundPlanning ≠ none → w.score.currentRoundIndex < u32Max
  | _ => True

--
-- Funds
--

variable {reason : HoldReason}

theorem Pot.hold_eq_ok_iff {pot pot' : Pot} {amount : Nat} :
    pot.hold reason amount = .ok pot' ↔ amount ≤ pot.free
        ∧ ({ pot with free := pot.free - amount } : Pot).setHeld
            (pot.held reason + amount) reason = pot' := by
  unfold Pot.hold
  simp only [bind_eq_ok, ensure_eq_ok_iff, exists_const, pure_eq_ok]

/- An exact release of held funds moves all of them. -/
theorem Pot.release_exact {pot : Pot} {precision : Precision} (hLe : amount ≤ pot.held reason) :
    pot.release reason amount precision = .ok
        (amount, ({ pot with free := pot.free + amount } : Pot).setHeld
            (pot.held reason - amount) reason) := by
  unfold Pot.release
  rw [Nat.min_eq_left hLe]
  dsimp only
  rw [ensure_of (Or.inr rfl)]
  rfl

--
-- Sums over Rounds
--

namespace ScoreState

/- Another entry of the round adds its weight. -/
theorem overRound_insert (s s' : ScoreState T) (roundIndex : Nat) (who : T.Who) (points : Nat)
    (f : Nat → Nat) (hZero : f 0 = 0)
    (hEntries : s'.roundsPointsForParticipant
        = s.roundsPointsForParticipant.insert (roundIndex, who) points) :
    s'.overRound roundIndex f + f (s.roundsPointsForParticipant.getD (roundIndex, who) 0)
      = s.overRound roundIndex f + f points := by
  have hSum := sum_insert s.roundsPointsForParticipant
      (fun k points => if k.1 = roundIndex then f points else 0)
      (roundIndex, who) points
  unfold overRound
  rw [hEntries]
  unfold StorageMap.getD
  cases hGet : s.roundsPointsForParticipant.get (roundIndex, who) with
  | none =>
    rw [hGet] at hSum
    simpa [hZero] using hSum
  | some old =>
    rw [hGet] at hSum
    simpa using hSum

/- An entry of the round that is drained takes its weight. -/
theorem overRound_remove (s s' : ScoreState T) (roundIndex : Nat) (who : T.Who) (f : Nat → Nat)
    (hZero : f 0 = 0)
    (hEntries : s'.roundsPointsForParticipant
        = s.roundsPointsForParticipant.remove (roundIndex, who)) :
    s'.overRound roundIndex f + f (s.roundsPointsForParticipant.getD (roundIndex, who) 0)
      = s.overRound roundIndex f := by
  have hSum := sum_remove s.roundsPointsForParticipant
      (fun k points => if k.1 = roundIndex then f points else 0)
      (roundIndex, who)
  unfold overRound
  rw [hEntries]
  unfold StorageMap.getD
  cases hGet : s.roundsPointsForParticipant.get (roundIndex, who) with
  | none =>
    rw [hGet] at hSum
    simpa [hZero] using hSum
  | some old =>
    rw [hGet] at hSum
    simpa using hSum

/- Entries of one round do not count for another one. -/
theorem overRound_of_ne (s s' : ScoreState T) {roundIndex roundIndex' : Nat}
    (who : T.Who) (f : Nat → Nat) (hNe : roundIndex ≠ roundIndex')
    (hEntries : (∃ points, s'.roundsPointsForParticipant
          = s.roundsPointsForParticipant.insert (roundIndex, who) points)
        ∨ s'.roundsPointsForParticipant = s.roundsPointsForParticipant.remove (roundIndex, who)) :
    s'.overRound roundIndex' f = s.overRound roundIndex' f := by
  let g := fun (k : Nat × T.Who) (points : Nat) =>
    if k.1 = roundIndex' then f points else 0
  have hWeight : ∀ v, StorageMap.weightAt g (roundIndex, who) v = 0 := by
    intro v
    cases v with
    | none => rfl
    | some points => exact if_neg hNe
  change s'.roundsPointsForParticipant.sum g = s.roundsPointsForParticipant.sum g
  rcases hEntries with ⟨points, hEntries⟩ | hEntries
  · have hSum := sum_insert s.roundsPointsForParticipant g (roundIndex, who) points
    rw [hWeight] at hSum
    have hNew : g (roundIndex, who) points = 0 := if_neg hNe
    rw [hEntries]
    omega
  · have hSum := sum_remove s.roundsPointsForParticipant g (roundIndex, who)
    rw [hWeight] at hSum
    rw [hEntries]
    omega

/- A round that nobody has points in. -/
theorem overRound_eq_zero (s : ScoreState T) {roundIndex : Nat} (f : Nat → Nat)
    (hNobody : ∀ k points, s.roundsPointsForParticipant.get k = some points → k.1 ≠ roundIndex) :
    s.overRound roundIndex f = 0 := by
  have hZero : s.overRound roundIndex f = s.roundsPointsForParticipant.sum fun _ _ => 0 := by
    apply sum_congr
    intro k points hGet
    exact if_neg (hNobody k points hGet)
  rw [hZero]
  unfold StorageMap.sum
  simp

end ScoreState

--
-- Shares of a Round
--

private theorem sum_shares_le {α : Type} (xs : List α) (g : α → Nat) (round : RoundPayout) :
    (xs.map fun x => round.credited (g x)).sum
      ≤ round.pointPrice * (xs.map g).sum + round.remainder * (xs.map g).sum
          / round.totalPoints := by
  induction xs with
  | nil => simp
  | cons x xs ih =>
    have hShare : round.credited (g x) ≤ round.pointPrice * g x
            + round.remainder * g x / round.totalPoints := by
      unfold RoundPayout.credited
      refine Nat.le_trans (saturatingAdd_le_add ..) ?_
      exact Nat.add_le_add (saturatingMul_le_mul ..)
        (Nat.div_le_div_right (saturatingMul_le_mul ..))
    have hDiv : round.remainder * g x / round.totalPoints + round.remainder * (xs.map g).sum
                / round.totalPoints
          ≤ (round.remainder * g x + round.remainder * (xs.map g).sum) / round.totalPoints :=
      Nat.div_add_div_le_add_div
    simp only [List.map_cons, List.sum_cons, Nat.mul_add]
    omega

theorem RoundPayout.credited_zero (round : RoundPayout) : round.credited 0 = 0 := by
  unfold RoundPayout.credited saturatingMul saturatingAdd
  simp

/- A round owes at most the price and the remainder together. -/
theorem ScoreState.owed_le (s : ScoreState T) (roundIndex : Nat) (round : RoundPayout) :
    s.owed roundIndex round ≤ round.pointPrice * s.roundPoints roundIndex
        + round.remainder * s.roundPoints roundIndex / round.totalPoints := by
  have hShares := sum_shares_le s.roundsPointsForParticipant.entries
      (fun e => if e.1.1 = roundIndex then e.2 else 0) round
  have hOwed : s.owed roundIndex round = (s.roundsPointsForParticipant.entries.map fun e =>
            round.credited (if e.1.1 = roundIndex then e.2 else 0)).sum := by
    unfold ScoreState.owed ScoreState.overRound StorageMap.sum
    congr 1
    apply List.map_congr_left
    intro e _
    dsimp only
    by_cases hRound : e.1.1 = roundIndex
    · rw [if_pos hRound, if_pos hRound]
    · rw [if_neg hRound, if_neg hRound, RoundPayout.credited_zero]
  rw [hOwed]
  exact hShares

--
-- Draining a Round
--

/- What draining has done to the state it began with. -/
structure Draining (s : ScoreState T) (roundIndex : Nat) (round : RoundPayout)
    (acc : ScoreState T × Nat) : Prop where
  frame : acc.1 =
      { s with
        participants := acc.1.participants
        roundsPointsForParticipant :=
          acc.1.roundsPointsForParticipant }
  owed_le : acc.2 + acc.1.owed roundIndex round ≤ s.owed roundIndex round
  credit_eq : acc.1.totalCredit = s.totalCredit + acc.2
  other_rounds : ∀ roundIndex' f,
      roundIndex' ≠ roundIndex →
        acc.1.overRound roundIndex' f = s.overRound roundIndex' f
  entries : ∀ k points,
      acc.1.roundsPointsForParticipant.get k = some points →
        s.roundsPointsForParticipant.get k = some points

theorem draining_start (s : ScoreState T) (roundIndex : Nat) (round : RoundPayout) :
    Draining s roundIndex round (s, 0) where
  frame := rfl
  owed_le := Nat.le_of_eq (Nat.zero_add _)
  credit_eq := rfl
  other_rounds := fun _ _ _ => rfl
  entries := fun _ _ hGet => hGet

namespace Draining

variable {s : ScoreState T} {roundIndex : Nat} {round : RoundPayout} {acc : ScoreState T × Nat}

/- One more entry is drained, and its share is credited. -/
theorem drainEntry (hDraining : Draining s roundIndex round acc)
    (hFits : s.totalCredit + s.owed roundIndex round ≤ u128Max) (who : T.Who) :
    Draining s roundIndex round (Score.drainEntry round roundIndex acc who) := by
  have hEntry := ScoreState.overRound_remove acc.1
      { acc.1 with
        roundsPointsForParticipant := acc.1.roundsPointsForParticipant.remove (roundIndex, who) }
      roundIndex who round.credited round.credited_zero rfl
  have hOther : ∀ roundIndex' f, roundIndex' ≠ roundIndex → ScoreState.overRound
              { acc.1 with
                roundsPointsForParticipant := acc.1.roundsPointsForParticipant.remove
                    (roundIndex, who) }
              roundIndex' f
            = s.overRound roundIndex' f := by
    intro roundIndex' f hNe
    rw [ScoreState.overRound_of_ne acc.1 _ who f hNe.symm (Or.inr rfl),
      hDraining.other_rounds roundIndex' f hNe]
  have hKept : ∀ k points, (acc.1.roundsPointsForParticipant.remove
            (roundIndex, who)).get k = some points →
          s.roundsPointsForParticipant.get k = some points := by
    intro k points hGet
    rw [get_remove] at hGet
    split_ifs at hGet
    exact hDraining.entries k points hGet
  have hOwed := hDraining.owed_le
  have hCredit := hDraining.credit_eq
  have hStays : acc.2 + round.credited (acc.1.roundsPointsForParticipant.getD (roundIndex, who) 0)
          + ScoreState.owed
              { acc.1 with
                roundsPointsForParticipant := acc.1.roundsPointsForParticipant.remove
                    (roundIndex, who) }
              roundIndex round
        ≤ s.owed roundIndex round := by
    unfold ScoreState.owed at hOwed ⊢
    omega
  unfold Score.drainEntry
  dsimp only
  cases hParticipant : acc.1.participants.get who with
  | none =>
    -- the share of one that has left stays in the round
    dsimp only
    refine ⟨?_, ?_, hDraining.credit_eq, hOther, hKept⟩
    · rw [hDraining.frame]
    · exact Nat.le_trans (Nat.add_le_add_right (Nat.le_add_right _ _) _) hStays
  | some score =>
    dsimp only
    have hShare : acc.2 + round.credited (acc.1.roundsPointsForParticipant.getD (roundIndex, who) 0)
          ≤ s.owed roundIndex round :=
      Nat.le_trans (Nat.le_add_right _ _) hStays
    have hLeCredit : score.credit ≤ acc.1.totalCredit := le_sum_of_get hParticipant
        fun _ score => score.credit
    have hAcc : saturatingAdd u128Max acc.2 (round.credited (acc.1.roundsPointsForParticipant.getD
                (roundIndex, who) 0))
          = acc.2 + round.credited (acc.1.roundsPointsForParticipant.getD (roundIndex, who) 0) :=
      saturatingAdd_of_le (by omega)
    have hNew : saturatingAdd u128Max score.credit
            (round.credited (acc.1.roundsPointsForParticipant.getD (roundIndex, who) 0))
          = score.credit + round.credited
              (acc.1.roundsPointsForParticipant.getD (roundIndex, who) 0) :=
      saturatingAdd_of_le (by omega)
    rw [hAcc, hNew]
    refine ⟨?_, ?_, ?_, hOther, hKept⟩
    · rw [hDraining.frame]
    · exact hStays
    · have hSum := sum_insert acc.1.participants (fun _ score => score.credit) who
          { score with
            credit := score.credit + round.credited (acc.1.roundsPointsForParticipant.getD
                (roundIndex, who) 0) }
      rw [hParticipant, weightAt_some] at hSum
      unfold ScoreState.totalCredit at hCredit ⊢
      dsimp only at hSum hCredit ⊢
      omega

/- Draining some entries, one after the other. -/
theorem foldl (hDraining : Draining s roundIndex round acc)
    (hFits : s.totalCredit + s.owed roundIndex round ≤ u128Max) (keys : List T.Who) :
    Draining s roundIndex round (keys.foldl (Score.drainEntry round roundIndex) acc) := by
  induction keys generalizing acc with
  | nil => exact hDraining
  | cons who keys ih =>
    rw [List.foldl_cons]
    exact ih (hDraining.drainEntry hFits who)

end Draining

--
-- Steps outside the Ledger
--

/- Nothing of what the ledger is about has changed. -/
structure SameLedger (w w' : World T) : Prop where
  pot : w'.pot = w.pot
  points : w'.score.currentRoundPoints = w.score.currentRoundPoints
  index : w'.score.currentRoundIndex = w.score.currentRoundIndex
  entries : w'.score.roundsPointsForParticipant = w.score.roundsPointsForParticipant
  payouts : w'.score.roundPayouts = w.score.roundPayouts
  planning : w'.score.roundPlanning = w.score.roundPlanning
  schedules : w'.score.roundSchedules = w.score.roundSchedules
  credit : w'.score.totalCredit = w.score.totalCredit

theorem SameLedger.invariant {w w' : World T} (hSame : SameLedger w w') (hOld : LedgerInvariant w) :
    LedgerInvariant w' := by
  have hOver : ∀ roundIndex f,
        w'.score.overRound roundIndex f = w.score.overRound roundIndex f := by
    intro roundIndex f
    unfold ScoreState.overRound
    rw [hSame.entries]
  refine ⟨⟨?_, ?_, ?_, ?_⟩, ?_, ?_, ?_, ?_, ?_⟩
  · unfold ScoreState.scheduled ScoreState.planned ScoreState.paying
    rw [hSame.pot, hSame.schedules, hSame.planning, hSame.payouts]
    exact hOld.payout_eq
  · rw [hSame.pot, hSame.credit]
    exact hOld.credit_eq
  · unfold ScoreState.roundPoints
    rw [hSame.points, hSame.index, hOver]
    exact hOld.points_eq
  · intro roundIndex round hRound
    rw [hSame.payouts] at hRound
    unfold ScoreState.owed
    rw [hOver]
    exact hOld.owed_le roundIndex round hRound
  · rw [hSame.pot]
    exact hOld.total_le
  · rw [hSame.points]
    exact hOld.points_le
  · rw [hSame.entries, hSame.index]
    exact hOld.entry_le
  · rw [hSame.payouts, hSame.index]
    exact hOld.payout_lt
  · rw [hSame.schedules]
    exact hOld.schedule_backed

namespace SameLedger

/- A record is overwritten by one with the same credit. -/
theorem setParticipant (w : World T) {people : PeopleState T.Member T.Account} {score : Participant}
    (hCredit : score.credit = StorageMap.weightAt (fun _ score => score.credit) who
        (w.score.participants.get who)) :
    SameLedger w { w.setParticipant who score with people := people } := by
  refine ⟨rfl, rfl, rfl, rfl, rfl, rfl, rfl, ?_⟩
  have hSum := sum_insert w.score.participants (fun _ score => score.credit) who score
  rw [← hCredit] at hSum
  exact Nat.add_right_cancel hSum

end SameLedger

theorem World.credit_attend (score : Participant) (threshold : Nat) (attended : Bool)
    (gameIndex : Nat) :
    (World.attend score threshold attended gameIndex).credit = score.credit := by
  unfold World.attend
  cases attended <;> rfl

theorem World.credit_suspendParticipant
    (chain : Chain T.Member T.Account) (people : PeopleState T.Member T.Account)
    (score : Participant) :
    (World.suspendParticipant chain people score).2.1.credit = score.credit := by
  unfold World.suspendParticipant
  cases score.recognition with
  | recognized id =>
    dsimp only
    cases people.suspendPersonhood chain [id] <;> rfl
  | _ => rfl

namespace SameLedger

variable {w w' : World T} {chain : Chain T.Member T.Account}

theorem setAttendance {attended : Bool} {gameIndex : Nat}
    (hSet : World.setAttendance chain w who attended gameIndex = .ok w') :
    SameLedger w w' := by
  unfold World.setAttendance at hSet
  simp only [bind_eq_ok, okOr_eq_ok_iff, pure_eq_ok] at hSet
  rcases hSet with ⟨old, hGet, rfl⟩
  apply setParticipant w
  rw [hGet, weightAt_some]
  dsimp only
  split_ifs
  · exact (World.credit_suspendParticipant chain w.people _).trans
        (World.credit_attend old _ attended gameIndex)
  · exact World.credit_attend old _ attended gameIndex

theorem updateThresholds (w : World T) (activeCount : Nat) :
    SameLedger w (w.updateThresholds activeCount) :=
  ⟨rfl, rfl, rfl, rfl, rfl, rfl, rfl, rfl⟩

theorem trans {w'' : World T} (hFirst : SameLedger w w') (hSecond : SameLedger w' w'') :
    SameLedger w w'' where
  pot := hSecond.pot.trans hFirst.pot
  points := hSecond.points.trans hFirst.points
  index := hSecond.index.trans hFirst.index
  entries := hSecond.entries.trans hFirst.entries
  payouts := hSecond.payouts.trans hFirst.payouts
  planning := hSecond.planning.trans hFirst.planning
  schedules := hSecond.schedules.trans hFirst.schedules
  credit := hSecond.credit.trans hFirst.credit

theorem forceSetAttendance {attended : Bool} {gameIndex : Nat}
    (hForce : World.forceSetAttendance chain w who attended gameIndex = .ok w') :
    SameLedger w w' := by
  unfold World.forceSetAttendance at hForce
  simp only [bind_eq_ok, pure_eq_ok] at hForce
  rcases hForce with ⟨_, _, w₁, hSet, _, _, rfl⟩
  exact (updateThresholds w chain.activeCount).trans (setAttendance hSet)

theorem register {key : Option (T.Member × Bool)}
    (hRegister : World.register chain w account key = .ok w') :
    SameLedger w w' := by
  unfold World.register at hRegister
  simp only [bind_eq_ok, okOr_eq_ok_iff, ensure_eq_ok_iff, exists_const] at hRegister
  rcases hRegister with ⟨score, hGet, _, hRest⟩
  have hCredit : score.credit = StorageMap.weightAt (fun _ score => score.credit)
            (.account account : T.Who)
            (w.score.participants.get (.account account)) := by
    rw [hGet, weightAt_some]
  cases hRecognition : score.recognition with
  | suspended id =>
    simp only [hRecognition, bind_eq_ok, ensure_eq_ok_iff, exists_const, fromPeople_eq_ok_iff,
      pure_eq_ok] at hRest
    rcases hRest with ⟨_, people, _, rfl⟩
    exact setParticipant w hCredit
  | notRecognized =>
    simp only [hRecognition, bind_eq_ok, okOr_eq_ok_iff, ensure_eq_ok_iff, exists_const,
      fromPeople_eq_ok_iff, pure_eq_ok] at hRest
    rcases hRest with ⟨_, _, _, people, _, rfl⟩
    exact setParticipant w hCredit
  | externallyRecognized => simp [hRecognition] at hRest
  | recognized id => simp [hRecognition] at hRest

theorem onboardForRecognition (hOnboard : w.onboardForRecognition account = .ok w') :
    SameLedger w w' := by
  unfold World.onboardForRecognition at hOnboard
  simp only [bind_eq_ok, ensure_eq_ok_iff, exists_const, pure_eq_ok] at hOnboard
  rcases hOnboard with ⟨hAbsent, rfl⟩
  apply setParticipant w
  rw [StorageMap.containsKey_eq_false_iff.mp (Bool.eq_false_iff.mpr hAbsent)]
  rfl

theorem onboardExternallyRecognized {alias_ : T.Alias}
    (hOnboard : w.onboardExternallyRecognized alias_ = .ok w') :
    SameLedger w w' := by
  unfold World.onboardExternallyRecognized at hOnboard
  simp only [bind_eq_ok, ensure_eq_ok_iff, exists_const, pure_eq_ok] at hOnboard
  rcases hOnboard with ⟨hAbsent, rfl⟩
  apply setParticipant w
  rw [StorageMap.containsKey_eq_false_iff.mp (Bool.eq_false_iff.mpr hAbsent)]
  rfl

/- What only concerns the registry leaves the ledger alone. -/
theorem withPeople
    {result :
      Except PeopleMulti.Error (PeopleState T.Member T.Account)}
    (hPeople : w.withPeople result = .ok w') :
    SameLedger w w' := by
  unfold World.withPeople at hPeople
  simp only [bind_eq_ok, pure_eq_ok] at hPeople
  rcases hPeople with ⟨people, _, rfl⟩
  exact ⟨rfl, rfl, rfl, rfl, rfl, rfl, rfl, rfl⟩

end SameLedger

--
-- Steps of the Ledger
--

theorem ledgerInvariant_genesis : LedgerInvariant (World.genesis : World T) where
  payout_eq := rfl
  credit_eq := rfl
  points_eq := rfl
  owed_le := by simp [World.genesis, ScoreState.genesis]
  total_le := Nat.zero_le _
  points_le := Nat.zero_le _
  entry_le := by simp [World.genesis, ScoreState.genesis]
  payout_lt := by simp [World.genesis, ScoreState.genesis]
  schedule_backed := by simp [World.genesis, ScoreState.genesis, BoundedVec.empty]

theorem sum_eraseIdx (xs : List Nat) (i : Nat) :
    (xs.eraseIdx i).sum + (xs[i]?).getD 0 = xs.sum := by
  induction xs generalizing i with
  | nil => simp
  | cons x xs ih =>
    cases i with
    | zero => simp [Nat.add_comm]
    | succ i =>
      have hRest := ih i
      simp only [List.eraseIdx_cons_succ, List.sum_cons, List.getElem?_cons_succ]
      omega

namespace LedgerInvariant

variable {w w' : World T} {chain : Chain T.Member T.Account}

theorem fund (hOld : LedgerInvariant w) (hFund : w.fund amount = .ok w') :
    LedgerInvariant w' := by
  unfold World.fund at hFund
  simp only [bind_eq_ok, ensure_eq_ok_iff, exists_const, pure_eq_ok] at hFund
  rcases hFund with ⟨hFits, rfl⟩
  refine ⟨⟨hOld.payout_eq, hOld.credit_eq, hOld.points_eq, hOld.owed_le⟩,
      ?_, hOld.points_le, hOld.entry_le, hOld.payout_lt,
      hOld.schedule_backed⟩
  unfold Pot.total at *
  dsimp only
  omega

/- A backed schedule comes with the hold of all its rounds. -/
theorem schedulePayoutRounds {count duration : Nat} (hOld : LedgerInvariant w)
    (hBacked : count = 0 → amount = 0) (hFits : amount * count ≤ u128Max)
    (hSchedule : w.schedulePayoutRounds amount count duration = .ok w') :
    LedgerInvariant w' := by
  unfold World.schedulePayoutRounds at hSchedule
  rw [saturatingMul_of_le hFits] at hSchedule
  simp only [bind_eq_ok, okOr_eq_ok_iff, Pot.hold_eq_ok_iff, BoundedVec.tryPush_eq_some_iff,
    pure_eq_ok] at hSchedule
  rcases hSchedule with ⟨pot, ⟨hLe, rfl⟩, schedules, hPush, rfl⟩
  have hPayout := hOld.payout_eq
  have hTotal := hOld.total_le
  unfold Pot.total at hTotal
  refine ⟨⟨?_, hOld.credit_eq, hOld.points_eq, hOld.owed_le⟩,
      ?_, hOld.points_le, hOld.entry_le, hOld.payout_lt, ?_⟩
  · have hSum : (schedules.toList.map fun schedule =>
            schedule.remaining * schedule.amountPerRound).sum
          = w.score.scheduled + amount * count := by
      rw [hPush, List.map_append, List.sum_append, Nat.mul_comm amount count]
      rfl
    unfold ScoreState.scheduled ScoreState.planned ScoreState.paying Pot.held Pot.setHeld
    unfold ScoreState.planned ScoreState.paying at hPayout
    dsimp only
    omega
  · unfold Pot.total Pot.held Pot.setHeld
    dsimp only
    omega
  · intro schedule hMem
    dsimp only at hMem
    rw [hPush] at hMem
    rcases List.mem_append.mp hMem with hMem | hMem
    · exact hOld.schedule_backed schedule hMem
    · rw [List.mem_singleton.mp hMem]
      exact hBacked

/- The rounds of a removed schedule are released again. -/
theorem removePayoutSchedule {index : Nat} (hOld : LedgerInvariant w)
    (hRemove : w.removePayoutSchedule index = .ok w') :
    LedgerInvariant w' := by
  unfold World.removePayoutSchedule at hRemove
  simp only [bind_eq_ok, okOr_eq_ok_iff, pure_eq_ok] at hRemove
  rcases hRemove with ⟨schedule, hIndex, released, hRelease, rfl⟩
  have hPayout := hOld.payout_eq
  have hTotal := hOld.total_le
  unfold Pot.total at hTotal
  have hSum := sum_eraseIdx (w.score.roundSchedules.toList.map fun schedule =>
        schedule.remaining * schedule.amountPerRound)
      index
  rw [List.eraseIdx_map, List.getElem?_map, hIndex, Option.map_some, Option.getD_some] at hSum
  have hScheduled : schedule.remaining * schedule.amountPerRound ≤ w.score.scheduled := by
    unfold ScoreState.scheduled
    omega
  rw [Nat.mul_comm] at hScheduled hSum
  have hHeld : schedule.amountPerRound * schedule.remaining ≤ w.pot.held .payout := by
    change _ ≤ w.pot.payout
    omega
  rw [saturatingMul_of_le (by omega), Pot.release_exact hHeld] at hRelease
  obtain rfl := Except.ok.inj hRelease
  refine ⟨⟨?_, hOld.credit_eq, hOld.points_eq, hOld.owed_le⟩,
      ?_, hOld.points_le, hOld.entry_le, hOld.payout_lt, ?_⟩
  · unfold ScoreState.scheduled ScoreState.planned ScoreState.paying at hPayout ⊢
    unfold ScoreState.scheduled at hScheduled
    unfold Pot.held Pot.setHeld
    dsimp only
    rw [toList_eraseIdx]
    omega
  · unfold Pot.total Pot.held Pot.setHeld
    dsimp only
    omega
  · intro schedule' hMem
    exact hOld.schedule_backed schedule' (List.mem_of_mem_eraseIdx hMem)

/- The shares of a finished round fit its credit. -/
private theorem shares_le_credit {credit points : Nat} (hFits : credit ≤ u128Max) :
    credit / points * points + (credit - saturatingMul u128Max (credit / points) points)
            * points / points
      ≤ credit := by
  have hProduct := Nat.div_mul_le_self credit points
  rw [saturatingMul_of_le (Nat.le_trans hProduct hFits)]
  rcases Nat.eq_zero_or_pos points with rfl | hPos
  · simp
  · rw [Nat.mul_div_cancel _ hPos]
    omega

/- A finished round pays out what it was planned for. -/
theorem finishRound (hOld : LedgerInvariant w)
    (hIndex : w.score.roundPlanning ≠ none → w.score.currentRoundIndex < u32Max) :
    LedgerInvariant { w with score := w.score.finishRound } := by
  cases hPlanning : w.score.roundPlanning with
  | none =>
    have hSame : w.score.finishRound = w.score := by
      unfold ScoreState.finishRound
      rw [hPlanning]
    rw [hSame]
    exact hOld
  | some currentRound =>
    have hNext : (w.score.currentRoundIndex + 1) % (u32Max + 1) = w.score.currentRoundIndex + 1 :=
      Nat.mod_eq_of_lt (Nat.succ_lt_succ (hIndex (by simp [hPlanning])))
    have hPayout := hOld.payout_eq
    have hTotal := hOld.total_le
    unfold Pot.total at hTotal
    have hPlanned : w.score.planned = currentRound.credit := by
      unfold ScoreState.planned
      rw [hPlanning]
      rfl
    have hNew : w.score.roundPayouts.get w.score.currentRoundIndex = none := by
      cases hGet : w.score.roundPayouts.get w.score.currentRoundIndex with
      | none => rfl
      | some round =>
        exact absurd (hOld.payout_lt _ round hGet) (Nat.lt_irrefl _)
    have hPaying := StorageMap.sum_insert_of_get_eq_none hNew
        fun _ (round : RoundPayout) => round.remainingBalance
    unfold ScoreState.finishRound
    rw [hPlanning]
    dsimp only
    rw [hNext]
    refine ⟨⟨?_, hOld.credit_eq, ?_, ?_⟩, hOld.total_le,
        Nat.zero_le _, ?_, ?_, hOld.schedule_backed⟩
    · unfold ScoreState.scheduled ScoreState.paying at hPayout
      unfold ScoreState.scheduled ScoreState.planned ScoreState.paying
      dsimp only
      rw [hPaying]
      simp only [Option.elim_none]
      omega
    · refine (ScoreState.overRound_eq_zero _ _ ?_).symm
      intro k points hGet
      exact Nat.ne_of_lt (Nat.lt_succ_of_le (hOld.entry_le k points hGet))
    · intro roundIndex round hRound
      dsimp only at hRound
      rw [get_insert] at hRound
      split_ifs at hRound with hEq
      · obtain rfl := Option.some.inj hRound
        subst hEq
        refine Nat.le_trans (ScoreState.owed_le ..) ?_
        change
          _ / _ * w.score.roundPoints _ + _ * w.score.roundPoints _ / _ ≤ _
        rw [← hOld.points_eq]
        exact shares_le_credit (by omega)
      · exact hOld.owed_le roundIndex round hRound
    · intro k points hGet
      exact Nat.le_succ_of_le (hOld.entry_le k points hGet)
    · intro roundIndex round hRound
      dsimp only at hRound
      rw [get_insert] at hRound
      split_ifs at hRound with hEq
      · rw [hEq]
        exact Nat.lt_succ_self _
      · exact Nat.lt_succ_of_lt (hOld.payout_lt roundIndex round hRound)

/- The next round takes its credit out of the first schedule. -/
theorem planRound (hOld : LedgerInvariant w) (hNone : w.score.roundPlanning = none) (block : Nat) :
    LedgerInvariant { w with score := w.score.planRound block } := by
  cases hSchedules : w.score.roundSchedules.toList with
  | nil =>
    have hSame : w.score.planRound block = w.score := by
      unfold ScoreState.planRound
      rw [hSchedules]
      rfl
    rw [hSame]
    exact hOld
  | cons schedule rest =>
    have hPayout := hOld.payout_eq
    have hBacked := hOld.schedule_backed
    rw [hSchedules] at hBacked
    have hHead := hBacked schedule (List.mem_cons_self ..)
    have hRest : ∀ schedule' ∈ rest, schedule'.remaining = 0 → schedule'.amountPerRound = 0 :=
      fun schedule' hMem => hBacked schedule' (List.mem_cons_of_mem _ hMem)
    -- one round of the first schedule is planned
    have hRound : schedule.remaining * schedule.amountPerRound
          = (schedule.remaining - 1) * schedule.amountPerRound + schedule.amountPerRound := by
      rcases Nat.eq_zero_or_pos schedule.remaining with
        hZero | hPos
      · simp [hZero, hHead hZero]
      · rw [← Nat.succ_mul, Nat.succ_eq_add_one, Nat.sub_add_cancel hPos]
    unfold ScoreState.scheduled ScoreState.planned ScoreState.paying at hPayout
    rw [hSchedules, hNone, List.map_cons, List.sum_cons, hRound] at hPayout
    simp only [Option.elim_none] at hPayout
    unfold ScoreState.planRound
    rw [hSchedules, List.head?_cons]
    dsimp only
    by_cases hLast : schedule.remaining - 1 = 0
    · rw [if_pos hLast]
      rw [hLast] at hPayout
      refine ⟨⟨?_, hOld.credit_eq, hOld.points_eq, hOld.owed_le⟩,
          hOld.total_le, hOld.points_le, hOld.entry_le,
          hOld.payout_lt, ?_⟩
      · unfold ScoreState.scheduled ScoreState.planned ScoreState.paying
        dsimp only
        rw [toList_eraseIdx, toList_set, hSchedules]
        simp only [List.set_cons_zero, List.eraseIdx_cons_zero, Option.elim_some]
        omega
      · intro schedule' hMem
        dsimp only at hMem
        rw [toList_eraseIdx, toList_set, hSchedules] at hMem
        exact hRest schedule' hMem
    · rw [if_neg hLast]
      refine ⟨⟨?_, hOld.credit_eq, hOld.points_eq, hOld.owed_le⟩,
          hOld.total_le, hOld.points_le, hOld.entry_le,
          hOld.payout_lt, ?_⟩
      · unfold ScoreState.scheduled ScoreState.planned ScoreState.paying
        dsimp only
        rw [toList_set, hSchedules]
        simp only [List.set_cons_zero, List.map_cons, List.sum_cons, Option.elim_some]
        omega
      · intro schedule' hMem
        dsimp only at hMem
        rw [toList_set, hSchedules, List.set_cons_zero] at hMem
        rcases List.mem_cons.mp hMem with rfl | hMem
        · exact fun hZero => absurd hZero hLast
        · exact hRest schedule' hMem

theorem transitionRound {roundIndex : Nat} (hOld : LedgerInvariant w)
    (hIndex : w.score.roundPlanning ≠ none → w.score.currentRoundIndex < u32Max)
    (hTransition : World.transitionRound chain w roundIndex = .ok w') :
    LedgerInvariant w' := by
  unfold World.transitionRound at hTransition
  simp only [bind_eq_ok, ensure_eq_ok_iff, exists_const, pure_eq_ok] at hTransition
  rcases hTransition with ⟨_, rfl⟩
  have hNone : w.score.finishRound.roundPlanning = none := by
    unfold ScoreState.finishRound
    cases hPlanning : w.score.roundPlanning with
    | none => exact hPlanning
    | some currentRound => rfl
  exact planRound (w := { w with score := w.score.finishRound })
      (hOld.finishRound hIndex) hNone chain.block

/- Neither movement of funds fails, and the ledger is kept. -/
theorem operateLayer {roundIndex : Nat} {round : RoundPayout} (hOld : LedgerInvariant w)
    (hRound : w.score.roundPayouts.get roundIndex = some round) (limit : Nat) :
    ∃ w', w.operateLayer roundIndex limit round = .ok w' ∧ LedgerInvariant w' := by
  have hPayout := hOld.payout_eq
  have hCredit := hOld.credit_eq
  have hTotal := hOld.total_le
  unfold Pot.total at hTotal
  have hOwed := hOld.owed_le roundIndex round hRound
  have hPaying := sum_remove w.score.roundPayouts (fun _ round => round.remainingBalance) roundIndex
  rw [hRound, weightAt_some] at hPaying
  have hLePaying : round.remainingBalance ≤ w.score.paying := by
    unfold ScoreState.paying
    omega
  have hLt := hOld.payout_lt roundIndex round hRound
  have hDraining : Draining w.score roundIndex round
        (((w.score.roundKeys roundIndex).take limit).foldl
          (drainEntry round roundIndex) (w.score, 0)) :=
    (draining_start w.score roundIndex round).foldl (by omega) _
  unfold World.operateLayer
  dsimp only
  generalize ((w.score.roundKeys roundIndex).take limit).foldl
      (drainEntry round roundIndex) (w.score, 0) = drained
    at hDraining ⊢
  rcases drained with ⟨s, credited⟩
  rcases hDraining with ⟨hFrame, hStays, hCredited, hOther, hEntries⟩
  dsimp only at hFrame hStays hCredited hOther hEntries ⊢
  have hHeld : credited ≤ w.pot.held .payout := by
    change _ ≤ w.pot.payout
    omega
  have hCurrent : s.roundPoints w.score.currentRoundIndex
        = w.score.roundPoints w.score.currentRoundIndex :=
    hOther _ id (Nat.ne_of_gt hLt)
  have hFree : credited ≤ w.pot.free + credited := Nat.le_add_left _ _
  rw [Pot.release_exact hHeld, ok_bind]
  unfold Pot.hold Pot.setHeld Pot.held
  dsimp only
  rw [ensure_of hFree, ok_bind, pure_bind]
  by_cases hMore : (w.score.roundKeys roundIndex).length < limit
  · rw [if_pos hMore]
    have hRest : round.remainingBalance - credited ≤ Pot.held
              { free := w.pot.free + credited - credited
                payout := w.pot.payout - credited
                credit := w.pot.credit + credited }
              .payout := by
      change _ ≤ w.pot.payout - credited
      omega
    rw [Pot.release_exact hRest, ok_bind]
    refine ⟨_, rfl, ⟨?_, ?_, ?_, ?_⟩, ?_, ?_, ?_, ?_, ?_⟩
    · rw [hFrame]
      unfold ScoreState.scheduled ScoreState.planned ScoreState.paying Pot.setHeld Pot.held
      unfold ScoreState.scheduled ScoreState.planned ScoreState.paying at hPayout
      dsimp only
      omega
    · unfold Pot.setHeld
      change w.pot.credit + credited = s.totalCredit
      omega
    · rw [hFrame]
      exact hOld.points_eq.trans hCurrent.symm
    · intro roundIndex' round' hRound'
      rw [hFrame] at hRound'
      dsimp only at hRound'
      rw [get_remove] at hRound'
      split_ifs at hRound' with hEq
      exact Nat.le_trans (Nat.le_of_eq (hOther roundIndex' round'.credited hEq))
        (hOld.owed_le roundIndex' round' hRound')
    · unfold Pot.total Pot.setHeld Pot.held
      dsimp only
      omega
    · rw [hFrame]
      exact hOld.points_le
    · intro k points hGet
      rw [hFrame]
      exact hOld.entry_le k points (hEntries k points hGet)
    · intro roundIndex' round' hRound'
      rw [hFrame] at hRound' ⊢
      dsimp only at hRound'
      rw [get_remove] at hRound'
      split_ifs at hRound'
      exact hOld.payout_lt roundIndex' round' hRound'
    · rw [hFrame]
      exact hOld.schedule_backed
  · rw [if_neg hMore]
    have hInsert := sum_insert w.score.roundPayouts
        (fun _ round => round.remainingBalance) roundIndex
        { round with
          remainingBalance := round.remainingBalance - credited }
    rw [hRound, weightAt_some] at hInsert
    refine ⟨_, rfl, ⟨?_, ?_, ?_, ?_⟩, ?_, ?_, ?_, ?_, ?_⟩
    · rw [hFrame]
      unfold ScoreState.scheduled ScoreState.planned ScoreState.paying
      unfold ScoreState.scheduled ScoreState.planned ScoreState.paying at hPayout
      dsimp only at hInsert ⊢
      omega
    · change w.pot.credit + credited = s.totalCredit
      omega
    · rw [hFrame]
      exact hOld.points_eq.trans hCurrent.symm
    · intro roundIndex' round' hRound'
      rw [hFrame] at hRound'
      dsimp only at hRound'
      rw [get_insert] at hRound'
      split_ifs at hRound' with hEq
      · obtain rfl := Option.some.inj hRound'
        subst hEq
        change s.owed roundIndex' round ≤ _
        dsimp only
        omega
      · exact Nat.le_trans (Nat.le_of_eq (hOther roundIndex' round'.credited hEq))
          (hOld.owed_le roundIndex' round' hRound')
    · unfold Pot.total
      dsimp only
      omega
    · rw [hFrame]
      exact hOld.points_le
    · intro k points hGet
      rw [hFrame]
      exact hOld.entry_le k points (hEntries k points hGet)
    · intro roundIndex' round' hRound'
      rw [hFrame] at hRound' ⊢
      dsimp only at hRound'
      rw [get_insert] at hRound'
      split_ifs at hRound' with hEq
      · rw [hEq]
        exact hLt
      · exact hOld.payout_lt roundIndex' round' hRound'
    · rw [hFrame]
      exact hOld.schedule_backed

theorem operatePayoutRound {roundIndex limit : Nat} (hOld : LedgerInvariant w)
    (hOperate : w.operatePayoutRound roundIndex limit = .ok w') :
    LedgerInvariant w' := by
  unfold World.operatePayoutRound at hOperate
  simp only [bind_eq_ok, okOr_eq_ok_iff] at hOperate
  rcases hOperate with ⟨round, hRound, hLayer⟩
  rcases hOld.operateLayer hRound limit with ⟨w₁, hOk, hNew⟩
  rw [hOk] at hLayer
  simp only [pure_eq_ok] at hLayer
  exact hLayer ▸ hNew

/- Points are counted where they are awarded. -/
theorem awardParticipantPayoutPoints (hOld : LedgerInvariant w) (who : T.Who) (points : Nat) :
    LedgerInvariant
      { w with
        score := w.score.awardParticipantPayoutPoints who points } := by
  unfold ScoreState.awardParticipantPayoutPoints
  by_cases hZero : points = 0
  · rw [if_pos hZero]
    exact hOld
  · rw [if_neg hZero]
    cases hAdd : checkedAdd u32Max w.score.currentRoundPoints points with
    | none => exact hOld
    | some total =>
      rcases checkedAdd_eq_some_iff.mp hAdd with ⟨hFits, rfl⟩
      have hEq := hOld.points_eq
      dsimp only
      generalize hNew : w.score.roundsPointsForParticipant.insert
          (w.score.currentRoundIndex, who) _ = entries
      have hLe : w.score.roundsPointsForParticipant.getD (w.score.currentRoundIndex, who) 0
            ≤ w.score.roundPoints
                w.score.currentRoundIndex := by
        have hRemove := ScoreState.overRound_remove w.score
            { w.score with
              roundsPointsForParticipant := w.score.roundsPointsForParticipant.remove
                  (w.score.currentRoundIndex, who) }
            w.score.currentRoundIndex who id rfl rfl
        unfold ScoreState.roundPoints
        simp only [id_eq] at hRemove
        omega
      have hInsert := ScoreState.overRound_insert w.score
          { w.score with
            roundsPointsForParticipant := entries
            currentRoundPoints := w.score.currentRoundPoints + points }
          w.score.currentRoundIndex who _ id rfl hNew.symm
      rw [saturatingAdd_of_le (by omega)] at hInsert
      refine ⟨⟨hOld.payout_eq, hOld.credit_eq, ?_, ?_⟩, hOld.total_le, hFits, ?_, hOld.payout_lt,
          hOld.schedule_backed⟩
      · unfold ScoreState.roundPoints at hEq ⊢
        simp only [id_eq] at hInsert
        dsimp only
        omega
      · intro roundIndex round hRound
        have hNe := Nat.ne_of_gt (hOld.payout_lt roundIndex round hRound)
        refine Nat.le_trans (Nat.le_of_eq ?_) (hOld.owed_le roundIndex round hRound)
        exact ScoreState.overRound_of_ne w.score _ who round.credited hNe (Or.inl ⟨_, hNew.symm⟩)
      · intro k old hGet
        dsimp only at hGet
        rw [← hNew, get_insert] at hGet
        split_ifs at hGet with hKey
        · rw [hKey]
        · exact hOld.entry_le k old hGet

theorem cashOut (hOld : LedgerInvariant w) (hCashOut : w.cashOut account = .ok w') :
    LedgerInvariant w' := by
  unfold World.cashOut at hCashOut
  simp only [bind_eq_ok, okOr_eq_ok_iff, ensure_eq_ok_iff, exists_const, pure_eq_ok]
    at hCashOut
  rcases hCashOut with ⟨score, hGet, _, _, rfl⟩
  have hAwarded := hOld.awardParticipantPayoutPoints (.account account : T.Who)
      (saturatingAdd u8Max score.score 1 / 2)
  have hParticipants : (w.score.awardParticipantPayoutPoints (.account account : T.Who)
          (saturatingAdd u8Max score.score 1 / 2)).participants
        = w.score.participants := by
    unfold ScoreState.awardParticipantPayoutPoints
    split_ifs
    · rfl
    · split <;> rfl
  refine SameLedger.invariant ?_ hAwarded
  apply SameLedger.setParticipant
    { w with
      score := w.score.awardParticipantPayoutPoints (.account account : T.Who)
          (saturatingAdd u8Max score.score 1 / 2) }
  dsimp only
  rw [hParticipants, hGet, weightAt_some]

/- The credit of one participant leaves the hold. -/
theorem redeemCredit {destination : T.Account} {accepted : Bool} (hOld : LedgerInvariant w)
    (hRedeem : w.redeemCredit who destination accepted = .ok w') :
    LedgerInvariant w' := by
  unfold World.redeemCredit Pot.transfer at hRedeem
  simp only [bind_eq_ok, okOr_eq_ok_iff, ensure_eq_ok_iff, exists_const, pure_eq_ok]
    at hRedeem
  rcases hRedeem with ⟨score, hGet, _, released, hRelease, pot, ⟨_, hPot⟩, rfl⟩
  have hCredit := hOld.credit_eq
  have hTotal := hOld.total_le
  unfold Pot.total at hTotal
  have hLe : score.credit ≤ w.score.totalCredit := le_sum_of_get hGet fun _ score => score.credit
  have hHeld : score.credit ≤ w.pot.held .credit := by
    change _ ≤ w.pot.credit
    omega
  rw [Pot.release_exact hHeld] at hRelease
  obtain rfl := Except.ok.inj hRelease
  unfold Pot.setHeld Pot.held at hPot
  dsimp only at hPot
  have hSum := sum_insert w.score.participants
      (fun _ score => score.credit) who { score with credit := 0 }
  rw [hGet, weightAt_some] at hSum
  have hPot' : pot.payout = w.pot.payout ∧ pot.credit = w.pot.credit - score.credit
        ∧ pot.total ≤ w.pot.total := by
    unfold Pot.total
    split_ifs at hPot
    · subst hPot
      refine ⟨rfl, rfl, ?_⟩
      dsimp only
      omega
    · subst hPot
      refine ⟨rfl, rfl, ?_⟩
      dsimp only
      omega
  refine ⟨⟨?_, ?_, hOld.points_eq, hOld.owed_le⟩, ?_, hOld.points_le, hOld.entry_le, hOld.payout_lt,
      hOld.schedule_backed⟩
  · exact hPot'.1.trans hOld.payout_eq
  · unfold ScoreState.totalCredit World.setParticipant
    unfold ScoreState.totalCredit at hCredit
    dsimp only at hSum ⊢
    omega
  · exact Nat.le_trans hPot'.2.2 hOld.total_le

/- What a participant forfeits is free again. -/
theorem takeParticipant (hOld : LedgerInvariant w) (who : T.Who) :
    LedgerInvariant (w.takeParticipant who) := by
  unfold World.takeParticipant
  cases hGet : w.score.participants.get who with
  | none => exact hOld
  | some score =>
    have hSum := sum_remove w.score.participants (fun _ score => score.credit) who
    rw [hGet, weightAt_some] at hSum
    have hCredit := hOld.credit_eq
    have hTotal := hOld.total_le
    unfold Pot.total at hTotal
    unfold ScoreState.totalCredit at hCredit
    dsimp only
    by_cases hZero : score.credit = 0
    · rw [if_pos hZero]
      apply SameLedger.invariant _ hOld
      refine ⟨rfl, rfl, rfl, rfl, rfl, rfl, rfl, ?_⟩
      unfold ScoreState.totalCredit
      dsimp only
      omega
    · have hHeld : score.credit ≤ w.pot.held .credit := by
        change _ ≤ w.pot.credit
        omega
      rw [if_neg hZero, Pot.release_exact hHeld]
      refine ⟨⟨hOld.payout_eq, ?_, hOld.points_eq, hOld.owed_le⟩,
          ?_, hOld.points_le, hOld.entry_le, hOld.payout_lt,
          hOld.schedule_backed⟩
      · unfold ScoreState.totalCredit Pot.setHeld Pot.held
        dsimp only
        omega
      · unfold Pot.total Pot.setHeld Pot.held
        dsimp only
        omega

theorem offboard (hOld : LedgerInvariant w) (hOffboard : World.offboard chain w who = .ok w') :
    LedgerInvariant w' := by
  unfold World.offboard at hOffboard
  simp only [bind_eq_ok, pure_eq_ok] at hOffboard
  rcases hOffboard with ⟨w₁, hSuspend, rfl⟩
  have hSame : SameLedger w w₁ := by
    unfold World.suspendRecognized at hSuspend
    cases hRecognition : (w.score.participants.get who).map
        Participant.recognition with
    | none =>
      rw [hRecognition] at hSuspend
      obtain rfl := Except.ok.inj hSuspend
      exact ⟨rfl, rfl, rfl, rfl, rfl, rfl, rfl, rfl⟩
    | some recognition =>
      rw [hRecognition] at hSuspend
      cases recognition with
      | recognized id =>
        unfold World.suspendInSession at hSuspend
        simp only [bind_eq_ok, fromPeople_eq_ok_iff, pure_eq_ok] at hSuspend
        rcases hSuspend with ⟨_, _, _, _, _, _, rfl⟩
        exact ⟨rfl, rfl, rfl, rfl, rfl, rfl, rfl, rfl⟩
      | _ =>
        obtain rfl := Except.ok.inj hSuspend
        exact ⟨rfl, rfl, rfl, rfl, rfl, rfl, rfl, rfl⟩
  refine SameLedger.invariant ?_ ((hSame.invariant hOld).takeParticipant who)
  cases who <;> exact ⟨rfl, rfl, rfl, rfl, rfl, rfl, rfl, rfl⟩

--
-- Runs
--

/- Every operation keeps the ledger while rounds are backed. -/
theorem dispatch {call : Chain T.Member T.Account × Op T} (hOld : LedgerInvariant w)
    (hBacked : RoundsBacked w call w') (hDispatch : w.dispatch call = .ok w') :
    LedgerInvariant w' := by
  rcases call with ⟨chain, op⟩
  cases op with
  | fund amount => exact hOld.fund hDispatch
  | schedulePayoutRounds amount count duration =>
    exact hOld.schedulePayoutRounds hBacked.1 hBacked.2 hDispatch
  | removePayoutSchedule index =>
    exact hOld.removePayoutSchedule hDispatch
  | transitionRound roundIndex =>
    exact hOld.transitionRound hBacked hDispatch
  | operatePayoutRound roundIndex limit =>
    exact hOld.operatePayoutRound hDispatch
  | cashOut account => exact hOld.cashOut hDispatch
  | redeemCredit who destination accepted =>
    exact hOld.redeemCredit hDispatch
  | offboard who => exact hOld.offboard hDispatch
  | register account key =>
    exact (SameLedger.register hDispatch).invariant hOld
  | setAbsenceGraceSchedule schedule =>
    refine SameLedger.invariant ?_ hOld
    unfold World.dispatch World.setAbsenceGraceSchedule at hDispatch
    simp only [bind_eq_ok, pure_eq_ok] at hDispatch
    rcases hDispatch with ⟨_, _, rfl⟩
    exact ⟨rfl, rfl, rfl, rfl, rfl, rfl, rfl, rfl⟩
  | setPersonhoodThresholdSchedule schedule =>
    refine SameLedger.invariant ?_ hOld
    unfold World.dispatch World.setPersonhoodThresholdSchedule at hDispatch
    simp only [bind_eq_ok, pure_eq_ok] at hDispatch
    rcases hDispatch with ⟨_, _, rfl⟩
    exact ⟨rfl, rfl, rfl, rfl, rfl, rfl, rfl, rfl⟩
  | forceSetAttendance who attended gameIndex =>
    exact (SameLedger.forceSetAttendance hDispatch).invariant hOld
  | onboardForRecognition account =>
    exact (SameLedger.onboardForRecognition hDispatch).invariant hOld
  | onboardExternallyRecognized alias_ =>
    exact (SameLedger.onboardExternallyRecognized hDispatch).invariant hOld
  | startAttendanceReportSession =>
    obtain rfl := Except.ok.inj hDispatch
    exact (SameLedger.updateThresholds w chain.activeCount).invariant hOld
  | endAttendanceReportSession =>
    unfold World.dispatch at hDispatch
    simp only [bind_eq_ok, pure_eq_ok] at hDispatch
    rcases hDispatch with ⟨_, _, rfl⟩
    exact hOld
  | setAttendance who attended gameIndex =>
    exact (SameLedger.setAttendance hDispatch).invariant hOld
  | reserveNewId =>
    obtain rfl := Except.ok.inj hDispatch
    have hSame : SameLedger w { w with people := w.people.reserveNewId.2 } :=
      ⟨rfl, rfl, rfl, rfl, rfl, rfl, rfl, rfl⟩
    exact hSame.invariant hOld
  | cancelIdReservation id =>
    exact (SameLedger.withPeople hDispatch).invariant hOld
  | renewIdReservation id =>
    exact (SameLedger.withPeople hDispatch).invariant hOld
  | recognizeNewPerson id key =>
    exact (SameLedger.withPeople hDispatch).invariant hOld
  | forceRecognizePersonhood people =>
    exact (SameLedger.withPeople hDispatch).invariant hOld
  | setPersonalIdAccount id account callValidAt =>
    exact (SameLedger.withPeople hDispatch).invariant hOld
  | unsetPersonalIdAccount id =>
    exact (SameLedger.withPeople hDispatch).invariant hOld

end LedgerInvariant

namespace World

/-
  While every scheduled round is backed, the holds of the pot are the stages of the funds, every
  paying round covers what it owes, and operating one never fails.
-/
theorem payout_ledger (w : World T) (hRun : RunUnder dispatch RoundsBacked genesis w) :
    w.pot.payout = w.score.scheduled + w.score.planned + w.score.paying
      ∧ w.pot.credit = w.score.totalCredit
      ∧ w.score.currentRoundPoints = w.score.roundPoints w.score.currentRoundIndex
      ∧ ∀ roundIndex round, w.score.roundPayouts.get roundIndex = some round →
          w.score.owed roundIndex round ≤ round.remainingBalance ∧ ∀ limit,
              ∃ w', w.operateLayer roundIndex limit round = .ok w' := by
  have hLedger : LedgerInvariant w := hRun.invariant LedgerInvariant
      (fun _ _ _ hBacked hDispatch hOld => hOld.dispatch hBacked hDispatch)
      ledgerInvariant_genesis
  refine ⟨hLedger.payout_eq, hLedger.credit_eq, hLedger.points_eq, ?_⟩
  intro roundIndex round hRound
  refine ⟨hLedger.owed_le roundIndex round hRound, ?_⟩
  intro limit
  rcases hLedger.operateLayer hRound limit with ⟨w', hOk, _⟩
  exact ⟨w', hOk⟩

private def backed (w : World sampleConfig) (call : Chain Nat Nat × Op sampleConfig) : Bool :=
  match call.2 with
  | .schedulePayoutRounds amount count _ =>
    decide (0 < count ∧ amount * count ≤ u128Max)
  | .transitionRound _ =>
    decide (w.score.currentRoundIndex < u32Max)
  | _ => true

private theorem roundsBacked_of_backed
    (w : World sampleConfig) (call : Chain Nat Nat × Op sampleConfig) (w' : World sampleConfig)
    (hCheck : backed w call = true) :
    RoundsBacked w call w' := by
  rcases call with ⟨chain, op⟩
  cases op with
  | schedulePayoutRounds amount count duration =>
    have hBoth := of_decide_eq_true hCheck
    exact ⟨fun hZero => absurd hZero (Nat.pos_iff_ne_zero.mp hBoth.1), hBoth.2⟩
  | transitionRound roundIndex =>
    exact fun _ => of_decide_eq_true hCheck
  | _ => trivial

/-
  Two rounds of ten are scheduled.  The first one pays out to
  a participant with one point, the second one is planned.
-/
theorem payout_ledger_sample : ∃ w,
      RunUnder dispatch RoundsBacked (genesis : World sampleConfig) w
        ∧ w.pot = { free := 80, payout := 20, credit := 0 }
        ∧ w.score.planned = 10
        ∧ w.score.owed 0 ⟨10, 10, 0, 1⟩ = 10
        ∧ w.pot.payout = w.score.scheduled + w.score.planned + w.score.paying := by
  have hExecute : (performAll backed [.fund 100, .startAttendanceReportSession,
          .onboardForRecognition 1,
          .setAttendance (.account 1) true 0,
          .cashOut 1, .schedulePayoutRounds 10 2 0,
          .transitionRound 0, .transitionRound 0]).any
        (fun w =>
          decide (w.pot = { free := 80, payout := 20, credit := 0 } ∧ w.score.planned = 10
              ∧ w.score.owed 0 ⟨10, 10, 0, 1⟩ = 10)) = true := by
    decide +kernel
  have hReached := exists_run_of_execute
      (fun w call w' hCheck _ => roundsBacked_of_backed w call w' hCheck)
      hExecute
  rcases hReached with ⟨w, hRun, hTest⟩
  rw [decide_eq_true_eq] at hTest
  exact ⟨w, hRun, hTest.1, hTest.2.1, hTest.2.2, (payout_ledger w hRun).1⟩

/-
  A schedule without rounds is planned after the end of
  another round, and its seven were never held.
-/
theorem payout_ledger_fails : ∃ w,
      RunUnder dispatch (fun _ _ _ => True) (genesis : World sampleConfig) w ∧ w.pot.payout = 5
        ∧ w.score.scheduled + w.score.planned + w.score.paying = 12 := by
  have hExecute : (performAll (fun _ _ => true) [.fund 100, .schedulePayoutRounds 5 1 0,
          .transitionRound 0, .schedulePayoutRounds 7 0 0,
          .transitionRound 0]).any
        (fun w =>
          decide (w.pot.payout = 5 ∧ w.score.scheduled + w.score.planned + w.score.paying
              = 12)) = true := by
    decide +kernel
  have hReached := exists_run_of_execute (fun _ _ _ _ _ => (trivial : True)) hExecute
  rcases hReached with ⟨w, hRun, hTest⟩
  rw [decide_eq_true_eq] at hTest
  exact ⟨w, hRun, hTest⟩

end World

end Individuality.Score
