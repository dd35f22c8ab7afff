import Individuality.MobRule.Pallet
import Individuality.Base.PartSum
import Individuality.Score.Ledger

/-
  The funds of the pot are those of the scheduled rounds, of
  the round that is paid, and the credit of voters.

  Main declaration: `MobState.reward_ledger`
-/

namespace Individuality.MobRule

open Except (bind_eq_ok ok_bind pure_eq_ok)
open StorageMap (get_remove sumWhere_remove sumWhere_remove_of_not sum_insert)

open Score (Pot)

variable {T : Config} {voter : T.Alias} {caseIndex : Nat}

--
-- Where the Funds Are
--

namespace MobState

/- What the schedules will still pay. -/
def scheduled (w : MobState T) : Nat :=
  (w.roundSchedules.toList.map fun schedule =>
    schedule.remaining * schedule.amountPerRound).sum

/- What is left of the round that is paid. -/
def paying (w : MobState T) : Nat :=
  w.payoutDistribution.elim 0 (·.remainingBalance)

def totalCredit (w : MobState T) : Nat :=
  w.credits.sum fun _ credit => credit.credit

/- The points of all voters in a round. -/
def roundPoints (w : MobState T) (round : Nat) : Nat :=
  w.votingPoints.sumWhere (fun k => k.1 = round) id

/- What those who did not claim yet are worth together. -/
def owed (w : MobState T) (distribution : CreditDistribution) : Nat :=
  w.votingPoints.sumWhere (fun k => k.1 = distribution.round) (claimable T distribution)

end MobState

/- The distribution covers what is still owed, and what was claimed of it is missing. -/
structure Covered (w : MobState T) (distribution : CreditDistribution) : Prop where
  points_le : w.roundPoints distribution.round ≤ distribution.totalPoints
  owed_le : w.owed distribution ≤ distribution.remainingBalance
  claimed_eq : w.claimedOfRound + distribution.remainingBalance
      = distribution.initialBalance
  round_lt : distribution.round < u32Max
  points_pos : 0 < distribution.totalPoints

structure LedgerInvariant (w : MobState T) : Prop where
  payout_eq : w.pot.payout = w.scheduled + w.paying
  credit_eq : w.pot.credit = w.totalCredit
  points_eq : w.accumulatedPoints = w.roundPoints w.currentRound
  covered : ∀ distribution,
      w.payoutDistribution = some distribution → Covered w distribution
  total_le : w.pot.total ≤ u128Max
  entry_le : ∀ k points, w.votingPoints.get k = some points → k.1 ≤ w.currentRound
  schedule_backed : ∀ schedule ∈ w.roundSchedules.toList,
      schedule.remaining = 0 → schedule.amountPerRound = 0

/-
  Only rounds that are backed by a hold are scheduled, no
  points are lost to an overflow, and rounds have new indices.
-/
def RoundsBacked (w : MobState T) (step : Chain × Op T) (_ : MobState T) : Prop :=
  match step.2 with
  | .schedulePayoutRounds amount count _ =>
    (count = 0 → amount = 0) ∧ amount * count ≤ u128Max
  | .claimVotes voter caseIndices =>
    w.votingPoints.getD (w.currentRound, voter) 0 + caseIndices.length ≤ u32Max
      ∧ w.accumulatedPoints + caseIndices.length ≤ u64Max
  | .startPayoutRound =>
    ∀ distribution, w.payoutDistribution = some distribution → distribution.round + 1 < u32Max
  | _ => True

--
-- Shares of a Round
--

section Shares

variable {distribution : CreditDistribution}

/- Nothing is worth nothing, in a round with points. -/
theorem claimable_zero (hPos : 0 < distribution.totalPoints) :
    MobState.claimable T distribution 0 = 0 := by
  have hZero := T.perbill_roundsDown 0 distribution.totalPoints (Nat.zero_le _)
  rw [Nat.zero_mul] at hZero
  have hPart : T.perbill 0 distribution.totalPoints = 0 := by
    rcases Nat.mul_eq_zero.mp (Nat.le_zero.mp hZero) with
      hPart | hWhole
    · exact hPart
    · omega
  unfold MobState.claimable
  rw [hPart, Nat.zero_mul, Nat.zero_div]

/- The parts of points together, rounded down one by one. -/
private theorem sum_perbill_le {α : Type} (xs : List α) (g : α → Nat)
    (hEach : ∀ x ∈ xs, g x ≤ distribution.totalPoints) :
    (xs.map fun x => T.perbill (g x) distribution.totalPoints).sum * distribution.totalPoints
      ≤ (xs.map g).sum * billion := by
  induction xs with
  | nil => simp
  | cons x xs ih =>
    have hRest := ih fun y hMem => hEach y (List.mem_cons_of_mem _ hMem)
    have hHead := T.perbill_roundsDown (g x) distribution.totalPoints (hEach x List.mem_cons_self)
    simp only [List.map_cons, List.sum_cons, Nat.add_mul]
    omega

private theorem sum_claimable_le {α : Type} (xs : List α) (g : α → Nat) :
    (xs.map fun x => MobState.claimable T distribution (g x)).sum
      ≤ (xs.map fun x => T.perbill (g x) distribution.totalPoints).sum
          * distribution.initialBalance / billion := by
  induction xs with
  | nil => simp
  | cons x xs ih =>
    simp only [List.map_cons, List.sum_cons, Nat.add_mul]
    exact Nat.le_trans (Nat.add_le_add_left ih _) Nat.div_add_div_le_add_div

/- Shares of no more than all points fit the balance. -/
private theorem shares_le_initial {α : Type} (xs : List α) (g : α → Nat)
    (hPos : 0 < distribution.totalPoints) (hSum : (xs.map g).sum ≤ distribution.totalPoints) :
    (xs.map fun x => MobState.claimable T distribution (g x)).sum
      ≤ distribution.initialBalance := by
  have hEach : ∀ x ∈ xs, g x ≤ distribution.totalPoints := by
    intro x hMem
    exact Nat.le_trans (List.le_sum_of_mem (List.mem_map_of_mem hMem)) hSum
  have hParts := sum_perbill_le (T := T) xs g hEach
  have hWhole : (xs.map fun x => T.perbill (g x) distribution.totalPoints).sum ≤ billion := by
    refine Nat.le_of_mul_le_mul_right ?_ hPos
    refine Nat.le_trans hParts ?_
    rw [Nat.mul_comm billion]
    exact Nat.mul_le_mul_right _ hSum
  refine Nat.le_trans (sum_claimable_le xs g) ?_
  refine Nat.div_le_of_le_mul ?_
  exact Nat.mul_le_mul_right _ hWhole

/- A round whose points are counted owes at most its funds. -/
theorem MobState.owed_le_initial {w : MobState T} (hPos : 0 < distribution.totalPoints)
    (hPoints : w.roundPoints distribution.round ≤ distribution.totalPoints) :
    w.owed distribution ≤ distribution.initialBalance := by
  have hShares := shares_le_initial (T := T) w.votingPoints.entries (fun e =>
        if e.1.1 = distribution.round then e.2 else 0)
      hPos hPoints
  refine Nat.le_trans (Nat.le_of_eq ?_) hShares
  unfold MobState.owed StorageMap.sumWhere StorageMap.sum
  congr 1
  apply List.map_congr_left
  intro e _
  dsimp only
  by_cases hRound : e.1.1 = distribution.round
  · rw [if_pos hRound, if_pos hRound]
  · rw [if_neg hRound, if_neg hRound, claimable_zero hPos]

end Shares

--
-- Operations beside the Ledger
--

/- What the ledger reads stays as it was. -/
structure SameLedger (w w' : MobState T) : Prop where
  pot : w'.pot = w.pot
  credit : w'.totalCredit = w.totalCredit
  points : w'.votingPoints = w.votingPoints
  accumulated : w'.accumulatedPoints = w.accumulatedPoints
  distribution : w'.payoutDistribution = w.payoutDistribution
  schedules : w'.roundSchedules = w.roundSchedules
  claimed : w'.claimedOfRound = w.claimedOfRound

theorem SameLedger.invariant {w w' : MobState T} (hSame : SameLedger w w')
    (hOld : LedgerInvariant w) :
    LedgerInvariant w' := by
  rcases hSame with ⟨hPot, hCredit, hPoints, hAccumulated, hDistribution, hSchedules, hClaimed⟩
  have hRound : w'.currentRound = w.currentRound := by
    unfold MobState.currentRound
    rw [hDistribution]
  refine ⟨?_, ?_, ?_, ?_, ?_, ?_, ?_⟩
  · unfold MobState.scheduled MobState.paying
    rw [hPot, hSchedules, hDistribution]
    exact hOld.payout_eq
  · rw [hPot, hCredit]
    exact hOld.credit_eq
  · unfold MobState.roundPoints
    rw [hAccumulated, hPoints, hRound]
    exact hOld.points_eq
  · intro distribution hSome
    rw [hDistribution] at hSome
    rcases hOld.covered distribution hSome with ⟨hLe, hOwed, hEq, hLt, hPos⟩
    refine ⟨?_, ?_, ?_, hLt, hPos⟩
    · unfold MobState.roundPoints
      rw [hPoints]
      exact hLe
    · unfold MobState.owed
      rw [hPoints]
      exact hOwed
    · rw [hClaimed]
      exact hEq
  · rw [hPot]
    exact hOld.total_le
  · intro k points hGet
    rw [hPoints] at hGet
    rw [hRound]
    exact hOld.entry_le k points hGet
  · intro schedule hMem
    rw [hSchedules] at hMem
    exact hOld.schedule_backed schedule hMem

/- The record of a voter changes, but not its credit. -/
theorem totalCredit_insert {w w' : MobState T} {credit : MobCredit}
    (hCredits : w'.credits = w.credits.insert voter credit)
    (hSame : credit.credit = (w.credits.getD voter {}).credit) :
    w'.totalCredit = w.totalCredit := by
  have hSum := sum_insert w.credits (fun _ credit => credit.credit) voter credit
  unfold MobState.totalCredit
  rw [hCredits]
  unfold StorageMap.getD at hSame
  cases hGet : w.credits.get voter with
  | none =>
    rw [hGet, StorageMap.weightAt_none] at hSum
    rw [hGet] at hSame
    change _ = 0 at hSame
    omega
  | some old =>
    rw [hGet, StorageMap.weightAt_some] at hSum
    rw [hGet] at hSame
    change _ = old.credit at hSame
    omega

namespace SameLedger

variable {w w' : MobState T} {chain : Chain}

theorem storeCase (w : MobState T) (caseIndex : Nat) (case_ : OpenCase T) :
    SameLedger w (w.storeCase chain caseIndex case_) := by
  unfold MobState.storeCase
  split <;> exact ⟨rfl, rfl, rfl, rfl, rfl, rfl, rfl⟩

theorem trans {w'' : MobState T} (hFirst : SameLedger w w') (hRest : SameLedger w' w'') :
    SameLedger w w'' :=
  ⟨hRest.pot.trans hFirst.pot, hRest.credit.trans hFirst.credit, hRest.points.trans hFirst.points,
    hRest.accumulated.trans hFirst.accumulated,
    hRest.distribution.trans hFirst.distribution,
    hRest.schedules.trans hFirst.schedules,
    hRest.claimed.trans hFirst.claimed⟩

theorem vote {opinion : Judgement}
    (hVote : MobState.vote chain w voter caseIndex opinion = .ok w') :
    SameLedger w w' := by
  unfold MobState.vote at hVote
  simp only [bind_eq_ok, ensure_eq_ok_iff, okOr_eq_ok_iff, exists_const, pure_eq_ok] at hVote
  rcases hVote with ⟨_, case_, _, rfl⟩
  refine SameLedger.trans ?_ (SameLedger.storeCase ..)
  refine ⟨rfl, totalCredit_insert rfl ?_, rfl, rfl, rfl, rfl, rfl⟩
  cases w.votes.get (caseIndex, voter) <;> rfl

theorem punish (w : MobState T) (voter : T.Alias) (vote : Judgement) :
    SameLedger w (w.punish chain voter vote) := by
  unfold MobState.punish
  split <;> exact ⟨rfl, rfl, rfl, rfl, rfl, rfl, rfl⟩

theorem credits_punish (w : MobState T) (voter : T.Alias) (vote : Judgement) :
    (w.punish chain voter vote).credits = w.credits := by
  unfold MobState.punish
  split <;> rfl

theorem cleanVoteInner (hClean : MobState.cleanVoteInner chain w caseIndex voter = .ok w') :
    SameLedger w w' := by
  unfold MobState.cleanVoteInner at hClean
  simp only [bind_eq_ok, pure_eq_ok] at hClean
  rcases hClean with ⟨vote, _, rfl⟩
  cases (w.doneCases.get caseIndex).map DoneCase.verdict with
  | none =>
    dsimp only
    exact ⟨rfl, totalCredit_insert rfl rfl, rfl, rfl, rfl, rfl, rfl⟩
  | some verdict =>
    dsimp only
    by_cases hAgrees : verdict.agrees vote = true
    · rw [if_pos hAgrees]
      exact ⟨rfl, totalCredit_insert rfl rfl, rfl, rfl, rfl, rfl, rfl⟩
    · rw [if_neg hAgrees]
      have hPunished : SameLedger _ (MobState.punish chain
              { w with
                votes := w.votes.remove (caseIndex, voter) }
              voter vote) :=
        SameLedger.punish _ _ _
      refine ⟨hPunished.pot, ?_, hPunished.points, hPunished.accumulated, hPunished.distribution,
          hPunished.schedules, hPunished.claimed⟩
      exact totalCredit_insert
          (congrArg (fun m => StorageMap.insert m voter _) (credits_punish _ _ _))
          rfl

/- One claimed vote counts for at most one point. -/
theorem claimOne {acc acc' : MobState T × Nat}
    (hClaim : MobState.claimOne chain voter acc caseIndex = .ok acc') :
    SameLedger acc.1 acc'.1 ∧ acc'.1.credits = acc.1.credits ∧ acc'.2 ≤ acc.2 + 1 := by
  unfold MobState.claimOne at hClaim
  simp only [bind_eq_ok, okOr_eq_ok_iff, pure_eq_ok] at hClaim
  rcases hClaim with ⟨vote, _, case_, _, rfl⟩
  by_cases hAgrees : case_.verdict.agrees vote = true
  · rw [if_pos hAgrees]
    exact ⟨⟨rfl, rfl, rfl, rfl, rfl, rfl, rfl⟩, rfl, saturatingAdd_le_add _ _ _⟩
  · rw [if_neg hAgrees]
    refine ⟨?_, credits_punish _ _ _, Nat.le_succ _⟩
    have hTaken : SameLedger acc.1
          { acc.1 with
            votes := acc.1.votes.remove (caseIndex, voter) } :=
      ⟨rfl, rfl, rfl, rfl, rfl, rfl, rfl⟩
    exact hTaken.trans (SameLedger.punish ..)

theorem foldlM_claimOne {acc acc' : MobState T × Nat} {caseIndices : List Nat}
    (hFold : caseIndices.foldlM (MobState.claimOne chain voter) acc = .ok acc') :
    SameLedger acc.1 acc'.1 ∧ acc'.1.credits = acc.1.credits
      ∧ acc'.2 ≤ acc.2 + caseIndices.length := by
  induction caseIndices generalizing acc with
  | nil =>
    rw [List.foldlM_nil, pure_eq_ok] at hFold
    rw [← hFold]
    exact ⟨⟨rfl, rfl, rfl, rfl, rfl, rfl, rfl⟩, rfl, Nat.le_refl _⟩
  | cons caseIndex rest ih =>
    rw [List.foldlM_cons, bind_eq_ok] at hFold
    rcases hFold with ⟨acc₁, hFirst, hRest⟩
    rcases claimOne hFirst with ⟨hSame, hCredits, hLe⟩
    rcases ih hRest with ⟨hSame', hCredits', hLe'⟩
    refine ⟨hSame.trans hSame', hCredits'.trans hCredits, ?_⟩
    rw [List.length_cons]
    omega

end SameLedger

--
-- Funds
--

theorem ledgerInvariant_genesis :
    LedgerInvariant (MobState.genesis : MobState T) where
  payout_eq := rfl
  credit_eq := rfl
  points_eq := rfl
  covered := by
    intro distribution hSome
    cases hSome
  total_le := Nat.zero_le _
  entry_le := by
    intro k points hGet
    cases hGet
  schedule_backed := by
    intro schedule hMem
    cases hMem

namespace LedgerInvariant

variable {w w' : MobState T} {chain : Chain}

theorem fund {amount : Nat} (hOld : LedgerInvariant w) (hFund : w.fund amount = .ok w') :
    LedgerInvariant w' := by
  unfold MobState.fund at hFund
  simp only [bind_eq_ok, ensure_eq_ok_iff, exists_const, pure_eq_ok] at hFund
  rcases hFund with ⟨hFits, rfl⟩
  refine ⟨hOld.payout_eq, hOld.credit_eq, hOld.points_eq, fun d hSome => ?_, ?_, hOld.entry_le,
      hOld.schedule_backed⟩
  · rcases hOld.covered d hSome with ⟨hLe, hOwed, hEq, hLt, hPos⟩
    exact ⟨hLe, hOwed, hEq, hLt, hPos⟩
  · unfold Pot.total at *
    dsimp only
    omega

/- A change of the pot and the schedules alone. -/
theorem withSchedules {pot : Pot}
    {schedules :
      BoundedVec PayoutSchedule T.maxPayoutRoundSchedules}
    (hOld : LedgerInvariant w)
    (hPayout : pot.payout = (schedules.toList.map fun schedule =>
          schedule.remaining * schedule.amountPerRound).sum
        + w.paying)
    (hCredit : pot.credit = w.pot.credit)
    (hTotal : pot.total ≤ u128Max)
    (hBacked : ∀ schedule ∈ schedules.toList,
        schedule.remaining = 0 → schedule.amountPerRound = 0) :
    LedgerInvariant { w with pot := pot, roundSchedules := schedules } := by
  refine ⟨hPayout, hCredit.trans hOld.credit_eq, hOld.points_eq,
      fun d hSome => ?_, hTotal, hOld.entry_le, hBacked⟩
  rcases hOld.covered d hSome with ⟨hLe, hOwed, hEq, hLt, hPos⟩
  exact ⟨hLe, hOwed, hEq, hLt, hPos⟩

theorem schedulePayoutRounds {amount count period : Nat} (hOld : LedgerInvariant w)
    (hBacked : count = 0 → amount = 0) (hFits : amount * count ≤ u128Max)
    (hSchedule : w.schedulePayoutRounds amount count period = .ok w') :
    LedgerInvariant w' := by
  unfold MobState.schedulePayoutRounds at hSchedule
  rw [saturatingMul_of_le hFits] at hSchedule
  simp only [bind_eq_ok, okOr_eq_ok_iff, fromPot_eq_ok_iff, Score.Pot.hold_eq_ok_iff,
    BoundedVec.tryPush_eq_some_iff,
    pure_eq_ok] at hSchedule
  rcases hSchedule with ⟨pot, ⟨hLe, rfl⟩, schedules, hPush, rfl⟩
  have hPayout := hOld.payout_eq
  have hTotal := hOld.total_le
  unfold Pot.total at hTotal
  refine hOld.withSchedules ?_ rfl ?_ ?_
  · have hSum : (schedules.toList.map fun schedule =>
            schedule.remaining * schedule.amountPerRound).sum
          = w.scheduled + amount * count := by
      rw [hPush, List.map_append, List.sum_append, Nat.mul_comm amount count]
      rfl
    unfold Score.Pot.held Score.Pot.setHeld
    dsimp only
    omega
  · unfold Pot.total Score.Pot.held Score.Pot.setHeld
    dsimp only
    omega
  · intro schedule hMem
    rw [hPush] at hMem
    rcases List.mem_append.mp hMem with hMem | hMem
    · exact hOld.schedule_backed schedule hMem
    · rw [List.mem_singleton.mp hMem]
      exact hBacked

variable {schedule : PayoutSchedule}

/- A schedule is worth no more than all of them. -/
theorem sum_eraseIdx_schedules {index : Nat}
    (hIndex : w.roundSchedules.toList[index]? = some schedule) :
    ((w.roundSchedules.eraseIdx index).toList.map fun schedule =>
        schedule.remaining * schedule.amountPerRound).sum
        + schedule.remaining * schedule.amountPerRound
      = w.scheduled := by
  have hSum := Score.sum_eraseIdx (w.roundSchedules.toList.map fun schedule =>
        schedule.remaining * schedule.amountPerRound)
      index
  rw [List.eraseIdx_map, List.getElem?_map, hIndex, Option.map_some, Option.getD_some] at hSum
  rw [BoundedVec.toList_eraseIdx]
  exact hSum

theorem removePayoutSchedule {index : Nat} (hOld : LedgerInvariant w)
    (hRemove : w.removePayoutSchedule index = .ok w') :
    LedgerInvariant w' := by
  unfold MobState.removePayoutSchedule at hRemove
  simp only [bind_eq_ok, okOr_eq_ok_iff, fromPot_eq_ok_iff, pure_eq_ok] at hRemove
  rcases hRemove with ⟨schedule, hIndex, released, hRelease, rfl⟩
  have hPayout := hOld.payout_eq
  have hTotal := hOld.total_le
  unfold Pot.total at hTotal
  have hSum := sum_eraseIdx_schedules hIndex
  rw [Nat.mul_comm schedule.remaining] at hSum
  have hHeld : schedule.amountPerRound * schedule.remaining ≤ w.pot.held .payout := by
    change _ ≤ w.pot.payout
    omega
  rw [saturatingMul_of_le (by omega), Score.Pot.release_exact hHeld] at hRelease
  obtain rfl := Except.ok.inj hRelease
  refine hOld.withSchedules ?_ rfl ?_ ?_
  · unfold Score.Pot.held Score.Pot.setHeld
    dsimp only
    omega
  · unfold Pot.total Score.Pot.held Score.Pot.setHeld
    dsimp only
    omega
  · intro schedule' hMem
    rw [BoundedVec.toList_eraseIdx] at hMem
    exact hOld.schedule_backed schedule' (List.mem_of_mem_eraseIdx hMem)

/- The credit of one voter leaves the hold. -/
theorem payoutRewards {toPot accepted : Bool} (hOld : LedgerInvariant w)
    (hPayout : w.payoutRewards voter toPot accepted = .ok w') :
    LedgerInvariant w' := by
  unfold MobState.payoutRewards Score.Pot.transfer at hPayout
  simp only [bind_eq_ok, ensure_eq_ok_iff, fromPot_eq_ok_iff, exists_const, pure_eq_ok]
    at hPayout
  rcases hPayout with ⟨hSome, released, hRelease, pot, ⟨_, hPot⟩, rfl⟩
  have hCredit := hOld.credit_eq
  have hTotal := hOld.total_le
  unfold Pot.total at hTotal
  have hSum := sum_insert w.credits (fun _ credit => credit.credit) voter
      { w.credits.getD voter {} with credit := 0 }
  have hWeight : StorageMap.weightAt (fun (_ : T.Alias) (credit : MobCredit) => credit.credit)
          voter (w.credits.get voter)
        = (w.credits.getD voter {}).credit := by
    unfold StorageMap.getD
    cases w.credits.get voter <;> rfl
  rw [hWeight] at hSum
  unfold MobState.totalCredit at hCredit
  have hHeld : (w.credits.getD voter {}).credit ≤ w.pot.credit := by
    dsimp only at hSum
    omega
  have hExact : w.pot.release .credit (w.credits.getD voter {}).credit .exact = _ :=
    Score.Pot.release_exact hHeld
  rw [hExact] at hRelease
  obtain rfl := Except.ok.inj hRelease
  unfold Score.Pot.setHeld Score.Pot.held at hPot
  dsimp only at hPot
  have hPot' : pot.payout = w.pot.payout
        ∧ pot.credit = w.pot.credit - (w.credits.getD voter {}).credit
        ∧ pot.total ≤ w.pot.total := by
    unfold Pot.total
    split_ifs at hPot
    · subst hPot
      refine ⟨rfl, rfl, ?_⟩
      dsimp only
      omega
    · subst hPot
      refine ⟨rfl, rfl, ?_⟩
      dsimp only
      omega
  refine ⟨hPot'.1.trans hOld.payout_eq, ?_, hOld.points_eq,
      fun d hSome => ?_, Nat.le_trans hPot'.2.2 hOld.total_le,
      hOld.entry_le, hOld.schedule_backed⟩
  · unfold MobState.totalCredit
    dsimp only at hSum ⊢
    omega
  · rcases hOld.covered d hSome with ⟨hLe, hOwed, hEq, hLt, hPos⟩
    exact ⟨hLe, hOwed, hEq, hLt, hPos⟩

--
-- Points
--

/- Stale points of a round before the one that is paid. -/
theorem cleanPoints {round : Nat} (hOld : LedgerInvariant w)
    (hClean : w.cleanPoints round voter = .ok w') :
    LedgerInvariant w' := by
  unfold MobState.cleanPoints at hClean
  simp only [bind_eq_ok, ensure_eq_ok_iff, okOr_eq_ok_iff, exists_const, pure_eq_ok] at hClean
  rcases hClean with ⟨distribution, hSome, hLt, _, rfl⟩
  have hCurrent : distribution.round < w.currentRound := by
    have hRound := (hOld.covered distribution hSome).round_lt
    unfold MobState.currentRound
    rw [hSome]
    change _ < saturatingAdd u32Max distribution.round 1
    rw [saturatingAdd_of_le hRound]
    exact Nat.lt_succ_self _
  refine ⟨hOld.payout_eq, hOld.credit_eq, ?_, ?_, hOld.total_le, ?_, hOld.schedule_backed⟩
  · refine hOld.points_eq.trans ?_
    refine (sumWhere_remove_of_not _ _ ?_).symm
    exact Nat.ne_of_lt (Nat.lt_trans hLt hCurrent)
  · intro d hSome'
    obtain rfl : distribution = d := Option.some.inj (hSome.symm.trans hSome')
    rcases hOld.covered distribution hSome with ⟨hLe, hOwed, hEq, hRound, hPos⟩
    refine ⟨?_, ?_, hEq, hRound, hPos⟩
    · refine Nat.le_trans (Nat.le_of_eq ?_) hLe
      exact sumWhere_remove_of_not _ _ (Nat.ne_of_lt hLt)
    · refine Nat.le_trans (Nat.le_of_eq ?_) hOwed
      exact sumWhere_remove_of_not _ _ (Nat.ne_of_lt hLt)
  · intro k points hGet
    dsimp only at hGet
    rw [get_remove] at hGet
    split_ifs at hGet
    exact hOld.entry_le k points hGet

/- The points of correct votes are counted twice alike. -/
theorem addPoints {points : Nat} (hOld : LedgerInvariant w)
    (hVoter : w.votingPoints.getD (w.currentRound, voter) 0 + points ≤ u32Max)
    (hAll : w.accumulatedPoints + points ≤ u64Max) :
    LedgerInvariant
      { w with
        votingPoints := w.votingPoints.insert (w.currentRound, voter)
            (saturatingAdd u32Max (w.votingPoints.getD (w.currentRound, voter) 0) points)
        accumulatedPoints := saturatingAdd u64Max w.accumulatedPoints points } := by
  rw [saturatingAdd_of_le hVoter, saturatingAdd_of_le hAll]
  refine ⟨hOld.payout_eq, hOld.credit_eq, ?_, ?_, hOld.total_le, ?_, hOld.schedule_backed⟩
  · have hSum : StorageMap.sumWhere (w.votingPoints.insert (w.currentRound, voter)
              (w.votingPoints.getD (w.currentRound, voter) 0 + points))
            (fun k => k.1 = w.currentRound) id
            + StorageMap.weigh id (w.votingPoints.get (w.currentRound, voter))
          = _ :=
      StorageMap.sumWhere_insert w.votingPoints id (by rfl) _
    have hWeight : StorageMap.weigh id (w.votingPoints.get (w.currentRound, voter))
          = w.votingPoints.getD (w.currentRound, voter) 0 := by
      unfold StorageMap.getD
      cases w.votingPoints.get (w.currentRound, voter) <;> rfl
    have hPoints := hOld.points_eq
    rw [hWeight, id_eq] at hSum
    unfold MobState.roundPoints at hPoints ⊢
    change w.accumulatedPoints + points = StorageMap.sumWhere
        (w.votingPoints.insert (w.currentRound, voter)
          (w.votingPoints.getD (w.currentRound, voter) 0 + points))
        (fun k => k.1 = w.currentRound) id
    omega
  · intro d hSome
    rcases hOld.covered d hSome with ⟨hLe, hOwed, hEq, hRound, hPos⟩
    have hNe : ¬w.currentRound = d.round := by
      unfold MobState.currentRound
      rw [hSome]
      change ¬saturatingAdd u32Max d.round 1 = d.round
      rw [saturatingAdd_of_le hRound]
      exact Nat.succ_ne_self _
    refine ⟨?_, ?_, hEq, hRound, hPos⟩
    · refine Nat.le_trans (Nat.le_of_eq ?_) hLe
      refine StorageMap.sumWhere_insert_of_not _ _ ?_ _
      exact hNe
    · refine Nat.le_trans (Nat.le_of_eq ?_) hOwed
      refine StorageMap.sumWhere_insert_of_not _ _ ?_ _
      exact hNe
  · intro k old hGet
    dsimp only at hGet
    rw [StorageMap.get_insert] at hGet
    split_ifs at hGet with hKey
    · rw [hKey]
      exact Nat.le_refl _
    · exact hOld.entry_le k old hGet

theorem doClaimVotes {caseIndices : List Nat} (hOld : LedgerInvariant w)
    (hVoter : w.votingPoints.getD (w.currentRound, voter) 0 + caseIndices.length ≤ u32Max)
    (hAll : w.accumulatedPoints + caseIndices.length ≤ u64Max)
    (hClaim : MobState.doClaimVotes chain w voter caseIndices = .ok w') :
    LedgerInvariant w' := by
  unfold MobState.doClaimVotes at hClaim
  simp only [bind_eq_ok, ensure_eq_ok_iff, exists_const, pure_eq_ok] at hClaim
  rcases hClaim with ⟨_, claimed, hFold, rfl⟩
  have hStart : SameLedger w claimed.1 ∧ claimed.1.credits = w.credits
        ∧ claimed.2 ≤ 0 + caseIndices.length :=
    SameLedger.foldlM_claimOne hFold
  rcases hStart with ⟨hSame, hCredits, hLe⟩
  rw [Nat.zero_add] at hLe
  have hRound : claimed.1.currentRound = w.currentRound := by
    unfold MobState.currentRound
    rw [hSame.distribution]
  have hClaimed := hSame.invariant hOld
  have hVoter' : claimed.1.votingPoints.getD (claimed.1.currentRound, voter) 0 + claimed.2
        ≤ u32Max := by
    rw [hRound, hSame.points]
    omega
  have hAll' : claimed.1.accumulatedPoints + claimed.2 ≤ u64Max := by
    rw [hSame.accumulated]
    omega
  have hAdded := hClaimed.addPoints hVoter' hAll'
  refine SameLedger.invariant ?_ hAdded
  rw [hRound]
  refine ⟨rfl, ?_, rfl, rfl, rfl, rfl, rfl⟩
  refine totalCredit_insert rfl ?_
  dsimp only
  rw [hCredits]

--
-- Rounds
--

/- A claim takes the share of a voter out of the round. -/
theorem claimCredit_covered {distribution : CreditDistribution} (hOld : LedgerInvariant w)
    (hSome : w.payoutDistribution = some distribution) :
    StorageMap.sumWhere (w.votingPoints.remove (distribution.round, voter))
          (fun k => k.1 = distribution.round)
          (MobState.claimable T distribution)
        + MobState.claimable T distribution (w.votingPoints.getD (distribution.round, voter) 0)
      = w.owed distribution := by
  have hPos := (hOld.covered distribution hSome).points_pos
  have hSum : StorageMap.sumWhere (w.votingPoints.remove (distribution.round, voter))
            (fun k => k.1 = distribution.round)
            (MobState.claimable T distribution)
          + StorageMap.weigh (MobState.claimable T distribution)
              (w.votingPoints.get (distribution.round, voter))
        = _ :=
    sumWhere_remove _ _ (by rfl)
  have hWeight : StorageMap.weigh (MobState.claimable T distribution)
          (w.votingPoints.get (distribution.round, voter))
        = MobState.claimable T distribution
            (w.votingPoints.getD (distribution.round, voter) 0) := by
    unfold StorageMap.getD
    cases w.votingPoints.get (distribution.round, voter) with
    | none => exact (claimable_zero hPos).symm
    | some points => rfl
  rw [hWeight] at hSum
  exact hSum

/-
  A voter with points in the round that is paid gets exactly
  the share, and the ledger stays in order.
-/
theorem claimCredit_ok {distribution : CreditDistribution} (hOld : LedgerInvariant w)
    (hSome : w.payoutDistribution = some distribution)
    (hPoints : w.votingPoints.getD (distribution.round, voter) 0 > 0) :
    ∃ w', w.claimCredit voter = .ok w' ∧ LedgerInvariant w' ∧ w'.pot.payout
            + MobState.claimable T distribution (w.votingPoints.getD (distribution.round, voter) 0)
          = w.pot.payout
        ∧ w'.pot.credit = w.pot.credit + MobState.claimable T distribution
            (w.votingPoints.getD (distribution.round, voter) 0)
        ∧ (w'.credits.getD voter {}).credit = (w.credits.getD voter {}).credit
            + MobState.claimable T distribution
                (w.votingPoints.getD (distribution.round, voter) 0) := by
  have hShare : _ + MobState.claimable T distribution
          (w.votingPoints.getD (distribution.round, voter) 0)
        = _ :=
    hOld.claimCredit_covered hSome
  rcases hOld.covered distribution hSome with ⟨hLe, hOwed, hEq, hRound, hPos⟩
  generalize hAmount : MobState.claimable T distribution
          (w.votingPoints.getD (distribution.round, voter) 0)
        = amount
    at hShare ⊢
  have hPayout := hOld.payout_eq
  have hPaying : w.paying = distribution.remainingBalance := by
    unfold MobState.paying
    rw [hSome]
    rfl
  have hHeld : amount ≤ w.pot.payout := by omega
  have hTotal := hOld.total_le
  unfold Pot.total at hTotal
  have hCredit := hOld.credit_eq
  have hVoter : (w.credits.getD voter {}).credit ≤ w.totalCredit := by
    unfold StorageMap.getD
    cases hGet : w.credits.get voter with
    | none => exact Nat.zero_le _
    | some credit =>
      exact StorageMap.le_sum_of_get hGet fun _ credit => credit.credit
  have hRelease : w.pot.release .payout amount .bestEffort = _ := Score.Pot.release_exact hHeld
  have hAdd : checkedAdd u128Max (w.credits.getD voter {}).credit amount
        = some ((w.credits.getD voter {}).credit + amount) :=
    checkedAdd_eq_some_iff.mpr ⟨by omega, rfl⟩
  have hHold : Score.Pot.hold
          { free := w.pot.free + amount
            payout := w.pot.payout - amount
            credit := w.pot.credit }
          .credit amount
        = .ok
          { free := w.pot.free + amount - amount
            payout := w.pot.payout - amount
            credit := w.pot.credit + amount } :=
    Score.Pot.hold_eq_ok_iff.mpr ⟨Nat.le_add_left amount w.pot.free, rfl⟩
  have hClaim : w.claimCredit voter = .ok
          { w with
            pot :=
              { free := w.pot.free + amount - amount
                payout := w.pot.payout - amount
                credit := w.pot.credit + amount }
            votingPoints := w.votingPoints.remove (distribution.round, voter)
            payoutDistribution := some
                { distribution with
                  remainingBalance := distribution.remainingBalance - amount }
            credits := w.credits.insert voter { w.credits.getD voter {} with
                credit := (w.credits.getD voter {}).credit + amount }
            claimedOfRound := w.claimedOfRound + amount } := by
    unfold MobState.claimCredit
    rw [hSome, okOr_some, ok_bind]
    dsimp only
    rw [ensure_of hPoints, ok_bind, hAmount, hRelease]
    unfold Score.Pot.setHeld Score.Pot.held fromPot
    dsimp only [Except.mapError]
    rw [ok_bind]
    dsimp only
    rw [hHold]
    dsimp only
    rw [ok_bind, hAdd]
    rfl
  have hNe : ¬distribution.round = w.currentRound := by
    unfold MobState.currentRound
    rw [hSome]
    change ¬distribution.round = saturatingAdd u32Max distribution.round 1
    rw [saturatingAdd_of_le hRound]
    exact (Nat.succ_ne_self _).symm
  refine ⟨_, hClaim, ⟨?_, ?_, ?_, ?_, ?_, ?_, ?_⟩, ?_, rfl, ?_⟩
  · change w.pot.payout - amount = w.scheduled + (distribution.remainingBalance - amount)
    omega
  · have hSum := sum_insert w.credits (fun _ credit => credit.credit) voter
        { w.credits.getD voter {} with
          credit := (w.credits.getD voter {}).credit + amount }
    have hWeight : StorageMap.weightAt (fun (_ : T.Alias) (credit : MobCredit) => credit.credit)
            voter (w.credits.get voter)
          = (w.credits.getD voter {}).credit := by
      unfold StorageMap.getD
      cases w.credits.get voter <;> rfl
    rw [hWeight] at hSum
    unfold MobState.totalCredit at hCredit ⊢
    dsimp only at hSum ⊢
    omega
  · have hCurrent : (some
            { distribution with
              remainingBalance := distribution.remainingBalance - amount }).elim 0
            (fun d => saturatingAdd u32Max d.round 1)
          = w.currentRound := by
      unfold MobState.currentRound
      rw [hSome]
      rfl
    refine hOld.points_eq.trans ?_
    unfold MobState.roundPoints
    rw [← hCurrent]
    refine (sumWhere_remove_of_not _ _ ?_).symm
    rw [hCurrent]
    exact hNe
  · intro d hSome'
    obtain rfl := Option.some.inj hSome'
    refine ⟨?_, ?_, ?_, hRound, hPos⟩
    · have hLess : StorageMap.sumWhere (w.votingPoints.remove (distribution.round, voter))
              (fun k => k.1 = distribution.round) id
              + StorageMap.weigh id (w.votingPoints.get (distribution.round, voter))
            = _ :=
        sumWhere_remove _ _ (by rfl)
      refine Nat.le_trans ?_ hLe
      exact Nat.le.intro hLess
    · change StorageMap.sumWhere (w.votingPoints.remove (distribution.round, voter))
            (fun k => k.1 = distribution.round)
            (MobState.claimable T distribution)
          ≤ distribution.remainingBalance - amount
      omega
    · change w.claimedOfRound + amount + (distribution.remainingBalance - amount)
          = distribution.initialBalance
      omega
  · unfold Pot.total
    dsimp only
    omega
  · intro k points hGet
    dsimp only at hGet
    rw [get_remove] at hGet
    split_ifs at hGet
    have hEntry := hOld.entry_le k points hGet
    unfold MobState.currentRound at hEntry ⊢
    rw [hSome] at hEntry
    exact hEntry
  · exact hOld.schedule_backed
  · dsimp only
    omega
  · dsimp only
    unfold StorageMap.getD
    rw [StorageMap.get_insert_self]
    rfl

theorem claimCredit (hOld : LedgerInvariant w) (hClaim : w.claimCredit voter = .ok w') :
    LedgerInvariant w' := by
  cases hSome : w.payoutDistribution with
  | none =>
    unfold MobState.claimCredit at hClaim
    rw [hSome] at hClaim
    cases hClaim
  | some distribution =>
    have hPoints : w.votingPoints.getD (distribution.round, voter) 0 > 0 := by
      unfold MobState.claimCredit at hClaim
      rw [hSome, okOr_some, ok_bind] at hClaim
      rcases Except.bind_eq_ok.mp hClaim with ⟨_, hEnsure, _⟩
      exact ensure_eq_ok_iff.mp hEnsure
    rcases hOld.claimCredit_ok hSome hPoints with ⟨w₁, hOk, hNew, _⟩
    rw [hOk] at hClaim
    cases hClaim
    exact hNew

/- The first schedule pays one round of its own funds. -/
theorem useSchedule (hOld : LedgerInvariant w)
    (hHead : w.roundSchedules.toList.head? = some schedule) :
    ((MobState.useSchedule w.roundSchedules schedule).toList.map fun schedule =>
        schedule.remaining * schedule.amountPerRound).sum
        + schedule.amountPerRound
      = w.scheduled
    ∧ ∀ other ∈ (MobState.useSchedule w.roundSchedules schedule).toList,
        other.remaining = 0 → other.amountPerRound = 0 := by
  cases hList : w.roundSchedules.toList with
  | nil =>
    rw [hList] at hHead
    cases hHead
  | cons first rest =>
    rw [hList] at hHead
    obtain rfl := Option.some.inj hHead
    have hBacked := hOld.schedule_backed
    rw [hList] at hBacked
    unfold MobState.useSchedule MobState.scheduled
    by_cases hLast : first.remaining - 1 = 0
    · rw [if_pos hLast, BoundedVec.toList_eraseIdx, hList]
      rw [List.eraseIdx_cons_zero, List.map_cons, List.sum_cons]
      refine ⟨?_, fun other hMem => hBacked other (List.mem_cons_of_mem _ hMem)⟩
      have hFirst := hBacked first List.mem_cons_self
      rcases Nat.eq_zero_or_pos first.remaining with
        hZero | hPos
      · rw [hFirst hZero]
        omega
      · have hOne : first.remaining = 1 := by omega
        rw [hOne, Nat.one_mul]
        omega
    · rw [if_neg hLast, BoundedVec.toList_set, hList]
      rw [List.set_cons_zero, List.map_cons, List.map_cons, List.sum_cons, List.sum_cons]
      dsimp only
      refine ⟨?_, ?_⟩
      · have hStep : (first.remaining - 1) * first.amountPerRound + first.amountPerRound
              = first.remaining * first.amountPerRound := by
          rw [← Nat.succ_mul]
          congr 1
          omega
        omega
      · intro other hMem hZero
        rcases List.mem_cons.mp hMem with rfl | hMem
        · exact absurd hZero hLast
        · exact hBacked other (List.mem_cons_of_mem _ hMem) hZero

/- What is left over is released in full. -/
theorem recycle {pot : Pot} (hOld : LedgerInvariant w)
    (hRecycle : MobState.recycle w.pot w.payoutDistribution = .ok pot) :
    pot.payout = w.scheduled ∧ pot.credit = w.pot.credit ∧ pot.total = w.pot.total := by
  have hPayout := hOld.payout_eq
  unfold MobState.paying at hPayout
  unfold MobState.recycle at hRecycle
  cases hSome : w.payoutDistribution with
  | none =>
    rw [hSome] at hRecycle hPayout
    cases hRecycle
    exact ⟨hPayout, rfl, rfl⟩
  | some distribution =>
    rw [hSome] at hRecycle hPayout
    rw [Option.elim_some] at hPayout
    simp only [bind_eq_ok, fromPot_eq_ok_iff, pure_eq_ok] at hRecycle
    rcases hRecycle with ⟨released, hRelease, rfl⟩
    have hHeld : distribution.remainingBalance ≤ w.pot.held .payout := by
      change _ ≤ w.pot.payout
      omega
    rw [Score.Pot.release_exact hHeld] at hRelease
    obtain rfl := Except.ok.inj hRelease
    unfold Pot.total Score.Pot.setHeld Score.Pot.held
    dsimp only
    omega

theorem startPayoutRound (hOld : LedgerInvariant w)
    (hRounds : ∀ distribution, w.payoutDistribution = some distribution →
        distribution.round + 1 < u32Max)
    (hStart : MobState.startPayoutRound chain w = .ok w') :
    LedgerInvariant w' := by
  unfold MobState.startPayoutRound at hStart
  simp only [bind_eq_ok, ensure_eq_ok_iff, okOr_eq_ok_iff, exists_const, pure_eq_ok] at hStart
  rcases hStart with ⟨hPoints, schedule, hHead, _, pot, hRecycle, rfl⟩
  rcases hOld.recycle hRecycle with ⟨hPayout, hCredit, hTotal⟩
  rcases hOld.useSchedule hHead with ⟨hSum, hBacked⟩
  have hRound : w.currentRound < u32Max := by
    unfold MobState.currentRound
    cases hSome : w.payoutDistribution with
    | none =>
      change 0 < u32Max
      decide
    | some distribution =>
      have hLt := hRounds distribution hSome
      change saturatingAdd u32Max distribution.round 1 < u32Max
      rw [saturatingAdd_of_le (Nat.le_of_lt hLt)]
      exact hLt
  have hNext : saturatingAdd u32Max w.currentRound 1 = w.currentRound + 1 :=
    saturatingAdd_of_le hRound
  refine ⟨?_, hCredit.trans hOld.credit_eq, ?_, ?_,
      Nat.le_trans (Nat.le_of_eq hTotal) hOld.total_le, ?_,
      hBacked⟩
  · change pot.payout = ((MobState.useSchedule w.roundSchedules schedule).toList.map fun schedule =>
          schedule.remaining * schedule.amountPerRound).sum
        + schedule.amountPerRound
    omega
  · refine (StorageMap.sumWhere_of_none _ _ ?_).symm
    intro k hKey
    change k.1 = saturatingAdd u32Max w.currentRound 1 at hKey
    cases hGet : w.votingPoints.get k with
    | none => rfl
    | some points =>
      have hLe := hOld.entry_le k points hGet
      omega
  · intro d hSome
    obtain rfl := Option.some.inj hSome
    have hLe : w.roundPoints w.currentRound ≤ w.accumulatedPoints :=
      Nat.le_of_eq hOld.points_eq.symm
    refine ⟨hLe, ?_, Nat.zero_add _, hRound, hPoints⟩
    exact MobState.owed_le_initial hPoints hLe
  · intro k points hGet
    have hLe := hOld.entry_le k points hGet
    change k.1 ≤ saturatingAdd u32Max w.currentRound 1
    omega

--
-- Runs
--

/- Every operation keeps the ledger while rounds are backed. -/
theorem perform {step : Chain × Op T} (hOld : LedgerInvariant w) (hBacked : RoundsBacked w step w')
    (hStep : w.perform step = .ok w') :
    LedgerInvariant w' := by
  rcases step with ⟨chain, op⟩
  cases op with
  | judgeStatement details =>
    cases hStep
    refine SameLedger.invariant ?_ hOld
    exact ⟨rfl, rfl, rfl, rfl, rfl, rfl, rfl⟩
  | vote voter caseIndex opinion =>
    exact (SameLedger.vote hStep).invariant hOld
  | touchCase caseIndex =>
    unfold MobState.perform MobState.touchCase at hStep
    simp only [bind_eq_ok, okOr_eq_ok_iff, pure_eq_ok] at hStep
    rcases hStep with ⟨case_, _, rfl⟩
    exact (SameLedger.storeCase w caseIndex case_).invariant hOld
  | forceRipenCase caseIndex =>
    unfold MobState.perform MobState.forceRipenCase at hStep
    simp only [bind_eq_ok, pure_eq_ok] at hStep
    rcases hStep with ⟨case_, _, rfl⟩
    refine SameLedger.invariant ?_ hOld
    exact ⟨rfl, rfl, rfl, rfl, rfl, rfl, rfl⟩
  | closeCase caseIndex maxCallbackWeight =>
    unfold MobState.perform MobState.closeCase at hStep
    simp only [bind_eq_ok, pure_eq_ok] at hStep
    rcases hStep with ⟨case_, _, _, _, rfl⟩
    refine SameLedger.invariant ?_ hOld
    exact ⟨rfl, rfl, rfl, rfl, rfl, rfl, rfl⟩
  | intervene caseIndex verdict maxCallbackWeight =>
    unfold MobState.perform MobState.intervene at hStep
    simp only [bind_eq_ok, pure_eq_ok] at hStep
    rcases hStep with ⟨case_, _, _, _, rfl⟩
    refine SameLedger.invariant ?_ hOld
    exact ⟨rfl, rfl, rfl, rfl, rfl, rfl, rfl⟩
  | reapCase caseIndex =>
    unfold MobState.perform MobState.reapCase at hStep
    simp only [bind_eq_ok, pure_eq_ok] at hStep
    rcases hStep with ⟨case_, _, _, _, rfl⟩
    refine SameLedger.invariant ?_ hOld
    exact ⟨rfl, rfl, rfl, rfl, rfl, rfl, rfl⟩
  | claimVotes voter caseIndices =>
    exact hOld.doClaimVotes hBacked.1 hBacked.2 hStep
  | cleanVote caseIndex voter =>
    exact (SameLedger.cleanVoteInner hStep).invariant hOld
  | clearVotingPenalty voter =>
    unfold MobState.perform MobState.clearVotingPenalty at hStep
    simp only [bind_eq_ok, pure_eq_ok] at hStep
    rcases hStep with ⟨_, _, _, _, rfl⟩
    refine SameLedger.invariant ?_ hOld
    exact ⟨rfl, rfl, rfl, rfl, rfl, rfl, rfl⟩
  | fund amount => exact hOld.fund hStep
  | payoutRewards voter toPot accepted =>
    exact hOld.payoutRewards hStep
  | startPayoutRound =>
    exact hOld.startPayoutRound hBacked hStep
  | schedulePayoutRounds amount count period =>
    exact hOld.schedulePayoutRounds hBacked.1 hBacked.2 hStep
  | removePayoutSchedule index =>
    exact hOld.removePayoutSchedule hStep
  | claimCredit voter => exact hOld.claimCredit hStep
  | cleanPoints round voter => exact hOld.cleanPoints hStep
  | onPoll baseFits changeFits =>
    cases hStep
    refine SameLedger.invariant ?_ hOld
    unfold MobState.doOnPoll
    repeat' split
    all_goals exact ⟨rfl, rfl, rfl, rfl, rfl, rfl, rfl⟩

end LedgerInvariant

namespace MobState

/-
  While every scheduled round is backed, the holds of the pot are the stages of the funds, points
  are counted, and a voter always gets the share of the round.
-/
theorem reward_ledger {w : MobState T} (hRun : RunUnder perform RoundsBacked genesis w) :
    w.pot.payout = w.scheduled + w.paying ∧ w.pot.credit = w.totalCredit
      ∧ w.accumulatedPoints = w.roundPoints w.currentRound
      ∧ ∀ distribution, w.payoutDistribution = some distribution →
          w.roundPoints distribution.round ≤ distribution.totalPoints
            ∧ w.claimedOfRound ≤ distribution.initialBalance
            ∧ ∀ voter, w.votingPoints.getD (distribution.round, voter) 0 > 0 →
                ∃ w', w.claimCredit voter = .ok w' ∧ w'.pot.payout
                        + claimable T distribution (w.votingPoints.getD
                            (distribution.round, voter) 0)
                      = w.pot.payout
                    ∧ w'.pot.credit = w.pot.credit + claimable T distribution (w.votingPoints.getD
                            (distribution.round, voter) 0)
                    ∧ (w'.credits.getD voter {}).credit = (w.credits.getD voter {}).credit
                        + claimable T distribution
                            (w.votingPoints.getD (distribution.round, voter) 0) := by
  have hLedger : LedgerInvariant w := hRun.invariant LedgerInvariant
      (fun _ _ _ hBacked hStep hOld => hOld.perform hBacked hStep)
      ledgerInvariant_genesis
  refine ⟨hLedger.payout_eq, hLedger.credit_eq, hLedger.points_eq, ?_⟩
  intro distribution hSome
  have hCovered := hLedger.covered distribution hSome
  refine ⟨hCovered.points_le, Nat.le.intro hCovered.claimed_eq, ?_⟩
  intro voter hPoints
  rcases hLedger.claimCredit_ok hSome hPoints with ⟨w', hClaim, _, hPayout, hCredit, hVoter⟩
  exact ⟨w', hClaim, hPayout, hCredit, hVoter⟩

end MobState

--
-- A Small Pallet
--

/- Voters are numbers, and one vote is enough. -/
def sampleConfig : Config where
  Alias := Nat
  Details := Unit
  maxVoteClaimDuration := 20
  minCaseDuration := 0
  maxVotingDuration := 10
  minTurnoutNominal := 1
  minTurnoutPercentage := 10
  maxPayoutRoundSchedules := 4
  votingPenaltyDuration := 5
  maxVotesClaimable := 4
  votesOpenForClaimsDuration := 10
  minimumVoterThreshold := 1
  claims_le := by decide
  percent := fun part whole => part * 100 / whole
  perbill := fun part whole => part * billion / whole
  perbill_roundsDown := fun _ _ _ => Nat.div_mul_le_self _ _
  callbackWeight := fun _ _ _ => none

/- One active voter, at a time that is also the block. -/
def sampleChain (now : Nat) : Chain where
  now := min now u64Max
  block := now
  activeCount := 1
  now_le := Nat.min_le_right _ _

/- A vote on the first case counts for one point. -/
def onePoint : List (Chain × Op sampleConfig) :=
  [(sampleChain 0, .fund 100), (sampleChain 0, .judgeStatement ()),
    (sampleChain 1, .vote (1 : Nat) 0 (.truth .true_)),
    (sampleChain 2, .closeCase 0 { refTime := 0, proofSize := 0 }),
    (sampleChain 3, .claimVotes (1 : Nat) [0])]

namespace MobState

private def backedHere (w : MobState sampleConfig) (step : Chain × Op sampleConfig) : Bool :=
  match step.2 with
  | .schedulePayoutRounds amount count _ =>
    decide (0 < count ∧ amount * count ≤ u128Max)
  | .claimVotes voter caseIndices =>
    decide (w.votingPoints.getD (w.currentRound, voter) 0 + caseIndices.length ≤ u32Max
        ∧ w.accumulatedPoints + caseIndices.length ≤ u64Max)
  | .startPayoutRound => w.payoutDistribution.isNone
  | _ => true

private theorem roundsBacked_of_backedHere
    (w : MobState sampleConfig) (step : Chain × Op sampleConfig) (w' : MobState sampleConfig)
    (hCheck : backedHere w step = true) :
    RoundsBacked w step w' := by
  rcases step with ⟨chain, op⟩
  cases op with
  | schedulePayoutRounds amount count period =>
    have hBoth := of_decide_eq_true hCheck
    exact ⟨fun hZero => absurd hZero (Nat.pos_iff_ne_zero.mp hBoth.1), hBoth.2⟩
  | claimVotes voter caseIndices =>
    exact of_decide_eq_true (p := _ ∧ _) hCheck
  | startPayoutRound =>
    intro distribution hSome
    have hNone : w.payoutDistribution = none := Option.isNone_iff_eq_none.mp hCheck
    rw [hNone] at hSome
    cases hSome
  | _ => trivial

/- The only voter of the round claims all ten of it. -/
theorem reward_ledger_sample : ∃ w,
      RunUnder perform RoundsBacked (genesis : MobState sampleConfig) w
        ∧ w.pot = { free := 80, payout := 10, credit := 10 }
        ∧ w.pot.payout = w.scheduled + w.paying := by
  have hExecute : (execute perform backedHere genesis (onePoint
          ++ [(sampleChain 3, .schedulePayoutRounds 10 2 0), (sampleChain 4, .startPayoutRound),
            (sampleChain 5, .claimCredit (1 : Nat))])).any
        (fun w =>
          decide (w.pot = { free := 80, payout := 10, credit := 10 }))
        = true := by
    decide +kernel
  have hReached := exists_run_of_execute
      (fun w step w' hCheck _ => roundsBacked_of_backedHere w step w' hCheck)
      hExecute
  rcases hReached with ⟨w, hRun, hTest⟩
  exact ⟨w, hRun, of_decide_eq_true hTest, (reward_ledger hRun).1⟩

/- A schedule without rounds pays seven that are not held. -/
theorem reward_ledger_fails : ∃ w,
      RunUnder perform (fun _ _ _ => True) (genesis : MobState sampleConfig) w ∧ w.pot.payout = 0
        ∧ w.scheduled + w.paying = 7 := by
  have hExecute : (execute perform (fun _ _ => true) genesis (onePoint
          ++ [(sampleChain 3, .schedulePayoutRounds 7 0 0),
            (sampleChain 4, .startPayoutRound)])).any
        (fun w => decide (w.pot.payout = 0 ∧ w.scheduled + w.paying = 7))
        = true := by
    decide +kernel
  have hReached := exists_run_of_execute (fun _ _ _ _ _ => (trivial : True)) hExecute
  rcases hReached with ⟨w, hRun, hTest⟩
  exact ⟨w, hRun, of_decide_eq_true hTest⟩

end MobState

end Individuality.MobRule
