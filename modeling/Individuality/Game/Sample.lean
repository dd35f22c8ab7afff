import Individuality.Base.Runs
import Individuality.Game.Pallet

/-
  A small configuration of the game pallet, on which the model can be executed.

  Main declaration: `sampleConfig`
-/

namespace Individuality.Game

/- Accounts have even and aliases odd numbers. -/
def sampleKey : Score.AccountOrPerson Nat Nat → Nat
  | .account n => 2 * n
  | .person n => 2 * n + 1

theorem sampleKey_injective : Function.Injective sampleKey := by
  intro who who' hEq
  cases who <;> cases who' <;>
    simp only [sampleKey] at hEq <;> (congr 1; omega)

theorem sampleOrder_perm (keys : List (Score.AccountOrPerson Nat Nat)) :
    (id keys).Perm keys :=
  List.Perm.refl _

theorem sampleSizes_lt : 2 < 4 :=
  Nat.lt_add_of_pos_right Nat.two_pos

abbrev sampleConfig : Config where
  Account := Nat
  Alias := Nat
  Member := Nat
  potId := 0
  maxPayoutRoundSchedules := 4
  hashOrder := id
  hashOrder_perm := sampleOrder_perm
  maxRounds := 3
  maxGroupSize := 4
  minGroupSize := 2
  maxGameSchedules := 4
  maxAttendanceHistoryDepth := 4
  nonPlayingKickoutTime := 10
  minStepPhaseDuration := 1
  defaultPhaseDurations := ⟨10, 5, 5, 10, 10⟩
  playerStatementLimit := ⟨10, 100⟩
  peopleVoteWeight := 2
  candidateVoteWeight := 1
  hashedKey := sampleKey
  hashedKey_injective := sampleKey_injective
  positionKey := fun _ who _ => sampleKey who
  positionKey_injective := fun _ _ _ _ _ hEq => sampleKey_injective hEq
  minGroupSize_ge := by decide
  minGroupSize_lt := sampleSizes_lt
  peopleVotes_le := by decide
  candidateVotes_le := by decide

/- An environment at a time, in which nothing is refused. -/
def sampleEnv (now : Nat) : Env sampleConfig where
  chain :=
    { now := 0
      block := 100
      addMembers := fun _ => true
      removeMembers := fun _ => true
      startRemovalSession := true
      endRemovalSession := true
      activeCount := 60000
      accountToAlias := fun _ => false }
  now := fromSecs now
  parentHash := 0
  signatureValid := true
  newDeposit := fun _ => some 2
  dropDeposit := fun _ _ => true
  airdropAccepted := true
  airdropsScheduled := 0
  creditCapacity := 1000
  creditsAwarded := fun _ => 0
  creditsCleared := true

/- Perform calls at the given times, from genesis. -/
def performAll (check : World sampleConfig → Env sampleConfig × Op sampleConfig → Bool)
    (calls : List (Nat × Op sampleConfig)) :
    Option (World sampleConfig) :=
  execute World.dispatch check .genesis (calls.map fun call => (sampleEnv call.1, call.2))

/- A game in two rounds, which is played at 100. -/
def sampleSchedule : GameSchedule where
  gamePlayTime := 100
  rounds := 2
  maxGroupSize := 3
  airdrops := 0

end Individuality.Game
