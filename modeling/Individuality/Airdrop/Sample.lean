import Individuality.Airdrop.Pallet
import Individuality.Base.Runs

/-
  A small configuration of the airdrop pallet, on which the model can be executed.

  Main declaration: `sampleConfig`
-/

namespace Individuality.Airdrop

abbrev sampleConfig : Config where
  AccountId := Nat
  AssetId := Nat
  Proof := Unit
  Signature := Unit
  airdropPotId := 0
  maxBalance := u128Max

/- A chain at some time, which draws one winner in a batch. -/
def sampleChain (now : Nat) : Chain sampleConfig where
  limits := ⟨1, 1, by decide, by decide⟩
  now := now
  randomness := some (6, now)
  currentMoment := now
  minimumBalance := fun _ => 1
  transferAccepted := fun _ _ _ _ => true
  holdAccepted := fun _ _ => true
  verifyMembership := fun _ _ _ _ _ => none
  accountIdToPublic := fun _ => none
  verifyAndExtractEntropy := fun _ _ _ => none

/- An event with three prizes of ten units. -/
def sampleEvent : sampleConfig.Info where
  productName := ⟨[97], by decide⟩
  prize := ⟨1, 10, 3, ⟨1000000, by decide⟩⟩
  registrationStarts := 10
  drawTime := 20
  endTime := 30

instance neZero_u256 : NeZero (2 ^ 256) :=
  ⟨by decide⟩

/- The whole life of an event with two participants, one of whom claims the prize. -/
def sampleLife : List (Nat × Op sampleConfig) :=
  [(0, .setFree 1 7 100), (0, .enableAsset 1 7), (0, .schedule 7 1 sampleEvent),
    (10, .startRegistrationAuthorized .inBlock 1),
    (11, .participateWithSlot 1 5 (.account 1)),
    (12, .participateWithSlot 1 9 (.account 2)),
    (20, .closeRegistrationAuthorized .inBlock 1),
    (21, .captureEntropyAuthorized .inBlock 1),
    (22, .drawWinnersAuthorized .inBlock 1),
    (22, .drawWinnersAuthorized .inBlock 1),
    (22, .closeDrawingAuthorized .inBlock 1),
    (25, .claim 1 (.account 2) 8),
    (30, .closeClaimingAuthorized .inBlock 1),
    (31, .cleanUpRegistrationsAuthorized .inBlock 1 ⟨[], [5, 9]⟩),
    (32, .cleanUpRegistrationsAuthorized .inBlock 1 ⟨[], [9]⟩),
    (33, .cleanUpWinnersAuthorized .inBlock 1 ⟨[], [.account 1]⟩),
    (34, .finalizeAuthorized .inBlock 1)]

/- Perform timed operations, from genesis. -/
def performAll (ops : List (Nat × Op sampleConfig)) :
    Option (World sampleConfig) :=
  execute World.dispatch (fun _ _ => true) .genesis (ops.map fun op => (sampleChain op.1, op.2))

end Individuality.Airdrop
