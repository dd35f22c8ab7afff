import Individuality.PeopleLite.Pallet
import Individuality.Resources.Sample

/-
  Small runs of the people-lite pallet, with the sample configuration of the consumers beside it.

  Main declaration: `sampleService`
-/

namespace Individuality.PeopleLite

open PeopleMulti (Bytes32)

/- Proofs are the aliases that they prove. -/
def sampleService :
    Service Nat Nat Nat Unit Bytes32 Unit where
  maxLitePeople := 3
  paidRegistrationThreshold := 1
  paidRegistrationPeriod := 60
  paidRegistrationsPerPeriod := 1
  paidRegistrationsPerPeriod_le := by decide
  acceptsMembers := fun _ => true
  registrationFee := 10
  transferToPot := fun _ _ => true
  accountContexts := fun _ => true
  ringRevision := fun _ => some 0
  validNonce := fun _ _ => true
  verifyMembership := fun proof _ _ _ _ => some proof
  verifySignature := fun _ _ _ => true
  verifyAccountSignature := fun _ _ _ => true

abbrev SampleWorld :=
  World Resources.sampleConfig Nat Nat Nat

abbrev SampleStep :=
  Service Nat Nat Nat Unit Bytes32 Unit × Op Nat Nat Nat Unit Bytes32 Unit Bytes32 Unit

/- A signed call, without the extension. -/
def signed (who : Nat) (call : Call Nat Nat Nat Unit Unit) : SampleStep :=
  (sampleService, .transaction
      { signer := some who
        auth := none
        implication := 0
        call := call })

/- An alias is set with a proof. -/
def proveAlias (account : Nat) : SampleStep :=
  (sampleService, .transaction
      { signer := none
        auth := some (.asLiteAliasWithProof 5 0 0 0)
        implication := 0
        call := .setAliasAccount account 0 })

/- A step with the parameters of the sample. -/
def hasSampleParameters (_ : SampleWorld) (step : SampleStep) : Bool :=
  decide (step.1.maxLitePeople = 3 ∧ step.1.paidRegistrationThreshold = 1
      ∧ step.1.paidRegistrationPeriod = 60
      ∧ step.1.paidRegistrationsPerPeriod = 1)

theorem parameters_of_hasSampleParameters (w : SampleWorld) (step : SampleStep) (w' : SampleWorld)
    (hHas : hasSampleParameters w step = true) (_ : w.perform step = .ok w') :
    step.1.toParameters = sampleService.toParameters := by
  rcases of_decide_eq_true hHas with ⟨hMax, hThreshold, hPeriod, hPerPeriod⟩
  exact Parameters.ext hMax hThreshold hPeriod hPerPeriod

def performSteps (steps : List SampleStep) :
    Option SampleWorld :=
  execute World.perform hasSampleParameters (World.genesis Resources.sampleConfig Nat Nat Nat) steps

/- One lite person is attested and one pays, and an alias goes from one account to another. -/
def sampleEnrolment : List SampleStep :=
  [(sampleService, .createLitePeopleCollection), (sampleService, .increaseAttestationAllowance 1 2),
    (sampleService, .setClock 100 5),
    signed 1 (.attest 7 () 70 () none),
    signed 8 (.registerWithFee 80 () none),
    proveAlias 11,
    proveAlias 12]

end Individuality.PeopleLite
