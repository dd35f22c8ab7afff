import Individuality.Resources.Pallet
import Individuality.Base.Runs

/-
  A small configuration of the resources pallet, on which the model can be executed.

  Main declaration: `sampleConfig`
-/

namespace Individuality.Resources

open PeopleMulti (Bytes32)

/- Names of three letters, and storage for periods of a day. -/
def sampleConfig : Config where
  minUsernameLength := 3
  personAuthDuration := 100
  minPersonAuthUpdateInterval := 10
  maxReservationQueueLength := 4
  accountsApiAllowance := { maxCount := 5, maxSize := 50 }
  notificationAllowance := { maxCount := 2, maxSize := 20 }
  litePersonStatementLimit := { maxCount := 10, maxSize := 100 }
  personStatementLimit := { maxCount := 30, maxSize := 300 }
  longTermStoragePeriodDuration := 86400
  longTermStorageGraceWindow := 3600
  hashOrder := id
  hashOrder_perm := fun _ => List.Perm.refl _
  longTermStoragePeriodDuration_pos := by decide
  longTermStoragePeriodDuration_le := by decide
  longTermStorageGraceWindow_lt := by decide

/- Proofs are the aliases that they prove. -/
def sampleService : Service Nat Bytes32 Unit where
  stmtStoreSlotsPerPeriod := 4
  liteStmtStoreSlotsPerPeriod := 2
  stmtStoreCleanupLimit := 10
  stmtStoreReplacementCooldown := 60
  stmtStoreGraceWindow := 3600
  notificationSlotsPerPeriod := 4
  liteNotificationSlotsPerPeriod := 2
  longTermStorageClaimsPerPeriod := 4
  longTermStorageCleanupLimit := 10
  liteNotificationSlotsPerPeriod_le := by decide
  verifyMembership := fun _ proof _ _ _ _ => some proof
  verifySignature := fun _ _ _ => true

abbrev SampleOp := Op Nat Nat Bytes32 Unit

abbrev SampleState := ResourceState sampleConfig Nat Nat

/- Perform operations with the sample service, from genesis. -/
def performSteps (ops : List SampleOp) : Option SampleState :=
  execute ResourceState.perform (fun _ _ => true) (ResourceState.genesis sampleConfig Nat Nat)
    (ops.map fun op => (sampleService, op))

end Individuality.Resources
