import Individuality.MembersPallet.Pallet

/-
  A small configuration of the members pallet, on which the model can be executed.

  Main declaration: `sampleConfig`
-/

namespace Individuality.MembersPallet

/- Keys are numbers, and a commitment is the list of the keys that were pushed. -/
abbrev sampleConfig : Config where
  Member := Nat
  Members := List Nat
  Intermediate := List Nat
  Proof := Nat
  Signature := Unit
  Message := Unit
  Account := Unit
  Location := Unit
  startMembers := fun _ => []
  pushMembers := fun _ pushed keys => some (pushed ++ keys)
  finishMembers := id
  isMemberValid := fun _ => true
  verifySignature := fun _ _ _ => true
  validate := fun _ key members context _ =>
    if key ∈ members then some context else none
  maxCollections := 8
  hashOrder := id
  hashOrder_perm := fun _ => List.Perm.refl _
  onboardingQueuePageSize := 255
  maxFlexibleRingExponent := .r2e9
  ringBuildingMemberLimit := 255
  oldRootRetentionDuration := 100
  onboardingQueuePageSize_pos := by decide
  onboardingQueuePageSize_le := by decide
  ringBuildingMemberLimit_le := by decide

def sampleIdentifier : Identifier :=
  Vector.replicate 32 7

/- Perform operations on the sample collection, from genesis. -/
def performAll (check : PalletState sampleConfig → PalletOp sampleConfig → Bool)
    (ops : List (TimedOp sampleConfig)) :
    Option (PalletState sampleConfig) :=
  execute PalletState.dispatch check .genesis (ops.map fun call => ⟨sampleIdentifier, call⟩)

end Individuality.MembersPallet
