import Individuality.Score.Pallet
import Individuality.Base.Runs

/-
  A small configuration of the score pallet, on which the model can be executed.

  Main declaration: `sampleConfig`
-/

namespace Individuality.Score

open PeopleMulti (Chain)

abbrev sampleConfig : Config where
  Account := Nat
  Alias := Nat
  Member := Nat
  potId := 0
  maxPayoutRoundSchedules := 4
  hashOrder := id
  hashOrder_perm := fun _ => List.Perm.refl _

/- A chain with many people, on which nothing is refused. -/
def sampleChain : Chain Nat Nat where
  now := 0
  block := 0
  addMembers := fun _ => true
  removeMembers := fun _ => true
  startRemovalSession := true
  endRemovalSession := true
  activeCount := 60000
  accountToAlias := fun _ => false

/- Perform operations on the sample chain, from genesis. -/
def performAll (check : World sampleConfig → Chain Nat Nat × Op sampleConfig → Bool)
    (ops : List (Op sampleConfig)) :
    Option (World sampleConfig) :=
  execute World.dispatch check .genesis (ops.map fun op => (sampleChain, op))

end Individuality.Score
