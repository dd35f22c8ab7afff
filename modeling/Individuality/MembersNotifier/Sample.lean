import Individuality.MembersNotifier.Pallet
import Individuality.MembersPallet.Sample

/-
  A small configuration of the members-notifier pallet, on which the model can be executed.

  Main declaration: `sampleConfig`
-/

namespace Individuality.MembersNotifier

open NotifierSubscriber

/-
  A message has room for as many updates as its size exceeds
  ten, and every change may be sealed at once.
-/
abbrev sampleConfig : Config where
  maxSubscribers := 4
  maxUpdatesPerBatch := 4
  maxCollectionsPerSubscriber := 2
  updateTriggerBlocks := 0
  updateTriggerThreshold := 1
  stuckBatchTimeout := 100
  replayCooldownSeconds := 0
  xcmOverhead := 10
  updateSize := 1
  hashedKey := id
  hashedKey_injective := Function.injective_id
  updateTriggerThreshold_le := by decide
  updateSize_pos := Nat.one_pos

def sampleCollections : Collections sampleConfig :=
  ⟨[(MembersPallet.sampleIdentifier, .r2e9)], by decide⟩

/- A chain without ring roots, and without channels. -/
def sampleChain : Chain Nat where
  now := 0
  block := 0
  provider := ⟨.empty, fun _ => 0⟩
  maxMessageSize := fun _ => none
  accepts := fun _ _ => true

end Individuality.MembersNotifier
