import Individuality.Scarcity.Pallet

/-
  A small chain with the scarcity pallet, where the balances are what every account has on hold, and
  a run in which one instance is minted.

  Main declaration: `sampleConfig`
-/

namespace Individuality.Scarcity

abbrev SampleBank := StorageMap Nat Nat

def onHold (bank : SampleBank) (who : Nat) : Nat :=
  bank.getD who 0

/- Tickets are what they are worth. -/
def sampleConfig : Config Nat SampleBank Nat where
  maxKeyLen := 4
  maxValueLen := 4
  maxCollectionMetadata := 2
  maxItemMetadata := 2
  maxInstanceMetadata := 2
  lockPeriod := 10
  lockPeriod_pos := by decide
  maximumMoves := 2
  maximumMoves_le := by decide
  balanceMax := 1000
  balanceLen := 16
  collectionInfoLen := 100
  itemDefinitionLen := 30
  accountLen := fun _ => 32
  metadataPolicy := fun _ _ => true
  newTicket := fun bank who amount =>
    some (amount, bank.insert who (onHold bank who + amount))
  updateTicket := fun bank ticket who amount =>
    if ticket ≤ onHold bank who then
      some (amount, bank.insert who (onHold bank who - ticket + amount))
    else none
  dropTicket := fun bank ticket who =>
    if ticket ≤ onHold bank who then
      some (bank.insert who (onHold bank who - ticket))
    else none
  worth := id
  held := onHold

theorem onHold_insert (bank : SampleBank) (who amount other : Nat) :
    onHold (bank.insert who amount) other = if other = who then amount else onHold bank other :=
  StorageMap.getD_insert bank who amount other 0

theorem exact_sampleConfig : sampleConfig.Exact where
  new := by
    intro bank who amount ticket bank' hNew
    cases hNew
    refine ⟨rfl, ?_, ?_⟩
    · exact (onHold_insert _ _ _ _).trans (if_pos rfl)
    · intro other hNe
      exact (onHold_insert _ _ _ _).trans (if_neg hNe)
  update := by
    intro bank ticket who amount ticket' bank' hUpdate
    simp only [sampleConfig, Option.ite_none_right_eq_some,
      Option.some.injEq, Prod.mk.injEq] at hUpdate
    rcases hUpdate with ⟨hCovered, rfl, rfl⟩
    refine ⟨rfl, ?_, ?_⟩
    · change onHold _ who + ticket = onHold bank who + amount
      rw [onHold_insert, if_pos rfl]
      omega
    · intro other hNe
      exact (onHold_insert _ _ _ _).trans (if_neg hNe)
  drop := by
    intro bank ticket who bank' hDrop
    simp only [sampleConfig, Option.ite_none_right_eq_some, Option.some.injEq] at hDrop
    rcases hDrop with ⟨hCovered, rfl⟩
    refine ⟨?_, ?_⟩
    · change onHold _ who + ticket = onHold bank who
      rw [onHold_insert, if_pos rfl]
      omega
    · intro other hNe
      exact (onHold_insert _ _ _ _).trans (if_neg hNe)
  lowers := by
    intro bank ticket who amount _ hCovered
    exact ⟨_, if_pos hCovered⟩
  drops := by
    intro bank ticket who hCovered
    exact ⟨_, if_pos hCovered⟩

/- Everything that is stored costs the same. -/
def samplePrices : Prices sampleConfig.balanceMax where
  collectionDeposit := ⟨fun _ => 5, fun _ => by decide⟩
  itemDeposit := ⟨fun _ => 5, fun _ => by decide⟩
  instanceDeposit := ⟨fun _ => 5, fun _ => by decide⟩
  metadataDeposit := ⟨fun _ => 5, fun _ => by decide⟩

def noBank : SampleBank := .empty

theorem nothing_onHold (owner : Nat) : sampleConfig.held noBank owner = 0 := rfl

--
-- Runs
--

abbrev SampleOp := Op sampleConfig

/- A call that its signer pays for. -/
def signed (who : Nat) (call : Call sampleConfig) : SampleOp :=
  .transaction
    { signer := some who
      authorization := none
      call := call
      admitted := true }

/- A call for the instance in the purse of the signer. -/
def asNft (who instance_ stateNonce : Nat) (call : Call sampleConfig)
    (admitted : Bool) : SampleOp :=
  .transaction
    { signer := some who
      authorization := some ⟨instance_, stateNonce⟩
      call := call
      admitted := admitted }

/- The balances are left alone. -/
def keepsBank (_ : ScarcityState sampleConfig) : SampleOp → Bool
  | .setBank _ => false
  | _ => true

theorem allowed_of_keepsBank (s : ScarcityState sampleConfig) (op : SampleOp)
    (s' : ScarcityState sampleConfig) (hKeeps : keepsBank s op = true) (_ : s.perform op = .ok s') :
    Allowed s op s' := by
  rintro bank rfl
  cases hKeeps

def performOps (ops : List SampleOp) :
    Option (ScarcityState sampleConfig) :=
  execute ScarcityState.perform keepsBank
    (ScarcityState.genesis sampleConfig samplePrices noBank) ops

theorem exists_run_of_performOps {ops : List SampleOp} {test : ScarcityState sampleConfig → Bool}
    (hPerform : (performOps ops).any test = true) :
    ∃ s, Run samplePrices noBank s ∧ test s = true :=
  exists_run_of_execute allowed_of_keepsBank hPerform

/- One instance is minted with its metadata. -/
def sampleMint : List SampleOp :=
  [signed 0 .createCollection, signed 0 (.defineItem 0 .transferable
        [(⟨[1], by decide⟩, ⟨[2], by decide⟩)]),
    signed 0 (.mint 0 0 5 [(⟨[1], by decide⟩, ⟨[3], by decide⟩)])]

end Individuality.Scarcity
