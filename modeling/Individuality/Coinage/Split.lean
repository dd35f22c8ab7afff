import Individuality.Coinage.Types
import Mathlib.Algebra.BigOperators.Ring.List
import Mathlib.Data.FinEnum

/-
  Creating an instance of the coinage pallet, and splitting a coin of it.  The split is checked in
  base units, in words of 32 bits; it keeps the amount of the asset behind the coin.

  Main declaration: `splits_keep_value`
-/

namespace Individuality.Coinage

open Except (bind_eq_ok)

--
-- Instances
--

inductive Error where
  | unknownAsset
  | invalidAssetUnit
  | internalError
  | palletAccountNotTouched
  | palletAccountBelowMinimumBalance
  | deposit
  | collection
  deriving DecidableEq, Repr

inductive InstanceMode where
  | sufficient
  | sponsored
  deriving DecidableEq, Repr

/-
  What the registry uses of other pallets: the assets, the deposit for creating an instance and the
  collections of the recyclers.
-/
structure Services (T : Config) (AccountId : Type) where
  AssetId : Type
  [decEqAssetId : DecidableEq AssetId]
  Ticket : Type
  Outside : Type
  palletAccount : AccountId
  assetExists : Outside → AssetId → Bool
  shouldTouch : Outside → AssetId → AccountId → Bool
  balance : Outside → AssetId → AccountId → Balance T
  minimumBalance : Outside → AssetId → Balance T
  newDeposit : Outside → AccountId → Option (Ticket × Outside)
  createCollection : Outside → InstanceId → Denomination → Option Outside

attribute [instance] Services.decEqAssetId

section Registry

variable {T : Config} {AccountId : Type} (V : Services T AccountId)

structure InstanceRecord where
  assetId : V.AssetId
  assetUnit : Balance T
  mode : InstanceMode
  creator : Option (AccountId × V.Ticket)

structure Registry where
  outside : V.Outside
  nextInstanceId : InstanceId
  instances : StorageMap InstanceId (InstanceRecord V)
  assetToInstance : StorageMap (V.AssetId × InstanceId) Unit

end Registry

namespace Registry

variable {T : Config} {AccountId : Type} {V : Services T AccountId}

/- The deposit of the creator, when there is one. -/
def takeDeposit (outside : V.Outside) (creator : Option AccountId) :
    Except Error (Option (AccountId × V.Ticket) × V.Outside) :=
  match creator with
  | none => .ok (none, outside)
  | some account =>
    match V.newDeposit outside account with
    | some (ticket, outside) =>
      .ok (some (account, ticket), outside)
    | none => .error .deposit

def doCreateInstance (s : Registry V) (assetId : V.AssetId) (assetUnit : Balance T)
    (mode : InstanceMode) (creator : Option AccountId) :
    Except Error (InstanceId × Registry V) := do
  ensure (V.assetExists s.outside assetId = true) Error.unknownAsset
  -- A zero unit converts at every denomination.
  ensure (assetUnit ≠ 0) Error.invalidAssetUnit
  ensure (∀ value ∈ denominations T, (denominationToAssetAmount T assetUnit value).toOption.isSome)
    Error.invalidAssetUnit
  let instanceId := s.nextInstanceId
  let nextInstanceId ← okOr (checkedAdd u32Max instanceId 1) Error.internalError
  ensure (V.shouldTouch s.outside assetId V.palletAccount = false) Error.palletAccountNotTouched
  ensure (V.minimumBalance s.outside assetId ≤ V.balance s.outside assetId V.palletAccount)
    Error.palletAccountBelowMinimumBalance
  let (creator, outside) ← takeDeposit s.outside creator
  let outside ← (denominations T).foldlM (fun outside value =>
        okOr (V.createCollection outside instanceId value) Error.collection)
      outside
  return (instanceId,
    { outside := outside
      nextInstanceId := nextInstanceId
      instances := s.instances.insert instanceId
          { assetId := assetId
            assetUnit := assetUnit
            mode := mode
            creator := creator }
      assetToInstance := s.assetToInstance.insert (assetId, instanceId) () })

/- A unit that was accepted converts at every denomination. -/
theorem converts_of_doCreateInstance
    {s s' : Registry V} {assetId : V.AssetId} {assetUnit : Balance T}
    {mode : InstanceMode} {creator : Option AccountId} {instanceId : InstanceId}
    (hCreate : s.doCreateInstance assetId assetUnit mode creator = .ok (instanceId, s')) :
    ∀ value ∈ denominations T, ∃ amount,
      denominationToAssetAmount T assetUnit value = .ok amount := by
  unfold doCreateInstance at hCreate
  simp only [bind_eq_ok, ensure_eq_ok_iff] at hCreate
  rcases hCreate with ⟨_, _, _, _, _, hConverts, _⟩
  intro value hValue
  have hSome := hConverts value hValue
  cases hAmount : denominationToAssetAmount T assetUnit value with
  | error e =>
    rw [hAmount] at hSome
    nomatch hSome
  | ok amount => exact ⟨amount, rfl⟩

end Registry

--
-- Splitting
--

structure Coin where
  instanceId : InstanceId
  value : Denomination
  age : Nat
  deriving DecidableEq

inductive CustomInvalidity where
  | emptySplit
  | splitExponentTooSmall
  | splitExponentTooBig
  | splitIntoNotSorted
  | tooManySplits
  | addressAlreadyHasCoin
  | internalError
  | invalidSplit
  | duplicateDestinationsInSplit
  | coinTooOld
  deriving DecidableEq, Repr

section Split

variable {T : Config} {AccountId : Type} [LinearOrder AccountId]

abbrev CoinsByOwner (AccountId : Type) [LinearOrder AccountId] :=
  StorageMap AccountId Coin

/- The outputs of one denomination. -/
abbrev SplitOutput (T : Config) (AccountId : Type) :=
  Denomination × BoundedVec AccountId T.maxSplitOutputs

/- What the loop over the outputs has seen. -/
structure SplitProgress where
  previousDenomination : Option Denomination
  splitOutputCount : Nat
  totalUnit : Nat
  deriving DecidableEq

/- `checked_mul`. -/
def checkedMul (max a b : Nat) : Option Nat :=
  if a * b ≤ max then some (a * b) else none

def isNoneOr (previous : Option Denomination) (value : Denomination) : Bool :=
  match previous with
  | none => true
  | some previous => previous < value

/- The body of the loop of `validate_split_params`. -/
def checkSplitOutput (coins : CoinsByOwner AccountId) (p : SplitProgress)
    (output : SplitOutput T AccountId) :
    Except CustomInvalidity SplitProgress := do
  let (value, dest) := output
  ensure (dest.isEmpty = false) CustomInvalidity.emptySplit
  ensure (T.minimumExponent ≤ value) CustomInvalidity.splitExponentTooSmall
  ensure (value ≤ T.maximumExponent) CustomInvalidity.splitExponentTooBig
  ensure (isNoneOr p.previousDenomination value = true) CustomInvalidity.splitIntoNotSorted
  let splitOutputCountForValue ← okOr (if dest.length ≤ u32Max then some dest.length else none)
      CustomInvalidity.tooManySplits
  let splitOutputCount ← okOr (checkedAdd u32Max p.splitOutputCount splitOutputCountForValue)
      CustomInvalidity.tooManySplits
  ensure (splitOutputCount ≤ T.maxSplitOutputs) CustomInvalidity.tooManySplits
  ensure (dest.toList.all fun d => coins.containsKey d = false)
    CustomInvalidity.addressAlreadyHasCoin
  let valueUnit ← okOr (denominationToBaseUnits T value) CustomInvalidity.internalError
  let additionalUnitForValue ← okOr (checkedMul u32Max splitOutputCountForValue valueUnit.toNat)
      CustomInvalidity.invalidSplit
  let totalUnit ← okOr (checkedAdd u32Max p.totalUnit additionalUnitForValue)
      CustomInvalidity.invalidSplit
  return {
    previousDenomination := some value
    splitOutputCount := splitOutputCount
    totalUnit := totalUnit }

/- `all_dests.sort()` and a look at every two neighbours. -/
def hasDuplicates (dests : List AccountId) : Bool :=
  let sorted := dests.insertionSort (· ≤ ·)
  (sorted.zip sorted.tail).any fun w => w.1 = w.2

def validateSplitParams (coins : CoinsByOwner AccountId) (expectedTotalUnits : BitVec 32)
    (splitInto : List (SplitOutput T AccountId)) :
    Except CustomInvalidity Unit := do
  let p ← splitInto.foldlM (checkSplitOutput coins)
      { previousDenomination := none
        splitOutputCount := 0
        totalUnit := 0 }
  ensure (p.splitOutputCount ≤ T.maxSplitOutputs) CustomInvalidity.tooManySplits
  ensure (p.totalUnit = expectedTotalUnits.toNat) CustomInvalidity.invalidSplit
  ensure (hasDuplicates (splitInto.flatMap fun output => output.2.toList) = false)
    CustomInvalidity.duplicateDestinationsInSplit

def validateSplit (coins : CoinsByOwner AccountId) (coin : Coin)
    (splitInto : List (SplitOutput T AccountId)) :
    Except CustomInvalidity Unit := do
  ensure (coin.age < T.maximumAge) CustomInvalidity.coinTooOld
  let expectedTotal ← okOr (denominationToBaseUnits T coin.value) CustomInvalidity.internalError
  validateSplitParams coins expectedTotal splitInto

--
-- The Units of the Outputs
--

/- The base units of the outputs of one denomination. -/
def outputUnits (output : SplitOutput T AccountId) : Nat :=
  output.2.length * ((denominationToBaseUnits T output.1).elim 0 BitVec.toNat)

/- The base units of all outputs, added without a bound. -/
def splitUnits (outputs : List (SplitOutput T AccountId)) : Nat :=
  (outputs.map outputUnits).sum

/- The number of outputs, counted without a bound. -/
def splitCount (outputs : List (SplitOutput T AccountId)) : Nat :=
  (outputs.map fun output => output.2.length).sum

/- What an accepted output adds to the totals. -/
structure Accepted (T : Config) (coins : CoinsByOwner AccountId) (p : SplitProgress)
    (output : SplitOutput T AccountId) (p' : SplitProgress) : Prop where
  low : T.minimumExponent ≤ output.1
  high : output.1 ≤ T.maximumExponent
  count : p'.splitOutputCount = p.splitOutputCount + output.2.length
  count_le : p'.splitOutputCount ≤ u32Max
  units : p'.totalUnit = p.totalUnit + outputUnits output
  units_le : p'.totalUnit ≤ u32Max
  fresh : ∀ d ∈ output.2.toList, coins.containsKey d = false

variable {coins : CoinsByOwner AccountId}

theorem accepted_of_checkSplitOutput {p p' : SplitProgress} {output : SplitOutput T AccountId}
    (hCheck : checkSplitOutput coins p output = .ok p') :
    Accepted T coins p output p' := by
  unfold checkSplitOutput at hCheck
  simp only [bind_eq_ok, ensure_eq_ok_iff,
    okOr_eq_ok_iff, Except.pure_eq_ok, checkedAdd, checkedMul,
    Option.ite_none_right_eq_some, Option.some.injEq]
    at hCheck
  rcases hCheck with ⟨_, _, _, hLow, _, hHigh, _, _, count, ⟨_, rfl⟩, total,
      ⟨hCount, rfl⟩, _, _, _, hFresh, units, hUnits, _,
      ⟨_, rfl⟩, _, ⟨hTotal, rfl⟩, rfl⟩
  have hOutput : outputUnits output = output.2.length * units.toNat := by
    unfold outputUnits
    rw [hUnits]
    rfl
  refine
    { low := hLow
      high := hHigh
      count := rfl
      count_le := hCount
      units := ?_
      units_le := hTotal
      fresh := ?_ }
  · rw [hOutput]
  · intro d hDest
    exact of_decide_eq_true (List.all_eq_true.mp hFresh d hDest)

/- The totals of the loop are the sums of the outputs. -/
structure Progress (start p : SplitProgress) (outputs : List (SplitOutput T AccountId)) : Prop where
  count : p.splitOutputCount = start.splitOutputCount + splitCount outputs
  units : p.totalUnit = start.totalUnit + splitUnits outputs

variable {outputs : List (SplitOutput T AccountId)}

theorem progress_of_foldlM {start p : SplitProgress}
    (hLoop : outputs.foldlM (checkSplitOutput coins) start = .ok p) :
    Progress start p outputs ∧ ∀ output ∈ outputs,
        T.minimumExponent ≤ output.1 ∧ output.1 ≤ T.maximumExponent := by
  induction outputs generalizing start with
  | nil =>
    cases hLoop
    refine ⟨⟨rfl, rfl⟩, ?_⟩
    intro output hMem
    nomatch hMem
  | cons output outputs ih =>
    rw [List.foldlM_cons, bind_eq_ok] at hLoop
    rcases hLoop with ⟨p₁, hCheck, hRest⟩
    have hAccepted := accepted_of_checkSplitOutput hCheck
    rcases ih hRest with ⟨hProgress, hBounds⟩
    refine ⟨⟨?_, ?_⟩, ?_⟩
    · rw [hProgress.count, hAccepted.count]
      unfold splitCount
      rw [List.map_cons, List.sum_cons, Nat.add_assoc]
    · rw [hProgress.units, hAccepted.units]
      unfold splitUnits
      rw [List.map_cons, List.sum_cons, Nat.add_assoc]
    · intro output' hMem
      rcases List.mem_cons.mp hMem with rfl | hOther
      · exact ⟨hAccepted.low, hAccepted.high⟩
      · exact hBounds output' hOther

/-
  No word wraps: the sums over every part of the outputs are
  within 32 bits, for the loop got past that part.
-/
theorem prefix_fits {start p : SplitProgress} {rest : List (SplitOutput T AccountId)}
    (hStart : start.splitOutputCount ≤ u32Max ∧ start.totalUnit ≤ u32Max)
    (hLoop : (outputs ++ rest).foldlM (checkSplitOutput coins) start = .ok p) :
    start.splitOutputCount + splitCount outputs ≤ u32Max ∧
      start.totalUnit + splitUnits outputs ≤ u32Max := by
  induction outputs generalizing start with
  | nil => exact hStart
  | cons output outputs ih =>
    rw [List.cons_append, List.foldlM_cons, bind_eq_ok] at hLoop
    rcases hLoop with ⟨p₁, hCheck, hRest⟩
    have hAccepted := accepted_of_checkSplitOutput hCheck
    have hFits := ih ⟨hAccepted.count_le, hAccepted.units_le⟩ hRest
    rw [hAccepted.count, hAccepted.units] at hFits
    unfold splitCount splitUnits at hFits ⊢
    rw [List.map_cons, List.sum_cons, List.map_cons,
      List.sum_cons, ← Nat.add_assoc, ← Nat.add_assoc]
    exact hFits

/- A sorted list without equal neighbours has no doubles. -/
theorem nodup_of_neighbours {sorted : List AccountId} (hSorted : sorted.Pairwise (· ≤ ·))
    (hNone : ((sorted.zip sorted.tail).any fun w => w.1 = w.2) = false) :
    sorted.Nodup := by
  induction sorted with
  | nil => exact List.nodup_nil
  | cons a rest ih =>
    rw [List.pairwise_cons] at hSorted
    cases rest with
    | nil => exact List.nodup_singleton a
    | cons b rest =>
      rw [List.tail_cons, List.zip_cons_cons, List.any_cons, Bool.or_eq_false_iff] at hNone
      have hRest := ih hSorted.2 hNone.2
      have hNe : a ≠ b := of_decide_eq_false hNone.1
      have hLt : a < b := lt_of_le_of_ne (hSorted.1 b List.mem_cons_self) hNe
      refine List.nodup_cons.mpr ⟨?_, hRest⟩
      intro hMem
      rcases List.mem_cons.mp hMem with hSame | hLater
      · exact hNe hSame
      · have hLe := (List.pairwise_cons.mp hSorted.2).1 a hLater
        exact absurd hLe (not_le.mpr hLt)

/- Sorting brings equal destinations together. -/
theorem nodup_of_hasDuplicates_eq_false {dests : List AccountId}
    (hNone : hasDuplicates dests = false) :
    dests.Nodup := by
  have hSorted := List.pairwise_insertionSort (· ≤ ·) dests
  have hNodup := nodup_of_neighbours hSorted hNone
  exact (List.perm_insertionSort (· ≤ ·) dests).nodup_iff.mp hNodup

/- What an accepted list of outputs is. -/
structure SplitHolds (T : Config) (coins : CoinsByOwner AccountId) (expectedTotalUnits : BitVec 32)
    (outputs : List (SplitOutput T AccountId)) : Prop where
  bounds : ∀ output ∈ outputs,
      T.minimumExponent ≤ output.1 ∧ output.1 ≤ T.maximumExponent
  units : splitUnits outputs = expectedTotalUnits.toNat
  fits : ∀ front back, outputs = front ++ back →
      splitCount front ≤ u32Max ∧ splitUnits front ≤ u32Max
  distinct : (outputs.flatMap fun output => output.2.toList).Nodup

theorem splitHolds_of_validateSplitParams {expectedTotalUnits : BitVec 32}
    (hValidate : validateSplitParams coins expectedTotalUnits outputs = .ok ()) :
    SplitHolds T coins expectedTotalUnits outputs := by
  unfold validateSplitParams at hValidate
  simp only [bind_eq_ok, ensure_eq_ok_iff] at hValidate
  rcases hValidate with ⟨p, hLoop, _, _, _, hTotal, hNoDuplicates⟩
  rcases progress_of_foldlM hLoop with ⟨hProgress, hBounds⟩
  refine ⟨hBounds, ?_, ?_, ?_⟩
  · have hUnits := hProgress.units
    rw [Nat.zero_add] at hUnits
    rw [← hUnits, hTotal]
  · rintro front back rfl
    have hFits := prefix_fits ⟨Nat.zero_le _, Nat.zero_le _⟩ hLoop
    simp only [Nat.zero_add] at hFits
    exact hFits
  · exact nodup_of_hasDuplicates_eq_false hNoDuplicates

/- The amounts of the asset behind the outputs, added up. -/
def splitAmount (assetUnit : Balance T) (outputs : List (SplitOutput T AccountId)) : Nat :=
  (outputs.map fun output =>
    output.2.length * ((denominationToAssetAmount T assetUnit
        output.1).toOption.elim 0 BitVec.toNat)).sum

/- Each output is worth its base units, so the outputs are worth theirs. -/
omit [LinearOrder AccountId] in
theorem splitAmount_eq {assetUnit least : Balance T}
    (hLeast : denominationToAssetAmount T assetUnit T.minimumExponent = .ok least)
    (hConverts : ∀ value ∈ denominations T, ∃ amount,
        denominationToAssetAmount T assetUnit value = .ok amount)
    (hBounds : ∀ output ∈ outputs, T.minimumExponent ≤ output.1 ∧ output.1 ≤ T.maximumExponent) :
    splitAmount assetUnit outputs = splitUnits outputs * least.toNat := by
  unfold splitAmount splitUnits
  rw [← List.sum_map_mul_right]
  apply congrArg List.sum
  apply List.map_congr_left
  intro output hMem
  rcases hBounds output hMem with ⟨hLow, hHigh⟩
  rcases hConverts output.1 (mem_denominations_iff.mpr ⟨hLow, hHigh⟩) with ⟨amount, hAmount⟩
  rcases denominationToBaseUnits_eq_some hLow hHigh with ⟨units, hUnits, _⟩
  unfold outputUnits
  rw [hAmount, hUnits]
  change output.2.length * amount.toNat = output.2.length * units.toNat * least.toNat
  rw [toNat_assetAmount_eq hLeast hAmount hUnits, mul_assoc]

/-
  A denomination of an instance is worth its base units times the least denomination, exactly, and
  an accepted split is worth the units that were expected of it: no sum of the check wraps, and no
  destination is named twice.  For the split of a coin the units are those of the coin.
-/
theorem splits_keep_value {V : Services T AccountId}
    (s s' : Registry V) (assetId : V.AssetId) (assetUnit : Balance T)
    (mode : InstanceMode) (creator : Option AccountId) (instanceId : InstanceId)
    (hCreate : s.doCreateInstance assetId assetUnit mode creator = .ok (instanceId, s')) :
    ∃ least, denominationToAssetAmount T assetUnit T.minimumExponent = .ok least ∧
      (∀ value, T.minimumExponent ≤ value → value ≤ T.maximumExponent →
          ∃ units amount, denominationToBaseUnits T value = some units ∧
            denominationToAssetAmount T assetUnit value = .ok amount ∧
            amount.toNat = units.toNat * least.toNat) ∧
      (∀ (coins : CoinsByOwner AccountId) expected (splitInto : List (SplitOutput T AccountId)),
        validateSplitParams coins expected splitInto = .ok () →
          splitAmount assetUnit splitInto = expected.toNat * least.toNat ∧
            SplitHolds T coins expected splitInto) ∧
      ∀ (coins : CoinsByOwner AccountId) coin (splitInto : List (SplitOutput T AccountId)),
        validateSplit coins coin splitInto = .ok () → ∃ expected,
            denominationToBaseUnits T coin.value = some expected ∧
            splitAmount assetUnit splitInto = expected.toNat * least.toNat ∧
            SplitHolds T coins expected splitInto := by
  have hConverts := Registry.converts_of_doCreateInstance hCreate
  have hMin : T.minimumExponent ∈ denominations T := mem_denominations_iff.mpr
      ⟨Int8.le_refl _, T.minimum_le_maximum⟩
  rcases hConverts _ hMin with ⟨least, hLeast⟩
  have hParams : ∀ (coins : CoinsByOwner AccountId) expected
          (splitInto : List (SplitOutput T AccountId)),
        validateSplitParams coins expected splitInto = .ok () → splitAmount assetUnit splitInto
              = expected.toNat * least.toNat ∧
            SplitHolds T coins expected splitInto := by
    intro coins expected splitInto hValidate
    have hHolds := splitHolds_of_validateSplitParams hValidate
    refine ⟨?_, hHolds⟩
    rw [splitAmount_eq hLeast hConverts hHolds.bounds, hHolds.units]
  refine ⟨least, hLeast, ?_, hParams, ?_⟩
  · intro value hLow hHigh
    rcases hConverts value (mem_denominations_iff.mpr ⟨hLow, hHigh⟩) with ⟨amount, hAmount⟩
    rcases denominationToBaseUnits_eq_some hLow hHigh with ⟨units, hUnits, _⟩
    exact ⟨units, amount, hUnits, hAmount, toNat_assetAmount_eq hLeast hAmount hUnits⟩
  · intro coins coin splitInto hValidate
    unfold validateSplit at hValidate
    simp only [bind_eq_ok, ensure_eq_ok_iff, okOr_eq_ok_iff] at hValidate
    rcases hValidate with ⟨_, _, expected, hExpected, hSplit⟩
    rcases hParams coins expected splitInto hSplit with ⟨hAmount, hHolds⟩
    exact ⟨expected, hExpected, hAmount, hHolds⟩

end Split

--
-- A Split
--

/- Denominations from a quarter of the unit to twice as much. -/
def sampleConfig : Config where
  balanceWidth := 64
  minimumExponent := -2
  maximumExponent := 1
  maximumAge := 5
  maxSplitOutputs := 4
  minimum_le_maximum := by decide
  range_fits := by decide

def sampleServices : Services sampleConfig Nat where
  AssetId := Nat
  Ticket := Unit
  Outside := Unit
  palletAccount := 0
  assetExists := fun _ _ => true
  shouldTouch := fun _ _ _ => false
  balance := fun _ _ _ => 10
  minimumBalance := fun _ _ => 1
  newDeposit := fun _ _ => some ((), ())
  createCollection := fun _ _ _ => some ()

def sampleRegistry : Registry sampleServices where
  outside := ()
  nextInstanceId := 0
  instances := .empty
  assetToInstance := .empty

/- A coin of the unit, into two quarters and a half. -/
def sampleSplit : List (SplitOutput sampleConfig Nat) :=
  [(-2, ⟨[4, 2], by decide⟩), (-1, ⟨[3], by decide⟩)]

theorem splits_keep_value_sample : ∃ least,
      denominationToAssetAmount sampleConfig 12 (-2) = .ok least ∧
      validateSplit (.empty : CoinsByOwner Nat) { instanceId := 0, value := 0, age := 0 }
          sampleSplit
        = .ok () ∧
      ∃ expected : BitVec 32, splitAmount (12 : Balance sampleConfig) sampleSplit
          = expected.toNat * least.toNat := by
  have hCreate : (sampleRegistry.doCreateInstance (3 : Nat) 12
          .sponsored (some 9)).toOption.any (fun r => r.1 = 0)
        = true := by
    decide +kernel
  have hValidate : validateSplit (.empty : CoinsByOwner Nat)
          { instanceId := 0, value := 0, age := 0 }
          sampleSplit
        = .ok () := by
    decide +kernel
  rcases Except.exists_ok_of_any hCreate with ⟨⟨instanceId, s'⟩, hOk, _⟩
  rcases splits_keep_value _ _ _ _ _ _ _ hOk with ⟨least, hLeast, _, _, hSplit⟩
  rcases hSplit _ _ _ hValidate with ⟨expected, _, hAmount, _⟩
  exact ⟨least, hLeast, hValidate, expected, hAmount⟩

end Individuality.Coinage
