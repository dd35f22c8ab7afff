import Individuality.Base.Shifts
import Individuality.Base.Fallible
import Individuality.Base.Storage
import Mathlib.Data.List.Sort
import Mathlib.Tactic.Ring

/-
  The coins of the coinage pallet and the instances they belong to.  A coin is worth a power of two
  of the asset unit of its instance; the exponent may be negative.

  Main declaration: `Config`
-/

namespace Individuality.Coinage

abbrev Denomination := Int8

abbrev InstanceId := Nat

/-
  The constants of the pallet, and the words of the balances.
  The last two fields are checked by `integrity_test`.
-/
structure Config where
  balanceWidth : Nat
  minimumExponent : Denomination
  maximumExponent : Denomination
  maximumAge : Nat
  maxSplitOutputs : Nat
  minimum_le_maximum : minimumExponent ≤ maximumExponent
  range_fits : maximumExponent.toInt - minimumExponent.toInt < 32

abbrev Balance (T : Config) := BitVec T.balanceWidth

inductive DenominationToAssetAmountError where
  | denominationOutOfBound
  | denominationTooSmall
  | denominationTooBig
  | lossyDenominationConversion
  deriving DecidableEq, Repr

section Denominations

variable (T : Config)

/- The amount of the asset behind a coin. -/
def denominationToAssetAmount (assetUnit : Balance T) (value : Denomination) :
    Except DenominationToAssetAmountError (Balance T) :=
  if value < T.minimumExponent ∨ T.maximumExponent < value then
    .error .denominationOutOfBound
  else if value < 0 then do
    let shift := value.toInt.natAbs
    let shifted ← okOr (checkedShr assetUnit shift) .denominationTooSmall
    ensure (checkedShl shifted shift = some assetUnit)
      DenominationToAssetAmountError.lossyDenominationConversion
    return shifted
  else do
    let shift := value.toInt.toNat
    let shifted ← okOr (checkedShl assetUnit shift) .denominationTooBig
    ensure (checkedShr shifted shift = some assetUnit)
      DenominationToAssetAmountError.denominationTooBig
    return shifted

/- The number of base units of a coin, one of them being a coin of the least denomination. -/
def denominationToBaseUnits (value : Denomination) : Option (BitVec 32) :=
  let offset := value.toInt - T.minimumExponent.toInt
  if 0 ≤ offset then checkedShl 1 offset.toNat else none

/- `MinimumExponent::get()..=MaximumExponent::get()`. -/
def denominations : List Denomination :=
  (List.range (T.maximumExponent.toInt - T.minimumExponent.toInt + 1).toNat).map fun i : Nat =>
    Int8.ofInt (T.minimumExponent.toInt + (i : Int))

end Denominations

variable {T : Config} {value : Denomination}

theorem mem_denominations_iff : value ∈ denominations T ↔
      T.minimumExponent ≤ value ∧ value ≤ T.maximumExponent := by
  rw [Int8.le_iff_toInt_le, Int8.le_iff_toInt_le]
  unfold denominations
  rw [List.mem_map]
  constructor
  · rintro ⟨i, hIndex, rfl⟩
    rw [List.mem_range] at hIndex
    have hLow := T.minimumExponent.le_toInt
    have hHigh := T.maximumExponent.toInt_lt
    rw [Int8.toInt_ofInt_of_le]
    · omega
    · omega
    · omega
  · rintro ⟨hLow, hHigh⟩
    refine ⟨(value.toInt - T.minimumExponent.toInt).toNat, ?_, ?_⟩
    · rw [List.mem_range]
      omega
    · have hOffset : T.minimumExponent.toInt + ((value.toInt - T.minimumExponent.toInt).toNat : Int)
            = value.toInt := by
        omega
      rw [hOffset]
      exact Int8.ofInt_toInt value

/-
  An amount is the unit times the power of two, exactly: what
  a negative exponent divides by is multiplied back.
-/
theorem toNat_of_denominationToAssetAmount {assetUnit amount : Balance T}
    (hAmount : denominationToAssetAmount T assetUnit value = .ok amount) :
    amount.toNat * 2 ^ (-value.toInt).toNat = assetUnit.toNat * 2 ^ value.toInt.toNat := by
  unfold denominationToAssetAmount at hAmount
  split_ifs at hAmount with hBounds hNegative
  · simp only [Except.bind_eq_ok, okOr_eq_ok_iff, ensure_eq_ok_iff, Except.pure_eq_ok] at hAmount
    rcases hAmount with ⟨shifted, hShr, _, hBack, rfl⟩
    rw [Int8.lt_iff_toInt_lt] at hNegative
    have hZero : (0 : Int8).toInt = 0 := rfl
    have hAbs : value.toInt.natAbs = (-value.toInt).toNat := by
      omega
    have hNone : value.toInt.toNat = 0 := by
      omega
    rw [hNone, pow_zero, mul_one, ← hAbs]
    exact toNat_of_shr_shl hShr hBack
  · simp only [Except.bind_eq_ok, okOr_eq_ok_iff, ensure_eq_ok_iff, Except.pure_eq_ok] at hAmount
    rcases hAmount with ⟨shifted, hShl, _, hBack, rfl⟩
    rw [Int8.not_lt, Int8.le_iff_toInt_le] at hNegative
    have hZero : (0 : Int8).toInt = 0 := rfl
    have hNone : (-value.toInt).toNat = 0 := by
      omega
    rw [hNone, pow_zero, mul_one]
    exact toNat_of_shl_shr hShl hBack

/- A denomination of the range has its base units. -/
theorem denominationToBaseUnits_eq_some (hLow : T.minimumExponent ≤ value)
    (hHigh : value ≤ T.maximumExponent) :
    ∃ units, denominationToBaseUnits T value = some units ∧
      units.toNat = 2 ^ (value.toInt - T.minimumExponent.toInt).toNat := by
  rw [Int8.le_iff_toInt_le] at hLow hHigh
  have hRange := T.range_fits
  have hOffset : 0 ≤ value.toInt - T.minimumExponent.toInt := by
    omega
  have hFits : (value.toInt - T.minimumExponent.toInt).toNat < 32 := by
    omega
  have hShl : checkedShl (1 : BitVec 32) (value.toInt - T.minimumExponent.toInt).toNat = some
            (1 <<< (value.toInt - T.minimumExponent.toInt).toNat) :=
    if_pos hFits
  refine ⟨_, ?_, toNat_of_one_shl hShl⟩
  unfold denominationToBaseUnits
  rw [if_pos hOffset]
  exact hShl

/- A coin is worth its base units, each worth a coin of the least denomination. -/
theorem toNat_assetAmount_eq {assetUnit least amount : Balance T} {units : BitVec 32}
    (hLeast : denominationToAssetAmount T assetUnit T.minimumExponent = .ok least)
    (hAmount : denominationToAssetAmount T assetUnit value = .ok amount)
    (hUnits : denominationToBaseUnits T value = some units) :
    amount.toNat = units.toNat * least.toNat := by
  have hMin := toNat_of_denominationToAssetAmount hLeast
  have hVal := toNat_of_denominationToAssetAmount hAmount
  unfold denominationToBaseUnits at hUnits
  dsimp only at hUnits
  split_ifs at hUnits with hOffset
  rw [toNat_of_one_shl hUnits]
  generalize hM : T.minimumExponent.toInt = m at *
  generalize hV : value.toInt = v at *
  have hExponents : (-m).toNat + v.toNat = (-v).toNat + (v - m).toNat + m.toNat := by
    omega
  have hPos : 0 < 2 ^ ((-v).toNat + (-m).toNat) := Nat.pow_pos (by decide)
  apply Nat.eq_of_mul_eq_mul_right hPos
  calc
    amount.toNat * 2 ^ ((-v).toNat + (-m).toNat)
        = amount.toNat * 2 ^ (-v).toNat * 2 ^ (-m).toNat := by
          rw [pow_add, mul_assoc]
    _ = assetUnit.toNat * 2 ^ ((-m).toNat + v.toNat) := by
        rw [hVal, pow_add]
        ring
    _ = assetUnit.toNat * 2 ^ m.toNat * 2 ^ ((-v).toNat + (v - m).toNat) := by
        rw [hExponents, pow_add _ _ m.toNat]
        ring
    _ = least.toNat * 2 ^ (-m).toNat * 2 ^ ((-v).toNat + (v - m).toNat) := by
        rw [hMin]
    _ = 2 ^ (v - m).toNat * least.toNat * 2 ^ ((-v).toNat + (-m).toNat) := by
        rw [pow_add, pow_add]
        ring

end Individuality.Coinage
