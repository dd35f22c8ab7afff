import Individuality.OriginRestriction.Pallet

/-
  The level of an entity's meter, and what it is after every transaction while nothing saturates.

  Main declaration: `Chain.level`
-/

namespace Individuality.OriginRestriction

open Except (bind_eq_ok pure_eq_ok)
open StorageMap (get_insert get_remove)

variable {T : Config} {usage : Usage} {tx : Transaction T}

namespace Chain

/- The usage stored for an entity, recovered by now. -/
def level (s : Chain T) (entity : T.Entity) : Nat :=
  match s.usages.get entity with
  | some usage =>
    usage.used - (T.allowance entity).recoveryPerBlock * (s.currentBlockNumber - usage.atBlock)
  | none => 0

theorem level_of_get {s : Chain T} {entity : T.Entity} (hGet : s.usages.get entity = some usage) :
    s.level entity = usage.used - (T.allowance entity).recoveryPerBlock
        * (s.currentBlockNumber - usage.atBlock) := by
  unfold level
  rw [hGet]

theorem level_of_get_none {s : Chain T} {entity : T.Entity} (hGet : s.usages.get entity = none) :
    s.level entity = 0 := by
  unfold level
  rw [hGet]

/-
  The stored usage is a balance of a block gone by, and the
  blocks since then are counted by a `u32`.
-/
def Bounded (s : Chain T) (entity : T.Entity) : Prop :=
  ∀ usage, s.usages.get entity = some usage → usage.used ≤ T.balanceMax ∧
      usage.atBlock ≤ s.currentBlockNumber ∧ s.currentBlockNumber - usage.atBlock ≤ u32Max

theorem bounded_of_get_none {s : Chain T} {entity : T.Entity} (hGet : s.usages.get entity = none) :
    s.Bounded entity := by
  intro usage hSome
  rw [hGet] at hSome
  nomatch hSome

/- A product that saturates takes everything off anyway. -/
theorem recovered_eq_level {s : Chain T} {entity : T.Entity} (hBounded : s.Bounded entity)
    (hGet : s.usages.get entity = some usage) :
    s.recovered entity usage = s.level entity := by
  rcases hBounded usage hGet with ⟨hUsed, _, hElapsed⟩
  rw [level_of_get hGet]
  unfold recovered saturatingMul
  dsimp only
  rw [Nat.min_eq_left hElapsed]
  omega

theorem currentUsage_eq {s : Chain T} {entity : T.Entity} (hBounded : s.Bounded entity) :
    s.currentUsage entity
      = { used := s.level entity
          atBlock := s.currentBlockNumber } := by
  unfold currentUsage
  cases hGet : s.usages.get entity with
  | none =>
    dsimp only
    rw [level_of_get_none hGet]
  | some usage =>
    dsimp only
    rw [recovered_eq_level hBounded hGet]

end Chain

--
-- Cleaning
--

/- Nothing happened to the usage of the entity, unless it was zero by now and is gone. -/
def Cleaned (entity : T.Entity) (s s' : Chain T) : Prop :=
  s'.currentBlockNumber = s.currentBlockNumber ∧ (s'.usages.get entity = s.usages.get entity ∨
      s'.usages.get entity = none ∧ s.level entity = 0)

namespace Cleaned

variable {entity : T.Entity} {s s' s'' : Chain T}

theorem refl : Cleaned entity s s :=
  ⟨rfl, Or.inl rfl⟩

theorem level (hCleaned : Cleaned entity s s') :
    s'.level entity = s.level entity := by
  rcases hCleaned with ⟨hNow, hKept | ⟨hGone, hZero⟩⟩
  · unfold Chain.level
    rw [hKept, hNow]
  · rw [Chain.level_of_get_none hGone, hZero]

theorem bounded (hCleaned : Cleaned entity s s') (hBounded : s.Bounded entity) :
    s'.Bounded entity := by
  rcases hCleaned with ⟨hNow, hKept | ⟨hGone, _⟩⟩
  · unfold Chain.Bounded
    rw [hKept, hNow]
    exact hBounded
  · exact Chain.bounded_of_get_none hGone

theorem trans (hFirst : Cleaned entity s s') (hSecond : Cleaned entity s' s'') :
    Cleaned entity s s'' := by
  refine ⟨hSecond.1.trans hFirst.1, ?_⟩
  rcases hSecond.2 with hKept | ⟨hGone, hZero⟩
  · rw [hKept]
    exact hFirst.2
  · rw [hFirst.level] at hZero
    exact Or.inr ⟨hGone, hZero⟩

end Cleaned

theorem cleaned_of_cleanUsage {s s' : Chain T} {entity cleaned : T.Entity} {originNone : Bool}
    (hBounded : s.Bounded entity) (hClean : s.cleanUsage originNone cleaned = .ok s') :
    Cleaned entity s s' := by
  unfold Chain.cleanUsage at hClean
  simp only [bind_eq_ok, ensure_eq_ok_iff, okOr_eq_ok_iff, pure_eq_ok] at hClean
  rcases hClean with ⟨_, _, usage, hGet, _, hZero, rfl⟩
  refine ⟨rfl, ?_⟩
  dsimp only
  rw [get_remove]
  by_cases hSame : entity = cleaned
  · rw [if_pos hSame]
    rw [← hSame] at hGet hZero
    rw [Chain.recovered_eq_level hBounded hGet] at hZero
    exact Or.inr ⟨rfl, hZero⟩
  · rw [if_neg hSame]
    exact Or.inl rfl

theorem cleaned_of_getD {s : Chain T} {entity : T.Entity} (clean : Bool × T.Entity)
    (hBounded : s.Bounded entity) :
    Cleaned entity s ((s.cleanUsage clean.1 clean.2).toOption.getD s) := by
  cases hClean : s.cleanUsage clean.1 clean.2 with
  | error e => exact Cleaned.refl
  | ok s' => exact cleaned_of_cleanUsage hBounded hClean

theorem cleaned_of_cleanAll {s : Chain T} {entity : T.Entity} {cleans : List (Bool × T.Entity)}
    (hBounded : s.Bounded entity) :
    Cleaned entity s (s.cleanAll cleans) := by
  induction cleans generalizing s with
  | nil => exact Cleaned.refl
  | cons clean cleans ih =>
    have hFirst := cleaned_of_getD clean hBounded
    exact hFirst.trans (ih (hFirst.bounded hBounded))

theorem cleaned_of_dispatch {s : Chain T} {entity : T.Entity} (outcome : Outcome T)
    (hBounded : s.Bounded entity) :
    Cleaned entity s (s.dispatch outcome) := by
  unfold Chain.dispatch
  split_ifs
  · exact Cleaned.refl
  · exact cleaned_of_cleanAll hBounded

--
-- Validating
--

/- The fee that a transaction is estimated at. -/
def Transaction.fee (tx : Transaction T) : Nat :=
  extrinsicFee T tx.totalWeight tx.len

/- The bucket has room for the fee, or the call its excess. -/
def Accepts (entity : T.Entity) (level : Nat) (tx : Transaction T) : Prop :=
  tx.enabled = true ∧ (level + tx.fee ≤ (T.allowance entity).max ∨
      level = 0 ∧ T.operationAllowedOneTimeExcess entity tx.call = true)

instance (entity : T.Entity) (level : Nat) (tx : Transaction T) :
    Decidable (Accepts entity level tx) := by
  unfold Accepts
  infer_instance

/- What a restricted transaction is validated to. -/
theorem validate_eq_ok_iff {s : Chain T} {entity : T.Entity} {val : Val T}
    (hEntity : T.restrictedEntity tx.caller = some entity) (hBounded : s.Bounded entity)
    (hFits : s.level entity + tx.fee ≤ T.balanceMax) :
    s.validate tx = .ok val ↔ Accepts entity (s.level entity) tx ∧ val = .charge tx.fee entity
        { used := s.level entity + tx.fee
          atBlock := s.currentBlockNumber } := by
  have hSum : saturatingAdd T.balanceMax (s.level entity) (extrinsicFee T tx.totalWeight tx.len)
        = s.level entity + tx.fee :=
    Nat.min_eq_left hFits
  unfold Chain.validate Accepts
  rw [hEntity]
  dsimp only
  rw [Chain.currentUsage_eq hBounded]
  simp only [bind_eq_ok, ensure_eq_ok_iff, pure_eq_ok, hSum]
  constructor
  · rintro ⟨_, hEnabled, _, hRoom, rfl⟩
    exact ⟨⟨hEnabled, hRoom⟩, rfl⟩
  · rintro ⟨⟨hEnabled, hRoom⟩, rfl⟩
    exact ⟨(), hEnabled, (), hRoom, rfl⟩

/- The entity that is charged is the one of the caller. -/
theorem entity_of_validate {s : Chain T} {entity : T.Entity} {fee : Nat}
    (hValidate : s.validate tx = .ok (.charge fee entity usage)) :
    T.restrictedEntity tx.caller = some entity := by
  unfold Chain.validate at hValidate
  cases hEntity : T.restrictedEntity tx.caller with
  | none =>
    rw [hEntity] at hValidate
    nomatch hValidate
  | some other =>
    rw [hEntity] at hValidate
    simp only [bind_eq_ok, pure_eq_ok, Val.charge.injEq] at hValidate
    rcases hValidate with ⟨_, _, _, _, _, rfl, _⟩
    rfl

--
-- A Transaction
--

/-
  The net fee: nothing when none is paid, or the smaller of the estimated fee and the actual one.
-/
def netFee (tx : Transaction T) (outcome : Outcome T) : Nat :=
  if outcome.paysFee = .no then 0
  else
    match outcome.actualWeight with
    | some actualWeight =>
      min tx.fee (extrinsicFee T actualWeight tx.len)
    | none => tx.fee

theorem netFee_le (tx : Transaction T) (outcome : Outcome T) :
    netFee tx outcome ≤ tx.fee := by
  unfold netFee
  split_ifs
  · exact Nat.zero_le _
  · split
    · exact Nat.min_le_left _ _
    · exact le_rfl

/- The refund leaves the net fee. -/
theorem settle_eq (tx : Transaction T) (outcome : Outcome T) (level : Nat) :
    Chain.settle outcome tx.len tx.fee (level + tx.fee) = level + netFee tx outcome := by
  unfold Chain.settle netFee
  split_ifs
  · omega
  · cases outcome.actualWeight with
    | none => rfl
    | some actualWeight =>
      dsimp only
      omega

/- What the entity pays for a transaction, if anything. -/
def paidBy (entity : T.Entity) (tx : Transaction T) (outcome : Outcome T) : Nat :=
  if T.restrictedEntity tx.caller = some entity then
    netFee tx outcome
  else 0

/- The sums for the entity do not saturate. -/
def FeeFits (entity : T.Entity) (s : Chain T) (tx : Transaction T) : Prop :=
  T.restrictedEntity tx.caller = some entity → s.level entity + tx.fee ≤ T.balanceMax

/- The refund of a charged transaction of the entity. -/
theorem level_postDispatchDetails {s₁ s₂ : Chain T} {entity : T.Entity} (outcome : Outcome T)
    {level : Nat} (hFits : level + tx.fee ≤ T.balanceMax)
    (hGet : s₁.usages.get entity = some
        { used := level + tx.fee
          atBlock := s₁.currentBlockNumber })
    (hCleaned : Cleaned entity s₁ s₂) :
    (s₂.postDispatchDetails outcome tx.len (.charge tx.fee entity)).currentBlockNumber
        = s₁.currentBlockNumber ∧
      (s₂.postDispatchDetails outcome tx.len (.charge tx.fee entity)).Bounded entity ∧
        (s₂.postDispatchDetails outcome tx.len (.charge tx.fee entity)).level entity
          = level + netFee tx outcome := by
  have hNet := netFee_le tx outcome
  unfold Chain.postDispatchDetails
  dsimp only
  rcases hCleaned with ⟨hNow, hKept | ⟨hGone, hZero⟩⟩
  · rw [hKept, hGet]
    dsimp only
    rw [settle_eq]
    split_ifs with hSettled
    · have hNone : (s₂.usages.remove entity).get entity = none := by
        rw [get_remove, if_pos rfl]
      refine ⟨hNow, Chain.bounded_of_get_none hNone, ?_⟩
      rw [Chain.level_of_get_none hNone, hSettled]
    · have hSome : (s₂.usages.insert entity
              { used := level + netFee tx outcome
                atBlock := s₁.currentBlockNumber }).get entity
            = some
                { used := level + netFee tx outcome
                  atBlock := s₁.currentBlockNumber } := by
        rw [get_insert, if_pos rfl]
      refine ⟨hNow, ?_, ?_⟩
      · intro usage hUsage
        rw [hSome, Option.some.injEq] at hUsage
        rw [← hUsage]
        dsimp only
        rw [hNow]
        refine ⟨by omega, le_rfl, ?_⟩
        rw [Nat.sub_self]
        exact Nat.zero_le _
      · rw [Chain.level_of_get hSome]
        dsimp only
        rw [hNow, Nat.sub_self, Nat.mul_zero, Nat.sub_zero]
  · rw [hGone]
    rw [Chain.level_of_get hGet] at hZero
    dsimp only at hZero ⊢
    rw [Nat.sub_self, Nat.mul_zero, Nat.sub_zero] at hZero
    refine ⟨hNow, Chain.bounded_of_get_none hGone, ?_⟩
    rw [Chain.level_of_get_none hGone]
    omega

variable {outcome : Outcome T}

/- The refund of another entity leaves this one's usage. -/
theorem cleaned_of_postDispatchDetails {s : Chain T} {entity other : T.Entity} {len fee : Nat}
    (hOther : entity ≠ other) :
    Cleaned entity s (s.postDispatchDetails outcome len (.charge fee other)) := by
  unfold Chain.postDispatchDetails
  dsimp only
  cases s.usages.get other with
  | none => exact Cleaned.refl
  | some usage =>
    dsimp only
    split_ifs
    · refine ⟨rfl, Or.inl ?_⟩
      dsimp only
      rw [get_remove, if_neg hOther]
    · refine ⟨rfl, Or.inl ?_⟩
      dsimp only
      rw [get_insert, if_neg hOther]

/- A transaction raises the level by its net fee. -/
theorem level_transaction {s s' : Chain T} {entity : T.Entity} (hBounded : s.Bounded entity)
    (hFits : FeeFits entity s tx) (hApply : s.applyTransaction tx outcome = .ok s') :
    s'.currentBlockNumber = s.currentBlockNumber ∧ s'.Bounded entity ∧
        s'.level entity = s.level entity + paidBy entity tx outcome := by
  unfold Chain.applyTransaction at hApply
  simp only [bind_eq_ok, pure_eq_ok] at hApply
  rcases hApply with ⟨val, hValidate, rfl⟩
  unfold paidBy
  by_cases hEntity : T.restrictedEntity tx.caller = some entity
  · rw [if_pos hEntity]
    rw [validate_eq_ok_iff hEntity hBounded (hFits hEntity)] at hValidate
    rw [hValidate.2]
    have hGet : (s.prepare (.charge tx.fee entity
            { used := s.level entity + tx.fee
              atBlock := s.currentBlockNumber })).1.usages.get
            entity
          = some
              { used := s.level entity + tx.fee
                atBlock := (s.prepare (.charge tx.fee entity
                    { used := s.level entity + tx.fee
                      atBlock := s.currentBlockNumber
                      })).1.currentBlockNumber } :=
      (get_insert _ _ _ _).trans (if_pos rfl)
    have hPrepared : (s.prepare (.charge tx.fee entity
            { used := s.level entity + tx.fee
              atBlock := s.currentBlockNumber })).1.Bounded
          entity := by
      intro usage hUsage
      rw [hGet, Option.some.injEq] at hUsage
      rw [← hUsage]
      refine ⟨hFits hEntity, le_rfl, ?_⟩
      dsimp only
      rw [Nat.sub_self]
      exact Nat.zero_le _
    have hDispatched := cleaned_of_dispatch outcome hPrepared
    have hSettled := level_postDispatchDetails outcome (hFits hEntity) hGet hDispatched
    exact hSettled
  · rw [if_neg hEntity, Nat.add_zero]
    have hWhole : Cleaned entity s
          (((s.prepare val).1.dispatch outcome).postDispatchDetails outcome tx.len
              (s.prepare val).2) := by
      cases val with
      | noCharge => exact cleaned_of_dispatch outcome hBounded
      | charge fee other usage =>
        have hOther : entity ≠ other := by
          rintro rfl
          exact hEntity (entity_of_validate hValidate)
        have hPrepared : Cleaned entity s (s.prepare (.charge fee other usage)).1 := by
          refine ⟨rfl, Or.inl ?_⟩
          exact (get_insert _ _ _ _).trans (if_neg hOther)
        have hDispatched := hPrepared.trans
            (cleaned_of_dispatch outcome (hPrepared.bounded hBounded))
        exact hDispatched.trans (cleaned_of_postDispatchDetails hOther)
    exact ⟨hWhole.1, hWhole.bounded hBounded, hWhole.level⟩

end Individuality.OriginRestriction
