import Individuality.OriginRestriction.Meter
import Mathlib.Logic.Function.Iterate

/-
  The leaky bucket of an entity, which the meter agrees with: it loses a fixed amount with every
  block and gains the net fees.  What is charged over a window of blocks is bounded by what the
  bucket holds and what it loses.

  Main declaration: `meter_is_bucket`
-/

namespace Individuality.OriginRestriction

variable {T : Config} {entity : T.Entity} {tx : Transaction T} {outcome : Outcome T}
variable {s : Chain T} {action : Action T}

--
-- The Leaky Bucket
--

/- What is left after a number of blocks, down to zero. -/
def drain (recoveryPerBlock blocks level : Nat) : Nat :=
  (fun level => level - recoveryPerBlock)^[blocks] level

theorem drain_eq (recoveryPerBlock blocks level : Nat) :
    drain recoveryPerBlock blocks level = level - recoveryPerBlock * blocks := by
  unfold drain
  induction blocks generalizing level with
  | zero => rfl
  | succ blocks ih =>
    rw [Function.iterate_succ_apply, ih, Nat.mul_succ, Nat.sub_sub, Nat.add_comm]

/- The reference: a clock and the level of one bucket. -/
structure Bucket where
  blockNumber : Nat
  level : Nat

namespace Bucket

def empty : Bucket where
  blockNumber := 0
  level := 0

/- Blocks drain the bucket, an accepted transaction adds its net fee, and cleaning does nothing. -/
def step (entity : T.Entity) (b : Bucket) : Action T → Bucket
  | .advance blockNumber =>
    { blockNumber := blockNumber
      level := drain (T.allowance entity).recoveryPerBlock (blockNumber - b.blockNumber) b.level }
  | .transaction tx outcome =>
    if T.restrictedEntity tx.caller = some entity ∧
        Accepts entity b.level tx then
      { b with level := b.level + netFee tx outcome }
    else b
  | .cleanUsage _ _ => b

theorem step_of_accepts {b : Bucket} (hEntity : T.restrictedEntity tx.caller = some entity)
    (hAccepts : Accepts entity b.level tx) :
    b.step entity (.transaction tx outcome) = { b with level := b.level + netFee tx outcome } :=
  if_pos ⟨hEntity, hAccepts⟩

theorem step_of_not_accepts {b : Bucket}
    (hNot : ¬ (T.restrictedEntity tx.caller = some entity ∧ Accepts entity b.level tx)) :
    b.step entity (.transaction tx outcome) = b :=
  if_neg hNot

def play (entity : T.Entity) (b : Bucket) (actions : List (Action T)) : Bucket :=
  actions.foldl (step entity) b

end Bucket

--
-- One Step
--

/-
  The clock does not go back, fewer than 2^32 blocks pass
  between two updates, and no usage saturates.
-/
def ActionFits (entity : T.Entity) (s : Chain T) : Action T → Prop
  | .advance blockNumber =>
    s.currentBlockNumber ≤ blockNumber ∧ ∀ usage, s.usages.get entity = some usage →
        blockNumber - usage.atBlock ≤ u32Max
  | .transaction tx _ => FeeFits entity s tx
  | .cleanUsage _ _ => True

/- Every action of a sequence fits where it is performed. -/
def Sound (entity : T.Entity) (s : Chain T) : List (Action T) → Prop
  | [] => True
  | action :: actions =>
    ActionFits entity s action ∧ Sound entity (s.step action) actions

/- The meter of an entity reads what its bucket holds. -/
structure Agrees (entity : T.Entity) (s : Chain T) (b : Bucket) : Prop where
  bounded : s.Bounded entity
  clock : b.blockNumber = s.currentBlockNumber
  level : b.level = s.level entity

theorem agrees_genesis (entity : T.Entity) :
    Agrees entity (Chain.genesis T) .empty where
  bounded := by
    apply Chain.bounded_of_get_none
    exact StorageMap.get_empty entity
  clock := rfl
  level := rfl

/- A transaction is accepted by the bucket that it fits. -/
theorem perform_transaction_ok_iff (outcome : Outcome T)
    (hEntity : T.restrictedEntity tx.caller = some entity) (hBounded : s.Bounded entity)
    (hFits : FeeFits entity s tx) :
    (∃ s', s.perform (.transaction tx outcome) = .ok s') ↔ Accepts entity (s.level entity) tx := by
  constructor
  · rintro ⟨s', hPerform⟩
    have hPerform' : s.applyTransaction tx outcome = .ok s' := hPerform
    unfold Chain.applyTransaction at hPerform'
    simp only [Except.bind_eq_ok] at hPerform'
    rcases hPerform' with ⟨val, hValidate, _⟩
    exact ((validate_eq_ok_iff hEntity hBounded (hFits hEntity)).mp hValidate).1
  · intro hAccepts
    have hValidate := (validate_eq_ok_iff hEntity hBounded (hFits hEntity)).mpr ⟨hAccepts, rfl⟩
    change ∃ s', s.applyTransaction tx outcome = .ok s'
    unfold Chain.applyTransaction
    rw [hValidate, Except.ok_bind]
    exact ⟨_, rfl⟩

theorem step_of_ok {s' : Chain T} (hPerform : s.perform action = .ok s') :
    s.step action = s' := by
  unfold Chain.step
  rw [hPerform]
  rfl

theorem step_of_not_ok (hPerform : ¬ ∃ s', s.perform action = .ok s') :
    s.step action = s := by
  unfold Chain.step
  cases hResult : s.perform action with
  | error e => rfl
  | ok s' => exact absurd ⟨s', hResult⟩ hPerform

theorem Agrees.advance {b : Bucket} {blockNumber : Nat} (hAgrees : Agrees entity s b)
    (hFits : ActionFits entity s (.advance blockNumber)) :
    Agrees entity (s.step (.advance blockNumber)) (b.step entity (.advance blockNumber)) := by
  rcases hFits with ⟨hLater, hElapsed⟩
  change Agrees entity { s with currentBlockNumber := blockNumber } _
  refine ⟨?_, rfl, ?_⟩
  · intro usage hGet
    rcases hAgrees.bounded usage hGet with ⟨hUsed, hAt, _⟩
    exact ⟨hUsed, hAt.trans hLater, hElapsed usage hGet⟩
  · unfold Bucket.step
    dsimp only
    rw [drain_eq, hAgrees.level, hAgrees.clock]
    cases hGet : s.usages.get entity with
    | none =>
      rw [Chain.level_of_get_none hGet]
      rw [Chain.level_of_get_none (s := { s with currentBlockNumber := blockNumber }) hGet]
      exact Nat.zero_sub _
    | some usage =>
      have hAt := (hAgrees.bounded usage hGet).2.1
      rw [Chain.level_of_get hGet]
      rw [Chain.level_of_get (s := { s with currentBlockNumber := blockNumber }) hGet]
      dsimp only
      rw [Nat.sub_sub, ← Nat.mul_add]
      congr 2
      omega

theorem Agrees.transaction {b : Bucket} (hAgrees : Agrees entity s b)
    (hFits : FeeFits entity s tx) :
    Agrees entity (s.step (.transaction tx outcome)) (b.step entity (.transaction tx outcome)) := by
  by_cases hEntity : T.restrictedEntity tx.caller = some entity
  · by_cases hAccepts : Accepts entity (s.level entity) tx
    · rcases (perform_transaction_ok_iff outcome hEntity hAgrees.bounded hFits).mpr hAccepts with
        ⟨s', hPerform⟩
      have hLevel := level_transaction hAgrees.bounded hFits hPerform
      rw [← hAgrees.level] at hAccepts
      rw [step_of_ok hPerform, Bucket.step_of_accepts hEntity hAccepts]
      refine ⟨hLevel.2.1, ?_, ?_⟩
      · exact hAgrees.clock.trans hLevel.1.symm
      · rw [hLevel.2.2, paidBy, if_pos hEntity, ← hAgrees.level]
    · have hRefused := mt (perform_transaction_ok_iff outcome
          hEntity hAgrees.bounded hFits).mp hAccepts
      rw [← hAgrees.level] at hAccepts
      rw [step_of_not_ok hRefused, Bucket.step_of_not_accepts fun hBoth => hAccepts hBoth.2]
      exact hAgrees
  · rw [Bucket.step_of_not_accepts fun hBoth => hEntity hBoth.1]
    by_cases hOk : ∃ s', s.perform (.transaction tx outcome) = .ok s'
    · rcases hOk with ⟨s', hPerform⟩
      have hLevel := level_transaction hAgrees.bounded hFits hPerform
      rw [step_of_ok hPerform]
      rw [paidBy, if_neg hEntity] at hLevel
      exact ⟨hLevel.2.1, hAgrees.clock.trans hLevel.1.symm, hAgrees.level.trans hLevel.2.2.symm⟩
    · rw [step_of_not_ok hOk]
      exact hAgrees

theorem Agrees.cleaned {s' : Chain T} {b : Bucket} (hAgrees : Agrees entity s b)
    (hCleaned : Cleaned entity s s') :
    Agrees entity s' b :=
  ⟨hCleaned.bounded hAgrees.bounded, hAgrees.clock.trans hCleaned.1.symm,
    hAgrees.level.trans hCleaned.level.symm⟩

theorem Agrees.step {b : Bucket} (hAgrees : Agrees entity s b)
    (hFits : ActionFits entity s action) :
    Agrees entity (s.step action) (b.step entity action) := by
  cases action with
  | advance blockNumber => exact hAgrees.advance hFits
  | transaction tx outcome => exact hAgrees.transaction hFits
  | cleanUsage originNone cleaned =>
    exact hAgrees.cleaned (cleaned_of_getD (originNone, cleaned) hAgrees.bounded)

variable {actions : List (Action T)}

/- A whole sequence, by induction on its actions. -/
theorem Agrees.play {b : Bucket} (hAgrees : Agrees entity s b) (hSound : Sound entity s actions) :
    Agrees entity (s.play actions) (b.play entity actions) := by
  induction actions generalizing s b with
  | nil => exact hAgrees
  | cons action actions ih =>
    exact ih (hAgrees.step hSound.1) hSound.2

--
-- A Window of Blocks
--

namespace Chain

/- What the entity is charged for an action. -/
def charge (entity : T.Entity) (s : Chain T) : Action T → Nat
  | .transaction tx outcome =>
    if (s.applyTransaction tx outcome).toOption.isSome then
      paidBy entity tx outcome
    else 0
  | _ => 0

/- The fee of an action accepted beyond the allowance. -/
def excess (entity : T.Entity) (s : Chain T) : Action T → Nat
  | .transaction tx outcome =>
    if (s.applyTransaction tx outcome).toOption.isSome = true ∧
        T.restrictedEntity tx.caller = some entity ∧
          (T.allowance entity).max < s.level entity + tx.fee
    then tx.fee
    else 0
  | _ => 0

/- What the entity is charged over a sequence of actions. -/
def charged (entity : T.Entity) (s : Chain T) : List (Action T) → Nat
  | [] => 0
  | action :: actions =>
    s.charge entity action + charged entity (s.step action) actions

/- The largest fee accepted beyond the allowance. -/
def largestExcess (entity : T.Entity) (s : Chain T) : List (Action T) → Nat
  | [] => 0
  | action :: actions =>
    max (s.excess entity action) (largestExcess entity (s.step action) actions)

end Chain

/- The bucket that reads what the meter does. -/
def bucketOf (entity : T.Entity) (s : Chain T) : Bucket where
  blockNumber := s.currentBlockNumber
  level := s.level entity

theorem agrees_bucketOf (hBounded : s.Bounded entity) :
    Agrees entity s (bucketOf entity s) :=
  ⟨hBounded, rfl, rfl⟩

/-
  What one action charges is in the bucket or has drained,
  and with what was there before it found room.
-/
structure Charges (entity : T.Entity) (s : Chain T) (action : Action T) : Prop where
  bounded : (s.step action).Bounded entity
  later : s.currentBlockNumber ≤ (s.step action).currentBlockNumber
  held : s.level entity + s.charge entity action
      ≤ (s.step action).level entity
        + (T.allowance entity).recoveryPerBlock
          * ((s.step action).currentBlockNumber - s.currentBlockNumber)
  room : s.charge entity action = 0 ∨
      s.level entity + s.charge entity action
        ≤ max (T.allowance entity).max (s.excess entity action)

theorem charges_advance {blockNumber : Nat} (hBounded : s.Bounded entity)
    (hFits : ActionFits entity s (.advance blockNumber)) :
    Charges entity s (.advance blockNumber) := by
  have hStep := (agrees_bucketOf hBounded).advance hFits
  refine ⟨hStep.bounded, hFits.1, ?_, Or.inl rfl⟩
  have hLevel := hStep.level
  unfold Bucket.step bucketOf at hLevel
  dsimp only at hLevel
  rw [drain_eq] at hLevel
  have hClock := hStep.clock
  unfold Bucket.step bucketOf at hClock
  dsimp only at hClock
  rw [← hLevel, ← hClock]
  change s.level entity + 0 ≤ _
  omega

/- A charge was accepted, with room for the whole fee. -/
theorem charges_transaction (hBounded : s.Bounded entity) (hFits : FeeFits entity s tx) :
    Charges entity s (.transaction tx outcome) := by
  have hNet := netFee_le tx outcome
  cases hApply : s.applyTransaction tx outcome with
  | error e =>
    have hStep : s.step (.transaction tx outcome) = s := by
      apply step_of_not_ok
      rintro ⟨s', hPerform⟩
      change s.applyTransaction tx outcome = _ at hPerform
      rw [hApply] at hPerform
      nomatch hPerform
    have hCharge : s.charge entity (.transaction tx outcome) = 0 := by
      unfold Chain.charge
      dsimp only
      rw [hApply]
      rfl
    refine ⟨?_, ?_, ?_, Or.inl hCharge⟩
    · rw [hStep]
      exact hBounded
    · rw [hStep]
    · rw [hStep, hCharge]
      omega
  | ok s' =>
    have hStep : s.step (.transaction tx outcome) = s' := step_of_ok hApply
    have hCharge : s.charge entity (.transaction tx outcome) = paidBy entity tx outcome := by
      unfold Chain.charge
      dsimp only
      rw [hApply]
      rfl
    rcases level_transaction hBounded hFits hApply with ⟨hClock, hKept, hLevel⟩
    refine ⟨?_, ?_, ?_, ?_⟩
    · rw [hStep]
      exact hKept
    · rw [hStep, hClock]
    · rw [hStep, hCharge, hLevel]
      exact Nat.le_add_right _ _
    · rw [hCharge]
      unfold paidBy
      by_cases hEntity : T.restrictedEntity tx.caller = some entity
      · right
        rw [if_pos hEntity]
        have hAccepts := (perform_transaction_ok_iff outcome hEntity hBounded hFits).mp ⟨s', hApply⟩
        unfold Chain.excess
        dsimp only
        rw [hApply]
        by_cases hRoom : s.level entity + tx.fee ≤ (T.allowance entity).max
        · exact (Nat.add_le_add_left hNet _).trans (hRoom.trans (Nat.le_max_left _ _))
        · rcases hAccepts.2 with hWithin | ⟨hZero, _⟩
          · exact absurd hWithin hRoom
          · rw [if_pos ⟨rfl, hEntity, Nat.lt_of_not_le hRoom⟩]
            rw [hZero, Nat.zero_add]
            exact hNet.trans (Nat.le_max_right _ _)
      · exact Or.inl (if_neg hEntity)

theorem charges_of_fits (hBounded : s.Bounded entity) (hFits : ActionFits entity s action) :
    Charges entity s action := by
  cases action with
  | advance blockNumber => exact charges_advance hBounded hFits
  | transaction tx outcome =>
    exact charges_transaction hBounded hFits
  | cleanUsage originNone cleaned =>
    have hCleaned : Cleaned entity s (s.step (.cleanUsage originNone cleaned)) :=
      cleaned_of_getD (originNone, cleaned) hBounded
    refine ⟨hCleaned.bounded hBounded, hCleaned.1.ge, ?_, Or.inl rfl⟩
    rw [hCleaned.level]
    exact Nat.le_add_right _ _

/-
  Over a sequence: whatever was charged, with what there was
  before, is within the bound or has drained since.
-/
theorem charged_le (hBounded : s.Bounded entity) (hSound : Sound entity s actions) :
    s.currentBlockNumber ≤ (s.play actions).currentBlockNumber ∧
      (s.charged entity actions = 0 ∨ s.level entity + s.charged entity actions
          ≤ max (T.allowance entity).max (s.largestExcess entity actions)
            + (T.allowance entity).recoveryPerBlock
              * ((s.play actions).currentBlockNumber - s.currentBlockNumber)) := by
  induction actions generalizing s with
  | nil => exact ⟨le_rfl, Or.inl rfl⟩
  | cons action actions ih =>
    have hStep := charges_of_fits hBounded hSound.1
    rcases ih hStep.bounded hSound.2 with ⟨hLater, hRest⟩
    have hNow := hStep.later
    have hHeld := hStep.held
    have hRoom := hStep.room
    have hPlay : s.play (action :: actions) = (s.step action).play actions := rfl
    rw [hPlay]
    unfold Chain.charged Chain.largestExcess
    generalize ((s.step action).play actions).currentBlockNumber = later at *
    generalize (T.allowance entity).recoveryPerBlock = r at *
    have hSplit : r * (later - s.currentBlockNumber)
          = r * (later - (s.step action).currentBlockNumber)
            + r * ((s.step action).currentBlockNumber - s.currentBlockNumber) := by
      rw [← Nat.mul_add]
      congr 1
      omega
    refine ⟨hNow.trans hLater, ?_⟩
    omega

--
-- The Meter
--

/-
  After any sequence of actions the stored usage, recovered by now, is the level of the leaky
  bucket, which decides what is accepted when the extension is enabled.  What is charged over any
  further sequence is bounded by the allowance, or the largest fee in excess of it, and what
  recovers between its first and its last block.  An attempt to clean a usage changes no later
  decision.
-/
theorem meter_is_bucket (T : Config) (entity : T.Entity) (actions : List (Action T))
    (hSound : Sound entity (Chain.genesis T) actions) :
    (∀ usage, ((Chain.genesis T).play actions).usages.get entity = some usage →
        ((Chain.genesis T).play actions).recovered entity usage
          = (Bucket.empty.play entity actions).level) ∧
    (((Chain.genesis T).play actions).usages.get entity = none →
      (Bucket.empty.play entity actions).level = 0) ∧
    (∀ tx outcome, T.restrictedEntity tx.caller = some entity →
      FeeFits entity ((Chain.genesis T).play actions) tx →
        ((∃ s', ((Chain.genesis T).play actions).perform (.transaction tx outcome) = .ok s') ↔
          Accepts entity (Bucket.empty.play entity actions).level tx)) ∧
    (∀ window, Sound entity ((Chain.genesis T).play actions) window →
        ((Chain.genesis T).play actions).charged entity window ≤ max (T.allowance entity).max
              (((Chain.genesis T).play actions).largestExcess entity window)
            + (T.allowance entity).recoveryPerBlock
              * ((((Chain.genesis T).play actions).play window).currentBlockNumber
                  - ((Chain.genesis T).play actions).currentBlockNumber)) ∧
    ∀ originNone cleaned later tx outcome, Sound entity ((Chain.genesis T).play actions) later →
      Sound entity (((Chain.genesis T).play actions).step (.cleanUsage originNone cleaned)) later →
      T.restrictedEntity tx.caller = some entity →
      FeeFits entity (((Chain.genesis T).play actions).play later) tx →
        ((∃ s', (((Chain.genesis T).play actions).play later).perform (.transaction tx outcome)
            = .ok s') ↔
          ∃ s', ((((Chain.genesis T).play actions).step (.cleanUsage originNone cleaned)).play
                later).perform (.transaction tx outcome)
            = .ok s') := by
  have hAgrees := (agrees_genesis entity).play hSound
  generalize (Chain.genesis T).play actions = s at *
  generalize Bucket.empty.play entity actions = b at *
  refine ⟨?_, ?_, ?_, ?_, ?_⟩
  · intro usage hGet
    rw [Chain.recovered_eq_level hAgrees.bounded hGet, hAgrees.level]
  · intro hNone
    rw [hAgrees.level, Chain.level_of_get_none hNone]
  · intro tx outcome hEntity hFits
    rw [hAgrees.level]
    exact perform_transaction_ok_iff outcome hEntity hAgrees.bounded hFits
  · intro window hWindow
    rcases (charged_le hAgrees.bounded hWindow).2 with
      hNone | hLe
    · rw [hNone]
      exact Nat.zero_le _
    · exact (Nat.le_add_left _ _).trans hLe
  · intro originNone cleaned later tx outcome hLater hLater' hEntity hFits
    have hClean : Agrees entity (s.step (.cleanUsage originNone cleaned)) b := hAgrees.cleaned
        (cleaned_of_getD (originNone, cleaned) hAgrees.bounded)
    have hKept := hAgrees.play hLater
    have hGone := hClean.play hLater'
    have hFits' : FeeFits entity ((s.step (.cleanUsage originNone cleaned)).play later) tx := by
      intro hCaller
      rw [← hGone.level, hKept.level]
      exact hFits hCaller
    rw [perform_transaction_ok_iff outcome hEntity hKept.bounded hFits,
      perform_transaction_ok_iff outcome hEntity hGone.bounded hFits',
      ← hKept.level, ← hGone.level]

--
-- A Metered Entity
--

/- One entity, ten units, one of them recovered per block. -/
def sampleConfig : Config where
  Caller := Bool
  RuntimeCall := Bool
  Entity := Unit
  balanceMax := 1000
  restrictedEntity := fun caller =>
    if caller then some () else none
  allowance := fun _ => { max := 10, recoveryPerBlock := 1 }
  operationAllowedOneTimeExcess := fun _ call => call
  weightToFee := (·.refTime)
  lengthToFee := (·.refTime)

def sampleTransaction (call : Bool) (weight : Nat) : Transaction sampleConfig where
  enabled := true
  caller := true
  call := call
  totalWeight := { refTime := weight, proofSize := 0 }
  len := 1

/- The call pays its fee, and asks to clean the usage too. -/
def samplePaid : Outcome sampleConfig where
  cleans := [(false, ())]
  failed := false
  actualWeight := none
  paysFee := .yes

/- An excess fee of 20, which three blocks and an attempt to clean do not make room after. -/
def sampleActions : List (Action sampleConfig) :=
  [.transaction (sampleTransaction true 19) samplePaid, .advance 3, .cleanUsage false ()]

instance (s : Chain sampleConfig) (tx : Transaction sampleConfig) :
    Decidable (FeeFits () s tx) := by
  unfold FeeFits
  infer_instance

theorem meter_is_bucket_sample :
    Sound () (Chain.genesis sampleConfig) sampleActions ∧
      (Bucket.empty.play () sampleActions).level = 17 ∧
        ¬ ∃ s', ((Chain.genesis sampleConfig).play sampleActions).perform
            (.transaction (sampleTransaction false 0) samplePaid) = .ok s' := by
  have hSound : Sound () (Chain.genesis sampleConfig) sampleActions := by
    have hFirst : FeeFits () (Chain.genesis sampleConfig) (sampleTransaction true 19) := by
      decide +kernel
    refine ⟨hFirst, ⟨by decide, ?_⟩, trivial, trivial⟩
    intro usage hGet
    exact (Nat.sub_le _ _).trans (by decide)
  have hFits : FeeFits () ((Chain.genesis sampleConfig).play sampleActions)
        (sampleTransaction false 0) := by
    decide +kernel
  refine ⟨hSound, by decide +kernel, ?_⟩
  rw [(meter_is_bucket sampleConfig () sampleActions hSound).2.2.1 _ _ rfl hFits]
  unfold Accepts
  decide +kernel

end Individuality.OriginRestriction
