import Individuality.Base.Fallible
import Individuality.Base.Storage

/-
  The origin-restriction pallet: the fees of an entity's transactions are metered, and its usage
  recovers with every block.  The meter is updated around the dispatch of a transaction, and anyone
  may clean a usage that is zero.

  Main declaration: `Chain.cleanUsage`
-/

namespace Individuality.OriginRestriction

--
-- Configuration
--

structure Weight where
  refTime : Nat
  proofSize : Nat
  deriving DecidableEq

/- The allowance for an entity. -/
structure Allowance where
  max : Nat
  recoveryPerBlock : Nat

/-
  The entities that origins belong to, the allowance of each, the calls it may make in excess of it,
  and what a weight and a length cost.
-/
structure Config where
  Caller : Type
  RuntimeCall : Type
  Entity : Type
  [decEqEntity : DecidableEq Entity]
  balanceMax : Nat
  restrictedEntity : Caller → Option Entity
  allowance : Entity → Allowance
  operationAllowedOneTimeExcess : Entity → RuntimeCall → Bool
  weightToFee : Weight → Nat
  lengthToFee : Weight → Nat

attribute [instance] Config.decEqEntity

def extrinsicFee (T : Config) (weight : Weight) (length : Nat) : Nat :=
  saturatingAdd T.balanceMax (T.weightToFee weight)
    (T.lengthToFee { refTime := length, proofSize := 0 })

--
-- Usages
--

/- What an entity has used at the block of the last update. -/
structure Usage where
  used : Nat
  atBlock : Nat
  deriving DecidableEq

structure Chain (T : Config) where
  currentBlockNumber : Nat
  usages : StorageMap T.Entity Usage

inductive Failure where
  | badOrigin
  | noUsage
  | notZero
  | call
  | payment
  deriving DecidableEq, Repr

inductive Pays where
  | yes
  | no
  deriving DecidableEq, Repr

/- A transaction, with the flag of the extension it carries. -/
structure Transaction (T : Config) where
  enabled : Bool
  caller : T.Caller
  call : T.RuntimeCall
  totalWeight : Weight
  len : Nat

/-
  What a call came to: the usages it asked to clean, each by an origin that may be `None`, whether
  it failed and was rolled back, and the weight and fee it reports.
-/
structure Outcome (T : Config) where
  cleans : List (Bool × T.Entity)
  failed : Bool
  actualWeight : Option Weight
  paysFee : Pays

inductive Val (T : Config) where
  | charge (fee : Nat) (entity : T.Entity) (usage : Usage)
  | noCharge

inductive Pre (T : Config) where
  | charge (fee : Nat) (entity : T.Entity)
  | noCharge

namespace Chain

variable {T : Config}

/- The usage with what was received back by now taken off. -/
def recovered (s : Chain T) (entity : T.Entity) (usage : Usage) : Nat :=
  let elapsed := min (s.currentBlockNumber - usage.atBlock) u32Max
  let receiveBack := saturatingMul T.balanceMax (T.allowance entity).recoveryPerBlock elapsed
  usage.used - receiveBack

/- A usage that is taken and not zero is put back. -/
def cleanUsage (s : Chain T) (originNone : Bool)
    (entity : T.Entity) : Except Failure (Chain T) := do
  ensure (originNone = false) Failure.badOrigin
  let usage ← okOr (s.usages.get entity) Failure.noUsage
  ensure (s.recovered entity usage = 0) Failure.notZero
  return { s with usages := s.usages.remove entity }

/- The usage of an entity as of the current block. -/
def currentUsage (s : Chain T) (entity : T.Entity) : Usage :=
  match s.usages.get entity with
  | some usage =>
    { used := s.recovered entity usage
      atBlock := s.currentBlockNumber }
  | none => { used := 0, atBlock := s.currentBlockNumber }

def validate (s : Chain T) (tx : Transaction T) : Except Failure (Val T) :=
  match T.restrictedEntity tx.caller with
  | none => .ok .noCharge
  | some entity => do
    ensure (tx.enabled = true) Failure.call
    let usage := s.currentUsage entity
    let fee := extrinsicFee T tx.totalWeight tx.len
    let used := saturatingAdd T.balanceMax usage.used fee
    ensure (used ≤ (T.allowance entity).max ∨
        usage.used = 0 ∧ T.operationAllowedOneTimeExcess entity tx.call = true)
      Failure.payment
    return .charge fee entity { usage with used := used }

/- The usage of `validate` overwrites the stored one. -/
def prepare (s : Chain T) : Val T → Chain T × Pre T
  | .charge fee entity usage =>
    ({ s with usages := s.usages.insert entity usage }, .charge fee entity)
  | .noCharge => (s, .noCharge)

/- Clean usages one by one; what fails changes nothing. -/
def cleanAll (s : Chain T) (cleans : List (Bool × T.Entity)) : Chain T :=
  cleans.foldl (fun s clean => (s.cleanUsage clean.1 clean.2).toOption.getD s) s

def dispatch (s : Chain T) (outcome : Outcome T) : Chain T :=
  if outcome.failed then s else s.cleanAll outcome.cleans

/- What is left of a usage after the refund. -/
def settle (outcome : Outcome T) (len fee : Nat) (used : Nat) : Nat :=
  if outcome.paysFee = .no then used - fee
  else
    match outcome.actualWeight with
    | some actualWeight =>
      used - (fee - extrinsicFee T actualWeight len)
    | none => used

def postDispatchDetails (s : Chain T) (outcome : Outcome T) (len : Nat) : Pre T → Chain T
  | .charge fee entity =>
    match s.usages.get entity with
    | some usage =>
      let used := settle outcome len fee usage.used
      if used = 0 then
        { s with usages := s.usages.remove entity }
      else
        { s with
          usages := s.usages.insert entity { usage with used := used } }
    | none => s
  | .noCharge => s

def applyTransaction (s : Chain T) (tx : Transaction T)
    (outcome : Outcome T) : Except Failure (Chain T) := do
  let val ← s.validate tx
  let (s, pre) := s.prepare val
  let s := s.dispatch outcome
  return s.postDispatchDetails outcome tx.len pre

def genesis (T : Config) : Chain T where
  currentBlockNumber := 0
  usages := .empty

end Chain

/-
  What happens on the chain: blocks pass, a transaction is
  applied, or `clean_usage` is called outside of one.
-/
inductive Action (T : Config) where
  | advance (blockNumber : Nat)
  | transaction (tx : Transaction T) (outcome : Outcome T)
  | cleanUsage (originNone : Bool) (entity : T.Entity)

namespace Chain

variable {T : Config}

def perform (s : Chain T) : Action T → Except Failure (Chain T)
  | .advance blockNumber =>
    .ok { s with currentBlockNumber := blockNumber }
  | .transaction tx outcome => s.applyTransaction tx outcome
  | .cleanUsage originNone entity =>
    s.cleanUsage originNone entity

/- What is refused changes nothing. -/
def step (s : Chain T) (action : Action T) : Chain T :=
  (s.perform action).toOption.getD s

/- The chain after a sequence of actions. -/
def play (s : Chain T) (actions : List (Action T)) : Chain T :=
  actions.foldl step s

end Chain

end Individuality.OriginRestriction
