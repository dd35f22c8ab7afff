import Individuality.MembersPallet.Types
import Individuality.Base.Runs

/-
  The honour pallet: voters direct their points to subjects, and the tally of a subject counts the
  points it holds.  A vote is authorized by a ring proof that reveals an alias of the subject and an
  alias of the point.

  Main declaration: `VoteData.getContexts`
-/

namespace Individuality.Honour

--
-- Votes and Points
--

abbrev Bytes32 := Vector UInt8 32

abbrev SubjectId := Bytes32

abbrev SubjectAlias := Bytes32

abbrev PointId := UInt8

abbrev PointAlias := Bytes32

def i32Min : Int := -2147483648

def i32Max : Int := 2147483647

/- `i32::saturating_add`. -/
def saturatingAddI32 (a b : Int) : Int :=
  max i32Min (min i32Max (a + b))

theorem saturatingAddI32_of_fits {a b : Int} (hLow : i32Min ≤ a + b) (hHigh : a + b ≤ i32Max) :
    saturatingAddI32 a b = a + b := by
  unfold saturatingAddI32
  omega

inductive Direction where
  | honourable
  | dishonourable
  deriving DecidableEq, Repr

namespace Direction

def score : Direction → Int
  | honourable => 1
  | dishonourable => -1

def opposite : Direction → Direction
  | honourable => dishonourable
  | dishonourable => honourable

@[simp] theorem score_opposite (d : Direction) : d.opposite.score = -d.score := by
  cases d <;> rfl

end Direction

structure PointInfo where
  subject : SubjectId
  subjectAlias : SubjectAlias
  direction : Direction
  lastUsedAt : Nat
  deriving DecidableEq

structure VoteData where
  subject : SubjectId
  point : PointId
  direction : Direction
  deriving DecidableEq

structure VoteAliases where
  subjectAlias : SubjectAlias
  pointAlias : PointAlias
  deriving DecidableEq

/- The default score of a subject, which offsets self-votes. -/
def subjectDefaultScore : Int := -1

--
-- Configuration
--

structure ContextualAlias where
  memberAlias : Alias
  context : Context
  deriving DecidableEq

/-
  What the pallet is configured with: the prover of the ring membership, over the rings as they
  stand, two hashes, and two durations.  The last field is `integrity_test`.
-/
structure Config where
  Rings : Type
  Proof : Type
  Implication : Type
  [decEqProof : DecidableEq Proof]
  verifyMembershipMultiContext :
    Rings → Identifier → Proof → RingIndex → RevisionIndex →
      List Context → Bytes32 → Option (List ContextualAlias)
  twox256 : List UInt8 → Bytes32
  blake2_256 : Implication → Bytes32
  pointFreezeDuration : Nat
  callMortality : Nat
  integrity_test : callMortality ≤ saturatingMul u64Max pointFreezeDuration 2

attribute [instance] Config.decEqProof

/- `PEOPLE_IDENTIFIER`. -/
def peopleIdentifier : Identifier :=
  ⟨"pop:polkadot.network/people     ".toUTF8.data,
    by decide +kernel⟩

section Contexts

variable (T : Config)

/- Canonical context of a point. -/
def pointContext (point : PointId) : Context :=
  T.twox256
    ("pop:polkadot.network/honour/point:".toUTF8.toList
      ++ [point])

/- Canonical context of a subject. -/
def subjectContext (subject : SubjectId) : Context :=
  T.twox256
    ("pop:polkadot.network/honour/subject:".toUTF8.toList
      ++ subject.toList)

def VoteData.getContexts (vote : VoteData) : List Context :=
  [subjectContext T vote.subject, pointContext T vote.point]

end Contexts

--
-- Storage
--

structure HonourState where
  points : StorageMap PointAlias PointInfo
  votes : StorageMap SubjectAlias Unit
  tally : StorageMap SubjectId Int

inductive Error where
  | subjectAlreadyVoted
  | invalidProof
  deriving DecidableEq, Repr

inductive InvalidTransaction where
  | badSigner
  | call
  | future
  | stale
  | badProof
  deriving DecidableEq, Repr

inductive Failure where
  | error (e : Error)
  | badOrigin
  | invalid (reason : InvalidTransaction)
  deriving DecidableEq, Repr

namespace HonourState

def empty : HonourState where
  points := .empty
  votes := .empty
  tally := .empty

/- The honour score of a subject. -/
def read (s : HonourState) (subject : SubjectId) : Int :=
  s.tally.getD subject subjectDefaultScore

/- Amend the tally of a subject. -/
def amendTally (s : HonourState) (subject : SubjectId) (direction : Direction) : HonourState :=
  let newValue := saturatingAddI32 (s.read subject) direction.score
  if newValue = subjectDefaultScore then
    { s with tally := s.tally.remove subject }
  else
    { s with tally := s.tally.insert subject newValue }

/- Take a point back from the subject that holds it. -/
def takePoint (s : HonourState) (pointAlias : PointAlias) : HonourState :=
  match s.points.get pointAlias with
  | some oldPointInfo =>
    { s with
      points := s.points.remove pointAlias
      votes := s.votes.remove oldPointInfo.subjectAlias
      }.amendTally oldPointInfo.subject oldPointInfo.direction.opposite
  | none => s

def doBestow (s : HonourState) (now : Nat) (vote : VoteData)
    (aliases : VoteAliases) : Except Failure HonourState := do
  let s := s.takePoint aliases.pointAlias
  ensure (s.votes.containsKey aliases.subjectAlias = false) (Failure.error .subjectAlreadyVoted)
  return { s with
    votes := s.votes.insert aliases.subjectAlias ()
    points := s.points.insert aliases.pointAlias
        { subject := vote.subject
          subjectAlias := aliases.subjectAlias
          direction := vote.direction
          lastUsedAt := now }
    }.amendTally vote.subject vote.direction

/- The point was used within the last freeze period. -/
def isPointFrozen (T : Config) (s : HonourState) (pointAlias : PointAlias) (now : Nat) : Bool :=
  match s.points.get pointAlias with
  | some point =>
    now < saturatingAdd u64Max point.lastUsedAt T.pointFreezeDuration
  | none => false

end HonourState

--
-- Transactions
--

section Transactions

variable (T : Config)

structure VoterAuthData where
  proof : T.Proof
  ringIndex : RingIndex
  revision : RevisionIndex

inductive Call where
  | bestow (vote : VoteData) (callValidFrom : Nat)
  | other

/- The origin of a call before and after the extension. -/
inductive Origin where
  | none
  | authorized
  | voter (aliases : VoteAliases)
  deriving DecidableEq

/-
  A transaction as it reaches the extension: whether another extension authorized its origin, its
  call, the data for the extension, and what the extensions after it and the call encode to.
-/
structure Transaction where
  authorized : Bool
  call : Call
  auth : Option (VoterAuthData T)
  inheritedImplication : T.Implication

/- The clock, the rings of the members and the pallet. -/
structure Chain where
  now : Nat
  rings : T.Rings
  honour : HonourState

end Transactions

namespace Chain

variable {T : Config}

def validateVoteProof (s : Chain T) (vote : VoteData) (message : Bytes32)
    (auth : VoterAuthData T) : Except Error VoteAliases :=
  match T.verifyMembershipMultiContext s.rings
      peopleIdentifier auth.proof auth.ringIndex
      auth.revision (vote.getContexts T) message with
  | some [subject, point] => do
    ensure ([subject.context, point.context] = vote.getContexts T) Error.invalidProof
    return {
      subjectAlias := subject.memberAlias
      pointAlias := point.memberAlias }
  | _ => .error .invalidProof

/- The checks of the extension on a `bestow` call. -/
def validateBestow (s : Chain T) (vote : VoteData) (callValidFrom : Nat) (auth : VoterAuthData T)
    (inheritedImplication : T.Implication) :
    Except Failure Origin := do
  ensure (callValidFrom ≤ s.now) (Failure.invalid .future)
  ensure (s.now < saturatingAdd u64Max callValidFrom T.callMortality) (Failure.invalid .stale)
  let aliases ← okOr (s.validateVoteProof vote (T.blake2_256 inheritedImplication) auth).toOption
      (Failure.invalid .badProof)
  ensure (s.honour.isPointFrozen T aliases.pointAlias s.now = false) (Failure.invalid .future)
  ensure (s.honour.votes.containsKey aliases.subjectAlias = false) (Failure.invalid .stale)
  return .voter aliases

/- `VoterAuth::validate`. -/
def validate (s : Chain T) (tx : Transaction T) : Except Failure Origin :=
  match tx.auth with
  | none => .ok (if tx.authorized then .authorized else .none)
  | some auth => do
    ensure (tx.authorized = false) (Failure.invalid .badSigner)
    match tx.call with
    | .bestow vote callValidFrom =>
      s.validateBestow vote callValidFrom auth tx.inheritedImplication
    | .other => .error (Failure.invalid .call)

/- A failed call is rolled back. -/
def dispatch (s : Chain T) (origin : Origin) (call : Call) : Except Failure (Chain T) :=
  match call, origin with
  | .bestow vote _, .voter aliases => do
    let honour ← s.honour.doBestow s.now vote aliases
    return { s with honour := honour }
  | .bestow _ _, _ => .error .badOrigin
  | .other, _ => .ok s

def applyTransaction (s : Chain T) (tx : Transaction T) : Except Failure (Chain T) := do
  let origin ← s.validate tx
  s.dispatch origin tx.call

def genesis (rings : T.Rings) : Chain T where
  now := 0
  rings := rings
  honour := .empty

end Chain

/- What happens on the chain: time passes, the rings change, or a transaction is applied. -/
inductive Action (T : Config) where
  | advance (now : Nat)
  | changeRings (rings : T.Rings)
  | submit (tx : Transaction T)

def Chain.perform {T : Config} (s : Chain T) : Action T → Except Failure (Chain T)
  | .advance now => .ok { s with now := now }
  | .changeRings rings => .ok { s with rings := rings }
  | .submit tx => s.applyTransaction tx

end Individuality.Honour
