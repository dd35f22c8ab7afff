import Individuality.Base.Storage
import Individuality.Base.Fallible
import Mathlib.Data.Finset.Basic

/-
  The registry of people: personal ids, the keys they belong
  to and the periods in which each person was recognized.

  Main declaration: `RecognitionPeriod`
-/

namespace Individuality.PeopleMulti

--
-- Recognition Periods
--

/- A closed period of recognition, in seconds. -/
structure RecognitionPeriod where
  start : Nat
  finish : Nat
  deriving DecidableEq, Repr

def RecognitionPeriod.durationSecs (period : RecognitionPeriod) : Nat :=
  period.finish - period.start

/- How many closed periods are kept one by one. -/
def maxRecognitionPeriods : Nat := 8

structure RecognitionHistory where
  recognizedSince : Option Nat := none
  periods : BoundedVec RecognitionPeriod maxRecognitionPeriods := .empty
  settled : Nat := 0

namespace RecognitionHistory

/- A history with one period open since `now`. -/
def openSince (now : Nat) : RecognitionHistory where
  recognizedSince := some now

def isOpen (history : RecognitionHistory) : Bool :=
  history.recognizedSince.isSome

/- Fails with the start of the period that is already open. -/
def openPeriod (history : RecognitionHistory) (now : Nat) : Except Nat RecognitionHistory :=
  match history.recognizedSince with
  | some since => .error since
  | none => .ok { history with recognizedSince := some now }

private theorem length_tail_concat_le (periods : BoundedVec RecognitionPeriod maxRecognitionPeriods)
    (period : RecognitionPeriod) :
    (periods.toList.tail ++ [period]).length ≤ maxRecognitionPeriods := by
  have hLe := periods.length_le
  rw [List.length_append, List.length_tail, List.length_singleton]
  unfold maxRecognitionPeriods at *
  omega

/- Append a closed period.  From a full list the oldest one leaves, and its length is settled. -/
def insertPeriod (history : RecognitionHistory) (period : RecognitionPeriod) : RecognitionHistory :=
  match history.periods.tryPush period with
  | some periods => { history with periods := periods }
  | none =>
    { history with
      periods := ⟨history.periods.toList.tail ++ [period],
          length_tail_concat_le history.periods period⟩
      settled := saturatingAdd u64Max history.settled (history.periods.toList.head?.elim 0
          RecognitionPeriod.durationSecs) }

/- Close the open period at `now`, if there is one. -/
def closePeriod (history : RecognitionHistory) (now : Nat) :
    Option (RecognitionPeriod × RecognitionHistory) :=
  match history.recognizedSince with
  | none => none
  | some start =>
    let period : RecognitionPeriod := { start := start, finish := max now start }
    some (period, ({ history with recognizedSince := none } :
        RecognitionHistory).insertPeriod period)

@[simp] theorem isOpen_openSince (now : Nat) : (openSince now).isOpen = true := rfl

theorem openPeriod_eq_ok_iff {history history' : RecognitionHistory} {now : Nat} :
    history.openPeriod now = .ok history' ↔ history.isOpen = false ∧ history' =
        { history with recognizedSince := some now } := by
  unfold openPeriod isOpen
  cases history.recognizedSince with
  | none => simp [eq_comm]
  | some since => simp

theorem isOpen_of_openPeriod {history history' : RecognitionHistory} {now : Nat}
    (hOpen : history.openPeriod now = .ok history') :
    history'.isOpen = true := by
  rw [(openPeriod_eq_ok_iff.mp hOpen).2]
  rfl

@[simp] theorem isOpen_insertPeriod (history : RecognitionHistory) (period : RecognitionPeriod) :
    (history.insertPeriod period).isOpen = history.isOpen := by
  unfold insertPeriod
  cases history.periods.tryPush period <;> rfl

theorem isOpen_of_closePeriod {history history' : RecognitionHistory} {now : Nat}
    {period : RecognitionPeriod} (hClose : history.closePeriod now = some (period, history')) :
    history'.isOpen = false := by
  unfold closePeriod at hClose
  cases hSince : history.recognizedSince with
  | none => simp [hSince] at hClose
  | some start =>
    simp only [hSince, Option.some.injEq, Prod.mk.injEq] at hClose
    rw [← hClose.2, isOpen_insertPeriod]
    rfl

end RecognitionHistory

--
-- Storage
--

/- The record of a person, recognized or suspended. -/
structure PersonRecord (M A : Type) where
  key : M
  account : Option A
  history : RecognitionHistory

/-
  The storage of the pallet without the aliases.  The sufficient references of accounts are those
  the system pallet counts.
-/
structure PeopleState (M A : Type) where
  keys : StorageMap M Nat
  people : StorageMap Nat (PersonRecord M A)
  accountToPersonalId : StorageMap A Nat
  nextPersonalId : Nat
  reservedPersonalId : Finset Nat
  sufficients : StorageMap A Nat

def PeopleState.genesis {M A : Type} : PeopleState M A where
  keys := .empty
  people := .empty
  accountToPersonalId := .empty
  nextPersonalId := 0
  reservedPersonalId := ∅
  sufficients := .empty

inductive Error where
  | notPerson
  | noKey
  | accountInUse
  | invalidAccount
  | keyAlreadyInUse
  | personalIdNotReserved
  | personalIdReservationCannotRenew
  | personalIdNotReservedOrNotRecognized
  | timeOutOfRange
  | notSuspended
  | suspended
  | duplicateSuspension
  | memberService
  deriving DecidableEq, Repr

/-
  What a call reads of the rest of the chain.  The member service accepts or refuses, and
  `accountToAlias` tells which accounts stand for an alias.
-/
structure Chain (M A : Type) where
  now : Nat
  block : Nat
  addMembers : List M → Bool
  removeMembers : List M → Bool
  startRemovalSession : Bool
  endRemovalSession : Bool
  activeCount : Nat
  accountToAlias : A → Bool

end Individuality.PeopleMulti
