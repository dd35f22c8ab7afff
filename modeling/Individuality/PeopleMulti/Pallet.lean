import Individuality.PeopleMulti.Types

/-
  Reserving personal ids, recognizing people and suspending them.

  Main declaration: `PeopleState.reserveNewId`
-/

namespace Individuality.PeopleMulti.PeopleState

variable {M A : Type} [DecidableEq M] [DecidableEq A] {who : Nat} {suspensions : List Nat} {key : M}

--
-- References of Accounts
--

def incSufficients (s : PeopleState M A) (account : A) : PeopleState M A :=
  { s with
    sufficients := s.sufficients.insert account
        (saturatingAdd u32Max (s.sufficients.getD account 0) 1) }

/- An account without references stays without them. -/
def decSufficients (s : PeopleState M A) (account : A) : PeopleState M A :=
  { s with
    sufficients := s.sufficients.insert account (s.sufficients.getD account 0 - 1) }

--
-- Reservations
--

/- The counter of ids stops at the largest id. -/
def reserveNewId (s : PeopleState M A) : Nat × PeopleState M A :=
  let newId := s.nextPersonalId
  (newId,
    { s with
      nextPersonalId := saturatingAdd u64Max newId 1
      reservedPersonalId := insert newId s.reservedPersonalId })

def cancelIdReservation (s : PeopleState M A)
    (personalId : Nat) : Except Error (PeopleState M A) := do
  ensure (personalId ∈ s.reservedPersonalId) Error.personalIdNotReserved
  return { s with
    reservedPersonalId := s.reservedPersonalId.erase personalId }

def renewIdReservation (s : PeopleState M A)
    (personalId : Nat) : Except Error (PeopleState M A) := do
  ensure (¬(s.nextPersonalId ≤ personalId ∨ s.people.containsKey personalId
      ∨ personalId ∈ s.reservedPersonalId))
    Error.personalIdReservationCannotRenew
  return { s with
    reservedPersonalId := insert personalId s.reservedPersonalId }

--
-- Recognition
--

/-
  With a key, recognize a new person under a reserved id.
  Without one, resume the personhood of a suspended person.
-/
def recognizePersonhood (chain : Chain M A) (s : PeopleState M A) (who : Nat) :
    Option M → Except Error (PeopleState M A)
  | some key => do
    ensure (¬s.keys.containsKey key) Error.keyAlreadyInUse
    ensure (who ∈ s.reservedPersonalId) Error.personalIdNotReservedOrNotRecognized
    ensure (chain.addMembers [key]) Error.memberService
    let record : PersonRecord M A :=
      { key := key
        account := none
        history := .openSince chain.now }
    return { s with
      reservedPersonalId := s.reservedPersonalId.erase who
      keys := s.keys.insert key who
      people := s.people.insert who record }
  | none => do
    let record ← okOr (s.people.get who) Error.notPerson
    ensure (s.keys.get record.key = some who) Error.noKey
    let history ← (record.history.openPeriod chain.now).mapError fun _ => Error.notSuspended
    ensure (chain.addMembers [record.key]) Error.memberService
    return { s with
      people := s.people.insert who { record with history := history } }

/- Close the period of one more person.  The ids met before and their records are carried along. -/
def closeRecord (chain : Chain M A) (s : PeopleState M A) (records : List (Nat × PersonRecord M A))
    (personalId : Nat) :
    Except Error (List (Nat × PersonRecord M A)) := do
  ensure (personalId ∉ records.map Prod.fst) Error.duplicateSuspension
  let record ← okOr (s.people.get personalId) Error.notPerson
  let closed ← okOr (record.history.closePeriod chain.now) Error.suspended
  return ( records ++ [(personalId, { record with history := closed.2 })])

/- Store a suspended person, without a privileged account. -/
def storeSuspended (s : PeopleState M A) (entry : Nat × PersonRecord M A) : PeopleState M A :=
  match entry.2.account with
  | some account =>
    let cleared : PeopleState M A :=
      { s with
        accountToPersonalId := s.accountToPersonalId.remove account }
    { cleared.decSufficients account with
      people := s.people.insert entry.1 { entry.2 with account := none } }
  | none =>
    { s with people := s.people.insert entry.1 entry.2 }

def suspendPersonhood (chain : Chain M A) (s : PeopleState M A)
    (suspensions : List Nat) : Except Error (PeopleState M A) := do
  let records ← suspensions.foldlM (closeRecord chain s) []
  ensure (chain.removeMembers (records.map fun e => e.2.key)) Error.memberService
  return records.foldl storeSuspended s

def startPeopleSetMutationSession (chain : Chain M A) : Except Error Unit :=
  ensure chain.startRemovalSession Error.memberService

def endPeopleSetMutationSession (chain : Chain M A) : Except Error Unit :=
  ensure chain.endRemovalSession Error.memberService

--
-- Calls
--

def forceRecognizePersonhood (chain : Chain M A) (s : PeopleState M A)
    (people : List M) : Except Error (PeopleState M A) :=
  people.foldlM (fun s key =>
      s.reserveNewId.2.recognizePersonhood chain s.reserveNewId.1 (some key))
    s

def accountSetupTimeTolerance : Nat := 600

/- Clear the account that the record of a person names. -/
def clearAccount (s : PeopleState M A) (record : PersonRecord M A) : PeopleState M A :=
  match record.account with
  | some oldAccount =>
    let dropped := s.decSufficients oldAccount
    { dropped with
      accountToPersonalId := dropped.accountToPersonalId.remove oldAccount }
  | none => s

def setPersonalIdAccount (chain : Chain M A) (s : PeopleState M A) (id : Nat) (account : A)
    (callValidAt : Nat) : Except Error (PeopleState M A) := do
  ensure (callValidAt ≤ chain.block ∧ chain.block ≤ saturatingAdd u32Max callValidAt
            accountSetupTimeTolerance)
    Error.timeOutOfRange
  ensure (¬s.accountToPersonalId.containsKey account) Error.accountInUse
  ensure (¬chain.accountToAlias account) Error.accountInUse
  let record ← okOr (s.people.get id) Error.notPerson
  let raised := (s.clearAccount record).incSufficients account
  return { raised with
    accountToPersonalId := raised.accountToPersonalId.insert account id
    people := raised.people.insert id { record with account := some account } }

def unsetPersonalIdAccount (s : PeopleState M A) (id : Nat) : Except Error (PeopleState M A) := do
  let record ← okOr (s.people.get id) Error.notPerson
  let account ← okOr record.account Error.invalidAccount
  ensure (s.accountToPersonalId.containsKey account) Error.invalidAccount
  let cleared := s.clearAccount record
  return { cleared with
    people := cleared.people.insert id { record with account := none } }

--
-- What the Operations Leave Alone
--

/- Whether a personal id belongs to a person, and whether the last period of that person is open. -/
def recognized (s : PeopleState M A) (id : Nat) : Option Bool :=
  (s.people.get id).map fun record => record.history.isOpen

section Frame

omit [DecidableEq M]

@[simp] theorem recognized_incSufficients (s : PeopleState M A) (account : A) :
    (s.incSufficients account).recognized = s.recognized := rfl

@[simp] theorem recognized_decSufficients (s : PeopleState M A) (account : A) :
    (s.decSufficients account).recognized = s.recognized := rfl

omit [DecidableEq A] in
/- Writing the record of one person. -/
theorem recognized_insert {s s' : PeopleState M A} {record : PersonRecord M A}
    (hPeople : s'.people = s.people.insert who record) (id : Nat) :
    s'.recognized id =
      if id = who then some record.history.isOpen
      else s.recognized id := by
  unfold recognized
  rw [hPeople, StorageMap.get_insert]
  by_cases h : id = who <;> simp [h]

/- Storing a suspended person changes nothing of the ids. -/
theorem storeSuspended_ids (s : PeopleState M A) (entry : Nat × PersonRecord M A) :
    (s.storeSuspended entry).nextPersonalId = s.nextPersonalId
      ∧ (s.storeSuspended entry).reservedPersonalId = s.reservedPersonalId := by
  unfold storeSuspended
  cases entry.2.account <;> exact ⟨rfl, rfl⟩

theorem people_storeSuspended (s : PeopleState M A) (entry : Nat × PersonRecord M A) :
    (s.storeSuspended entry).people = s.people.insert entry.1 { entry.2 with account := none } := by
  unfold storeSuspended
  cases hAccount : entry.2.account with
  | some account => rfl
  | none =>
    rcases entry with ⟨id, ⟨key, account, history⟩⟩
    simp only at hAccount
    subst hAccount
    rfl

theorem clearAccount_same (s : PeopleState M A) (record : PersonRecord M A) :
    (s.clearAccount record).people = s.people
      ∧ (s.clearAccount record).nextPersonalId = s.nextPersonalId
      ∧ (s.clearAccount record).reservedPersonalId = s.reservedPersonalId := by
  unfold clearAccount
  cases record.account <;> exact ⟨rfl, rfl, rfl⟩

--
-- Suspensions
--

/- The suspended records overwrite those of their ids. -/
theorem foldl_storeSuspended (records : List (Nat × PersonRecord M A)) (s : PeopleState M A)
    (hClosed : ∀ e ∈ records, e.2.history.isOpen = false) :
    (records.foldl storeSuspended s).nextPersonalId = s.nextPersonalId
      ∧ (records.foldl storeSuspended s).reservedPersonalId = s.reservedPersonalId
      ∧ ∀ id, (records.foldl storeSuspended s).recognized id =
          if id ∈ records.map Prod.fst then some false
          else s.recognized id := by
  induction records generalizing s with
  | nil => simp
  | cons e records ih =>
    have hHead := hClosed e (List.mem_cons_self ..)
    have hRest := ih (s.storeSuspended e) fun e' hMem =>
        hClosed e' (List.mem_cons_of_mem _ hMem)
    rcases s.storeSuspended_ids e with ⟨hNext, hReserved⟩
    rw [List.foldl_cons]
    refine ⟨hRest.1.trans hNext, hRest.2.1.trans hReserved, ?_⟩
    intro id
    rw [hRest.2.2 id, recognized_insert (people_storeSuspended s e) id]
    by_cases hTail : id ∈ records.map Prod.fst
    · rw [if_pos hTail, List.map_cons, if_pos (List.mem_cons_of_mem _ hTail)]
    · rw [if_neg hTail, List.map_cons]
      by_cases hEq : id = e.1
      · subst hEq
        simp [hHead]
      · simp [hEq, hTail]

omit [DecidableEq A] in
/- The records of the ids that are suspended are closed ones. -/
theorem foldlM_closeRecord {chain : Chain M A} {s : PeopleState M A}
    {records records' : List (Nat × PersonRecord M A)}
    (hFold : suspensions.foldlM (closeRecord chain s) records = .ok records')
    (hOld : ∀ e ∈ records, e.2.history.isOpen = false) :
    (∀ e ∈ records', e.2.history.isOpen = false)
      ∧ records'.map Prod.fst = records.map Prod.fst ++ suspensions
      ∧ ∀ id ∈ suspensions, s.recognized id ≠ none := by
  induction suspensions generalizing records with
  | nil =>
    simp only [List.foldlM_nil, Except.pure_eq_ok] at hFold
    subst hFold
    exact ⟨hOld, by simp, by simp⟩
  | cons id rest ih =>
    rw [List.foldlM_cons, Except.bind_eq_ok] at hFold
    rcases hFold with ⟨records₁, hClose, hRest⟩
    unfold closeRecord at hClose
    simp only [Except.bind_eq_ok, ensure_eq_ok_iff, okOr_eq_ok_iff, exists_const, Except.pure_eq_ok]
      at hClose
    rcases hClose with ⟨_, record, hGet, closed, hClosed, rfl⟩
    have hStep := ih hRest (by
      intro e hMem
      rcases List.mem_append.mp hMem with hMem | hMem
      · exact hOld e hMem
      · rw [List.mem_singleton.mp hMem]
        exact RecognitionHistory.isOpen_of_closePeriod hClosed)
    refine ⟨hStep.1, ?_, ?_⟩
    · rw [hStep.2.1]
      simp
    · intro id' hMem
      rcases List.mem_cons.mp hMem with rfl | hMem
      · simp [recognized, hGet]
      · exact hStep.2.2 id' hMem

/- A successful suspension closes the periods of the given people and of nobody else. -/
theorem suspendPersonhood_spec {chain : Chain M A} {s s' : PeopleState M A}
    (hSuspend : s.suspendPersonhood chain suspensions = .ok s') :
    s'.nextPersonalId = s.nextPersonalId ∧ s'.reservedPersonalId = s.reservedPersonalId
      ∧ (∀ id ∈ suspensions, s.recognized id ≠ none)
      ∧ ∀ id, s'.recognized id =
          if id ∈ suspensions then some false
          else s.recognized id := by
  unfold suspendPersonhood at hSuspend
  simp only [Except.bind_eq_ok, ensure_eq_ok_iff, exists_const, Except.pure_eq_ok] at hSuspend
  rcases hSuspend with ⟨records, hFold, _, rfl⟩
  rcases foldlM_closeRecord hFold (by simp) with ⟨hClosed, hIds, hKnown⟩
  rw [List.map_nil, List.nil_append] at hIds
  have hStore := foldl_storeSuspended records s hClosed
  rw [hIds] at hStore
  exact ⟨hStore.1, hStore.2.1, hKnown, hStore.2.2⟩

end Frame

--
-- Recognition
--

omit [DecidableEq A] in
/- A new person is recognized under a reserved id. -/
theorem recognizePersonhood_some_spec {chain : Chain M A} {s s' : PeopleState M A}
    (hRecognize : s.recognizePersonhood chain who (some key) = .ok s') :
    who ∈ s.reservedPersonalId ∧ s'.nextPersonalId = s.nextPersonalId
      ∧ s'.reservedPersonalId = s.reservedPersonalId.erase who
      ∧ ∀ id, s'.recognized id =
          if id = who then some true else s.recognized id := by
  unfold recognizePersonhood at hRecognize
  simp only [Except.bind_eq_ok, ensure_eq_ok_iff, exists_const, Except.pure_eq_ok] at hRecognize
  rcases hRecognize with ⟨_, hReserved, _, rfl⟩
  refine ⟨hReserved, rfl, rfl, ?_⟩
  intro id
  rw [recognized_insert (s := s) rfl id, RecognitionHistory.isOpen_openSince]

omit [DecidableEq A] in
/- A suspended person is recognized again. -/
theorem recognizePersonhood_none_spec {chain : Chain M A} {s s' : PeopleState M A}
    (hRecognize : s.recognizePersonhood chain who none = .ok s') :
    s.recognized who = some false ∧ s'.nextPersonalId = s.nextPersonalId
      ∧ s'.reservedPersonalId = s.reservedPersonalId
      ∧ ∀ id, s'.recognized id =
          if id = who then some true else s.recognized id := by
  unfold recognizePersonhood at hRecognize
  simp only [Except.bind_eq_ok, ensure_eq_ok_iff, okOr_eq_ok_iff, exists_const, Except.pure_eq_ok]
    at hRecognize
  rcases hRecognize with ⟨record, hGet, _, history, hMapped, _, rfl⟩
  have hOpen : record.history.openPeriod chain.now = .ok history := by
    cases h : record.history.openPeriod chain.now with
    | error since => simp [h, Except.mapError] at hMapped
    | ok history' =>
      simp only [h, Except.mapError, Except.ok.injEq] at hMapped
      rw [hMapped]
  refine ⟨?_, rfl, rfl, ?_⟩
  · unfold recognized
    rw [hGet]
    exact congrArg some (RecognitionHistory.openPeriod_eq_ok_iff.mp hOpen).1
  · intro id
    rw [recognized_insert rfl id, RecognitionHistory.isOpen_of_openPeriod hOpen]

--
-- Personal Ids
--

/-
  People and reservations have ids that the counter has
  passed, and no reserved id belongs to a person.
-/
structure IdsTracked (s : PeopleState M A) : Prop where
  person_lt : ∀ id, s.recognized id ≠ none → id < s.nextPersonalId
  reserved_lt : ∀ id ∈ s.reservedPersonalId, id < s.nextPersonalId
  reserved_free : ∀ id ∈ s.reservedPersonalId, s.recognized id = none

omit [DecidableEq M] [DecidableEq A] in
theorem idsTracked_genesis :
    (genesis : PeopleState M A).IdsTracked where
  person_lt := by simp [recognized, genesis]
  reserved_lt := by simp [genesis]
  reserved_free := by simp [genesis]

namespace IdsTracked

variable {s s' : PeopleState M A} {chain : Chain M A}

omit [DecidableEq M] [DecidableEq A]

/- What changes neither the ids nor who is a person keeps the ids tracked. -/
theorem of_known (hTracked : s.IdsTracked) (hNext : s'.nextPersonalId = s.nextPersonalId)
    (hReserved : ∀ id ∈ s'.reservedPersonalId, id ∈ s.reservedPersonalId)
    (hPeople : ∀ id, s'.recognized id ≠ none → s.recognized id ≠ none
        ∨ (id < s.nextPersonalId ∧ id ∉ s'.reservedPersonalId)) :
    s'.IdsTracked where
  person_lt := by
    intro id hPerson
    rw [hNext]
    rcases hPeople id hPerson with hOld | hNew
    · exact hTracked.person_lt id hOld
    · exact hNew.1
  reserved_lt := by
    intro id hMem
    rw [hNext]
    exact hTracked.reserved_lt id (hReserved id hMem)
  reserved_free := by
    intro id hMem
    by_contra hPerson
    rcases hPeople id hPerson with hOld | hNew
    · exact hOld (hTracked.reserved_free id (hReserved id hMem))
    · exact hNew.2 hMem

/- A fresh id is reserved while the counter can go on. -/
theorem reserveNewId (hTracked : s.IdsTracked) (hLt : s.nextPersonalId < u64Max) :
    s.reserveNewId.2.IdsTracked := by
  have hNext : s.reserveNewId.2.nextPersonalId = s.nextPersonalId + 1 := saturatingAdd_of_le hLt
  refine ⟨?_, ?_, ?_⟩
  · intro id hPerson
    rw [hNext]
    exact Nat.lt_succ_of_lt (hTracked.person_lt id hPerson)
  · intro id hMem
    rw [hNext]
    rcases Finset.mem_insert.mp hMem with rfl | hMem
    · exact Nat.lt_succ_self _
    · exact Nat.lt_succ_of_lt (hTracked.reserved_lt id hMem)
  · intro id hMem
    rcases Finset.mem_insert.mp hMem with rfl | hMem
    · by_contra hPerson
      exact absurd (hTracked.person_lt _ hPerson) (Nat.lt_irrefl _)
    · exact hTracked.reserved_free id hMem

theorem cancelIdReservation {personalId : Nat} (hTracked : s.IdsTracked)
    (hCancel : s.cancelIdReservation personalId = .ok s') :
    s'.IdsTracked ∧ s'.recognized = s.recognized := by
  unfold PeopleState.cancelIdReservation at hCancel
  simp only [Except.bind_eq_ok, ensure_eq_ok_iff, exists_const, Except.pure_eq_ok] at hCancel
  rcases hCancel with ⟨_, rfl⟩
  refine ⟨hTracked.of_known rfl ?_ ?_, rfl⟩
  · intro id hMem
    exact Finset.mem_of_mem_erase hMem
  · intro id hPerson
    exact Or.inl hPerson

theorem renewIdReservation {personalId : Nat} (hTracked : s.IdsTracked)
    (hRenew : s.renewIdReservation personalId = .ok s') :
    s'.IdsTracked ∧ s'.recognized = s.recognized := by
  unfold PeopleState.renewIdReservation at hRenew
  simp only [Except.bind_eq_ok, ensure_eq_ok_iff, exists_const, Except.pure_eq_ok] at hRenew
  rcases hRenew with ⟨hNone, rfl⟩
  push Not at hNone
  rcases hNone with ⟨hLt, hFree, _⟩
  refine ⟨⟨hTracked.person_lt, ?_, ?_⟩, rfl⟩
  · intro id hMem
    rcases Finset.mem_insert.mp hMem with rfl | hMem
    · exact hLt
    · exact hTracked.reserved_lt id hMem
  · intro id hMem
    rcases Finset.mem_insert.mp hMem with rfl | hMem
    · have hAbsent := StorageMap.containsKey_eq_false_iff.mp (Bool.eq_false_iff.mpr hFree)
      simp [recognized, hAbsent]
    · exact hTracked.reserved_free id hMem

variable [DecidableEq M]

theorem recognizePersonhood_some (hTracked : s.IdsTracked)
    (hRecognize : s.recognizePersonhood chain who (some key) = .ok s') :
    s'.IdsTracked := by
  rcases recognizePersonhood_some_spec hRecognize with ⟨hMem, hNext, hReserved, hPeople⟩
  apply hTracked.of_known hNext
  · intro id hId
    rw [hReserved] at hId
    exact Finset.mem_of_mem_erase hId
  · intro id hPerson
    by_cases hWho : id = who
    · subst hWho
      refine Or.inr ⟨hTracked.reserved_lt id hMem, ?_⟩
      rw [hReserved]
      exact Finset.notMem_erase id _
    · rw [hPeople, if_neg hWho] at hPerson
      exact Or.inl hPerson

theorem recognizePersonhood_none (hTracked : s.IdsTracked)
    (hRecognize : s.recognizePersonhood chain who none = .ok s') :
    s'.IdsTracked := by
  rcases recognizePersonhood_none_spec hRecognize with ⟨hClosed, hNext, hReserved, hPeople⟩
  apply hTracked.of_known hNext
  · intro id hId
    exact hReserved ▸ hId
  · intro id hPerson
    left
    by_cases hWho : id = who
    · subst hWho
      simp [hClosed]
    · rw [hPeople, if_neg hWho] at hPerson
      exact hPerson

variable [DecidableEq A]

omit [DecidableEq M] in
theorem suspendPersonhood (hTracked : s.IdsTracked)
    (hSuspend : s.suspendPersonhood chain suspensions = .ok s') :
    s'.IdsTracked := by
  rcases suspendPersonhood_spec hSuspend with ⟨hNext, hReserved, hKnown, hPeople⟩
  apply hTracked.of_known hNext
  · intro id hId
    exact hReserved ▸ hId
  · intro id hPerson
    left
    by_cases hId : id ∈ suspensions
    · exact hKnown id hId
    · rw [hPeople, if_neg hId] at hPerson
      exact hPerson

end IdsTracked

--
-- Recognizing New People
--

omit [DecidableEq A] in
/-
  A fresh id is reserved and recognized at once: the person is
  new, and nothing is known of anybody else that was not.
-/
theorem recognizeFresh {chain : Chain M A} {s s' : PeopleState M A} (hTracked : s.IdsTracked)
    (hLt : s.nextPersonalId < u64Max)
    (hRecognize : s.reserveNewId.2.recognizePersonhood chain s.reserveNewId.1 (some key) = .ok s') :
    s'.IdsTracked ∧ s'.nextPersonalId = s.nextPersonalId + 1 ∧ s.recognized s.nextPersonalId = none
      ∧ ∀ id, s'.recognized id =
          if id = s.nextPersonalId then some true
          else s.recognized id := by
  have hReserve := hTracked.reserveNewId hLt
  rcases recognizePersonhood_some_spec hRecognize with ⟨_, hNext, _, hPeople⟩
  refine ⟨hReserve.recognizePersonhood_some hRecognize,
    hNext.trans (saturatingAdd_of_le hLt), ?_, hPeople⟩
  by_contra hPerson
  exact absurd (hTracked.person_lt _ hPerson) (Nat.lt_irrefl _)

omit [DecidableEq A] in
/- Recognizing a list of new people leaves the others alone. -/
theorem forceRecognizePersonhood_spec {chain : Chain M A} {s s' : PeopleState M A} {people : List M}
    (hTracked : s.IdsTracked) (hLe : s.nextPersonalId + people.length ≤ u64Max)
    (hForce : s.forceRecognizePersonhood chain people = .ok s') :
    s'.IdsTracked ∧ ∀ id, s.recognized id ≠ none → s'.recognized id = s.recognized id := by
  unfold forceRecognizePersonhood at hForce
  induction people generalizing s with
  | nil =>
    simp only [List.foldlM_nil, Except.pure_eq_ok] at hForce
    subst hForce
    exact ⟨hTracked, fun _ _ => rfl⟩
  | cons key people ih =>
    rw [List.foldlM_cons, Except.bind_eq_ok] at hForce
    rcases hForce with ⟨s₁, hFirst, hRest⟩
    rw [List.length_cons] at hLe
    rcases recognizeFresh hTracked (by omega) hFirst with ⟨hTracked₁, hNext, hNew, hPeople⟩
    rcases ih hTracked₁ (by omega) hRest with ⟨hTracked', hKept⟩
    refine ⟨hTracked', ?_⟩
    intro id hPerson
    have hNe : id ≠ s.nextPersonalId := by
      rintro rfl
      exact hPerson hNew
    have hSame : s₁.recognized id = s.recognized id := by
      rw [hPeople, if_neg hNe]
    rw [hKept id (hSame ▸ hPerson), hSame]

omit [DecidableEq M] in
/- Accounts of people do not change who is recognized. -/
theorem setPersonalIdAccount_spec
    {chain : Chain M A} {s s' : PeopleState M A} {id : Nat} {account : A} {callValidAt : Nat}
    (hSet : s.setPersonalIdAccount chain id account callValidAt = .ok s') :
    s'.nextPersonalId = s.nextPersonalId ∧ s'.reservedPersonalId = s.reservedPersonalId
      ∧ s'.recognized = s.recognized := by
  unfold setPersonalIdAccount at hSet
  simp only [Except.bind_eq_ok, ensure_eq_ok_iff,
    okOr_eq_ok_iff, exists_const, Except.pure_eq_ok] at hSet
  rcases hSet with ⟨_, _, _, record, hGet, rfl⟩
  rcases s.clearAccount_same record with ⟨hPeople, hNext, hReserved⟩
  refine ⟨hNext, hReserved, ?_⟩
  funext id'
  rw [recognized_insert (s := (s.clearAccount record).incSufficients account) rfl id',
    recognized_incSufficients]
  unfold recognized
  rw [hPeople]
  by_cases hId : id' = id <;> simp [hId, hGet]

omit [DecidableEq M] in
theorem unsetPersonalIdAccount_spec {s s' : PeopleState M A} {id : Nat}
    (hUnset : s.unsetPersonalIdAccount id = .ok s') :
    s'.nextPersonalId = s.nextPersonalId ∧ s'.reservedPersonalId = s.reservedPersonalId
      ∧ s'.recognized = s.recognized := by
  unfold unsetPersonalIdAccount at hUnset
  simp only [Except.bind_eq_ok, ensure_eq_ok_iff,
    okOr_eq_ok_iff, exists_const, Except.pure_eq_ok] at hUnset
  rcases hUnset with ⟨record, hGet, account, _, _, rfl⟩
  rcases s.clearAccount_same record with ⟨hPeople, hNext, hReserved⟩
  refine ⟨hNext, hReserved, ?_⟩
  funext id'
  rw [recognized_insert (s := s.clearAccount record) rfl id']
  unfold recognized
  rw [hPeople]
  by_cases hId : id' = id <;> simp [hId, hGet]

end Individuality.PeopleMulti.PeopleState
