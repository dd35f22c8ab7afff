import Individuality.PeopleMulti.Pallet

/-
  The sufficient references of accounts: one for an account that is linked to a personal id, and one
  more where another pallet holds it.

  Main declaration: `PeopleState.References`
-/

namespace Individuality.PeopleMulti.PeopleState

variable {M A : Type} [DecidableEq M] [DecidableEq A]
variable {id : Nat} {record : PersonRecord M A} {account : A}

/- How many references a condition accounts for. -/
def oneIf (b : Bool) : Nat := if b then 1 else 0

/-
  The account of a person is linked to its id, and the references of an account are counted exactly.
-/
structure References (s : PeopleState M A) (held : A → Bool) : Prop where
  linked : ∀ id record account,
      s.people.get id = some record →
      record.account = some account →
        s.accountToPersonalId.get account = some id
  count : ∀ account,
      s.sufficients.getD account 0
        = oneIf (s.accountToPersonalId.containsKey account)
          + oneIf (held account)

omit [DecidableEq M] in
theorem references_genesis :
    (genesis : PeopleState M A).References fun _ => false where
  linked := by
    intro id record account hGet
    simp [genesis] at hGet
  count := by
    intro account
    simp [genesis, oneIf, StorageMap.containsKey]

namespace References

variable {s s' : PeopleState M A} {held : A → Bool} {chain : Chain M A}

omit [DecidableEq M]

/- Nothing that is new has an account. -/
theorem of_records (hRefs : s.References held)
    (hRecords : ∀ id record account, s'.people.get id = some record →
        record.account = some account → ∃ record',
            s.people.get id = some record' ∧ record'.account = some account)
    (hLinks : s'.accountToPersonalId = s.accountToPersonalId)
    (hCounts : s'.sufficients = s.sufficients) :
    s'.References held where
  linked := by
    intro id record account hGet hAccount
    rcases hRecords id record account hGet hAccount with ⟨record', hGet', hAccount'⟩
    rw [hLinks]
    exact hRefs.linked id record' account hGet' hAccount'
  count := by
    intro account
    rw [hLinks, hCounts]
    exact hRefs.count account

theorem of_people (hRefs : s.References held) (hPeople : s'.people = s.people)
    (hLinks : s'.accountToPersonalId = s.accountToPersonalId)
    (hCounts : s'.sufficients = s.sufficients) :
    s'.References held := by
  refine hRefs.of_records ?_ hLinks hCounts
  intro id record account hGet hAccount
  rw [hPeople] at hGet
  exact ⟨record, hGet, hAccount⟩

/- A record is overwritten by one with no other account. -/
theorem of_insert {who : Nat} {record' : PersonRecord M A} (hRefs : s.References held)
    (hPeople : s'.people = s.people.insert who record')
    (hAccount : ∀ account, record'.account = some account → ∃ record,
        s.people.get who = some record ∧ record.account = some account)
    (hLinks : s'.accountToPersonalId = s.accountToPersonalId)
    (hCounts : s'.sufficients = s.sufficients) :
    s'.References held := by
  refine hRefs.of_records ?_ hLinks hCounts
  intro id record account hGet hSome
  rw [hPeople, StorageMap.get_insert] at hGet
  by_cases hId : id = who
  · subst hId
    rw [if_pos rfl] at hGet
    obtain rfl := Option.some.inj hGet
    exact hAccount account hSome
  · rw [if_neg hId] at hGet
    exact ⟨record, hGet, hSome⟩

--
-- Unlinking
--

/-
  Clearing the account of a person takes back its link and
  one reference, and leaves the links of others.
-/
theorem clearAccount (hRefs : s.References held) (hGet : s.people.get id = some record) :
    (∀ account, (s.clearAccount record).sufficients.getD account 0 = oneIf
              ((s.clearAccount record ).accountToPersonalId.containsKey account)
            + oneIf (held account))
      ∧ (∀ id' record' account, id' ≠ id → s.people.get id' = some record' →
          record'.account = some account →
            (s.clearAccount record).accountToPersonalId.get account = some id')
      ∧ ∀ account, s.accountToPersonalId.get account = none →
          (s.clearAccount record ).accountToPersonalId.get account = none := by
  unfold PeopleState.clearAccount
  cases hAccount : record.account with
  | none =>
    refine ⟨hRefs.count, ?_, fun _ hNone => hNone⟩
    intro id' record' account _ hGet' hAccount'
    exact hRefs.linked id' record' account hGet' hAccount'
  | some old =>
    have hOld := hRefs.linked id record old hGet hAccount
    refine ⟨?_, ?_, ?_⟩
    · intro account
      have hCount := hRefs.count account
      dsimp only [decSufficients]
      rw [StorageMap.getD_insert]
      by_cases hEq : account = old
      · subst hEq
        simp only [StorageMap.containsKey, hOld, Option.isSome_some, oneIf, if_true] at hCount
        simp [hCount, StorageMap.containsKey, oneIf]
      · rw [if_neg hEq, hCount]
        simp only [StorageMap.containsKey, StorageMap.get_remove, if_neg hEq]
    · intro id' record' account hNe hGet' hAccount'
      have hLink := hRefs.linked id' record' account hGet' hAccount'
      dsimp only [decSufficients]
      rw [StorageMap.get_remove]
      by_cases hEq : account = old
      · subst hEq
        rw [hOld] at hLink
        exact absurd (Option.some.inj hLink).symm hNe
      · rw [if_neg hEq]
        exact hLink
    · intro account hNone
      dsimp only [decSufficients]
      rw [StorageMap.get_remove, hNone]
      exact ite_self _

/- After that the person is stored without an account. -/
theorem unlink {record' : PersonRecord M A} (hRefs : s.References held)
    (hGet : s.people.get id = some record) (hPeople : s'.people = s.people.insert id record')
    (hNone : record'.account = none)
    (hLinks : s'.accountToPersonalId = (s.clearAccount record).accountToPersonalId)
    (hCounts : s'.sufficients = (s.clearAccount record).sufficients) :
    s'.References held := by
  rcases hRefs.clearAccount hGet with ⟨hCount, hOthers, _⟩
  refine ⟨?_, ?_⟩
  · intro id' record'' account hGet' hAccount'
    rw [hPeople, StorageMap.get_insert] at hGet'
    rw [hLinks]
    by_cases hId : id' = id
    · rw [if_pos hId] at hGet'
      obtain rfl := Option.some.inj hGet'
      rw [hNone] at hAccount'
      cases hAccount'
    · rw [if_neg hId] at hGet'
      exact hOthers id' record'' account hId hGet' hAccount'
  · intro account
    rw [hLinks, hCounts]
    exact hCount account

theorem storeSuspended {history : RecognitionHistory} (hRefs : s.References held)
    (hGet : s.people.get id = some record) :
    (s.storeSuspended (id, { record with history := history })).References
        held := by
  refine hRefs.unlink hGet
      (people_storeSuspended s (id, { record with history := history })) rfl ?_ ?_
  · unfold PeopleState.storeSuspended PeopleState.clearAccount
    cases record.account <;> rfl
  · unfold PeopleState.storeSuspended PeopleState.clearAccount
    cases record.account <;> rfl

/- Suspending one person. -/
theorem suspendPersonhood (hRefs : s.References held)
    (hSuspend : s.suspendPersonhood chain [id] = .ok s') :
    s'.References held := by
  unfold PeopleState.suspendPersonhood closeRecord at hSuspend
  simp only [List.foldlM_cons, List.foldlM_nil, Except.bind_eq_ok, ensure_eq_ok_iff, okOr_eq_ok_iff,
    exists_const, Except.pure_eq_ok] at hSuspend
  rcases hSuspend with ⟨records, ⟨records', ⟨_, record, hGet, closed, _, rfl⟩, rfl⟩, _, rfl⟩
  exact hRefs.storeSuspended hGet

theorem unsetPersonalIdAccount (hRefs : s.References held)
    (hUnset : s.unsetPersonalIdAccount id = .ok s') :
    s'.References held := by
  unfold PeopleState.unsetPersonalIdAccount at hUnset
  simp only [Except.bind_eq_ok, ensure_eq_ok_iff,
    okOr_eq_ok_iff, exists_const, Except.pure_eq_ok] at hUnset
  rcases hUnset with ⟨record, hGet, account, _, _, rfl⟩
  have hPeople := (s.clearAccount_same record).1
  have hStored : (s.clearAccount record).people.insert id { record with account := none }
        = s.people.insert id { record with account := none } := by
    rw [hPeople]
  exact hRefs.unlink hGet hStored rfl rfl rfl

--
-- Linking
--

theorem setPersonalIdAccount {callValidAt : Nat} (hRefs : s.References held)
    (hSet : s.setPersonalIdAccount chain id account callValidAt = .ok s') :
    s'.References held := by
  unfold PeopleState.setPersonalIdAccount at hSet
  simp only [Except.bind_eq_ok, ensure_eq_ok_iff, okOr_eq_ok_iff, exists_const, Except.pure_eq_ok,
    Bool.not_eq_true] at hSet
  rcases hSet with ⟨_, hFree, _, record, hGet, rfl⟩
  rcases hRefs.clearAccount hGet with ⟨hCount, hOthers, hKept⟩
  have hNone := hKept account (StorageMap.containsKey_eq_false_iff.mp hFree)
  refine ⟨?_, ?_⟩
  · intro id' record' account' hGet' hAccount'
    dsimp only [PeopleState.incSufficients] at hGet' ⊢
    rw [(s.clearAccount_same record).1, StorageMap.get_insert] at hGet'
    rw [StorageMap.get_insert]
    by_cases hId : id' = id
    · rw [if_pos hId] at hGet'
      obtain rfl := Option.some.inj hGet'
      rw [if_pos (Option.some.inj hAccount').symm, hId]
    · rw [if_neg hId] at hGet'
      have hLink := hOthers id' record' account' hId hGet' hAccount'
      by_cases hEq : account' = account
      · rw [hEq, hNone] at hLink
        cases hLink
      · rw [if_neg hEq]
        exact hLink
  · intro account'
    have hCount' := hCount account'
    dsimp only [PeopleState.incSufficients]
    rw [StorageMap.getD_insert]
    by_cases hEq : account' = account
    · subst hEq
      rw [if_pos rfl, hCount']
      simp only [StorageMap.containsKey, hNone, StorageMap.get_insert_self, Option.isSome_none,
        Option.isSome_some, oneIf, if_true]
      cases held account' <;> rfl
    · rw [if_neg hEq, hCount']
      simp only [StorageMap.containsKey, StorageMap.get_insert, if_neg hEq]

--
-- References of Other Pallets
--

/- A reference is added for an account that had none. -/
theorem incSufficients {held' : A → Bool} (hRefs : s.References held) (hFree : held account = false)
    (hHeld : ∀ a, held' a = (decide (a = account) || held a)) :
    (s.incSufficients account).References held' where
  linked := hRefs.linked
  count := by
    intro account'
    have hCount := hRefs.count account'
    dsimp only [PeopleState.incSufficients]
    rw [StorageMap.getD_insert, hHeld]
    by_cases hEq : account' = account
    · subst hEq
      rw [if_pos rfl, hCount, hFree]
      cases s.accountToPersonalId.containsKey account' <;>
        simp [oneIf, saturatingAdd, u32Max]
    · simp [hEq, hCount]

/- The reference of an account that had one is taken back. -/
theorem decSufficients {held' : A → Bool} (hRefs : s.References held) (hHad : held account = true)
    (hHeld : ∀ a, held' a = (decide (a ≠ account) && held a)) :
    (s.decSufficients account).References held' where
  linked := hRefs.linked
  count := by
    intro account'
    have hCount := hRefs.count account'
    dsimp only [PeopleState.decSufficients]
    rw [StorageMap.getD_insert, hHeld]
    by_cases hEq : account' = account
    · subst hEq
      simp [hCount, hHad, oneIf]
    · simp [hEq, hCount]

--
-- Recognition
--

theorem reserveNewId (hRefs : s.References held) :
    s.reserveNewId.2.References held :=
  hRefs.of_people rfl rfl rfl

theorem cancelIdReservation {personalId : Nat} (hRefs : s.References held)
    (hCancel : s.cancelIdReservation personalId = .ok s') :
    s'.References held := by
  unfold PeopleState.cancelIdReservation at hCancel
  simp only [Except.bind_eq_ok, ensure_eq_ok_iff, exists_const, Except.pure_eq_ok] at hCancel
  rcases hCancel with ⟨_, rfl⟩
  exact hRefs.of_people rfl rfl rfl

theorem renewIdReservation {personalId : Nat} (hRefs : s.References held)
    (hRenew : s.renewIdReservation personalId = .ok s') :
    s'.References held := by
  unfold PeopleState.renewIdReservation at hRenew
  simp only [Except.bind_eq_ok, ensure_eq_ok_iff, exists_const, Except.pure_eq_ok] at hRenew
  rcases hRenew with ⟨_, rfl⟩
  exact hRefs.of_people rfl rfl rfl

variable [DecidableEq M]

theorem recognizePersonhood {who : Nat} {key : Option M} (hRefs : s.References held)
    (hRecognize : s.recognizePersonhood chain who key = .ok s') :
    s'.References held := by
  cases key with
  | some key =>
    unfold PeopleState.recognizePersonhood at hRecognize
    simp only [Except.bind_eq_ok, ensure_eq_ok_iff, exists_const, Except.pure_eq_ok] at hRecognize
    rcases hRecognize with ⟨_, _, _, rfl⟩
    refine hRefs.of_insert rfl ?_ rfl rfl
    intro account hAccount
    cases hAccount
  | none =>
    unfold PeopleState.recognizePersonhood at hRecognize
    simp only [Except.bind_eq_ok, ensure_eq_ok_iff, okOr_eq_ok_iff, exists_const, Except.pure_eq_ok]
      at hRecognize
    rcases hRecognize with ⟨record, hGet, _, history, _, _, rfl⟩
    refine hRefs.of_insert rfl ?_ rfl rfl
    intro account hAccount
    exact ⟨record, hGet, hAccount⟩

theorem forceRecognizePersonhood {people : List M} (hRefs : s.References held)
    (hForce : s.forceRecognizePersonhood chain people = .ok s') :
    s'.References held := by
  unfold PeopleState.forceRecognizePersonhood at hForce
  refine List.foldlM_invariant (fun s : PeopleState M A => s.References held) hForce ?_ hRefs
  intro s key s' _ hStep hRefs
  exact hRefs.reserveNewId.recognizePersonhood hStep

end References

end Individuality.PeopleMulti.PeopleState
