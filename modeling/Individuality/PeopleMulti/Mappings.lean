import Individuality.PeopleMulti.Accounts

/-
  The maps between accounts, aliases and personal ids agree
  with each other and with the references of accounts.

  Main declaration: `PeopleState.Owned`
-/

namespace Individuality.PeopleMulti

open Except (bind_eq_ok pure_eq_ok)
open StorageMap (get_insert get_insert_of_ne get_insert_self get_remove)

namespace PeopleState

variable {M A : Type} [DecidableEq A] {id personalId : Nat}

--
-- Links of Personal Ids
--

/- Every account with a personal id is that of the person. -/
def Owned (s : PeopleState M A) : Prop :=
  ∀ account id, s.accountToPersonalId.get account = some id →
      ∃ record, s.people.get id = some record ∧ record.account = some account

/- Every link was there before. -/
def NoNewLinks (s s' : PeopleState M A) : Prop :=
  ∀ account id, s'.accountToPersonalId.get account = some id →
      s.accountToPersonalId.get account = some id

/- The registry with its ids, its links in both directions and its references in order. -/
structure Sound (s : PeopleState M A) (held : A → Bool) : Prop where
  tracked : s.IdsTracked
  refs : s.References held
  owned : s.Owned

variable {s s' : PeopleState M A} {held : A → Bool} {chain : Chain M A}

theorem NoNewLinks.none (hNew : s.NoNewLinks s') (account : A)
    (hNone : s.accountToPersonalId.get account = none) :
    s'.accountToPersonalId.get account = none := by
  cases hLink : s'.accountToPersonalId.get account with
  | none => rfl
  | some id =>
    rw [hNew account id hLink] at hNone
    cases hNone

theorem get_clearAccount (s : PeopleState M A) (record : PersonRecord M A) (account : A) :
    (s.clearAccount record).accountToPersonalId.get account =
      if record.account = some account then none
      else s.accountToPersonalId.get account := by
  unfold clearAccount
  cases hAccount : record.account with
  | none => simp
  | some old =>
    dsimp only [decSufficients]
    rw [get_remove]
    by_cases hEq : account = old
    · rw [if_pos hEq, hEq, if_pos rfl]
    · rw [if_neg hEq, if_neg]
      intro hSome
      exact hEq (Option.some.inj hSome).symm

/- A person is stored again without an account. -/
theorem Owned.unlink {record record' : PersonRecord M A} (hOwned : s.Owned)
    (hGet : s.people.get id = some record) (hPeople : s'.people = s.people.insert id record')
    (hLinks : s'.accountToPersonalId = (s.clearAccount record).accountToPersonalId) :
    s'.Owned ∧ s.NoNewLinks s' := by
  refine ⟨?_, ?_⟩
  · intro account id' hLink
    rw [hLinks, get_clearAccount] at hLink
    by_cases hAccount : record.account = some account
    · rw [if_pos hAccount] at hLink
      cases hLink
    · rw [if_neg hAccount] at hLink
      rcases hOwned account id' hLink with ⟨old, hOld, hOldAccount⟩
      have hNe : id' ≠ id := by
        rintro rfl
        rw [hGet] at hOld
        cases hOld
        exact hAccount hOldAccount
      refine ⟨old, ?_, hOldAccount⟩
      rw [hPeople]
      exact (get_insert_of_ne _ _ hNe).trans hOld
  · intro account id' hLink
    rw [hLinks, get_clearAccount] at hLink
    by_cases hAccount : record.account = some account
    · rw [if_pos hAccount] at hLink
      cases hLink
    · rw [if_neg hAccount] at hLink
      exact hLink

theorem Sound.of_eq (hSound : s.Sound held) (hTracked : s'.IdsTracked)
    (hPeople : s'.people = s.people) (hLinks : s'.accountToPersonalId = s.accountToPersonalId)
    (hCounts : s'.sufficients = s.sufficients) :
    s'.Sound held ∧ s.NoNewLinks s' := by
  refine ⟨⟨hTracked, hSound.refs.of_people hPeople hLinks hCounts, ?_⟩, ?_⟩
  · intro account id hLink
    rw [hLinks] at hLink
    rw [hPeople]
    exact hSound.owned account id hLink
  · intro account id hLink
    rw [hLinks] at hLink
    exact hLink

theorem Sound.genesis :
    (genesis : PeopleState M A).Sound fun _ => false := by
  refine ⟨idsTracked_genesis, references_genesis, ?_⟩
  intro account id hLink
  cases hLink

--
-- Accounts of People
--

theorem Sound.unsetPersonalIdAccount (hSound : s.Sound held)
    (hUnset : s.unsetPersonalIdAccount id = .ok s') :
    s'.Sound held ∧ s.NoNewLinks s' := by
  have hRefs := hSound.refs.unsetPersonalIdAccount hUnset
  rcases unsetPersonalIdAccount_spec hUnset with ⟨hNext, hReserved, hRecognized⟩
  have hTracked : s'.IdsTracked := by
    refine hSound.tracked.of_known hNext ?_ ?_
    · intro id' hMem
      rw [← hReserved]
      exact hMem
    · intro id' hPerson
      rw [hRecognized] at hPerson
      exact Or.inl hPerson
  unfold PeopleState.unsetPersonalIdAccount at hUnset
  simp only [bind_eq_ok, ensure_eq_ok_iff, okOr_eq_ok_iff, exists_const, pure_eq_ok] at hUnset
  rcases hUnset with ⟨record, hGet, account, _, _, hEq⟩
  have hPeople : s'.people = s.people.insert id { record with account := none } := by
    rw [← hEq, ← (s.clearAccount_same record).1]
  have hLinks : s'.accountToPersonalId = (s.clearAccount record).accountToPersonalId := by
    rw [← hEq]
  rcases hSound.owned.unlink hGet hPeople hLinks with ⟨hOwned, hNew⟩
  exact ⟨⟨hTracked, hRefs, hOwned⟩, hNew⟩

/- Only the account that is set is linked anew. -/
theorem Sound.setPersonalIdAccount {callValidAt : Nat} {account : A} (hSound : s.Sound held)
    (hSet : s.setPersonalIdAccount chain id account callValidAt = .ok s') :
    s'.Sound held ∧ chain.accountToAlias account = false ∧ ∀ account' id', account' ≠ account →
        s'.accountToPersonalId.get account' = some id' →
          s.accountToPersonalId.get account' = some id' := by
  have hRefs := hSound.refs.setPersonalIdAccount hSet
  rcases setPersonalIdAccount_spec hSet with ⟨hNext, hReserved, hRecognized⟩
  have hTracked : s'.IdsTracked := by
    refine hSound.tracked.of_known hNext ?_ ?_
    · intro id' hMem
      rw [← hReserved]
      exact hMem
    · intro id' hPerson
      rw [hRecognized] at hPerson
      exact Or.inl hPerson
  unfold PeopleState.setPersonalIdAccount at hSet
  simp only [bind_eq_ok, ensure_eq_ok_iff, okOr_eq_ok_iff, exists_const, pure_eq_ok,
    Bool.not_eq_true] at hSet
  rcases hSet with ⟨_, _, hAlias, record, hGet, rfl⟩
  refine ⟨⟨hTracked, hRefs, ?_⟩, hAlias, ?_⟩
  · intro account' id' hLink
    dsimp only [PeopleState.incSufficients] at hLink ⊢
    rw [(s.clearAccount_same record).1]
    rw [get_insert] at hLink
    by_cases hAccount : account' = account
    · rw [if_pos hAccount] at hLink
      cases hLink
      refine ⟨_, get_insert_self _ _ _, ?_⟩
      rw [hAccount]
    · rw [if_neg hAccount, get_clearAccount] at hLink
      by_cases hOld : record.account = some account'
      · rw [if_pos hOld] at hLink
        cases hLink
      · rw [if_neg hOld] at hLink
        rcases hSound.owned account' id' hLink with ⟨record', hGet', hAccount'⟩
        have hNe : id' ≠ id := by
          rintro rfl
          rw [hGet] at hGet'
          cases hGet'
          exact hOld hAccount'
        refine ⟨record', ?_, hAccount'⟩
        exact (get_insert_of_ne _ _ hNe).trans hGet'
  · intro account' id' hNe hLink
    dsimp only [PeopleState.incSufficients] at hLink
    rw [get_insert, if_neg hNe, get_clearAccount] at hLink
    by_cases hOld : record.account = some account'
    · rw [if_pos hOld] at hLink
      cases hLink
    · rw [if_neg hOld] at hLink
      exact hLink

--
-- Suspensions
--

/- Records that were closed, of people with different ids. -/
structure ClosedRecords (s : PeopleState M A) (records : List (Nat × PersonRecord M A)) : Prop where
  nodup : (records.map Prod.fst).Nodup
  stored : ∀ e ∈ records,
      ∃ record,
        s.people.get e.1 = some record
          ∧ e.2 = { record with history := e.2.history }

omit [DecidableEq A] in
theorem ClosedRecords.closeRecord {records records' : List (Nat × PersonRecord M A)}
    (hRecords : s.ClosedRecords records)
    (hClose : s.closeRecord chain records personalId = .ok records') :
    s.ClosedRecords records' := by
  unfold PeopleState.closeRecord at hClose
  simp only [bind_eq_ok, ensure_eq_ok_iff, okOr_eq_ok_iff, exists_const, pure_eq_ok] at hClose
  rcases hClose with ⟨hNew, record, hGet, closed, _, rfl⟩
  refine ⟨?_, ?_⟩
  · rw [List.map_append, List.nodup_append]
    refine ⟨hRecords.nodup, List.nodup_singleton _, ?_⟩
    intro id hMem id' hMem' hEq
    rw [List.map_singleton, List.mem_singleton] at hMem'
    rw [hEq, hMem'] at hMem
    exact hNew hMem
  · intro e hMem
    rcases List.mem_append.mp hMem with hMem | hMem
    · exact hRecords.stored e hMem
    · rw [List.mem_singleton.mp hMem]
      exact ⟨record, hGet, rfl⟩

/- Storing closed records keeps the links in order. -/
theorem ClosedRecords.foldl_storeSuspended {records : List (Nat × PersonRecord M A)}
    (hRecords : s.ClosedRecords records) (hRefs : s.References held) (hOwned : s.Owned) :
    (records.foldl PeopleState.storeSuspended s).References held
      ∧ (records.foldl PeopleState.storeSuspended s).Owned
      ∧ s.NoNewLinks (records.foldl PeopleState.storeSuspended s) := by
  induction records generalizing s with
  | nil => exact ⟨hRefs, hOwned, fun _ _ hLink => hLink⟩
  | cons e rest ih =>
    rcases hRecords with ⟨hNodup, hStored⟩
    rw [List.map_cons, List.nodup_cons] at hNodup
    rcases hStored e List.mem_cons_self with ⟨record, hGet, hEntry⟩
    have hPeople := people_storeSuspended s e
    have hLinks : (s.storeSuspended e).accountToPersonalId
          = (s.clearAccount record).accountToPersonalId := by
      have hAccount : e.2.account = record.account := by
        rw [hEntry]
      unfold PeopleState.storeSuspended PeopleState.clearAccount
      rw [hAccount]
      cases record.account <;> rfl
    have hCounts : (s.storeSuspended e).sufficients = (s.clearAccount record).sufficients := by
      have hAccount : e.2.account = record.account := by
        rw [hEntry]
      unfold PeopleState.storeSuspended PeopleState.clearAccount
      rw [hAccount]
      cases record.account <;> rfl
    have hRefs₁ := hRefs.unlink hGet hPeople rfl hLinks hCounts
    rcases hOwned.unlink hGet hPeople hLinks with ⟨hOwned₁, hNew₁⟩
    have hRest : (s.storeSuspended e).ClosedRecords rest := by
      refine ⟨hNodup.2, ?_⟩
      intro e' hMem
      rcases hStored e' (List.mem_cons_of_mem _ hMem) with ⟨record', hGet', hEntry'⟩
      refine ⟨record', ?_, hEntry'⟩
      rw [hPeople]
      refine (get_insert_of_ne _ _ ?_).trans hGet'
      intro hEq
      exact hNodup.1 (List.mem_map.mpr ⟨e', hMem, hEq⟩)
    rcases ih hRest hRefs₁ hOwned₁ with ⟨hRefs₂, hOwned₂, hNew₂⟩
    exact ⟨hRefs₂, hOwned₂, fun account id hLink =>
        hNew₁ account id (hNew₂ account id hLink)⟩

theorem Sound.suspendPersonhood {suspensions : List Nat} (hSound : s.Sound held)
    (hSuspend : s.suspendPersonhood chain suspensions = .ok s') :
    s'.Sound held ∧ s.NoNewLinks s' := by
  have hTracked := hSound.tracked.suspendPersonhood hSuspend
  unfold PeopleState.suspendPersonhood at hSuspend
  simp only [bind_eq_ok, ensure_eq_ok_iff, exists_const, pure_eq_ok] at hSuspend
  rcases hSuspend with ⟨records, hFold, _, rfl⟩
  have hEmpty : s.ClosedRecords ([] : List (Nat × PersonRecord M A)) :=
    ⟨List.nodup_nil, fun e hMem => by cases hMem⟩
  have hRecords : s.ClosedRecords records := List.foldlM_invariant
      (fun records => s.ClosedRecords records) hFold
      (fun _ _ _ _ hStep hOld => hOld.closeRecord hStep) hEmpty
  rcases hRecords.foldl_storeSuspended hSound.refs hSound.owned with ⟨hRefs, hOwned, hNew⟩
  exact ⟨⟨hTracked, hRefs, hOwned⟩, hNew⟩

--
-- Recognition
--

theorem Sound.reserveNewId (hSound : s.Sound held) (hLt : s.nextPersonalId < u64Max) :
    s.reserveNewId.2.Sound held ∧ s.NoNewLinks s.reserveNewId.2 :=
  hSound.of_eq (hSound.tracked.reserveNewId hLt) rfl rfl rfl

theorem Sound.cancelIdReservation (hSound : s.Sound held)
    (hCancel : s.cancelIdReservation personalId = .ok s') :
    s'.Sound held ∧ s.NoNewLinks s' := by
  have hTracked := (hSound.tracked.cancelIdReservation hCancel).1
  unfold PeopleState.cancelIdReservation at hCancel
  simp only [bind_eq_ok, ensure_eq_ok_iff, exists_const, pure_eq_ok] at hCancel
  rcases hCancel with ⟨_, rfl⟩
  exact hSound.of_eq hTracked rfl rfl rfl

theorem Sound.renewIdReservation (hSound : s.Sound held)
    (hRenew : s.renewIdReservation personalId = .ok s') :
    s'.Sound held ∧ s.NoNewLinks s' := by
  have hTracked := (hSound.tracked.renewIdReservation hRenew).1
  unfold PeopleState.renewIdReservation at hRenew
  simp only [bind_eq_ok, ensure_eq_ok_iff, exists_const, pure_eq_ok] at hRenew
  rcases hRenew with ⟨_, rfl⟩
  exact hSound.of_eq hTracked rfl rfl rfl

variable [DecidableEq M]

/- A reserved id has no account yet, and a known person keeps the account. -/
theorem Sound.recognizePersonhood {who : Nat} {key : Option M} (hSound : s.Sound held)
    (hRecognize : s.recognizePersonhood chain who key = .ok s') :
    s'.Sound held ∧ s.NoNewLinks s' := by
  have hRefs := hSound.refs.recognizePersonhood hRecognize
  cases key with
  | some key =>
    have hTracked := hSound.tracked.recognizePersonhood_some hRecognize
    have hReserved := (recognizePersonhood_some_spec hRecognize).1
    have hFree := hSound.tracked.reserved_free who hReserved
    unfold PeopleState.recognizePersonhood at hRecognize
    simp only [bind_eq_ok, ensure_eq_ok_iff, exists_const, pure_eq_ok] at hRecognize
    rcases hRecognize with ⟨_, _, _, rfl⟩
    refine ⟨⟨hTracked, hRefs, ?_⟩, fun _ _ hLink => hLink⟩
    intro account id hLink
    rcases hSound.owned account id hLink with ⟨record, hGet, hAccount⟩
    have hNe : id ≠ who := by
      rintro rfl
      unfold recognized at hFree
      rw [hGet] at hFree
      cases hFree
    refine ⟨record, ?_, hAccount⟩
    exact (get_insert_of_ne _ _ hNe).trans hGet
  | none =>
    have hTracked := hSound.tracked.recognizePersonhood_none hRecognize
    unfold PeopleState.recognizePersonhood at hRecognize
    simp only [bind_eq_ok, ensure_eq_ok_iff, okOr_eq_ok_iff, exists_const, pure_eq_ok]
      at hRecognize
    rcases hRecognize with ⟨record, hGet, _, history, _, _, rfl⟩
    refine ⟨⟨hTracked, hRefs, ?_⟩, fun _ _ hLink => hLink⟩
    intro account id hLink
    rcases hSound.owned account id hLink with ⟨record', hGet', hAccount⟩
    by_cases hId : id = who
    · subst hId
      rw [hGet] at hGet'
      cases hGet'
      exact ⟨_, get_insert_self _ _ _, hAccount⟩
    · refine ⟨record', ?_, hAccount⟩
      exact (get_insert_of_ne _ _ hId).trans hGet'

theorem Sound.forceRecognizePersonhood {people : List M} (hSound : s.Sound held)
    (hLe : s.nextPersonalId + people.length ≤ u64Max)
    (hForce : s.forceRecognizePersonhood chain people = .ok s') :
    s'.Sound held ∧ s.NoNewLinks s' := by
  unfold PeopleState.forceRecognizePersonhood at hForce
  induction people generalizing s with
  | nil =>
    rw [List.foldlM_nil, pure_eq_ok] at hForce
    rw [← hForce]
    exact ⟨hSound, fun _ _ hLink => hLink⟩
  | cons key people ih =>
    rw [List.foldlM_cons, bind_eq_ok] at hForce
    rcases hForce with ⟨s₁, hFirst, hRest⟩
    rw [List.length_cons] at hLe
    have hLt : s.nextPersonalId < u64Max := by omega
    have hNext := (recognizeFresh hSound.tracked hLt hFirst).2.1
    rcases hSound.reserveNewId hLt with ⟨hReserved, hNew₀⟩
    rcases hReserved.recognizePersonhood hFirst with ⟨hSound₁, hNew₁⟩
    have hLe₁ : s₁.nextPersonalId + people.length ≤ u64Max := by
      omega
    rcases ih hSound₁ hLe₁ hRest with ⟨hSound₂, hNew₂⟩
    refine ⟨hSound₂, ?_⟩
    intro account id hLink
    exact hNew₀ account id (hNew₁ account id (hNew₂ account id hLink))

end PeopleState

--
-- All Mappings
--

namespace Accounts

variable {M A P S : Type} [DecidableEq A]

/- Whether an account stands for an alias. -/
def hasAlias (w : Accounts M A) (account : A) : Bool :=
  w.accountToAlias.containsKey account

/-
  The registry is sound, the aliases and their accounts are the two sides of one mapping, and no
  account stands for both an alias and a personal id.
-/
structure Mapped (w : Accounts M A) : Prop where
  people : w.people.Sound w.hasAlias
  alias_iff : ∀ ca account,
      w.aliasToAccount.get ca = some account
        ↔ ∃ revCa, w.accountToAlias.get account = some revCa ∧ revCa.ca = ca
  disjoint : ∀ account,
      w.accountToAlias.get account ≠ none →
        w.people.accountToPersonalId.get account = none

variable {w w' : Accounts M A}

theorem Mapped.genesis :
    (genesis : Accounts M A).Mapped := by
  refine ⟨PeopleState.Sound.genesis, ?_, ?_⟩
  · intro ca account
    constructor
    · intro hGet
      cases hGet
    · rintro ⟨revCa, hGet, _⟩
      cases hGet
  · intro account hGet
    exact absurd rfl hGet

/- A change of the registry that links no other account. -/
theorem Mapped.withPeople {people : PeopleState M A} (hMapped : w.Mapped)
    (hSound : people.Sound w.hasAlias)
    (hLinks : ∀ account, w.accountToAlias.get account ≠ none →
        w.people.accountToPersonalId.get account = none →
          people.accountToPersonalId.get account = none) :
    Mapped { w with people := people } := by
  refine ⟨hSound, hMapped.alias_iff, ?_⟩
  intro account hAlias
  exact hLinks account hAlias (hMapped.disjoint account hAlias)

/- The two sides of an alias are removed together. -/
theorem Mapped.dropAlias {ca : ContextualAlias} {account : A} (hMapped : w.Mapped)
    (hGet : w.aliasToAccount.get ca = some account) :
    (w.dropAlias ca account).Mapped := by
  rcases (hMapped.alias_iff ca account).mp hGet with ⟨revCa, hRev, hCa⟩
  have hHad : w.hasAlias account = true := StorageMap.containsKey_iff.mpr ⟨revCa, hRev⟩
  have hHeld : ∀ a, (w.dropAlias ca account).hasAlias a
          = (decide (a ≠ account) && w.hasAlias a) := by
    intro a
    unfold hasAlias Accounts.dropAlias releaseAccount
    unfold StorageMap.containsKey
    dsimp only
    rw [get_remove]
    by_cases hEq : a = account <;> simp [hEq]
  refine ⟨⟨?_, ?_, ?_⟩, ?_, ?_⟩
  · exact ⟨hMapped.people.tracked.person_lt, hMapped.people.tracked.reserved_lt,
        hMapped.people.tracked.reserved_free⟩
  · exact hMapped.people.refs.decSufficients hHad hHeld
  · exact hMapped.people.owned
  · intro ca' account'
    unfold Accounts.dropAlias releaseAccount
    dsimp only
    rw [get_remove, get_remove]
    by_cases hCa' : ca' = ca
    · rw [if_pos hCa']
      constructor
      · intro hNone
        cases hNone
      · rintro ⟨revCa', hRev', hEq⟩
        by_cases hAccount : account' = account
        · rw [if_pos hAccount] at hRev'
          cases hRev'
        · rw [if_neg hAccount] at hRev'
          have hOther := (hMapped.alias_iff ca' account').mpr ⟨revCa', hRev', hEq⟩
          rw [hCa', hGet] at hOther
          exact absurd (Option.some.inj hOther).symm hAccount
    · rw [if_neg hCa', hMapped.alias_iff ca' account']
      constructor
      · rintro ⟨revCa', hRev', hEq⟩
        refine ⟨revCa', ?_, hEq⟩
        rw [if_neg]
        · exact hRev'
        · rintro rfl
          rw [hRev] at hRev'
          cases hRev'
          exact hCa' (hEq.symm.trans hCa)
      · rintro ⟨revCa', hRev', hEq⟩
        by_cases hAccount : account' = account
        · rw [if_pos hAccount] at hRev'
          cases hRev'
        · rw [if_neg hAccount] at hRev'
          exact ⟨revCa', hRev', hEq⟩
  · intro account' hAlias
    apply hMapped.disjoint account'
    intro hNone
    apply hAlias
    unfold Accounts.dropAlias releaseAccount
    dsimp only
    rw [get_remove, hNone]
    exact ite_self none

/- A new revision of the alias that an account stands for. -/
theorem Mapped.revise {account : A} {old revCa : RevisedContextualAlias} (hMapped : w.Mapped)
    (hOld : w.accountToAlias.get account = some old) (hCa : revCa.ca = old.ca) :
    Mapped
      { w with
        accountToAlias := w.accountToAlias.insert account revCa } := by
  have hSame : hasAlias
          { w with
            accountToAlias := w.accountToAlias.insert account revCa }
        = w.hasAlias := by
    funext a
    unfold hasAlias StorageMap.containsKey
    dsimp only
    rw [get_insert]
    by_cases hEq : a = account
    · rw [if_pos hEq, hEq, hOld]
      rfl
    · rw [if_neg hEq]
  refine ⟨?_, ?_, ?_⟩
  · rw [hSame]
    exact hMapped.people
  · intro ca account'
    dsimp only
    rw [hMapped.alias_iff ca account', get_insert]
    by_cases hEq : account' = account
    · rw [if_pos hEq, hEq, hOld]
      constructor
      · rintro ⟨old', hSome, hOldCa⟩
        cases hSome
        exact ⟨revCa, rfl, hCa.trans hOldCa⟩
      · rintro ⟨revCa', hSome, hRevCa⟩
        cases hSome
        exact ⟨old, rfl, hCa.symm.trans hRevCa⟩
    · rw [if_neg hEq]
  · intro account' hAlias
    apply hMapped.disjoint account'
    intro hNone
    apply hAlias
    dsimp only
    rw [get_insert, if_neg, hNone]
    rintro rfl
    rw [hOld] at hNone
    cases hNone

/- A free account gets an alias that has none. -/
theorem Mapped.addAlias {account : A} {revCa : RevisedContextualAlias} (hMapped : w.Mapped)
    (hFree : w.accountToAlias.get account = none)
    (hPerson : w.people.accountToPersonalId.get account = none)
    (hNew : w.aliasToAccount.get revCa.ca = none) :
    Mapped
      { w with
        people := w.people.incSufficients account
        accountToAlias := w.accountToAlias.insert account revCa
        aliasToAccount := w.aliasToAccount.insert revCa.ca account } := by
  have hHeld : ∀ a, hasAlias
            { w with
              people := w.people.incSufficients account
              accountToAlias := w.accountToAlias.insert account revCa
              aliasToAccount := w.aliasToAccount.insert revCa.ca account } a
          = (decide (a = account) || w.hasAlias a) := by
    intro a
    unfold hasAlias StorageMap.containsKey
    dsimp only
    rw [get_insert]
    by_cases hEq : a = account <;> simp [hEq]
  have hNot : w.hasAlias account = false := StorageMap.containsKey_eq_false_iff.mpr hFree
  refine ⟨⟨?_, ?_, ?_⟩, ?_, ?_⟩
  · exact ⟨hMapped.people.tracked.person_lt, hMapped.people.tracked.reserved_lt,
        hMapped.people.tracked.reserved_free⟩
  · exact hMapped.people.refs.incSufficients hNot hHeld
  · exact hMapped.people.owned
  · intro ca account'
    dsimp only
    rw [get_insert, get_insert]
    by_cases hEq : account' = account
    · rw [if_pos hEq, hEq]
      by_cases hCa : ca = revCa.ca
      · rw [if_pos hCa]
        exact ⟨fun _ => ⟨revCa, rfl, hCa.symm⟩, fun _ => rfl⟩
      · rw [if_neg hCa, hMapped.alias_iff ca account, hFree]
        constructor
        · rintro ⟨_, hSome, _⟩
          cases hSome
        · rintro ⟨revCa', hSome, hEq'⟩
          cases hSome
          exact absurd hEq'.symm hCa
    · rw [if_neg hEq]
      by_cases hCa : ca = revCa.ca
      · rw [if_pos hCa]
        constructor
        · intro hSome
          exact absurd (Option.some.inj hSome).symm hEq
        · intro hRev
          have hOld := (hMapped.alias_iff ca account').mpr hRev
          rw [hCa, hNew] at hOld
          cases hOld
      · rw [if_neg hCa]
        exact hMapped.alias_iff ca account'
  · intro account' hAlias
    dsimp only at hAlias ⊢
    rw [get_insert] at hAlias
    by_cases hEq : account' = account
    · rw [hEq]
      exact hPerson
    · rw [if_neg hEq] at hAlias
      exact hMapped.disjoint account' hAlias

/- Only the reads of the accounts of aliases matter. -/
theorem Mapped.withAliases {aliases : StorageMap ContextualAlias A} (hMapped : w.Mapped)
    (hSame : ∀ ca, aliases.get ca = w.aliasToAccount.get ca) :
    Mapped { w with aliasToAccount := aliases } := by
  refine ⟨hMapped.people, ?_, hMapped.disjoint⟩
  intro ca account
  dsimp only
  rw [hSame]
  exact hMapped.alias_iff ca account

--
-- Calls
--

variable {chain : Service M A P S}

/- The account of an alias is revised, exchanged for another one, or set for the first time. -/
theorem Mapped.setAliasAccount {revCa : RevisedContextualAlias} {account : A} {callValidAt : Nat}
    (hMapped : w.Mapped) (hSet : setAliasAccount chain w revCa account callValidAt = .ok w') :
    w'.Mapped := by
  unfold Accounts.setAliasAccount at hSet
  simp only [bind_eq_ok, ensure_eq_ok_iff, exists_const, pure_eq_ok,
    StorageMap.containsKey_eq_false_iff] at hSet
  rcases hSet with ⟨_, _, hPerson, _, w₁, hStep, rfl⟩
  unfold moveReference at hStep
  by_cases hSame : w.aliasToAccount.get revCa.ca = some account
  · rw [if_pos hSame] at hStep
    cases hStep
    rcases (hMapped.alias_iff revCa.ca account).mp hSame with ⟨old, hOld, hCa⟩
    refine (hMapped.revise hOld hCa.symm).withAliases ?_
    intro ca
    rw [get_insert]
    by_cases hEq : ca = revCa.ca
    · rw [if_pos hEq, hEq]
      exact hSame.symm
    · rw [if_neg hEq]
  · rw [if_neg hSame] at hStep
    simp only [bind_eq_ok, ensure_eq_ok_iff, exists_const, pure_eq_ok,
      StorageMap.containsKey_eq_false_iff] at hStep
    rcases hStep with ⟨hFree, rfl⟩
    cases hOld : w.aliasToAccount.get revCa.ca with
    | none => exact hMapped.addAlias hFree hPerson hOld
    | some old =>
      have hDropped := hMapped.dropAlias hOld
      have hFree' : (w.dropAlias revCa.ca old).accountToAlias.get account = none := by
        unfold Accounts.dropAlias releaseAccount
        dsimp only
        rw [get_remove, hFree]
        exact ite_self none
      have hNew : (w.dropAlias revCa.ca old).aliasToAccount.get revCa.ca = none :=
        StorageMap.get_remove_self _ _
      have hAdded := hDropped.addAlias hFree' hPerson hNew
      refine hAdded.withAliases ?_
      intro ca
      unfold Accounts.dropAlias releaseAccount
      dsimp only
      rw [get_insert, get_insert, get_remove]
      by_cases hEq : ca = revCa.ca
      · rw [if_pos hEq, if_pos hEq]
      · rw [if_neg hEq, if_neg hEq, if_neg hEq]

theorem Mapped.unsetAliasAccount {ca : ContextualAlias} (hMapped : w.Mapped)
    (hUnset : w.unsetAliasAccount ca = .ok w') :
    w'.Mapped := by
  unfold Accounts.unsetAliasAccount at hUnset
  simp only [bind_eq_ok, okOr_eq_ok_iff, pure_eq_ok] at hUnset
  rcases hUnset with ⟨account, hGet, rfl⟩
  exact hMapped.dropAlias hGet

theorem Mapped.cleanUpAlias {ca : ContextualAlias} (hMapped : w.Mapped)
    (hClean : w.cleanUpAlias ca = .ok w') :
    w'.Mapped := by
  unfold Accounts.cleanUpAlias at hClean
  simp only [bind_eq_ok, okOr_eq_ok_iff, ensure_eq_ok_iff, exists_const, pure_eq_ok] at hClean
  rcases hClean with ⟨account, hGet, _, _, _, rfl⟩
  exact hMapped.dropAlias hGet

theorem Mapped.foldl_cleanUpOne (aliases : List ContextualAlias) (s : Accounts M A × Nat)
    (hMapped : s.1.Mapped) :
    (aliases.foldl cleanUpOne s).1.Mapped := by
  induction aliases generalizing s with
  | nil => exact hMapped
  | cons ca rest ih =>
    rw [List.foldl_cons]
    apply ih
    unfold cleanUpOne
    cases hClean : s.1.cleanUpAlias ca with
    | error e => exact hMapped
    | ok w => exact hMapped.cleanUpAlias hClean

theorem Mapped.cleanUpStaleAliases {aliases : BoundedVec ContextualAlias maxBulkCleanup}
    (hMapped : w.Mapped) (hClean : w.cleanUpStaleAliases aliases = .ok w') :
    w'.Mapped := by
  unfold Accounts.cleanUpStaleAliases at hClean
  simp only [bind_eq_ok, ensure_eq_ok_iff, exists_const, pure_eq_ok] at hClean
  rcases hClean with ⟨_, rfl⟩
  exact Mapped.foldl_cleanUpOne _ _ hMapped

theorem Mapped.setPersonalIdAccount {people : PeopleState M A} {id callValidAt : Nat} {account : A}
    (hMapped : w.Mapped)
    (hSet : w.people.setPersonalIdAccount (chainOf chain w) id account callValidAt = .ok people) :
    Mapped { w with people := people } := by
  rcases hMapped.people.setPersonalIdAccount hSet with ⟨hSound, hAlias, hOthers⟩
  refine hMapped.withPeople hSound ?_
  intro account' hHas hNone
  have hNe : account' ≠ account := by
    rintro rfl
    exact hHas (StorageMap.containsKey_eq_false_iff.mp hAlias)
  cases hLink : people.accountToPersonalId.get account' with
  | none => rfl
  | some id' =>
    rw [hOthers account' id' hNe hLink] at hNone
    cases hNone

/- A call keeps the mappings, whatever its origin is. -/
theorem Mapped.dispatchCall {origin : Origin A} {call : Call A} (hMapped : w.Mapped)
    (hCall : dispatchCall chain w origin call = .ok w') :
    w'.Mapped := by
  induction call generalizing w w' origin with
  | underAlias call ih =>
    cases origin with
    | signed account =>
      unfold Accounts.dispatchCall at hCall
      simp only [bind_eq_ok, okOr_eq_ok_iff, ensure_eq_ok_iff, exists_const] at hCall
      rcases hCall with ⟨_, _, _, _, _, _, hCall⟩
      exact ih hMapped hCall
    | none_ | personalAlias | personalIdentity =>
      unfold Accounts.dispatchCall at hCall
      cases hCall
  | setAliasAccount account callValidAt =>
    cases origin with
    | personalAlias revCa =>
      unfold Accounts.dispatchCall at hCall
      exact hMapped.setAliasAccount hCall
    | none_ | signed | personalIdentity =>
      unfold Accounts.dispatchCall at hCall
      cases hCall
  | unsetAliasAccount =>
    cases origin with
    | personalAlias revCa =>
      unfold Accounts.dispatchCall at hCall
      exact hMapped.unsetAliasAccount hCall
    | none_ | signed | personalIdentity =>
      unfold Accounts.dispatchCall at hCall
      cases hCall
  | setPersonalIdAccount account callValidAt =>
    cases origin with
    | personalIdentity id =>
      unfold Accounts.dispatchCall at hCall
      simp only [bind_eq_ok, fromPeople_eq_ok_iff, pure_eq_ok] at hCall
      rcases hCall with ⟨people, hSet, rfl⟩
      exact hMapped.setPersonalIdAccount hSet
    | none_ | signed | personalAlias =>
      unfold Accounts.dispatchCall at hCall
      cases hCall
  | unsetPersonalIdAccount =>
    cases origin with
    | personalIdentity id =>
      unfold Accounts.dispatchCall at hCall
      simp only [bind_eq_ok, fromPeople_eq_ok_iff, pure_eq_ok] at hCall
      rcases hCall with ⟨people, hUnset, rfl⟩
      rcases hMapped.people.unsetPersonalIdAccount hUnset with ⟨hSound, hNew⟩
      exact hMapped.withPeople hSound fun account _ => hNew.none account
    | none_ | signed | personalAlias =>
      unfold Accounts.dispatchCall at hCall
      cases hCall
  | batchAll first rest ihFirst ihRest =>
    have hBatch : (Accounts.dispatchCall chain w origin first >>= fun w₁ =>
              Accounts.dispatchCall chain w₁ origin rest)
          = .ok w' := by
      cases origin <;> exact hCall
    rcases Except.bind_eq_ok.mp hBatch with ⟨w₁, hFirst, hRest⟩
    exact ihRest (ihFirst hMapped hFirst) hRest
  | other =>
    have hSame : (.ok w : Except AccountError (Accounts M A)) = .ok w' := by
      cases origin <;> exact hCall
    cases hSame
    exact hMapped

--
-- Transactions
--

/-
  The extension stores a revision only for the alias that the
  account of the signer already stands for.
-/
theorem Mapped.prepare {tx : Transaction A P S} {val : Val A} {origin : Origin A}
    (hMapped : w.Mapped) (hValidate : validate chain w tx = .ok (val, origin)) :
    (w.prepare val).Mapped := by
  cases val with
  | notUsing => exact hMapped
  | usingProof => exact hMapped
  | usingAccount who nonce => exact hMapped
  | usingAccountWithRevisionUpdate who nonce revCa =>
    rcases tx with ⟨signer, info, implication, call⟩
    unfold validate at hValidate
    dsimp only at hValidate
    split at hValidate
    case h_2 hInfo hSigner =>
      unfold provenAlias at hValidate
      simp only [bind_eq_ok, okOr_eq_ok_iff, ensure_eq_ok_iff, exists_const, pure_eq_ok,
        Prod.mk.injEq,
        Val.usingAccountWithRevisionUpdate.injEq]
        at hValidate
      rcases hValidate with ⟨old, hOld, revCa', ⟨alias_, _, hRev⟩, hAlias,
          hContext, _, _, ⟨rfl, rfl, rfl⟩, rfl⟩
      refine hMapped.revise hOld ?_
      rw [← hRev] at hAlias ⊢
      dsimp only at hAlias ⊢
      rw [hAlias, hContext]
    -- no other variant stores a revision
    all_goals
      try split at hValidate
    all_goals
      simp only [bind_eq_ok, pure_eq_ok, Except.ok.injEq, Prod.mk.injEq, reduceCtorEq,
        false_and, and_false, exists_false] at hValidate

theorem Mapped.applyTransaction {tx : Transaction A P S} (hMapped : w.Mapped)
    (hApply : applyTransaction chain w tx = .ok w') :
    w'.Mapped := by
  unfold Accounts.applyTransaction at hApply
  rw [bind_eq_ok] at hApply
  rcases hApply with ⟨⟨val, origin⟩, hValidate, hApply⟩
  have hPrepared := hMapped.prepare hValidate
  dsimp only at hApply
  cases hCall : Accounts.dispatchCall chain (w.prepare val) origin
      tx.call with
  | error e =>
    rw [hCall] at hApply
    cases hApply
    exact hPrepared
  | ok w₁ =>
    rw [hCall] at hApply
    cases hApply
    exact hPrepared.dispatchCall hCall

--
-- Operations
--

variable [DecidableEq M]

/- One operation keeps the mappings, while ids are fresh. -/
theorem Mapped.perform {step : Service M A P S × AccountOp M A P S} (hMapped : w.Mapped)
    (hFresh : w.people.nextPersonalId + step.2.reservedIds ≤ u64Max)
    (hStep : w.perform step = .ok w') :
    w'.Mapped := by
  rcases step with ⟨chain, op⟩
  cases op with
  | transaction tx => exact hMapped.applyTransaction hStep
  | direct origin call => exact hMapped.dispatchCall hStep
  | cleanUpStaleAliases source aliases =>
    rcases Except.bind_eq_ok.mp hStep with ⟨_, _, hClean⟩
    exact hMapped.cleanUpStaleAliases hClean
  | cleanUpAlias ca => exact hMapped.cleanUpAlias hStep
  | reserveNewId =>
    cases hStep
    rcases hMapped.people.reserveNewId hFresh with ⟨hSound, hNew⟩
    exact hMapped.withPeople hSound fun account _ => hNew.none account
  | cancelIdReservation id =>
    unfold Accounts.perform Accounts.withPeople at hStep
    simp only [bind_eq_ok, fromPeople_eq_ok_iff, pure_eq_ok] at hStep
    rcases hStep with ⟨people, hCancel, rfl⟩
    rcases hMapped.people.cancelIdReservation hCancel with ⟨hSound, hNew⟩
    exact hMapped.withPeople hSound fun account _ => hNew.none account
  | renewIdReservation id =>
    unfold Accounts.perform Accounts.withPeople at hStep
    simp only [bind_eq_ok, fromPeople_eq_ok_iff, pure_eq_ok] at hStep
    rcases hStep with ⟨people, hRenew, rfl⟩
    rcases hMapped.people.renewIdReservation hRenew with ⟨hSound, hNew⟩
    exact hMapped.withPeople hSound fun account _ => hNew.none account
  | recognizePersonhood who key =>
    unfold Accounts.perform Accounts.withPeople at hStep
    simp only [bind_eq_ok, fromPeople_eq_ok_iff, pure_eq_ok] at hStep
    rcases hStep with ⟨people, hRecognize, rfl⟩
    rcases hMapped.people.recognizePersonhood hRecognize with ⟨hSound, hNew⟩
    exact hMapped.withPeople hSound fun account _ => hNew.none account
  | forceRecognizePersonhood keys =>
    unfold Accounts.perform Accounts.withPeople at hStep
    simp only [bind_eq_ok, fromPeople_eq_ok_iff, pure_eq_ok] at hStep
    rcases hStep with ⟨people, hForce, rfl⟩
    rcases hMapped.people.forceRecognizePersonhood hFresh hForce with ⟨hSound, hNew⟩
    exact hMapped.withPeople hSound fun account _ => hNew.none account
  | suspendPersonhood suspensions =>
    unfold Accounts.perform Accounts.withPeople at hStep
    simp only [bind_eq_ok, fromPeople_eq_ok_iff, pure_eq_ok] at hStep
    rcases hStep with ⟨people, hSuspend, rfl⟩
    rcases hMapped.people.suspendPersonhood hSuspend with ⟨hSound, hNew⟩
    exact hMapped.withPeople hSound fun account _ => hNew.none account

end Accounts

end Individuality.PeopleMulti
