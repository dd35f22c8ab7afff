import Individuality.PeopleMulti.Mappings

/-
  The accounts of people over whole runs: the mappings agree
  in every state, and the account of a person stands for an
  open history while no closed one is proven by a signature.

  Main declarations:
    * `Accounts.mappings_agree`
    * `Accounts.identities_open`
-/

namespace Individuality.PeopleMulti

open Except (bind_eq_ok pure_eq_ok)

variable {M A P S : Type} [DecidableEq M] [DecidableEq A]
variable {id : Nat} {account : A} {target : Nat → Prop}

--
-- Mappings over Runs
--

/- The counter of ids does not run out in a step. -/
def IdsFresh (w : Accounts M A) (step : Service M A P S × AccountOp M A P S)
    (_ : Accounts M A) : Prop :=
  w.people.nextPersonalId + step.2.reservedIds ≤ u64Max

/- A service that accepts everything, with one ring. -/
def sampleService : Service Nat Nat Unit Unit where
  now := 0
  block := 0
  addMembers := fun _ => true
  removeMembers := fun _ => true
  startRemovalSession := true
  endRemovalSession := true
  activeCount := 0
  accountToAlias := fun _ => false
  accountContexts := fun _ => true
  ringRevision := fun _ => some 0
  validNonce := fun _ _ => true
  verifyMembership := fun _ _ _ _ _ => some 1
  verifySignature := fun _ _ _ => true

/- A person asks for an account with a signature of the key. -/
def signedRequest (id account : Nat) : AccountOp Nat Nat Unit Unit :=
  .transaction
    { signer := none
      info := some (.personalIdentityWithProof () id)
      implication := 0
      call := .setPersonalIdAccount account 0 }

/- An alias asks for an account with a proof of membership. -/
def provenRequest (account : Nat) : AccountOp Nat Nat Unit Unit :=
  .transaction
    { signer := none
      info := some (.personalAliasWithProof () 0 0 0)
      implication := 0
      call := .setAliasAccount account 0 }

private def idsFreshHere (w : Accounts Nat Nat)
    (step : Service Nat Nat Unit Unit × AccountOp Nat Nat Unit Unit) : Bool :=
  decide (w.people.nextPersonalId + step.2.reservedIds ≤ u64Max)

private theorem idsFresh_of_here (w : Accounts Nat Nat)
    (step : Service Nat Nat Unit Unit × AccountOp Nat Nat Unit Unit) (w' : Accounts Nat Nat)
    (hCheck : idsFreshHere w step = true) :
    IdsFresh w step w' :=
  of_decide_eq_true (p := _ ≤ _) hCheck

/- Operations one after the other, with the small service. -/
private def performHere
    (check : Accounts Nat Nat → Service Nat Nat Unit Unit × AccountOp Nat Nat Unit Unit → Bool)
    (w : Accounts Nat Nat) (ops : List (AccountOp Nat Nat Unit Unit)) :
    Option (Accounts Nat Nat) :=
  execute Accounts.perform check w (ops.map fun op => (sampleService, op))

namespace Accounts

theorem mapped_of_run {w : Accounts M A}
    (hRun : RunUnder (perform (P := P) (S := S)) IdsFresh genesis w) :
    w.Mapped :=
  hRun.invariant Accounts.Mapped (fun _ _ _ hFresh hStep hMapped => hMapped.perform hFresh hStep)
    Mapped.genesis

/-
  Aliases and accounts, and personal ids and accounts, name each other, no account is named twice,
  and its references are those of the mappings that name it.
-/
theorem mappings_agree {w : Accounts M A}
    (hRun : RunUnder (perform (P := P) (S := S)) IdsFresh genesis w) :
    (∀ ca account, w.aliasToAccount.get ca = some account
          ↔ ∃ revCa, w.accountToAlias.get account = some revCa ∧ revCa.ca = ca)
      ∧ (∀ account id, w.people.accountToPersonalId.get account = some id
          ↔ ∃ record, w.people.people.get id = some record ∧ record.account = some account)
      ∧ (∀ account, ¬(w.accountToAlias.containsKey account = true
          ∧ w.people.accountToPersonalId.containsKey account = true))
      ∧ ∀ account, w.people.sufficients.getD account 0 = (if w.accountToAlias.containsKey account
            then 1 else 0)
          + (if w.people.accountToPersonalId.containsKey account
              then 1 else 0) := by
  have hMapped := mapped_of_run hRun
  refine ⟨hMapped.alias_iff, ?_, ?_, ?_⟩
  · intro account id
    constructor
    · exact hMapped.people.owned account id
    · rintro ⟨record, hGet, hAccount⟩
      exact hMapped.people.refs.linked id record account hGet hAccount
  · rintro account ⟨hAlias, hPerson⟩
    rcases StorageMap.containsKey_iff.mp hAlias with ⟨revCa, hRev⟩
    have hSome : w.accountToAlias.get account ≠ none := by
      rw [hRev]
      exact Option.some_ne_none revCa
    have hNone := hMapped.disjoint account hSome
    rw [StorageMap.containsKey_eq_false_iff.mpr hNone] at hPerson
    cases hPerson
  · intro account
    rw [hMapped.people.refs.count account, Nat.add_comm]
    rfl

/- A person with an account, and an alias with another one. -/
theorem mappings_agree_sample : ∃ w,
      RunUnder (perform (P := Unit) (S := Unit)) IdsFresh (genesis : Accounts Nat Nat) w
        ∧ (w.people.accountToPersonalId.get 5 = some 0
          ∧ w.aliasToAccount.get { alias_ := 1, context := 0 } = some 6)
        ∧ w.people.sufficients.getD 6 0 = (if w.accountToAlias.containsKey 6 then 1 else 0)
            + (if w.people.accountToPersonalId.containsKey 6
                then 1 else 0) := by
  have hExecute : (performHere idsFreshHere genesis [.reserveNewId, .recognizePersonhood 0 (some 7),
          signedRequest 0 5, provenRequest 6]).any
        (fun w =>
          decide (w.people.accountToPersonalId.get 5 = some 0 ∧ w.aliasToAccount.get
                { alias_ := 1, context := 0 }
              = some 6)) = true := by
    decide +kernel
  have hReached := exists_run_of_execute
      (fun w step w' hCheck _ => idsFresh_of_here w step w' hCheck)
      hExecute
  rcases hReached with ⟨w, hRun, hTest⟩
  exact ⟨w, hRun, of_decide_eq_true hTest, (mappings_agree hRun).2.2.2 6⟩

/- The registry after ids were reserved and given up again. -/
private def afterIds (n : Nat) : Accounts Nat Nat :=
  { (genesis : Accounts Nat Nat) with
    people := { PeopleState.genesis with nextPersonalId := n } }

private theorem run_afterIds (n : Nat) (hLe : n ≤ u64Max) :
    RunUnder (perform (P := Unit) (S := Unit)) (fun _ _ _ => True) (genesis : Accounts Nat Nat)
      (afterIds n) := by
  induction n with
  | zero => exact Relation.ReflTransGen.refl
  | succ n ih =>
    have hCancel : (afterIds n).people.reserveNewId.2.cancelIdReservation n
          = .ok (afterIds (n + 1)).people := by
      unfold PeopleState.cancelIdReservation PeopleState.reserveNewId afterIds
      dsimp only
      rw [saturatingAdd_of_le hLe, ensure_of (Finset.mem_insert_self n _)]
      change
        Except.ok { PeopleState.genesis with
          nextPersonalId := n + 1
          reservedPersonalId := (insert n (∅ : Finset Nat)).erase n }
        = _
      rw [Finset.erase_insert (Finset.notMem_empty n)]
      rfl
    have hReserve : perform (afterIds n) (sampleService, AccountOp.reserveNewId) = .ok
            { afterIds n with
              people := (afterIds n).people.reserveNewId.2 } :=
      rfl
    have hGiveUp : perform
            { afterIds n with
              people := (afterIds n).people.reserveNewId.2 }
            (sampleService, AccountOp.cancelIdReservation n)
          = .ok (afterIds (n + 1)) := by
      unfold perform withPeople
      dsimp only
      rw [hCancel]
      rfl
    exact ((ih (Nat.le_of_succ_le hLe)).snoc trivial hReserve).snoc trivial hGiveUp

/-
  The last personal id is reserved again after its person has
  an account, and the next person gets the id without it.
-/
theorem mappings_agree_fails : ∃ w,
      RunUnder (perform (P := Unit) (S := Unit)) (fun _ _ _ => True) (genesis : Accounts Nat Nat) w
        ∧ w.people.accountToPersonalId.get 5 = some u64Max
        ∧ (w.people.people.get u64Max).map PersonRecord.account = some none := by
  have hExecute : (performHere (fun _ _ => true) (afterIds u64Max)
        [.reserveNewId, .recognizePersonhood u64Max (some 7), signedRequest u64Max 5, .reserveNewId,
          .recognizePersonhood u64Max (some 8)]).any
        (fun w =>
          decide (w.people.accountToPersonalId.get 5 = some u64Max
              ∧ (w.people.people.get u64Max).map PersonRecord.account = some none)) = true := by
    decide +kernel
  have hReached := exists_run_of_execute (fun _ _ _ _ _ => (trivial : True)) hExecute
  rcases hReached with ⟨w, hRun, hTest⟩
  rw [decide_eq_true_eq] at hTest
  exact ⟨w, (run_afterIds u64Max (Nat.le_refl _)).trans hRun, hTest.1, hTest.2⟩

end Accounts

--
-- Open Histories
--

namespace PeopleState

/- Every account with a personal id is that of an open one. -/
def Opened (s : PeopleState M A) : Prop :=
  ∀ account id, s.accountToPersonalId.get account = some id → s.recognized id = some true

/- A person, if there is one, without an account. -/
def NoAccount (s : PeopleState M A) (id : Nat) : Prop :=
  ∀ record, s.people.get id = some record → record.account = none

variable {s s' : PeopleState M A} {chain : Chain M A}

omit [DecidableEq M] in
/- No link is new, and who is recognized remains so. -/
theorem Opened.of_links (hOpened : s.Opened) (hNew : s.NoNewLinks s')
    (hKept : ∀ id, s.recognized id = some true → s'.recognized id = some true) :
    s'.Opened := by
  intro account id hLink
  exact hKept id (hOpened account id (hNew account id hLink))

omit [DecidableEq M] in
/- What was stored for a suspension has no account. -/
theorem noAccount_foldl_storeSuspended (records : List (Nat × PersonRecord M A))
    {s : PeopleState M A} (hId : id ∈ records.map Prod.fst ∨ s.NoAccount id) :
    (records.foldl storeSuspended s).NoAccount id := by
  induction records generalizing s with
  | nil =>
    rcases hId with hMem | hNone
    · cases hMem
    · exact hNone
  | cons e rest ih =>
    rw [List.foldl_cons]
    apply ih
    rw [List.map_cons, List.mem_cons] at hId
    by_cases hEq : id = e.1
    · right
      intro record hGet
      rw [people_storeSuspended, hEq, StorageMap.get_insert_self] at hGet
      rw [← Option.some.inj hGet]
    · rcases hId with (hHead | hMem) | hNone
      · exact absurd hHead hEq
      · exact Or.inl hMem
      · right
        intro record hGet
        rw [people_storeSuspended, StorageMap.get_insert_of_ne _ _ hEq] at hGet
        exact hNone record hGet

omit [DecidableEq M] in
theorem noAccount_suspendPersonhood {suspensions : List Nat}
    (hSuspend : s.suspendPersonhood chain suspensions = .ok s') (hMem : id ∈ suspensions) :
    s'.NoAccount id := by
  unfold suspendPersonhood at hSuspend
  simp only [bind_eq_ok, ensure_eq_ok_iff, exists_const, pure_eq_ok] at hSuspend
  rcases hSuspend with ⟨records, hFold, _, rfl⟩
  rcases foldlM_closeRecord hFold (by simp) with ⟨_, hIds, _⟩
  apply noAccount_foldl_storeSuspended
  rw [hIds]
  exact Or.inl hMem

omit [DecidableEq M] in
/- A suspension leaves no account to those it closes. -/
theorem Opened.suspendPersonhood {suspensions : List Nat} (hOpened : s.Opened)
    (hNew : s.NoNewLinks s') (hOwned : s'.Owned)
    (hSuspend : s.suspendPersonhood chain suspensions = .ok s') :
    s'.Opened := by
  intro account id hLink
  rcases suspendPersonhood_spec hSuspend with ⟨_, _, _, hRecognized⟩
  have hNotMem : id ∉ suspensions := by
    intro hMem
    rcases hOwned account id hLink with ⟨record, hGet, hAccount⟩
    rw [noAccount_suspendPersonhood hSuspend hMem record hGet] at hAccount
    cases hAccount
  rw [hRecognized, if_neg hNotMem]
  exact hOpened account id (hNew account id hLink)

omit [DecidableEq A] in
/- To recognize somebody closes no history. -/
theorem recognized_recognizePersonhood {who : Nat} {key : Option M}
    (hRecognize : s.recognizePersonhood chain who key = .ok s') (id : Nat)
    (hOpen : s.recognized id = some true) :
    s'.recognized id = some true := by
  have hRecognized : s'.recognized id = if id = who then some true else s.recognized id := by
    cases key with
    | some key =>
      exact (recognizePersonhood_some_spec hRecognize).2.2.2 id
    | none =>
      exact (recognizePersonhood_none_spec hRecognize).2.2.2 id
  rw [hRecognized, hOpen]
  exact ite_self (some true)

omit [DecidableEq M] in
/- The account that is set is linked to the given id. -/
theorem links_setPersonalIdAccount {callValidAt : Nat}
    (hSet : s.setPersonalIdAccount chain id account callValidAt = .ok s') (account' : A) (id' : Nat)
    (hLink : s'.accountToPersonalId.get account' = some id') :
    s.accountToPersonalId.get account' = some id' ∨ id' = id := by
  unfold setPersonalIdAccount at hSet
  simp only [bind_eq_ok, ensure_eq_ok_iff, okOr_eq_ok_iff, exists_const, pure_eq_ok] at hSet
  rcases hSet with ⟨_, _, _, record, _, rfl⟩
  dsimp only [incSufficients] at hLink
  rw [StorageMap.get_insert, get_clearAccount] at hLink
  by_cases hEq : account' = account
  · rw [if_pos hEq] at hLink
    exact Or.inr (Option.some.inj hLink).symm
  · rw [if_neg hEq] at hLink
    by_cases hOld : record.account = some account'
    · rw [if_pos hOld] at hLink
      cases hLink
    · rw [if_neg hOld] at hLink
      exact Or.inl hLink

omit [DecidableEq M] in
theorem noNewLinks_unsetPersonalIdAccount (hUnset : s.unsetPersonalIdAccount id = .ok s') :
    s.NoNewLinks s' := by
  unfold unsetPersonalIdAccount at hUnset
  simp only [bind_eq_ok, ensure_eq_ok_iff, okOr_eq_ok_iff, exists_const, pure_eq_ok] at hUnset
  rcases hUnset with ⟨record, _, _, _, _, rfl⟩
  intro account id' hLink
  dsimp only at hLink
  rw [get_clearAccount] at hLink
  by_cases hAccount : record.account = some account
  · rw [if_pos hAccount] at hLink
    cases hLink
  · rw [if_neg hAccount] at hLink
    exact hLink

end PeopleState

--
-- Calls
--

namespace Accounts

variable {w w' : Accounts M A} {chain : Service M A P S}

/- People stay recognized or not, and only those that `target` tells get new accounts. -/
structure LinksOnly (w w' : Accounts M A) (target : Nat → Prop) : Prop where
  recognized : w'.people.recognized = w.people.recognized
  links : ∀ account id,
      w'.people.accountToPersonalId.get account = some id →
        w.people.accountToPersonalId.get account = some id ∨ target id

omit [DecidableEq M] in
/- Accounts of aliases only change the references. -/
theorem LinksOnly.of_people (hPeople : w'.people.people = w.people.people)
    (hLinks : w'.people.accountToPersonalId = w.people.accountToPersonalId) :
    w.LinksOnly w' target := by
  refine ⟨?_, ?_⟩
  · funext id
    unfold PeopleState.recognized
    rw [hPeople]
  · intro account id hLink
    rw [hLinks] at hLink
    exact Or.inl hLink

omit [DecidableEq M] in
theorem LinksOnly.trans {w'' : Accounts M A} (hFirst : w.LinksOnly w' target)
    (hRest : w'.LinksOnly w'' target) :
    w.LinksOnly w'' target := by
  refine ⟨hRest.recognized.trans hFirst.recognized, ?_⟩
  intro account id hLink
  rcases hRest.links account id hLink with hOld | hTarget
  · exact hFirst.links account id hOld
  · exact Or.inr hTarget

omit [DecidableEq M] in
theorem LinksOnly.setAliasAccount {revCa : RevisedContextualAlias} {callValidAt : Nat}
    (hSet : setAliasAccount chain w revCa account callValidAt = .ok w') :
    w.LinksOnly w' target := by
  unfold Accounts.setAliasAccount at hSet
  simp only [bind_eq_ok, ensure_eq_ok_iff, exists_const, pure_eq_ok] at hSet
  rcases hSet with ⟨_, _, _, _, w₁, hMove, rfl⟩
  unfold moveReference at hMove
  split at hMove
  · cases hMove
    exact LinksOnly.of_people rfl rfl
  · simp only [bind_eq_ok, ensure_eq_ok_iff, exists_const, pure_eq_ok] at hMove
    rcases hMove with ⟨_, rfl⟩
    cases w.aliasToAccount.get revCa.ca with
    | none => exact LinksOnly.of_people rfl rfl
    | some old => exact LinksOnly.of_people rfl rfl

omit [DecidableEq M] in
theorem LinksOnly.cleanUpAlias {ca : ContextualAlias} (hClean : w.cleanUpAlias ca = .ok w') :
    w.LinksOnly w' target := by
  unfold Accounts.cleanUpAlias at hClean
  simp only [bind_eq_ok, okOr_eq_ok_iff, ensure_eq_ok_iff, exists_const, pure_eq_ok] at hClean
  rcases hClean with ⟨_, _, _, _, _, rfl⟩
  exact LinksOnly.of_people rfl rfl

omit [DecidableEq M] in
theorem LinksOnly.foldl_cleanUpOne (aliases : List ContextualAlias) (s : Accounts M A × Nat) :
    s.1.LinksOnly (aliases.foldl cleanUpOne s).1 target := by
  induction aliases generalizing s with
  | nil => exact LinksOnly.of_people rfl rfl
  | cons ca rest ih =>
    rw [List.foldl_cons]
    refine LinksOnly.trans ?_ (ih (cleanUpOne s ca))
    unfold cleanUpOne
    cases hClean : s.1.cleanUpAlias ca with
    | error e => exact LinksOnly.of_people rfl rfl
    | ok w => exact LinksOnly.cleanUpAlias hClean

omit [DecidableEq M] in
/- A call links accounts to the personal id of its origin. -/
theorem LinksOnly.dispatchCall {origin : Origin A} {call : Call A}
    (hCall : dispatchCall chain w origin call = .ok w') :
    w.LinksOnly w' fun id => origin = .personalIdentity id := by
  induction call generalizing w w' origin with
  | underAlias call ih =>
    cases origin with
    | signed account =>
      unfold Accounts.dispatchCall at hCall
      simp only [bind_eq_ok, okOr_eq_ok_iff, ensure_eq_ok_iff, exists_const] at hCall
      rcases hCall with ⟨revCa, _, _, _, _, _, hCall⟩
      have hInner := ih hCall
      refine ⟨hInner.recognized, ?_⟩
      intro account' id hLink
      rcases hInner.links account' id hLink with hOld | hEq
      · exact Or.inl hOld
      · cases hEq
    | none_ | personalAlias | personalIdentity =>
      unfold Accounts.dispatchCall at hCall
      cases hCall
  | setAliasAccount account callValidAt =>
    cases origin with
    | personalAlias revCa =>
      unfold Accounts.dispatchCall at hCall
      exact LinksOnly.setAliasAccount hCall
    | none_ | signed | personalIdentity =>
      unfold Accounts.dispatchCall at hCall
      cases hCall
  | unsetAliasAccount =>
    cases origin with
    | personalAlias revCa =>
      unfold Accounts.dispatchCall Accounts.unsetAliasAccount at hCall
      simp only [bind_eq_ok, okOr_eq_ok_iff, pure_eq_ok] at hCall
      rcases hCall with ⟨_, _, rfl⟩
      exact LinksOnly.of_people rfl rfl
    | none_ | signed | personalIdentity =>
      unfold Accounts.dispatchCall at hCall
      cases hCall
  | setPersonalIdAccount account callValidAt =>
    cases origin with
    | personalIdentity id =>
      unfold Accounts.dispatchCall at hCall
      simp only [bind_eq_ok, fromPeople_eq_ok_iff, pure_eq_ok] at hCall
      rcases hCall with ⟨people, hSet, rfl⟩
      refine ⟨(PeopleState.setPersonalIdAccount_spec hSet).2.2, ?_⟩
      intro account' id' hLink
      rcases PeopleState.links_setPersonalIdAccount hSet account' id' hLink with hOld | hEq
      · exact Or.inl hOld
      · exact Or.inr (by rw [hEq])
    | none_ | signed | personalAlias =>
      unfold Accounts.dispatchCall at hCall
      cases hCall
  | unsetPersonalIdAccount =>
    cases origin with
    | personalIdentity id =>
      unfold Accounts.dispatchCall at hCall
      simp only [bind_eq_ok, fromPeople_eq_ok_iff, pure_eq_ok] at hCall
      rcases hCall with ⟨people, hUnset, rfl⟩
      refine ⟨(PeopleState.unsetPersonalIdAccount_spec hUnset).2.2, ?_⟩
      intro account id' hLink
      exact Or.inl (PeopleState.noNewLinks_unsetPersonalIdAccount hUnset account id' hLink)
    | none_ | signed | personalAlias =>
      unfold Accounts.dispatchCall at hCall
      cases hCall
  | batchAll first rest ihFirst ihRest =>
    have hBatch : (Accounts.dispatchCall chain w origin first >>= fun w₁ =>
              Accounts.dispatchCall chain w₁ origin rest)
          = .ok w' := by
      cases origin <;> exact hCall
    rcases Except.bind_eq_ok.mp hBatch with ⟨w₁, hFirst, hRest⟩
    exact (ihFirst hFirst).trans (ihRest hRest)
  | other =>
    have hSame : (.ok w : Except AccountError (Accounts M A)) = .ok w' := by
      cases origin <;> exact hCall
    cases hSame
    exact LinksOnly.of_people rfl rfl

omit [DecidableEq M] in
/- The people linked anew are recognized ones. -/
theorem LinksOnly.opened (hLinks : w.LinksOnly w' target)
    (hTarget : ∀ account id, w'.people.accountToPersonalId.get account = some id →
        target id → w.people.recognized id = some true)
    (hOpened : w.people.Opened) :
    w'.people.Opened := by
  intro account id hLink
  rw [hLinks.recognized]
  rcases hLinks.links account id hLink with hOld | hNew
  · exact hOpened account id hOld
  · exact hTarget account id hLink hNew

--
-- Origins of Transactions
--

omit [DecidableEq M] in
/-
  A personal identity is found through the account that signs,
  or is proven by a signature of a transaction nobody signs.
-/
theorem validate_identity {tx : Transaction A P S} {val : Val A}
    (hValidate : validate chain w tx = .ok (val, .personalIdentity id)) :
    (∃ who, tx.signer = some who ∧ w.people.accountToPersonalId.get who = some id)
      ∨ tx.signer = none ∧ ∃ signature,
          tx.info = some (.personalIdentityWithProof signature id) := by
  rcases tx with ⟨signer, info, implication, call⟩
  unfold validate at hValidate
  dsimp only at hValidate ⊢
  split at hValidate
  case h_3 who =>
    simp only [bind_eq_ok, okOr_eq_ok_iff, ensure_eq_ok_iff, exists_const, pure_eq_ok,
      Prod.mk.injEq, Origin.personalIdentity.injEq] at hValidate
    rcases hValidate with ⟨id', hGet, _, _, rfl⟩
    exact Or.inl ⟨_, rfl, hGet⟩
  case h_5 signature index =>
    split at hValidate
    · simp only [bind_eq_ok, okOr_eq_ok_iff, ensure_eq_ok_iff, exists_const, pure_eq_ok,
        Prod.mk.injEq, Origin.personalIdentity.injEq]
        at hValidate
      rcases hValidate with ⟨_, _, _, _, _, _, _, rfl⟩
      exact Or.inr ⟨rfl, _, rfl⟩
    · cases hValidate
  case h_6 =>
    unfold Transaction.origin at hValidate
    cases signer <;> cases hValidate
  -- the other variants find an alias
  all_goals
    try split at hValidate
  all_goals
    simp only [bind_eq_ok, pure_eq_ok, Prod.mk.injEq, reduceCtorEq, and_false, exists_false]
      at hValidate

omit [DecidableEq M] in
/- The preparation touches nothing but revisions. -/
@[simp] theorem people_prepare (w : Accounts M A) (val : Val A) :
    (w.prepare val).people = w.people := by
  cases val <;> rfl

end Accounts

--
-- Recognized People
--

/-
  Ids are fresh, and no closed history is proven by the
  signature of its key, nor the origin of another call.
-/
def ProofsOfRecognized (w : Accounts M A) (step : Service M A P S × AccountOp M A P S)
    (w' : Accounts M A) : Prop :=
  IdsFresh w step w' ∧ match step.2 with
      | .transaction tx =>
        ∀ signature index, tx.info = some (.personalIdentityWithProof signature index) →
            w.people.recognized index ≠ some false
      | .direct (.personalIdentity id) _ =>
        w.people.recognized id ≠ some false
      | _ => True

namespace Accounts

variable {w w' : Accounts M A} {chain : Service M A P S}

omit [DecidableEq M] in
/- Only people have accounts. -/
theorem Mapped.recognized_ne_none (hMapped : w.Mapped)
    (hLink : w.people.accountToPersonalId.get account = some id) :
    w.people.recognized id ≠ none := by
  rcases hMapped.people.owned account id hLink with ⟨record, hGet, _⟩
  unfold PeopleState.recognized
  rw [hGet]
  exact Option.some_ne_none _

omit [DecidableEq M] in
/- A call for somebody whose history is not closed. -/
theorem opened_dispatchCall {origin : Origin A} {call : Call A} (hMapped : w.Mapped)
    (hOpened : w.people.Opened)
    (hOrigin : ∀ id, origin = .personalIdentity id → w.people.recognized id ≠ some false)
    (hCall : dispatchCall chain w origin call = .ok w') :
    w'.people.Opened := by
  have hLinks := LinksOnly.dispatchCall hCall
  refine hLinks.opened ?_ hOpened
  intro account id hLink hTarget
  have hSome := (hMapped.dispatchCall hCall).recognized_ne_none hLink
  rw [hLinks.recognized] at hSome
  cases hRecognized : w.people.recognized id with
  | none => exact absurd hRecognized hSome
  | some isOpen =>
    cases isOpen with
    | true => rfl
    | false => exact absurd hRecognized (hOrigin id hTarget)

omit [DecidableEq M] in
theorem opened_applyTransaction {tx : Transaction A P S} (hMapped : w.Mapped)
    (hOpened : w.people.Opened)
    (hProof : ∀ signature index, tx.info = some (.personalIdentityWithProof signature index) →
        w.people.recognized index ≠ some false)
    (hApply : applyTransaction chain w tx = .ok w') :
    w'.people.Opened := by
  unfold Accounts.applyTransaction at hApply
  rw [bind_eq_ok] at hApply
  rcases hApply with ⟨⟨val, origin⟩, hValidate, hApply⟩
  have hPrepared := hMapped.prepare hValidate
  have hOpened₁ : (w.prepare val).people.Opened := by
    rw [people_prepare]
    exact hOpened
  have hOrigin : ∀ id, origin = .personalIdentity id →
        (w.prepare val).people.recognized id ≠ some false := by
    rintro id rfl
    rw [people_prepare]
    rcases validate_identity hValidate with ⟨who, _, hLink⟩ | ⟨_, signature, hInfo⟩
    · rw [hOpened who id hLink]
      decide
    · exact hProof signature id hInfo
  dsimp only at hApply
  cases hCall : Accounts.dispatchCall chain (w.prepare val) origin
      tx.call with
  | error e =>
    rw [hCall] at hApply
    cases hApply
    exact hOpened₁
  | ok w₁ =>
    rw [hCall] at hApply
    cases hApply
    exact opened_dispatchCall hPrepared hOpened₁ hOrigin hCall

/- Every operation leaves accounts to recognized people. -/
theorem opened_perform {step : Service M A P S × AccountOp M A P S} (hMapped : w.Mapped)
    (hOpened : w.people.Opened) (hAllowed : ProofsOfRecognized w step w')
    (hStep : w.perform step = .ok w') :
    w'.people.Opened := by
  rcases step with ⟨chain, op⟩
  rcases hAllowed with ⟨hFresh, hProof⟩
  cases op with
  | transaction tx =>
    exact opened_applyTransaction hMapped hOpened hProof hStep
  | direct origin call =>
    refine opened_dispatchCall hMapped hOpened ?_ hStep
    rintro id rfl
    exact hProof
  | cleanUpStaleAliases source aliases =>
    rcases Except.bind_eq_ok.mp hStep with ⟨_, _, hClean⟩
    unfold Accounts.cleanUpStaleAliases at hClean
    simp only [bind_eq_ok, ensure_eq_ok_iff, exists_const, pure_eq_ok] at hClean
    rcases hClean with ⟨_, rfl⟩
    exact (LinksOnly.foldl_cleanUpOne aliases.toList (w, 0)).opened
        (fun _ _ _ hFalse => absurd hFalse id) hOpened
  | cleanUpAlias ca =>
    have hLinks : w.LinksOnly w' fun _ => False := LinksOnly.cleanUpAlias hStep
    exact hLinks.opened (fun _ _ _ hFalse => hFalse.elim) hOpened
  | reserveNewId =>
    cases hStep
    exact hOpened.of_links (fun _ _ h => h) fun _ h => h
  | cancelIdReservation id =>
    unfold Accounts.perform Accounts.withPeople PeopleState.cancelIdReservation at hStep
    simp only [bind_eq_ok, fromPeople_eq_ok_iff, ensure_eq_ok_iff, exists_const,
      pure_eq_ok] at hStep
    rcases hStep with ⟨_, ⟨_, rfl⟩, rfl⟩
    exact hOpened.of_links (fun _ _ h => h) fun _ h => h
  | renewIdReservation id =>
    unfold Accounts.perform Accounts.withPeople PeopleState.renewIdReservation at hStep
    simp only [bind_eq_ok, fromPeople_eq_ok_iff, ensure_eq_ok_iff, exists_const,
      pure_eq_ok] at hStep
    rcases hStep with ⟨_, ⟨_, rfl⟩, rfl⟩
    exact hOpened.of_links (fun _ _ h => h) fun _ h => h
  | recognizePersonhood who key =>
    unfold Accounts.perform Accounts.withPeople at hStep
    simp only [bind_eq_ok, fromPeople_eq_ok_iff, pure_eq_ok] at hStep
    rcases hStep with ⟨people, hRecognize, rfl⟩
    refine hOpened.of_links (hMapped.people.recognizePersonhood hRecognize).2 ?_
    exact PeopleState.recognized_recognizePersonhood hRecognize
  | forceRecognizePersonhood keys =>
    unfold Accounts.perform Accounts.withPeople at hStep
    simp only [bind_eq_ok, fromPeople_eq_ok_iff, pure_eq_ok] at hStep
    rcases hStep with ⟨people, hForce, rfl⟩
    refine hOpened.of_links (hMapped.people.forceRecognizePersonhood hFresh hForce).2 ?_
    intro id hOpen
    have hKept := (PeopleState.forceRecognizePersonhood_spec hMapped.people.tracked hFresh hForce).2
    rw [hKept id (by rw [hOpen]; exact Option.some_ne_none _)]
    exact hOpen
  | suspendPersonhood suspensions =>
    unfold Accounts.perform Accounts.withPeople at hStep
    simp only [bind_eq_ok, fromPeople_eq_ok_iff, pure_eq_ok] at hStep
    rcases hStep with ⟨people, hSuspend, rfl⟩
    rcases hMapped.people.suspendPersonhood hSuspend with ⟨hSound, hNew⟩
    exact hOpened.suspendPersonhood hNew hSound.owned hSuspend

/-
  While no closed history is proven, an account with a personal id is that of a recognized person,
  and so is the origin of every transaction that an account signs.
-/
theorem identities_open (hRun : RunUnder (perform (P := P) (S := S)) ProofsOfRecognized genesis w) :
    (∀ account id, w.people.accountToPersonalId.get account = some id →
          w.people.recognized id = some true)
      ∧ ∀ (chain : Service M A P S) (tx : Transaction A P S) (val : Val A) (id : Nat),
          tx.signer ≠ none →
          validate chain w tx = .ok (val, .personalIdentity id) →
            w.people.recognized id = some true := by
  have hInvariant : w.Mapped ∧ w.people.Opened := by
    refine hRun.invariant (fun w => w.Mapped ∧ w.people.Opened) ?_ ?_
    · rintro w₁ step w₂ hAllowed hStep ⟨hMapped, hOpened⟩
      exact ⟨hMapped.perform hAllowed.1 hStep, opened_perform hMapped hOpened hAllowed hStep⟩
    · refine ⟨Mapped.genesis, ?_⟩
      intro account id hLink
      cases hLink
  refine ⟨hInvariant.2, ?_⟩
  intro chain tx val id hSigned hValidate
  rcases validate_identity hValidate with ⟨who, _, hLink⟩ | ⟨hNone, _⟩
  · exact hInvariant.2 who id hLink
  · exact absurd hNone hSigned

private def recognizedHere (w : Accounts Nat Nat)
    (step : Service Nat Nat Unit Unit × AccountOp Nat Nat Unit Unit) : Bool :=
  idsFreshHere w step && match step.2 with
      | .transaction tx =>
        match tx.info with
        | some (.personalIdentityWithProof _ index) =>
          decide (w.people.recognized index ≠ some false)
        | _ => true
      | .direct (.personalIdentity id) _ =>
        decide (w.people.recognized id ≠ some false)
      | _ => true

private theorem proofsOfRecognized_of_check (w : Accounts Nat Nat)
    (step : Service Nat Nat Unit Unit × AccountOp Nat Nat Unit Unit) (w' : Accounts Nat Nat)
    (hCheck : recognizedHere w step = true) :
    ProofsOfRecognized w step w' := by
  rcases step with ⟨chain, op⟩
  unfold recognizedHere at hCheck
  rw [Bool.and_eq_true] at hCheck
  rcases hCheck with ⟨hFresh, hProof⟩
  refine ⟨idsFresh_of_here w _ w' hFresh, ?_⟩
  cases op with
  | transaction tx =>
    intro signature index hInfo
    dsimp only at hProof
    rw [hInfo] at hProof
    exact of_decide_eq_true hProof
  | direct origin call =>
    cases origin with
    | personalIdentity id => exact of_decide_eq_true hProof
    | none_ | signed | personalAlias => trivial
  | cleanUpStaleAliases | cleanUpAlias | reserveNewId
    | cancelIdReservation | renewIdReservation
    | recognizePersonhood | forceRecognizePersonhood
    | suspendPersonhood => trivial

/- A suspended person loses the account, another keeps it. -/
theorem identities_open_sample : ∃ w,
      RunUnder (perform (P := Unit) (S := Unit)) ProofsOfRecognized (genesis : Accounts Nat Nat) w
        ∧ (w.people.accountToPersonalId.get 5 = none ∧ w.people.recognized 0 = some false
          ∧ w.people.accountToPersonalId.get 6 = some 1)
        ∧ ∀ account id, w.people.accountToPersonalId.get account = some id →
            w.people.recognized id = some true := by
  have hExecute : (performHere recognizedHere genesis
        [.forceRecognizePersonhood [7, 8], signedRequest 0 5,
          signedRequest 1 6, .suspendPersonhood [0]]).any
        (fun w =>
          decide (w.people.accountToPersonalId.get 5 = none ∧ w.people.recognized 0 = some false
              ∧ w.people.accountToPersonalId.get 6 = some 1)) = true := by
    decide +kernel
  have hReached := exists_run_of_execute
      (fun w step w' hCheck _ => proofsOfRecognized_of_check w step w' hCheck)
      hExecute
  rcases hReached with ⟨w, hRun, hTest⟩
  exact ⟨w, hRun, of_decide_eq_true hTest, (identities_open hRun).1⟩

/-
  A suspended person signs for an account, and transactions
  of the account have the origin of the person again.
-/
theorem identities_open_fails : ∃ w,
      RunUnder (perform (P := Unit) (S := Unit)) IdsFresh (genesis : Accounts Nat Nat) w
        ∧ w.people.accountToPersonalId.get 5 = some 0
        ∧ w.people.recognized 0 = some false
        ∧ (validate sampleService w
            { signer := some 5
              info := some (.personalIdentityWithAccount 0)
              implication := 0
              call := .other }).map Prod.snd
          = .ok (.personalIdentity 0) := by
  have hExecute : (performHere idsFreshHere genesis [.reserveNewId, .recognizePersonhood 0 (some 7),
          .suspendPersonhood [0], signedRequest 0 5]).any
        (fun w =>
          decide (w.people.accountToPersonalId.get 5 = some 0 ∧ w.people.recognized 0 = some false
              ∧ (validate sampleService w
                  { signer := some 5
                    info := some (.personalIdentityWithAccount 0)
                    implication := 0
                    call := .other }).map Prod.snd
                = .ok (.personalIdentity 0))) = true := by
    decide +kernel
  have hReached := exists_run_of_execute
      (fun w step w' hCheck _ => idsFresh_of_here w step w' hCheck)
      hExecute
  rcases hReached with ⟨w, hRun, hTest⟩
  exact ⟨w, hRun, of_decide_eq_true hTest⟩

end Accounts

end Individuality.PeopleMulti
