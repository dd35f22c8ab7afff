import Individuality.PeopleLite.Pallet

/-
  What the calls of the people-lite pallet have checked, and what they write, when they succeed.

  Main declaration: `LiteState.withLitePerson`
-/

namespace Individuality.PeopleLite

open Except (bind_eq_ok pure_eq_ok)

open PeopleMulti
  (Bytes32 ContextualAlias RevisedContextualAlias)
open Resources (Username ResourceState)

namespace LiteState

variable {K M A G P S : Type} [DecidableEq M] [DecidableEq A] {s s' : LiteState M A}
variable {service : Service K M A G P S}

--
-- Registration
--

/- A new lite person, with its key in the collection. -/
def withLitePerson (s : LiteState M A) (candidate : A)
    (info : LitePersonInfo M A) : LiteState M A :=
  { s with
    litePeople := s.litePeople.insert candidate info
    collection := s.collection.insert info.ringVrfKey ()
    sufficients := s.sufficients.insert candidate (saturatingAdd u32Max
        (s.sufficients.getD candidate 0) 1) }

theorem insertLitePerson_eq_ok {candidate : A} {info : LitePersonInfo M A}
    (hInsert : insertLitePerson service s candidate info = .ok s') :
    s' = s.withLitePerson candidate info := by
  unfold insertLitePerson at hInsert
  simp only [bind_eq_ok, ensure_eq_ok_iff, exists_const, pure_eq_ok] at hInsert
  exact hInsert.2.symm

theorem ensureNewCandidate_eq_ok {candidate : A} {ringVrfKey : M}
    (hNew : s.ensureNewCandidate candidate ringVrfKey = .ok ()) :
    s.litePeople.get candidate = none ∧ s.accountToAlias.get candidate = none
      ∧ s.collection.get ringVrfKey = none := by
  unfold ensureNewCandidate at hNew
  simp only [bind_eq_ok, ensure_eq_ok_iff, exists_const] at hNew
  exact ⟨StorageMap.containsKey_eq_false_iff.mp hNew.1,
      StorageMap.containsKey_eq_false_iff.mp hNew.2.1,
      StorageMap.containsKey_eq_false_iff.mp hNew.2.2⟩

omit [DecidableEq M] in
theorem spendAttestation_eq_ok {verifier : A} (hSpend : s.spendAttestation verifier = .ok s') :
    ∃ allowance, s' = { s with attestationAllowance := allowance } := by
  unfold spendAttestation at hSpend
  simp only [bind_eq_ok, ensure_eq_ok_iff, exists_const, pure_eq_ok] at hSpend
  exact ⟨_, hSpend.2.symm⟩

/- The window of the period that a registration starts in. -/
def windowAt (s : LiteState M A) (period : Nat) : PaidRegistrationWindow :=
  if s.paidRegistrations.period ≠ period then
    { period := period, registrations := 0 }
  else s.paidRegistrations

/- A paid registration counts in the period it starts in. -/
def withPaidStart (s : LiteState M A) (start : Nat) : LiteState M A :=
  let window := s.windowAt (min start u32Max)
  { s with
    paidRegistrations :=
      { window with
        registrations := saturatingAdd u32Max window.registrations 1 }
    paidStarts := s.paidStarts ++ [start] }

omit [DecidableEq M] [DecidableEq A] in
theorem throttlePaidRegistration_eq_ok {params : Parameters} {now count : Nat}
    (hThrottle : throttlePaidRegistration params s now count = .ok s') :
    s' = s ∨ ((s.windowAt (min (now / params.paidRegistrationPeriod) u32Max)).registrations
          < params.paidRegistrationsPerPeriod
        ∧ s' = s.withPaidStart (now / params.paidRegistrationPeriod)) := by
  unfold throttlePaidRegistration at hThrottle
  split_ifs at hThrottle with hFree
  · cases hThrottle
    exact Or.inl rfl
  · simp only [bind_eq_ok, ensure_eq_ok_iff, exists_const, pure_eq_ok] at hThrottle
    exact Or.inr ⟨hThrottle.1, hThrottle.2.symm⟩

--
-- Aliases
--

omit [DecidableEq M] in
/-
  What a successful call has checked: the account is the one of the alias already, or it has neither
  an alias nor a lite person.
-/
theorem setAliasAccount_eq_ok
    {block validAtBlock : Nat} {revCa : RevisedContextualAlias} {account : A}
    (hSet : setAliasAccount service s block revCa account validAtBlock = .ok s') :
    s.litePeople.get account = none ∧ ∃ moved,
        s.moveReference (s.aliasToAccount.get revCa.ca) account = .ok moved ∧ s' =
            { moved with
              accountToAlias := moved.accountToAlias.insert account revCa
              aliasToAccount := moved.aliasToAccount.insert revCa.ca account } := by
  unfold setAliasAccount at hSet
  simp only [bind_eq_ok, ensure_eq_ok_iff, exists_const, pure_eq_ok] at hSet
  rcases hSet with ⟨_, _, hNotLite, _, moved, hMoved, rfl⟩
  exact ⟨StorageMap.containsKey_eq_false_iff.mp hNotLite, moved, hMoved, rfl⟩

omit [DecidableEq M] in
theorem unsetAliasAccount_eq_ok {ca : ContextualAlias} (hUnset : s.unsetAliasAccount ca = .ok s') :
    ∃ account, s.aliasToAccount.get ca = some account ∧ s' =
        ({ s with
            aliasToAccount := s.aliasToAccount.remove ca
            accountToAlias := s.accountToAlias.remove account } :
          LiteState M A).decSufficients account := by
  unfold unsetAliasAccount at hUnset
  simp only [bind_eq_ok, okOr_eq_ok_iff, pure_eq_ok] at hUnset
  rcases hUnset with ⟨account, hGet, rfl⟩
  exact ⟨account, hGet, rfl⟩

end LiteState

namespace World

variable {C : Resources.Config} {K M A G P S : Type} [DecidableEq M] [DecidableEq A]
variable {w w' : World C K M A} {service : Service K M A G P S}

--
-- Calls
--

omit [DecidableEq M] in
theorem registerConsumer_eq_ok {account : A} {identifierKey : K} {username : Username}
    {reserved : Option Username}
    (hRegister : w.registerConsumer account identifierKey username reserved = .ok w') :
    ∃ resources, w.resources.registerLiteConsumerInner account identifierKey
          username reserved = .ok resources
        ∧ w' = { w with resources := resources } := by
  unfold registerConsumer at hRegister
  split at hRegister
  · next resources hOk =>
      cases hRegister
      exact ⟨resources, hOk, rfl⟩
  · cases hRegister

/- A lite person is there, and perhaps a consumer, too. -/
def Enrolled (w : World C K M A) (lite : LiteState M A)
    (params : Option (LiteConsumerRegistrationParams K A G)) (w' : World C K M A) : Prop :=
  match params with
  | none => w' = { w with lite := lite }
  | some params =>
    ∃ resources, w.resources.registerLiteConsumerInner params.account
          params.identifierKey params.username
          params.reservedUsername = .ok resources
        ∧ w' = { w with lite := lite, resources := resources }

omit [DecidableEq M] in
theorem Enrolled.lite_eq {lite : LiteState M A}
    {params : Option (LiteConsumerRegistrationParams K A G)}
    (hEnrolled : w.Enrolled lite params w') :
    w'.lite = lite := by
  cases params with
  | none =>
    rw [show w' = _ from hEnrolled]
  | some params =>
    rcases hEnrolled with ⟨_, _, rfl⟩
    rfl

theorem attest_eq_ok {verifier candidate : A} {candidateSignature : G} {ringVrfKey : M}
    {proofOfOwnership : S} {params : Option (LiteConsumerRegistrationParams K A G)}
    (hAttest : w.attest service verifier candidate candidateSignature
        ringVrfKey proofOfOwnership params = .ok w') :
    w.lite.litePeople.get candidate = none ∧ w.lite.accountToAlias.get candidate = none
      ∧ w.lite.collection.get ringVrfKey = none
      ∧ w.lite.count < service.maxLitePeople
      ∧ ∃ allowance, w.Enrolled (({ w.lite with attestationAllowance := allowance } :
              LiteState M A).withLitePerson candidate
            { ringVrfKey := ringVrfKey
              method := .uniqueDevice verifier })
          params w' := by
  unfold attest LiteState.ensureBelowLitePeopleCap at hAttest
  simp only [bind_eq_ok, ensure_eq_ok_iff, exists_const, pure_eq_ok] at hAttest
  rcases hAttest with ⟨_, hNew, spent, hSpend, _, _, _, ⟨hCap, _⟩, _, _, lite, hInsert, hRest⟩
  rcases LiteState.spendAttestation_eq_ok hSpend with ⟨allowance, rfl⟩
  rcases LiteState.ensureNewCandidate_eq_ok hNew with ⟨hPerson, hAlias, hKey⟩
  have hLite := LiteState.insertLitePerson_eq_ok hInsert
  refine ⟨hPerson, hAlias, hKey, hCap, allowance, ?_⟩
  rw [hLite] at hRest
  cases params with
  | none => exact (Except.pure_eq_ok.mp hRest).symm
  | some params =>
    unfold registerLiteConsumer at hRest
    simp only [bind_eq_ok, ensure_eq_ok_iff, exists_const] at hRest
    exact registerConsumer_eq_ok hRest.2

theorem registerWithFee_eq_ok {candidate : A} {ringVrfKey : M} {proofOfOwnership : S}
    {params : Option (LiteConsumerRegistrationParams K A G)}
    (hRegister : w.registerWithFee service candidate ringVrfKey proofOfOwnership params = .ok w') :
    w.lite.litePeople.get candidate = none ∧ w.lite.accountToAlias.get candidate = none
      ∧ w.lite.collection.get ringVrfKey = none
      ∧ (∀ request, params = some request → request.account = candidate)
      ∧ w.lite.count < service.maxLitePeople
      ∧ ∃ throttled, LiteState.throttlePaidRegistration service.toParameters
            w.lite w.resources.now w.lite.count
            = .ok throttled
          ∧ w.Enrolled (throttled.withLitePerson candidate
              { ringVrfKey := ringVrfKey, method := .fee })
            params w' := by
  unfold registerWithFee LiteState.ensureBelowLitePeopleCap at hRegister
  simp only [bind_eq_ok, ensure_eq_ok_iff, exists_const, pure_eq_ok] at hRegister
  rcases hRegister with ⟨_, hNew, hAccount, _, _, _, ⟨hCap, rfl⟩, throttled,
      hThrottled, _, _, lite, hInsert, hRest⟩
  rcases LiteState.ensureNewCandidate_eq_ok hNew with ⟨hPerson, hAlias, hKey⟩
  have hLite := LiteState.insertLitePerson_eq_ok hInsert
  refine ⟨hPerson, hAlias, hKey, ?_, hCap, throttled, hThrottled, ?_⟩
  · rintro request rfl
    exact of_decide_eq_true hAccount
  · rw [hLite] at hRest
    cases params with
    | none => exact (Except.pure_eq_ok.mp hRest).symm
    | some params =>
      unfold registerLiteConsumer at hRest
      simp only [bind_eq_ok, ensure_eq_ok_iff, exists_const] at hRest
      exact registerConsumer_eq_ok hRest.2

/- What a call does to the world, one at a time. -/
inductive Did (service : Service K M A G P S) (w : World C K M A) : World C K M A → Prop
  | attest
      {verifier candidate : A}
      {candidateSignature : G}
      {ringVrfKey : M}
      {proofOfOwnership : S}
      {params : Option (LiteConsumerRegistrationParams K A G)}
      {w' : World C K M A}
      (hAttest : w.attest service verifier candidate candidateSignature
          ringVrfKey proofOfOwnership params = .ok w') :
      Did service w w'
  | registerWithFee {candidate : A} {ringVrfKey : M} {proofOfOwnership : S}
      {params : Option (LiteConsumerRegistrationParams K A G)} {w' : World C K M A}
      (hRegister : w.registerWithFee service candidate ringVrfKey
          proofOfOwnership params = .ok w') :
      Did service w w'
  | setAliasAccount {revCa : RevisedContextualAlias} {account : A} {validAtBlock : Nat}
      {lite : LiteState M A}
      (hSet : w.lite.setAliasAccount service w.block revCa account
          validAtBlock = .ok lite) :
      Did service w { w with lite := lite }
  | unsetAliasAccount {ca : ContextualAlias} {lite : LiteState M A}
      (hUnset : w.lite.unsetAliasAccount ca = .ok lite) :
      Did service w { w with lite := lite }
  | registerLitePerson {account : A} {identifierKey : K} {username : Username}
      {reserved : Option Username} {w' : World C K M A}
      (hRegister : w.registerConsumer account identifierKey username
          reserved = .ok w') :
      Did service w w'

/- A call does one thing after the other. -/
theorem did_of_dispatchCall {origin : Origin A} {call : Call K M A G S}
    (hDispatch : dispatchCall service w origin call = .ok w') :
    Relation.ReflTransGen (Did service) w w' := by
  induction call generalizing w w' origin with
  | attest | registerWithFee =>
    cases origin <;> unfold dispatchCall at hDispatch
    case signed =>
      first
        | exact Relation.ReflTransGen.single (.attest hDispatch)
        | exact
            Relation.ReflTransGen.single (.registerWithFee hDispatch)
    all_goals cases hDispatch
  | dispatchAsSigner call ih =>
    cases origin <;> unfold dispatchCall at hDispatch
    case litePerson => exact ih hDispatch
    all_goals cases hDispatch
  | setAliasAccount account validAtBlock =>
    cases origin <;> unfold dispatchCall at hDispatch
    case liteAlias =>
      simp only [bind_eq_ok, pure_eq_ok] at hDispatch
      rcases hDispatch with ⟨lite, hSet, rfl⟩
      exact Relation.ReflTransGen.single (.setAliasAccount hSet)
    all_goals cases hDispatch
  | unsetAliasAccount =>
    cases origin <;> unfold dispatchCall at hDispatch
    case liteAlias =>
      simp only [bind_eq_ok, pure_eq_ok] at hDispatch
      rcases hDispatch with ⟨lite, hUnset, rfl⟩
      exact Relation.ReflTransGen.single (.unsetAliasAccount hUnset)
    all_goals cases hDispatch
  | registerLitePerson identifierKey username reserved =>
    cases origin <;> unfold dispatchCall at hDispatch
    case litePerson =>
      exact Relation.ReflTransGen.single (.registerLitePerson hDispatch)
    all_goals cases hDispatch
  | batchAll first rest ihFirst ihRest =>
    unfold dispatchCall at hDispatch
    simp only [bind_eq_ok] at hDispatch
    rcases hDispatch with ⟨middle, hFirst, hRest⟩
    exact (ihFirst hFirst).trans (ihRest hRest)
  | other =>
    cases origin <;> unfold dispatchCall at hDispatch <;>
      cases hDispatch <;> exact Relation.ReflTransGen.refl

--
-- Transactions
--

/- What is stored before the call of a transaction. -/
inductive Prepared (w : World C K M A) :
    World C K M A → Prop
  | same : Prepared w w
  | revised {who : A} {old revCa : RevisedContextualAlias}
      (hOld : w.lite.accountToAlias.get who = some old) (hSame : revCa.ca = old.ca) :
      Prepared w
        { w with
          lite :=
            { w.lite with
              accountToAlias :=
                w.lite.accountToAlias.insert who revCa } }

omit [DecidableEq M] in
theorem prepared_of_validate {tx : Transaction K M A G P S} {validated : Val A × Origin A}
    (hValid : validate service w tx = .ok validated) :
    Prepared w (w.prepare validated.1) := by
  unfold validate at hValid
  split at hValid
  · simp only [bind_eq_ok, ensure_eq_ok_iff, exists_const, pure_eq_ok] at hValid
    rcases hValid with ⟨_, _, rfl⟩
    exact .same
  · simp only [bind_eq_ok, okOr_eq_ok_iff, ensure_eq_ok_iff, exists_const, pure_eq_ok]
      at hValid
    rcases hValid with ⟨_, _, _, _, _, _, rfl⟩
    exact .same
  · split at hValid
    · simp only [bind_eq_ok, ensure_eq_ok_iff, exists_const, pure_eq_ok] at hValid
      rcases hValid with ⟨_, _, _, _, _, _, rfl⟩
      exact .same
    · cases hValid
  · simp only [bind_eq_ok, okOr_eq_ok_iff, ensure_eq_ok_iff, exists_const, pure_eq_ok]
      at hValid
    rcases hValid with ⟨old, hOld, _, revCa, _, ⟨hAlias, hContext⟩, _, rfl⟩
    refine .revised hOld ?_
    rcases hCa : revCa.ca with ⟨alias_, context⟩
    rcases hCa' : old.ca with ⟨alias', context'⟩
    rw [hCa, hCa'] at hAlias hContext
    simp only at hAlias hContext
    rw [hAlias, hContext]
  · cases hValid
    exact .same
  · cases hValid

/- A transaction prepares, and then its call does something. -/
theorem applyTransaction_eq_ok {tx : Transaction K M A G P S}
    (hApply : applyTransaction service w tx = .ok w') :
    ∃ origin prepared, validate service w tx = .ok origin ∧ prepared = w.prepare origin.1
        ∧ Prepared w prepared
        ∧ (w' = prepared ∨ dispatchCall service prepared origin.2 tx.call = .ok w') := by
  unfold applyTransaction at hApply
  simp only [bind_eq_ok] at hApply
  rcases hApply with ⟨validated, hValid, hDispatch⟩
  refine ⟨validated, _, hValid, rfl, prepared_of_validate hValid, ?_⟩
  split at hDispatch
  · next hOk =>
      cases hDispatch
      exact Or.inr hOk
  · cases hDispatch
    exact Or.inl rfl

end World

end Individuality.PeopleLite
