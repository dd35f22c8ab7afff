import Individuality.PeopleLite.LitePeople

/-
  The consumers that are registered through the people-lite pallet are lite people, unless an
  attestation names somebody else.

  Main declaration: `World.consumers_are_lite_people`
-/

namespace Individuality

open Except (bind_eq_ok pure_eq_ok)

namespace Resources

namespace ResourceState

variable {C : Config} {K A P S : Type} [DecidableEq A] {s s' : ResourceState C K A}
variable {service : Service A P S}

--
-- Who Becomes a Consumer
--

/- A registration makes one account a consumer. -/
theorem containsKey_consumers_of_registerLite
    {account : A} {identifierKey : K} {username : Username} {reserved : Option Username}
    (hRegister : s.registerLiteConsumerInner account identifierKey username reserved = .ok s')
    (account' : A) :
    s'.consumers.containsKey account' = (decide (account' = account)
        || s.consumers.containsKey account') := by
  rcases registerLiteConsumerInner_eq_ok hRegister with ⟨_, _, _, reserving, hReserving, rfl⟩
  have hSame : reserving.consumers = s.consumers := by
    rcases hReserving with rfl | ⟨name, hReserve⟩
    · rfl
    · rcases reserveUsername_eq_ok hReserve with ⟨_, _, _, queue, _, rfl⟩
      rfl
  unfold increaseAllowanceBy ResourceState.withLiteConsumer
  dsimp only
  rw [StorageMap.containsKey_insert, hSame]

/- A record that is written anew was there before. -/
theorem containsKey_consumers_insert {account : A} {old : ConsumerInfo K}
    (hGet : s.consumers.get account = some old) (info : ConsumerInfo K) (account' : A) :
    (s.consumers.insert account info).containsKey account' = s.consumers.containsKey account' := by
  rw [StorageMap.containsKey_insert]
  by_cases hAccount : account' = account
  · rw [hAccount, StorageMap.containsKey_of_get hGet]
    simp
  · simp [hAccount]

theorem containsKey_consumers_of_registerPerson
    {alias_ : PeopleMulti.Bytes32} {linked : A} {proof : S} {choice : PersonalUsernameChoice}
    (hRegister : registerPerson service s alias_ linked proof choice = .ok s') (account : A) :
    s'.consumers.containsKey account = s.consumers.containsKey account := by
  cases choice with
  | standalone username =>
    rcases registerPersonStandalone_eq_ok hRegister with ⟨_, _, _, left, hLeave, hInner⟩
    have hSame : left.consumers = s.consumers := by
      rcases leaveReservation_eq_ok hLeave with ⟨_, rfl⟩ | ⟨_, _, _, _, _, _, _, _, _, _, rfl⟩
      · rfl
      · rfl
    rcases registerPersonInner_eq_ok hInner with ⟨info, hInfo, _, rfl⟩
    rw [← hSame]
    exact containsKey_consumers_insert hInfo _ account
  | reservation username =>
    rcases registerPersonReservation_eq_ok hRegister with ⟨_, queue, _, _, hInner⟩
    rcases registerPersonInner_eq_ok hInner with ⟨info, hInfo, _, rfl⟩
    exact containsKey_consumers_insert (s := s.withoutQueue username queue.toList) hInfo _ account

theorem drainSlots_consumers (period : Nat) (aliases : List PeopleMulti.Bytes32) :
    (aliases.foldl (drainSlot period) s).consumers = s.consumers := by
  induction aliases generalizing s with
  | nil => rfl
  | cons alias_ rest ih =>
    rw [List.foldl_cons, ih]
    unfold drainSlot
    split <;> rfl

/- All other operations make nobody a consumer. -/
theorem containsKey_consumers_of_perform {op : Op K A P S}
    (hExternal : PeopleLite.isExternal op = true) (hStep : s.perform (service, op) = .ok s')
    (account : A) :
    s'.consumers.containsKey account = s.consumers.containsKey account := by
  cases op with
  | setClock now => cases hExternal
  | registerLiteConsumer who identifierKey username reserved =>
    cases hExternal
  | registerPerson alias_ linked proof choice =>
    exact containsKey_consumers_of_registerPerson hStep account
  | touchPersonAuthorization alias_ =>
    rcases touchPersonAuthorization_eq_ok hStep with ⟨who, info, _, _, wasDemoted, _, hInfo, _, rfl⟩
    split_ifs
    · exact containsKey_consumers_insert hInfo _ account
    · exact containsKey_consumers_insert hInfo _ account
  | removeExpiredUsernameReservation username who =>
    rcases removeExpiredUsernameReservation_eq_ok hStep with
      ⟨entry, _, _, queue, rest, _, _, _, _, _, rfl⟩
    rfl
  | updateIdentifierKey who identifierKey =>
    rcases updateIdentifierKey_eq_ok hStep with ⟨info, hInfo, rfl⟩
    exact containsKey_consumers_insert hInfo _ account
  | setUsernameReservationDuration duration =>
    cases hStep
    rfl
  | demoteAuthExpired who =>
    rcases demoteAuthExpired_eq_ok hStep with ⟨info, _, _, hInfo, _, rfl⟩
    exact containsKey_consumers_insert (s := s.decreaseAllowanceBy who (personExtra C)) hInfo _
      account
  | clearExpiredNotificationSequence source who seq =>
    rcases clearExpiredNotificationSequence_eq_ok hStep with ⟨_, _, _, _, _, _, rfl⟩
    rfl
  | clearExpiredStmtStoreAllowances source period firstEntry =>
    rcases clearExpiredStmtStoreAllowances_eq_ok hStep with ⟨_, _, rfl⟩
    rw [drainSlots_consumers]
  | clearExpiredLongTermStorageAliases period limit =>
    rcases clearExpiredLongTermStorageAliases_eq_ok hStep with ⟨_, keys, _, rfl⟩
    rfl
  | transaction tx =>
    cases claimed_of_applyTransaction hStep
    all_goals rfl

end ResourceState

end Resources

namespace PeopleLite

open PeopleMulti
  (Bytes32 ContextualAlias RevisedContextualAlias)
open Resources (Username ResourceState)

namespace World

variable {C : Resources.Config} {K M A G P S R T : Type} [DecidableEq M] [DecidableEq A]
variable {w w' : World C K M A} {service : Service K M A G P S}

--
-- Consumers that are Lite People
--

def isLitePerson (w : World C K M A) (account : A) : Bool :=
  w.lite.litePeople.containsKey account

/- What the registrar of consumers requires of its callers. -/
def ConsumersAreLite (w : World C K M A) : Prop :=
  ∀ account, w.resources.consumers.containsKey account = true → w.isLitePerson account = true

/- A request for somebody who is, or becomes, a lite person. -/
def NamesLitePerson (w : World C K M A) (candidate : A)
    (params : LiteConsumerRegistrationParams K A G) : Prop :=
  params.account = candidate ∨ w.isLitePerson params.account = true

/- Every attestation in a call asks for a consumer who is a lite person, where it asks for one. -/
def namesCandidates (service : Service K M A G P S) :
    World C K M A → Origin A → Call K M A G S → Prop
  | w, _, .attest candidate _ _ _ (some params) =>
    w.NamesLitePerson candidate params
  | w, .litePerson who, .dispatchAsSigner call =>
    namesCandidates service w (.signed who) call
  | w, origin, .batchAll first rest =>
    namesCandidates service w origin first
      ∧ ∀ w', dispatchCall service w origin first = .ok w' → namesCandidates service w' origin rest
  | _, _, _ => True

omit [DecidableEq M] in
theorem isLitePerson_enrolled {lite : LiteState M A} {candidate : A} {info : LitePersonInfo M A}
    {params : Option (LiteConsumerRegistrationParams K A G)}
    (hPeople : lite.litePeople = w.lite.litePeople.insert candidate info)
    (hEnrolled : w.Enrolled lite params w') (account : A) :
    w'.isLitePerson account = (decide (account = candidate)
        || w.isLitePerson account) := by
  unfold isLitePerson
  rw [hEnrolled.lite_eq, hPeople, StorageMap.containsKey_insert]

omit [DecidableEq M] in
/- Who is asked for becomes a consumer, and nobody else. -/
theorem consumersAreLite_enrolled_iff
    {lite : LiteState M A} {candidate : A} {info : LitePersonInfo M A}
    {params : LiteConsumerRegistrationParams K A G} (hConsumers : w.ConsumersAreLite)
    (hPeople : lite.litePeople = w.lite.litePeople.insert candidate info)
    (hEnrolled : w.Enrolled lite (some params) w') :
    w'.ConsumersAreLite ↔ w.NamesLitePerson candidate params := by
  have hLite := isLitePerson_enrolled hPeople hEnrolled
  rcases hEnrolled with ⟨resources, hRegister, rfl⟩
  have hKeys := ResourceState.containsKey_consumers_of_registerLite hRegister
  constructor
  · intro hAfter
    have hRequested := hAfter params.account (by
      rw [hKeys]
      simp)
    rw [hLite, Bool.or_eq_true, decide_eq_true_eq] at hRequested
    exact hRequested
  · intro hNames account hConsumer
    rw [hKeys, Bool.or_eq_true, decide_eq_true_eq] at hConsumer
    rw [hLite, Bool.or_eq_true, decide_eq_true_eq]
    rcases hConsumer with rfl | hOld
    · exact hNames
    · exact Or.inr (hConsumers account hOld)

theorem consumersAreLite_attest_iff (hConsumers : w.ConsumersAreLite)
    {verifier candidate : A} {candidateSignature : G} {ringVrfKey : M}
    {proofOfOwnership : S} {params : LiteConsumerRegistrationParams K A G}
    (hAttest : w.attest service verifier candidate candidateSignature
        ringVrfKey proofOfOwnership (some params) = .ok w') :
    w'.ConsumersAreLite ↔ w.NamesLitePerson candidate params := by
  rcases attest_eq_ok hAttest with ⟨_, _, _, _, allowance, hEnrolled⟩
  exact consumersAreLite_enrolled_iff hConsumers rfl hEnrolled

omit [DecidableEq M] in
/- Where nobody is asked for, a lite person is there, too. -/
theorem consumersAreLite_enrolled_none
    {lite : LiteState M A} {candidate : A} {info : LitePersonInfo M A}
    (hConsumers : w.ConsumersAreLite)
    (hPeople : lite.litePeople = w.lite.litePeople.insert candidate info)
    (hEnrolled : w.Enrolled lite (none : Option (LiteConsumerRegistrationParams K A G)) w') :
    w'.ConsumersAreLite := by
  intro account hConsumer
  rw [isLitePerson_enrolled hPeople hEnrolled, Bool.or_eq_true]
  right
  apply hConsumers
  rw [show w' = _ from hEnrolled] at hConsumer
  exact hConsumer

theorem consumersAreLite_registerWithFee (hConsumers : w.ConsumersAreLite)
    {candidate : A} {ringVrfKey : M} {proofOfOwnership : S}
    {params : Option (LiteConsumerRegistrationParams K A G)}
    (hRegister : w.registerWithFee service candidate ringVrfKey proofOfOwnership params = .ok w') :
    w'.ConsumersAreLite := by
  rcases registerWithFee_eq_ok hRegister with
    ⟨_, _, _, hAccount, _, throttled, hThrottle, hEnrolled⟩
  have hPeople : throttled.litePeople = w.lite.litePeople := by
    rcases LiteState.throttlePaidRegistration_eq_ok hThrottle with rfl | ⟨_, rfl⟩
    · rfl
    · rfl
  have hInserted : (throttled.withLitePerson candidate
          { ringVrfKey := ringVrfKey, method := .fee }).litePeople
        = w.lite.litePeople.insert candidate { ringVrfKey := ringVrfKey, method := .fee } := by
    unfold LiteState.withLitePerson
    dsimp only
    rw [hPeople]
  cases params with
  | none =>
    exact consumersAreLite_enrolled_none hConsumers hInserted hEnrolled
  | some params =>
    exact (consumersAreLite_enrolled_iff hConsumers hInserted
        hEnrolled).mpr (Or.inl (hAccount params rfl))

/- Lite people stay what they are. -/
theorem isLitePerson_of_did (hDid : Did service w w') {account : A}
    (hPerson : w.isLitePerson account = true) :
    w'.isLitePerson account = true := by
  cases hDid with
  | attest hAttest =>
    rcases attest_eq_ok hAttest with ⟨_, _, _, _, allowance, hEnrolled⟩
    rw [isLitePerson_enrolled rfl hEnrolled, hPerson, Bool.or_true]
  | registerWithFee hRegister =>
    rcases registerWithFee_eq_ok hRegister with ⟨_, _, _, _, _, throttled, hThrottle, hEnrolled⟩
    unfold isLitePerson at hPerson ⊢
    rw [hEnrolled.lite_eq]
    unfold LiteState.withLitePerson
    dsimp only
    rw [StorageMap.containsKey_insert, Bool.or_eq_true]
    right
    rcases LiteState.throttlePaidRegistration_eq_ok hThrottle with rfl | ⟨_, rfl⟩
    · exact hPerson
    · exact hPerson
  | setAliasAccount hSet =>
    rcases LiteState.setAliasAccount_eq_ok hSet with ⟨_, moved, hMoved, rfl⟩
    unfold LiteState.moveReference at hMoved
    split at hMoved
    · simp only [bind_eq_ok, ensure_eq_ok_iff, exists_const, pure_eq_ok] at hMoved
      rcases hMoved with ⟨_, rfl⟩
      exact hPerson
    · split_ifs at hMoved
      · simp only [bind_eq_ok, ensure_eq_ok_iff, exists_const, pure_eq_ok] at hMoved
        rcases hMoved with ⟨_, rfl⟩
        exact hPerson
      · cases hMoved
        exact hPerson
  | unsetAliasAccount hUnset =>
    rcases LiteState.unsetAliasAccount_eq_ok hUnset with ⟨_, _, rfl⟩
    exact hPerson
  | registerLitePerson hRegister =>
    rcases registerConsumer_eq_ok hRegister with ⟨_, _, rfl⟩
    exact hPerson

theorem isLitePerson_of_steps (hSteps : Relation.ReflTransGen (Did service) w w') {account : A}
    (hPerson : w.isLitePerson account = true) :
    w'.isLitePerson account = true := by
  induction hSteps with
  | refl => exact hPerson
  | tail _ hDid ih => exact isLitePerson_of_did hDid ih

/- Aliases have nothing to do with consumers. -/
theorem consumersAreLite_of_lite (hConsumers : w.ConsumersAreLite) {lite : LiteState M A}
    (hSteps : Relation.ReflTransGen (Did service) w { w with lite := lite }) :
    ({ w with lite := lite } : World C K M A).ConsumersAreLite :=
  fun account hConsumer =>
    isLitePerson_of_steps hSteps (hConsumers account hConsumer)

/- The induction is on the call; an origin of a lite person stays one, because lite people do. -/
theorem consumersAreLite_of_dispatchCall {origin : Origin A} {call : Call K M A G S}
    (hConsumers : w.ConsumersAreLite)
    (hOrigin : ∀ who, origin = .litePerson who → w.isLitePerson who = true)
    (hNames : namesCandidates service w origin call)
    (hDispatch : dispatchCall service w origin call = .ok w') :
    w'.ConsumersAreLite := by
  have hSteps := did_of_dispatchCall hDispatch
  induction call generalizing w w' origin with
  | attest candidate candidateSignature ringVrfKey
      proofOfOwnership params =>
      cases origin <;> unfold dispatchCall at hDispatch
      case signed verifier =>
        cases params with
        | none =>
          rcases attest_eq_ok hDispatch with ⟨_, _, _, _, allowance, hEnrolled⟩
          exact consumersAreLite_enrolled_none hConsumers rfl hEnrolled
        | some params =>
          unfold namesCandidates at hNames
          exact (consumersAreLite_attest_iff hConsumers hDispatch).mpr hNames
      all_goals cases hDispatch
  | registerWithFee ringVrfKey proofOfOwnership params =>
    cases origin <;> unfold dispatchCall at hDispatch
    case signed candidate =>
      exact consumersAreLite_registerWithFee hConsumers hDispatch
    all_goals cases hDispatch
  | dispatchAsSigner call ih =>
    cases origin <;> unfold dispatchCall at hDispatch
    case litePerson who =>
      unfold namesCandidates at hNames
      exact ih hConsumers (by simp) hNames hDispatch hSteps
    all_goals cases hDispatch
  | setAliasAccount account validAtBlock =>
    cases origin <;> unfold dispatchCall at hDispatch
    case liteAlias revCa =>
      simp only [bind_eq_ok, pure_eq_ok] at hDispatch
      rcases hDispatch with ⟨lite, _, rfl⟩
      exact consumersAreLite_of_lite hConsumers hSteps
    all_goals cases hDispatch
  | unsetAliasAccount =>
    cases origin <;> unfold dispatchCall at hDispatch
    case liteAlias revCa =>
      simp only [bind_eq_ok, pure_eq_ok] at hDispatch
      rcases hDispatch with ⟨lite, _, rfl⟩
      exact consumersAreLite_of_lite hConsumers hSteps
    all_goals cases hDispatch
  | registerLitePerson identifierKey username reserved =>
    cases origin <;> unfold dispatchCall at hDispatch
    case litePerson who =>
      rcases registerConsumer_eq_ok hDispatch with ⟨resources, hRegister, rfl⟩
      intro account hConsumer
      rw [ResourceState.containsKey_consumers_of_registerLite
        hRegister, Bool.or_eq_true, decide_eq_true_eq]
        at hConsumer
      rcases hConsumer with rfl | hOld
      · exact hOrigin _ rfl
      · exact hConsumers account hOld
    all_goals cases hDispatch
  | batchAll first rest ihFirst ihRest =>
    unfold dispatchCall at hDispatch
    unfold namesCandidates at hNames
    simp only [bind_eq_ok] at hDispatch
    rcases hDispatch with ⟨middle, hFirst, hRest⟩
    have hFirstSteps := did_of_dispatchCall hFirst
    have hMiddle := ihFirst hConsumers hOrigin hNames.1 hFirst hFirstSteps
    apply ihRest hMiddle _ (hNames.2 middle hFirst) hRest (did_of_dispatchCall hRest)
    intro who hWho
    exact isLitePerson_of_steps hFirstSteps (hOrigin who hWho)
  | other =>
    cases origin <;> unfold dispatchCall at hDispatch <;>
      cases hDispatch <;> exact hConsumers

--
-- Consumers over Runs
--

/- The same for an operation, when it is a transaction. -/
def NamesCandidates (w : World C K M A) (step : Service K M A G P S × Op K M A G P S R T) : Prop :=
  match step.2 with
  | .transaction tx =>
    ∀ validated, validate step.1 w tx = .ok validated →
        namesCandidates step.1 (w.prepare validated.1) validated.2 tx.call
  | _ => True

omit [DecidableEq M] in
theorem origin_of_validate {tx : Transaction K M A G P S} {validated : Val A × Origin A}
    (hValid : validate service w tx = .ok validated) (who : A)
    (hOrigin : validated.2 = .litePerson who) :
    (w.prepare validated.1).isLitePerson who = true := by
  unfold validate at hValid
  split at hValid
  · simp only [bind_eq_ok, ensure_eq_ok_iff, exists_const, pure_eq_ok] at hValid
    rcases hValid with ⟨hPerson, _, rfl⟩
    cases hOrigin
    exact hPerson
  · simp only [bind_eq_ok, okOr_eq_ok_iff, ensure_eq_ok_iff, exists_const, pure_eq_ok]
      at hValid
    rcases hValid with ⟨_, _, _, _, _, _, rfl⟩
    cases hOrigin
  · split at hValid
    · simp only [bind_eq_ok, ensure_eq_ok_iff, exists_const, pure_eq_ok] at hValid
      rcases hValid with ⟨_, _, _, _, _, _, rfl⟩
      cases hOrigin
    · cases hValid
  · simp only [bind_eq_ok, okOr_eq_ok_iff, ensure_eq_ok_iff, exists_const, pure_eq_ok]
      at hValid
    rcases hValid with ⟨_, _, _, _, _, _, _, rfl⟩
    cases hOrigin
  · cases hValid
    unfold Transaction.origin at hOrigin
    cases hSigner : tx.signer <;> rw [hSigner] at hOrigin <;>
      cases hOrigin
  · cases hValid

theorem consumersAreLite_of_perform {step : Service K M A G P S × Op K M A G P S R T}
    (hConsumers : w.ConsumersAreLite) (hNames : w.NamesCandidates step)
    (hStep : w.perform step = .ok w') :
    w'.ConsumersAreLite := by
  rcases step with ⟨service, op⟩
  cases op with
  | setClock now block =>
    unfold perform at hStep
    simp only [bind_eq_ok, ensure_eq_ok_iff, exists_const, pure_eq_ok] at hStep
    rcases hStep with ⟨_, w₁, hWith, rfl⟩
    rcases withResources_eq_ok hWith with ⟨_, hSet, rfl⟩
    rcases ResourceState.setClock_eq_ok hSet with ⟨_, rfl⟩
    exact hConsumers
  | increaseAttestationAllowance account count =>
    cases hStep
    exact hConsumers
  | clearAttestationAllowance account =>
    cases hStep
    exact hConsumers
  | createLitePeopleCollection =>
    unfold perform at hStep
    simp only [bind_eq_ok, ensure_eq_ok_iff, exists_const, pure_eq_ok] at hStep
    rcases hStep with ⟨_, rfl⟩
    exact hConsumers
  | transaction tx =>
    rcases applyTransaction_eq_ok hStep with
      ⟨validated, prepared, hValid, rfl, hPrepared, hDispatch⟩
    have hReady : (w.prepare validated.1).ConsumersAreLite := by
      cases hVal : validated.1 <;> exact hConsumers
    rcases hDispatch with rfl | hDispatch
    · exact hReady
    · exact consumersAreLite_of_dispatchCall hReady
        (origin_of_validate hValid) (hNames validated hValid)
        hDispatch
  | resources inner =>
    unfold perform at hStep
    simp only [bind_eq_ok, ensure_eq_ok_iff, exists_const] at hStep
    rcases withResources_eq_ok hStep.2 with ⟨resources, hInner, rfl⟩
    intro account hConsumer
    rw [ResourceState.containsKey_consumers_of_perform hStep.1 hInner] at hConsumer
    exact hConsumers account hConsumer

/-
  In a run whose attestations ask for lite people only, all consumers are lite people; and an
  attestation that asks for a consumer keeps it so only if it asks for a lite person.
-/
theorem consumers_are_lite_people
    (hRun : RunUnder (perform : World C K M A → Service K M A G P S × Op K M A G P S R T → _)
        (fun w step _ => w.NamesCandidates step)
        (genesis C K M A) w) :
    w.ConsumersAreLite ∧ ∀ (service : Service K M A G P S) verifier candidate
          candidateSignature ringVrfKey proofOfOwnership params
          w',
        w.attest service verifier candidate candidateSignature
            ringVrfKey proofOfOwnership (some params)
            = .ok w' →
          (w'.ConsumersAreLite ↔ w.NamesLitePerson candidate params) := by
  have hConsumers : w.ConsumersAreLite := by
    apply RunUnder.invariant ConsumersAreLite hRun
    · intro w step w' hNames hStep hConsumers
      exact consumersAreLite_of_perform hConsumers hNames hStep
    · intro account hConsumer
      simp [genesis, ResourceState.genesis, StorageMap.containsKey] at hConsumer
  refine ⟨hConsumers, ?_⟩
  intro service verifier candidate candidateSignature ringVrfKey proofOfOwnership params w' hAttest
  exact consumersAreLite_attest_iff hConsumers hAttest

--
-- Small Runs
--

/- A request for the name `ali.12`. -/
def sampleRequest (account : Nat) :
    LiteConsumerRegistrationParams Nat Nat Unit where
  signature := ()
  account := account
  identifierKey := 0
  username := [97, 108, 105, 46, 49, 50]
  reservedUsername := none

/- The verifier `1` attests `7`, and asks for a consumer. -/
def sampleAttestation (account : Nat) : List SampleStep :=
  [(sampleService, .createLitePeopleCollection), (sampleService, .increaseAttestationAllowance 1 2),
    signed 1 (.attest 7 () 70 () (some (sampleRequest account)))]

/- A plain attestation that asks for its candidate. -/
def asksForCandidate (_ : SampleWorld) (step : SampleStep) : Bool :=
  match step.2 with
  | .transaction tx =>
    match tx.call with
    | .attest candidate _ _ _ (some params) =>
      decide (params.account = candidate)
    | _ => false
  | _ => true

theorem namesCandidates_of_asksForCandidate (w : SampleWorld) (step : SampleStep) (w' : SampleWorld)
    (hAsks : asksForCandidate w step = true) (_ : w.perform step = .ok w') :
    w.NamesCandidates step := by
  rcases step with ⟨service, op⟩
  cases op with
  | transaction tx =>
    rcases tx with ⟨signer, auth, implication, call⟩
    intro validated _
    unfold asksForCandidate at hAsks
    dsimp only at hAsks
    split at hAsks
    · unfold namesCandidates
      exact Or.inl (of_decide_eq_true hAsks)
    · cases hAsks
  | _ => exact trivial

theorem consumers_are_lite_people_sample : ∃ w : SampleWorld,
      w.resources.consumers.containsKey 7 = true ∧ w.ConsumersAreLite := by
  have hExecute : (execute World.perform asksForCandidate
        (genesis Resources.sampleConfig Nat Nat Nat)
        (sampleAttestation 7)).any
        (fun w => w.resources.consumers.containsKey 7)
        = true := by
    decide +kernel
  rcases exists_run_of_execute namesCandidates_of_asksForCandidate
      hExecute with
    ⟨w, hRun, hConsumer⟩
  exact ⟨w, hConsumer, (consumers_are_lite_people hRun).1⟩

/- The attestation of one candidate makes another a consumer. -/
theorem stranger_becomes_consumer : ∃ w : SampleWorld,
      Reachable Unit Bytes32 Unit Bytes32 Unit w ∧ w.resources.consumers.containsKey 9 = true
        ∧ w.isLitePerson 9 = false
        ∧ ¬w.ConsumersAreLite := by
  have hExecute : (performSteps (sampleAttestation 9)).any (fun w =>
          decide (w.resources.consumers.containsKey 9 = true
              ∧ w.isLitePerson 9 = false)) = true := by
    decide +kernel
  rcases exists_run_of_execute parameters_of_hasSampleParameters
      hExecute with
    ⟨w, hRun, hTest⟩
  rw [decide_eq_true_eq] at hTest
  refine ⟨w, hRun.weaken fun _ _ _ _ => trivial, hTest.1, hTest.2, ?_⟩
  intro hConsumers
  rw [hConsumers 9 hTest.1] at hTest
  cases hTest.2

end World

end PeopleLite

end Individuality
