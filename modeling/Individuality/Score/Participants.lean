import Individuality.PeopleMulti.References
import Individuality.Score.Pallet

/-
  Which operations of the score pallet create and remove participants, and that the others keep them
  and the references of accounts.

  Main declaration: `SameParticipants`
-/

namespace Individuality.Score

open Except (bind_eq_ok pure_eq_ok)

open PeopleMulti (PeopleState Chain)

variable {T : Config} {who : T.Who} {roundIndex : Nat} {account : T.Account}

/- Whether an identity has a record of its score. -/
def World.participates (w : World T) (who : T.Who) : Bool :=
  w.score.participants.containsKey who

/-
  The participants are the same, and what is held on top of
  the links of accounts stays accounted for.
-/
structure SameParticipants (w w' : World T) : Prop where
  participates : ∀ who, w'.participates who = w.participates who
  references : ∀ held, w.people.References held → w'.people.References held

namespace SameParticipants

variable {w w' w'' : World T} {chain : Chain T.Member T.Account}

theorem refl (w : World T) : SameParticipants w w where
  participates := fun _ => rfl
  references := fun _ hRefs => hRefs

theorem trans (hFirst : SameParticipants w w') (hSecond : SameParticipants w' w'') :
    SameParticipants w w'' where
  participates := by
    intro who
    rw [hSecond.participates, hFirst.participates]
  references := fun held hRefs =>
    hSecond.references held (hFirst.references held hRefs)

/- Neither the records nor the registry are touched. -/
theorem of_eq (hParticipants : w'.score.participants = w.score.participants)
    (hPeople : w'.people = w.people) :
    SameParticipants w w' where
  participates := by
    intro who
    unfold World.participates
    rw [hParticipants]
  references := by
    intro held hRefs
    rw [hPeople]
    exact hRefs

/- A record that there is gets overwritten. -/
theorem of_insert {old score : Participant} (hGet : w.score.participants.get who = some old)
    (hParticipants : w'.score.participants = w.score.participants.insert who score)
    (hReferences : ∀ held, w.people.References held → w'.people.References held) :
    SameParticipants w w' where
  participates := by
    intro who'
    unfold World.participates StorageMap.containsKey
    rw [hParticipants, StorageMap.get_insert]
    by_cases hWho : who' = who
    · rw [if_pos hWho, hWho, hGet]
      rfl
    · rw [if_neg hWho]
  references := hReferences

--
-- Payouts
--

theorem drainEntry (round : RoundPayout) (roundIndex : Nat) (acc : ScoreState T × Nat)
    (who who' : T.Who) :
    (Score.drainEntry round roundIndex acc who).1.participants.containsKey who'
      = acc.1.participants.containsKey who' := by
  unfold Score.drainEntry
  dsimp only
  cases hGet : acc.1.participants.get who with
  | none => rfl
  | some score =>
    unfold StorageMap.containsKey
    dsimp only
    rw [StorageMap.get_insert]
    by_cases hWho : who' = who
    · rw [if_pos hWho, hWho, hGet]
      rfl
    · rw [if_neg hWho]

theorem foldl_drainEntry (round : RoundPayout) (roundIndex : Nat) (keys : List T.Who)
    (acc : ScoreState T × Nat) (who : T.Who) :
    (keys.foldl (Score.drainEntry round roundIndex) acc).1.participants.containsKey who
      = acc.1.participants.containsKey who := by
  induction keys generalizing acc with
  | nil => rfl
  | cons key keys ih =>
    rw [List.foldl_cons, ih, drainEntry]

theorem operateLayer {limit : Nat} {round : RoundPayout}
    (hOperate : w.operateLayer roundIndex limit round = .ok w') :
    SameParticipants w w' := by
  have hDrained := foldl_drainEntry round roundIndex
      ((w.score.roundKeys roundIndex).take limit) (w.score, 0)
  unfold World.operateLayer at hOperate
  simp only [bind_eq_ok] at hOperate
  rcases hOperate with ⟨released, _, pot, _, hRest⟩
  by_cases hMore : (w.score.roundKeys roundIndex).length < limit
  · rw [if_pos hMore] at hRest
    simp only [bind_eq_ok, pure_eq_ok] at hRest
    rcases hRest with ⟨_, _, rfl⟩
    exact ⟨hDrained, fun _ hRefs => hRefs⟩
  · rw [if_neg hMore] at hRest
    simp only [pure_eq_ok] at hRest
    subst hRest
    exact ⟨hDrained, fun _ hRefs => hRefs⟩

theorem recycleRoundPayout (w : World T) (roundIndex : Nat) :
    SameParticipants w (w.recycleRoundPayout roundIndex) := by
  unfold World.recycleRoundPayout
  cases w.score.roundPayouts.get roundIndex with
  | none => exact refl w
  | some round =>
    dsimp only
    by_cases hZero : round.remainingBalance = 0
    · rw [if_pos hZero]
      exact of_eq rfl rfl
    · rw [if_neg hZero]
      cases w.pot.release .payout round.remainingBalance
          .bestEffort <;>
        exact of_eq rfl rfl

theorem operatePayoutRound {limit : Nat}
    (hOperate : w.operatePayoutRound roundIndex limit = .ok w') :
    SameParticipants w w' := by
  unfold World.operatePayoutRound at hOperate
  simp only [bind_eq_ok, okOr_eq_ok_iff] at hOperate
  rcases hOperate with ⟨round, _, hLayer⟩
  cases hResult : w.operateLayer roundIndex limit round with
  | ok w₁ =>
    rw [hResult] at hLayer
    simp only [pure_eq_ok] at hLayer
    exact hLayer ▸ operateLayer hResult
  | error e =>
    rw [hResult] at hLayer
    simp only [pure_eq_ok] at hLayer
    exact hLayer ▸ recycleRoundPayout w roundIndex

theorem transitionRound (hTransition : World.transitionRound chain w roundIndex = .ok w') :
    SameParticipants w w' := by
  unfold World.transitionRound at hTransition
  simp only [bind_eq_ok, ensure_eq_ok_iff, exists_const, pure_eq_ok] at hTransition
  rcases hTransition with ⟨_, rfl⟩
  refine of_eq ?_ rfl
  have hFinish : w.score.finishRound.participants = w.score.participants := by
    unfold ScoreState.finishRound
    cases w.score.roundPlanning <;> rfl
  change (w.score.finishRound.planRound chain.block).participants = _
  unfold ScoreState.planRound
  cases w.score.finishRound.roundSchedules.toList.head? <;>
    exact hFinish

theorem cashOut (hCashOut : w.cashOut account = .ok w') :
    SameParticipants w w' := by
  unfold World.cashOut at hCashOut
  simp only [bind_eq_ok, okOr_eq_ok_iff, ensure_eq_ok_iff, exists_const, pure_eq_ok]
    at hCashOut
  rcases hCashOut with ⟨score, hGet, _, _, rfl⟩
  generalize hReduction : saturatingAdd u8Max score.score 1 / 2 = r
  have hAward : (w.score.awardParticipantPayoutPoints (.account account : T.Who) r).participants
        = w.score.participants := by
    unfold ScoreState.awardParticipantPayoutPoints
    split_ifs
    · rfl
    · cases checkedAdd u32Max w.score.currentRoundPoints r <;> rfl
  have hAwarded : SameParticipants w
      { w with
        score := w.score.awardParticipantPayoutPoints (.account account : T.Who) r } :=
    of_eq hAward rfl
  have hGet' : (w.score.awardParticipantPayoutPoints (.account account : T.Who) r).participants.get
            (.account account)
        = some score := by
    rw [hAward]
    exact hGet
  exact hAwarded.trans (of_insert hGet' rfl fun _ hRefs => hRefs)

theorem redeemCredit {destination : T.Account} {accepted : Bool}
    (hRedeem : w.redeemCredit who destination accepted = .ok w') :
    SameParticipants w w' := by
  unfold World.redeemCredit at hRedeem
  simp only [bind_eq_ok, okOr_eq_ok_iff, ensure_eq_ok_iff, exists_const, pure_eq_ok]
    at hRedeem
  rcases hRedeem with ⟨score, hGet, _, _, _, _, _, rfl⟩
  exact of_insert hGet rfl fun _ hRefs => hRefs

--
-- Recognition
--

theorem register {key : Option (T.Member × Bool)}
    (hRegister : World.register chain w account key = .ok w') :
    SameParticipants w w' := by
  unfold World.register at hRegister
  simp only [bind_eq_ok, okOr_eq_ok_iff, ensure_eq_ok_iff, exists_const] at hRegister
  rcases hRegister with ⟨score, hGet, _, hRest⟩
  cases hRecognition : score.recognition with
  | suspended id =>
    rw [hRecognition] at hRest
    simp only [bind_eq_ok, ensure_eq_ok_iff, fromPeople_eq_ok_iff, exists_const, pure_eq_ok]
      at hRest
    rcases hRest with ⟨_, people, hPeople, rfl⟩
    exact of_insert hGet rfl fun _ hRefs => hRefs.recognizePersonhood hPeople
  | notRecognized =>
    rw [hRecognition] at hRest
    simp only [bind_eq_ok, okOr_eq_ok_iff, ensure_eq_ok_iff, fromPeople_eq_ok_iff, exists_const,
      pure_eq_ok] at hRest
    rcases hRest with ⟨_, _, _, people, hPeople, rfl⟩
    exact of_insert hGet rfl fun _ hRefs =>
      hRefs.reserveNewId.recognizePersonhood hPeople
  | externallyRecognized =>
    rw [hRecognition] at hRest
    cases hRest
  | recognized id =>
    rw [hRecognition] at hRest
    cases hRest

theorem suspendParticipant {people : PeopleState T.Member T.Account}
    (score : Participant) (held : T.Account → Bool) (hRefs : people.References held) :
    (World.suspendParticipant chain people score).2.2.References held := by
  unfold World.suspendParticipant
  cases score.recognition with
  | recognized id =>
    dsimp only
    cases hSuspend : people.suspendPersonhood chain [id] with
    | ok people' => exact hRefs.suspendPersonhood hSuspend
    | error e => exact hRefs
  | externallyRecognized => exact hRefs
  | notRecognized => exact hRefs
  | suspended id => exact hRefs

/- The attendance of a participant is set. -/
theorem setAttendance {attended : Bool} {gameIndex : Nat}
    (hSet : World.setAttendance chain w who attended gameIndex = .ok w') :
    SameParticipants w w' := by
  unfold World.setAttendance at hSet
  simp only [bind_eq_ok, okOr_eq_ok_iff, pure_eq_ok] at hSet
  rcases hSet with ⟨old, hGet, rfl⟩
  refine of_insert hGet rfl ?_
  intro held hRefs
  dsimp only
  split_ifs
  · exact suspendParticipant _ held hRefs
  · exact hRefs

theorem forceSetAttendance {attended : Bool} {gameIndex : Nat}
    (hForce : World.forceSetAttendance chain w who attended gameIndex = .ok w') :
    SameParticipants w w' := by
  unfold World.forceSetAttendance at hForce
  simp only [bind_eq_ok, pure_eq_ok] at hForce
  rcases hForce with ⟨_, _, w₁, hSet, _, _, rfl⟩
  have hUpdated : SameParticipants w (w.updateThresholds chain.activeCount) := of_eq rfl rfl
  exact hUpdated.trans (setAttendance hSet)

--
-- All Operations
--

theorem withPeople
    {result :
      Except PeopleMulti.Error (PeopleState T.Member T.Account)}
    (hResult : ∀ people held, result = .ok people →
        w.people.References held → people.References held)
    (hPeople : w.withPeople result = .ok w') :
    SameParticipants w w' := by
  unfold World.withPeople at hPeople
  simp only [bind_eq_ok, fromPeople_eq_ok_iff, pure_eq_ok] at hPeople
  rcases hPeople with ⟨people, hOk, rfl⟩
  exact ⟨fun _ => rfl, fun held => hResult people held hOk⟩

end SameParticipants

namespace SameParticipants

variable {w w' : World T}

/- No call creates or removes a participant. -/
theorem dispatch {call : Chain T.Member T.Account × Op T} (hCall : call.2.isInternal = false)
    (hDispatch : w.dispatch call = .ok w') :
    SameParticipants w w' := by
  rcases call with ⟨chain, op⟩
  cases op with
  | fund amount =>
    unfold World.dispatch World.fund at hDispatch
    simp only [bind_eq_ok, pure_eq_ok] at hDispatch
    rcases hDispatch with ⟨_, _, rfl⟩
    exact of_eq rfl rfl
  | schedulePayoutRounds amount count duration =>
    unfold World.dispatch World.schedulePayoutRounds at hDispatch
    simp only [bind_eq_ok, pure_eq_ok] at hDispatch
    rcases hDispatch with ⟨_, _, _, _, rfl⟩
    exact of_eq rfl rfl
  | removePayoutSchedule index =>
    unfold World.dispatch World.removePayoutSchedule at hDispatch
    simp only [bind_eq_ok, pure_eq_ok] at hDispatch
    rcases hDispatch with ⟨_, _, _, _, rfl⟩
    exact of_eq rfl rfl
  | transitionRound roundIndex => exact transitionRound hDispatch
  | operatePayoutRound roundIndex limit =>
    exact operatePayoutRound hDispatch
  | cashOut account => exact cashOut hDispatch
  | redeemCredit who destination accepted =>
    exact redeemCredit hDispatch
  | register account key => exact register hDispatch
  | setAbsenceGraceSchedule schedule =>
    unfold World.dispatch World.setAbsenceGraceSchedule at hDispatch
    simp only [bind_eq_ok, pure_eq_ok] at hDispatch
    rcases hDispatch with ⟨_, _, rfl⟩
    exact of_eq rfl rfl
  | setPersonhoodThresholdSchedule schedule =>
    unfold World.dispatch World.setPersonhoodThresholdSchedule at hDispatch
    simp only [bind_eq_ok, pure_eq_ok] at hDispatch
    rcases hDispatch with ⟨_, _, rfl⟩
    exact of_eq rfl rfl
  | forceSetAttendance who attended gameIndex =>
    exact forceSetAttendance hDispatch
  | onboardForRecognition account => cases hCall
  | onboardExternallyRecognized alias_ => cases hCall
  | offboard who => cases hCall
  | startAttendanceReportSession => cases hCall
  | endAttendanceReportSession => cases hCall
  | setAttendance who attended gameIndex => cases hCall
  | reserveNewId =>
    obtain rfl := Except.ok.inj hDispatch
    exact ⟨fun _ => rfl, fun _ hRefs => hRefs.reserveNewId⟩
  | cancelIdReservation id =>
    exact withPeople (fun _ _ hOk hRefs => hRefs.cancelIdReservation hOk) hDispatch
  | renewIdReservation id =>
    exact withPeople (fun _ _ hOk hRefs => hRefs.renewIdReservation hOk) hDispatch
  | recognizeNewPerson id key =>
    exact withPeople (fun _ _ hOk hRefs => hRefs.recognizePersonhood hOk) hDispatch
  | forceRecognizePersonhood people =>
    exact withPeople (fun _ _ hOk hRefs => hRefs.forceRecognizePersonhood hOk) hDispatch
  | setPersonalIdAccount id account callValidAt =>
    exact withPeople (fun _ _ hOk hRefs => hRefs.setPersonalIdAccount hOk) hDispatch
  | unsetPersonalIdAccount id =>
    exact withPeople (fun _ _ hOk hRefs => hRefs.unsetPersonalIdAccount hOk) hDispatch

end SameParticipants

--
-- Creating and Removing Participants
--

namespace World

variable {w w' : World T} {chain : Chain T.Member T.Account}

theorem participates_setParticipant (w : World T) (who : T.Who) (score : Participant)
    (who' : T.Who) :
    (w.setParticipant who score).participates who'
      = (decide (who' = who) || w.participates who') := by
  unfold participates setParticipant StorageMap.containsKey
  dsimp only
  rw [StorageMap.get_insert]
  by_cases hWho : who' = who <;> simp [hWho]

/- Onboarding succeeds for those who do not participate, and adds one reference. -/
theorem onboardForRecognition_spec (hOnboard : w.onboardForRecognition account = .ok w') :
    w.participates (.account account) = false
      ∧ (∀ who, w'.participates who = (decide (who = .account account)
          || w.participates who))
      ∧ w'.people = w.people.incSufficients account := by
  unfold onboardForRecognition at hOnboard
  simp only [bind_eq_ok, ensure_eq_ok_iff, exists_const, pure_eq_ok, Bool.not_eq_true] at hOnboard
  rcases hOnboard with ⟨hFree, rfl⟩
  exact ⟨hFree, fun who => participates_setParticipant _ _ _ who, rfl⟩

theorem onboardForRecognition_isOk (hFree : w.participates (.account account) = false) :
    ∃ w', w.onboardForRecognition account = .ok w' := by
  unfold onboardForRecognition
  unfold participates at hFree
  dsimp only
  rw [hFree]
  exact ⟨_, rfl⟩

theorem onboardExternallyRecognized_spec {alias_ : T.Alias}
    (hOnboard : w.onboardExternallyRecognized alias_ = .ok w') :
    w.participates (.person alias_) = false
      ∧ (∀ who, w'.participates who = (decide (who = .person alias_)
          || w.participates who))
      ∧ w'.people = w.people := by
  unfold onboardExternallyRecognized at hOnboard
  simp only [bind_eq_ok, ensure_eq_ok_iff, exists_const, pure_eq_ok, Bool.not_eq_true] at hOnboard
  rcases hOnboard with ⟨hFree, rfl⟩
  exact ⟨hFree, fun who => participates_setParticipant _ _ _ who, rfl⟩

theorem onboardExternallyRecognized_isOk {alias_ : T.Alias}
    (hFree : w.participates (.person alias_) = false) :
    ∃ w', w.onboardExternallyRecognized alias_ = .ok w' := by
  unfold onboardExternallyRecognized
  unfold participates at hFree
  dsimp only
  rw [hFree]
  exact ⟨_, rfl⟩

theorem setAttendance_isOk (hParticipates : w.participates who = true) (attended : Bool)
    (gameIndex : Nat) :
    ∃ w', setAttendance chain w who attended gameIndex = .ok w' := by
  rcases StorageMap.containsKey_iff.mp hParticipates with ⟨score, hGet⟩
  unfold setAttendance
  rw [hGet]
  exact ⟨_, rfl⟩

theorem takeParticipant_spec (w : World T) (who : T.Who) :
    (∀ who', (w.takeParticipant who).participates who'
          = (decide (who' ≠ who) && w.participates who'))
      ∧ (w.takeParticipant who).people = w.people := by
  unfold takeParticipant participates
  cases hGet : w.score.participants.get who with
  | none =>
    refine ⟨?_, rfl⟩
    intro who'
    by_cases hWho : who' = who
    · subst hWho
      simp [StorageMap.containsKey, hGet]
    · simp [hWho]
  | some score =>
    have hRemoved : ∀ who', (w.score.participants.remove who).containsKey who'
            = (decide (who' ≠ who) && w.score.participants.containsKey who') := by
      intro who'
      unfold StorageMap.containsKey
      rw [StorageMap.get_remove]
      by_cases hWho : who' = who <;> simp [hWho]
    dsimp only
    split_ifs
    · exact ⟨hRemoved, rfl⟩
    · cases w.pot.release .credit score.credit .exact <;>
        exact ⟨hRemoved, rfl⟩

/- Offboarding removes the record, and for an account it takes one reference back. -/
theorem offboard_spec (hOffboard : offboard chain w who = .ok w') :
    (∀ who', w'.participates who' = (decide (who' ≠ who) && w.participates who'))
      ∧ ∃ people, (∀ held, w.people.References held → people.References held) ∧ w'.people =
          match who with
          | .account account => people.decSufficients account
          | .person _ => people := by
  unfold offboard at hOffboard
  simp only [bind_eq_ok, pure_eq_ok] at hOffboard
  rcases hOffboard with ⟨w₁, hSuspend, rfl⟩
  have hSuspended : SameParticipants w w₁ := by
    unfold suspendRecognized at hSuspend
    cases hGet : (w.score.participants.get who).map
        Participant.recognition with
    | none =>
      rw [hGet] at hSuspend
      obtain rfl := Except.ok.inj hSuspend
      exact SameParticipants.refl w
    | some recognition =>
      rw [hGet] at hSuspend
      cases recognition with
      | recognized id =>
        unfold suspendInSession at hSuspend
        simp only [bind_eq_ok, fromPeople_eq_ok_iff, pure_eq_ok] at hSuspend
        rcases hSuspend with ⟨_, _, people, hPeople, _, _, rfl⟩
        exact ⟨fun _ => rfl, fun _ hRefs => hRefs.suspendPersonhood hPeople⟩
      | _ =>
        obtain rfl := Except.ok.inj hSuspend
        exact SameParticipants.refl w
  rcases w₁.takeParticipant_spec who with ⟨hTaken, hPeople⟩
  refine ⟨?_, w₁.people, hSuspended.references, ?_⟩
  · intro who'
    rw [← hSuspended.participates, ← hTaken]
    cases who <;> rfl
  · cases who with
    | account account =>
      change (w₁.takeParticipant _).people.decSufficients account = _
      rw [hPeople]
    | person alias_ => exact hPeople

end World

end Individuality.Score
