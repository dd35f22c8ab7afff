import Individuality.Score.Sample

/-
  The recognition that a participant records agrees with the registry of people.

  Main declaration: `World.recognition_agrees`
-/

namespace Individuality.Score

open Except (bind_eq_ok pure_eq_ok)
open StorageMap (get_insert get_remove)

open PeopleMulti (PeopleState Chain)

variable {T : Config} {id roundIndex : Nat} {who : T.Who} {account : T.Account}

--
-- One Participant
--

/- What the record of a participant says is true. -/
structure Agrees (people : PeopleState T.Member T.Account) (score : Participant) : Prop where
  recognized : ∀ id,
      score.recognition = .recognized id →
        score.reachedPersonhood = true ∧ people.recognized id = some true
  suspended :
    ∀ id, score.recognition = .suspended id → people.recognized id = some false
  ever : score.reachedPersonhood = true → score.hasEverReachedPersonhood = true
  external :
    score.recognition = .externallyRecognized → score.reachedPersonhood = true
  score_le : score.score ≤ maxPersonhoodThreshold

namespace Agrees

variable {people people' : PeopleState T.Member T.Account} {score score' : Participant}

/- The id that a participant holds belongs to a person. -/
theorem held_ne_none (hAgrees : Agrees people score)
    (hHeld : score.recognition.personalId = some id) :
    people.recognized id ≠ none := by
  cases hRecognition : score.recognition with
  | recognized id' =>
    rw [hRecognition] at hHeld
    obtain rfl := Option.some.inj hHeld
    simp [(hAgrees.recognized _ hRecognition).2]
  | suspended id' =>
    rw [hRecognition] at hHeld
    obtain rfl := Option.some.inj hHeld
    simp [hAgrees.suspended _ hRecognition]
  | externallyRecognized =>
    simp [hRecognition, Recognition.personalId] at hHeld
  | notRecognized =>
    simp [hRecognition, Recognition.personalId] at hHeld

/- Only what the registry says of the held id matters. -/
theorem of_people (hAgrees : Agrees people score)
    (hSame : ∀ id, score.recognition.personalId = some id →
        people'.recognized id = people.recognized id) :
    Agrees people' score where
  recognized := by
    intro id hRecognition
    rw [hSame id (by rw [hRecognition]; rfl)]
    exact hAgrees.recognized id hRecognition
  suspended := by
    intro id hRecognition
    rw [hSame id (by rw [hRecognition]; rfl)]
    exact hAgrees.suspended id hRecognition
  ever := hAgrees.ever
  external := hAgrees.external
  score_le := hAgrees.score_le

end Agrees

--
-- The Invariant
--

/-
  Every record agrees with the registry, no personal id is in
  two records, and no threshold exceeds the largest one.
-/
structure RecognitionInvariant (w : World T) : Prop where
  agrees : ∀ who score,
      w.score.participants.get who = some score → Agrees w.people score
  unique : ∀ who who' score score' id,
      w.score.participants.get who = some score →
      w.score.participants.get who' = some score' →
      score.recognition.personalId = some id →
      score'.recognition.personalId = some id → who = who'
  tracked : w.people.IdsTracked
  threshold_le : w.score.personhoodThreshold ≤ maxPersonhoodThreshold
  tiers_le : ∀ tier ∈ w.score.personhoodThresholdSchedule.toList,
      tier.scoreThreshold ≤ maxPersonhoodThreshold

/- How many fresh personal ids an operation reserves. -/
def Op.reservedIds : Op T → Nat
  | .register _ (some _) => 1
  | .reserveNewId => 1
  | .forceRecognizePersonhood people => people.length
  | _ => 0

/- The counter of personal ids does not reach its largest. -/
def IdsFresh (w : World T) (call : Chain T.Member T.Account × Op T) (_ : World T) : Prop :=
  w.people.nextPersonalId + call.2.reservedIds ≤ u64Max

/- No record says anything new: some are gone, and a score may have become smaller. -/
structure SameRecords (s s' : ScoreState T) : Prop where
  threshold : s'.personhoodThreshold = s.personhoodThreshold
  tiers : s'.personhoodThresholdSchedule = s.personhoodThresholdSchedule
  records : ∀ who score',
      s'.participants.get who = some score' →
        ∃ score,
          s.participants.get who = some score
            ∧ score'.recognition = score.recognition
            ∧ score'.reachedPersonhood = score.reachedPersonhood
            ∧ score'.hasEverReachedPersonhood = score.hasEverReachedPersonhood
            ∧ score'.score ≤ score.score

namespace SameRecords

variable {s s' : ScoreState T}

theorem of_participants (hThreshold : s'.personhoodThreshold = s.personhoodThreshold)
    (hTiers : s'.personhoodThresholdSchedule = s.personhoodThresholdSchedule)
    (hParticipants : s'.participants = s.participants) :
    SameRecords s s' where
  threshold := hThreshold
  tiers := hTiers
  records := by
    intro who score' hGet
    rw [hParticipants] at hGet
    exact ⟨score', hGet, rfl, rfl, rfl, Nat.le_refl _⟩

theorem trans {s'' : ScoreState T} (hFirst : SameRecords s s') (hSecond : SameRecords s' s'') :
    SameRecords s s'' where
  threshold := hSecond.threshold.trans hFirst.threshold
  tiers := hSecond.tiers.trans hFirst.tiers
  records := by
    intro who score'' hGet
    rcases hSecond.records who score'' hGet with ⟨score', hGet', hRecognition, hReached, hEver, hLe⟩
    rcases hFirst.records who score' hGet' with
      ⟨score, hGet₀, hRecognition₀, hReached₀, hEver₀, hLe₀⟩
    exact ⟨score, hGet₀, hRecognition.trans hRecognition₀,
        hReached.trans hReached₀, hEver.trans hEver₀,
        Nat.le_trans hLe hLe₀⟩

/- A record is overwritten by one that says the same. -/
theorem insert {score score' : Participant} (hGet : s.participants.get who = some score)
    (hRecognition : score'.recognition = score.recognition)
    (hReached : score'.reachedPersonhood = score.reachedPersonhood)
    (hEver : score'.hasEverReachedPersonhood = score.hasEverReachedPersonhood)
    (hLe : score'.score ≤ score.score) (hThreshold : s'.personhoodThreshold = s.personhoodThreshold)
    (hTiers : s'.personhoodThresholdSchedule = s.personhoodThresholdSchedule)
    (hParticipants : s'.participants = s.participants.insert who score') :
    SameRecords s s' where
  threshold := hThreshold
  tiers := hTiers
  records := by
    intro who' score'' hGet'
    rw [hParticipants, get_insert] at hGet'
    split_ifs at hGet' with hWho
    · obtain rfl := Option.some.inj hGet'
      subst hWho
      exact ⟨score, hGet, hRecognition, hReached, hEver, hLe⟩
    · exact ⟨score'', hGet', rfl, rfl, rfl, Nat.le_refl _⟩

theorem drainEntry (round : RoundPayout) (roundIndex : Nat) (acc : ScoreState T × Nat)
    (who : T.Who) :
    SameRecords acc.1 (Score.drainEntry round roundIndex acc who).1 := by
  unfold Score.drainEntry
  dsimp only
  cases hGet : acc.1.participants.get who with
  | none => exact of_participants rfl rfl rfl
  | some score =>
    refine insert hGet ?_ ?_ ?_ ?_ rfl rfl rfl
    · rfl
    · rfl
    · rfl
    · exact Nat.le_refl _

theorem foldl_drainEntry (round : RoundPayout) (roundIndex : Nat) (keys : List T.Who)
    (acc : ScoreState T × Nat) :
    SameRecords acc.1 (keys.foldl (Score.drainEntry round roundIndex) acc).1 := by
  induction keys generalizing acc with
  | nil => exact of_participants rfl rfl rfl
  | cons who keys ih =>
    rw [List.foldl_cons]
    exact (drainEntry round roundIndex acc who).trans (ih _)

end SameRecords

namespace RecognitionInvariant

variable {w w' : World T} {chain : Chain T.Member T.Account}

/-
  Records that say nothing new still agree, as long as nothing
  changes about those who are known to the registry.
-/
theorem of_records (hOld : RecognitionInvariant w) (hRecords : SameRecords w.score w'.score)
    (hTracked : w'.people.IdsTracked)
    (hPeople : ∀ id, w.people.recognized id ≠ none →
        w'.people.recognized id = w.people.recognized id) :
    RecognitionInvariant w' where
  agrees := by
    intro who score' hGet'
    rcases hRecords.records who score' hGet' with ⟨score, hGet, hRecognition, hReached, hEver, hLe⟩
    have hAgrees := hOld.agrees who score hGet
    have hKept : Agrees w'.people score :=
      hAgrees.of_people fun id hHeld => hPeople id (hAgrees.held_ne_none hHeld)
    refine ⟨?_, ?_, ?_, ?_, Nat.le_trans hLe hAgrees.score_le⟩
    · rw [hRecognition, hReached]
      exact hKept.recognized
    · rw [hRecognition]
      exact hKept.suspended
    · rw [hReached, hEver]
      exact hKept.ever
    · rw [hRecognition, hReached]
      exact hKept.external
  unique := by
    intro who₁ who₂ score₁ score₂ id hGet₁ hGet₂ hHeld₁ hHeld₂
    rcases hRecords.records who₁ score₁ hGet₁ with ⟨old₁, hOld₁, hRecognition₁, _⟩
    rcases hRecords.records who₂ score₂ hGet₂ with ⟨old₂, hOld₂, hRecognition₂, _⟩
    rw [hRecognition₁] at hHeld₁
    rw [hRecognition₂] at hHeld₂
    exact hOld.unique who₁ who₂ old₁ old₂ id hOld₁ hOld₂ hHeld₁ hHeld₂
  tracked := hTracked
  threshold_le := by
    rw [hRecords.threshold]
    exact hOld.threshold_le
  tiers_le := by
    rw [hRecords.tiers]
    exact hOld.tiers_le

/-
  One record is written or removed.  The registry may change for the id that the participant held,
  and for ids that are new to it.
-/
theorem write (hOld : RecognitionInvariant w) (who : T.Who) (stored : Option Participant)
    (hParticipants : ∀ who', w'.score.participants.get who' =
        if who' = who then stored
        else w.score.participants.get who')
    (hChanged : ∀ id, w'.people.recognized id ≠ w.people.recognized id →
        (w.score.participants.get who).bind (fun score => score.recognition.personalId) = some id
          ∨ w.people.recognized id = none)
    (hStored : ∀ score, stored = some score → Agrees w'.people score ∧ ∀ id,
        score.recognition.personalId = some id → (w.score.participants.get who).bind
                (fun score => score.recognition.personalId)
              = some id
            ∨ w.people.recognized id = none)
    (hTracked : w'.people.IdsTracked)
    (hThreshold : w'.score.personhoodThreshold = w.score.personhoodThreshold)
    (hTiers : w'.score.personhoodThresholdSchedule = w.score.personhoodThresholdSchedule) :
    RecognitionInvariant w' := by
  -- an id in another record is neither held by `who` nor new
  have hOther : ∀ who' score id, who' ≠ who → w.score.participants.get who' = some score →
        score.recognition.personalId = some id → ¬((w.score.participants.get who).bind
                (fun score => score.recognition.personalId)
              = some id
            ∨ w.people.recognized id = none) := by
    intro who' score id hNe hGet hHeld hEither
    rcases hEither with hOwn | hNew
    · rw [Option.bind_eq_some_iff] at hOwn
      rcases hOwn with ⟨own, hOwnGet, hOwnHeld⟩
      exact hNe (hOld.unique who' who score own id hGet hOwnGet hHeld hOwnHeld)
    · exact (hOld.agrees who' score hGet).held_ne_none hHeld hNew
  refine ⟨?_, ?_, hTracked, ?_, ?_⟩
  · intro who' score hGet
    rw [hParticipants] at hGet
    by_cases hWho : who' = who
    · rw [if_pos hWho] at hGet
      exact (hStored score hGet).1
    · rw [if_neg hWho] at hGet
      refine (hOld.agrees who' score hGet).of_people ?_
      intro id hHeld
      by_contra hNe
      exact hOther who' score id hWho hGet hHeld (hChanged id hNe)
  · intro who₁ who₂ score₁ score₂ id hGet₁ hGet₂ hHeld₁ hHeld₂
    rw [hParticipants] at hGet₁ hGet₂
    by_cases hWho₁ : who₁ = who
    · rw [if_pos hWho₁] at hGet₁
      by_cases hWho₂ : who₂ = who
      · exact hWho₁.trans hWho₂.symm
      · rw [if_neg hWho₂] at hGet₂
        exact absurd ((hStored score₁ hGet₁).2 id hHeld₁) (hOther who₂ score₂ id hWho₂ hGet₂ hHeld₂)
    · rw [if_neg hWho₁] at hGet₁
      by_cases hWho₂ : who₂ = who
      · rw [if_pos hWho₂] at hGet₂
        exact absurd ((hStored score₂ hGet₂).2 id hHeld₂) (hOther who₁ score₁ id hWho₁ hGet₁ hHeld₁)
      · rw [if_neg hWho₂] at hGet₂
        exact hOld.unique who₁ who₂ score₁ score₂ id hGet₁ hGet₂ hHeld₁ hHeld₂
  · rw [hThreshold]
    exact hOld.threshold_le
  · rw [hTiers]
    exact hOld.tiers_le

--
-- Thresholds
--

theorem genesis : RecognitionInvariant (World.genesis : World T) where
  agrees := by simp [World.genesis, ScoreState.genesis]
  unique := by simp [World.genesis, ScoreState.genesis]
  tracked := PeopleState.idsTracked_genesis
  threshold_le := Nat.zero_le _
  tiers_le := by
    change ∀ tier ∈ defaultPersonhoodThresholdTiers.toList,
        tier.scoreThreshold ≤ maxPersonhoodThreshold
    decide

theorem updateThresholds (hOld : RecognitionInvariant w) (activeCount : Nat) :
    RecognitionInvariant (w.updateThresholds activeCount) := by
  refine ⟨hOld.agrees, hOld.unique, hOld.tracked, ?_, hOld.tiers_le⟩
  change World.calculatePersonhoodThreshold w.score activeCount ≤ _
  unfold World.calculatePersonhoodThreshold
  cases hFind : w.score.personhoodThresholdSchedule.toList.find? fun t =>
      decide (activeCount ≤ t.populationSizeThreshold) with
  | none => exact Nat.le_refl _
  | some tier =>
    exact hOld.tiers_le tier (List.mem_of_find?_eq_some hFind)

private theorem checkPersonhoodTiers_le
    {tiers : List PersonhoodThresholdTier} {prevPop prevScore lastPop : Nat}
    (hCheck : checkPersonhoodTiers prevPop prevScore tiers = .ok lastPop) :
    ∀ tier ∈ tiers, tier.scoreThreshold ≤ maxPersonhoodThreshold := by
  induction tiers generalizing prevPop prevScore with
  | nil => simp
  | cons tier tiers ih =>
    unfold checkPersonhoodTiers at hCheck
    simp only [bind_eq_ok, ensure_eq_ok_iff, exists_const] at hCheck
    rcases hCheck with ⟨_, hLe, _, _, hRest⟩
    intro tier' hMem
    rcases List.mem_cons.mp hMem with rfl | hMem
    · exact hLe
    · exact ih hRest tier' hMem

theorem setPersonhoodThresholdSchedule {schedule : PersonhoodThresholdTiers}
    (hOld : RecognitionInvariant w) (hSet : w.setPersonhoodThresholdSchedule schedule = .ok w') :
    RecognitionInvariant w' := by
  unfold World.setPersonhoodThresholdSchedule validatePersonhoodThresholdTiers at hSet
  simp only [bind_eq_ok, ensure_eq_ok_iff, exists_const, pure_eq_ok] at hSet
  rcases hSet with ⟨⟨_, lastPop, hCheck, _⟩, rfl⟩
  exact ⟨hOld.agrees, hOld.unique, hOld.tracked, hOld.threshold_le, checkPersonhoodTiers_le hCheck⟩

--
-- Payouts
--

/- Rounds and credit say nothing about recognition. -/
theorem of_score (hOld : RecognitionInvariant w) (hRecords : SameRecords w.score w'.score)
    (hPeople : w'.people = w.people) :
    RecognitionInvariant w' := by
  apply hOld.of_records hRecords
  · rw [hPeople]
    exact hOld.tracked
  · intro id _
    rw [hPeople]

theorem transitionRound (hOld : RecognitionInvariant w)
    (hTransition : World.transitionRound chain w roundIndex = .ok w') :
    RecognitionInvariant w' := by
  unfold World.transitionRound at hTransition
  simp only [bind_eq_ok, ensure_eq_ok_iff, exists_const, pure_eq_ok] at hTransition
  rcases hTransition with ⟨_, rfl⟩
  have hFinish : SameRecords w.score w.score.finishRound := by
    unfold ScoreState.finishRound
    cases w.score.roundPlanning <;>
      exact SameRecords.of_participants rfl rfl rfl
  have hPlan : SameRecords w.score.finishRound (w.score.finishRound.planRound chain.block) := by
    unfold ScoreState.planRound
    cases w.score.finishRound.roundSchedules.toList.head? <;>
      exact SameRecords.of_participants rfl rfl rfl
  exact hOld.of_score (hFinish.trans hPlan) rfl

theorem operateLayer {limit : Nat} {round : RoundPayout} (hOld : RecognitionInvariant w)
    (hOperate : w.operateLayer roundIndex limit round = .ok w') :
    RecognitionInvariant w' := by
  have hDrained := SameRecords.foldl_drainEntry round roundIndex
      ((w.score.roundKeys roundIndex).take limit) (w.score, 0)
  unfold World.operateLayer at hOperate
  simp only [bind_eq_ok] at hOperate
  rcases hOperate with ⟨released, _, pot, _, hRest⟩
  by_cases hMore : (w.score.roundKeys roundIndex).length < limit
  · rw [if_pos hMore] at hRest
    simp only [bind_eq_ok, pure_eq_ok] at hRest
    rcases hRest with ⟨_, _, rfl⟩
    exact hOld.of_score (hDrained.trans (SameRecords.of_participants rfl rfl rfl)) rfl
  · rw [if_neg hMore] at hRest
    simp only [pure_eq_ok] at hRest
    subst hRest
    exact hOld.of_score (hDrained.trans (SameRecords.of_participants rfl rfl rfl)) rfl

theorem recycleRoundPayout (hOld : RecognitionInvariant w) (roundIndex : Nat) :
    RecognitionInvariant (w.recycleRoundPayout roundIndex) := by
  unfold World.recycleRoundPayout
  cases w.score.roundPayouts.get roundIndex with
  | none => exact hOld
  | some round =>
    dsimp only
    by_cases hZero : round.remainingBalance = 0
    · rw [if_pos hZero]
      exact hOld.of_score (SameRecords.of_participants rfl rfl rfl) rfl
    · rw [if_neg hZero]
      cases w.pot.release .payout round.remainingBalance
          .bestEffort <;>
        exact hOld.of_score (SameRecords.of_participants rfl rfl rfl) rfl

theorem operatePayoutRound {limit : Nat} (hOld : RecognitionInvariant w)
    (hOperate : w.operatePayoutRound roundIndex limit = .ok w') :
    RecognitionInvariant w' := by
  unfold World.operatePayoutRound at hOperate
  simp only [bind_eq_ok, okOr_eq_ok_iff] at hOperate
  rcases hOperate with ⟨round, _, hLayer⟩
  cases hResult : w.operateLayer roundIndex limit round with
  | ok w₁ =>
    rw [hResult] at hLayer
    simp only [pure_eq_ok] at hLayer
    exact hLayer ▸ hOld.operateLayer hResult
  | error e =>
    rw [hResult] at hLayer
    simp only [pure_eq_ok] at hLayer
    exact hLayer ▸ hOld.recycleRoundPayout roundIndex

theorem cashOut (hOld : RecognitionInvariant w) (hCashOut : w.cashOut account = .ok w') :
    RecognitionInvariant w' := by
  unfold World.cashOut at hCashOut
  simp only [bind_eq_ok, okOr_eq_ok_iff, ensure_eq_ok_iff, exists_const, pure_eq_ok]
    at hCashOut
  rcases hCashOut with ⟨score, hGet, _, _, rfl⟩
  generalize hReduction : saturatingAdd u8Max score.score 1 / 2 = r
  have hAward : SameRecords w.score
        (w.score.awardParticipantPayoutPoints (.account account : T.Who) r)
      ∧ (w.score.awardParticipantPayoutPoints (.account account : T.Who) r).participants
        = w.score.participants := by
    unfold ScoreState.awardParticipantPayoutPoints
    split_ifs
    · exact ⟨SameRecords.of_participants rfl rfl rfl, rfl⟩
    · cases checkedAdd u32Max w.score.currentRoundPoints r <;>
        exact ⟨SameRecords.of_participants rfl rfl rfl, rfl⟩
  refine hOld.of_score (hAward.1.trans ?_) rfl
  refine SameRecords.insert (hAward.2 ▸ hGet) ?_ ?_ ?_ ?_ rfl rfl rfl
  · rfl
  · rfl
  · rfl
  · exact Nat.sub_le _ _

theorem redeemCredit {destination : T.Account} {accepted : Bool} (hOld : RecognitionInvariant w)
    (hRedeem : w.redeemCredit who destination accepted = .ok w') :
    RecognitionInvariant w' := by
  unfold World.redeemCredit at hRedeem
  simp only [bind_eq_ok, okOr_eq_ok_iff, ensure_eq_ok_iff, exists_const, pure_eq_ok]
    at hRedeem
  rcases hRedeem with ⟨score, hGet, _, _, _, _, _, rfl⟩
  refine hOld.of_score (SameRecords.insert hGet ?_ ?_ ?_ ?_ rfl rfl rfl) rfl
  · rfl
  · rfl
  · rfl
  · exact Nat.le_refl _

--
-- Registering
--

/- A record is overwritten, and the registry is `people`. -/
theorem setParticipant {old score : Participant} {people : PeopleState T.Member T.Account}
    (hOld : RecognitionInvariant w) (hGet : w.score.participants.get who = some old)
    (hChanged : ∀ id, people.recognized id ≠ w.people.recognized id →
        old.recognition.personalId = some id ∨ w.people.recognized id = none)
    (hAgrees : Agrees people score)
    (hHeld : ∀ id, score.recognition.personalId = some id →
        old.recognition.personalId = some id ∨ w.people.recognized id = none)
    (hTracked : people.IdsTracked) :
    RecognitionInvariant { w.setParticipant who score with people := people } := by
  have hOwn : (w.score.participants.get who).bind (fun score => score.recognition.personalId)
        = old.recognition.personalId := by
    rw [hGet]
    rfl
  refine hOld.write who (some score) ?_ ?_ ?_ hTracked rfl rfl
  · intro who'
    exact get_insert _ _ _ _
  · rw [hOwn]
    exact hChanged
  · intro score' hScore
    obtain rfl := Option.some.inj hScore
    rw [hOwn]
    exact ⟨hAgrees, hHeld⟩

private theorem agrees_registered {people : PeopleState T.Member T.Account} {score : Participant}
    (hLe : score.score ≤ maxPersonhoodThreshold) (hOpen : people.recognized id = some true) :
    Agrees people
      { score with
        recognition := .recognized id
        reachedPersonhood := true
        hasEverReachedPersonhood := true } where
  recognized := by
    intro id' hEq
    obtain rfl := Recognition.recognized.inj hEq
    exact ⟨rfl, hOpen⟩
  suspended := by
    intro id' hEq
    cases hEq
  ever := fun _ => rfl
  external := fun _ => rfl
  score_le := hLe

theorem register {key : Option (T.Member × Bool)} (hOld : RecognitionInvariant w)
    (hFresh : w.people.nextPersonalId + (Op.register account key).reservedIds ≤ u64Max)
    (hRegister : World.register chain w account key = .ok w') :
    RecognitionInvariant w' := by
  unfold World.register at hRegister
  simp only [bind_eq_ok, okOr_eq_ok_iff, ensure_eq_ok_iff, exists_const] at hRegister
  rcases hRegister with ⟨score, hGet, _, hRest⟩
  have hScore := hOld.agrees _ score hGet
  cases hRecognition : score.recognition with
  | suspended id =>
    simp only [hRecognition, bind_eq_ok, ensure_eq_ok_iff, exists_const, fromPeople_eq_ok_iff,
      pure_eq_ok] at hRest
    rcases hRest with ⟨_, people, hPeople, rfl⟩
    rcases PeopleState.recognizePersonhood_none_spec hPeople with ⟨_, _, _, hSpec⟩
    apply hOld.setParticipant hGet
    · intro id' hNe
      left
      rw [hRecognition]
      by_contra hOther
      have hId : id' ≠ id := by
        rintro rfl
        exact hOther rfl
      exact hNe ((hSpec id').trans (if_neg hId))
    · exact agrees_registered hScore.score_le ((hSpec id).trans (if_pos rfl))
    · intro id' hHeld
      left
      rw [hRecognition]
      exact hHeld
    · exact hOld.tracked.recognizePersonhood_none hPeople
  | notRecognized =>
    simp only [hRecognition, bind_eq_ok, okOr_eq_ok_iff, ensure_eq_ok_iff, exists_const,
      fromPeople_eq_ok_iff, pure_eq_ok] at hRest
    rcases hRest with ⟨key', rfl, _, people, hPeople, rfl⟩
    rcases PeopleState.recognizeFresh hOld.tracked hFresh
        hPeople with
      ⟨hTracked, _, hNew, hSpec⟩
    apply hOld.setParticipant hGet
    · intro id' hNe
      right
      by_cases hId : id' = w.people.nextPersonalId
      · rw [hId]
        exact hNew
      · exact absurd ((hSpec id').trans (if_neg hId)) hNe
    · exact agrees_registered hScore.score_le ((hSpec _).trans (if_pos rfl))
    · intro id' hHeld
      obtain rfl := Option.some.inj hHeld
      exact Or.inr hNew
    · exact hTracked
  | externallyRecognized => simp [hRecognition] at hRest
  | recognized id => simp [hRecognition] at hRest

--
-- Onboarding
--

/- A new participant holds no personal id. -/
theorem onboard {score : Participant} {people : PeopleState T.Member T.Account}
    (hOld : RecognitionInvariant w) (hAgrees : Agrees people score)
    (hNone : score.recognition.personalId = none)
    (hPeople : people.recognized = w.people.recognized) (hTracked : people.IdsTracked) :
    RecognitionInvariant { w.setParticipant who score with people := people } := by
  refine hOld.write who (some score) ?_ ?_ ?_ hTracked rfl rfl
  · intro who'
    exact get_insert _ _ _ _
  · intro id hNe
    exact absurd (congrFun hPeople id) hNe
  · intro score' hScore
    obtain rfl := Option.some.inj hScore
    refine ⟨hAgrees, ?_⟩
    intro id hHeld
    rw [hNone] at hHeld
    cases hHeld

theorem onboardForRecognition (hOld : RecognitionInvariant w)
    (hOnboard : w.onboardForRecognition account = .ok w') :
    RecognitionInvariant w' := by
  unfold World.onboardForRecognition at hOnboard
  simp only [bind_eq_ok, ensure_eq_ok_iff, exists_const, pure_eq_ok] at hOnboard
  rcases hOnboard with ⟨_, rfl⟩
  have hTracked : (w.people.incSufficients account).IdsTracked :=
    hOld.tracked.of_known rfl (fun _ hMem => hMem) fun _ hPerson => Or.inl hPerson
  refine hOld.onboard ⟨?_, ?_, ?_, ?_, Nat.zero_le _⟩ rfl rfl hTracked
  · intro id hEq
    cases hEq
  · intro id hEq
    cases hEq
  · intro hReached
    cases hReached
  · intro hEq
    cases hEq

theorem onboardExternallyRecognized {alias_ : T.Alias} (hOld : RecognitionInvariant w)
    (hOnboard : w.onboardExternallyRecognized alias_ = .ok w') :
    RecognitionInvariant w' := by
  unfold World.onboardExternallyRecognized at hOnboard
  simp only [bind_eq_ok, ensure_eq_ok_iff, exists_const, pure_eq_ok] at hOnboard
  rcases hOnboard with ⟨_, rfl⟩
  refine hOld.onboard ⟨?_, ?_, fun _ => rfl, fun _ => rfl, hOld.threshold_le⟩ rfl rfl hOld.tracked
  · intro id hEq
    cases hEq
  · intro id hEq
    cases hEq

--
-- Offboarding
--

/- What removing a record and its reference leaves. -/
private theorem removed_frame (w : World T) (who : T.Who) :
    (∀ who', ((w.takeParticipant who).dropReference who).score.participants.get who' =
        if who' = who then none
        else w.score.participants.get who')
      ∧ ((w.takeParticipant who).dropReference who).score.personhoodThreshold
        = w.score.personhoodThreshold
      ∧ ((w.takeParticipant who).dropReference who).score.personhoodThresholdSchedule
        = w.score.personhoodThresholdSchedule
      ∧ ((w.takeParticipant who).dropReference who).people.recognized = w.people.recognized
      ∧ (w.people.IdsTracked → ((w.takeParticipant who).dropReference who).people.IdsTracked) := by
  have hDrop : ∀ v : World T, (v.dropReference who).score = v.score
          ∧ (v.dropReference who).people.recognized = v.people.recognized
          ∧ (v.people.IdsTracked → (v.dropReference who).people.IdsTracked) := by
    intro v
    cases who with
    | account account =>
      exact ⟨rfl, rfl, fun hTracked =>
        hTracked.of_known rfl (fun _ hMem => hMem) fun _ hPerson => Or.inl hPerson⟩
    | person alias_ => exact ⟨rfl, rfl, id⟩
  have hTake : (∀ who', (w.takeParticipant who).score.participants.get who' =
          if who' = who then none
          else w.score.participants.get who')
        ∧ (w.takeParticipant who).score.personhoodThreshold = w.score.personhoodThreshold
        ∧ (w.takeParticipant who).score.personhoodThresholdSchedule
          = w.score.personhoodThresholdSchedule
        ∧ (w.takeParticipant who).people = w.people := by
    unfold World.takeParticipant
    cases hGet : w.score.participants.get who with
    | none =>
      refine ⟨?_, rfl, rfl, rfl⟩
      intro who'
      by_cases hWho : who' = who
      · rw [if_pos hWho, hWho, hGet]
      · rw [if_neg hWho]
    | some score =>
      dsimp only
      split_ifs
      · exact ⟨fun who' => get_remove _ _ _, rfl, rfl, rfl⟩
      · cases w.pot.release .credit score.credit .exact <;>
          exact ⟨fun who' => get_remove _ _ _, rfl, rfl, rfl⟩
  rcases hDrop (w.takeParticipant who) with ⟨hScore, hRecognized, hTracked⟩
  rw [hScore, hRecognized]
  refine ⟨hTake.1, hTake.2.1, hTake.2.2.1, ?_, ?_⟩
  · rw [hTake.2.2.2]
  · intro hOldTracked
    apply hTracked
    rw [hTake.2.2.2]
    exact hOldTracked

theorem offboard (hOld : RecognitionInvariant w) (hOffboard : World.offboard chain w who = .ok w') :
    RecognitionInvariant w' := by
  unfold World.offboard at hOffboard
  simp only [bind_eq_ok, pure_eq_ok] at hOffboard
  rcases hOffboard with ⟨w₁, hSuspend, rfl⟩
  -- the suspension changes what is known of the held id only
  have hSuspended : w₁.score = w.score ∧ w₁.people.IdsTracked ∧ ∀ id,
            w₁.people.recognized id ≠ w.people.recognized id → (w.score.participants.get who).bind
                  (fun score => score.recognition.personalId)
                = some id := by
    unfold World.suspendRecognized at hSuspend
    cases hGet : w.score.participants.get who with
    | none =>
      rw [hGet] at hSuspend
      obtain rfl := Except.ok.inj hSuspend
      exact ⟨rfl, hOld.tracked, fun id hNe => absurd rfl hNe⟩
    | some score =>
      rw [hGet, Option.map_some] at hSuspend
      cases hRecognition : score.recognition with
      | recognized id =>
        rw [hRecognition] at hSuspend
        unfold World.suspendInSession at hSuspend
        simp only [bind_eq_ok, fromPeople_eq_ok_iff, pure_eq_ok] at hSuspend
        rcases hSuspend with ⟨_, _, people, hPeople, _, _, rfl⟩
        refine ⟨rfl, hOld.tracked.suspendPersonhood hPeople, ?_⟩
        intro id' hNe
        rw [Option.bind_some, hRecognition]
        rcases PeopleState.suspendPersonhood_spec hPeople with ⟨_, _, _, hSpec⟩
        by_contra hOther
        have hId : id' ∉ [id] := by
          intro hMem
          exact hOther (List.mem_singleton.mp hMem ▸ rfl)
        exact hNe ((hSpec id').trans (if_neg hId))
      | _ =>
        rw [hRecognition] at hSuspend
        obtain rfl := Except.ok.inj hSuspend
        exact ⟨rfl, hOld.tracked, fun id hNe => absurd rfl hNe⟩
  rcases hSuspended with ⟨hScore, hTracked, hChanged⟩
  rcases removed_frame w₁ who with ⟨hGet, hThreshold, hTiers, hRecognized, hKeeps⟩
  rw [hScore] at hGet hThreshold hTiers
  refine hOld.write who none hGet ?_ ?_ (hKeeps hTracked) hThreshold hTiers
  · intro id hNe
    rw [hRecognized] at hNe
    exact Or.inl (hChanged id hNe)
  · intro score hNone
    cases hNone

--
-- Attendance
--

/- A game changes no recognition and keeps the score capped. -/
private theorem attend_frame (score : Participant) {threshold : Nat}
    (attended : Bool) (gameIndex : Nat) (hScore : score.score ≤ maxPersonhoodThreshold)
    (hThreshold : threshold ≤ maxPersonhoodThreshold) :
    (World.attend score threshold attended gameIndex).recognition = score.recognition
      ∧ (World.attend score threshold attended gameIndex).reachedPersonhood
        = score.reachedPersonhood
      ∧ (World.attend score threshold attended gameIndex).score ≤ maxPersonhoodThreshold := by
  unfold World.attend
  cases attended with
  | true => exact ⟨rfl, rfl, Nat.min_le_right _ _⟩
  | false =>
    refine ⟨rfl, rfl, ?_⟩
    change (if score.recognition.isExternallyRecognized = true
        then _ else _) ≤ _
    split_ifs
    · exact hThreshold
    · exact Nat.le_trans (Nat.sub_le _ _) hScore

/- What an attempt to suspend a participant may come to. -/
private theorem suspendParticipant_cases
    (chain : Chain T.Member T.Account) (people : PeopleState T.Member T.Account)
    (score : Participant) :
    (∃ id people', score.recognition = .recognized id
        ∧ people.suspendPersonhood chain [id] = .ok people'
        ∧ World.suspendParticipant chain people score
          = (true, { score with recognition := .suspended id }, people'))
      ∨ World.suspendParticipant chain people score = (false, score, people)
      ∨ ((∀ id, score.recognition ≠ .recognized id)
        ∧ World.suspendParticipant chain people score = (true, score, people)) := by
  unfold World.suspendParticipant
  cases hRecognition : score.recognition with
  | recognized id =>
    dsimp only
    cases hSuspend : people.suspendPersonhood chain [id] with
    | ok people' =>
      exact Or.inl ⟨id, people', rfl, hSuspend, rfl⟩
    | error e => exact Or.inr (Or.inl rfl)
  | _ => exact Or.inr (Or.inr ⟨by simp, rfl⟩)

theorem setAttendance {attended : Bool} {gameIndex : Nat} (hOld : RecognitionInvariant w)
    (hSet : World.setAttendance chain w who attended gameIndex = .ok w') :
    RecognitionInvariant w' := by
  unfold World.setAttendance at hSet
  simp only [bind_eq_ok, okOr_eq_ok_iff, pure_eq_ok] at hSet
  rcases hSet with ⟨old, hGet, rfl⟩
  have hAgrees := hOld.agrees who old hGet
  rcases attend_frame old attended gameIndex hAgrees.score_le
      hOld.threshold_le with
    ⟨hRecognition, hReached, hLe⟩
  generalize World.attend old w.score.personhoodThreshold attended
      gameIndex = score at hRecognition hReached hLe ⊢
  -- a recognized or external participant has personhood
  have hNoPersonhood : score.reachedPersonhood = false → (∀ id, score.recognition ≠ .recognized id)
          ∧ score.recognition ≠ .externallyRecognized := by
    rw [hRecognition, hReached]
    intro hFalse
    refine ⟨?_, ?_⟩
    · intro id hEq
      simp [(hAgrees.recognized id hEq).1] at hFalse
    · intro hEq
      simp [hAgrees.external hEq] at hFalse
  have hClosed : ∀ id, score.recognition = .suspended id → w.people.recognized id = some false := by
    rw [hRecognition]
    exact hAgrees.suspended
  have hOpen : ∀ id, score.recognition = .recognized id → w.people.recognized id = some true := by
    rw [hRecognition]
    exact fun id hEq => (hAgrees.recognized id hEq).2
  cases hLoses :
      (!attended && score.reachedPersonhood && World.losesPersonhood score
          w.score.personhoodThreshold
          w.score.absenceGraceRatio) with
  | false =>
    -- nobody is suspended
    simp only [Bool.false_eq_true, if_false]
    refine hOld.setParticipant hGet (fun id hNe => absurd rfl hNe)
      ⟨?_, ?_, ?_, ?_, hLe⟩ ?_ hOld.tracked
    · intro id hEq
      refine ⟨?_, hOpen id hEq⟩
      cases hPersonhood : score.reachedPersonhood with
      | true => simp
      | false =>
        exact absurd hEq ((hNoPersonhood hPersonhood).1 id)
    · exact hClosed
    · intro hNow
      dsimp only at hNow ⊢
      rw [hNow, Bool.or_true]
    · intro hEq
      cases hPersonhood : score.reachedPersonhood with
      | true => simp
      | false =>
        exact absurd hEq (hNoPersonhood hPersonhood).2
    · intro id hHeld
      rw [← hRecognition]
      exact Or.inl hHeld
  | true =>
    simp only [Bool.and_eq_true] at hLoses
    rcases hLoses with ⟨⟨_, hPersonhood⟩, hLost⟩
    simp only [if_true, hPersonhood, Bool.not_true, Bool.false_and, Bool.false_eq_true, if_false]
    rcases suspendParticipant_cases chain w.people score with
      ⟨id, people', hEq, hSuspend, hResult⟩ | hResult
        | ⟨hNot, hResult⟩
    · -- the registry has suspended the person
      rw [hResult]
      rcases PeopleState.suspendPersonhood_spec hSuspend with ⟨_, _, _, hSpec⟩
      refine hOld.setParticipant hGet ?_ ⟨?_, ?_, ?_, ?_, hLe⟩ ?_
        (hOld.tracked.suspendPersonhood hSuspend)
      · intro id' hNe
        left
        rw [← hRecognition, hEq]
        by_contra hOther
        have hId : id' ∉ [id] := by
          intro hMem
          exact hOther (List.mem_singleton.mp hMem ▸ rfl)
        exact hNe ((hSpec id').trans (if_neg hId))
      · intro id' hEq'
        cases hEq'
      · intro id' hEq'
        obtain rfl := Recognition.suspended.inj hEq'
        exact (hSpec id).trans (if_pos (List.mem_singleton.mpr rfl))
      · intro hNow
        cases hNow
      · intro hEq'
        cases hEq'
      · intro id' hHeld
        rw [← hRecognition, hEq]
        exact Or.inl hHeld
    · -- the registry refused, and the participant stays
      rw [hResult]
      simp only [Bool.false_eq_true, if_false]
      refine hOld.setParticipant hGet (fun id hNe => absurd rfl hNe)
        ⟨fun id hEq => ⟨rfl, hOpen id hEq⟩, hClosed, ?_, fun _ => rfl, hLe⟩
        ?_ hOld.tracked
      · intro _
        exact Bool.or_true _
      · intro id hHeld
        rw [← hRecognition]
        exact Or.inl hHeld
    · -- the flag of one that is not recognized is cleared
      rw [hResult]
      refine hOld.setParticipant hGet (fun id hNe => absurd rfl hNe)
        ⟨fun id hEq => absurd hEq (hNot id), hClosed, ?_, ?_, hLe⟩
        ?_ hOld.tracked
      · intro hNow
        cases hNow
      · intro hEq
        simp only at hEq
        simp [World.losesPersonhood, hEq] at hLost
      · intro id hHeld
        rw [← hRecognition]
        exact Or.inl hHeld

theorem forceSetAttendance {attended : Bool} {gameIndex : Nat} (hOld : RecognitionInvariant w)
    (hForce : World.forceSetAttendance chain w who attended gameIndex = .ok w') :
    RecognitionInvariant w' := by
  unfold World.forceSetAttendance at hForce
  simp only [bind_eq_ok, pure_eq_ok] at hForce
  rcases hForce with ⟨_, _, w₁, hSet, _, _, rfl⟩
  exact (hOld.updateThresholds chain.activeCount).setAttendance hSet

--
-- Runs
--

/- An operation of the registry that forgets nobody. -/
theorem withPeople
    {result :
      Except PeopleMulti.Error (PeopleState T.Member T.Account)}
    (hOld : RecognitionInvariant w)
    (hResult : ∀ people, result = .ok people → people.IdsTracked ∧ ∀ id,
        w.people.recognized id ≠ none → people.recognized id = w.people.recognized id)
    (hPeople : w.withPeople result = .ok w') :
    RecognitionInvariant w' := by
  unfold World.withPeople at hPeople
  simp only [bind_eq_ok, fromPeople_eq_ok_iff, pure_eq_ok] at hPeople
  rcases hPeople with ⟨people, hOk, rfl⟩
  rcases hResult people hOk with ⟨hTracked, hKept⟩
  exact hOld.of_records (SameRecords.of_participants rfl rfl rfl) hTracked hKept

theorem dispatch {call : Chain T.Member T.Account × Op T} (hOld : RecognitionInvariant w)
    (hFresh : IdsFresh w call w') (hDispatch : w.dispatch call = .ok w') :
    RecognitionInvariant w' := by
  rcases call with ⟨chain, op⟩
  have hTracked := hOld.tracked
  unfold IdsFresh at hFresh
  dsimp only at hFresh
  cases op with
  | fund amount =>
    unfold World.dispatch World.fund at hDispatch
    simp only [bind_eq_ok, pure_eq_ok] at hDispatch
    rcases hDispatch with ⟨_, _, rfl⟩
    exact hOld.of_score (SameRecords.of_participants rfl rfl rfl) rfl
  | schedulePayoutRounds amount count duration =>
    unfold World.dispatch World.schedulePayoutRounds at hDispatch
    simp only [bind_eq_ok, pure_eq_ok] at hDispatch
    rcases hDispatch with ⟨_, _, _, _, rfl⟩
    exact hOld.of_score (SameRecords.of_participants rfl rfl rfl) rfl
  | removePayoutSchedule index =>
    unfold World.dispatch World.removePayoutSchedule at hDispatch
    simp only [bind_eq_ok, pure_eq_ok] at hDispatch
    rcases hDispatch with ⟨_, _, _, _, rfl⟩
    exact hOld.of_score (SameRecords.of_participants rfl rfl rfl) rfl
  | transitionRound roundIndex =>
    exact hOld.transitionRound hDispatch
  | operatePayoutRound roundIndex limit =>
    exact hOld.operatePayoutRound hDispatch
  | cashOut account => exact hOld.cashOut hDispatch
  | redeemCredit who destination accepted =>
    exact hOld.redeemCredit hDispatch
  | register account key => exact hOld.register hFresh hDispatch
  | setAbsenceGraceSchedule schedule =>
    unfold World.dispatch World.setAbsenceGraceSchedule at hDispatch
    simp only [bind_eq_ok, pure_eq_ok] at hDispatch
    rcases hDispatch with ⟨_, _, rfl⟩
    exact hOld.of_score (SameRecords.of_participants rfl rfl rfl) rfl
  | setPersonhoodThresholdSchedule schedule =>
    exact hOld.setPersonhoodThresholdSchedule hDispatch
  | forceSetAttendance who attended gameIndex =>
    exact hOld.forceSetAttendance hDispatch
  | onboardForRecognition account =>
    exact hOld.onboardForRecognition hDispatch
  | onboardExternallyRecognized alias_ =>
    exact hOld.onboardExternallyRecognized hDispatch
  | offboard who => exact hOld.offboard hDispatch
  | startAttendanceReportSession =>
    obtain rfl := Except.ok.inj hDispatch
    exact hOld.updateThresholds chain.activeCount
  | endAttendanceReportSession =>
    unfold World.dispatch at hDispatch
    simp only [bind_eq_ok, pure_eq_ok] at hDispatch
    rcases hDispatch with ⟨_, _, rfl⟩
    exact hOld
  | setAttendance who attended gameIndex =>
    exact hOld.setAttendance hDispatch
  | reserveNewId =>
    obtain rfl := Except.ok.inj hDispatch
    exact hOld.of_records (SameRecords.of_participants rfl rfl rfl)
      (hTracked.reserveNewId hFresh) fun _ _ => rfl
  | cancelIdReservation id =>
    refine hOld.withPeople ?_ hDispatch
    intro people hOk
    rcases hTracked.cancelIdReservation hOk with ⟨hNew, hSame⟩
    exact ⟨hNew, fun id' _ => congrFun hSame id'⟩
  | renewIdReservation id =>
    refine hOld.withPeople ?_ hDispatch
    intro people hOk
    rcases hTracked.renewIdReservation hOk with ⟨hNew, hSame⟩
    exact ⟨hNew, fun id' _ => congrFun hSame id'⟩
  | recognizeNewPerson id key =>
    refine hOld.withPeople ?_ hDispatch
    intro people hOk
    refine ⟨hTracked.recognizePersonhood_some hOk, ?_⟩
    intro id' hPerson
    rcases PeopleState.recognizePersonhood_some_spec hOk with ⟨hReserved, _, _, hSpec⟩
    have hNe : id' ≠ id := by
      rintro rfl
      exact hPerson (hTracked.reserved_free id' hReserved)
    rw [hSpec, if_neg hNe]
  | forceRecognizePersonhood people =>
    refine hOld.withPeople ?_ hDispatch
    intro people' hOk
    exact PeopleState.forceRecognizePersonhood_spec hTracked hFresh hOk
  | setPersonalIdAccount id account callValidAt =>
    refine hOld.withPeople ?_ hDispatch
    intro people hOk
    rcases PeopleState.setPersonalIdAccount_spec hOk with ⟨hNext, hReserved, hSame⟩
    refine ⟨hTracked.of_known hNext ?_ ?_, fun id' _ => congrFun hSame id'⟩
    · rw [hReserved]
      exact fun _ hMem => hMem
    · rw [hSame]
      exact fun _ hPerson => Or.inl hPerson
  | unsetPersonalIdAccount id =>
    refine hOld.withPeople ?_ hDispatch
    intro people hOk
    rcases PeopleState.unsetPersonalIdAccount_spec hOk with ⟨hNext, hReserved, hSame⟩
    refine ⟨hTracked.of_known hNext ?_ ?_, fun id' _ => congrFun hSame id'⟩
    · rw [hReserved]
      exact fun _ hMem => hMem
    · rw [hSame]
      exact fun _ hPerson => Or.inl hPerson

end RecognitionInvariant

namespace World

private theorem exists_record {people : PeopleState T.Member T.Account} {isOpen : Bool}
    (hRecognized : people.recognized id = some isOpen) :
    ∃ record, people.people.get id = some record ∧ record.history.isOpen = isOpen :=
  Option.map_eq_some_iff.mp hRecognized

/-
  While personal ids are fresh, what the participants record about their recognition is what the
  registry says, and no two of them hold the same personal id.
-/
theorem recognition_agrees (w : World T) (hRun : RunUnder dispatch IdsFresh genesis w) :
    (∀ who score, w.score.participants.get who = some score → (∀ id,
          score.recognition = .recognized id → score.reachedPersonhood = true
              ∧ ∃ record, w.people.people.get id = some record ∧ record.history.isOpen = true)
          ∧ (∀ id, score.recognition = .suspended id → ∃ record,
              w.people.people.get id = some record ∧ record.history.isOpen = false)
          ∧ (score.reachedPersonhood = true → score.hasEverReachedPersonhood = true)
          ∧ (score.recognition = .externallyRecognized → score.reachedPersonhood = true)
          ∧ score.score ≤ 21)
      ∧ ∀ who who' score score' id, w.score.participants.get who = some score →
          w.score.participants.get who' = some score' →
          score.recognition.personalId = some id →
          score'.recognition.personalId = some id → who = who' := by
  have hInvariant : RecognitionInvariant w := hRun.invariant RecognitionInvariant
      (fun _ _ _ hFresh hDispatch hOld => hOld.dispatch hFresh hDispatch)
      RecognitionInvariant.genesis
  refine ⟨?_, hInvariant.unique⟩
  intro who score hGet
  have hAgrees := hInvariant.agrees who score hGet
  refine ⟨?_, ?_, hAgrees.ever, hAgrees.external, hAgrees.score_le⟩
  · intro id hEq
    rcases hAgrees.recognized id hEq with ⟨hReached, hOpen⟩
    exact ⟨hReached, exists_record hOpen⟩
  · intro id hEq
    exact exists_record (hAgrees.suspended id hEq)

private def idsFreshCheck (w : World sampleConfig)
    (call : Chain Nat Nat × Op sampleConfig) : Bool :=
  decide (w.people.nextPersonalId + call.2.reservedIds ≤ u64Max)

private theorem idsFresh_of_check (w : World sampleConfig) (call : Chain Nat Nat × Op sampleConfig)
    (w' : World sampleConfig) (hCheck : idsFreshCheck w call = true) :
    IdsFresh w call w' :=
  of_decide_eq_true (p := _ ≤ _) hCheck

/- Two participants register, and the first one is suspended after missing two games. -/
theorem recognition_agrees_sample : ∃ w,
      RunUnder dispatch IdsFresh (genesis : World sampleConfig) w
        ∧ ((w.score.participants.get (.account 1)).map Participant.recognition = some (.suspended 0)
        ∧ (w.score.participants.get (.account 2)).map Participant.recognition
          = some (.recognized 1))
        ∧ ∀ who score, w.score.participants.get who = some score → score.score ≤ 21 := by
  have hExecute : (performAll idsFreshCheck [.onboardForRecognition 1, .onboardForRecognition 2,
          .register 1 (some (7, true)),
          .register 2 (some (8, true)),
          .startAttendanceReportSession,
          .setAttendance (.account 1) false 0,
          .setAttendance (.account 1) false 1]).any
        (fun w =>
          decide ((w.score.participants.get (.account 1)).map Participant.recognition
              = some (.suspended 0)
            ∧ (w.score.participants.get (.account 2)).map Participant.recognition
              = some (.recognized 1))) = true := by
    decide +kernel
  have hReached := exists_run_of_execute
      (fun w call w' hCheck _ => idsFresh_of_check w call w' hCheck)
      hExecute
  rcases hReached with ⟨w, hRun, hTest⟩
  rw [decide_eq_true_eq] at hTest
  exact ⟨w, hRun, hTest, fun who score hGet =>
      ((recognition_agrees w hRun).1 who score hGet).2.2.2.2⟩

/- The registry after ids were reserved and given up again. -/
private def withNextId (n : Nat) : World sampleConfig :=
  { (genesis : World sampleConfig) with
    people := { PeopleState.genesis with nextPersonalId := n } }

private theorem run_withNextId (n : Nat) (hLe : n ≤ u64Max) :
    RunUnder dispatch (fun _ _ _ => True) (genesis : World sampleConfig) (withNextId n) := by
  induction n with
  | zero => exact Relation.ReflTransGen.refl
  | succ n ih =>
    have hCancel : (withNextId n).people.reserveNewId.2.cancelIdReservation n
          = .ok (withNextId (n + 1)).people := by
      unfold PeopleState.cancelIdReservation PeopleState.reserveNewId withNextId
      dsimp only
      rw [saturatingAdd_of_le hLe, ensure_of (Finset.mem_insert_self n _)]
      change
        Except.ok { PeopleState.genesis with
          nextPersonalId := n + 1
          reservedPersonalId := (insert n (∅ : Finset Nat)).erase n }
        = _
      rw [Finset.erase_insert (Finset.notMem_empty n)]
      rfl
    have hReserve : dispatch (withNextId n) (sampleChain, Op.reserveNewId) = .ok
            { withNextId n with
              people := (withNextId n).people.reserveNewId.2 } :=
      rfl
    have hGiveUp : dispatch
            { withNextId n with
              people := (withNextId n).people.reserveNewId.2 }
            (sampleChain, Op.cancelIdReservation n)
          = .ok (withNextId (n + 1)) := by
      unfold dispatch withPeople
      dsimp only
      rw [hCancel]
      rfl
    exact ((ih (Nat.le_of_succ_le hLe)).snoc trivial hReserve).snoc trivial hGiveUp

/- The last personal id is reserved over and over, and two participants are recognized under it. -/
theorem recognition_agrees_fails : ∃ w,
      RunUnder dispatch (fun _ _ _ => True) (genesis : World sampleConfig) w
        ∧ (w.score.participants.get (.account 1)).map Participant.recognition
          = some (.recognized u64Max)
        ∧ (w.score.participants.get (.account 2)).map Participant.recognition
          = some (.recognized u64Max) := by
  have hExecute : (execute dispatch (fun _ _ => true) (withNextId u64Max)
        (List.map (fun op => (sampleChain, op))
          ([.onboardForRecognition 1, .onboardForRecognition 2, .register 1 (some (7, true)),
            .register 2 (some (8, true))] : List (Op sampleConfig)))).any
        (fun w =>
          decide ((w.score.participants.get (.account 1)).map Participant.recognition
              = some (.recognized u64Max)
            ∧ (w.score.participants.get (.account 2)).map Participant.recognition
              = some (.recognized u64Max))) = true := by
    decide +kernel
  have hReached := exists_run_of_execute (fun _ _ _ _ _ => (trivial : True)) hExecute
  rcases hReached with ⟨w, hRun, hTest⟩
  rw [decide_eq_true_eq] at hTest
  exact ⟨w, (run_withNextId u64Max (Nat.le_refl _)).trans hRun, hTest.1, hTest.2⟩

end World

end Individuality.Score
