import Individuality.Game.Membership

/-
  Players, archived players and participants of the score pallet agree.

  Main declaration: `Enrolled`
-/

namespace Individuality.Game

variable {T : Config} {who : T.Who}

/- The accounts that have a reference of the score pallet. -/
def World.held (w : World T) (account : T.Account) : Bool :=
  w.participates (.account account)

/-
  Who plays is not archived, and who does either is exactly who has a record in the score pallet.
  No attendance has failed to be set.
-/
structure Enrolled (w : World T) : Prop where
  exclusive : ∀ who, w.playing who ≠ none → w.archived who = false
  participates : ∀ who,
      w.participates who = true ↔ w.playing who ≠ none ∨ w.archived who = true
  references : w.score.people.References w.held
  attendanceOk : w.AttendanceOk

namespace Enrolled

variable {w w' : World T} {env : Env T}

theorem genesis : Enrolled (World.genesis : World T) where
  exclusive := by
    intro who hPlaying
    exact absurd rfl hPlaying
  participates := by
    intro who
    constructor
    · intro hParticipates
      cases hParticipates
    · rintro (hPlaying | hArchived)
      · exact absurd rfl hPlaying
      · cases hArchived
  references := PeopleMulti.PeopleState.references_genesis
  attendanceOk := by
    intro call hMem
    cases hMem

theorem playersParticipate (hOld : Enrolled w) :
    w.PlayersParticipate := by
  intro who hPlaying
  exact (hOld.participates who).mpr (Or.inl hPlaying)

theorem archived_eq (hSame : SamePopulation w w') (who : T.Who) :
    w'.archived who = w.archived who := by
  unfold World.archived
  rw [hSame.archivedPlayers]

theorem of_same (hOld : Enrolled w) (hSame : SamePopulation w w') :
    Enrolled w' where
  exclusive := by
    intro who hPlaying
    rw [hSame.playing] at hPlaying
    rw [archived_eq hSame]
    exact hOld.exclusive who hPlaying
  participates := by
    intro who
    rw [hSame.playing, archived_eq hSame]
    unfold World.participates
    rw [hSame.participants.participates]
    exact hOld.participates who
  references := by
    have hHeld : w'.held = w.held := by
      funext account
      exact hSame.participants.participates _
    rw [hHeld]
    exact hSame.participants.references _ hOld.references
  attendanceOk := hSame.attendanceOk hOld.playersParticipate hOld.attendanceOk

/- Statement accounts and allowances play no part. -/
theorem of_samePlayers (hOld : Enrolled w) (hSame : SamePlayers w w') :
    Enrolled w' where
  exclusive := by
    intro who hPlaying
    rw [hSame.playing] at hPlaying
    rw [hSame.archived]
    exact hOld.exclusive who hPlaying
  participates := by
    intro who
    rw [hSame.playing, hSame.archived]
    unfold World.participates
    rw [hSame.score]
    exact hOld.participates who
  references := by
    have hHeld : w'.held = w.held := by
      funext account
      unfold World.held World.participates
      rw [hSame.score]
    rw [hHeld, hSame.score]
    exact hOld.references
  attendanceOk := by
    unfold World.AttendanceOk
    rw [hSame.attendanceLog]
    exact hOld.attendanceOk

--
-- Signing Up
--

/- Who is neither playing nor archived can be onboarded. -/
theorem onboard_isOk (hOld : Enrolled w) (hPlaying : w.playing who = none)
    (hArchived : w.archived who = false) :
    ∃ w', w.onboard who = .ok w' := by
  have hFree : w.score.participates who = false := by
    apply Bool.eq_false_iff.mpr
    intro hParticipates
    rcases (hOld.participates who).mp hParticipates with
      hPlays | hArchives
    · exact hPlays hPlaying
    · rw [hArchived] at hArchives
      cases hArchives
  unfold World.onboard
  cases who with
  | account account =>
    rcases Score.World.onboardForRecognition_isOk hFree with ⟨score, hOk⟩
    exact ⟨_, World.fromScore_eq_ok_iff.mpr ⟨score, hOk, rfl⟩⟩
  | person alias_ =>
    rcases Score.World.onboardExternallyRecognized_isOk hFree with ⟨score, hOk⟩
    exact ⟨_, World.fromScore_eq_ok_iff.mpr ⟨score, hOk, rfl⟩⟩

/- After onboarding, one more identity participates. -/
theorem onboarded_spec (hRefs : w.score.people.References w.held)
    (hOnboard : w.onboard who = .ok w') :
    (∀ who', w'.participates who' = (decide (who' = who) || w.participates who'))
      ∧ w'.score.people.References w'.held := by
  unfold World.onboard at hOnboard
  cases who with
  | account account =>
    rcases World.fromScore_eq_ok_iff.mp hOnboard with ⟨score, hOk, rfl⟩
    rcases Score.World.onboardForRecognition_spec hOk with ⟨hFree, hParticipates, hPeople⟩
    refine ⟨hParticipates, ?_⟩
    change score.people.References _
    rw [hPeople]
    refine hRefs.incSufficients hFree ?_
    intro account'
    unfold World.held
    refine (hParticipates (.account account')).trans ?_
    simp only [Score.AccountOrPerson.account.injEq]
    rfl
  | person alias_ =>
    rcases World.fromScore_eq_ok_iff.mp hOnboard with ⟨score, hOk, rfl⟩
    rcases Score.World.onboardExternallyRecognized_spec hOk with ⟨hFree, hParticipates, hPeople⟩
    refine ⟨hParticipates, ?_⟩
    change score.people.References _
    rw [hPeople]
    have hHeld : ({ w with score := score } : World T).held = w.held := by
      funext account
      unfold World.held
      refine (hParticipates (.account account)).trans ?_
      simp only [reduceCtorEq, decide_false, Bool.false_or]
      rfl
    rw [hHeld]
    exact hRefs

theorem signsUp (hOld : Enrolled w) (hSignsUp : SignsUp w w' who) :
    Enrolled w' := by
  rcases hSignsUp.credited with ⟨credibility, _, hPlaying⟩
  have hScore : (∀ who', w'.participates who' = (decide (who' = who) || w.participates who'))
        ∧ w'.score.people.References w'.held := by
    have hOnboarded := hSignsUp.onboarded
    generalize hEq : w'.score = score at hOnboarded
    cases hOnboarded with
    | known hKnown =>
      have hParticipates : ∀ who', w'.participates who' = w.participates who' := by
        intro who'
        unfold World.participates
        rw [hEq]
      refine ⟨?_, ?_⟩
      · intro who'
        rw [hParticipates]
        by_cases hWho : who' = who
        · have hTrue := (hOld.participates who).mpr hKnown
          rw [hWho, hTrue, Bool.or_true]
        · rw [decide_eq_false hWho, Bool.false_or]
      · have hHeld : w'.held = w.held := funext fun account => hParticipates (.account account)
        rw [hHeld]
        exact hOld.references
    | new w₁ hNew hArchived hOnboard =>
      rcases onboarded_spec hOld.references hOnboard with ⟨hParticipates, hRefs⟩
      have hSame : ∀ who', w'.participates who' = w₁.participates who' := by
        intro who'
        unfold World.participates
        rw [hEq]
      refine ⟨fun who' => (hSame who').trans (hParticipates who'), ?_⟩
      have hHeld : w'.held = w₁.held := funext fun account => hSame (.account account)
      rw [hHeld]
      exact hRefs
  rcases hScore with ⟨hParticipates, hRefs⟩
  refine ⟨?_, ?_, hRefs, ?_⟩
  · intro who' hPlays
    rw [hPlaying] at hPlays
    rw [hSignsUp.archived]
    by_cases hWho : who' = who
    · rw [if_pos hWho]
    · rw [if_neg hWho] at hPlays ⊢
      exact hOld.exclusive who' hPlays
  · intro who'
    rw [hParticipates, hPlaying, hSignsUp.archived]
    by_cases hWho : who' = who
    · simp [hWho]
    · rw [decide_eq_false hWho, Bool.false_or, if_neg hWho, if_neg hWho]
      exact hOld.participates who'
  · unfold World.AttendanceOk
    rw [hSignsUp.attendanceLog]
    exact hOld.attendanceOk

--
-- Processing a Player
--

theorem archives (hOld : Enrolled w) (hPlays : w.playing who ≠ none)
    (hArchives : Archives w w' who) :
    Enrolled w' := by
  have hParticipates : ∀ who', w'.participates who' = w.participates who' := by
    intro who'
    unfold World.participates
    rw [hArchives.score]
  refine ⟨?_, ?_, ?_, ?_⟩
  · intro who' hPlaying
    rw [hArchives.playing] at hPlaying
    rw [hArchives.archived]
    by_cases hWho : who' = who
    · rw [if_pos hWho] at hPlaying
      exact absurd rfl hPlaying
    · rw [if_neg hWho] at hPlaying
      rw [decide_eq_false hWho, Bool.false_or]
      exact hOld.exclusive who' hPlaying
  · intro who'
    rw [hParticipates, hArchives.playing, hArchives.archived]
    by_cases hWho : who' = who
    · have hTrue := (hOld.participates who).mpr (Or.inl hPlays)
      simp [hWho, hTrue]
    · rw [if_neg hWho, decide_eq_false hWho, Bool.false_or]
      exact hOld.participates who'
  · have hHeld : w'.held = w.held := funext fun account => hParticipates (.account account)
    rw [hHeld, hArchives.score]
    exact hOld.references
  · unfold World.AttendanceOk
    rw [hArchives.attendanceLog]
    exact hOld.attendanceOk

theorem recognizes {ticket : Nat} (hOld : Enrolled w)
    (hRecognizes : Recognizes env w w' who ticket) :
    Enrolled w' := by
  have hPlaying : ∀ who', w'.playing who' ≠ none ↔ w.playing who' ≠ none := by
    intro who'
    rw [hRecognizes.playing]
    by_cases hWho : who' = who
    · rw [if_pos hWho, hWho, hRecognizes.before]
      simp
    · rw [if_neg hWho]
  have hArchived : ∀ who', w'.archived who' = w.archived who' := by
    intro who'
    unfold World.archived
    rw [hRecognizes.archivedPlayers]
  refine ⟨?_, ?_, ?_, ?_⟩
  · intro who' hPlays
    rw [hArchived]
    exact hOld.exclusive who' ((hPlaying who').mp hPlays)
  · intro who'
    rw [hPlaying, hArchived]
    unfold World.participates
    rw [hRecognizes.score]
    exact hOld.participates who'
  · have hHeld : w'.held = w.held := by
      funext account
      unfold World.held World.participates
      rw [hRecognizes.score]
    rw [hHeld, hRecognizes.score]
    exact hOld.references
  · unfold World.AttendanceOk
    rw [hRecognizes.attendanceLog]
    exact hOld.attendanceOk

--
-- Leaving
--

/- Offboarding takes back the record and the reference. -/
theorem offboarded (hOld : Enrolled w) (hKnown : w.playing who ≠ none ∨ w.archived who = true)
    (hPlaying : ∀ who', w'.playing who' =
        if who' = who then none else w.playing who')
    (hArchived : ∀ who', w'.archived who' = (decide (who' ≠ who) && w.archived who'))
    (hOffboard : Score.World.offboard (World.chain env w) w.score who = .ok w'.score)
    (hLog : w'.attendanceLog = w.attendanceLog) :
    Enrolled w' := by
  rcases Score.World.offboard_spec hOffboard with ⟨hParticipates, people, hPeople, hRegistry⟩
  have hParticipates' : ∀ who',
        w'.participates who' = (decide (who' ≠ who) && w.participates who') :=
    hParticipates
  refine ⟨?_, ?_, ?_, ?_⟩
  · intro who' hPlays
    rw [hPlaying] at hPlays
    rw [hArchived]
    by_cases hWho : who' = who
    · rw [if_pos hWho] at hPlays
      exact absurd rfl hPlays
    · rw [if_neg hWho] at hPlays
      rw [hOld.exclusive who' hPlays, Bool.and_false]
  · intro who'
    rw [hParticipates', hPlaying, hArchived]
    by_cases hWho : who' = who
    · simp [hWho]
    · rw [decide_eq_true hWho, Bool.true_and, Bool.true_and, if_neg hWho]
      exact hOld.participates who'
  · rw [hRegistry]
    cases who with
    | account account =>
      refine (hPeople _ hOld.references).decSufficients ((hOld.participates _).mpr hKnown) ?_
      intro account'
      unfold World.held
      rw [hParticipates']
      simp only [ne_eq, Score.AccountOrPerson.account.injEq]
    | person alias_ =>
      have hHeld : w'.held = w.held := by
        funext account
        unfold World.held
        rw [hParticipates']
        simp
      rw [hHeld]
      exact hPeople _ hOld.references
  · unfold World.AttendanceOk
    rw [hLog]
    exact hOld.attendanceOk

theorem leaves (hOld : Enrolled w) (hLeaves : Leaves w w' who) :
    Enrolled w' := by
  rcases hLeaves.offboarded with ⟨env, hOffboard⟩
  exact hOld.offboarded hLeaves.known hLeaves.playing
    hLeaves.archived hOffboard hLeaves.attendanceLog

theorem kickout {account : T.Account} (hOld : Enrolled w)
    (hKickout : w.kickout env account = .ok w') :
    Enrolled w' := by
  rcases World.kickout_spec hKickout with ⟨hWas, hPlaying, hArchived, _, _, hOffboard, hLog⟩
  refine hOld.offboarded (Or.inr hWas) ?_ hArchived hOffboard hLog
  intro who
  rw [hPlaying]
  by_cases hWho : who = .account account
  · rw [if_pos hWho, hWho]
    by_contra hPlays
    rw [hOld.exclusive _ hPlays] at hWas
    cases hWas
  · rw [if_neg hWho]

end Enrolled

end Individuality.Game
