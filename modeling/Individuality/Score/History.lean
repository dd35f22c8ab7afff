import Individuality.Score.Sample

/-
  The attendance of a participant refines the list of all of its reports: the bits of the history
  are the last reports, the streak is the current run, the score folds the gains and the penalties,
  and a suspension comes with the first absence that the grace ratio does not excuse.

  Main declaration: `attendance_refines`
-/

namespace Individuality.Score

open Except (bind_eq_ok pure_eq_ok)

open PeopleMulti (PeopleState Chain)

variable {T : Config} {w : World T} {who : T.Who} {score : Participant}
variable {chain : Chain T.Member T.Account} {attended : Bool} {id : Nat}

--
-- Reports
--

/-
  A report, with what was in force: whether others recognized the participant, the threshold, the
  grace ratio, and whether the registry accepts a suspension.
-/
structure Report where
  attended : Bool
  external : Bool
  threshold : Nat
  allowedMisses : Nat
  window : Nat
  accepted : Bool
  deriving DecidableEq, Repr

/- Reports are listed with the latest first. -/
def flagsOf (reports : List Report) : List Bool :=
  reports.map Report.attended

/-
  The absences among the last `window` reports, where games
  before the first report count as attended.
-/
def missedIn (window : Nat) (flags : List Bool) : Nat :=
  (flags.take window).count false

/- The length of the current run of equal reports. -/
def runLength : List Bool → Nat
  | [] => 0
  | flag :: flags =>
    ((flag :: flags).takeWhile (· = flag)).length

def streakOf : List Bool → Streak
  | [] => .attended 0
  | true :: flags =>
    .attended (min (runLength (true :: flags)) u8Max)
  | false :: flags =>
    .absent (min (runLength (false :: flags)) u8Max)

/-
  The score from the first one on.  A game gains as much as the run is long, up to the largest
  score, and an absence costs as much, unless others recognize the participant.
-/
def scoreOf (first : Nat) : List Report → Nat
  | [] => first
  | report :: reports =>
    let before :=
      if report.external then report.threshold
      else scoreOf first reports
    let length := min (runLength (flagsOf (report :: reports))) u8Max
    if report.attended then
      min (before + length) maxPersonhoodThreshold
    else if report.external then before
    else before - length

/- A model that stores the whole list of reports, the score at onboarding and the recognition. -/
structure Reference where
  first : Nat
  reports : List Report
  recognition : Recognition

namespace Reference

/- Whether a report suspends a recognized participant. -/
def isDue (r : Reference) (report : Report) : Bool :=
  !report.attended && decide (report.window = 0 ∨ report.allowedMisses < missedIn report.window
            (flagsOf (report :: r.reports)))
    && report.accepted

def addReport (r : Reference) (report : Report) : Reference where
  first := r.first
  reports := report :: r.reports
  recognition :=
    match r.recognition with
    | .recognized id =>
      if r.isDue report then .suspended id else .recognized id
    | other => other

end Reference

--
-- Runs of Reports
--

theorem runLength_cons (flag : Bool) (flags : List Bool) :
    runLength (flag :: flags) = ((flag :: flags).takeWhile (· = flag)).length :=
  rfl

theorem runLength_same (flag : Bool) (flags : List Bool) :
    runLength (flag :: flag :: flags) = runLength (flag :: flags) + 1 := by
  rw [runLength_cons flag (flag :: flags), runLength_cons flag flags]
  simp

theorem runLength_other {flag other : Bool} (hNe : other ≠ flag) (flags : List Bool) :
    runLength (flag :: other :: flags) = 1 := by
  rw [runLength_cons]
  simp [hNe]

theorem streakOf_attended (flags : List Bool) :
    (streakOf flags).addAttendance 1 = streakOf (true :: flags) := by
  cases flags with
  | nil => rfl
  | cons flag flags =>
    cases flag with
    | true =>
      unfold streakOf
      dsimp only
      rw [runLength_same]
      unfold Streak.addAttendance saturatingAdd
      rw [Streak.attended.injEq]
      omega
    | false =>
      unfold streakOf
      dsimp only
      rw [runLength_other Bool.false_ne_true]
      rfl

theorem streakOf_absent (flags : List Bool) :
    (streakOf flags).addAbsence 1 = streakOf (false :: flags) := by
  cases flags with
  | nil => rfl
  | cons flag flags =>
    cases flag with
    | true =>
      unfold streakOf
      dsimp only
      rw [runLength_other Bool.false_ne_true.symm]
      rfl
    | false =>
      unfold streakOf
      dsimp only
      rw [runLength_same]
      unfold Streak.addAbsence saturatingAdd
      rw [Streak.absent.injEq]
      omega

--
-- Bits
--

/- The bits of a history are the last reports. -/
def BitsAre (history : AttendanceHistory) (flags : List Bool) : Prop :=
  ∀ i, i < 8 → history.getLsbD i = flags.getD i true

theorem bitsAre_default : BitsAre AttendanceHistory.default [] := by
  unfold BitsAre
  decide

variable {history : AttendanceHistory}

theorem BitsAre.storeAttendance {flags : List Bool} (hBits : BitsAre history flags)
    (attended : Bool) :
    BitsAre (AttendanceHistory.storeAttendance history attended) (attended :: flags) := by
  intro i hLt
  unfold AttendanceHistory.storeAttendance
  cases i with
  | zero => cases attended <;> simp
  | succ i =>
    have hOld := hBits i (by omega)
    rw [List.getD_cons_succ, ← hOld]
    have hGet : history.getLsbD i = history[i] := BitVec.getLsbD_eq_getElem (by omega)
    cases attended <;> simp [hLt, hGet]

theorem countP_add_missedIn (flags : List Bool) (window : Nat) :
    (List.range window).countP (fun i => flags.getD i true) + missedIn window flags = window := by
  unfold missedIn
  induction window with
  | zero => rfl
  | succ window ih =>
    simp only [List.getD_eq_getElem?_getD] at ih ⊢
    rw [List.range_succ, List.countP_append, List.take_add_one,
      List.count_append, List.countP_singleton]
    cases flags[window]? with
    | none =>
      simp only [Option.getD_none, if_true, Option.toList_none, List.count_nil]
      omega
    | some flag =>
      cases flag <;> simp <;> omega

/- Counting bits is counting reports. -/
theorem BitsAre.missesInWindow {flags : List Bool} (hBits : BitsAre history flags) {window : Nat}
    (hWindow : window ≤ 8) :
    AttendanceHistory.missesInWindow history window = missedIn window flags := by
  have hCount := countP_add_missedIn flags window
  have hSame : (List.range window).countP (fun i => history.getLsbD i) = (List.range window).countP
          fun i => flags.getD i true := by
    apply List.countP_congr
    intro i hMem
    rw [List.mem_range] at hMem
    rw [hBits i (by omega)]
  unfold AttendanceHistory.missesInWindow
  dsimp only
  rw [Nat.min_eq_left hWindow, hSame]
  omega

--
-- The Grace Ratio
--

/- The ratio of a tier that governance has accepted, or none. -/
def GraceAccepted (ratio : Nat × Nat) : Prop :=
  ratio = (0, 0) ∨ ∃ tiers tier, validateAbsenceGraceTiers tiers = .ok () ∧ tier ∈ tiers.toList
      ∧ ratio = (tier.allowedMisses, tier.window)

theorem window_le_of_check {tiers : List AbsenceGraceTier} {prevThreshold : Nat}
    (hCheck : checkAbsenceTiers prevThreshold tiers = .ok ()) {tier : AbsenceGraceTier}
    (hMem : tier ∈ tiers) :
    tier.window ≤ 8 := by
  induction tiers generalizing prevThreshold with
  | nil => cases hMem
  | cons head tiers ih =>
    unfold checkAbsenceTiers at hCheck
    simp only [bind_eq_ok, ensure_eq_ok_iff, exists_const] at hCheck
    rcases hCheck with ⟨hWindow, _, _, hRest⟩
    rw [List.mem_cons] at hMem
    rcases hMem with rfl | hMem
    · exact hWindow
    · exact ih hRest hMem

theorem GraceAccepted.window_le {ratio : Nat × Nat} (hAccepted : GraceAccepted ratio) :
    ratio.2 ≤ 8 := by
  rcases hAccepted with rfl | ⟨tiers, tier, hValid, hMem, rfl⟩
  · exact Nat.zero_le _
  · exact window_le_of_check hValid hMem

--
-- Runs
--

/- Onboard an account, or a person under an alias. -/
def onboardAs (w : World T) : T.Who → Except Error (World T)
  | .account account => w.onboardForRecognition account
  | .person alias_ => w.onboardExternallyRecognized alias_

/- A report as it is made in a world. -/
def reportOf (chain : Chain T.Member T.Account) (w : World T) (recognition : Recognition)
    (attended : Bool) : Report where
  attended := attended
  external := recognition.isExternallyRecognized
  threshold := w.score.personhoodThreshold
  allowedMisses := w.score.absenceGraceRatio.1
  window := w.score.absenceGraceRatio.2
  accepted := recognition.personalId.all fun id =>
      (w.people.suspendPersonhood chain [id]).isOk

/-
  Between two reports anything may happen that leaves the streak, the history and the score of the
  participant as they are.  Someone who is recognized has reached personhood.
-/
def Unreported (who : T.Who) (recognition : Recognition) (w w' : World T) : Prop :=
  ∀ old, w.score.participants.get who = some old → ∃ score,
      w'.score.participants.get who = some score ∧ score.streak = old.streak
        ∧ score.attendanceHistory = old.attendanceHistory
        ∧ score.score = old.score
        ∧ score.recognition = recognition
        ∧ ∀ id, recognition = .recognized id → score.reachedPersonhood = true

/- The worlds that reports lead to, beside the reference. -/
inductive Attended (who : T.Who) :
    Reference → World T → Prop where
  | onboarded {w w' : World T} {score : Participant} (hOnboard : onboardAs w who = .ok w')
      (hGet : w'.score.participants.get who = some score) :
      Attended who ⟨score.score, [], score.recognition⟩ w'
  | reported {r : Reference} {w w' : World T} {chain : Chain T.Member T.Account} {attended : Bool}
      {gameIndex : Nat} (hBefore : Attended who r w)
      (hGrace : GraceAccepted w.score.absenceGraceRatio)
      (hSet : World.setAttendance chain w who attended gameIndex = .ok w') :
      Attended who
        (r.addReport (reportOf chain w r.recognition attended))
        w'
  | between {r : Reference} {w w' : World T} {recognition : Recognition}
      (hBefore : Attended who r w) (hUnreported : Unreported who recognition w w') :
      Attended who { r with recognition := recognition } w'

/- What a participant records is what the reference says. -/
structure Recorded (r : Reference) (score : Participant) : Prop where
  streak : score.streak = streakOf (flagsOf r.reports)
  bits : BitsAre score.attendanceHistory (flagsOf r.reports)
  points : score.score = scoreOf r.first r.reports
  recognition : score.recognition = r.recognition
  reached :
    ∀ id, score.recognition = .recognized id → score.reachedPersonhood = true

namespace Recorded

/- A participant that was just onboarded has no reports. -/
theorem of_onboard {w' : World T} (hOnboard : onboardAs w who = .ok w')
    (hGet : w'.score.participants.get who = some score) :
    Recorded ⟨score.score, [], score.recognition⟩ score := by
  cases who with
  | account account =>
    unfold onboardAs World.onboardForRecognition at hOnboard
    simp only [bind_eq_ok, pure_eq_ok] at hOnboard
    rcases hOnboard with ⟨_, _, rfl⟩
    unfold World.setParticipant at hGet
    rw [StorageMap.get_insert_self] at hGet
    obtain rfl := Option.some.inj hGet
    refine ⟨rfl, bitsAre_default, rfl, rfl, ?_⟩
    intro id hEq
    cases hEq
  | person alias_ =>
    unfold onboardAs World.onboardExternallyRecognized at hOnboard
    simp only [bind_eq_ok, pure_eq_ok] at hOnboard
    rcases hOnboard with ⟨_, _, rfl⟩
    unfold World.setParticipant at hGet
    rw [StorageMap.get_insert_self] at hGet
    obtain rfl := Option.some.inj hGet
    refine ⟨rfl, bitsAre_default, rfl, rfl, ?_⟩
    intro id hEq
    cases hEq

variable {r : Reference}

/- The score and the streak after one more report. -/
theorem attend {old : Participant} (hOld : Recorded r old) (report : Report)
    (hExternal : report.external = r.recognition.isExternallyRecognized) (gameIndex : Nat) :
    Recorded { r with reports := report :: r.reports }
      (World.attend old report.threshold report.attended gameIndex) := by
  have hFlags : flagsOf (report :: r.reports) = report.attended :: flagsOf r.reports := rfl
  have hBits := hOld.bits.storeAttendance report.attended
  cases hAttended : report.attended with
  | true =>
    rw [hAttended] at hBits hFlags
    have hStreak : old.streak.addAttendance 1 = streakOf (true :: flagsOf r.reports) := by
      rw [hOld.streak, streakOf_attended]
    refine ⟨?_, ?_, ?_, hOld.recognition, hOld.reached⟩
    · rw [hFlags]
      exact hStreak
    · rw [hFlags]
      exact hBits
    · unfold World.attend scoreOf
      simp only [if_true, hAttended, hFlags, hStreak, hOld.recognition, ← hExternal, hOld.points]
      unfold streakOf Streak.attendance saturatingAdd
      dsimp only
      unfold maxPersonhoodThreshold u8Max
      omega
  | false =>
    rw [hAttended] at hBits hFlags
    have hStreak : old.streak.addAbsence 1 = streakOf (false :: flagsOf r.reports) := by
      rw [hOld.streak, streakOf_absent]
    refine ⟨?_, ?_, ?_, hOld.recognition, hOld.reached⟩
    · rw [hFlags]
      exact hStreak
    · rw [hFlags]
      exact hBits
    · unfold World.attend scoreOf
      simp only [Bool.false_eq_true, if_false, hAttended,
        hFlags, hStreak, hOld.recognition, ← hExternal,
        hOld.points]
      cases report.external with
      | true => rfl
      | false => rfl

/-
  Once the score is updated, the report suspends a recognized
  participant when it is due, and nobody else.
-/
theorem losesPersonhood_eq
    (hScore : Recorded
        { r with
          reports := reportOf chain w r.recognition attended :: r.reports }
        score)
    (hWindow : w.score.absenceGraceRatio.2 ≤ 8)
    (hRecognized : r.recognition = .recognized id) :
    (!attended && score.reachedPersonhood && World.losesPersonhood score w.score.personhoodThreshold
          w.score.absenceGraceRatio
        && (w.people.suspendPersonhood chain [id]).isOk)
      = r.isDue (reportOf chain w r.recognition attended) := by
  have hId : score.recognition = .recognized id := hScore.recognition.trans hRecognized
  have hMisses := hScore.bits.missesInWindow hWindow
  have hAccepted : (reportOf chain w r.recognition attended).accepted
        = (w.people.suspendPersonhood chain [id]).isOk := by
    unfold reportOf Recognition.personalId
    rw [hRecognized]
    rfl
  unfold World.losesPersonhood Reference.isDue
  rw [hId, hScore.reached id hId, hAccepted]
  dsimp only
  rw [hMisses, Bool.and_true]
  rfl

theorem addReport_recognized (hRecognized : r.recognition = .recognized id) (report : Report) :
    (r.addReport report).recognition = if r.isDue report then .suspended id
        else .recognized id := by
  unfold Reference.addReport
  dsimp only
  rw [hRecognized]

theorem addReport_other (hNot : ∀ id, r.recognition ≠ .recognized id) (report : Report) :
    (r.addReport report).recognition = r.recognition := by
  unfold Reference.addReport
  cases hCase : r.recognition with
  | recognized id => exact absurd hCase (hNot id)
  | _ => simp only

theorem suspendParticipant_other
    (chain : Chain T.Member T.Account) (people : PeopleState T.Member T.Account)
    (hNot : ∀ id, score.recognition ≠ .recognized id) :
    (World.suspendParticipant chain people score).2.1 = score := by
  unfold World.suspendParticipant
  cases hCase : score.recognition with
  | recognized id => exact absurd hCase (hNot id)
  | _ => rfl

/- What suspending, or not, leaves of the participant. -/
theorem suspension
    (hScore : Recorded
        { r with
          reports := reportOf chain w r.recognition attended :: r.reports }
        score)
    (hWindow : w.score.absenceGraceRatio.2 ≤ 8)
    {suspension :
      Bool × Participant × PeopleState T.Member T.Account}
    (hSuspension : (if (!attended && score.reachedPersonhood && World.losesPersonhood score
              w.score.personhoodThreshold
              w.score.absenceGraceRatio) = true then
          World.suspendParticipant chain w.people score
        else
          (false, score, w.people)) = suspension) :
    Recorded (r.addReport (reportOf chain w r.recognition attended)) suspension.2.1 ∧ ∀ id,
        suspension.2.1.recognition = .recognized id →
          suspension.1 = false ∧ score.reachedPersonhood = true := by
  have hRecognition := hScore.recognition
  dsimp only at hRecognition
  by_cases hSome : ∃ id, r.recognition = .recognized id
  · -- a recognized participant is suspended when it is due
    rcases hSome with ⟨id, hCase⟩
    have hDue := hScore.losesPersonhood_eq hWindow hCase
    have hReport := addReport_recognized hCase (reportOf chain w r.recognition attended)
    rw [hCase] at hRecognition
    unfold World.suspendParticipant at hSuspension
    rw [hRecognition] at hSuspension
    rw [← hDue] at hReport
    have hReached := hScore.reached id hRecognition
    generalize (!attended && score.reachedPersonhood && World.losesPersonhood score
          w.score.personhoodThreshold
          w.score.absenceGraceRatio) = loses
      at hSuspension hReport
    cases loses with
    | false =>
      simp only [Bool.false_eq_true, if_false] at hSuspension
      obtain rfl := hSuspension
      exact ⟨⟨hScore.streak, hScore.bits, hScore.points, hRecognition.trans hReport.symm,
          fun _ _ => hReached⟩, fun _ _ => ⟨rfl, hReached⟩⟩
    | true =>
      simp only [if_true, Bool.true_and] at hSuspension hReport
      cases hOk : w.people.suspendPersonhood chain [id] with
      | error e =>
        rw [hOk] at hSuspension hReport
        obtain rfl := hSuspension
        exact ⟨⟨hScore.streak, hScore.bits, hScore.points, hRecognition.trans hReport.symm,
            fun _ _ => hReached⟩,
            fun _ _ => ⟨rfl, hReached⟩⟩
      | ok people =>
        rw [hOk] at hSuspension hReport
        obtain rfl := hSuspension
        exact ⟨⟨hScore.streak, hScore.bits, hScore.points, hReport.symm, fun id hEq => nomatch hEq⟩,
            fun id hEq => nomatch hEq⟩
  · -- anybody else keeps the recognition
    have hNot : ∀ id, r.recognition ≠ .recognized id := fun id hEq => hSome ⟨id, hEq⟩
    have hReport := addReport_other hNot (reportOf chain w r.recognition attended)
    have hKept : suspension.2.1 = score := by
      rw [← hSuspension]
      split_ifs
      · exact suspendParticipant_other chain w.people fun id hEq =>
          hNot id (hRecognition.symm.trans hEq)
      · rfl
    rw [hKept]
    refine ⟨⟨hScore.streak, hScore.bits, hScore.points,
        hRecognition.trans hReport.symm, hScore.reached⟩, ?_⟩
    intro id hEq
    exact absurd (hRecognition.symm.trans hEq) (hNot id)

/- One report, in a world and in the reference. -/
theorem setAttendance {w' : World T} {old : Participant} {gameIndex : Nat} (hOld : Recorded r old)
    (hGet : w.score.participants.get who = some old) (hWindow : w.score.absenceGraceRatio.2 ≤ 8)
    (hSet : World.setAttendance chain w who attended gameIndex = .ok w') :
    ∃ score, w'.score.participants.get who = some score ∧ Recorded
        (r.addReport (reportOf chain w r.recognition attended))
        score := by
  unfold World.setAttendance at hSet
  simp only [bind_eq_ok, okOr_eq_ok_iff, pure_eq_ok] at hSet
  rcases hSet with ⟨old', hGet', rfl⟩
  obtain rfl := Option.some.inj (hGet.symm.trans hGet')
  have hScore := hOld.attend (reportOf chain w r.recognition attended) rfl gameIndex
  change Recorded _ (World.attend old w.score.personhoodThreshold attended gameIndex) at hScore
  generalize World.attend old w.score.personhoodThreshold attended gameIndex = score at hScore ⊢
  generalize hSuspension : (if (!attended && score.reachedPersonhood && World.losesPersonhood score
            w.score.personhoodThreshold
            w.score.absenceGraceRatio) = true then
        World.suspendParticipant chain w.people score
      else
        (false, score, w.people)) = suspension
  rcases hScore.suspension hWindow hSuspension with ⟨hNew, hKept⟩
  unfold World.setParticipant
  dsimp only
  refine ⟨_, StorageMap.get_insert_self _ _ _, hNew.streak,
    hNew.bits, hNew.points, hNew.recognition, ?_⟩
  intro id hRecognized
  dsimp only at hRecognized ⊢
  rcases hKept id hRecognized with ⟨hNot, hReached⟩
  rw [hNot, hReached]
  rfl

end Recorded

theorem recorded_of_attended {r : Reference} (hAttended : Attended who r w) :
    ∃ score, w.score.participants.get who = some score ∧ Recorded r score := by
  induction hAttended with
  | onboarded hOnboard hGet =>
    exact ⟨_, hGet, Recorded.of_onboard hOnboard hGet⟩
  | reported hBefore hGrace hSet ih =>
    rcases ih with ⟨old, hGet, hOld⟩
    exact hOld.setAttendance hGet hGrace.window_le hSet
  | between hBefore hUnreported ih =>
    rcases ih with ⟨old, hGet, hOld⟩
    rcases hUnreported old hGet with
      ⟨score, hGet', hStreak, hHistory, hPoints, hRecognition, hReached⟩
    refine ⟨score, hGet', ?_, ?_, ?_, hRecognition, ?_⟩
    · exact hStreak.trans hOld.streak
    · rw [hHistory]
      exact hOld.bits
    · exact hPoints.trans hOld.points
    · intro id hEq
      exact hReached id (hRecognition.symm.trans hEq)

theorem isDue_reportOf_iff {r : Reference} (hRecognized : r.recognition = .recognized id)
    (chain : Chain T.Member T.Account) (w : World T) (attended : Bool) :
    r.isDue (reportOf chain w r.recognition attended) = true ↔ attended = false
        ∧ (w.score.absenceGraceRatio.2 = 0 ∨ w.score.absenceGraceRatio.1
            < missedIn w.score.absenceGraceRatio.2 (attended :: flagsOf r.reports))
        ∧ ∃ people, w.people.suspendPersonhood chain [id] = .ok people := by
  unfold Reference.isDue reportOf Recognition.personalId
  rw [hRecognized]
  simp only [Bool.and_eq_true, Bool.not_eq_true', decide_eq_true_eq, and_assoc, Option.all_some]
  cases w.people.suspendPersonhood chain [id] with
  | ok people => simp [Except.isOk, Except.toBool, flagsOf]
  | error e => simp [Except.isOk, Except.toBool]

/-
  After any run of reports the history, the streak, the score and the recognition are those of the
  reference, which stores the whole list.  The next report suspends a recognized participant exactly
  when it is an absence that the ratio in force does not excuse and the registry accepts.
-/
theorem attendance_refines {who : T.Who} {r : Reference} {w : World T}
    (hAttended : Attended who r w) :
    (∃ score, w.score.participants.get who = some score ∧ (∀ window,
            window ≤ 8 → AttendanceHistory.missesInWindow score.attendanceHistory window
                = missedIn window (flagsOf r.reports))
        ∧ score.streak = streakOf (flagsOf r.reports)
        ∧ score.score = scoreOf r.first r.reports
        ∧ score.recognition = r.recognition)
      ∧ ∀ id chain attended gameIndex w', r.recognition = .recognized id →
          GraceAccepted w.score.absenceGraceRatio →
          World.setAttendance chain w who attended gameIndex = .ok w' → ∃ score,
              w'.score.participants.get who = some score
                ∧ (score.recognition = .suspended id ↔ attended = false
                    ∧ (w.score.absenceGraceRatio.2 = 0 ∨ w.score.absenceGraceRatio.1
                        < missedIn w.score.absenceGraceRatio.2 (attended :: flagsOf r.reports))
                    ∧ ∃ people, w.people.suspendPersonhood chain [id] = .ok people)
                ∧ (score.recognition = .suspended id ∨ score.recognition = .recognized id) := by
  rcases recorded_of_attended hAttended with ⟨old, hGet, hOld⟩
  refine ⟨⟨old, hGet, fun window hWindow =>
      hOld.bits.missesInWindow hWindow, hOld.streak,
      hOld.points, hOld.recognition⟩, ?_⟩
  intro id chain attended gameIndex w' hRecognized hGrace hSet
  rcases hOld.setAttendance hGet hGrace.window_le hSet with ⟨score, hGet', hScore⟩
  have hRecognition := hScore.recognition.trans (Recorded.addReport_recognized hRecognized
      (reportOf chain w r.recognition attended))
  rw [← isDue_reportOf_iff hRecognized chain w attended]
  refine ⟨score, hGet', ?_, ?_⟩
  · rw [hRecognition]
    split_ifs with hDue
    · exact iff_of_true rfl hDue
    · exact iff_of_false (fun hEq => nomatch hEq) hDue
  · rw [hRecognition]
    split_ifs
    · exact Or.inl rfl
    · exact Or.inr rfl

/-
  An account attends two games and registers.  As no ratio is
  in force, its first absence suspends it.
-/
theorem attendance_refines_absence :
    ∃ (w w' : World sampleConfig) (score score' : Participant),
      w.score.participants.get (.account 1) = some score ∧ score.streak = .attended 2
        ∧ score.score = 3
        ∧ World.setAttendance sampleChain w (.account 1) false 2 = .ok w'
        ∧ w'.score.participants.get (.account 1) = some score'
        ∧ score'.recognition = .suspended 0 := by
  have hRun : ∃ (w₁ w₂ w₃ w₄ w₅ : World sampleConfig) (p : Participant)
          (people : PeopleState Nat Nat),
        onboardAs (T := sampleConfig) .genesis (.account 1) = .ok w₁
          ∧ w₁.score.participants.get (.account 1) = some p
          ∧ World.setAttendance sampleChain w₁ (.account 1) true 0 = .ok w₂
          ∧ World.setAttendance sampleChain w₂ (.account 1) true 1 = .ok w₃
          ∧ World.register sampleChain w₃ 1 (some (7, true)) = .ok w₄
          ∧ Unreported (T := sampleConfig) (.account 1) (.recognized 0) w₃ w₄
          ∧ World.setAttendance sampleChain w₄ (.account 1) false 2 = .ok w₅
          ∧ (p.score = 0 ∧ p.recognition = .notRecognized)
          ∧ w₁.score.absenceGraceRatio = (0, 0)
          ∧ w₂.score.absenceGraceRatio = (0, 0)
          ∧ w₄.score.absenceGraceRatio = (0, 0)
          ∧ w₄.people.suspendPersonhood sampleChain [0] = .ok people := by
    refine ⟨_, _, _, _, _, _, _, rfl, rfl, rfl, rfl, rfl, ?_, rfl, ⟨rfl, rfl⟩, rfl, rfl, rfl, rfl⟩
    intro old hGet
    obtain rfl := Option.some.inj hGet
    exact ⟨_, rfl, rfl, rfl, rfl, rfl, fun _ _ => rfl⟩
  rcases hRun with ⟨w₁, w₂, w₃, w₄, w₅, p, people, hOnboard, hGet, hFirst,
      hSecond, _, hRegistered, hThird, ⟨hScore, hRecognition⟩,
      hRatio₁, hRatio₂, hRatio₄, hSuspend⟩
  have hAttended := Attended.between
      (Attended.reported (Attended.reported (Attended.onboarded hOnboard hGet)
          (Or.inl hRatio₁) hFirst)
        (Or.inl hRatio₂) hSecond)
      hRegistered
  have hRefines := attendance_refines hAttended
  rcases hRefines.1 with ⟨score, hNow, _, hStreak, hPoints, _⟩
  rcases hRefines.2 0 sampleChain false 2 w₅ rfl
      (Or.inl hRatio₄) hThird with ⟨score', hThen, hIff, _⟩
  refine ⟨w₄, w₅, score, score', hNow, hStreak, ?_, hThird, hThen,
      hIff.mpr ⟨rfl, Or.inl (by rw [hRatio₄]), people, hSuspend⟩⟩
  rw [hPoints]
  simp [Reference.addReport, scoreOf, reportOf, hScore,
    hRecognition, Recognition.isExternallyRecognized, flagsOf,
    runLength, u8Max, maxPersonhoodThreshold]

end Individuality.Score
