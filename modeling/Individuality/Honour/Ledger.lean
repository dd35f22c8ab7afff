import Individuality.Honour.Pallet

/-
  What holds of the honour pallet in every reachable state: the votes are the subject aliases of the
  points, and the tally of a subject is the default score plus the scores of the points directed to
  it.

  Main declaration: `HonourState.scoreSum`
-/

namespace Individuality.Honour

open StorageMap (containsKey_iff get_insert get_remove sum_remove)

variable {T : Config} {s s' : HonourState} {p : PointAlias} {info : PointInfo} {now : Nat}
variable {vote : VoteData} {aliases : VoteAliases}

namespace HonourState

--
-- The Points Directed to a Subject
--

/- One for a point that scores `direction` for the subject. -/
def pointWeight (subject : SubjectId) (direction : Direction) (_ : PointAlias)
    (info : PointInfo) : Nat :=
  if info.subject = subject ∧ info.direction = direction
  then 1 else 0

/- The scores of the points directed to a subject, added up. -/
def scoreSum (s : HonourState) (subject : SubjectId) : Int :=
  (s.points.entries.map fun e =>
    if e.2.subject = subject then e.2.direction.score
    else 0).sum

private theorem scoreSum_entries (entries : List (Sigma fun _ : PointAlias => PointInfo))
    (subject : SubjectId) :
    (entries.map fun e =>
        if e.2.subject = subject then e.2.direction.score
        else 0).sum
      = ((entries.map fun e => pointWeight subject .honourable e.1 e.2).sum : Int)
          - ((entries.map fun e =>
            pointWeight subject .dishonourable e.1 e.2).sum : Nat) := by
  induction entries with
  | nil => rfl
  | cons e entries ih =>
    simp only [List.map_cons, List.sum_cons, ih]
    rcases e with ⟨p, ⟨subject', a, direction, t⟩⟩
    unfold pointWeight
    by_cases hSubject : subject' = subject
    · cases direction with
      | honourable =>
        simp [hSubject, Direction.score]
        omega
      | dishonourable =>
        simp [hSubject, Direction.score]
        omega
    · simp [hSubject]

/- The points for a subject less the points against it. -/
theorem scoreSum_eq (s : HonourState) (subject : SubjectId) :
    s.scoreSum subject = (s.points.sum (pointWeight subject .honourable) : Int)
        - (s.points.sum (pointWeight subject .dishonourable) : Nat) := by
  unfold scoreSum StorageMap.sum
  rw [scoreSum_entries]

/- Points of one entry, for and against. -/
theorem weightAt_sub (subject : SubjectId) (p : PointAlias) (info : PointInfo) :
    (pointWeight subject .honourable p info : Int)
        - (pointWeight subject .dishonourable p info : Nat)
      = if info.subject = subject then info.direction.score else 0 := by
  unfold pointWeight
  by_cases hSubject : info.subject = subject
  · cases hDirection : info.direction <;>
      simp [hSubject, Direction.score]
  · simp [hSubject]

/- A point that is taken away no longer counts. -/
theorem scoreSum_remove (hGet : s.points.get p = some info)
    (hPoints : s'.points = s.points.remove p) (subject : SubjectId) :
    s'.scoreSum subject = s.scoreSum subject - if info.subject = subject then info.direction.score
        else 0 := by
  have hFor := sum_remove s.points (pointWeight subject .honourable) p
  have hAgainst := sum_remove s.points (pointWeight subject .dishonourable) p
  rw [hGet, StorageMap.weightAt_some] at hFor hAgainst
  rw [scoreSum_eq, scoreSum_eq, hPoints, ← weightAt_sub subject p info]
  omega

/- A new point counts for its subject. -/
theorem scoreSum_insert (hGet : s.points.get p = none)
    (hPoints : s'.points = s.points.insert p info) (subject : SubjectId) :
    s'.scoreSum subject = s.scoreSum subject + if info.subject = subject then info.direction.score
        else 0 := by
  rw [scoreSum_eq, scoreSum_eq, hPoints, StorageMap.sum_insert_of_get_eq_none hGet,
    StorageMap.sum_insert_of_get_eq_none hGet,
    ← weightAt_sub subject p info]
  omega

--
-- Amending the Tally
--

@[simp] theorem amendTally_points (s : HonourState) (subject : SubjectId) (direction : Direction) :
    (s.amendTally subject direction).points = s.points := by
  unfold amendTally
  dsimp only
  split_ifs <;> rfl

@[simp] theorem amendTally_votes (s : HonourState) (subject : SubjectId) (direction : Direction) :
    (s.amendTally subject direction).votes = s.votes := by
  unfold amendTally
  dsimp only
  split_ifs <;> rfl

/- The score after an update, read back. -/
theorem read_amendTally (s : HonourState) (subject : SubjectId) (direction : Direction)
    (subject' : SubjectId) :
    (s.amendTally subject direction).read subject' =
      if subject' = subject then
        saturatingAddI32 (s.read subject) direction.score
      else s.read subject' := by
  unfold amendTally
  dsimp only
  by_cases hDefault : saturatingAddI32 (s.read subject) direction.score = subjectDefaultScore
  · rw [if_pos hDefault, hDefault]
    unfold read
    rw [StorageMap.getD_remove]
  · rw [if_neg hDefault]
    unfold read
    rw [StorageMap.getD_insert]

/- No subject is stored with the default score. -/
def NoDefaultStored (s : HonourState) : Prop :=
  ∀ subject, s.tally.get subject ≠ some subjectDefaultScore

theorem NoDefaultStored.amendTally (hStored : NoDefaultStored s) (subject : SubjectId)
    (direction : Direction) :
    NoDefaultStored (s.amendTally subject direction) := by
  intro subject'
  unfold HonourState.amendTally
  dsimp only
  split_ifs with hDefault
  · rw [get_remove]
    split_ifs
    · simp
    · exact hStored subject'
  · rw [get_insert]
    split_ifs
    · rw [ne_eq, Option.some.injEq]
      exact hDefault
    · exact hStored subject'

--
-- One Vote
--

theorem takePoint_get (s : HonourState) (p p' : PointAlias) :
    (s.takePoint p).points.get p' =
      if p' = p then none else s.points.get p' := by
  unfold takePoint
  cases hGet : s.points.get p with
  | none =>
    dsimp only
    split_ifs with hSame
    · rw [hSame, hGet]
    · rfl
  | some info =>
    dsimp only
    rw [amendTally_points, get_remove]

theorem takePoint_votes (s : HonourState) (p : PointAlias) (a : SubjectAlias) :
    (s.takePoint p).votes.containsKey a = true ↔ s.votes.containsKey a = true ∧
        ∀ info, s.points.get p = some info → a ≠ info.subjectAlias := by
  unfold takePoint
  cases hGet : s.points.get p with
  | none => simp
  | some info =>
    dsimp only
    rw [amendTally_votes, containsKey_iff, get_remove, containsKey_iff]
    by_cases hSame : a = info.subjectAlias
    · simp [hSame]
    · simp [hSame]

/-
  A vote that passes writes the vote and the point, after the point was taken from its old subject.
-/
theorem doBestow_eq_ok (hBestow : s.doBestow now vote aliases = .ok s') :
    (s.takePoint aliases.pointAlias).votes.containsKey aliases.subjectAlias = false ∧
      s' = { s.takePoint aliases.pointAlias with
        votes := (s.takePoint aliases.pointAlias).votes.insert aliases.subjectAlias ()
        points := (s.takePoint aliases.pointAlias).points.insert aliases.pointAlias
            { subject := vote.subject
              subjectAlias := aliases.subjectAlias
              direction := vote.direction
              lastUsedAt := now }
        }.amendTally vote.subject vote.direction := by
  unfold doBestow at hBestow
  simp only [Except.bind_eq_ok, ensure_eq_ok_iff, Except.pure_eq_ok] at hBestow
  rcases hBestow with ⟨_, hNew, hEq⟩
  exact ⟨hNew, hEq.symm⟩

/- The points after a vote. -/
theorem doBestow_points (hBestow : s.doBestow now vote aliases = .ok s') (p : PointAlias) :
    s'.points.get p =
      if p = aliases.pointAlias then
        some
          { subject := vote.subject
            subjectAlias := aliases.subjectAlias
            direction := vote.direction
            lastUsedAt := now }
      else s.points.get p := by
  rw [(doBestow_eq_ok hBestow).2, amendTally_points, get_insert, takePoint_get]
  split_ifs <;> rfl

/- The votes after a vote. -/
theorem doBestow_votes (hBestow : s.doBestow now vote aliases = .ok s') (a : SubjectAlias) :
    s'.votes.containsKey a = true ↔ a = aliases.subjectAlias ∨ s.votes.containsKey a = true ∧
        ∀ info, s.points.get aliases.pointAlias = some info → a ≠ info.subjectAlias := by
  rw [(doBestow_eq_ok hBestow).2, amendTally_votes, containsKey_iff, get_insert,
    ← takePoint_votes, containsKey_iff]
  by_cases hSame : a = aliases.subjectAlias
  · simp [hSame]
  · simp [hSame]

--
-- Votes and Points Agree
--

/- The votes are the subject aliases of the points, and no two points have the same one. -/
structure VotesExact (s : HonourState) : Prop where
  voted : ∀ a, s.votes.containsKey a = true ↔
      ∃ p info, s.points.get p = some info ∧ info.subjectAlias = a
  distinct : ∀ p p' info info', s.points.get p = some info →
      s.points.get p' = some info' →
        info.subjectAlias = info'.subjectAlias → p = p'

theorem votesExact_empty : VotesExact .empty where
  voted := by
    intro a
    constructor
    · intro hVoted
      simp [HonourState.empty, StorageMap.containsKey] at hVoted
    · rintro ⟨p, info, hGet, _⟩
      simp [HonourState.empty] at hGet
  distinct := by
    intro p p' info info' hGet
    simp [HonourState.empty] at hGet

/- A vote is for a subject that no other point holds. -/
theorem VotesExact.fresh (hExact : VotesExact s) (hBestow : s.doBestow now vote aliases = .ok s')
    (hOther : p ≠ aliases.pointAlias) (hGet : s.points.get p = some info) :
    info.subjectAlias ≠ aliases.subjectAlias := by
  intro hSame
  have hNew := (doBestow_eq_ok hBestow).1
  have hVoted : (s.takePoint aliases.pointAlias).votes.containsKey aliases.subjectAlias = true := by
    rw [takePoint_votes]
    refine ⟨(hExact.voted _).mpr ⟨p, info, hGet, hSame⟩, ?_⟩
    intro old hOld hAlias
    exact hOther (hExact.distinct p _ info old hGet hOld (hSame.trans hAlias))
  rw [hNew] at hVoted
  exact Bool.false_ne_true hVoted

theorem VotesExact.doBestow (hExact : VotesExact s)
    (hBestow : s.doBestow now vote aliases = .ok s') :
    VotesExact s' := by
  have hPoints := doBestow_points hBestow
  refine ⟨?_, ?_⟩
  · intro a
    rw [doBestow_votes hBestow, hExact.voted]
    constructor
    · rintro (hVote | ⟨⟨p, info, hGet, rfl⟩, hKept⟩)
      · have hPoint := hPoints aliases.pointAlias
        rw [if_pos rfl] at hPoint
        exact ⟨aliases.pointAlias, _, hPoint, hVote.symm⟩
      · refine ⟨p, info, ?_, rfl⟩
        rw [hPoints, if_neg]
        · exact hGet
        · rintro rfl
          exact hKept info hGet rfl
    · rintro ⟨p, info, hGet, rfl⟩
      rw [hPoints] at hGet
      by_cases hSame : p = aliases.pointAlias
      · rw [if_pos hSame, Option.some.injEq] at hGet
        rw [← hGet]
        exact Or.inl rfl
      · rw [if_neg hSame] at hGet
        refine Or.inr ⟨⟨p, info, hGet, rfl⟩, ?_⟩
        intro old hOld hAlias
        exact hSame (hExact.distinct p _ info old hGet hOld hAlias)
  · intro p p' info info' hGet hGet' hAlias
    rw [hPoints] at hGet hGet'
    by_cases hSame : p = aliases.pointAlias
    · by_cases hSame' : p' = aliases.pointAlias
      · rw [hSame, hSame']
      · rw [if_pos hSame, Option.some.injEq] at hGet
        rw [if_neg hSame'] at hGet'
        rw [← hGet] at hAlias
        exact absurd hAlias.symm (hExact.fresh hBestow hSame' hGet')
    · by_cases hSame' : p' = aliases.pointAlias
      · rw [if_neg hSame] at hGet
        rw [if_pos hSame', Option.some.injEq] at hGet'
        rw [← hGet'] at hAlias
        exact absurd hAlias (hExact.fresh hBestow hSame hGet)
      · rw [if_neg hSame] at hGet
        rw [if_neg hSame'] at hGet'
        exact hExact.distinct p p' info info' hGet hGet' hAlias

--
-- The Tally Counts the Points
--

/- The default score plus the scores of the subject's points. -/
def TallyExact (s : HonourState) : Prop :=
  ∀ subject, s.read subject = subjectDefaultScore + s.scoreSum subject

/- The score of the subject does not leave the `i32`. -/
def AmendFits (s : HonourState) (subject : SubjectId) (direction : Direction) : Prop :=
  i32Min ≤ s.read subject + direction.score ∧ s.read subject + direction.score ≤ i32Max

/- Neither update of the tally saturates. -/
def BestowFits (s : HonourState) (vote : VoteData) (aliases : VoteAliases) : Prop :=
  (∀ info, s.points.get aliases.pointAlias = some info →
      AmendFits s info.subject info.direction.opposite) ∧
    AmendFits (s.takePoint aliases.pointAlias) vote.subject vote.direction

theorem tallyExact_empty : TallyExact .empty := by
  intro subject
  rfl

/- A point and its score go together, when the tally of the subject does not saturate. -/
theorem TallyExact.amendTally {s₁ : HonourState} {subject : SubjectId} {direction : Direction}
    (hExact : TallyExact s) (hTally : s₁.tally = s.tally) (hFits : AmendFits s subject direction)
    (hSum : ∀ subject', s₁.scoreSum subject' = s.scoreSum subject'
        + if subject = subject' then direction.score else 0) :
    TallyExact (s₁.amendTally subject direction) := by
  have hRead : ∀ x, s₁.read x = s.read x := by
    intro x
    unfold read
    rw [hTally]
  intro subject'
  have hSum' : (s₁.amendTally subject direction).scoreSum subject' = s₁.scoreSum subject' := by
    unfold scoreSum
    rw [amendTally_points]
  rw [read_amendTally, hSum', hSum, hRead, hRead]
  have hOld := hExact subject'
  by_cases hSame : subject' = subject
  · subst hSame
    rw [if_pos rfl, if_pos rfl, saturatingAddI32_of_fits hFits.1 hFits.2, hOld]
    omega
  · rw [if_neg hSame, if_neg (Ne.symm hSame), hOld]
    omega

theorem TallyExact.takePoint (hExact : TallyExact s)
    (hFits : ∀ info, s.points.get p = some info →
        AmendFits s info.subject info.direction.opposite) :
    TallyExact (s.takePoint p) := by
  unfold HonourState.takePoint
  cases hGet : s.points.get p with
  | none => exact hExact
  | some info =>
    refine hExact.amendTally rfl (hFits info hGet) ?_
    intro subject'
    rw [scoreSum_remove hGet rfl, Direction.score_opposite]
    split_ifs <;> omega

theorem TallyExact.doBestow (hExact : TallyExact s) (hFits : BestowFits s vote aliases)
    (hBestow : s.doBestow now vote aliases = .ok s') :
    TallyExact s' := by
  have hFree : (s.takePoint aliases.pointAlias).points.get aliases.pointAlias = none := by
    rw [takePoint_get, if_pos rfl]
  rw [(doBestow_eq_ok hBestow).2]
  refine (hExact.takePoint hFits.1).amendTally rfl hFits.2 ?_
  intro subject'
  rw [scoreSum_insert hFree rfl subject']

theorem NoDefaultStored.takePoint (hStored : NoDefaultStored s) (p : PointAlias) :
    NoDefaultStored (s.takePoint p) := by
  unfold HonourState.takePoint
  cases s.points.get p with
  | none => exact hStored
  | some info =>
    apply NoDefaultStored.amendTally
    exact hStored

theorem NoDefaultStored.doBestow (hStored : NoDefaultStored s)
    (hBestow : s.doBestow now vote aliases = .ok s') :
    NoDefaultStored s' := by
  rw [(doBestow_eq_ok hBestow).2]
  apply NoDefaultStored.amendTally
  exact hStored.takePoint aliases.pointAlias

end HonourState

end Individuality.Honour
