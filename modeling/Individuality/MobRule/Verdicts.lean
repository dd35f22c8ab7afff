import Individuality.MobRule.Types

/-
  Whether what the remaining voters do can change a verdict
  that counts as definitive, or one that passes.

  Main declaration: `VoteTally.verdict_stands_iff`
-/

namespace Individuality.MobRule.VoteTally

/- The votes that were cast, one for each voter. -/
def cast (tally : VoteTally) : Nat :=
  tally.aye + tally.nay + tally.contempt

/- The active voters that have not cast a vote. -/
def remaining (tally : VoteTally) (activeVoters : Nat) : Nat :=
  activeVoters - tally.cast

/- However the remaining voters vote, a verdict that counts as definitive stays the same. -/
def VerdictStands (percent : Nat → Nat → Nat) (tally : VoteTally) (activeVoters : Nat) : Prop :=
  (tally.collapsed percent activeVoters).definitive = true → ∀ votes : List Judgement,
      votes.length ≤ tally.remaining activeVoters →
        ((votes.foldl count tally).collapsed percent activeVoters).verdict
          = (tally.collapsed percent activeVoters).verdict

/- No product of `is_passing` is larger than 64 bits can hold. -/
structure Unsaturated (result : VoteCountResult) (maxDuration elapsed : Nat) : Prop where
  approval : maxDuration * result.ayeWeight * 2 ≤ u64Max
  required : (maxDuration + (maxDuration - elapsed))
        * saturatingAdd u32Max result.ayeWeight result.nayWeight
      ≤ u64Max
  duration : maxDuration + (maxDuration - elapsed) ≤ u64Max

/- A vote that passes is true, and it keeps passing. -/
def PassingStands (percent : Nat → Nat → Nat) (tally : VoteTally) (activeVoters : Nat) : Prop :=
  ∀ maxDuration elapsed, Unsaturated (tally.collapsed percent activeVoters) maxDuration elapsed →
      (tally.collapsed percent activeVoters).isPassing maxDuration elapsed = true →
        (tally.collapsed percent activeVoters).verdict = .truth .true_ ∧ ∀ later, elapsed ≤ later →
            (tally.collapsed percent activeVoters).isPassing maxDuration later = true

/-
  The ayes lead, their opponents lead by no more than what remains, or neither kind of the opponents
  can overtake the other one.
-/
def Separated (tally : VoteTally) (activeVoters : Nat) : Prop :=
  tally.nay + tally.contempt < tally.aye
    ∨ tally.nay + tally.contempt - tally.aye ≤ tally.remaining activeVoters
    ∨ tally.nay + tally.remaining activeVoters ≤ tally.contempt
    ∨ tally.contempt + tally.remaining activeVoters < tally.nay

instance (tally : VoteTally) (activeVoters : Nat) :
    Decidable (tally.Separated activeVoters) := by
  unfold Separated
  infer_instance

/- More than half of what 32 bits can hold does not lose. -/
def Narrow (tally : VoteTally) : Prop :=
  tally.nay + tally.contempt < tally.aye ∨ 2 * tally.aye ≤ u32Max

variable {percent : Nat → Nat → Nat} {tally : VoteTally} {activeVoters : Nat}
variable {result : VoteCountResult} {elapsed maxDuration : Nat}

--
-- Counting
--

theorem count_true (hFits : tally.aye + 1 ≤ u32Max) :
    tally.count (.truth .true_) = { tally with aye := tally.aye + 1 } := by
  unfold count
  dsimp only
  rw [saturatingAdd_of_le hFits]

theorem count_false (hFits : tally.nay + 1 ≤ u32Max) :
    tally.count (.truth .false_) = { tally with nay := tally.nay + 1 } := by
  unfold count
  dsimp only
  rw [saturatingAdd_of_le hFits]

theorem count_contempt (hFits : tally.contempt + 1 ≤ u32Max) :
    tally.count .contempt = { tally with contempt := tally.contempt + 1 } := by
  unfold count
  dsimp only
  rw [saturatingAdd_of_le hFits]

/- Votes that fit are added up by kind. -/
theorem exists_foldl_count (votes : List Judgement) (tally : VoteTally)
    (hFits : tally.cast + votes.length ≤ u32Max) :
    ∃ a n c, a + n + c = votes.length ∧ votes.foldl count tally
        = { aye := tally.aye + a
            nay := tally.nay + n
            contempt := tally.contempt + c } := by
  induction votes generalizing tally with
  | nil => exact ⟨0, 0, 0, rfl, rfl⟩
  | cons vote votes ih =>
    rw [List.length_cons] at hFits
    have hStep : ∃ a n c, a + n + c = 1 ∧ tally.count vote
              = { aye := tally.aye + a
                  nay := tally.nay + n
                  contempt := tally.contempt + c } := by
      unfold cast at hFits
      cases vote with
      | truth truth =>
        cases truth with
        | true_ =>
          exact ⟨1, 0, 0, rfl, count_true (by omega)⟩
        | false_ =>
          exact ⟨0, 1, 0, rfl, count_false (by omega)⟩
      | contempt =>
        exact ⟨0, 0, 1, rfl, count_contempt (by omega)⟩
    rcases hStep with ⟨a, n, c, hOne, hCount⟩
    have hNext : (tally.count vote).cast + votes.length ≤ u32Max := by
      rw [hCount]
      unfold cast at *
      dsimp only
      omega
    rcases ih _ hNext with ⟨a', n', c', hSum, hFold⟩
    refine ⟨a + a', n + n', c + c', ?_, ?_⟩
    · rw [List.length_cons]
      omega
    · rw [List.foldl_cons, hFold, hCount]
      simp only [Nat.add_assoc]

theorem foldl_count_false (votes : Nat) (hFits : tally.cast + votes ≤ u32Max) :
    (List.replicate votes (.truth .false_)).foldl count tally
      = { tally with nay := tally.nay + votes } := by
  induction votes generalizing tally with
  | zero => rfl
  | succ votes ih =>
    unfold cast at hFits
    rw [List.replicate_succ, List.foldl_cons]
    rw [count_false (by omega), ih]
    · simp only [Nat.add_assoc, Nat.add_comm 1]
    · unfold cast
      dsimp only
      omega

theorem foldl_count_contempt (votes : Nat) (hFits : tally.cast + votes ≤ u32Max) :
    (List.replicate votes .contempt).foldl count tally
      = { tally with contempt := tally.contempt + votes } := by
  induction votes generalizing tally with
  | zero => rfl
  | succ votes ih =>
    unfold cast at hFits
    rw [List.replicate_succ, List.foldl_cons]
    rw [count_contempt (by omega), ih]
    · simp only [Nat.add_assoc, Nat.add_comm 1]
    · unfold cast
      dsimp only
      omega

/- What counts as a verdict, among votes that fit. -/
theorem verdict_collapsed (hSome : 0 < tally.cast) (hFits : tally.cast ≤ u32Max) :
    (tally.collapsed percent activeVoters).verdict = if tally.nay + tally.contempt < tally.aye then
          .truth .true_
        else if tally.nay ≤ tally.contempt then .contempt
        else .truth .false_ := by
  unfold cast at hSome hFits
  unfold collapsed
  dsimp only
  rw [saturatingAdd_of_le (a := tally.aye) (by omega),
    saturatingAdd_of_le (by omega),
    saturatingAdd_of_le (by omega), if_neg (by omega)]
  simp only [decide_eq_true_eq]

theorem definitive_collapsed (hSome : 0 < tally.cast) (hFits : tally.cast ≤ u32Max) :
    (tally.collapsed percent activeVoters).definitive = true
      ↔ tally.remaining activeVoters = 0 ∨ tally.remaining activeVoters
          < if tally.nay + tally.contempt < tally.aye then
              tally.aye - (tally.nay + tally.contempt)
            else tally.nay + tally.contempt - tally.aye := by
  unfold remaining
  unfold cast at *
  unfold collapsed
  dsimp only
  rw [saturatingAdd_of_le (a := tally.aye) (by omega),
    saturatingAdd_of_le (by omega),
    saturatingAdd_of_le (by omega), if_neg (by omega)]
  simp only [Bool.or_eq_true, decide_eq_true_eq, gt_iff_lt]

/- Without a vote nothing is definitive. -/
theorem definitive_of_cast_eq_zero (hNone : tally.cast = 0) :
    (tally.collapsed percent activeVoters).definitive = false := by
  unfold cast at hNone
  unfold collapsed saturatingAdd
  dsimp only
  rw [if_pos (by omega)]

--
-- Definitive Verdicts
--

theorem verdictStands_of_separated (hActive : activeVoters ≤ u32Max)
    (hSeparated : tally.Separated activeVoters) :
    VerdictStands percent tally activeVoters := by
  intro hDefinitive votes hVotes
  by_cases hOver : activeVoters ≤ tally.cast
  · -- nobody remains
    have hNone : votes = [] := by
      rw [← List.length_eq_zero_iff]
      unfold remaining at hVotes
      omega
    rw [hNone]
    rfl
  · have hSome : 0 < tally.cast := by
      apply Nat.pos_of_ne_zero
      intro hZero
      rw [definitive_of_cast_eq_zero hZero] at hDefinitive
      nomatch hDefinitive
    have hFits : tally.cast + votes.length ≤ u32Max := by
      unfold remaining at hVotes
      omega
    rw [definitive_collapsed hSome (by omega)] at hDefinitive
    rcases exists_foldl_count votes tally hFits with ⟨a, n, c, hSum, hFold⟩
    rw [hFold, verdict_collapsed hSome (by omega),
      verdict_collapsed (by unfold cast at *; dsimp only; omega)
        (by unfold cast at *; dsimp only; omega)]
    unfold Separated at hSeparated
    dsimp only
    by_cases hAyes : tally.nay + tally.contempt < tally.aye
    · rw [if_pos hAyes] at hDefinitive
      rw [if_pos hAyes, if_pos (by unfold remaining at *; omega)]
    · rw [if_neg hAyes] at hDefinitive
      rw [if_neg hAyes, if_neg (by unfold remaining at *; omega)]
      by_cases hContempt : tally.nay ≤ tally.contempt
      · rw [if_pos hContempt, if_pos]
        unfold remaining at *
        omega
      · rw [if_neg hContempt, if_neg]
        unfold remaining at *
        omega

/- The voters that remain can swap the kinds of a refusal. -/
theorem separated_of_verdictStands (hActive : activeVoters ≤ u32Max)
    (hStands : VerdictStands percent tally activeVoters) :
    tally.Separated activeVoters := by
  by_contra hNot
  unfold Separated at hNot
  push Not at hNot
  rcases hNot with ⟨hFails, hLead, hNays, hContempts⟩
  have hSome : 0 < tally.cast := by
    unfold cast
    omega
  have hRoom : tally.cast + tally.remaining activeVoters ≤ u32Max := by
    unfold remaining at *
    omega
  have hDefinitive : (tally.collapsed percent activeVoters).definitive = true := by
    rw [definitive_collapsed hSome (by omega), if_neg (by omega)]
    exact Or.inr hLead
  have hAyes : ¬ tally.nay + tally.contempt < tally.aye := by
    omega
  by_cases hContempt : tally.nay ≤ tally.contempt
  · have hSame := hStands hDefinitive
        (List.replicate (tally.remaining activeVoters) (.truth .false_))
        (List.length_replicate).le
    rw [foldl_count_false _ hRoom, verdict_collapsed hSome (by omega),
      verdict_collapsed (by unfold cast at *; dsimp only; omega)
        (by unfold cast at *; dsimp only; omega),
      if_neg hAyes, if_pos hContempt] at hSame
    dsimp only at hSame
    rw [if_neg (by omega), if_neg (by omega)] at hSame
    nomatch hSame
  · have hSame := hStands hDefinitive (List.replicate (tally.remaining activeVoters) .contempt)
        (List.length_replicate).le
    rw [foldl_count_contempt _ hRoom, verdict_collapsed hSome (by omega),
      verdict_collapsed (by unfold cast at *; dsimp only; omega)
        (by unfold cast at *; dsimp only; omega),
      if_neg hAyes, if_neg hContempt] at hSame
    dsimp only at hSame
    rw [if_neg (by omega), if_pos (by omega)] at hSame
    nomatch hSame

theorem verdictStands_iff (hActive : activeVoters ≤ u32Max) :
    VerdictStands percent tally activeVoters ↔ tally.Separated activeVoters :=
  ⟨separated_of_verdictStands hActive, verdictStands_of_separated hActive⟩

--
-- Passing Verdicts
--

theorem ayeWeight_collapsed :
    (tally.collapsed percent activeVoters).ayeWeight = tally.aye := by
  unfold collapsed
  dsimp only
  split
  · rename_i hNone
    unfold saturatingAdd u32Max at hNone
    dsimp only
    omega
  · rfl

theorem nayWeight_collapsed :
    (tally.collapsed percent activeVoters).nayWeight
      = saturatingAdd u32Max tally.nay tally.contempt := by
  unfold collapsed
  dsimp only
  split
  · rename_i hNone
    unfold saturatingAdd u32Max at *
    dsimp only
    omega
  · rfl

theorem verdict_collapsed_eq_true_iff :
    (tally.collapsed percent activeVoters).verdict = .truth .true_
      ↔ saturatingAdd u32Max tally.nay tally.contempt < tally.aye := by
  unfold collapsed
  dsimp only
  split
  · rename_i hNone
    unfold saturatingAdd u32Max at *
    simp only [Judgement.truth.injEq, reduceCtorEq, false_iff, Nat.not_lt]
    omega
  · dsimp only
    by_cases hPasses : saturatingAdd u32Max tally.nay tally.contempt < tally.aye
    · rw [decide_eq_true hPasses]
      exact iff_of_true rfl hPasses
    · rw [decide_eq_false hPasses]
      refine iff_of_false ?_ hPasses
      rw [if_neg Bool.false_ne_true]
      split <;> exact fun hTrue => nomatch hTrue

/- The inequality of `is_passing`, where nothing saturates. -/
theorem isPassing_iff (hUnsaturated : Unsaturated result maxDuration elapsed) :
    result.isPassing maxDuration elapsed = true ↔ (maxDuration + (maxDuration - elapsed))
          * saturatingAdd u32Max result.ayeWeight result.nayWeight
        < maxDuration * result.ayeWeight * 2 := by
  have hHalf : maxDuration * result.ayeWeight ≤ u64Max :=
    Nat.le_trans (Nat.le_mul_of_pos_right _ (by decide)) hUnsaturated.approval
  unfold VoteCountResult.isPassing
  dsimp only
  rw [saturatingAdd_of_le hUnsaturated.duration, saturatingMul_of_le hUnsaturated.required,
    saturatingMul_of_le hHalf,
    saturatingMul_of_le hUnsaturated.approval,
    decide_eq_true_eq]

/- Less is required later, and no product is larger. -/
theorem Unsaturated.later {later : Nat} (hUnsaturated : Unsaturated result maxDuration elapsed)
    (hLater : elapsed ≤ later) :
    Unsaturated result maxDuration later where
  approval := hUnsaturated.approval
  required := Nat.le_trans (Nat.mul_le_mul_right _ (by omega)) hUnsaturated.required
  duration := by
    have hDuration := hUnsaturated.duration
    omega

theorem isPassing_later {later : Nat} (hUnsaturated : Unsaturated result maxDuration elapsed)
    (hLater : elapsed ≤ later) (hPassing : result.isPassing maxDuration elapsed = true) :
    result.isPassing maxDuration later = true := by
  rw [isPassing_iff hUnsaturated] at hPassing
  rw [isPassing_iff (hUnsaturated.later hLater)]
  refine Nat.lt_of_le_of_lt ?_ hPassing
  exact Nat.mul_le_mul_right _ (by omega)

/- Whoever passes has more than half of the weight. -/
theorem total_lt_of_isPassing (hUnsaturated : Unsaturated result maxDuration elapsed)
    (hPassing : result.isPassing maxDuration elapsed = true) :
    saturatingAdd u32Max result.ayeWeight result.nayWeight < 2 * result.ayeWeight := by
  rw [isPassing_iff hUnsaturated] at hPassing
  have hLess : maxDuration * saturatingAdd u32Max result.ayeWeight result.nayWeight
        < maxDuration * (2 * result.ayeWeight) := by
    calc
      maxDuration * saturatingAdd u32Max result.ayeWeight result.nayWeight
          ≤ (maxDuration + (maxDuration - elapsed)) * saturatingAdd u32Max result.ayeWeight
                result.nayWeight :=
            Nat.mul_le_mul_right _ (Nat.le_add_right _ _)
      _ < maxDuration * result.ayeWeight * 2 := hPassing
      _ = maxDuration * (2 * result.ayeWeight) := by
          rw [Nat.mul_assoc, Nat.mul_comm result.ayeWeight]
  exact Nat.lt_of_mul_lt_mul_left hLess

theorem passingStands_iff (hAye : tally.aye ≤ u32Max) :
    PassingStands percent tally activeVoters ↔ tally.Narrow := by
  constructor
  · intro hStands
    by_contra hNot
    unfold Narrow at hNot
    push Not at hNot
    rcases hNot with ⟨hFails, hHalf⟩
    have hTotal : saturatingAdd u32Max tally.aye (saturatingAdd u32Max tally.nay tally.contempt)
          = u32Max := by
      unfold saturatingAdd
      omega
    have hUnsaturated : Unsaturated (tally.collapsed percent activeVoters) 1 1 := by
      refine ⟨?_, ?_, by decide⟩
      · rw [ayeWeight_collapsed]
        unfold u32Max u64Max at *
        omega
      · rw [ayeWeight_collapsed, nayWeight_collapsed, hTotal]
        decide
    have hPassing : (tally.collapsed percent activeVoters).isPassing 1 1 = true := by
      rw [isPassing_iff hUnsaturated, ayeWeight_collapsed, nayWeight_collapsed, hTotal]
      omega
    have hTrue := (hStands 1 1 hUnsaturated hPassing).1
    rw [verdict_collapsed_eq_true_iff] at hTrue
    unfold saturatingAdd at hTrue
    omega
  · intro hNarrow maxDuration elapsed hUnsaturated hPassing
    have hTotal := total_lt_of_isPassing hUnsaturated hPassing
    rw [ayeWeight_collapsed, nayWeight_collapsed] at hTotal
    refine ⟨?_, fun later hLater => isPassing_later hUnsaturated hLater hPassing⟩
    rw [verdict_collapsed_eq_true_iff]
    unfold Narrow at hNarrow
    unfold saturatingAdd at *
    omega

--
-- Verdicts That Stand
--

/-
  Definitive verdicts and passing votes stand, exactly if the remaining voters cannot swap the kinds
  of a refusal, and the ayes are not half of what 32 bits can hold and yet lose.
-/
theorem verdict_stands_iff (percent : Nat → Nat → Nat) (tally : VoteTally) (activeVoters : Nat)
    (hAye : tally.aye ≤ u32Max) (hActive : activeVoters ≤ u32Max) :
    VerdictStands percent tally activeVoters ∧ PassingStands percent tally activeVoters
      ↔ tally.Separated activeVoters ∧ tally.Narrow := by
  rw [verdictStands_iff hActive, passingStands_iff hAye]

/- Ten voters remain, and the ayes lead by twelve. -/
theorem verdict_stands_sample : VerdictStands (fun _ _ => 50)
        { aye := 15, nay := 2, contempt := 1 } 28
      ∧ PassingStands (fun _ _ => 50) { aye := 15, nay := 2, contempt := 1 } 28 :=
  (verdict_stands_iff (fun _ _ => 50)
    { aye := 15, nay := 2, contempt := 1 } 28 (by decide)
    (by decide)).mpr
    ⟨by decide, Or.inl (by decide)⟩

/- Five votes against a contemptuous case make it false. -/
theorem verdict_flipped : ¬ VerdictStands (fun _ _ => 80)
        { aye := 0, nay := 10, contempt := 10 } 25 := by
  intro hStands
  have hSame := hStands (by decide) (List.replicate 5 (.truth .false_)) (by decide)
  exact absurd hSame (by decide)

end Individuality.MobRule.VoteTally
