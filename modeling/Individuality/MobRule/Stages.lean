import Individuality.MobRule.Cases

/-
  The stages a case moves through, and who removes a vote: a case never moves back, and a vote stays
  as long as it can be claimed.

  Main declaration: `MobState.cases_accounted`
-/

namespace Individuality.MobRule

open Except (bind_eq_ok ok_bind pure_eq_ok)
open StorageMap (get_insert get_insert_of_ne get_insert_self get_remove get_remove_self)

variable {T : Config}

--
-- Phases of a Case
--

inductive Phase where
  | future
  | open_
  | ripe
  | done
  | removed
  deriving DecidableEq, Repr

def MobState.phase (w : MobState T) (c : Nat) : Phase :=
  if w.caseCount ≤ c then .future
  else if w.openCases.containsKey c then .open_
  else if w.ripeCases.containsKey c then .ripe
  else if w.doneCases.containsKey c then .done
  else .removed

/-
  A case is created, ripens, is closed or decided by an intervention, and is removed when votes
  could be claimed for long enough.
-/
inductive Moves (step : Chain × Op T) (w : MobState T) (c : Nat) : Phase → Phase → Prop where
  | created {details : T.Details} (hOp : step.2 = .judgeStatement details) :
      Moves step w c .future .open_
  | ripened : Moves step w c .open_ .ripe
  | closed {maxCallbackWeight : Weight} (hOp : step.2 = .closeCase c maxCallbackWeight) :
      Moves step w c .ripe .done
  | intervened {verdict : Judgement} {maxCallbackWeight : Weight}
      (hOp : step.2 = .intervene c verdict maxCallbackWeight) :
      Moves step w c .open_ .done
  | reaped {done : DoneCase} (hOp : step.2 = .reapCase c) (hDone : w.doneCases.get c = some done)
      (hOver : step.1.now > done.since + T.votesOpenForClaimsDuration) :
      Moves step w c .done .removed

section Phases

variable {w w' : MobState T} {ever : T.Alias → Finset Nat} {chain : Chain} {c : Nat}

theorem containsKey_of_ne_none {ν : Type} {m : StorageMap Nat ν} (hSome : m.get c ≠ none) :
    m.containsKey c = true := by
  cases hKey : m.containsKey c with
  | true => rfl
  | false =>
    exact absurd (StorageMap.containsKey_eq_false_iff.mp hKey) hSome

theorem phase_open (hLt : c < w.caseCount) (hOpen : w.openCases.get c ≠ none) :
    w.phase c = .open_ := by
  unfold MobState.phase
  rw [if_neg (Nat.not_le.mpr hLt), if_pos (containsKey_of_ne_none hOpen)]

theorem phase_ripe (hLt : c < w.caseCount) (hOpen : w.openCases.get c = none)
    (hRipe : w.ripeCases.get c ≠ none) :
    w.phase c = .ripe := by
  unfold MobState.phase
  rw [if_neg (Nat.not_le.mpr hLt), StorageMap.containsKey_eq_false_iff.mpr hOpen,
    if_neg Bool.false_ne_true,
    if_pos (containsKey_of_ne_none hRipe)]

theorem phase_done (hLt : c < w.caseCount) (hOpen : w.openCases.get c = none)
    (hRipe : w.ripeCases.get c = none) (hDone : w.doneCases.get c ≠ none) :
    w.phase c = .done := by
  unfold MobState.phase
  rw [if_neg (Nat.not_le.mpr hLt), StorageMap.containsKey_eq_false_iff.mpr hOpen,
    if_neg Bool.false_ne_true,
    StorageMap.containsKey_eq_false_iff.mpr hRipe,
    if_neg Bool.false_ne_true,
    if_pos (containsKey_of_ne_none hDone)]

theorem phase_removed (hLt : c < w.caseCount) (hOpen : w.openCases.get c = none)
    (hRipe : w.ripeCases.get c = none) (hDone : w.doneCases.get c = none) :
    w.phase c = .removed := by
  unfold MobState.phase
  rw [if_neg (Nat.not_le.mpr hLt), StorageMap.containsKey_eq_false_iff.mpr hOpen,
    if_neg Bool.false_ne_true,
    StorageMap.containsKey_eq_false_iff.mpr hRipe,
    if_neg Bool.false_ne_true,
    StorageMap.containsKey_eq_false_iff.mpr hDone,
    if_neg Bool.false_ne_true]

theorem phase_congr (hCount : w'.caseCount ≤ c ↔ w.caseCount ≤ c)
    (hOpen : w'.openCases.get c = w.openCases.get c)
    (hRipe : w'.ripeCases.get c = w.ripeCases.get c)
    (hDone : w'.doneCases.get c = w.doneCases.get c) :
    w'.phase c = w.phase c := by
  unfold MobState.phase StorageMap.containsKey
  rw [hOpen, hRipe, hDone, if_congr hCount rfl rfl]

/- An open case that is put back is open or ripe. -/
theorem phase_storeCase {case_ : OpenCase T} (hLt : c < w.caseCount)
    (hOpen : w.openCases.get c ≠ none) (c' : Nat) :
    (w.storeCase chain c case_).phase c' = w.phase c' ∨ c' = c ∧ w.phase c' = .open_
        ∧ (w.storeCase chain c case_).phase c' = .ripe := by
  by_cases hEq : c' = c
  · have hBefore := phase_open hLt hOpen
    subst hEq
    unfold MobState.storeCase
    cases MobState.ripeVerdict chain case_ with
    | some verdict =>
      refine Or.inr ⟨rfl, hBefore, ?_⟩
      refine phase_ripe hLt (get_remove_self _ _) ?_
      dsimp only
      rw [get_insert_self]
      exact Option.some_ne_none _
    | none =>
      refine Or.inl (Eq.trans ?_ hBefore.symm)
      refine phase_open hLt ?_
      dsimp only
      rw [get_insert_self]
      exact Option.some_ne_none _
  · refine Or.inl ?_
    unfold MobState.storeCase
    cases MobState.ripeVerdict chain case_ with
    | some verdict =>
      refine phase_congr Iff.rfl ?_ ?_ rfl
      · dsimp only
        rw [get_remove, if_neg hEq]
      · exact get_insert_of_ne _ _ hEq
    | none =>
      refine phase_congr Iff.rfl ?_ rfl rfl
      exact get_insert_of_ne _ _ hEq

variable {step : Chain × Op T}

/- The stage of another case, and the one that changes. -/
theorem phase_cases {p q : Phase} (hBefore : w.phase c = p) (hAfter : w'.phase c = q)
    (hMoves : Moves step w c p q) (hOthers : ∀ c', c' ≠ c → w'.phase c' = w.phase c') (c' : Nat) :
    w'.phase c' = w.phase c' ∨ Moves step w c' (w.phase c') (w'.phase c') := by
  by_cases hEq : c' = c
  · right
    rw [hEq, hBefore, hAfter]
    exact hMoves
  · exact Or.inl (hOthers c' hEq)

/- One operation moves cases along their stages only. -/
theorem phase_perform (hOld : Accounted w ever) (hFits : CasesFit w step w')
    (hStep : w.perform step = .ok w') (c : Nat) :
    w'.phase c = w.phase c ∨ Moves step w c (w.phase c) (w'.phase c) := by
  rcases step with ⟨chain, op⟩
  cases op with
  | judgeStatement details =>
    cases hStep
    have hNext : saturatingAdd u32Max w.caseCount 1 = w.caseCount + 1 := saturatingAdd_of_le hFits
    refine phase_cases (c := w.caseCount) ?_ ?_ (Moves.created rfl) ?_ c
    · unfold MobState.phase
      rw [if_pos (Nat.le_refl _)]
    · refine phase_open ?_ ?_
      · change w.caseCount < saturatingAdd u32Max w.caseCount 1
        omega
      · unfold MobState.judgeStatement
        dsimp only
        rw [get_insert_self]
        exact Option.some_ne_none _
    · intro c' hNe
      refine phase_congr ?_ ?_ rfl rfl
      · change saturatingAdd u32Max w.caseCount 1 ≤ c' ↔ _
        omega
      · exact get_insert_of_ne _ _ hNe
  | vote voter caseIndex opinion =>
    unfold MobState.perform MobState.vote at hStep
    simp only [bind_eq_ok, okOr_eq_ok_iff, pure_eq_ok] at hStep
    rcases hStep with ⟨_, _, case_, hCase, hEq⟩
    have hOpen : w.openCases.get caseIndex ≠ none := by
      rw [hCase]
      exact Option.some_ne_none _
    have hLt := hOld.open_lt caseIndex hOpen
    have hStored : w'.phase c = w.phase c ∨ c = caseIndex ∧ w.phase c = .open_
            ∧ w'.phase c = .ripe := by
      rw [← hEq]
      exact phase_storeCase
          (w := { w with
            votes := w.votes.insert (caseIndex, voter) opinion
            credits := w.credits.insert voter
                (MobState.withdrawOpinion case_.tally (w.credits.getD voter {})
                  (w.votes.get (caseIndex, voter))).2 })
          hLt hOpen c
    rcases hStored with hSame | ⟨_, hBefore, hAfter⟩
    · exact Or.inl hSame
    · right
      rw [hBefore, hAfter]
      exact Moves.ripened
  | touchCase caseIndex =>
    unfold MobState.perform MobState.touchCase at hStep
    simp only [bind_eq_ok, okOr_eq_ok_iff, pure_eq_ok] at hStep
    rcases hStep with ⟨case_, hCase, rfl⟩
    have hOpen : w.openCases.get caseIndex ≠ none := by
      rw [hCase]
      exact Option.some_ne_none _
    have hLt := hOld.open_lt caseIndex hOpen
    rcases phase_storeCase hLt hOpen c with
      hSame | ⟨_, hBefore, hAfter⟩
    · exact Or.inl hSame
    · right
      rw [hBefore, hAfter]
      exact Moves.ripened
  | forceRipenCase caseIndex =>
    unfold MobState.perform MobState.forceRipenCase MobState.validateTimeoutCase at hStep
    simp only [bind_eq_ok, okOr_eq_ok_iff, pure_eq_ok] at hStep
    rcases hStep with ⟨case_, ⟨_, hCase, _⟩, rfl⟩
    have hOpen : w.openCases.get caseIndex ≠ none := by
      rw [hCase]
      exact Option.some_ne_none _
    have hLt := hOld.open_lt caseIndex hOpen
    refine phase_cases (phase_open hLt hOpen) ?_ Moves.ripened ?_ c
    · refine phase_ripe hLt (get_remove_self _ _) ?_
      dsimp only
      rw [get_insert_self]
      exact Option.some_ne_none _
    · intro c' hNe
      refine phase_congr Iff.rfl ?_ ?_ rfl
      · dsimp only
        rw [get_remove, if_neg hNe]
      · exact get_insert_of_ne _ _ hNe
  | closeCase caseIndex maxCallbackWeight =>
    unfold MobState.perform MobState.closeCase at hStep
    simp only [bind_eq_ok, okOr_eq_ok_iff, pure_eq_ok] at hStep
    rcases hStep with ⟨case_, hCase, _, _, rfl⟩
    have hRipe : w.ripeCases.get caseIndex ≠ none := by
      rw [hCase]
      exact Option.some_ne_none _
    have hLt := hOld.ripe_lt caseIndex hRipe
    have hNotOpen : w.openCases.get caseIndex = none := by
      by_contra hOpen
      exact hRipe (hOld.open_only caseIndex hOpen).1
    refine phase_cases (phase_ripe hLt hNotOpen hRipe) ?_ (Moves.closed rfl) ?_ c
    · refine phase_done hLt hNotOpen (get_remove_self _ _) ?_
      dsimp only
      rw [get_insert_self]
      exact Option.some_ne_none _
    · intro c' hNe
      refine phase_congr Iff.rfl rfl ?_ ?_
      · dsimp only
        rw [get_remove, if_neg hNe]
      · exact get_insert_of_ne _ _ hNe
  | intervene caseIndex verdict maxCallbackWeight =>
    unfold MobState.perform MobState.intervene at hStep
    simp only [bind_eq_ok, okOr_eq_ok_iff, pure_eq_ok] at hStep
    rcases hStep with ⟨case_, hCase, _, _, rfl⟩
    have hOpen : w.openCases.get caseIndex ≠ none := by
      rw [hCase]
      exact Option.some_ne_none _
    have hLt := hOld.open_lt caseIndex hOpen
    refine phase_cases (phase_open hLt hOpen) ?_ (Moves.intervened rfl) ?_ c
    · refine phase_done hLt (get_remove_self _ _) (hOld.open_only caseIndex hOpen).1 ?_
      dsimp only
      rw [get_insert_self]
      exact Option.some_ne_none _
    · intro c' hNe
      refine phase_congr Iff.rfl ?_ rfl ?_
      · dsimp only
        rw [get_remove, if_neg hNe]
      · exact get_insert_of_ne _ _ hNe
  | reapCase caseIndex =>
    unfold MobState.perform MobState.reapCase at hStep
    simp only [bind_eq_ok, okOr_eq_ok_iff, ensure_eq_ok_iff, exists_const, pure_eq_ok]
      at hStep
    rcases hStep with ⟨done, hGet, hOver, rfl⟩
    have hDone : w.doneCases.get caseIndex ≠ none := by
      rw [hGet]
      exact Option.some_ne_none _
    have hLt := hOld.done_lt caseIndex hDone
    have hNotOpen := hOld.not_open caseIndex hDone
    have hNotRipe : w.ripeCases.get caseIndex = none := by
      by_contra hRipe
      exact hDone (hOld.ripe_only caseIndex hRipe)
    have hLater : chain.now > done.since + T.votesOpenForClaimsDuration := by
      have hNow := chain.now_le
      have hDurations := T.claims_le
      unfold saturatingAdd at hOver
      omega
    refine phase_cases (phase_done hLt hNotOpen hNotRipe hDone) ?_
        (Moves.reaped rfl hGet hLater) ?_ c
    · exact phase_removed hLt hNotOpen hNotRipe (get_remove_self _ _)
    · intro c' hNe
      refine phase_congr Iff.rfl rfl rfl ?_
      dsimp only
      rw [get_remove, if_neg hNe]
  | claimVotes voter caseIndices =>
    unfold MobState.perform MobState.doClaimVotes at hStep
    simp only [bind_eq_ok, pure_eq_ok] at hStep
    rcases hStep with ⟨_, _, claimed, hFold, rfl⟩
    have hRemoved : Removed w claimed.1 voter caseIndices.length :=
      Removed.foldlM_claimOne hOld.not_open hFold
    refine Or.inl (phase_congr ?_ ?_ ?_ ?_)
    · dsimp only
      rw [hRemoved.count]
    · dsimp only
      rw [hRemoved.stage_open]
    · dsimp only
      rw [hRemoved.stage_ripe]
    · dsimp only
      rw [hRemoved.stage_done]
  | cleanVote caseIndex voter =>
    rcases cleanVoteInner_spec hStep with ⟨_, w₁, credit, _, hRemoved, _, rfl, _⟩
    refine Or.inl (phase_congr ?_ ?_ ?_ ?_)
    · dsimp only
      rw [hRemoved.count]
    · dsimp only
      rw [hRemoved.stage_open]
    · dsimp only
      rw [hRemoved.stage_ripe]
    · dsimp only
      rw [hRemoved.stage_done]
  | clearVotingPenalty | fund | payoutRewards
    | startPayoutRound | schedulePayoutRounds
    | removePayoutSchedule | claimCredit | cleanPoints
    | onPoll =>
      have hSame := SameVotes.perform rfl hStep
      refine Or.inl (phase_congr ?_ ?_ ?_ ?_)
      · rw [hSame.count]
      · rw [hSame.stage_open]
      · rw [hSame.stage_ripe]
      · rw [hSame.stage_done]

--
-- Who Removes a Vote
--

variable {voter : T.Alias}

theorem votes_claimOne {acc acc' : MobState T × Nat}
    (hClaim : MobState.claimOne chain voter acc c = .ok acc') :
    acc'.1.votes = acc.1.votes.remove (c, voter) ∧ acc'.1.doneCases = acc.1.doneCases
      ∧ acc.1.doneCases.get c ≠ none := by
  unfold MobState.claimOne at hClaim
  simp only [bind_eq_ok, okOr_eq_ok_iff, pure_eq_ok] at hClaim
  rcases hClaim with ⟨vote, _, case_, hCase, rfl⟩
  have hDone : acc.1.doneCases.get c ≠ none := by
    rw [hCase]
    exact Option.some_ne_none _
  by_cases hAgrees : case_.verdict.agrees vote = true
  · rw [if_pos hAgrees]
    exact ⟨rfl, rfl, hDone⟩
  · rw [if_neg hAgrees]
    unfold MobState.punish
    split <;> exact ⟨rfl, rfl, hDone⟩

/- The claims of a voter take the votes on the given cases. -/
theorem votes_foldlM_claimOne {acc acc' : MobState T × Nat} {cases_ : List Nat} {k : Nat × T.Alias}
    (hFold : cases_.foldlM (MobState.claimOne chain voter) acc = .ok acc')
    (hBefore : acc.1.votes.get k ≠ none) (hAfter : acc'.1.votes.get k = none) :
    k.2 = voter ∧ k.1 ∈ cases_ ∧ acc.1.doneCases.get k.1 ≠ none := by
  induction cases_ generalizing acc with
  | nil =>
    rw [List.foldlM_nil, pure_eq_ok] at hFold
    rw [hFold] at hBefore
    exact absurd hAfter hBefore
  | cons c rest ih =>
    rw [List.foldlM_cons, bind_eq_ok] at hFold
    rcases hFold with ⟨acc₁, hFirst, hRest⟩
    rcases votes_claimOne hFirst with ⟨hVotes, hSame, hDone⟩
    by_cases hKey : k = (c, voter)
    · rw [hKey]
      exact ⟨rfl, List.mem_cons_self, hDone⟩
    · have hMiddle : acc₁.1.votes.get k ≠ none := by
        rw [hVotes, get_remove, if_neg hKey]
        exact hBefore
      rcases ih hRest hMiddle with ⟨hVoter, hMem, hDone'⟩
      rw [hSame] at hDone'
      exact ⟨hVoter, List.mem_cons_of_mem _ hMem, hDone'⟩

@[simp] theorem votes_storeCase (w : MobState T) (c : Nat) (case_ : OpenCase T) :
    (w.storeCase chain c case_).votes = w.votes := by
  unfold MobState.storeCase
  split <;> rfl

/- Votes go by a claim of the voter, or by cleaning. -/
theorem vote_removed (hStep : w.perform step = .ok w') (hBefore : w.votes.get (c, voter) ≠ none)
    (hAfter : w'.votes.get (c, voter) = none) :
    (∃ cases_, step.2 = .claimVotes voter cases_ ∧ c ∈ cases_ ∧ w.doneCases.get c ≠ none)
      ∨ step.2 = .cleanVote c voter ∧ w.openCases.get c = none ∧ w.ripeCases.get c = none
        ∧ ∀ done, w.doneCases.get c = some done → step.1.now
            > done.since + T.votesOpenForClaimsDuration := by
  rcases step with ⟨chain, op⟩
  have hKept : w'.votes ≠ w.votes := by
    intro hSame
    rw [hSame] at hAfter
    exact hBefore hAfter
  cases op with
  | judgeStatement details =>
    cases hStep
    exact absurd rfl hKept
  | vote voter' caseIndex opinion =>
    unfold MobState.perform MobState.vote at hStep
    simp only [bind_eq_ok, pure_eq_ok] at hStep
    rcases hStep with ⟨_, _, case_, _, rfl⟩
    rw [votes_storeCase] at hAfter
    dsimp only at hAfter
    rw [get_insert] at hAfter
    split_ifs at hAfter
    exact absurd hAfter hBefore
  | touchCase caseIndex =>
    unfold MobState.perform MobState.touchCase at hStep
    simp only [bind_eq_ok, pure_eq_ok] at hStep
    rcases hStep with ⟨case_, _, rfl⟩
    exact absurd (votes_storeCase _ _ _) hKept
  | forceRipenCase caseIndex =>
    unfold MobState.perform MobState.forceRipenCase at hStep
    simp only [bind_eq_ok, pure_eq_ok] at hStep
    rcases hStep with ⟨_, _, rfl⟩
    exact absurd rfl hKept
  | closeCase caseIndex maxCallbackWeight =>
    unfold MobState.perform MobState.closeCase at hStep
    simp only [bind_eq_ok, pure_eq_ok] at hStep
    rcases hStep with ⟨_, _, _, _, rfl⟩
    exact absurd rfl hKept
  | intervene caseIndex verdict maxCallbackWeight =>
    unfold MobState.perform MobState.intervene at hStep
    simp only [bind_eq_ok, pure_eq_ok] at hStep
    rcases hStep with ⟨_, _, _, _, rfl⟩
    exact absurd rfl hKept
  | reapCase caseIndex =>
    unfold MobState.perform MobState.reapCase at hStep
    simp only [bind_eq_ok, pure_eq_ok] at hStep
    rcases hStep with ⟨_, _, _, _, rfl⟩
    exact absurd rfl hKept
  | claimVotes voter' caseIndices =>
    left
    unfold MobState.perform MobState.doClaimVotes at hStep
    simp only [bind_eq_ok, pure_eq_ok] at hStep
    rcases hStep with ⟨_, _, claimed, hFold, rfl⟩
    rcases votes_foldlM_claimOne hFold hBefore hAfter with ⟨hVoter, hMem, hDone⟩
    dsimp only at hVoter
    exact ⟨caseIndices, by rw [hVoter], hMem, hDone⟩
  | cleanVote caseIndex voter' =>
    right
    rcases cleanVoteInner_spec hStep with ⟨vote, w₁, credit, hValid, _, hVotes, rfl, _⟩
    dsimp only at hAfter
    rw [hVotes, get_remove] at hAfter
    split_ifs at hAfter with hKey
    · cases hKey
      rcases validateCleanVote_spec hValid with ⟨hOpen, hRipe, hOver, _⟩
      exact ⟨rfl, hOpen, hRipe, hOver⟩
    · exact absurd hAfter hBefore
  | clearVotingPenalty | fund | payoutRewards
    | startPayoutRound | schedulePayoutRounds
    | removePayoutSchedule | claimCredit | cleanPoints
    | onPoll =>
      exact absurd (SameVotes.perform rfl hStep).votes hKept

end Phases

--
-- Runs
--

namespace MobState

theorem accounted_of_run {w : MobState T} (hRun : RunUnder perform CasesFit genesis w) :
    ∃ ever, Accounted w ever :=
  hRun.invariant (fun w => ∃ ever, Accounted w ever) (fun _ _ _ hFits hStep hOld => by
      rcases hOld with ⟨ever, hOld⟩
      exact hOld.perform hFits hStep)
    ⟨_, accounted_genesis⟩

/-
  Cases are in one stage, tallies and records count the stored votes, cases only move forward, and
  votes are removed by a claim or when they cannot be claimed any more.
-/
theorem cases_accounted {w : MobState T} (hRun : RunUnder perform CasesFit genesis w) :
    (∀ c, (w.openCases.get c ≠ none ∨ w.ripeCases.get c ≠ none ∨ w.doneCases.get c ≠ none →
          c < w.caseCount)
        ∧ (w.openCases.get c ≠ none → w.ripeCases.get c = none ∧ w.doneCases.get c = none)
        ∧ (w.ripeCases.get c ≠ none → w.doneCases.get c = none))
      ∧ (∀ c case_, w.openCases.get c = some case_ → case_.tally.aye = w.votesFor c (.truth .true_)
          ∧ case_.tally.nay = w.votesFor c (.truth .false_)
          ∧ case_.tally.contempt = w.votesFor c .contempt)
      ∧ (∀ voter, (w.credits.getD voter {}).voted
            = (w.credits.getD voter {}).cleaned + w.votesOf voter
          ∧ (w.credits.getD voter {}).correct ≤ (w.credits.getD voter {}).cleaned)
      ∧ ∀ step w', CasesFit w step w' → w.perform step = .ok w' → ∀ c,
          (w'.phase c = w.phase c ∨ Moves step w c (w.phase c) (w'.phase c))
          ∧ ∀ voter, w.votes.get (c, voter) ≠ none → w'.votes.get (c, voter) = none →
              (∃ cases_, step.2 = .claimVotes voter cases_ ∧ c ∈ cases_ ∧ w.doneCases.get c ≠ none)
                ∨ step.2 = .cleanVote c voter ∧ w.openCases.get c = none ∧ w.ripeCases.get c = none
                  ∧ ∀ done, w.doneCases.get c = some done → step.1.now
                      > done.since + T.votesOpenForClaimsDuration := by
  rcases accounted_of_run hRun with ⟨ever, hOld⟩
  refine ⟨?_, ?_, ?_, ?_⟩
  · intro c
    refine ⟨?_, hOld.open_only c, hOld.ripe_only c⟩
    rintro (h | h | h)
    · exact hOld.open_lt c h
    · exact hOld.ripe_lt c h
    · exact hOld.done_lt c h
  · intro c case_ hGet
    have hTally := hOld.tally c case_ hGet
    exact ⟨hTally (.truth .true_), hTally (.truth .false_), hTally .contempt⟩
  · intro voter
    exact ⟨hOld.voted voter, hOld.correct_le voter⟩
  · intro step w' hFits hStep c
    refine ⟨phase_perform hOld hFits hStep c, ?_⟩
    intro voter hBefore hAfter
    exact vote_removed hStep hBefore hAfter

private def casesFitHere (w : MobState sampleConfig) (step : Chain × Op sampleConfig) : Bool :=
  match step.2 with
  | .judgeStatement _ => decide (w.caseCount < u32Max)
  | .vote _ caseIndex _ =>
    decide (w.votesOn caseIndex < u32Max)
  | _ => true

private theorem casesFit_of_here (w : MobState sampleConfig) (step : Chain × Op sampleConfig)
    (w' : MobState sampleConfig) (hCheck : casesFitHere w step = true) :
    CasesFit w step w' := by
  rcases step with ⟨chain, op⟩
  cases op with
  | judgeStatement details =>
    exact of_decide_eq_true (p := _ < _) hCheck
  | vote voter caseIndex opinion =>
    exact fun _ => of_decide_eq_true (p := _ < _) hCheck
  | _ => trivial

/- Two voters disagree on one case, and one changes sides. -/
theorem cases_accounted_sample : ∃ w,
      RunUnder perform CasesFit (genesis : MobState sampleConfig) w
        ∧ ((w.openCases.get 0).map OpenCase.tally = some { aye := 0, nay := 2, contempt := 0 })
        ∧ (w.credits.getD (1 : Nat) {}).voted
          = (w.credits.getD (1 : Nat) {}).cleaned + w.votesOf (1 : Nat) := by
  have hExecute : (execute perform casesFitHere genesis [(sampleChain 0, .judgeStatement ()),
          (sampleChain 0, .vote (1 : Nat) 0 (.truth .true_)),
          (sampleChain 0, .vote (2 : Nat) 0 (.truth .false_)),
          (sampleChain 0, .vote (1 : Nat) 0 (.truth .false_))]).any
        (fun w =>
          decide ((w.openCases.get 0).map OpenCase.tally
              = some { aye := 0, nay := 2, contempt := 0 }))
        = true := by
    decide +kernel
  have hReached := exists_run_of_execute
      (fun w step w' hCheck _ => casesFit_of_here w step w' hCheck)
      hExecute
  rcases hReached with ⟨w, hRun, hTest⟩
  exact ⟨w, hRun, of_decide_eq_true hTest, ((cases_accounted hRun).2.2.1 (1 : Nat)).1⟩

/- A case that is too young does not ripen. -/
private theorem ripeVerdict_young (case_ : OpenCase sampleConfig) :
    ripeVerdict (sampleChain 0) case_ = none := by
  unfold ripeVerdict
  refine if_neg ?_
  rintro ⟨_, _, hSecs, _⟩
  have hZero : (sampleChain 0).now = 0 := rfl
  rw [hZero, Nat.zero_sub] at hSecs
  exact absurd hSecs (Nat.lt_irrefl _)

/- Any number of voters can agree on the first case. -/
private theorem run_agreeing (n : Nat) : ∃ w,
      RunUnder perform (fun _ _ _ => True) (genesis : MobState sampleConfig) w ∧ w.caseCount = 1
        ∧ w.openCases.get 0 = some
            { since := 0
              details := ()
              tally := { aye := min n u32Max, nay := 0, contempt := 0 } }
        ∧ (∀ voter : Nat, n ≤ voter → w.votes.get (0, voter) = none)
        ∧ w.votesFor 0 (.truth .true_) = n := by
  induction n with
  | zero =>
    have hJudge : perform (genesis : MobState sampleConfig) (sampleChain 0, .judgeStatement ())
          = .ok (judgeStatement (sampleChain 0) genesis ()) :=
      rfl
    exact ⟨_, RunUnder.single trivial hJudge, rfl, rfl, fun _ _ => rfl, rfl⟩
  | succ n ih =>
    rcases ih with ⟨w, hRun, hCount, hOpen, hFree, hVotes⟩
    have hNone := hFree n (Nat.le_refl n)
    have hVote : perform w (sampleChain 0, .vote n 0 (.truth .true_)) = .ok
            { w with
              votes := w.votes.insert (0, n) (.truth .true_)
              credits := w.credits.insert n { w.credits.getD n {} with
                  voted := saturatingAdd u32Max (w.credits.getD n {}).voted 1 }
              openCases := w.openCases.insert 0
                  { since := 0
                    details := ()
                    tally :=
                      { aye :=
                          saturatingAdd u32Max (min n u32Max) 1
                        nay := 0
                        contempt := 0 } } } := by
      unfold perform vote
      dsimp only
      rw [ensure_of (Or.inl (by decide)), ok_bind,
        hOpen, okOr_some, ok_bind, hNone]
      unfold storeCase
      rw [ripeVerdict_young]
      rfl
    have hSum : StorageMap.sumWhere (w.votes.insert (0, n) (.truth .true_)) (fun k => k.1 = 0)
              (fun vote =>
                if vote = .truth .true_ then 1 else 0)
            + StorageMap.weigh (fun vote =>
                  if vote = .truth .true_ then 1 else 0)
                (w.votes.get (0, n))
          = _ :=
      StorageMap.sumWhere_insert _ _ (by rfl) _
    rw [hNone, StorageMap.weigh_none] at hSum
    refine ⟨_, hRun.snoc trivial hVote, hCount, ?_, ?_, ?_⟩
    · dsimp only
      rw [get_insert_self]
      have hMin : saturatingAdd u32Max (min n u32Max) 1 = min (n + 1) u32Max := by
        unfold saturatingAdd
        omega
      rw [hMin]
    · intro voter hLe
      dsimp only
      rw [get_insert, if_neg]
      · exact hFree voter (Nat.le_of_succ_le hLe)
      · intro hKey
        have hEq : voter = n := congrArg Prod.snd hKey
        omega
    · have hOne : w.votesFor 0 (.truth .true_) + 1 = n + 1 := congrArg (· + 1) hVotes
      exact hSum.trans hOne

/- One vote more than the tally of a case can count. -/
theorem cases_accounted_fails : ∃ w,
      RunUnder perform (fun _ _ _ => True) (genesis : MobState sampleConfig) w ∧ w.caseCount = 1
        ∧ ((w.openCases.get 0).map fun case_ => case_.tally.aye) = some u32Max
        ∧ w.votesFor 0 (.truth .true_) = u32Max + 1 := by
  rcases run_agreeing (u32Max + 1) with ⟨w, hRun, hCount, hOpen, _, hVotes⟩
  refine ⟨w, hRun, hCount, ?_, hVotes⟩
  rw [hOpen]
  exact congrArg some (Nat.min_eq_right (Nat.le_succ _))

end MobState

end Individuality.MobRule
