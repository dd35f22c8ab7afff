import Individuality.MobRule.Ledger
import Mathlib.Data.Finset.Card
import Mathlib.Data.Finset.Range

/-
  The votes on cases: a case is in one stage at a time, and the tally of an open case and the
  records of voters count the stored votes.

  Main declaration: `MobState.votesFor`
-/

namespace Individuality.MobRule

open Except (bind_eq_ok pure_eq_ok)
open StorageMap (getD_insert get_insert get_insert_of_ne get_remove sumWhere_insert
  sumWhere_insert_of_not sumWhere_remove sumWhere_remove_of_not weigh_none weigh_some)

variable {T : Config} {c n : Nat} {voter : T.Alias}

--
-- Counting Votes
--

namespace MobState

/- The stored votes of one kind on a case. -/
def votesFor (w : MobState T) (caseIndex : Nat) (opinion : Judgement) : Nat :=
  w.votes.sumWhere (fun k => k.1 = caseIndex) fun vote => if vote = opinion then 1 else 0

/- All stored votes on a case. -/
def votesOn (w : MobState T) (caseIndex : Nat) : Nat :=
  w.votes.sumWhere (fun k => k.1 = caseIndex) fun _ => 1

/- The stored votes of a voter. -/
def votesOf (w : MobState T) (voter : T.Alias) : Nat :=
  w.votes.sumWhere (fun k => k.2 = voter) fun _ => 1

end MobState

theorem VoteTally.of_count (tally : VoteTally) (opinion kind : Judgement) :
    (tally.count opinion).of kind =
      if opinion = kind then
        saturatingAdd u32Max (tally.of kind) 1
      else tally.of kind := by
  rcases opinion with (_ | _) | _ <;> rcases kind with (_ | _) | _ <;> rfl

theorem VoteTally.of_discount (tally : VoteTally) (opinion kind : Judgement) :
    (tally.discount opinion).of kind = tally.of kind - if opinion = kind then 1 else 0 := by
  rcases opinion with (_ | _) | _ <;> rcases kind with (_ | _) | _ <;> rfl

--
-- The Invariant
--

/-
  Every case is in one stage and has an index in use, the tallies are those of the stored votes, and
  the records of a voter count the cases that were ever voted on, which `ever` tells.
-/
structure Accounted (w : MobState T) (ever : T.Alias → Finset Nat) : Prop where
  count_le : w.caseCount ≤ u32Max
  open_lt : ∀ c, w.openCases.get c ≠ none → c < w.caseCount
  ripe_lt : ∀ c, w.ripeCases.get c ≠ none → c < w.caseCount
  done_lt : ∀ c, w.doneCases.get c ≠ none → c < w.caseCount
  open_only : ∀ c, w.openCases.get c ≠ none →
      w.ripeCases.get c = none ∧ w.doneCases.get c = none
  ripe_only : ∀ c, w.ripeCases.get c ≠ none → w.doneCases.get c = none
  on_le : ∀ c, w.votesOn c ≤ u32Max
  tally : ∀ c case_,
      w.openCases.get c = some case_ →
        ∀ kind, case_.tally.of kind = w.votesFor c kind
  voted : ∀ voter,
      (w.credits.getD voter {}).voted
        = (w.credits.getD voter {}).cleaned + w.votesOf voter
  correct_le : ∀ voter,
      (w.credits.getD voter {}).correct ≤ (w.credits.getD voter {}).cleaned
  ever_card : ∀ voter, (w.credits.getD voter {}).voted = (ever voter).card
  ever_lt : ∀ voter, ∀ c ∈ ever voter, c < w.caseCount
  ever_votes : ∀ voter c, w.votes.get (c, voter) ≠ none → c ∈ ever voter
  ever_open : ∀ voter, ∀ c ∈ ever voter,
      w.openCases.get c ≠ none → w.votes.get (c, voter) ≠ none

/- Fewer than 2^32 cases, and votes on one case. -/
def CasesFit (w : MobState T) (step : Chain × Op T) (_ : MobState T) : Prop :=
  match step.2 with
  | .judgeStatement _ => w.caseCount < u32Max
  | .vote voter caseIndex _ =>
    w.votes.get (caseIndex, voter) = none → w.votesOn caseIndex < u32Max
  | _ => True

theorem accounted_genesis :
    Accounted (MobState.genesis : MobState T) fun _ => ∅ where
  count_le := Nat.zero_le _
  open_lt := fun _ hGet => absurd rfl hGet
  ripe_lt := fun _ hGet => absurd rfl hGet
  done_lt := fun _ hGet => absurd rfl hGet
  open_only := fun _ hGet => absurd rfl hGet
  ripe_only := fun _ hGet => absurd rfl hGet
  on_le := fun _ => Nat.zero_le _
  tally := by
    intro c case_ hGet
    cases hGet
  voted := fun _ => rfl
  correct_le := fun _ => Nat.le_refl _
  ever_card := fun _ => rfl
  ever_lt := fun _ _ hMem => absurd hMem (Finset.notMem_empty _)
  ever_votes := fun _ _ hGet => absurd rfl hGet
  ever_open := fun _ _ hMem => absurd hMem (Finset.notMem_empty _)

section Invariant

variable {w w' : MobState T} {ever : T.Alias → Finset Nat} {chain : Chain}

/- Nobody has voted on more cases than there are. -/
theorem Accounted.voted_le (hOld : Accounted w ever) (voter : T.Alias) :
    (w.credits.getD voter {}).voted ≤ u32Max := by
  rw [hOld.ever_card]
  have hSub : ever voter ⊆ Finset.range w.caseCount := by
    intro c hMem
    exact Finset.mem_range.mpr (hOld.ever_lt voter c hMem)
  have hCard := Finset.card_le_card hSub
  rw [Finset.card_range] at hCard
  exact Nat.le_trans hCard hOld.count_le

/- The stages of cases change, but no votes and no records. -/
theorem Accounted.withStages (hOld : Accounted w ever) (hVotes : w'.votes = w.votes)
    (hCredits : w'.credits = w.credits) (hCount : w'.caseCount = w.caseCount)
    (hOpen : ∀ c case_, w'.openCases.get c = some case_ → w.openCases.get c = some case_)
    (hKnown : ∀ c, w'.ripeCases.get c ≠ none ∨ w'.doneCases.get c ≠ none →
        w.openCases.get c ≠ none ∨ w.ripeCases.get c ≠ none ∨ w.doneCases.get c ≠ none)
    (hOpenOnly : ∀ c, w'.openCases.get c ≠ none →
        w'.ripeCases.get c = none ∧ w'.doneCases.get c = none)
    (hRipeOnly : ∀ c, w'.ripeCases.get c ≠ none → w'.doneCases.get c = none) :
    Accounted w' ever := by
  have hOpen' : ∀ c, w'.openCases.get c ≠ none → w.openCases.get c ≠ none := by
    intro c hSome
    cases hGet : w'.openCases.get c with
    | none => exact absurd hGet hSome
    | some case_ =>
      rw [hOpen c case_ hGet]
      exact Option.some_ne_none _
  have hLt : ∀ c, w'.ripeCases.get c ≠ none ∨ w'.doneCases.get c ≠ none → c < w.caseCount := by
    intro c hSome
    rcases hKnown c hSome with h | h | h
    · exact hOld.open_lt c h
    · exact hOld.ripe_lt c h
    · exact hOld.done_lt c h
  refine ⟨?_, ?_, ?_, ?_, hOpenOnly, hRipeOnly, ?_, ?_, ?_, ?_, ?_, ?_, ?_, ?_⟩
  · rw [hCount]
    exact hOld.count_le
  · intro c hSome
    rw [hCount]
    exact hOld.open_lt c (hOpen' c hSome)
  · intro c hSome
    rw [hCount]
    exact hLt c (Or.inl hSome)
  · intro c hSome
    rw [hCount]
    exact hLt c (Or.inr hSome)
  · intro c
    unfold MobState.votesOn
    rw [hVotes]
    exact hOld.on_le c
  · intro c case_ hGet kind
    unfold MobState.votesFor
    rw [hVotes]
    exact hOld.tally c case_ (hOpen c case_ hGet) kind
  · intro voter
    unfold MobState.votesOf
    rw [hVotes, hCredits]
    exact hOld.voted voter
  · intro voter
    rw [hCredits]
    exact hOld.correct_le voter
  · intro voter
    rw [hCredits]
    exact hOld.ever_card voter
  · intro voter c hMem
    rw [hCount]
    exact hOld.ever_lt voter c hMem
  · intro voter c hGet
    rw [hVotes] at hGet
    exact hOld.ever_votes voter c hGet
  · intro voter c hMem hSome
    rw [hVotes]
    exact hOld.ever_open voter c hMem (hOpen' c hSome)

--
-- Stages
--

/- An open case becomes ripe. -/
theorem Accounted.ripen (ripe : RipeCase T) (hOld : Accounted w ever)
    (hOpen : w.openCases.get c ≠ none) :
    Accounted
      { w with
        openCases := w.openCases.remove c
        ripeCases := w.ripeCases.insert c ripe }
      ever := by
  refine hOld.withStages rfl rfl rfl ?_ ?_ ?_ ?_
  · intro c' case_ hGet
    dsimp only at hGet
    rw [get_remove] at hGet
    split_ifs at hGet
    exact hGet
  · intro c' hKnown
    dsimp only at hKnown
    rw [get_insert] at hKnown
    by_cases hEq : c' = c
    · rw [hEq]
      exact Or.inl hOpen
    · rw [if_neg hEq] at hKnown
      exact Or.inr hKnown
  · intro c' hSome
    dsimp only at hSome ⊢
    rw [get_remove] at hSome
    by_cases hEq : c' = c
    · rw [if_pos hEq] at hSome
      exact absurd rfl hSome
    · rw [if_neg hEq] at hSome
      rw [get_insert_of_ne _ _ hEq]
      exact hOld.open_only c' hSome
  · intro c' hSome
    dsimp only at hSome ⊢
    rw [get_insert] at hSome
    by_cases hEq : c' = c
    · rw [hEq]
      exact (hOld.open_only c hOpen).2
    · rw [if_neg hEq] at hSome
      exact hOld.ripe_only c' hSome

/- A case that is open or ripe becomes done. -/
theorem Accounted.finish (done : DoneCase) (hOld : Accounted w ever)
    (hKnown : w.openCases.get c ≠ none ∨ w.ripeCases.get c ≠ none) :
    Accounted
      { w with
        openCases := w.openCases.remove c
        ripeCases := w.ripeCases.remove c
        doneCases := w.doneCases.insert c done }
      ever := by
  refine hOld.withStages rfl rfl rfl ?_ ?_ ?_ ?_
  · intro c' case_ hGet
    dsimp only at hGet
    rw [get_remove] at hGet
    split_ifs at hGet
    exact hGet
  · intro c' hKnown'
    dsimp only at hKnown'
    rw [get_insert, get_remove] at hKnown'
    by_cases hEq : c' = c
    · rw [hEq]
      rcases hKnown with h | h
      · exact Or.inl h
      · exact Or.inr (Or.inl h)
    · rw [if_neg hEq, if_neg hEq] at hKnown'
      exact Or.inr hKnown'
  · intro c' hSome
    dsimp only at hSome ⊢
    rw [get_remove] at hSome
    by_cases hEq : c' = c
    · rw [if_pos hEq] at hSome
      exact absurd rfl hSome
    · rw [if_neg hEq] at hSome
      rw [get_insert_of_ne _ _ hEq, get_remove, if_neg hEq]
      exact hOld.open_only c' hSome
  · intro c' hSome
    dsimp only at hSome ⊢
    rw [get_remove] at hSome
    by_cases hEq : c' = c
    · rw [if_pos hEq] at hSome
      exact absurd rfl hSome
    · rw [if_neg hEq] at hSome
      rw [get_insert_of_ne _ _ hEq]
      exact hOld.ripe_only c' hSome

/- Only what is read of the stages matters. -/
theorem Accounted.sameStages (hOld : Accounted w ever) (hVotes : w'.votes = w.votes)
    (hCredits : w'.credits = w.credits) (hCount : w'.caseCount = w.caseCount)
    (hOpen : ∀ c, w'.openCases.get c = w.openCases.get c)
    (hRipe : ∀ c, w'.ripeCases.get c = w.ripeCases.get c)
    (hDone : ∀ c, w'.doneCases.get c = w.doneCases.get c) :
    Accounted w' ever := by
  refine hOld.withStages hVotes hCredits hCount ?_ ?_ ?_ ?_
  · intro c case_ hGet
    rw [hOpen] at hGet
    exact hGet
  · intro c hKnown
    rw [hRipe, hDone] at hKnown
    exact Or.inr hKnown
  · intro c hSome
    rw [hOpen] at hSome
    rw [hRipe, hDone]
    exact hOld.open_only c hSome
  · intro c hSome
    rw [hRipe] at hSome
    rw [hDone]
    exact hOld.ripe_only c hSome

theorem Accounted.forceRipenCase (hOld : Accounted w ever)
    (hRipen : MobState.forceRipenCase chain w c = .ok w') :
    Accounted w' ever := by
  unfold MobState.forceRipenCase MobState.validateTimeoutCase at hRipen
  simp only [bind_eq_ok, okOr_eq_ok_iff, ensure_eq_ok_iff, exists_const, pure_eq_ok]
    at hRipen
  rcases hRipen with ⟨case_, ⟨_, hGet, _, _, _, _⟩, rfl⟩
  refine hOld.ripen _ ?_
  rw [hGet]
  exact Option.some_ne_none _

variable {maxCallbackWeight : Weight}

theorem Accounted.closeCase (hOld : Accounted w ever)
    (hClose : MobState.closeCase chain w c maxCallbackWeight = .ok w') :
    Accounted w' ever := by
  unfold MobState.closeCase at hClose
  simp only [bind_eq_ok, okOr_eq_ok_iff, pure_eq_ok] at hClose
  rcases hClose with ⟨case_, hGet, _, _, rfl⟩
  have hRipe : w.ripeCases.get c ≠ none := by
    rw [hGet]
    exact Option.some_ne_none _
  have hNotOpen : w.openCases.get c = none := by
    by_contra hOpen
    exact hRipe (hOld.open_only c hOpen).1
  have hDone := hOld.finish { since := chain.now, verdict := case_.verdict } (Or.inr hRipe)
  refine hDone.sameStages rfl rfl rfl ?_ (fun _ => rfl) fun _ => rfl
  intro c'
  dsimp only
  rw [get_remove]
  by_cases hEq : c' = c
  · rw [if_pos hEq, hEq]
    exact hNotOpen
  · rw [if_neg hEq]

theorem Accounted.intervene {verdict : Judgement} (hOld : Accounted w ever)
    (hIntervene : MobState.intervene chain w c verdict maxCallbackWeight = .ok w') :
    Accounted w' ever := by
  unfold MobState.intervene at hIntervene
  simp only [bind_eq_ok, okOr_eq_ok_iff, pure_eq_ok] at hIntervene
  rcases hIntervene with ⟨case_, hGet, _, _, rfl⟩
  have hOpen : w.openCases.get c ≠ none := by
    rw [hGet]
    exact Option.some_ne_none _
  have hDone := hOld.finish { since := chain.now, verdict := verdict } (Or.inl hOpen)
  refine hDone.sameStages rfl rfl rfl (fun _ => rfl) ?_ fun _ => rfl
  intro c'
  dsimp only
  rw [get_remove]
  by_cases hEq : c' = c
  · rw [if_pos hEq, hEq]
    exact (hOld.open_only c hOpen).1
  · rw [if_neg hEq]

theorem Accounted.reapCase (hOld : Accounted w ever)
    (hReap : MobState.reapCase chain w c = .ok w') :
    Accounted w' ever := by
  unfold MobState.reapCase at hReap
  simp only [bind_eq_ok, pure_eq_ok] at hReap
  rcases hReap with ⟨_, _, _, _, rfl⟩
  have hLess : ∀ c', w.doneCases.get c' = none → (w.doneCases.remove c).get c' = none := by
    intro c' hNone
    rw [get_remove, hNone]
    exact ite_self none
  refine hOld.withStages rfl rfl rfl (fun _ _ hGet => hGet) ?_ (fun c' hSome =>
      ⟨(hOld.open_only c' hSome).1, hLess c' (hOld.open_only c' hSome).2⟩)
    fun c' hSome => hLess c' (hOld.ripe_only c' hSome)
  intro c' hKnown
  rcases hKnown with h | h
  · exact Or.inr (Or.inl h)
  · refine Or.inr (Or.inr ?_)
    intro hNone
    exact h (hLess c' hNone)

/- A new case has no votes. -/
theorem Accounted.judgeStatement {details : T.Details} (hOld : Accounted w ever)
    (hLt : w.caseCount < u32Max) :
    Accounted (MobState.judgeStatement chain w details) ever := by
  have hNext : saturatingAdd u32Max w.caseCount 1 = w.caseCount + 1 := saturatingAdd_of_le hLt
  have hNoVotes : ∀ k : Nat × T.Alias, k.1 = w.caseCount → w.votes.get k = none := by
    rintro ⟨c, voter⟩ hKey
    by_contra hSome
    have hMem := hOld.ever_votes voter c hSome
    have hLess := hOld.ever_lt voter c hMem
    dsimp only at hKey
    omega
  have hFresh : w.ripeCases.get w.caseCount = none ∧ w.doneCases.get w.caseCount = none := by
    constructor
    · by_contra hSome
      exact absurd (hOld.ripe_lt _ hSome) (Nat.lt_irrefl _)
    · by_contra hSome
      exact absurd (hOld.done_lt _ hSome) (Nat.lt_irrefl _)
  unfold MobState.judgeStatement
  rw [hNext]
  refine ⟨hLt, ?_, ?_, ?_, ?_, hOld.ripe_only, hOld.on_le, ?_,
      hOld.voted, hOld.correct_le, hOld.ever_card, ?_,
      hOld.ever_votes, ?_⟩
  · intro c hSome
    dsimp only at hSome ⊢
    rw [get_insert] at hSome
    by_cases hEq : c = w.caseCount
    · rw [hEq]
      exact Nat.lt_succ_self _
    · rw [if_neg hEq] at hSome
      exact Nat.lt_succ_of_lt (hOld.open_lt c hSome)
  · intro c hSome
    exact Nat.lt_succ_of_lt (hOld.ripe_lt c hSome)
  · intro c hSome
    exact Nat.lt_succ_of_lt (hOld.done_lt c hSome)
  · intro c hSome
    dsimp only at hSome ⊢
    rw [get_insert] at hSome
    by_cases hEq : c = w.caseCount
    · rw [hEq]
      exact hFresh
    · rw [if_neg hEq] at hSome
      exact hOld.open_only c hSome
  · intro c case_ hGet kind
    dsimp only at hGet
    rw [get_insert] at hGet
    by_cases hEq : c = w.caseCount
    · rw [if_pos hEq] at hGet
      obtain rfl := Option.some.inj hGet
      have hZero : w.votesFor c kind = 0 := by
        refine StorageMap.sumWhere_of_none _ _ ?_
        intro k hKey
        exact hNoVotes k (hKey.trans hEq)
      refine Eq.trans ?_ hZero.symm
      rcases kind with (_ | _) | _ <;> rfl
    · rw [if_neg hEq] at hGet
      exact hOld.tally c case_ hGet kind
  · intro voter c hMem
    exact Nat.lt_succ_of_lt (hOld.ever_lt voter c hMem)
  · intro voter c hMem hSome
    dsimp only at hSome
    have hLess := hOld.ever_lt voter c hMem
    rw [get_insert, if_neg (by omega)] at hSome
    exact hOld.ever_open voter c hMem hSome

--
-- Voting
--

/- A case is put back, with the tally it was taken for. -/
theorem Accounted.storeCase {case_ : OpenCase T}
    (hStored : Accounted { w with openCases := w.openCases.insert c case_ } ever) :
    Accounted (w.storeCase chain c case_) ever := by
  unfold MobState.storeCase
  cases MobState.ripeVerdict chain case_ with
  | none => exact hStored
  | some verdict =>
    have hOpen : (w.openCases.insert c case_).get c ≠ none := by
      rw [StorageMap.get_insert_self]
      exact Option.some_ne_none _
    have hRipe := hStored.ripen { details := case_.details, verdict := verdict } hOpen
    refine hRipe.sameStages rfl rfl rfl ?_ (fun _ => rfl) fun _ => rfl
    intro c'
    dsimp only
    rw [get_remove, get_remove, get_insert]
    by_cases hEq : c' = c
    · rw [if_pos hEq, if_pos hEq]
    · rw [if_neg hEq, if_neg hEq, if_neg hEq]

theorem Accounted.touchCase (hOld : Accounted w ever)
    (hTouch : MobState.touchCase chain w c = .ok w') :
    Accounted w' ever := by
  unfold MobState.touchCase at hTouch
  simp only [bind_eq_ok, okOr_eq_ok_iff, pure_eq_ok] at hTouch
  rcases hTouch with ⟨case_, hGet, rfl⟩
  apply Accounted.storeCase
  refine hOld.sameStages rfl rfl rfl ?_ (fun _ => rfl) fun _ => rfl
  intro c'
  dsimp only
  rw [get_insert]
  by_cases hEq : c' = c
  · rw [if_pos hEq, hEq, hGet]
  · rw [if_neg hEq]

theorem of_withdrawOpinion (tally : VoteTally) (credit : MobCredit) (old : Option Judgement)
    (kind : Judgement) :
    (MobState.withdrawOpinion tally credit old).1.of kind = tally.of kind - StorageMap.weigh
        (fun vote => if vote = kind then 1 else 0) old := by
  cases old with
  | none => rfl
  | some vote => exact VoteTally.of_discount tally vote kind

variable {opinion : Judgement}

/- The tally without the old vote and with the new one. -/
theorem Accounted.tally_vote {case_ : OpenCase T} (hOld : Accounted w ever)
    (hCase : w.openCases.get c = some case_)
    (hOn : StorageMap.sumWhere (w.votes.insert (c, voter) opinion) (fun k => k.1 = c) (fun _ => 1)
        ≤ u32Max)
    (kind : Judgement) :
    ((MobState.withdrawOpinion case_.tally (w.credits.getD voter {})
          (w.votes.get (c, voter))).1.count opinion).of kind
      = StorageMap.sumWhere (w.votes.insert (c, voter) opinion) (fun k => k.1 = c)
          (fun vote => if vote = kind then 1 else 0) := by
  have hSum : StorageMap.sumWhere (w.votes.insert (c, voter) opinion) (fun k => k.1 = c)
            (fun vote => if vote = kind then 1 else 0)
          + StorageMap.weigh (fun vote => if vote = kind then 1 else 0) (w.votes.get (c, voter))
        = _ :=
    sumWhere_insert _ _ (by rfl) opinion
  have hLe : StorageMap.sumWhere (w.votes.insert (c, voter) opinion) (fun k => k.1 = c)
          (fun vote => if vote = kind then 1 else 0)
        ≤ u32Max := by
    refine Nat.le_trans ?_ hOn
    refine StorageMap.sumWhere_le (fun _ hKey => hKey) ?_
    intro vote
    by_cases hEq : vote = kind
    · rw [if_pos hEq]
    · rw [if_neg hEq]
      exact Nat.zero_le _
  have hStored : StorageMap.weigh (fun vote => if vote = kind then 1 else 0)
          (w.votes.get (c, voter))
        ≤ w.votesFor c kind := by
    cases hGet : w.votes.get (c, voter) with
    | none => exact Nat.zero_le _
    | some vote =>
      exact StorageMap.le_sumWhere (p := fun k : Nat × T.Alias => k.1 = c)
          (fun vote => if vote = kind then 1 else 0) rfl hGet
  have hTally := hOld.tally c case_ hCase kind
  unfold MobState.votesFor at hStored hTally
  rw [VoteTally.of_count, of_withdrawOpinion, hTally]
  by_cases hEq : opinion = kind
  · rw [if_pos hEq] at hSum ⊢
    rw [saturatingAdd_of_le (by omega)]
    omega
  · rw [if_neg hEq] at hSum ⊢
    omega

/- The cases a voter has voted on, and one more. -/
def alsoOn (ever : T.Alias → Finset Nat) (voter : T.Alias) (c : Nat) : T.Alias → Finset Nat :=
  fun other =>
    if other = voter then insert c (ever other) else ever other

/- A first vote is recorded, and another one is exchanged. -/
theorem Accounted.record_vote (voter : T.Alias) (opinion : Judgement) (tally : VoteTally)
    (hOld : Accounted w ever) (hOpen : w.openCases.get c ≠ none) :
    (MobState.withdrawOpinion tally (w.credits.getD voter {}) (w.votes.get (c, voter))).2.voted
        = (w.credits.getD voter {}).cleaned + StorageMap.sumWhere
            (w.votes.insert (c, voter) opinion)
            (fun k => k.2 = voter) (fun _ => 1)
      ∧ (MobState.withdrawOpinion tally (w.credits.getD voter {}) (w.votes.get (c, voter))).2.voted
          = (insert c (ever voter)).card
      ∧ (MobState.withdrawOpinion tally (w.credits.getD voter {})
            (w.votes.get (c, voter))).2.cleaned
          = (w.credits.getD voter {}).cleaned
      ∧ (MobState.withdrawOpinion tally (w.credits.getD voter {})
            (w.votes.get (c, voter))).2.correct
          = (w.credits.getD voter {}).correct := by
  have hSum : StorageMap.sumWhere (w.votes.insert (c, voter) opinion)
            (fun k => k.2 = voter) (fun _ => 1)
          + StorageMap.weigh (fun _ => 1) (w.votes.get (c, voter))
        = w.votesOf voter + 1 :=
    sumWhere_insert _ _ (by rfl) opinion
  have hVoted := hOld.voted voter
  have hCard := hOld.ever_card voter
  cases hGet : w.votes.get (c, voter) with
  | none =>
    rw [hGet, weigh_none] at hSum
    have hNew : c ∉ ever voter := by
      intro hMem
      exact hOld.ever_open voter c hMem hOpen hGet
    have hInsert : (insert c (ever voter)).card = (ever voter).card + 1 :=
      Finset.card_insert_of_notMem hNew
    have hSub : insert c (ever voter) ⊆ Finset.range w.caseCount := by
      intro c' hMem
      rw [Finset.mem_range]
      rcases Finset.mem_insert.mp hMem with rfl | hMem
      · exact hOld.open_lt c' hOpen
      · exact hOld.ever_lt voter c' hMem
    have hLe := Finset.card_le_card hSub
    rw [Finset.card_range] at hLe
    have hCount := hOld.count_le
    unfold MobState.withdrawOpinion
    dsimp only
    rw [saturatingAdd_of_le (by omega)]
    refine ⟨?_, ?_, rfl, rfl⟩
    · omega
    · omega
  | some old =>
    rw [hGet, weigh_some] at hSum
    have hMem : c ∈ ever voter := by
      refine hOld.ever_votes voter c ?_
      rw [hGet]
      exact Option.some_ne_none _
    unfold MobState.withdrawOpinion
    dsimp only
    rw [Finset.insert_eq_of_mem hMem]
    refine ⟨?_, hCard, rfl, rfl⟩
    omega

theorem Accounted.vote (hOld : Accounted w ever)
    (hFits : w.votes.get (c, voter) = none → w.votesOn c < u32Max)
    (hVote : MobState.vote chain w voter c opinion = .ok w') :
    Accounted w' (alsoOn ever voter c) := by
  unfold MobState.vote at hVote
  simp only [bind_eq_ok, ensure_eq_ok_iff, okOr_eq_ok_iff, exists_const, pure_eq_ok] at hVote
  rcases hVote with ⟨_, case_, hCase, rfl⟩
  have hOpen : w.openCases.get c ≠ none := by
    rw [hCase]
    exact Option.some_ne_none _
  have hOn : StorageMap.sumWhere (w.votes.insert (c, voter) opinion) (fun k => k.1 = c) (fun _ => 1)
        ≤ u32Max := by
    have hSum : StorageMap.sumWhere (w.votes.insert (c, voter) opinion)
              (fun k => k.1 = c) (fun _ => 1)
            + StorageMap.weigh (fun _ => 1) (w.votes.get (c, voter))
          = w.votesOn c + 1 :=
      sumWhere_insert _ _ (by rfl) opinion
    have hBefore := hOld.on_le c
    cases hGet : w.votes.get (c, voter) with
    | none =>
      rw [hGet, weigh_none] at hSum
      have hLt := hFits hGet
      omega
    | some old =>
      rw [hGet, weigh_some] at hSum
      omega
  have hTally := hOld.tally_vote hCase hOn
  rcases hOld.record_vote voter opinion case_.tally hOpen with ⟨hVoted, hCard, hCleaned, hCorrect⟩
  have hKnown : ∀ c', (w.openCases.insert c
            { case_ with
              tally := (MobState.withdrawOpinion case_.tally (w.credits.getD voter {})
                  (w.votes.get (c, voter))).1.count
                  opinion }).get c'
            ≠ none →
          w.openCases.get c' ≠ none := by
    intro c' hSome
    rw [get_insert] at hSome
    by_cases hEq : c' = c
    · rw [hEq]
      exact hOpen
    · rw [if_neg hEq] at hSome
      exact hSome
  apply Accounted.storeCase
  refine ⟨hOld.count_le, fun c' hSome => hOld.open_lt c' (hKnown c' hSome),
      hOld.ripe_lt, hOld.done_lt,
      fun c' hSome => hOld.open_only c' (hKnown c' hSome),
      hOld.ripe_only, ?_, ?_, ?_, ?_, ?_, ?_, ?_, ?_⟩
  · intro c'
    by_cases hEq : c' = c
    · rw [hEq]
      exact hOn
    · refine Nat.le_trans (Nat.le_of_eq ?_) (hOld.on_le c')
      refine sumWhere_insert_of_not _ _ ?_ _
      exact fun hKey => hEq hKey.symm
  · intro c' case' hGet kind
    dsimp only at hGet
    rw [get_insert] at hGet
    by_cases hEq : c' = c
    · rw [if_pos hEq] at hGet
      obtain rfl := Option.some.inj hGet
      rw [hEq]
      exact hTally kind
    · rw [if_neg hEq] at hGet
      refine (hOld.tally c' case' hGet kind).trans ?_
      refine (sumWhere_insert_of_not _ _ ?_ _).symm
      exact fun hKey => hEq hKey.symm
  · intro other
    dsimp only
    rw [getD_insert]
    by_cases hEq : other = voter
    · rw [if_pos hEq, hEq, hCleaned]
      exact hVoted
    · rw [if_neg hEq]
      refine (hOld.voted other).trans ?_
      congr 1
      refine (sumWhere_insert_of_not _ _ ?_ _).symm
      exact fun hKey => hEq hKey.symm
  · intro other
    dsimp only
    rw [getD_insert]
    by_cases hEq : other = voter
    · rw [if_pos hEq, hCleaned, hCorrect]
      exact hOld.correct_le voter
    · rw [if_neg hEq]
      exact hOld.correct_le other
  · intro other
    unfold alsoOn
    dsimp only
    rw [getD_insert]
    by_cases hEq : other = voter
    · rw [if_pos hEq, if_pos hEq, hEq]
      exact hCard
    · rw [if_neg hEq, if_neg hEq]
      exact hOld.ever_card other
  · intro other c' hMem
    unfold alsoOn at hMem
    by_cases hEq : other = voter
    · rw [if_pos hEq] at hMem
      rcases Finset.mem_insert.mp hMem with rfl | hMem
      · exact hOld.open_lt c' hOpen
      · exact hOld.ever_lt other c' hMem
    · rw [if_neg hEq] at hMem
      exact hOld.ever_lt other c' hMem
  · intro other c' hSome
    dsimp only at hSome
    rw [get_insert] at hSome
    unfold alsoOn
    by_cases hEq : other = voter
    · rw [if_pos hEq]
      by_cases hCaseEq : c' = c
      · rw [hCaseEq]
        exact Finset.mem_insert_self _ _
      · refine Finset.mem_insert_of_mem ?_
        rw [if_neg] at hSome
        · exact hOld.ever_votes other c' hSome
        · exact fun hKey => hCaseEq (congrArg Prod.fst hKey)
    · rw [if_neg hEq]
      rw [if_neg] at hSome
      · exact hOld.ever_votes other c' hSome
      · exact fun hKey => hEq (congrArg Prod.snd hKey)
  · intro other c' hMem hSome
    dsimp only
    rw [get_insert]
    by_cases hKey : (c', other) = (c, voter)
    · rw [if_pos hKey]
      exact Option.some_ne_none _
    · rw [if_neg hKey]
      refine hOld.ever_open other c' ?_ (hKnown c' hSome)
      unfold alsoOn at hMem
      by_cases hEq : other = voter
      · rw [if_pos hEq] at hMem
        rcases Finset.mem_insert.mp hMem with hCaseEq | hMem
        · exact absurd (Prod.ext hCaseEq hEq) hKey
        · exact hMem
      · rw [if_neg hEq] at hMem
        exact hMem

--
-- Removing Votes
--

/- Votes of one voter are gone, none of them on an open case, and `n` tells how many. -/
structure Removed (w w' : MobState T) (voter : T.Alias) (n : Nat) : Prop where
  count : w'.caseCount = w.caseCount
  stage_open : w'.openCases = w.openCases
  stage_ripe : w'.ripeCases = w.ripeCases
  stage_done : w'.doneCases = w.doneCases
  credits : w'.credits = w.credits
  less : ∀ k, w'.votes.get k ≠ none → w.votes.get k ≠ none
  kept : ∀ k, w.openCases.get k.1 ≠ none → w'.votes.get k = w.votes.get k
  votesFor :
    ∀ c kind, w.openCases.get c ≠ none → w'.votesFor c kind = w.votesFor c kind
  votesOn : ∀ c, w'.votesOn c ≤ w.votesOn c
  votesOf : w'.votesOf voter + n = w.votesOf voter
  others : ∀ other, other ≠ voter → w'.votesOf other = w.votesOf other

theorem Removed.refl (w : MobState T) (voter : T.Alias) :
    Removed w w voter 0 :=
  ⟨rfl, rfl, rfl, rfl, rfl, fun _ h => h, fun _ _ => rfl,
    fun _ _ _ => rfl, fun _ => Nat.le_refl _, rfl,
    fun _ _ => rfl⟩

theorem Removed.trans {w'' : MobState T} {m : Nat} (hFirst : Removed w w' voter n)
    (hRest : Removed w' w'' voter m) :
    Removed w w'' voter (n + m) := by
  have hOpen : ∀ c, w.openCases.get c ≠ none → w'.openCases.get c ≠ none := by
    intro c hSome
    rw [hFirst.stage_open]
    exact hSome
  refine ⟨hRest.count.trans hFirst.count, hRest.stage_open.trans hFirst.stage_open,
      hRest.stage_ripe.trans hFirst.stage_ripe,
      hRest.stage_done.trans hFirst.stage_done,
      hRest.credits.trans hFirst.credits,
      fun k h => hFirst.less k (hRest.less k h), ?_, ?_, ?_, ?_,
      ?_⟩
  · intro k hSome
    exact (hRest.kept k (hOpen k.1 hSome)).trans (hFirst.kept k hSome)
  · intro c kind hSome
    exact (hRest.votesFor c kind (hOpen c hSome)).trans (hFirst.votesFor c kind hSome)
  · intro c
    exact Nat.le_trans (hRest.votesOn c) (hFirst.votesOn c)
  · have h₁ := hFirst.votesOf
    have h₂ := hRest.votesOf
    omega
  · intro other hNe
    exact (hRest.others other hNe).trans (hFirst.others other hNe)

/- One stored vote is removed, on a case that is not open. -/
theorem Removed.one (hSome : w.votes.get (c, voter) ≠ none) (hNotOpen : w.openCases.get c = none) :
    Removed w { w with votes := w.votes.remove (c, voter) } voter 1 := by
  have hNe : ∀ c', w.openCases.get c' ≠ none → ¬c = c' := by
    rintro c' hOpen rfl
    exact hOpen hNotOpen
  refine ⟨rfl, rfl, rfl, rfl, rfl, ?_, ?_, ?_, ?_, ?_, ?_⟩
  · intro k hGet hNone
    apply hGet
    dsimp only
    rw [get_remove, hNone]
    exact ite_self none
  · intro k hOpen
    dsimp only
    rw [get_remove, if_neg]
    rintro rfl
    exact hOpen hNotOpen
  · intro c' kind hOpen
    exact sumWhere_remove_of_not _ _ (hNe c' hOpen)
  · intro c'
    by_cases hEq : c = c'
    · have hSum : StorageMap.sumWhere (w.votes.remove (c, voter)) (fun k => k.1 = c') (fun _ => 1)
              + StorageMap.weigh (fun _ => 1) (w.votes.get (c, voter))
            = w.votesOn c' :=
        sumWhere_remove _ _ hEq
      exact Nat.le.intro hSum
    · refine Nat.le_of_eq ?_
      exact sumWhere_remove_of_not _ _ hEq
  · have hSum : StorageMap.sumWhere (w.votes.remove (c, voter)) (fun k => k.2 = voter) (fun _ => 1)
            + StorageMap.weigh (fun _ => 1) (w.votes.get (c, voter))
          = w.votesOf voter :=
      sumWhere_remove _ _ (by rfl)
    cases hGet : w.votes.get (c, voter) with
    | none => exact absurd hGet hSome
    | some vote =>
      rw [hGet, weigh_some] at hSum
      exact hSum
  · intro other hOther
    refine sumWhere_remove_of_not _ _ ?_
    exact fun hKey => hOther hKey.symm

/- A penalty does not matter to the votes. -/
theorem Removed.punish {other : T.Alias} (vote : Judgement) (hRemoved : Removed w w' voter n) :
    Removed w (w'.punish chain other vote) voter n := by
  unfold MobState.punish
  split
  · rcases hRemoved with ⟨h₁, h₂, h₃, h₄, h₅, h₆, h₇, h₈, h₉, h₁₀, h₁₁⟩
    exact ⟨h₁, h₂, h₃, h₄, h₅, h₆, h₇, h₈, h₉, h₁₀, h₁₁⟩
  · exact hRemoved

/- The record of the voter counts what was removed. -/
theorem Accounted.removed {w'' : MobState T} {credit : MobCredit} (hOld : Accounted w ever)
    (hRemoved : Removed w w' voter n) (hVotes : w''.votes = w'.votes)
    (hCount : w''.caseCount = w'.caseCount) (hOpen : w''.openCases = w'.openCases)
    (hRipe : w''.ripeCases = w'.ripeCases) (hDone : w''.doneCases = w'.doneCases)
    (hCredits : w''.credits = w'.credits.insert voter credit)
    (hVoted : credit.voted = (w.credits.getD voter {}).voted)
    (hCleaned : credit.cleaned = (w.credits.getD voter {}).cleaned + n)
    (hCorrect : credit.correct ≤ (w.credits.getD voter {}).correct + n) :
    Accounted w'' ever := by
  rw [hRemoved.count] at hCount
  rw [hRemoved.stage_open] at hOpen
  rw [hRemoved.stage_ripe] at hRipe
  rw [hRemoved.stage_done] at hDone
  rw [hRemoved.credits] at hCredits
  refine ⟨?_, ?_, ?_, ?_, ?_, ?_, ?_, ?_, ?_, ?_, ?_, ?_, ?_, ?_⟩
  · rw [hCount]
    exact hOld.count_le
  · rw [hOpen, hCount]
    exact hOld.open_lt
  · rw [hRipe, hCount]
    exact hOld.ripe_lt
  · rw [hDone, hCount]
    exact hOld.done_lt
  · rw [hOpen, hRipe, hDone]
    exact hOld.open_only
  · rw [hRipe, hDone]
    exact hOld.ripe_only
  · intro c
    unfold MobState.votesOn
    rw [hVotes]
    exact Nat.le_trans (hRemoved.votesOn c) (hOld.on_le c)
  · intro c case_ hGet kind
    rw [hOpen] at hGet
    have hSome : w.openCases.get c ≠ none := by
      rw [hGet]
      exact Option.some_ne_none _
    unfold MobState.votesFor
    rw [hVotes]
    exact (hOld.tally c case_ hGet kind).trans (hRemoved.votesFor c kind hSome).symm
  · intro other
    unfold MobState.votesOf
    rw [hVotes, hCredits, getD_insert]
    by_cases hEq : other = voter
    · have hBefore := hOld.voted voter
      have hAfter := hRemoved.votesOf
      unfold MobState.votesOf at hAfter hBefore
      rw [if_pos hEq, hEq, hVoted, hCleaned]
      omega
    · rw [if_neg hEq]
      refine (hOld.voted other).trans ?_
      congr 1
      exact (hRemoved.others other hEq).symm
  · intro other
    rw [hCredits, getD_insert]
    by_cases hEq : other = voter
    · have hBefore := hOld.correct_le voter
      rw [if_pos hEq, hCleaned]
      omega
    · rw [if_neg hEq]
      exact hOld.correct_le other
  · intro other
    rw [hCredits, getD_insert]
    by_cases hEq : other = voter
    · rw [if_pos hEq, hVoted, hEq]
      exact hOld.ever_card voter
    · rw [if_neg hEq]
      exact hOld.ever_card other
  · rw [hCount]
    exact hOld.ever_lt
  · intro other c hSome
    rw [hVotes] at hSome
    exact hOld.ever_votes other c (hRemoved.less _ hSome)
  · intro other c hMem hSome
    rw [hOpen] at hSome
    rw [hVotes, hRemoved.kept (c, other) hSome]
    exact hOld.ever_open other c hMem hSome

theorem Removed.claimOne {acc acc' : MobState T × Nat}
    (hDone : acc.1.doneCases.get c ≠ none → acc.1.openCases.get c = none)
    (hClaim : MobState.claimOne chain voter acc c = .ok acc') :
    Removed acc.1 acc'.1 voter 1 := by
  unfold MobState.claimOne at hClaim
  simp only [bind_eq_ok, okOr_eq_ok_iff, pure_eq_ok] at hClaim
  rcases hClaim with ⟨vote, hVote, case_, hCase, rfl⟩
  have hSome : acc.1.votes.get (c, voter) ≠ none := by
    rw [hVote]
    exact Option.some_ne_none _
  have hNotOpen : acc.1.openCases.get c = none := by
    apply hDone
    rw [hCase]
    exact Option.some_ne_none _
  have hOne := Removed.one hSome hNotOpen
  by_cases hAgrees : case_.verdict.agrees vote = true
  · rw [if_pos hAgrees]
    exact hOne
  · rw [if_neg hAgrees]
    exact hOne.punish vote

theorem Removed.foldlM_claimOne {acc acc' : MobState T × Nat} {cases_ : List Nat}
    (hDone : ∀ c, acc.1.doneCases.get c ≠ none → acc.1.openCases.get c = none)
    (hFold : cases_.foldlM (MobState.claimOne chain voter) acc = .ok acc') :
    Removed acc.1 acc'.1 voter cases_.length := by
  induction cases_ generalizing acc with
  | nil =>
    rw [List.foldlM_nil, pure_eq_ok] at hFold
    rw [← hFold]
    exact Removed.refl _ _
  | cons c rest ih =>
    rw [List.foldlM_cons, bind_eq_ok] at hFold
    rcases hFold with ⟨acc₁, hFirst, hRest⟩
    have hOne := Removed.claimOne (hDone c) hFirst
    have hDone₁ : ∀ c', acc₁.1.doneCases.get c' ≠ none → acc₁.1.openCases.get c' = none := by
      intro c' hSome
      rw [hOne.stage_done] at hSome
      rw [hOne.stage_open]
      exact hDone c' hSome
    have hBoth := hOne.trans (ih hDone₁ hRest)
    rw [List.length_cons, Nat.add_comm]
    exact hBoth

theorem Accounted.not_open (hOld : Accounted w ever) (c : Nat) (hDone : w.doneCases.get c ≠ none) :
    w.openCases.get c = none := by
  by_contra hOpen
  exact hDone (hOld.open_only c hOpen).2

theorem Accounted.doClaimVotes {cases_ : List Nat} (hOld : Accounted w ever)
    (hClaim : MobState.doClaimVotes chain w voter cases_ = .ok w') :
    Accounted w' ever := by
  unfold MobState.doClaimVotes at hClaim
  simp only [bind_eq_ok, ensure_eq_ok_iff, exists_const, pure_eq_ok] at hClaim
  rcases hClaim with ⟨_, claimed, hFold, rfl⟩
  have hRemoved : Removed w claimed.1 voter cases_.length :=
    Removed.foldlM_claimOne hOld.not_open hFold
  have hPoints : claimed.2 ≤ 0 + cases_.length := (SameLedger.foldlM_claimOne hFold).2.2
  have hVoted := hOld.voted voter
  have hBound := hOld.voted_le voter
  have hOf := hRemoved.votesOf
  refine hOld.removed hRemoved rfl rfl rfl rfl rfl rfl rfl ?_ ?_
  · exact saturatingAdd_of_le (by omega)
  · refine Nat.le_trans (saturatingAdd_le_add _ _ _) ?_
    omega

/- A vote that is cleaned was on no open or ripe case. -/
theorem validateCleanVote_spec {vote : Judgement}
    (hValid : MobState.validateCleanVote chain w c voter = .ok vote) :
    w.openCases.get c = none ∧ w.ripeCases.get c = none
      ∧ (∀ done, w.doneCases.get c = some done → chain.now
          > done.since + T.votesOpenForClaimsDuration)
      ∧ w.votes.get (c, voter) = some vote := by
  unfold MobState.validateCleanVote at hValid
  simp only [bind_eq_ok, okOr_eq_ok_iff, ensure_eq_ok_iff, exists_const,
    StorageMap.containsKey_eq_false_iff] at hValid
  rcases hValid with ⟨⟨hOpen, hRipe⟩, hOver, hVote⟩
  refine ⟨hOpen, hRipe, ?_, hVote⟩
  intro done hDone
  rw [hDone, Option.all_some, decide_eq_true_eq] at hOver
  have hNow := chain.now_le
  unfold saturatingAdd at hOver
  omega

/- Cleaning removes one vote, and counts it as cleaned. -/
theorem cleanVoteInner_spec (hClean : MobState.cleanVoteInner chain w c voter = .ok w') :
    ∃ vote w₁ credit, MobState.validateCleanVote chain w c voter = .ok vote ∧ Removed w w₁ voter 1
        ∧ w₁.votes = w.votes.remove (c, voter)
        ∧ w' = { w₁ with credits := w₁.credits.insert voter credit }
        ∧ credit.voted = (w.credits.getD voter {}).voted
        ∧ credit.cleaned = saturatingAdd u32Max (w.credits.getD voter {}).cleaned 1
        ∧ credit.correct ≤ (w.credits.getD voter {}).correct + 1 := by
  unfold MobState.cleanVoteInner at hClean
  simp only [bind_eq_ok, pure_eq_ok] at hClean
  rcases hClean with ⟨vote, hValid, rfl⟩
  rcases validateCleanVote_spec hValid with ⟨hOpen, _, _, hVote⟩
  have hSome : w.votes.get (c, voter) ≠ none := by
    rw [hVote]
    exact Option.some_ne_none _
  have hOne := Removed.one hSome hOpen
  refine ⟨vote, ?_⟩
  cases (w.doneCases.get c).map DoneCase.verdict with
  | none =>
    exact ⟨_, _, hValid, hOne, rfl, rfl, rfl, rfl, Nat.le_succ _⟩
  | some verdict =>
    dsimp only
    by_cases hAgrees : verdict.agrees vote = true
    · rw [if_pos hAgrees]
      exact ⟨_, _, hValid, hOne, rfl, rfl, rfl, rfl, saturatingAdd_le_add _ _ _⟩
    · rw [if_neg hAgrees]
      refine ⟨_, _, hValid, hOne.punish vote, ?_, rfl, rfl, rfl, Nat.le_succ _⟩
      unfold MobState.punish
      split <;> rfl

theorem Accounted.cleanVoteInner (hOld : Accounted w ever)
    (hClean : MobState.cleanVoteInner chain w c voter = .ok w') :
    Accounted w' ever := by
  rcases cleanVoteInner_spec hClean with
    ⟨_, w₁, credit, _, hOne, _, rfl, hVotedSame, hCleaned, hCorrect⟩
  have hVoted := hOld.voted voter
  have hBound := hOld.voted_le voter
  have hOf := hOne.votesOf
  rw [saturatingAdd_of_le (by omega)] at hCleaned
  exact hOld.removed hOne rfl rfl rfl rfl rfl rfl hVotedSame hCleaned hCorrect

--
-- Operations beside the Votes
--

/- Neither votes nor cases change, nor what voters cast. -/
structure SameVotes (w w' : MobState T) : Prop where
  votes : w'.votes = w.votes
  count : w'.caseCount = w.caseCount
  stage_open : w'.openCases = w.openCases
  stage_ripe : w'.ripeCases = w.ripeCases
  stage_done : w'.doneCases = w.doneCases
  records : ∀ voter,
      (w'.credits.getD voter {}).voted
          = (w.credits.getD voter {}).voted
        ∧ (w'.credits.getD voter {}).cleaned = (w.credits.getD voter {}).cleaned
        ∧ (w'.credits.getD voter {}).correct = (w.credits.getD voter {}).correct

theorem SameVotes.of_eq (hVotes : w'.votes = w.votes) (hCount : w'.caseCount = w.caseCount)
    (hOpen : w'.openCases = w.openCases) (hRipe : w'.ripeCases = w.ripeCases)
    (hDone : w'.doneCases = w.doneCases) (hCredits : w'.credits = w.credits) :
    SameVotes w w' := by
  refine ⟨hVotes, hCount, hOpen, hRipe, hDone, ?_⟩
  intro voter
  rw [hCredits]
  exact ⟨rfl, rfl, rfl⟩

/- Only the credit of one voter changes. -/
theorem SameVotes.of_credit {credit : Nat} (hVotes : w'.votes = w.votes)
    (hCount : w'.caseCount = w.caseCount) (hOpen : w'.openCases = w.openCases)
    (hRipe : w'.ripeCases = w.ripeCases) (hDone : w'.doneCases = w.doneCases)
    (hCredits : w'.credits = w.credits.insert voter
        { w.credits.getD voter {} with credit := credit }) :
    SameVotes w w' := by
  refine ⟨hVotes, hCount, hOpen, hRipe, hDone, ?_⟩
  intro other
  rw [hCredits, getD_insert]
  by_cases hEq : other = voter
  · rw [if_pos hEq, hEq]
    exact ⟨rfl, rfl, rfl⟩
  · rw [if_neg hEq]
    exact ⟨rfl, rfl, rfl⟩

/- The operations on funds, points and penalties. -/
def Op.besideVotes : Op T → Bool
  | .clearVotingPenalty _ => true
  | .fund _ => true
  | .payoutRewards _ _ _ => true
  | .startPayoutRound => true
  | .schedulePayoutRounds _ _ _ => true
  | .removePayoutSchedule _ => true
  | .claimCredit _ => true
  | .cleanPoints _ _ => true
  | .onPoll _ _ => true
  | _ => false

theorem SameVotes.perform {op : Op T} (hBeside : op.besideVotes = true)
    (hStep : w.perform (chain, op) = .ok w') :
    SameVotes w w' := by
  cases op with
  | clearVotingPenalty voter =>
    unfold MobState.perform MobState.clearVotingPenalty at hStep
    simp only [bind_eq_ok, pure_eq_ok] at hStep
    rcases hStep with ⟨_, _, _, _, rfl⟩
    exact SameVotes.of_eq rfl rfl rfl rfl rfl rfl
  | fund amount =>
    unfold MobState.perform MobState.fund at hStep
    simp only [bind_eq_ok, pure_eq_ok] at hStep
    rcases hStep with ⟨_, _, rfl⟩
    exact SameVotes.of_eq rfl rfl rfl rfl rfl rfl
  | payoutRewards voter toPot accepted =>
    unfold MobState.perform MobState.payoutRewards at hStep
    simp only [bind_eq_ok, pure_eq_ok] at hStep
    rcases hStep with ⟨_, _, _, _, _, _, rfl⟩
    exact SameVotes.of_credit rfl rfl rfl rfl rfl rfl
  | startPayoutRound =>
    unfold MobState.perform MobState.startPayoutRound at hStep
    simp only [bind_eq_ok, pure_eq_ok] at hStep
    rcases hStep with ⟨_, _, _, _, _, _, _, _, rfl⟩
    exact SameVotes.of_eq rfl rfl rfl rfl rfl rfl
  | schedulePayoutRounds amount count period =>
    unfold MobState.perform MobState.schedulePayoutRounds at hStep
    simp only [bind_eq_ok, pure_eq_ok] at hStep
    rcases hStep with ⟨_, _, _, _, rfl⟩
    exact SameVotes.of_eq rfl rfl rfl rfl rfl rfl
  | removePayoutSchedule index =>
    unfold MobState.perform MobState.removePayoutSchedule at hStep
    simp only [bind_eq_ok, pure_eq_ok] at hStep
    rcases hStep with ⟨_, _, _, _, rfl⟩
    exact SameVotes.of_eq rfl rfl rfl rfl rfl rfl
  | claimCredit voter =>
    unfold MobState.perform MobState.claimCredit at hStep
    simp only [bind_eq_ok, pure_eq_ok] at hStep
    rcases hStep with ⟨_, _, _, _, _, _, _, _, _, _, rfl⟩
    exact SameVotes.of_credit rfl rfl rfl rfl rfl rfl
  | cleanPoints round voter =>
    unfold MobState.perform MobState.cleanPoints at hStep
    simp only [bind_eq_ok, pure_eq_ok] at hStep
    rcases hStep with ⟨_, _, _, _, _, _, rfl⟩
    exact SameVotes.of_eq rfl rfl rfl rfl rfl rfl
  | onPoll baseFits changeFits =>
    cases hStep
    unfold MobState.doOnPoll
    repeat' split
    all_goals exact SameVotes.of_eq rfl rfl rfl rfl rfl rfl
  | judgeStatement | vote | touchCase | forceRipenCase
    | closeCase | intervene | reapCase | claimVotes
    | cleanVote => cases hBeside

theorem Accounted.sameVotes (hOld : Accounted w ever) (hSame : SameVotes w w') :
    Accounted w' ever := by
  rcases hSame with ⟨hVotes, hCount, hOpen, hRipe, hDone, hRecords⟩
  refine ⟨?_, ?_, ?_, ?_, ?_, ?_, ?_, ?_, ?_, ?_, ?_, ?_, ?_, ?_⟩
  · rw [hCount]
    exact hOld.count_le
  · rw [hOpen, hCount]
    exact hOld.open_lt
  · rw [hRipe, hCount]
    exact hOld.ripe_lt
  · rw [hDone, hCount]
    exact hOld.done_lt
  · rw [hOpen, hRipe, hDone]
    exact hOld.open_only
  · rw [hRipe, hDone]
    exact hOld.ripe_only
  · unfold MobState.votesOn
    rw [hVotes]
    exact hOld.on_le
  · unfold MobState.votesFor
    rw [hVotes, hOpen]
    exact hOld.tally
  · intro voter
    unfold MobState.votesOf
    rw [hVotes, (hRecords voter).1, (hRecords voter).2.1]
    exact hOld.voted voter
  · intro voter
    rw [(hRecords voter).2.1, (hRecords voter).2.2]
    exact hOld.correct_le voter
  · intro voter
    rw [(hRecords voter).1]
    exact hOld.ever_card voter
  · rw [hCount]
    exact hOld.ever_lt
  · rw [hVotes]
    exact hOld.ever_votes
  · rw [hVotes, hOpen]
    exact hOld.ever_open

/- Every operation keeps account of cases and votes. -/
theorem Accounted.perform {step : Chain × Op T} (hOld : Accounted w ever)
    (hFits : CasesFit w step w') (hStep : w.perform step = .ok w') :
    ∃ ever', Accounted w' ever' := by
  rcases step with ⟨chain, op⟩
  cases op with
  | judgeStatement details =>
    cases hStep
    exact ⟨ever, hOld.judgeStatement hFits⟩
  | vote voter caseIndex opinion =>
    exact ⟨_, hOld.vote hFits hStep⟩
  | touchCase caseIndex => exact ⟨ever, hOld.touchCase hStep⟩
  | forceRipenCase caseIndex =>
    exact ⟨ever, hOld.forceRipenCase hStep⟩
  | closeCase caseIndex maxCallbackWeight =>
    exact ⟨ever, hOld.closeCase hStep⟩
  | intervene caseIndex verdict maxCallbackWeight =>
    exact ⟨ever, hOld.intervene hStep⟩
  | reapCase caseIndex => exact ⟨ever, hOld.reapCase hStep⟩
  | claimVotes voter caseIndices =>
    exact ⟨ever, hOld.doClaimVotes hStep⟩
  | cleanVote caseIndex voter =>
    exact ⟨ever, hOld.cleanVoteInner hStep⟩
  | clearVotingPenalty | fund | payoutRewards
    | startPayoutRound | schedulePayoutRounds
    | removePayoutSchedule | claimCredit | cleanPoints
    | onPoll =>
      exact ⟨ever, hOld.sameVotes (SameVotes.perform rfl hStep)⟩

end Invariant

end Individuality.MobRule
