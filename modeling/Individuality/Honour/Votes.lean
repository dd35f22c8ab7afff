import Individuality.Honour.Replay

/-
  The honour pallet over its runs: the tally is exact, the
  votes are those of the points, and no vote is replayed.

  Main declaration: `votes_hold`
-/

namespace Individuality.Honour

/-
  The tally of every subject is the default score plus the scores of its points, while no vote
  saturates it, and the default score is never stored.  The votes are the subject aliases of the
  points, and what the extension validates does not fail in that state.  When the clock runs on and
  no sum saturates, a vote that was cast fails whenever it is submitted again, and its point is not
  used again before the freeze period is over.
-/
theorem votes_hold (T : Config) (rings : T.Rings) (hAliases : AliasesDetermined T) :
    (∀ s, RunUnder Chain.perform Unsaturated (Chain.genesis rings) s → s.honour.TallyExact) ∧
    (∀ s, RunUnder Chain.perform Anything (Chain.genesis rings) s →
      s.honour.NoDefaultStored ∧ s.honour.VotesExact ∧
        ∀ tx origin, tx.auth.isSome = true → s.validate tx = .ok origin →
            ∃ s', s.dispatch origin tx.call = .ok s') ∧
    ∀ s₀ tx aliases s₁ s₂, RunUnder Chain.perform Timely (Chain.genesis rings) s₀ →
        Cast s₀ tx aliases s₁ → Timely s₀ (.submit tx) s₁ → RunUnder Chain.perform Timely s₁ s₂ →
            (∀ tx' s₃, SameVote tx tx' → s₂.applyTransaction tx' ≠ .ok s₃) ∧
            ∀ tx' aliases' s₃, Cast s₂ tx' aliases' s₃ → aliases'.pointAlias = aliases.pointAlias →
                s₀.now + T.pointFreezeDuration ≤ s₂.now := by
  refine ⟨fun s hRun => tally_of_run hRun, ?_, ?_⟩
  · intro s hRun
    rcases ledger_of_run hRun with ⟨hStored, hVotes⟩
    refine ⟨hStored, hVotes, ?_⟩
    intro tx origin hAuth hValidate
    rcases exists_voter_of_validate hAuth hValidate with ⟨aliases, rfl⟩
    exact exists_cast_of_validate hValidate
  · intro s₀ tx aliases s₁ s₂ hBefore hCast hTimely hAfter
    rcases spent_of_run hAfter hTimely.2 (spent_of_cast hCast) with ⟨hFits, hSpent⟩
    have hAll : RunUnder Chain.perform Anything (Chain.genesis rings)
          s₂ := by
      have hWhole : RunUnder Chain.perform Timely (Chain.genesis rings)
            s₂ :=
        (hBefore.snoc hTimely hCast.applied).trans hAfter
      exact hWhole.weaken fun _ _ _ _ => trivial
    refine ⟨?_, ?_⟩
    · intro tx' s₃ hSame
      exact fails_again hAliases hCast hFits hSpent (ledger_of_run hAll).2 hSame s₃
    · intro tx' aliases' s₃ hAgain hPoint
      exact hSpent.freeze hFits hAgain hPoint

--
-- A Vote Redirected
--

theorem lastByte_lt : 31 < 32 :=
  Nat.lt_add_one 31

/- The proof is the member, whose aliases end in its name. -/
def sampleConfig : Config where
  Rings := Unit
  Proof := UInt8
  Implication := Unit
  verifyMembershipMultiContext := fun _ _ member _ _ contexts _ =>
      some (contexts.map fun context =>
          { memberAlias := context.set 31 member lastByte_lt
            context := context })
  twox256 := fun bytes => Vector.ofFn fun i => bytes.reverse.getD i.val 0
  blake2_256 := fun _ => Vector.replicate 32 0
  pointFreezeDuration := 10
  callMortality := 20
  integrity_test := by decide

theorem aliasesDetermined_sampleConfig : AliasesDetermined sampleConfig := by
  intro _ _ _ _ _ _ _ _ _ _ _ _ hVerify hVerify'
  exact Option.some.inj (hVerify.symm.trans hVerify')

/- The first point of a member, for a subject. -/
def sampleVote (subject : UInt8) (callValidFrom : Nat) : Transaction sampleConfig where
  authorized := false
  call := .bestow
      { subject := Vector.replicate 32 subject
        point := 0
        direction := .honourable }
      callValidFrom
  auth := some { proof := (7 : UInt8), ringIndex := 0, revision := 0 }
  inheritedImplication := ()

def sampleAliases (subject : UInt8) : VoteAliases where
  subjectAlias := (subjectContext sampleConfig (Vector.replicate 32 subject)).set 31 7 lastByte_lt
  pointAlias := (pointContext sampleConfig 0).set 31 7 lastByte_lt

def timely (s : Chain sampleConfig) :
    Action sampleConfig → Bool
  | .advance now => s.now ≤ now && now ≤ 1000
  | _ => s.now ≤ 1000

theorem clockFits_of_le {s : Chain sampleConfig} (hNow : s.now ≤ 1000) :
    ClockFits s := by
  refine ⟨?_, ?_⟩
  · change s.now + 10 ≤ u64Max
    unfold u64Max
    omega
  · change s.now + 20 ≤ u64Max
    unfold u64Max
    omega

theorem timely_of_check (s : Chain sampleConfig) (action : Action sampleConfig)
    (s' : Chain sampleConfig) (hCheck : timely s action = true)
    (hPerform : s.perform action = .ok s') :
    Timely s action s' := by
  cases action with
  | advance now =>
    simp only [timely, Bool.and_eq_true, decide_eq_true_eq] at hCheck
    cases hPerform
    exact ⟨hCheck.1, clockFits_of_le hCheck.2⟩
  | changeRings rings =>
    cases hPerform
    exact ⟨le_rfl, clockFits_of_le (of_decide_eq_true hCheck)⟩
  | submit tx =>
    have hNow := of_decide_eq_true hCheck
    rcases cast_or_unchanged hPerform with
      rfl | ⟨aliases, hCast⟩
    · exact ⟨le_rfl, clockFits_of_le hNow⟩
    · rcases hCast.doBestow with ⟨_, _, _, _, _, _, rfl⟩
      exact ⟨le_rfl, clockFits_of_le hNow⟩

/- The point is redirected once it thaws, and thaws again. -/
def sampleRedirect : List (Action sampleConfig) :=
  [.advance 10, .submit (sampleVote 2 10), .advance 20]

/- The call is stale just as the point thaws again, with the vote no longer on its first subject. -/
theorem votes_hold_sample : ∃ s₁ s₂,
      Cast (Chain.genesis ()) (sampleVote 1 0) (sampleAliases 1) s₁ ∧
        RunUnder Chain.perform Timely s₁ s₂ ∧ s₂.now = 20 ∧
            s₂.honour.read (Vector.replicate 32 1) = -1 ∧
              s₂.honour.read (Vector.replicate 32 2) = 0 ∧
                ∀ s₃, s₂.applyTransaction (sampleVote 1 0) ≠ .ok s₃ := by
  have hFirst : ((Chain.genesis ()).applyTransaction (sampleVote 1 0)).toOption.any (fun s₁ =>
        (execute Chain.perform timely s₁ sampleRedirect).any fun s₂ =>
            s₂.now = 20 ∧ s₂.honour.read (Vector.replicate 32 1) = -1 ∧
                s₂.honour.read (Vector.replicate 32 2) = 0)
        = true := by
    decide +kernel
  have hValidate : (Chain.genesis ()).validate (sampleVote 1 0)
        = .ok (.voter (sampleAliases 1)) := by
    decide +kernel
  rcases Except.exists_ok_of_any hFirst with ⟨s₁, hApply, hRest⟩
  rcases exists_run_of_execute timely_of_check hRest with ⟨s₂, hRun, hTest⟩
  have hRead := of_decide_eq_true hTest
  have hCast : Cast (Chain.genesis ()) (sampleVote 1 0) (sampleAliases 1) s₁ := ⟨hValidate, hApply⟩
  have hTimely : Timely (Chain.genesis ()) (.submit (sampleVote 1 0))
        s₁ :=
    timely_of_check _ _ _ rfl hApply
  refine ⟨s₁, s₂, hCast, hRun, hRead.1, hRead.2.1, hRead.2.2, ?_⟩
  intro s₃
  exact ((votes_hold sampleConfig () aliasesDetermined_sampleConfig).2.2 _ _ _ _ _
        Relation.ReflTransGen.refl hCast hTimely hRun).1
      _ s₃ ⟨rfl, rfl⟩

end Individuality.Honour
