import Individuality.Honour.Ledger

/-
  No vote takes effect twice.  There is no nonce: a vote that was applied is kept out by the vote
  set while its point stays where it is, and by the freeze period and the mortality of the call once
  the point was redirected.

  Main declaration: `Cast`
-/

namespace Individuality.Honour

open Except (bind_eq_ok ok_bind pure_eq_ok)

variable {T : Config} {s s' : Chain T} {vote : VoteData} {aliases aliases' : VoteAliases}
variable {tx tx' : Transaction T} {t : Nat}

--
-- Casting a Vote
--

/- A transaction that takes effect, the extension having revealed these aliases. -/
structure Cast (s : Chain T) (tx : Transaction T) (aliases : VoteAliases)
    (s' : Chain T) : Prop where
  validated : s.validate tx = .ok (.voter aliases)
  applied : s.applyTransaction tx = .ok s'

/- The ring proof reveals the aliases for the vote. -/
def Reveals (s : Chain T) (vote : VoteData) (proof : T.Proof) (aliases : VoteAliases) : Prop :=
  ∃ ringIndex revision message, T.verifyMembershipMultiContext s.rings peopleIdentifier
        proof ringIndex revision (vote.getContexts T) message
      = some
          [ { memberAlias := aliases.subjectAlias
              context := subjectContext T vote.subject },
            { memberAlias := aliases.pointAlias
              context := pointContext T vote.point } ]

/-
  The aliases are fixed by the proof and its contexts: what
  verifies again, over whatever rings, reveals the same ones.
-/
def AliasesDetermined (T : Config) : Prop :=
  ∀ (rings rings' : T.Rings) (proof : T.Proof)
      ring revision message ring' revision' message' contexts
      aliases aliases',
    T.verifyMembershipMultiContext rings peopleIdentifier proof
        ring revision contexts message = some aliases →
      T.verifyMembershipMultiContext rings' peopleIdentifier proof ring' revision' contexts message'
        = some aliases' →
        aliases = aliases'

/- What the extension has checked of a vote. -/
structure Admitted (s : Chain T) (tx : Transaction T) (aliases : VoteAliases) (vote : VoteData)
    (callValidFrom : Nat) (auth : VoterAuthData T) : Prop where
  call : tx.call = .bestow vote callValidFrom
  signed : tx.auth = some auth
  begun : callValidFrom ≤ s.now
  lasting : s.now < saturatingAdd u64Max callValidFrom T.callMortality
  reveals : Reveals s vote auth.proof aliases
  thawed : s.honour.isPointFrozen T aliases.pointAlias s.now = false
  fresh : s.honour.votes.containsKey aliases.subjectAlias = false

theorem reveals_of_validateVoteProof {message : Bytes32} {auth : VoterAuthData T}
    (hProof : s.validateVoteProof vote message auth = .ok aliases) :
    Reveals s vote auth.proof aliases := by
  unfold Chain.validateVoteProof at hProof
  split at hProof
  · rename_i subject point hVerify
    simp only [bind_eq_ok, ensure_eq_ok_iff, pure_eq_ok, VoteData.getContexts, List.cons.injEq,
      and_true] at hProof
    rcases hProof with ⟨_, ⟨hSubject, hPoint⟩, rfl⟩
    refine ⟨auth.ringIndex, auth.revision, message, ?_⟩
    rw [hVerify, ← hSubject, ← hPoint]
  · nomatch hProof

/- A validated vote has passed every check. -/
theorem admitted_of_validate (hValidate : s.validate tx = .ok (.voter aliases)) :
    ∃ vote callValidFrom auth, Admitted s tx aliases vote callValidFrom auth := by
  unfold Chain.validate at hValidate
  cases hAuth : tx.auth with
  | none =>
    rw [hAuth] at hValidate
    simp only [Except.ok.injEq] at hValidate
    split_ifs at hValidate
  | some auth =>
    rw [hAuth] at hValidate
    simp only [bind_eq_ok, ensure_eq_ok_iff] at hValidate
    rcases hValidate with ⟨_, _, hChecks⟩
    cases hCall : tx.call with
    | other =>
      rw [hCall] at hChecks
      nomatch hChecks
    | bestow vote callValidFrom =>
      rw [hCall] at hChecks
      simp only [Chain.validateBestow, bind_eq_ok, ensure_eq_ok_iff, okOr_eq_ok_iff,
        pure_eq_ok, Origin.voter.injEq] at hChecks
      rcases hChecks with ⟨_, hBegun, _, hLasting, aliases', hProof, _, hThawed, _, hFresh, rfl⟩
      refine ⟨vote, callValidFrom, auth, ?_⟩
      exact
        { call := hCall
          signed := hAuth
          begun := hBegun
          lasting := hLasting
          reveals := reveals_of_validateVoteProof (by
            cases hResult : s.validateVoteProof vote
                (T.blake2_256 tx.inheritedImplication)
                auth with
            | error e =>
              rw [hResult] at hProof
              nomatch hProof
            | ok found =>
              rw [hResult] at hProof
              rw [Option.some.inj hProof])
          thawed := hThawed
          fresh := hFresh }

/- Only a vote changes the chain. -/
theorem cast_or_unchanged (hApply : s.applyTransaction tx = .ok s') :
    s' = s ∨ ∃ aliases, Cast s tx aliases s' := by
  have hApply' := hApply
  unfold Chain.applyTransaction at hApply
  simp only [bind_eq_ok] at hApply
  rcases hApply with ⟨origin, hValidate, hDispatch⟩
  cases hCall : tx.call with
  | other =>
    rw [hCall] at hDispatch
    exact Or.inl (Except.ok.inj hDispatch).symm
  | bestow vote callValidFrom =>
    cases origin with
    | voter aliases =>
      exact Or.inr ⟨aliases, ⟨hValidate, hApply'⟩⟩
    | none =>
      rw [hCall] at hDispatch
      nomatch hDispatch
    | authorized =>
      rw [hCall] at hDispatch
      nomatch hDispatch

/- What a vote does to the chain. -/
theorem Cast.doBestow (hCast : Cast s tx aliases s') :
    ∃ vote callValidFrom auth honour, Admitted s tx aliases vote callValidFrom auth ∧
        s.honour.doBestow s.now vote aliases = .ok honour ∧ s' = { s with honour := honour } := by
  rcases admitted_of_validate hCast.validated with ⟨vote, callValidFrom, auth, hAdmitted⟩
  have hApply := hCast.applied
  unfold Chain.applyTransaction at hApply
  rw [hCast.validated, ok_bind, hAdmitted.call] at hApply
  unfold Chain.dispatch at hApply
  simp only [bind_eq_ok, pure_eq_ok] at hApply
  rcases hApply with ⟨honour, hBestow, hEq⟩
  exact ⟨vote, callValidFrom, auth, honour, hAdmitted, hBestow, hEq.symm⟩

/- The extension makes a voter of every origin it checks. -/
theorem exists_voter_of_validate {origin : Origin} (hAuth : tx.auth.isSome = true)
    (hValidate : s.validate tx = .ok origin) :
    ∃ aliases, origin = .voter aliases := by
  unfold Chain.validate at hValidate
  rcases Option.isSome_iff_exists.mp hAuth with ⟨auth, hSome⟩
  rw [hSome] at hValidate
  simp only [bind_eq_ok] at hValidate
  rcases hValidate with ⟨_, _, hChecks⟩
  cases hCall : tx.call with
  | other =>
    rw [hCall] at hChecks
    cases hChecks
  | bestow vote callValidFrom =>
    rw [hCall] at hChecks
    simp only [Chain.validateBestow, bind_eq_ok, pure_eq_ok] at hChecks
    rcases hChecks with ⟨_, _, _, _, aliases, _, _, _, _, _, hOrigin⟩
    exact ⟨aliases, hOrigin.symm⟩

/-
  A vote that the extension validates passes when it is
  dispatched, for a point that is taken leaves no vote.
-/
theorem exists_cast_of_validate (hValidate : s.validate tx = .ok (.voter aliases)) :
    ∃ s', s.dispatch (.voter aliases) tx.call = .ok s' := by
  rcases admitted_of_validate hValidate with ⟨vote, callValidFrom, auth, hAdmitted⟩
  have hNew : (s.honour.takePoint aliases.pointAlias).votes.containsKey
        aliases.subjectAlias = false := by
    by_contra hVoted
    rw [Bool.not_eq_false, HonourState.takePoint_votes, hAdmitted.fresh] at hVoted
    exact Bool.false_ne_true hVoted.1
  unfold Chain.dispatch HonourState.doBestow
  simp only [hAdmitted.call, ensure_of hNew, ok_bind]
  exact ⟨_, rfl⟩

--
-- The Ledger Over Runs
--

/- Any step at all. -/
def Anything (_ : Chain T) (_ : Action T) (_ : Chain T) : Prop :=
  True

/- No vote saturates the score of a subject. -/
def Unsaturated (s : Chain T) (action : Action T) (_ : Chain T) : Prop :=
  ∀ tx aliases vote callValidFrom, action = .submit tx → s.validate tx = .ok (.voter aliases) →
      tx.call = .bestow vote callValidFrom → s.honour.BestowFits vote aliases

/- What is kept by a vote is kept by every step. -/
theorem kept_of_cast {action : Action T} {I : HonourState → Prop}
    (hPerform : s.perform action = .ok s') (hHold : I s.honour)
    (hCast : ∀ tx aliases, action = .submit tx → Cast s tx aliases s' → I s'.honour) :
    I s'.honour := by
  cases action with
  | advance now =>
    cases hPerform
    exact hHold
  | changeRings rings =>
    cases hPerform
    exact hHold
  | submit tx =>
    rcases cast_or_unchanged hPerform with
      rfl | ⟨aliases, hVote⟩
    · exact hHold
    · exact hCast tx aliases rfl hVote

theorem ledger_of_run {rings : T.Rings}
    (hRun : RunUnder Chain.perform Anything (Chain.genesis rings) s) :
    s.honour.NoDefaultStored ∧ s.honour.VotesExact := by
  refine hRun.invariant (fun s => s.honour.NoDefaultStored ∧ s.honour.VotesExact)
    ?_ ⟨?_, HonourState.votesExact_empty⟩
  · intro s action s' _ hPerform hHold
    refine kept_of_cast (I := fun h => h.NoDefaultStored ∧ h.VotesExact) hPerform hHold ?_
    intro tx aliases _ hCast
    rcases hCast.doBestow with ⟨vote, _, _, honour, _, hBestow, rfl⟩
    exact ⟨hHold.1.doBestow hBestow, hHold.2.doBestow hBestow⟩
  · intro subject
    simp [Chain.genesis, HonourState.empty]

theorem tally_of_run {rings : T.Rings}
    (hRun : RunUnder Chain.perform Unsaturated (Chain.genesis rings) s) :
    s.honour.TallyExact := by
  refine hRun.invariant (fun s => s.honour.TallyExact) ?_ HonourState.tallyExact_empty
  intro s action s' hFits hPerform hHold
  refine kept_of_cast (I := HonourState.TallyExact) hPerform hHold ?_
  intro tx aliases hSubmit hCast
  rcases hCast.doBestow with ⟨vote, callValidFrom, _, honour, hAdmitted, hBestow, rfl⟩
  exact hHold.doBestow (hFits tx aliases vote callValidFrom hSubmit hCast.validated hAdmitted.call)
      hBestow

--
-- A Spent Point
--

/- The sums of the checks stay within the `u64`. -/
def ClockFits (s : Chain T) : Prop :=
  s.now + T.pointFreezeDuration ≤ u64Max ∧ s.now + T.callMortality ≤ u64Max

/- The clock does not go back, and no sum saturates. -/
def Timely (s : Chain T) (_ : Action T) (s' : Chain T) : Prop :=
  s.now ≤ s'.now ∧ ClockFits s'

/-
  What became of the point of a vote cast at `t`: it was last used then and the vote is still there,
  or it was used again at least a freeze period later.
-/
def Spent (aliases : VoteAliases) (t : Nat) (s : Chain T) : Prop :=
  ∃ info, s.honour.points.get aliases.pointAlias = some info ∧ info.lastUsedAt ≤ s.now ∧
      (info.lastUsedAt = t ∧ info.subjectAlias = aliases.subjectAlias ∨
        t + T.pointFreezeDuration ≤ info.lastUsedAt)

/- A point that thawed was used a freeze period ago. -/
theorem thawed_iff {pointAlias : PointAlias} {info : PointInfo}
    (hGet : s.honour.points.get pointAlias = some info) (hUsed : info.lastUsedAt ≤ s.now)
    (hFits : ClockFits s) :
    s.honour.isPointFrozen T pointAlias s.now = false ↔
      info.lastUsedAt + T.pointFreezeDuration ≤ s.now := by
  have hSum : saturatingAdd u64Max info.lastUsedAt T.pointFreezeDuration
        = info.lastUsedAt + T.pointFreezeDuration := by
    have := hFits.1
    unfold saturatingAdd
    omega
  unfold HonourState.isPointFrozen
  rw [hGet]
  dsimp only
  rw [hSum, decide_eq_false_iff_not, not_lt]

theorem spent_of_cast (hCast : Cast s tx aliases s') :
    Spent aliases s.now s' := by
  rcases hCast.doBestow with ⟨vote, _, _, honour, _, hBestow, rfl⟩
  have hPoint := HonourState.doBestow_points hBestow aliases.pointAlias
  rw [if_pos rfl] at hPoint
  exact ⟨_, hPoint, le_rfl, Or.inl ⟨rfl, rfl⟩⟩

/- Using the point again comes a freeze period later. -/
theorem Spent.freeze {again : VoteAliases} (hSpent : Spent aliases t s) (hFits : ClockFits s)
    (hCast : Cast s tx again s') (hSame : again.pointAlias = aliases.pointAlias) :
    t + T.pointFreezeDuration ≤ s.now := by
  rcases hSpent with ⟨info, hGet, hUsed, hWhen⟩
  rcases hCast.doBestow with ⟨_, _, _, _, hAdmitted, _, _⟩
  have hThawed := hAdmitted.thawed
  rw [hSame, thawed_iff hGet hUsed hFits] at hThawed
  rcases hWhen with ⟨hUsedAt, _⟩ | hLater <;> omega

theorem Spent.perform {action : Action T} (hSpent : Spent aliases t s) (hFits : ClockFits s)
    (hTimely : s.now ≤ s'.now) (hPerform : s.perform action = .ok s') :
    Spent aliases t s' := by
  have hSpent' := hSpent
  rcases hSpent with ⟨info, hGet, hUsed, hWhen⟩
  have hKept : s'.honour.points.get aliases.pointAlias = some info → Spent aliases t s' :=
    fun hGet' => ⟨info, hGet', hUsed.trans hTimely, hWhen⟩
  cases action with
  | advance now =>
    cases hPerform
    exact hKept hGet
  | changeRings rings =>
    cases hPerform
    exact hKept hGet
  | submit tx =>
    rcases cast_or_unchanged hPerform with
      rfl | ⟨again, hCast⟩
    · exact hSpent'
    · have hFreeze := hSpent'.freeze hFits hCast
      rcases hCast.doBestow with ⟨vote, _, _, honour, _, hBestow, rfl⟩
      by_cases hSame : again.pointAlias = aliases.pointAlias
      · have hPoint := HonourState.doBestow_points hBestow aliases.pointAlias
        rw [if_pos hSame.symm] at hPoint
        exact ⟨_, hPoint, le_rfl, Or.inr (hFreeze hSame)⟩
      · apply hKept
        rw [HonourState.doBestow_points hBestow, if_neg (Ne.symm hSame)]
        exact hGet

theorem spent_of_run (hRun : RunUnder Chain.perform Timely s s') (hFits : ClockFits s)
    (hSpent : Spent aliases t s) :
    ClockFits s' ∧ Spent aliases t s' := by
  refine hRun.invariant (fun s => ClockFits s ∧ Spent aliases t s) ?_ ⟨hFits, hSpent⟩
  intro s action s' hTimely hPerform hHold
  exact ⟨hTimely.2, hHold.2.perform hHold.1 hTimely.1 hPerform⟩

--
-- No Replay
--

/- The same signed vote: the call and the proof agree. -/
def SameVote (tx tx' : Transaction T) : Prop :=
  tx'.call = tx.call ∧ tx'.auth.map (·.proof) = tx.auth.map (·.proof)

/- A proof reveals the same aliases for the same vote. -/
theorem AliasesDetermined.reveals {proof : T.Proof} (hAliases : AliasesDetermined T)
    (hReveals : Reveals s vote proof aliases) (hReveals' : Reveals s' vote proof aliases') :
    aliases = aliases' := by
  rcases hReveals with ⟨_, _, _, hVerify⟩
  rcases hReveals' with ⟨_, _, _, hVerify'⟩
  have hSame := hAliases _ _ _ _ _ _ _ _ _ _ _ _ hVerify hVerify'
  simp only [List.cons.injEq, ContextualAlias.mk.injEq, and_true] at hSame
  cases aliases
  cases aliases'
  rw [VoteAliases.mk.injEq]
  exact hSame

/- A vote is mortal: at most two freeze periods. -/
theorem callMortality_le (T : Config) :
    T.callMortality ≤ T.pointFreezeDuration * 2 := by
  have hMortality := T.integrity_test
  unfold saturatingMul at hMortality
  omega

/- What the same vote reveals again. -/
theorem Admitted.same {vote' : VoteData} {validFrom validFrom' : Nat} {auth auth' : VoterAuthData T}
    (hAliases : AliasesDetermined T) (hAdmitted : Admitted s tx aliases vote validFrom auth)
    (hAdmitted' : Admitted s' tx' aliases' vote' validFrom' auth') (hSame : SameVote tx tx') :
    validFrom' = validFrom ∧ aliases' = aliases := by
  have hCall := hSame.1
  rw [hAdmitted.call, hAdmitted'.call, Call.bestow.injEq] at hCall
  have hProof := hSame.2
  rw [hAdmitted.signed, hAdmitted'.signed, Option.map_some,
    Option.map_some, Option.some.injEq] at hProof
  have hReveals' := hAdmitted'.reveals
  rw [hCall.1, hProof] at hReveals'
  exact ⟨hCall.2, (hAliases.reveals hAdmitted.reveals hReveals').symm⟩

/-
  A vote that was cast is not cast again: its subject alias is still among the votes, or its point
  was redirected and thaws only when the call is no longer valid.
-/
theorem not_cast_again {s₀ s₁ s₂ s₃ : Chain T} (hAliases : AliasesDetermined T)
    (hCast : Cast s₀ tx aliases s₁) (hFits : ClockFits s₂) (hSpent : Spent aliases s₀.now s₂)
    (hVotes : s₂.honour.VotesExact) (hSame : SameVote tx tx') :
    ¬ Cast s₂ tx' aliases' s₃ := by
  intro hAgain
  have hMortality := callMortality_le T
  rcases hCast.doBestow with ⟨vote, validFrom, auth, _, hAdmitted, _, _⟩
  rcases hAgain.doBestow with ⟨vote', validFrom', auth', _, hAdmitted', _, _⟩
  rcases hAdmitted.same hAliases hAdmitted' hSame with ⟨hValidFrom, hRevealed⟩
  have hThawed := hAdmitted'.thawed
  have hFresh := hAdmitted'.fresh
  have hLasting := hAdmitted'.lasting
  have hBegun := hAdmitted.begun
  rw [hRevealed] at hThawed hFresh
  rw [hValidFrom] at hLasting
  rcases hSpent with ⟨info, hGet, hUsed, hWhen⟩
  rcases hWhen with ⟨_, hSubject⟩ | hLater
  · have hVoted := (hVotes.voted aliases.subjectAlias).mpr ⟨_, info, hGet, hSubject⟩
    rw [hFresh] at hVoted
    exact Bool.false_ne_true hVoted
  · rw [thawed_iff hGet hUsed hFits] at hThawed
    have hSum : saturatingAdd u64Max validFrom T.callMortality ≤ validFrom + T.callMortality := by
      unfold saturatingAdd
      exact Nat.min_le_left _ _
    omega

/- A transaction with the same vote fails as a whole. -/
theorem fails_again {s₀ s₁ s₂ : Chain T} (hAliases : AliasesDetermined T)
    (hCast : Cast s₀ tx aliases s₁) (hFits : ClockFits s₂) (hSpent : Spent aliases s₀.now s₂)
    (hVotes : s₂.honour.VotesExact) (hSame : SameVote tx tx') (s₃ : Chain T) :
    s₂.applyTransaction tx' ≠ .ok s₃ := by
  intro hApply
  have hApply' := hApply
  rcases hCast.doBestow with ⟨vote, validFrom, auth, _, hAdmitted, _, _⟩
  have hAuth : tx'.auth.isSome = true := by
    have hProof := hSame.2
    rw [hAdmitted.signed, Option.map_some] at hProof
    rw [← Option.isSome_map, hProof]
    rfl
  unfold Chain.applyTransaction at hApply
  simp only [bind_eq_ok] at hApply
  rcases hApply with ⟨origin, hValidate, _⟩
  rcases exists_voter_of_validate hAuth hValidate with ⟨aliases', rfl⟩
  exact not_cast_again hAliases hCast hFits hSpent hVotes hSame ⟨hValidate, hApply'⟩

end Individuality.Honour
