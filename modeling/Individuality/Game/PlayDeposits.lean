import Individuality.Game.Membership

/-
  The tickets of play deposits: each outstanding one is held by the account that plays with it.

  Main declaration: `Deposited`
-/

namespace Individuality.Game

variable {T : Config} {account : T.Account} {who : T.Who} {ticket : Nat} {kept : Prop}

--
-- Logs of Tickets
--

theorem DepositLog.count_create (log : DepositLog T.Account) (account : T.Account) (ticket : Nat)
    (entry : T.Account × Nat) :
    (log.create account ticket).created.count entry = log.created.count entry
        + if (account, ticket) = entry then 1 else 0 := by
  unfold DepositLog.create
  rw [List.count_cons]
  simp only [beq_iff_eq]

theorem DepositLog.count_settle (log : DepositLog T.Account) (account : T.Account) (ticket : Nat)
    (entry : T.Account × Nat) :
    (log.settle account ticket).settled.count entry = log.settled.count entry
        + if (account, ticket) = entry then 1 else 0 := by
  unfold DepositLog.settle
  rw [List.count_cons]
  simp only [beq_iff_eq]

--
-- Tickets That Are Held
--

/- How many tickets of this value the account plays with. -/
def World.heldTickets (w : World T) (account : T.Account) (ticket : Nat) : Nat :=
  if w.playing (.account account) = some (.deposit ticket) then 1 else 0

/-
  Each ticket that was created for an account is settled, or held by the account, or lost, and none
  is where all tickets are kept.  No alias plays with a ticket.
-/
structure Deposited (kept : Prop) (w : World T) : Prop where
  count : ∀ account ticket, ∃ lost,
      w.deposits.created.count (account, ticket)
          = w.deposits.settled.count (account, ticket)
            + w.heldTickets account ticket + lost
        ∧ (kept → lost = 0)
  person : ∀ alias_ ticket, w.playing (.person alias_) ≠ some (.deposit ticket)

/- The ticket that an account plays with can be dropped. -/
def World.Droppable (env : Env T) (w : World T) : Prop :=
  ∀ account ticket, w.playing (.account account) = some (.deposit ticket) →
      env.dropDeposit account ticket = true

section Droppable

variable {w w' : World T} {env : Env T}

/- No new ticket is held, so each can still be dropped. -/
theorem World.Droppable.mono (hDrops : w.Droppable env)
    (hHeld : ∀ who ticket, w'.playing who = some (.deposit ticket) →
        w.playing who = some (.deposit ticket)) :
    w'.Droppable env :=
  fun account ticket hHolds => hDrops account ticket (hHeld _ ticket hHolds)

theorem World.Droppable.of_same (hDrops : w.Droppable env) (hSame : SamePopulation w w') :
    w'.Droppable env :=
  hDrops.mono fun who _ hHolds => (hSame.playing who).symm.trans hHolds

theorem World.Droppable.disposePlayer {player : Player} (hDrops : w.Droppable env)
    (hPlaying : w.playing who = some player.credibility) (disposition : PlayerDisposition) :
    (w.disposePlayer env who player disposition).Droppable env := by
  refine hDrops.mono fun who' ticket hHolds => ?_
  rcases World.disposePlayer_cases hPlaying env disposition with
    hSame | ⟨_, hRecognizes⟩ | hArchives
  · rw [hSame.playing] at hHolds
    exact hHolds
  · rw [hRecognizes.playing] at hHolds
    split_ifs at hHolds
    · cases hHolds
    · exact hHolds
  · rw [hArchives.playing] at hHolds
    split_ifs at hHolds
    exact hHolds

end Droppable

namespace Deposited

variable {w w' : World T} {env : Env T}

theorem genesis : Deposited kept (World.genesis : World T) where
  count := fun _ _ => ⟨0, rfl, fun _ => rfl⟩
  person := by
    intro alias_ ticket
    simp [World.genesis, GameStorage.genesis, World.playing]

/- Only the log and who plays with a ticket matter. -/
theorem of_eq (hOld : Deposited kept w)
    (hPlaying : ∀ who ticket, w'.playing who = some (.deposit ticket)
        ↔ w.playing who = some (.deposit ticket))
    (hDeposits : w'.deposits = w.deposits) :
    Deposited kept w' where
  count := by
    intro account ticket
    unfold World.heldTickets
    simp only [hDeposits, hPlaying]
    exact hOld.count account ticket
  person := by
    intro alias_ ticket hHolds
    exact hOld.person alias_ ticket ((hPlaying _ _).mp hHolds)

theorem of_same (hOld : Deposited kept w) (hSame : SamePopulation w w') :
    Deposited kept w' := by
  refine hOld.of_eq ?_ hSame.deposits
  intro who ticket
  rw [hSame.playing]

theorem of_samePlayers (hOld : Deposited kept w) (hSame : SamePlayers w w') :
    Deposited kept w' := by
  refine hOld.of_eq ?_ hSame.deposits
  intro who ticket
  rw [hSame.playing]

/- A ticket that is held is outstanding. -/
theorem outstanding_pos (hOld : Deposited kept w)
    (hHolds : w.playing (.account account) = some (.deposit ticket)) :
    0 < w.deposits.outstanding account ticket := by
  rcases hOld.count account ticket with ⟨lost, hCount, _⟩
  unfold World.heldTickets at hCount
  rw [if_pos hHolds] at hCount
  unfold DepositLog.outstanding
  omega

--
-- Signing Up
--

/- A new ticket goes to the account that pays for it. -/
theorem paid (hOld : Deposited kept w) (hNew : w.playing (.account account) = none)
    (hPlaying : ∀ who, w'.playing who =
        if who = .account account then some (.deposit ticket)
        else w.playing who)
    (hDeposits : w'.deposits = w.deposits.create account ticket) :
    Deposited kept w' := by
  constructor
  · intro account' ticket'
    rcases hOld.count account' ticket' with ⟨lost, hCount, hNone⟩
    refine ⟨lost, ?_, hNone⟩
    rw [hDeposits, DepositLog.count_create, hCount]
    change w.deposits.settled.count _ + _ + _ + _ = w.deposits.settled.count _ + _ + _
    unfold World.heldTickets
    rw [hPlaying]
    by_cases hAccount : account' = account
    · subst hAccount
      rw [hNew, if_pos rfl]
      simp only [Prod.mk.injEq, true_and, Option.some.injEq,
        PlayerCredibility.deposit.injEq, reduceCtorEq, if_false]
      omega
    · simp [hAccount, Ne.symm hAccount]
  · intro alias_ ticket'
    rw [hPlaying, if_neg (by simp)]
    exact hOld.person alias_ ticket'

theorem signsUp (hOld : Deposited kept w) (hSignsUp : SignsUp w w' who) :
    Deposited kept w' := by
  rcases hSignsUp.credited with ⟨credibility, hCredited, hPlaying⟩
  generalize hEq : w'.deposits = deposits at hCredited
  cases hCredited with
  | kept hWas =>
    refine hOld.of_eq ?_ hEq
    intro who' ticket
    rw [hPlaying]
    by_cases hWho : who' = who
    · rw [if_pos hWho, hWho, hWas]
    · rw [if_neg hWho]
  | free hNew hFree =>
    refine hOld.of_eq ?_ hEq
    intro who' ticket
    rw [hPlaying]
    by_cases hWho : who' = who
    · rw [if_pos hWho, hWho, hNew]
      constructor
      · intro hDeposit
        exact absurd (Option.some.inj hDeposit) (hFree ticket)
      · intro hNone
        cases hNone
    · rw [if_neg hWho]
  | paid account ticket hNew hWho hPaid =>
    subst hWho
    subst hPaid
    exact hOld.paid hNew hPlaying hEq

--
-- Settling
--

/-
  The ticket of an account is settled, or lost where tickets
  may be, and the account does not play with it any more.
-/
theorem settle (hOld : Deposited kept w)
    (hHolds : w.playing (.account account) = some (.deposit ticket))
    (hPlaying : ∀ who ticket', w'.playing who = some (.deposit ticket')
        ↔ who ≠ .account account ∧ w.playing who = some (.deposit ticket'))
    (hDeposits : w'.deposits = w.deposits.settle account ticket
        ∨ ¬kept ∧ w'.deposits = w.deposits) :
    Deposited kept w' := by
  constructor
  · intro account' ticket'
    rcases hOld.count account' ticket' with ⟨lost, hCount, hNone⟩
    unfold World.heldTickets at hCount ⊢
    simp only [hPlaying]
    have hGone : (if (account, ticket) = (account', ticket') then 1 else 0)
          + (if (Score.AccountOrPerson.account account' : T.Who)
                  ≠ .account account
                ∧ w.playing (.account account') = some (.deposit ticket')
              then 1 else 0)
        = if w.playing (.account account') = some (.deposit ticket')
          then 1 else 0 := by
      by_cases hAccount : account' = account
      · subst hAccount
        rw [hHolds]
        simp
      · simp [hAccount, Ne.symm hAccount]
    rcases hDeposits with hSettled | ⟨hLost, hSame⟩
    · refine ⟨lost, ?_, hNone⟩
      rw [hSettled, DepositLog.count_settle]
      change w.deposits.created.count _ = _
      omega
    · refine ⟨lost + if (account, ticket) = (account', ticket') then 1 else 0,
        ?_, fun hKept => absurd hKept hLost⟩
      rw [hSame]
      omega
  · intro alias_ ticket' hHeld
    exact hOld.person alias_ ticket' ((hPlaying _ _).mp hHeld).2

/- An identity that stops playing gives up its ticket. -/
theorem stops (hOld : Deposited kept w)
    (hPlaying : ∀ who', w'.playing who' =
        if who' = who then none else w.playing who')
    (hDeposits : w'.deposits = settledDeposits w.deposits who (w.playing who)) :
    Deposited kept w' := by
  have hStopped : ∀ who' ticket', w'.playing who' = some (.deposit ticket')
        ↔ who' ≠ who ∧ w.playing who' = some (.deposit ticket') := by
    intro who' ticket'
    rw [hPlaying]
    by_cases hWho : who' = who
    · simp [hWho]
    · simp [hWho]
  -- without a ticket nothing is settled
  have hNothing : w'.deposits = w.deposits →
      (∀ ticket, w.playing who ≠ some (.deposit ticket)) → Deposited kept w' := by
    intro hSame hNone
    refine hOld.of_eq ?_ hSame
    intro who' ticket
    rw [hStopped]
    refine ⟨fun hBoth => hBoth.2, fun hHolds => ⟨?_, hHolds⟩⟩
    rintro rfl
    exact hNone ticket hHolds
  unfold settledDeposits at hDeposits
  cases hCredibility : w.playing who with
  | none =>
    rw [hCredibility] at hDeposits
    refine hNothing hDeposits ?_
    intro ticket hHolds
    rw [hCredibility] at hHolds
    cases hHolds
  | some credibility =>
    rw [hCredibility] at hDeposits
    cases credibility with
    | deposit ticket =>
      cases who with
      | person alias_ =>
        exact absurd hCredibility (hOld.person alias_ ticket)
      | account account =>
        exact hOld.settle hCredibility hStopped (Or.inl hDeposits)
    | _ =>
      refine hNothing hDeposits ?_
      intro ticket hHolds
      rw [hCredibility] at hHolds
      cases hHolds

/- A recognized player keeps no ticket, and drops the one it had. -/
theorem recognizes (hOld : Deposited kept w) (hDrops : kept → w.Droppable env)
    (hRecognizes : Recognizes env w w' who ticket) :
    Deposited kept w' := by
  have hHolds := hRecognizes.before
  cases who with
  | person alias_ =>
    exact absurd hHolds (hOld.person alias_ ticket)
  | account account =>
    have hDeposits := hRecognizes.deposits account rfl
    refine hOld.settle hHolds ?_ ?_
    · intro who' ticket'
      rw [hRecognizes.playing]
      by_cases hWho : who' = .account account
      · simp [hWho]
      · simp [hWho]
    · by_cases hDrop : env.dropDeposit account ticket = true
      · rw [if_pos hDrop] at hDeposits
        exact Or.inl hDeposits
      · rw [if_neg hDrop] at hDeposits
        exact Or.inr ⟨fun hKept => hDrop (hDrops hKept account ticket hHolds), hDeposits⟩

theorem kickout (hOld : Deposited kept w) (hKickout : w.kickout env account = .ok w') :
    Deposited kept w' := by
  rcases World.kickout_spec hKickout with ⟨_, hPlaying, _, _, hDeposits, _, _⟩
  refine hOld.of_eq ?_ hDeposits
  intro who ticket
  rw [hPlaying]

end Deposited

end Individuality.Game
