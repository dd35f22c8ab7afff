import Individuality.Game.Bijection

/-
  The votes of the players while a game is reported on: what has been counted and what may still
  come stay within what was expected, so that an attendance that is enacted early is the one that
  all reports would have decided.

  Main declaration: `Decided`
-/

namespace Individuality.Game

variable {T : Config}

--
-- Fair Players
--

/- An attendance is decided when no way to cast the votes that are out can change it. -/
def Decided (out : Nat) (player : Player) : Bool → Prop
  | true =>
    player.registered = true ∧ player.sentReport = true
      ∧ player.noNotPerson + out ≤ player.yesPerson - 1
  | false =>
    player.registered = false ∨ player.yesPerson + out - 1 < player.noNotPerson

/-
  The votes of a player and those that are out are expected,
  and an attendance that was enacted early is decided.
-/
structure PlayerFair (out : Nat) (player : Player) : Prop where
  votes_le : player.yesPerson + player.noNotPerson + out ≤ u8Max
  expected :
    player.yesPerson + player.noNotPerson + out ≤ player.expectedMaxVoteWeight
  early : ∀ enactment, player.earlyAttendanceEnactment = some enactment →
      Decided out player enactment.attendance

theorem Decided.mono {out out' : Nat} {player : Player} {attendance : Bool}
    (hDecided : Decided out player attendance) (hLe : out' ≤ out) :
    Decided out' player attendance := by
  cases attendance with
  | true =>
    rcases hDecided with ⟨hRegistered, hSent, hVotes⟩
    exact ⟨hRegistered, hSent, by omega⟩
  | false =>
    rcases hDecided with hRegistered | hVotes
    · exact Or.inl hRegistered
    · exact Or.inr (by omega)

/- A vote that was out has come. -/
theorem Decided.vote {out out' weight : Nat} {player : Player} {attendance : Bool} {report : Report}
    (hDecided : Decided out player attendance) (hLe : weight + out' ≤ out)
    (hVotes : player.yesPerson + player.noNotPerson + out ≤ u8Max) :
    Decided out' (World.countVote weight report player)
      attendance := by
  cases report with
  | person =>
    have hYes : saturatingAdd u8Max player.yesPerson weight = player.yesPerson + weight :=
      saturatingAdd_of_le (by omega)
    cases attendance with
    | true =>
      rcases hDecided with ⟨hRegistered, hSent, hNo⟩
      refine ⟨hRegistered, hSent, ?_⟩
      unfold World.countVote
      dsimp only
      rw [hYes]
      omega
    | false =>
      rcases hDecided with hRegistered | hNo
      · exact Or.inl hRegistered
      · right
        unfold World.countVote
        dsimp only
        rw [hYes]
        omega
  | notPerson =>
    have hNoVotes : saturatingAdd u8Max player.noNotPerson weight = player.noNotPerson + weight :=
      saturatingAdd_of_le (by omega)
    cases attendance with
    | true =>
      rcases hDecided with ⟨hRegistered, hSent, hNo⟩
      refine ⟨hRegistered, hSent, ?_⟩
      unfold World.countVote
      dsimp only
      rw [hNoVotes]
      omega
    | false =>
      rcases hDecided with hRegistered | hNo
      · exact Or.inl hRegistered
      · right
        unfold World.countVote
        dsimp only
        rw [hNoVotes]
        omega

namespace PlayerFair

variable
  {out out' weight : Nat}
  {player : Player}

theorem mono (hFair : PlayerFair out player) (hLe : out' ≤ out) :
    PlayerFair out' player where
  votes_le := by
    have hVotes := hFair.votes_le
    omega
  expected := by
    have hVotes := hFair.expected
    omega
  early := fun enactment hEarly => (hFair.early enactment hEarly).mono hLe

theorem vote (hFair : PlayerFair out player) (hLe : weight + out' ≤ out) (report : Report) :
    PlayerFair out' (World.countVote weight report player) := by
  have hVotes := hFair.votes_le
  have hExpected := hFair.expected
  have hSum : (World.countVote weight report player).yesPerson
          + (World.countVote weight report player).noNotPerson
        = player.yesPerson + player.noNotPerson + weight := by
    unfold World.countVote
    cases report with
    | person =>
      dsimp only
      rw [saturatingAdd_of_le (by omega)]
      omega
    | notPerson =>
      dsimp only
      rw [saturatingAdd_of_le (by omega)]
      omega
  have hSame : (World.countVote weight report player).expectedMaxVoteWeight
          = player.expectedMaxVoteWeight
        ∧ (World.countVote weight report player).earlyAttendanceEnactment
          = player.earlyAttendanceEnactment := by
    cases report <;> exact ⟨rfl, rfl⟩
  refine ⟨by omega, by omega, ?_⟩
  intro enactment hEarly
  rw [hSame.2] at hEarly
  exact (hFair.early enactment hEarly).vote hLe hVotes

theorem sent (hFair : PlayerFair out player) :
    PlayerFair out { player with sentReport := true } where
  votes_le := hFair.votes_le
  expected := hFair.expected
  early := by
    intro enactment hEarly
    have hDecided := hFair.early enactment hEarly
    cases hAttendance : enactment.attendance with
    | true =>
      rw [hAttendance] at hDecided
      exact ⟨hDecided.1, rfl, hDecided.2.2⟩
    | false =>
      rw [hAttendance] at hDecided
      exact hDecided

/- What the expected votes decide is decided. -/
theorem decided_attended (hFair : PlayerFair out player)
    (hStatus : determineAttendance player = .attended) :
    Decided out player true := by
  have hExpected := hFair.expected
  unfold determineAttendance at hStatus
  dsimp only at hStatus
  split_ifs at hStatus with hRegistered hBest hWorst
  rw [Bool.and_eq_true, decide_eq_true_eq] at hWorst
  have hIs : player.registered = true := by
    simpa using hRegistered
  exact ⟨hIs, hWorst.1, by omega⟩

theorem decided_notAttended (hFair : PlayerFair out player)
    (hStatus : determineAttendance player = .notAttended) :
    Decided out player false := by
  have hExpected := hFair.expected
  unfold determineAttendance at hStatus
  dsimp only at hStatus
  split_ifs at hStatus with hRegistered hBest
  · left
    simpa using hRegistered
  · right
    omega

variable {enactment : EarlyAttendanceEnactment}

theorem enact (hFair : PlayerFair out player) (hDecided : Decided out player enactment.attendance) :
    PlayerFair out
      { player with
        earlyAttendanceEnactment := some enactment } where
  votes_le := hFair.votes_le
  expected := hFair.expected
  early := by
    intro enactment' hEarly
    obtain rfl := Option.some.inj hEarly
    cases hAttendance : enactment.attendance with
    | true =>
      rw [hAttendance] at hDecided
      exact hDecided
    | false =>
      rw [hAttendance] at hDecided
      exact hDecided

/- An early attendance is the one of the final votes. -/
theorem finalAttendance_eq (hFair : PlayerFair out player)
    (hEarly : player.earlyAttendanceEnactment = some enactment) :
    finalAttendance player = enactment.attendance := by
  have hDecided := hFair.early enactment hEarly
  unfold finalAttendance
  cases hAttendance : enactment.attendance with
  | true =>
    rw [hAttendance] at hDecided
    rcases hDecided with ⟨hRegistered, hSent, hVotes⟩
    rw [hRegistered, hSent, Bool.true_and, Bool.true_and, decide_eq_true_eq]
    omega
  | false =>
    rw [hAttendance] at hDecided
    rcases hDecided with hRegistered | hVotes
    · rw [hRegistered]
      rfl
    · have hNot : decide (player.noNotPerson ≤ player.yesPerson - 1) = false :=
        decide_eq_false (by omega)
      rw [hNot, Bool.and_false]

end PlayerFair

/- The final attendance in the words of the votes. -/
theorem finalAttendance_iff (player : Player) :
    finalAttendance player = (player.registered && player.sentReport && decide
        (player.noNotPerson < player.yesPerson
          ∨ player.yesPerson = 0 ∧ player.noNotPerson = 0)) := by
  unfold finalAttendance
  congr 1
  rw [decide_eq_decide]
  omega

--
-- Votes That Are Out
--

namespace World

/- The weight of who has an index and has not reported. -/
def unsentWeight (w : World T) (round index : Nat) : Nat :=
  ((w.store.indexToPlayer.get (round, index)).bind
    fun who => w.store.players.get who).elim 0 fun player =>
      if player.sentReport then 0 else player.voteWeight

/- The votes of one round that may still come for an index. -/
def roundOut (w : World T) (setting : GroupsSetting) (round index : Nat) : Nat :=
  if index < setting.playerCount then
    ((setting.otherMembers index).map (w.unsentWeight round)).sum
  else
    0

/- The votes that may still come for a player. -/
def outOf (w : World T) (setting : GroupsSetting) (rounds : Nat) (who : T.Who) : Nat :=
  match w.store.playerToIndex.get who with
  | none => 0
  | some indices =>
    ((List.range rounds).map fun round =>
      w.roundOut setting round (indices.getD round 0)).sum

end World

/- The votes that one reporter casts for an index in a round. -/
def roundDue (setting : GroupsSetting) (weight reporterIndex index : Nat) : Nat :=
  if
    reporterIndex < setting.playerCount ∧ index ∈ setting.otherMembers reporterIndex
  then weight
  else 0

/- The votes of a report for a player in some rounds. -/
def dueOf (w : World T) (setting : GroupsSetting) (weight : Nat)
    (reporterIndices : List Nat) (rounds : List Nat) (who : T.Who) : Nat :=
  match w.store.playerToIndex.get who with
  | none => 0
  | some indices =>
    (rounds.map fun round =>
      roundDue setting weight (reporterIndices.getD round 0) (indices.getD round 0)).sum

/- All players are fair with the votes that are out. -/
def AllFair (out : T.Who → Nat) (players : StorageMap T.Who Player) : Prop :=
  ∀ who player, players.get who = some player → PlayerFair (out who) player

variable {players : StorageMap T.Who Player}

theorem AllFair.mono {out out' : T.Who → Nat} (hFair : AllFair out players)
    (hLe : ∀ who, out' who ≤ out who) :
    AllFair out' players :=
  fun who player hGet => (hFair who player hGet).mono (hLe who)

variable {who : T.Who}

/- One player is written, with votes that are out of its own. -/
theorem AllFair.insert {out out' : T.Who → Nat} {player : Player} (hFair : AllFair out players)
    (hLe : ∀ who', who' ≠ who → out' who' ≤ out who') (hPlayer : PlayerFair (out' who) player) :
    AllFair out' (players.insert who player) := by
  intro who' player' hGet
  rw [StorageMap.get_insert] at hGet
  split_ifs at hGet with hSame
  · obtain rfl := Option.some.inj hGet
    exact hSame ▸ hPlayer
  · exact (hFair who' player' hGet).mono (hLe who' hSame)

--
-- Sums
--

theorem sum_map_le_sum_map {β : Type} {f g : β → Nat} (l : List β) (hLe : ∀ b ∈ l, f b ≤ g b) :
    (l.map f).sum ≤ (l.map g).sum := by
  induction l with
  | nil => exact Nat.le_refl _
  | cons b l ih =>
    have hHead := hLe b List.mem_cons_self
    have hTail := ih fun c hMem => hLe c (List.mem_cons_of_mem _ hMem)
    simp only [List.map_cons, List.sum_cons]
    omega

theorem sum_map_add_le {β : Type} {f g h : β → Nat} (l : List β) (hLe : ∀ b ∈ l, f b + g b ≤ h b) :
    (l.map f).sum + (l.map g).sum ≤ (l.map h).sum := by
  induction l with
  | nil => exact Nat.le_refl _
  | cons b l ih =>
    have hHead := hLe b List.mem_cons_self
    have hTail := ih fun c hMem => hLe c (List.mem_cons_of_mem _ hMem)
    simp only [List.map_cons, List.sum_cons]
    omega

/- One summand may make room for something else. -/
theorem sum_map_add_one_le {β : Type} {f g : β → Nat} {b : β} {x : Nat} {l : List β} (hMem : b ∈ l)
    (hLe : ∀ c ∈ l, f c ≤ g c) (hOne : f b + x ≤ g b) :
    (l.map f).sum + x ≤ (l.map g).sum := by
  induction l with
  | nil => cases hMem
  | cons c l ih =>
    simp only [List.map_cons, List.sum_cons]
    have hHead := hLe c List.mem_cons_self
    have hTail : ∀ d ∈ l, f d ≤ g d := fun d hIn => hLe d (List.mem_cons_of_mem _ hIn)
    rcases List.mem_cons.mp hMem with rfl | hIn
    · have hRest := sum_map_le_sum_map l hTail
      omega
    · have hRest := ih hIn hTail
      omega

--
-- Reporting
--

section Report

variable
  {seen : Seen T}
  {lineup : Lineup T}
  {w : World T}
  {game : GameInfo T.Who}
  {playerCount : Nat}

/- The setting of the groups of a game. -/
def settingOf (game : GameInfo T.Who) (playerCount : Nat) : GroupsSetting where
  fullGroupSize := game.maxGroupSize
  playerCount := playerCount

/- An index below the count of players is exact. -/
theorem Drawn.index_exact {round index : Nat}
    (hDrawn : Drawn seen lineup game.rounds playerCount w.board) (hRound : round < game.rounds)
    (hIndex : index < playerCount) :
    (∃ indices, w.store.playerToIndex.get who = some indices ∧ indices[round]? = some index)
      ↔ w.store.indexToPlayer.get (round, index) = some who := by
  have hCount := hDrawn.playerCount_eq
  constructor
  · rintro ⟨indices, hGet, hAt⟩
    rcases hDrawn.seated.of_player who (by
          change w.store.playerToIndex.get who ≠ none
          rw [hGet]
          exact Option.some_ne_none _)
      with ⟨s, _, j, _, hRow⟩
    have hIn : who ∈ lineup.row round := Lineup.mem_row.mpr
        (Lineup.mem_row.mp (List.mem_of_getElem? hRow))
    rcases List.getElem?_of_mem hIn with ⟨i, hI⟩
    have hLt := (List.getElem?_eq_some_iff.mp hI).1
    rw [Lineup.length_row] at hLt
    rcases hDrawn.seated.to_player round i who hRound hLt hI with ⟨indices', hGet', hAt'⟩
    obtain rfl := Option.some.inj (hGet.symm.trans hGet')
    have hEq := Option.some.inj (hAt.symm.trans hAt')
    have hSame : index = i := by omega
    rw [hSame]
    exact hDrawn.seated.to_index round i who hRound hLt (by omega) (Or.inl (by omega)) hI
  · exact fun hGet => hDrawn.seated.player_of_index hGet

/- Such an index is the position in the row. -/
theorem Drawn.row_of_index {round index : Nat}
    (hDrawn : Drawn seen lineup game.rounds playerCount w.board) (hIndex : index < playerCount)
    (hGet : w.store.indexToPlayer.get (round, index) = some who) :
    (lineup.row round)[index]? = some who := by
  have hCount := hDrawn.playerCount_eq
  rcases hDrawn.seated.of_index round index who hGet with ⟨_, i, hLt, hRow, hEq⟩
  have hSame : index = i := by omega
  rw [hSame]
  exact hRow

/- The index of a player that is drawn. -/
theorem Drawn.getD_eq {round : Nat} {indices : List Nat}
    (hDrawn : Drawn seen lineup game.rounds playerCount w.board) (hRound : round < game.rounds)
    (hGet : w.store.playerToIndex.get who = some indices) :
    indices[round]? = some (indices.getD round 0) := by
  have hLt : round < indices.length := by
    rw [hDrawn.seated.length_eq who indices hGet]
    exact hRound
  rw [List.getD_eq_getElem?_getD, List.getElem?_eq_getElem hLt, Option.getD_some]

/- Marking a reporter takes out the votes that it will cast. -/
theorem AllFair.sent {player : Player} {indices : List Nat} (hSetup : SetupOk T game)
    (hDrawn : Drawn seen lineup game.rounds playerCount w.board)
    (hFair : AllFair (w.outOf (settingOf game playerCount) game.rounds) w.store.players)
    (hGet : w.store.players.get who = some player) (hSent : player.sentReport = false)
    (hIndices : w.store.playerToIndex.get who = some indices) :
    AllFair (fun who' => (w.setPlayer who { player with sentReport := true }).outOf
            (settingOf game playerCount) game.rounds who'
          + dueOf w (settingOf game playerCount) player.voteWeight
              indices (List.range game.rounds) who')
      (w.store.players.insert who { player with sentReport := true }) := by
  have hSize : 0 < (settingOf game playerCount).fullGroupSize := by
    have hMin := hSetup.minGroupSize_lt
    change 0 < game.maxGroupSize
    omega
  have hCount : (settingOf game playerCount).playerCount ≤ u32Max := by
    change playerCount ≤ u32Max
    have hEq := hDrawn.playerCount_eq
    omega
  have hUnsent : ∀ round index,
        (w.setPlayer who { player with sentReport := true }).unsentWeight round
          index ≤ w.unsentWeight round index := by
    intro round index
    unfold World.unsentWeight
    change ((w.store.indexToPlayer.get (round, index)).bind fun who' =>
        (w.store.players.insert who { player with sentReport := true }).get who').elim 0 _
        ≤ _
    cases w.store.indexToPlayer.get (round, index) with
    | none => exact Nat.le_refl _
    | some who' =>
      rw [Option.bind_some, Option.bind_some, StorageMap.get_insert]
      split_ifs
      · exact Nat.zero_le _
      · exact Nat.le_refl _
  have hLe : ∀ who', (w.setPlayer who { player with sentReport := true }).outOf
            (settingOf game playerCount) game.rounds who'
          + dueOf w (settingOf game playerCount) player.voteWeight
              indices (List.range game.rounds) who'
          ≤ w.outOf (settingOf game playerCount) game.rounds
              who' := by
    intro who'
    unfold World.outOf dueOf
    change (match w.store.playerToIndex.get who' with
        | none => 0
        | some indices' => _) + _ ≤ _
    cases hIndices' : w.store.playerToIndex.get who' with
    | none => exact Nat.le_refl _
    | some indices' =>
      refine sum_map_add_le _ ?_
      intro round hMem
      have hRound := List.mem_range.mp hMem
      have hAt := hDrawn.getD_eq hRound hIndices
      unfold World.roundOut roundDue
      by_cases hDue : indices.getD round 0 < (settingOf game playerCount).playerCount
          ∧ indices'.getD round 0 ∈ (settingOf game playerCount).otherMembers (indices.getD round 0)
      · have hLt := GroupsSetting.lt_of_mem_otherMembers hDue.2
        rw [if_pos hDue, if_pos hLt, if_pos hLt]
        have hMember := (GroupsSetting.mem_otherMembers_comm hCount hSize hLt hDue.1).mp hDue.2
        refine sum_map_add_one_le hMember (fun index _ => hUnsent round index) ?_
        have hWho := (hDrawn.index_exact hRound hDue.1).mp ⟨indices, hIndices, hAt⟩
        unfold World.unsentWeight
        change ((w.store.indexToPlayer.get (round, indices.getD round 0)).bind fun who' =>
            (w.store.players.insert who { player with sentReport := true }).get
                who').elim 0 _ + _ ≤ _
        rw [hWho, Option.bind_some, Option.bind_some, StorageMap.get_insert_self, hGet]
        simp [hSent]
      · rw [if_neg hDue, Nat.add_zero]
        split_ifs
        · exact sum_map_le_sum_map _ fun index _ => hUnsent round index
        · exact Nat.le_refl _
  refine AllFair.insert hFair (fun who' _ => hLe who') ?_
  exact ((hFair who player hGet).mono (hLe who)).sent

end Report

--
-- Votes of One Report
--

/- What decides the votes that are out. -/
def Player.voting (player : Player) : Bool × Nat :=
  (player.sentReport, player.voteWeight)

structure SameVoting (w w' : World T) : Prop where
  indexToPlayer : w'.store.indexToPlayer = w.store.indexToPlayer
  playerToIndex : w'.store.playerToIndex = w.store.playerToIndex
  voting : ∀ who,
      (w'.store.players.get who).map Player.voting
        = (w.store.players.get who).map Player.voting

namespace SameVoting

variable {w w' w'' : World T}

theorem refl (w : World T) : SameVoting w w :=
  ⟨rfl, rfl, fun _ => rfl⟩

theorem trans (hFirst : SameVoting w w') (hSecond : SameVoting w' w'') :
    SameVoting w w'' where
  indexToPlayer := hSecond.indexToPlayer.trans hFirst.indexToPlayer
  playerToIndex := hSecond.playerToIndex.trans hFirst.playerToIndex
  voting := fun who => (hSecond.voting who).trans (hFirst.voting who)

theorem setPlayer {player player' : Player} (hGet : w.store.players.get who = some player)
    (hVoting : player'.voting = player.voting) :
    SameVoting w (w.setPlayer who player') where
  indexToPlayer := rfl
  playerToIndex := rfl
  voting := by
    intro who'
    change ((w.store.players.insert who player').get who').map _ = _
    rw [StorageMap.get_insert]
    split_ifs with hSame
    · subst hSame
      rw [hGet, Option.map_some, Option.map_some, hVoting]
    · rfl

theorem unsentWeight (hSame : SameVoting w w') (round index : Nat) :
    w'.unsentWeight round index = w.unsentWeight round index := by
  unfold World.unsentWeight
  rw [hSame.indexToPlayer]
  cases w.store.indexToPlayer.get (round, index) with
  | none => rfl
  | some who =>
    rw [Option.bind_some, Option.bind_some]
    have hVoting := hSame.voting who
    cases hGet : w.store.players.get who with
    | none =>
      rw [hGet, Option.map_none, Option.map_eq_none_iff] at hVoting
      rw [hVoting]
    | some player =>
      rw [hGet, Option.map_some, Option.map_eq_some_iff] at hVoting
      rcases hVoting with ⟨player', hGet', hEq⟩
      rcases Prod.mk.inj hEq with ⟨hSent, hWeight⟩
      rw [hGet', Option.elim_some, Option.elim_some, hSent, hWeight]

theorem outOf (hSame : SameVoting w w') (setting : GroupsSetting) (rounds : Nat) (who : T.Who) :
    w'.outOf setting rounds who = w.outOf setting rounds who := by
  have hUnsent : ∀ round, w'.unsentWeight round = w.unsentWeight round :=
    fun round => funext (hSame.unsentWeight round)
  unfold World.outOf World.roundOut
  rw [hSame.playerToIndex]
  simp only [hUnsent]

end SameVoting

/- The vote of a report for a player in one round. -/
def memberDue (w : World T) (weight round : Nat) (members : List Nat) (who : T.Who) : Nat :=
  match w.store.playerToIndex.get who with
  | none => 0
  | some indices =>
    if indices.getD round 0 ∈ members then weight else 0

theorem countVote_voting (weight : Nat) (report : Report) (player : Player) :
    (World.countVote weight report player).voting = player.voting := by
  cases report <;> rfl

section Members

variable
  {seen : Seen T}
  {lineup : Lineup T}
  {w : World T}
  {game : GameInfo T.Who}
  {playerCount weight : Nat}
  {base : T.Who → Nat}
  {acc acc' : World T × List T.Who}
  (hDrawn : Drawn seen lineup game.rounds playerCount w.board)

include hDrawn

/- The votes of one round are cast one by one. -/
theorem AllFair.reportMembers {round : Nat} {entries : List (Nat × Report)}
    (hFold : entries.foldlM (World.reportMember weight round) acc = .ok acc')
    (hSame : SameVoting w acc.1) (hNodup : (entries.map Prod.fst).Nodup)
    (hFair : AllFair (fun who =>
          base who + memberDue w weight round (entries.map Prod.fst) who)
        acc.1.store.players) :
    SameVoting w acc'.1 ∧ AllFair base acc'.1.store.players := by
  induction entries generalizing acc with
  | nil =>
    obtain rfl := Except.ok.inj hFold
    exact ⟨hSame, hFair.mono fun who => Nat.le_add_right _ _⟩
  | cons entry entries ih =>
    rw [List.foldlM_cons, Except.bind_eq_ok] at hFold
    rcases hFold with ⟨acc₁, hStep, hRest⟩
    rw [List.map_cons, List.nodup_cons] at hNodup
    unfold World.reportMember at hStep
    simp only [Except.bind_eq_ok, okOr_eq_ok_iff, Except.pure_eq_ok] at hStep
    rcases hStep with ⟨reported, hIndex, player, hGet, rfl⟩
    have hVoted : SameVoting w (acc.1.setPlayer reported (World.countVote weight entry.2 player)) :=
      hSame.trans (SameVoting.setPlayer hGet (countVote_voting _ _ _))
    rw [hSame.indexToPlayer] at hIndex
    rcases hDrawn.seated.player_of_index hIndex with ⟨indices, hIndices, hAt⟩
    change w.store.playerToIndex.get reported = some indices at hIndices
    have hGetD : indices.getD round 0 = entry.1 := by
      rw [List.getD_eq_getElem?_getD, hAt, Option.getD_some]
    have hNow : memberDue w weight round ((entry :: entries).map Prod.fst) reported = weight := by
      unfold memberDue
      rw [hIndices]
      dsimp only
      rw [hGetD, if_pos (by simp)]
    have hThen : memberDue w weight round (entries.map Prod.fst) reported = 0 := by
      unfold memberDue
      rw [hIndices]
      dsimp only
      rw [hGetD, if_neg hNodup.1]
    refine ih hRest hVoted hNodup.2 ?_
    refine AllFair.insert hFair ?_ ?_
    · intro who _
      have hLess : memberDue w weight round (entries.map Prod.fst) who ≤ memberDue w weight round
                ((entry :: entries).map Prod.fst) who := by
        unfold memberDue
        cases w.store.playerToIndex.get who with
        | none => exact Nat.le_refl _
        | some indices' =>
          dsimp only
          split_ifs with hIn hAll
          · exact Nat.le_refl _
          · exact absurd (List.mem_cons_of_mem _ hIn) hAll
          · exact Nat.zero_le _
          · exact Nat.le_refl _
      omega
    · have hPlayer := hFair reported player hGet
      dsimp only at hPlayer ⊢
      rw [hNow] at hPlayer
      refine hPlayer.vote ?_ entry.2
      rw [hThen]
      omega

variable {fullReport : List (List Report)} {reporterIndices : List Nat}

/- One round of a report is counted. -/
theorem AllFair.reportRound {round : Nat} {rest : List Nat} (hSetup : SetupOk T game)
    (hReport : World.reportRound weight (settingOf game playerCount)
        reporterIndices fullReport acc round = .ok acc')
    (hSame : SameVoting w acc.1)
    (hFair : AllFair (fun who => base who
            + dueOf w (settingOf game playerCount) weight reporterIndices (round :: rest) who)
        acc.1.store.players) :
    SameVoting w acc'.1 ∧ AllFair (fun who => base who
            + dueOf w (settingOf game playerCount) weight reporterIndices rest who)
        acc'.1.store.players := by
  have hSize : 0 < (settingOf game playerCount).fullGroupSize := by
    have hMin := hSetup.minGroupSize_lt
    change 0 < game.maxGroupSize
    omega
  have hCount : (settingOf game playerCount).playerCount ≤ u32Max := by
    change playerCount ≤ u32Max
    have hEq := hDrawn.playerCount_eq
    omega
  unfold World.reportRound at hReport
  simp only [Except.bind_eq_ok, okOr_eq_ok_iff, ensure_eq_ok_iff, exists_const] at hReport
  rcases hReport with ⟨reports, _, reporterIndex, hReporter, hMember, hLength, hFold⟩
  have hLt := GroupsSetting.lt_of_mem_groupMembers hMember
  change (((settingOf game playerCount).otherMembers reporterIndex).zip reports).foldlM
      (World.reportMember weight round) acc = .ok acc' at hFold
  have hFst : (((settingOf game playerCount).otherMembers reporterIndex).zip reports).map Prod.fst
        = (settingOf game playerCount).otherMembers reporterIndex :=
    List.map_fst_zip hLength.le
  have hNodup := GroupsSetting.otherMembers_nodup hCount hSize hLt
  rw [← hFst] at hNodup
  refine AllFair.reportMembers hDrawn hFold hSame hNodup ?_
  refine hFair.mono ?_
  intro who
  have hDue : memberDue w weight round ((settingOf game playerCount).otherMembers reporterIndex) who
        + dueOf w (settingOf game playerCount) weight reporterIndices rest who
        ≤ dueOf w (settingOf game playerCount) weight reporterIndices (round :: rest) who := by
    unfold memberDue dueOf
    cases w.store.playerToIndex.get who with
    | none => exact Nat.le_refl _
    | some indices =>
      dsimp only
      rw [List.map_cons, List.sum_cons]
      apply Nat.add_le_add_right
      unfold roundDue
      have hGetD : reporterIndices.getD round 0 = reporterIndex := by
        rw [List.getD_eq_getElem?_getD, hReporter, Option.getD_some]
      rw [hGetD]
      split_ifs with hIn hAll
      · exact Nat.le_refl _
      · exact absurd ⟨hLt, hIn⟩ hAll
      · exact Nat.zero_le _
      · exact Nat.le_refl _
  rw [hFst]
  omega

/- All rounds of a report are counted. -/
theorem AllFair.reportRounds {rounds : List Nat} (hSetup : SetupOk T game)
    (hReport : rounds.foldlM (World.reportRound weight (settingOf game playerCount)
        reporterIndices fullReport) acc = .ok acc')
    (hSame : SameVoting w acc.1)
    (hFair : AllFair (fun who => base who
            + dueOf w (settingOf game playerCount) weight reporterIndices rounds who)
        acc.1.store.players) :
    SameVoting w acc'.1 ∧ AllFair base acc'.1.store.players := by
  induction rounds generalizing acc with
  | nil =>
    obtain rfl := Except.ok.inj hReport
    exact ⟨hSame, hFair.mono fun who => Nat.le_add_right _ _⟩
  | cons round rounds ih =>
    rw [List.foldlM_cons, Except.bind_eq_ok] at hReport
    rcases hReport with ⟨acc₁, hStep, hRest⟩
    have hCounted := AllFair.reportRound hDrawn hSetup hStep hSame hFair
    exact ih hRest hCounted.1 hCounted.2

end Members

end Individuality.Game
