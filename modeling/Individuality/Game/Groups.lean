import Individuality.Game.Residue

/-
  The groups of a round, and the votes that the members of a group have for one another.

  Main declaration: `GroupsSetting.otherMembers`
-/

namespace Individuality.Game

variable {T : Config} {group index round playerIndex : Nat} {indices : List Nat} {who : T.Who}

namespace GroupsSetting

variable {setting : GroupsSetting}

/- The members of the group of a player, without it. -/
def otherMembers (setting : GroupsSetting) (playerIndex : Nat) : List Nat :=
  (setting.groupMembers (setting.groupIndexFromPlayerIndex playerIndex)).filter (· ≠ playerIndex)

theorem lt_of_mem_groupMembers (hMem : index ∈ setting.groupMembers group) :
    index < setting.playerCount :=
  of_decide_eq_true (List.mem_filter.mp hMem).2

theorem lt_of_mem_otherMembers (hMem : index ∈ setting.otherMembers playerIndex) :
    index < setting.playerCount :=
  lt_of_mem_groupMembers (List.mem_filter.mp hMem).1

section Sizes

/- Counts of players are 32 bit, and groups are not empty. -/
variable
  (hCount : setting.playerCount ≤ u32Max)
  (hSize : 0 < setting.fullGroupSize)

include hCount hSize

/- There are as many groups as full ones would need. -/
theorem numberOfGroup_spec : setting.numberOfGroup ≤ u32Max
      ∧ setting.playerCount ≤ setting.numberOfGroup * setting.fullGroupSize
      ∧ (0 < setting.playerCount → 0 < setting.numberOfGroup) := by
  have hDiv := Nat.div_add_mod setting.playerCount setting.fullGroupSize
  have hMod := Nat.mod_lt setting.playerCount hSize
  have hLe : setting.playerCount / setting.fullGroupSize ≤ setting.playerCount :=
    Nat.div_le_self _ _
  have hComm : setting.fullGroupSize * (setting.playerCount / setting.fullGroupSize)
        = setting.playerCount / setting.fullGroupSize * setting.fullGroupSize :=
    Nat.mul_comm _ _
  unfold numberOfGroup
  rw [if_neg (by omega)]
  dsimp only
  split_ifs with hFull
  · refine ⟨by omega, by omega, ?_⟩
    intro hPos
    apply Nat.pos_of_ne_zero
    intro hZero
    rw [hZero, Nat.mul_zero] at hDiv
    omega
  · -- a group that is not full is one more
    have hNext : setting.playerCount / setting.fullGroupSize + 1 ≤ setting.playerCount := by
      have hMul : setting.playerCount / setting.fullGroupSize
            ≤ setting.playerCount / setting.fullGroupSize * setting.fullGroupSize :=
        Nat.le_mul_of_pos_right _ hSize
      omega
    rw [saturatingAdd_of_le (by omega)]
    refine ⟨by omega, ?_, fun _ => Nat.succ_pos _⟩
    rw [Nat.add_mul]
    omega

/- The members of a group are those with its remainder. -/
theorem mem_groupMembers_iff (hGroup : group < setting.numberOfGroup) :
    index ∈ setting.groupMembers group ↔ index < setting.playerCount
        ∧ setting.groupIndexFromPlayerIndex index = group := by
  rcases numberOfGroup_spec hCount hSize with ⟨_, hAll, _⟩
  unfold groupMembers groupIndexFromPlayerIndex
  rw [List.mem_filter, List.mem_map, decide_eq_true_eq, if_neg (by omega)]
  constructor
  · rintro ⟨⟨i, _, hIndex⟩, hLt⟩
    refine ⟨hLt, ?_⟩
    -- below the count of players nothing is saturated
    unfold saturatingAdd saturatingMul at hIndex
    have hExact : index = group + i * setting.numberOfGroup := by
      omega
    rw [hExact, Nat.add_mul_mod_self_right, Nat.mod_eq_of_lt hGroup]
  · rintro ⟨hLt, hMod⟩
    refine ⟨⟨index / setting.numberOfGroup, ?_, ?_⟩, hLt⟩
    · rw [List.mem_range]
      apply Nat.div_lt_of_lt_mul
      omega
    · have hDiv := Nat.div_add_mod index setting.numberOfGroup
      rw [hMod, Nat.mul_comm] at hDiv
      unfold saturatingAdd saturatingMul
      omega

theorem groupIndex_lt (hLt : index < setting.playerCount) :
    setting.groupIndexFromPlayerIndex index < setting.numberOfGroup := by
  have hPos := (numberOfGroup_spec hCount hSize).2.2 (by omega)
  unfold groupIndexFromPlayerIndex
  rw [if_neg (by omega)]
  exact Nat.mod_lt _ hPos

theorem mem_otherMembers_iff (hLt : playerIndex < setting.playerCount) :
    index ∈ setting.otherMembers playerIndex ↔ index < setting.playerCount
        ∧ setting.groupIndexFromPlayerIndex index = setting.groupIndexFromPlayerIndex playerIndex
        ∧ index ≠ playerIndex := by
  unfold otherMembers
  rw [List.mem_filter, decide_eq_true_eq, mem_groupMembers_iff hCount hSize
      (groupIndex_lt hCount hSize hLt),
    and_assoc]

/- Membership in a group is mutual. -/
theorem mem_otherMembers_comm {i j : Nat} (hI : i < setting.playerCount)
    (hJ : j < setting.playerCount) :
    i ∈ setting.otherMembers j ↔ j ∈ setting.otherMembers i := by
  rw [mem_otherMembers_iff hCount hSize hJ, mem_otherMembers_iff hCount hSize hI]
  constructor
  · exact fun h => ⟨hJ, h.2.1.symm, Ne.symm h.2.2⟩
  · exact fun h => ⟨hI, h.2.1.symm, Ne.symm h.2.2⟩

omit hSize in
theorem groupMembers_nodup (hGroup : group < setting.numberOfGroup) :
    (setting.groupMembers group).Nodup := by
  unfold groupMembers
  rw [List.filter_map]
  refine List.Nodup.map_on ?_ (List.nodup_range.filter _)
  intro i hI j hJ hEq
  rw [List.mem_filter] at hI hJ
  have hLtI := of_decide_eq_true hI.2
  have hLtJ := of_decide_eq_true hJ.2
  unfold saturatingAdd saturatingMul at hEq hLtI hLtJ
  dsimp only at hEq hLtI hLtJ
  have hMul : i * setting.numberOfGroup = j * setting.numberOfGroup := by
    omega
  exact Nat.eq_of_mul_eq_mul_right (by omega) hMul

theorem otherMembers_nodup (hLt : playerIndex < setting.playerCount) :
    (setting.otherMembers playerIndex).Nodup :=
  (groupMembers_nodup hCount (groupIndex_lt hCount hSize hLt)).filter _

/- A player has one member less than a full group with it. -/
theorem length_otherMembers_lt (hLt : playerIndex < setting.playerCount) :
    (setting.otherMembers playerIndex).length < setting.fullGroupSize := by
  have hMem : playerIndex ∈ setting.groupMembers (setting.groupIndexFromPlayerIndex playerIndex) :=
    (mem_groupMembers_iff hCount hSize (groupIndex_lt hCount hSize hLt)).mpr ⟨hLt, rfl⟩
  have hLength : (setting.groupMembers (setting.groupIndexFromPlayerIndex
          playerIndex)).length ≤ setting.fullGroupSize := by
    unfold groupMembers
    refine (List.length_filter_le _ _).trans ?_
    rw [List.length_map, List.length_range]
  have hLess : (setting.otherMembers playerIndex).length
        < (setting.groupMembers (setting.groupIndexFromPlayerIndex playerIndex)).length := by
    unfold otherMembers
    rw [List.length_filter_lt_length_iff_exists]
    exact ⟨playerIndex, hMem, by simp⟩
  omega

end Sizes

end GroupsSetting

--
-- Votes
--

namespace World

/- The vote weight of who has an index in a round. -/
def voteWeightAt (w : World T) (round index : Nat) : Nat :=
  ((w.store.indexToPlayer.get (round, index)).bind
    fun who => w.store.players.get who).elim 0 Player.voteWeight

/- The vote weights of the other members of some groups. -/
def groupVotes (w : World T) (setting : GroupsSetting) (rounds : Nat) (indices : List Nat) : Nat :=
  ((List.range rounds).map fun round =>
    ((setting.otherMembers (indices.getD round 0)).map (w.voteWeightAt round)).sum).sum

end World

theorem map_eq_map_range {β : Type} (f : Nat → β) (l : List Nat) :
    l.map f = (List.range l.length).map fun i => f (l.getD i 0) := by
  apply List.ext_getElem
  · rw [List.length_map, List.length_map, List.length_range]
  · intro i hLeft _
    rw [List.length_map] at hLeft
    rw [List.getElem_map, List.getElem_map, List.getElem_range,
      List.getD_eq_getElem?_getD, List.getElem?_eq_getElem hLeft,
      Option.getD_some]

/- The expected votes, round by round. -/
theorem totalWeight_eq_sum {setting : GroupsSetting} {recognizedCount rounds : Nat}
    (hLength : indices.length = rounds) :
    World.totalWeight T setting recognizedCount indices rounds
      = ((List.range rounds).map fun round =>
          ((setting.otherMembers (indices.getD round 0)).map fun index =>
              World.voteWeightOf T (decide (index < recognizedCount))).sum).sum := by
  unfold World.totalWeight
  rw [List.take_of_length_le hLength.le, map_eq_map_range, hLength]
  rfl

theorem sum_map_le {β : Type} {f : β → Nat} {bound : Nat} (l : List β)
    (hLe : ∀ b ∈ l, f b ≤ bound) :
    (l.map f).sum ≤ l.length * bound := by
  induction l with
  | nil => exact Nat.zero_le _
  | cons b l ih =>
    have hHead := hLe b List.mem_cons_self
    have hTail := ih fun c hMem => hLe c (List.mem_cons_of_mem _ hMem)
    rw [List.map_cons, List.sum_cons, List.length_cons, Nat.add_mul, Nat.one_mul]
    omega

/- No product of the bounds of the configuration saturates. -/
theorem votes_le {rounds size weight : Nat} (hRounds : rounds ≤ T.maxRounds)
    (hSize : size ≤ T.maxGroupSize - 1)
    (hWeight : weight = T.peopleVoteWeight ∨ weight = T.candidateVoteWeight) :
    rounds * (size * weight) ≤ u8Max := by
  have hBound : saturatingMul u32Max T.maxRounds (T.maxGroupSize - 1) * weight ≤ u8Max := by
    rcases hWeight with rfl | rfl
    · exact T.peopleVotes_le
    · exact T.candidateVotes_le
  have hMul : rounds * size ≤ T.maxRounds * (T.maxGroupSize - 1) := Nat.mul_le_mul hRounds hSize
  rw [← Nat.mul_assoc]
  rcases Nat.eq_zero_or_pos weight with rfl | hPos
  · exact Nat.zero_le _
  · unfold saturatingMul at hBound
    by_cases hSmall : T.maxRounds * (T.maxGroupSize - 1) ≤ u32Max
    · rw [Nat.min_eq_left hSmall] at hBound
      exact (Nat.mul_le_mul_right weight hMul).trans hBound
    · rw [Nat.min_eq_right (by omega)] at hBound
      have hLarge : u32Max ≤ u32Max * weight := Nat.le_mul_of_pos_right _ hPos
      have hOrder : u8Max < u32Max := by decide
      omega

/- The votes in the groups of some indices fit in a byte. -/
theorem groupSum_le {game : GameInfo T.Who} {playerCount : Nat} {f : Nat → Nat → Nat}
    (indexOf : Nat → Nat) (hSetup : SetupOk T game) (hCount : playerCount ≤ u32Max)
    (hWeight : ∀ round index, f round index ≤ T.peopleVoteWeight
        ∨ f round index ≤ T.candidateVoteWeight) :
    ((List.range game.rounds).map fun round =>
      if indexOf round < playerCount then
        ((GroupsSetting.otherMembers
            { fullGroupSize := game.maxGroupSize
              playerCount := playerCount }
            (indexOf round)).map (f round)).sum
      else
        0).sum
      ≤ u8Max := by
  have hSize : 0 < game.maxGroupSize := by
    have hMin := hSetup.minGroupSize_lt
    omega
  have hMax := hSetup.maxGroupSize_le
  have hOne : ∀ weight, (∀ round index, f round index ≤ weight) → ∀ round ∈ List.range game.rounds,
          (if indexOf round < playerCount then
            ((GroupsSetting.otherMembers
                { fullGroupSize := game.maxGroupSize
                  playerCount := playerCount }
                (indexOf round)).map (f round)).sum
          else
            0)
            ≤ (T.maxGroupSize - 1) * weight := by
    intro weight hLe round _
    split_ifs with hIndex
    · have hLength : (GroupsSetting.otherMembers
              { fullGroupSize := game.maxGroupSize
                playerCount := playerCount }
              (indexOf round)).length < game.maxGroupSize :=
        GroupsSetting.length_otherMembers_lt hCount hSize hIndex
      refine (sum_map_le _ fun index _ => hLe round index).trans ?_
      exact Nat.mul_le_mul_right weight (by omega)
    · exact Nat.zero_le _
  rcases Nat.le_total T.candidateVoteWeight T.peopleVoteWeight with
    hOrder | hOrder
  · refine (sum_map_le _ (hOne T.peopleVoteWeight ?_)).trans ?_
    · intro round index
      rcases hWeight round index with hLe | hLe
      · exact hLe
      · exact hLe.trans hOrder
    · rw [List.length_range]
      exact votes_le hSetup.rounds_le (Nat.le_refl _) (Or.inl rfl)
  · refine (sum_map_le _ (hOne T.candidateVoteWeight ?_)).trans ?_
    · intro round index
      rcases hWeight round index with hLe | hLe
      · exact hLe.trans hOrder
      · exact hLe
    · rw [List.length_range]
      exact votes_le hSetup.rounds_le (Nat.le_refl _) (Or.inr rfl)

/- The population tells the vote weight of a row. -/
theorem Lined.voteWeight_row
    {seen : Seen T} {visited : T.Who → Prop} {lineup : Lineup T} {b : Board T} {player : Player}
    (hLined : Lined seen visited lineup b) (hRow : (lineup.row round)[index]? = some who)
    (hPlayer : b.players.get who = some player) :
    player.voteWeight = World.voteWeightOf T (decide (index < lineup.people.length)) := by
  unfold Lineup.row at hRow
  by_cases hPeople : index < lineup.people.length
  · rw [decide_eq_true hPeople]
    rw [List.getElem?_append_left (by rw [Lineup.length_partRow]; exact hPeople)] at hRow
    exact hLined.voteWeight true who (Lineup.mem_partRow.mp (List.mem_of_getElem? hRow)) player
        hPlayer
  · rw [decide_eq_false hPeople]
    rw [List.getElem?_append_right (by
        rw [Lineup.length_partRow]
        exact Nat.not_lt.mp hPeople)] at hRow
    exact hLined.voteWeight false who (Lineup.mem_partRow.mp (List.mem_of_getElem? hRow)) player
        hPlayer

section Complete

variable
  {seen : Seen T}
  {lineup : Lineup T}
  {w : World T}
  {game : GameInfo T.Who}
  {playerCount : Nat}
  (hDrawn : Drawn seen lineup game.rounds playerCount w.board)
  (hCount : lineup.inserted.length ≤ u32Max)

include hDrawn hCount

theorem Drawn.playerCount_length : playerCount = lineup.inserted.length := by
  rw [hDrawn.playerCount_eq]
  exact Nat.min_eq_left hCount

omit hCount in
/- The rows are drawn under the numbers of their positions. -/
theorem Drawn.seated_row : Seated game.rounds u32Max lineup.row
      (fun r => (lineup.row r).length)
      w.board.indexToPlayer w.board.playerToIndex :=
  hDrawn.seated.congr fun r _ => Lineup.length_row r

theorem Drawn.get_indexToPlayer_iff (hRound : round < game.rounds) :
    w.store.indexToPlayer.get (round, index) = some who ↔ (lineup.row round)[index]? = some who :=
  hDrawn.seated_row.get_indexToPlayer_iff (fun r => by rw [Lineup.length_row]; exact hCount) hRound

theorem Drawn.playerToIndex_iff (hRound : round < game.rounds) :
    (∃ indices, w.store.playerToIndex.get who = some indices ∧ indices[round]? = some index)
      ↔ w.store.indexToPlayer.get (round, index) = some who :=
  hDrawn.seated_row.playerToIndex_iff (fun r => by rw [Lineup.length_row]; exact hCount)
    (fun r s who hMem => Lineup.mem_row.mpr (Lineup.mem_row.mp hMem))
    hRound

/- The population tells the vote weight of an index. -/
theorem Drawn.voteWeightAt_eq (hRound : round < game.rounds) (hIndex : index < playerCount) :
    w.voteWeightAt round index = World.voteWeightOf T (decide (index < lineup.people.length)) := by
  rw [hDrawn.playerCount_length hCount] at hIndex
  have hLt : index < (lineup.row round).length := by
    rw [Lineup.length_row]
    exact hIndex
  have hRow := List.getElem?_eq_getElem hLt
  generalize (lineup.row round)[index] = who at hRow
  have hGet := (hDrawn.get_indexToPlayer_iff hCount hRound).mpr hRow
  have hMem := Lineup.mem_row.mp (List.mem_of_getElem? hRow)
  rcases ((hDrawn.lined.mem_iff who).mp hMem).1 with ⟨player, hPlayer, _⟩
  have hWeight : w.voteWeightAt round index = player.voteWeight := by
    unfold World.voteWeightAt
    change w.store.players.get who = some player at hPlayer
    rw [hGet, Option.bind_some, hPlayer]
    rfl
  rw [hWeight]
  exact hDrawn.lined.voteWeight_row hRow hPlayer

/- The indices of a player are numbers of players. -/
theorem Drawn.indices_lt (hGet : w.store.playerToIndex.get who = some indices)
    (hRound : round < game.rounds) :
    indices[round]? = some (indices.getD round 0) ∧ indices.getD round 0 < playerCount := by
  have hLength := hDrawn.seated.length_eq who indices hGet
  have hLt : round < indices.length := by
    rw [hLength]
    exact hRound
  have hIndex : indices[round]? = some (indices.getD round 0) := by
    rw [List.getD_eq_getElem?_getD, List.getElem?_eq_getElem hLt, Option.getD_some]
  refine ⟨hIndex, ?_⟩
  have hOf := (hDrawn.playerToIndex_iff hCount hRound).mp ⟨indices, hGet, hIndex⟩
  have hRow := (hDrawn.get_indexToPlayer_iff hCount hRound).mp hOf
  have hBound := (List.getElem?_eq_some_iff.mp hRow).1
  rw [Lineup.length_row] at hBound
  rw [hDrawn.playerCount_length hCount]
  exact hBound

/- The expected votes are those of the other members. -/
theorem Drawn.totalWeight_eq (hGet : w.store.playerToIndex.get who = some indices) :
    World.totalWeight T
        { fullGroupSize := game.maxGroupSize
          playerCount := playerCount }
        (min lineup.people.length u32Max) indices game.rounds
      = w.groupVotes
          { fullGroupSize := game.maxGroupSize
            playerCount := playerCount }
          game.rounds indices := by
  have hPeople : lineup.people.length ≤ u32Max := by
    refine Nat.le_trans ?_ hCount
    unfold Lineup.inserted
    rw [List.length_append]
    exact Nat.le_add_right _ _
  rw [totalWeight_eq_sum (hDrawn.seated.length_eq who indices hGet), Nat.min_eq_left hPeople]
  unfold World.groupVotes
  refine congrArg List.sum (List.map_congr_left ?_)
  intro round hMem
  refine congrArg List.sum (List.map_congr_left ?_)
  intro index hIndex
  exact (hDrawn.voteWeightAt_eq hCount (List.mem_range.mp hMem)
      (GroupsSetting.lt_of_mem_otherMembers hIndex)).symm

/- So they are never capped. -/
theorem Drawn.expected_eq {player : Player} (hSetup : SetupOk T game)
    (hWeighed : Weighed lineup game playerCount (fun _ => True) w.board)
    (hIndices : w.store.playerToIndex.get who = some indices)
    (hGet : w.store.players.get who = some player) :
    player.expectedMaxVoteWeight = w.groupVotes
            { fullGroupSize := game.maxGroupSize
              playerCount := playerCount }
            game.rounds indices
      ∧ player.expectedMaxVoteWeight ≤ u8Max := by
  have hExpected := hWeighed who indices player trivial hIndices hGet
  have hTotal := hDrawn.totalWeight_eq hCount hIndices
  have hBound : World.totalWeight T
          { fullGroupSize := game.maxGroupSize
            playerCount := playerCount }
          (min lineup.people.length u32Max) indices game.rounds
        ≤ u8Max := by
    rw [totalWeight_eq_sum (hDrawn.seated.length_eq who indices hIndices)]
    have hIndices' : ∀ round ∈ List.range game.rounds, indices.getD round 0 < playerCount :=
      fun round hMem =>
        (hDrawn.indices_lt hCount hIndices (List.mem_range.mp hMem)).2
    have hGuard : ((List.range game.rounds).map fun round =>
          ((GroupsSetting.otherMembers
              { fullGroupSize := game.maxGroupSize
                playerCount := playerCount }
              (indices.getD round 0)).map fun index =>
            World.voteWeightOf T (decide (index < min lineup.people.length u32Max))).sum)
          = (List.range game.rounds).map fun round =>
            if indices.getD round 0 < playerCount then
              ((GroupsSetting.otherMembers
                  { fullGroupSize := game.maxGroupSize
                    playerCount := playerCount }
                  (indices.getD round 0)).map fun index =>
                World.voteWeightOf T (decide (index < min lineup.people.length u32Max))).sum
            else
              0 :=
      List.map_congr_left fun round hMem => (if_pos (hIndices' round hMem)).symm
    rw [hGuard]
    refine groupSum_le _ hSetup ?_ ?_
    · rw [hDrawn.playerCount_length hCount]
      exact hCount
    · intro round index
      unfold World.voteWeightOf
      split_ifs
      · exact Or.inl (Nat.le_refl _)
      · exact Or.inr (Nat.le_refl _)
  have hSmall : u8Max ≤ World.maxU16 := by decide
  rw [Nat.min_eq_left (hBound.trans hSmall)] at hExpected
  rw [hExpected]
  exact ⟨hTotal, hBound⟩

end Complete

end Individuality.Game
