import Individuality.Game.Groups
import Mathlib.Data.Int.CardIntervalMod

/-
  The groups of a round are a fair partition of the players: they differ by at most one member, and
  by at most one member that is recognized.

  Main declaration: `GroupsSetting.groups_fair`
-/

namespace Individuality.Game.GroupsSetting

/- How many members of a group have an index below `bound`. -/
def countBelow (setting : GroupsSetting) (group bound : Nat) : Nat :=
  (setting.groupMembers group).countP (· < bound)

variable {setting : GroupsSetting}

section Sizes

variable
  (hCount : setting.playerCount ≤ u32Max)
  (hSize : 0 < setting.fullGroupSize)

include hCount hSize

/- A group has every index with its remainder once. -/
theorem filter_perm {group bound : Nat} (hGroup : group < setting.numberOfGroup)
    (hBound : bound ≤ setting.playerCount) :
    ((setting.groupMembers group).filter (· < bound)).Perm ((List.range bound).filter
        fun index => index ≡ group [MOD setting.numberOfGroup])
    := by
  rw [List.perm_ext_iff_of_nodup ((groupMembers_nodup hCount hGroup).filter _)
    (List.nodup_range.filter _)]
  intro index
  rw [List.mem_filter, List.mem_filter, List.mem_range,
    mem_groupMembers_iff hCount hSize hGroup, decide_eq_true_eq,
    decide_eq_true_eq]
  unfold groupIndexFromPlayerIndex Nat.ModEq
  rw [if_neg (by omega), Nat.mod_eq_of_lt hGroup]
  constructor
  · rintro ⟨⟨_, hMod⟩, hLt⟩
    exact ⟨hLt, hMod⟩
  · rintro ⟨hLt, hMod⟩
    exact ⟨⟨Nat.lt_of_lt_of_le hLt hBound, hMod⟩, hLt⟩

/- The indices are dealt in turns. -/
theorem countBelow_eq {group bound : Nat} (hGroup : group < setting.numberOfGroup)
    (hBound : bound ≤ setting.playerCount) :
    setting.countBelow group bound = bound / setting.numberOfGroup
        + if group < bound % setting.numberOfGroup then 1 else 0 := by
  have hPos : 0 < setting.numberOfGroup := by omega
  have hTurns := Nat.count_modEq_card bound hPos group
  rw [Nat.mod_eq_of_lt hGroup] at hTurns
  unfold countBelow
  rw [List.countP_eq_length_filter, (filter_perm hCount hSize hGroup hBound).length_eq,
    ← hTurns, Nat.count, List.countP_eq_length_filter]

theorem length_groupMembers {group : Nat} (hGroup : group < setting.numberOfGroup) :
    (setting.groupMembers group).length = setting.playerCount / setting.numberOfGroup + if group
            < setting.playerCount % setting.numberOfGroup then 1
        else 0 := by
  rw [← countBelow_eq hCount hSize hGroup (Nat.le_refl _)]
  unfold countBelow
  symm
  rw [List.countP_eq_length]
  intro index hMem
  exact decide_eq_true (lt_of_mem_groupMembers hMem)

/- Two groups differ by one member of a prefix at most. -/
theorem countBelow_le_succ {group group' bound : Nat} (hGroup : group < setting.numberOfGroup)
    (hGroup' : group' < setting.numberOfGroup) (hBound : bound ≤ setting.playerCount) :
    setting.countBelow group bound ≤ setting.countBelow group' bound + 1 := by
  rw [countBelow_eq hCount hSize hGroup hBound, countBelow_eq hCount hSize hGroup' hBound]
  split_ifs <;> omega

omit hCount hSize in
theorem length_groupMembers_le (group : Nat) :
    (setting.groupMembers group).length ≤ setting.fullGroupSize := by
  unfold groupMembers
  refine (List.length_filter_le _ _).trans ?_
  rw [List.length_map, List.length_range]

/- The last group is the smallest. -/
theorem acceptablePlayerCount_iff (hPlayers : 0 < setting.playerCount)
    (hFits : (setting.fullGroupSize - 1) * setting.numberOfGroup ≤ u32Max) :
    setting.acceptablePlayerCount = true ↔ ∀ group, group < setting.numberOfGroup →
        setting.fullGroupSize - 1 ≤ (setting.groupMembers group).length := by
  have hGroups : 0 < setting.numberOfGroup := (numberOfGroup_spec hCount hSize).2.2 hPlayers
  have hQuotient : setting.acceptablePlayerCount = true ↔ setting.fullGroupSize - 1
          ≤ setting.playerCount / setting.numberOfGroup := by
    unfold acceptablePlayerCount
    rw [saturatingMul_of_le hFits, Nat.le_div_iff_mul_le hGroups, Bool.and_eq_true,
      decide_eq_true_eq, decide_eq_true_eq]
    exact and_iff_right hPlayers.ne'
  rw [hQuotient]
  constructor
  · intro hLe group hGroup
    rw [length_groupMembers hCount hSize hGroup]
    omega
  · intro hAll
    have hLast := hAll (setting.numberOfGroup - 1) (by omega)
    have hMod := Nat.mod_lt setting.playerCount hGroups
    rw [length_groupMembers hCount hSize (by omega), if_neg (by omega)] at hLast
    exact hLast

end Sizes

/-
  The groups partition the players.  Everybody is listed in their own group, and the members of a
  group see the same list.  No two groups differ by more than one member, or by more than one
  recognized member.
-/
theorem groups_fair (setting : GroupsSetting) (recognizedCount : Nat)
    (hPlayers : 1 ≤ setting.playerCount) (hCount : setting.playerCount ≤ u32Max)
    (hSize : 1 ≤ setting.fullGroupSize) (hRecognized : recognizedCount ≤ setting.playerCount)
    (hFits : (setting.fullGroupSize - 1) * setting.numberOfGroup ≤ u32Max) :
    (∀ index, index < setting.playerCount → ∃! group, group < setting.numberOfGroup
          ∧ index ∈ setting.groupMembers group)
      ∧ (∀ group, group < setting.numberOfGroup → (setting.groupMembers group).Nodup
          ∧ ∀ index ∈ setting.groupMembers group, index < setting.playerCount)
      ∧ (∀ index, index < setting.playerCount → index ∈ setting.groupMembers
          (setting.groupIndexFromPlayerIndex index)
          ∧ ∀ other ∈ setting.groupMembers (setting.groupIndexFromPlayerIndex index),
            setting.groupMembers (setting.groupIndexFromPlayerIndex other)
              = setting.groupMembers (setting.groupIndexFromPlayerIndex index))
      ∧ (∀ group group', group < setting.numberOfGroup →
          group' < setting.numberOfGroup → (setting.groupMembers group).length
                ≤ (setting.groupMembers group').length + 1
              ∧ (setting.groupMembers group).length ≤ setting.fullGroupSize
              ∧ setting.countBelow group recognizedCount
                ≤ setting.countBelow group' recognizedCount + 1)
      ∧ (setting.acceptablePlayerCount = true
          ↔ ∀ group, group < setting.numberOfGroup → setting.fullGroupSize - 1
              ≤ (setting.groupMembers group).length) := by
  have hMem : ∀ {group index : Nat}, group < setting.numberOfGroup →
        (index ∈ setting.groupMembers group ↔ index < setting.playerCount
            ∧ setting.groupIndexFromPlayerIndex index = group) :=
    fun hGroup => mem_groupMembers_iff hCount hSize hGroup
  have hIndex : ∀ {index : Nat}, index < setting.playerCount →
        setting.groupIndexFromPlayerIndex index < setting.numberOfGroup :=
    fun hLt => groupIndex_lt hCount hSize hLt
  refine ⟨?_, ?_, ?_, ?_, acceptablePlayerCount_iff hCount hSize hPlayers hFits⟩
  · intro index hLt
    refine ⟨setting.groupIndexFromPlayerIndex index,
        ⟨hIndex hLt, (hMem (hIndex hLt)).mpr ⟨hLt, rfl⟩⟩, ?_⟩
    rintro group ⟨hGroup, hListed⟩
    exact ((hMem hGroup).mp hListed).2.symm
  · intro group hGroup
    exact ⟨groupMembers_nodup hCount hGroup, fun index hListed => lt_of_mem_groupMembers hListed⟩
  · intro index hLt
    refine ⟨(hMem (hIndex hLt)).mpr ⟨hLt, rfl⟩, ?_⟩
    intro other hListed
    rw [((hMem (hIndex hLt)).mp hListed).2]
  · intro group group' hGroup hGroup'
    refine ⟨?_, length_groupMembers_le group, countBelow_le_succ hCount hSize hGroup hGroup'
        hRecognized⟩
    rw [length_groupMembers hCount hSize hGroup, length_groupMembers hCount hSize hGroup']
    split_ifs <;> omega

/- Seven players in two groups, five of them recognized. -/
theorem groups_fair_seven : GroupsSetting.groupMembers ⟨4, 7⟩ 0 = [0, 2, 4, 6]
      ∧ ∀ group group', group < 2 → group' < 2 → (GroupsSetting.groupMembers ⟨4, 7⟩ group).length
          ≤ (GroupsSetting.groupMembers ⟨4, 7⟩ group').length + 1 := by
  have hFair := groups_fair ⟨4, 7⟩ 5 (by decide) (by decide) (by decide) (by decide) (by decide)
  exact ⟨by decide, fun group group' hGroup hGroup' =>
      (hFair.2.2.2.1 group group' hGroup hGroup').1⟩

end Individuality.Game.GroupsSetting
