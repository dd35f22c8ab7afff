import Individuality.Base.Recent
import Individuality.CreditTrees.Buffers

/-
  What the nft-credits pallet files beside its roots and its
  awards: the expiry of each, and the blocks of each claimant.

  Main declaration: `credit_indices_agree`
-/

namespace Individuality

open StorageMap (get_foldl_remove get_insert get_remove)

namespace CreditTrees

open NftCredits

--
-- Due Entries
--

/-
  A sweep takes due entries, the oldest first, and leaves a
  due one only when it has taken as many as it may.
-/
structure SweepsDue (ttl now limit : Nat) (expiries expiries' : Expiries)
    (removed : List (Nat × Nat)) : Prop where
  due : ∀ key ∈ removed, expiries.get key = some () ∧ expiryDeadline key.1 ttl ≤ now
  ascending : removed.Pairwise fun a b => a.1 ≤ b.1
  nodup : removed.Nodup
  length_le : removed.length ≤ limit
  oldest : ∀ key,
      expiries.get key = some () →
      expiryDeadline key.1 ttl ≤ now →
      key ∉ removed →
        removed.length = limit ∧ ∀ other ∈ removed, other.1 ≤ key.1
  left : ∀ key,
      expiries'.get key
        = if key ∈ removed then none else expiries.get key

section Due

variable {twox : Nat → Nat} {ttl now limit : Nat} {expiries : Expiries}

instance : Std.Total (isBefore twox) where
  total := by
    intro a b
    unfold isBefore
    omega

instance : IsTrans (Nat × Nat) (isBefore twox) where
  trans := by
    intro a b c hFirst hSecond
    unfold isBefore at hFirst hSecond ⊢
    omega

theorem isBefore_le {a b : Nat × Nat} (hBefore : isBefore twox a b) :
    a.1 ≤ b.1 := by
  rcases hBefore with hLt | ⟨hEq, _⟩
  · exact Nat.le_of_lt hLt
  · exact Nat.le_of_eq hEq

theorem pairwise_iterKeys (twox : Nat → Nat) (expiries : Expiries) :
    (iterKeys twox expiries).Pairwise (isBefore twox) :=
  List.pairwise_insertionSort _ _

theorem mem_iterKeys_iff {key : Nat × Nat} :
    key ∈ iterKeys twox expiries ↔ expiries.get key = some () := by
  unfold iterKeys
  rw [List.mem_insertionSort, StorageMap.mem_keys_iff]
  constructor
  · intro hSome
    rcases Option.ne_none_iff_exists'.mp hSome with ⟨u, hGet⟩
    exact hGet
  · intro hGet
    rw [hGet]
    exact Option.some_ne_none _

/- Whatever is due comes before all that is not. -/
theorem takeWhile_iterKeys (twox : Nat → Nat) (ttl now : Nat) (expiries : Expiries) :
    (iterKeys twox expiries).takeWhile (fun key => decide (now ≥ expiryDeadline key.1 ttl))
      = (iterKeys twox expiries).filter fun key => decide (now ≥ expiryDeadline key.1 ttl) := by
  have hSorted := pairwise_iterKeys twox expiries
  generalize iterKeys twox expiries = sorted at hSorted ⊢
  induction sorted with
  | nil => rfl
  | cons key keys ih =>
    rw [List.pairwise_cons] at hSorted
    by_cases hDue : now ≥ expiryDeadline key.1 ttl
    · rw [List.takeWhile_cons_of_pos (by simpa using hDue),
        List.filter_cons_of_pos (by simpa using hDue),
        ih hSorted.2]
    · rw [List.takeWhile_cons_of_neg (by simpa using hDue),
        List.filter_cons_of_neg (by simpa using hDue)]
      symm
      rw [List.filter_eq_nil_iff]
      intro other hMem hOther
      have hLe := isBefore_le (hSorted.1 other hMem)
      rw [decide_eq_true_eq] at hOther
      unfold expiryDeadline saturatingAdd at hDue hOther
      omega

theorem sweepsDue_drainDueExpiries : SweepsDue ttl now limit expiries
      (drainDueExpiries twox ttl now limit expiries).2
      (dueExpiries twox ttl now limit expiries) := by
  have hSorted := pairwise_iterKeys twox expiries
  have hAll := takeWhile_iterKeys twox ttl now expiries
  constructor
  · intro key hMem
    exact mem_dueExpiries hMem
  · unfold dueExpiries
    rw [hAll]
    refine ((hSorted.sublist List.filter_sublist).sublist (List.take_sublist _ _)).imp ?_
    exact isBefore_le
  · have hNodup : (iterKeys twox expiries).Nodup := ((List.perm_insertionSort _ _).nodup_iff).mpr
        (AList.keys_nodup expiries)
    unfold dueExpiries
    rw [hAll]
    exact (hNodup.sublist List.filter_sublist).sublist (List.take_sublist _ _)
  · exact List.length_take_le _ _
  · intro key hGet hDue hNot
    have hMem : key ∈ (iterKeys twox expiries).filter
          fun key => decide (now ≥ expiryDeadline key.1 ttl) := by
      rw [List.mem_filter, decide_eq_true_eq]
      exact ⟨mem_iterKeys_iff.mpr hGet, hDue⟩
    have hDueSorted := hSorted.sublist (List.filter_sublist (p := fun key =>
        decide (now ≥ expiryDeadline key.1 ttl)))
    unfold dueExpiries at hNot ⊢
    rw [hAll] at hNot ⊢
    generalize ((iterKeys twox expiries).filter fun key => decide (now ≥ expiryDeadline key.1 ttl))
        = dues at hMem hDueSorted hNot ⊢
    rw [← List.take_append_drop limit dues] at hMem hDueSorted
    have hLater : key ∈ dues.drop limit := (List.mem_append.mp hMem).resolve_left hNot
    refine ⟨?_, ?_⟩
    · have hPos := List.length_pos_of_mem hLater
      rw [List.length_drop] at hPos
      rw [List.length_take]
      omega
    · intro other hOther
      exact isBefore_le ((List.pairwise_append.mp hDueSorted).2.2 other hOther key hLater)
  · intro key
    split_ifs with hMem
    · exact get_drainDueExpiries_of_mem hMem
    · exact get_drainDueExpiries_of_notMem hMem

end Due

--
-- Roots
--

/- Each root that is kept has an expiry under its timestamp. -/
structure RootsFiled {D : NftCredits.Config} (s : CreditsState D) : Prop where
  filed : ∀ timestamp block,
      s.rootExpiries.get (timestamp, block) = some ()
        ↔ ∃ tree,
          s.creditRoots.get block = some tree ∧ tree.timestamp = timestamp
  kept : ∀ block tree,
      s.creditRoots.get block = some tree → s.recorded.get block = some tree

namespace RootsFiled

variable {D : NftCredits.Config} {s : CreditsState D}

theorem recordRoot (hFiled : RootsFiled s) {block : Nat} (hNone : s.recorded.get block = none)
    (tree : NftClaimCreditTree) :
    RootsFiled (s.recordRoot block tree) where
  filed := by
    have hNoRoot : s.creditRoots.get block = none := by
      by_contra hSome
      rcases Option.ne_none_iff_exists'.mp hSome with ⟨root, hRoot⟩
      rw [hFiled.kept block root hRoot] at hNone
      cases hNone
    intro timestamp b
    unfold CreditsState.recordRoot
    dsimp only
    rw [get_insert, get_insert]
    by_cases hBlock : b = block
    · subst hBlock
      rw [if_pos rfl]
      by_cases hTime : timestamp = tree.timestamp
      · subst hTime
        rw [if_pos rfl]
        exact iff_of_true rfl ⟨tree, rfl, rfl⟩
      · rw [if_neg fun hKey => hTime (Prod.mk.inj hKey).1, hFiled.filed, hNoRoot]
        refine iff_of_false ?_ ?_
        · rintro ⟨_, hGet, _⟩
          cases hGet
        · rintro ⟨_, hGet, hSame⟩
          cases hGet
          exact hTime hSame.symm
    · rw [if_neg hBlock, if_neg fun hKey => hBlock (Prod.mk.inj hKey).2]
      exact hFiled.filed timestamp b
  kept := by
    intro b root hGet
    unfold CreditsState.recordRoot at hGet ⊢
    dsimp only at hGet ⊢
    rw [get_insert] at hGet ⊢
    split_ifs at hGet ⊢
    · exact hGet
    · exact hFiled.kept b root hGet

theorem queueCreditTreeDelivery (hFiled : RootsFiled s) (block : Nat) :
    RootsFiled (s.queueCreditTreeDelivery block) := by
  unfold CreditsState.queueCreditTreeDelivery
  split
  · exact ⟨hFiled.filed, hFiled.kept⟩
  · exact ⟨hFiled.filed, hFiled.kept⟩

/- A root goes with its expiry. -/
theorem removeCreditRoot (hFiled : RootsFiled s) (block : Nat) :
    RootsFiled (s.removeCreditRoot block) := by
  unfold CreditsState.removeCreditRoot
  cases hGet : s.creditRoots.get block with
  | none => exact hFiled
  | some tree =>
    constructor
    · intro timestamp b
      dsimp only
      rw [get_remove, get_remove]
      by_cases hBlock : b = block
      · subst hBlock
        rw [if_pos rfl]
        refine iff_of_false ?_ ?_
        · intro hSome
          split_ifs at hSome with hKey
          rcases (hFiled.filed timestamp b).mp hSome with ⟨root, hRoot, hTime⟩
          rw [hGet] at hRoot
          cases hRoot
          exact hKey (Prod.ext hTime.symm rfl)
        · rintro ⟨_, hNone, _⟩
          cases hNone
      · rw [if_neg hBlock, if_neg fun hKey => hBlock (Prod.mk.inj hKey).2]
        exact hFiled.filed timestamp b
    · intro b root hRoot
      dsimp only at hRoot
      rw [get_remove] at hRoot
      split_ifs at hRoot
      exact hFiled.kept b root hRoot

theorem foldl_removeCreditRoot (hFiled : RootsFiled s) (blocks : List Nat) :
    RootsFiled (blocks.foldl CreditsState.removeCreditRoot s) := by
  induction blocks generalizing s with
  | nil => exact hFiled
  | cons block blocks ih => exact ih (hFiled.removeCreditRoot block)

theorem doSweepExpiredRoots (hFiled : RootsFiled s) :
    RootsFiled s.doSweepExpiredRoots := by
  unfold CreditsState.doSweepExpiredRoots
  constructor
  · intro timestamp b
    dsimp only
    rw [get_foldl_remove]
    by_cases hKey : (timestamp, b) ∈ dueExpiries D.twox (rootTtl D) s.now D.maxRootsPerSweep
        s.rootExpiries
    · rw [get_drainDueExpiries_of_mem hKey, if_pos (mem_drainDueExpiries_iff.mpr ⟨timestamp, hKey⟩)]
      refine iff_of_false ?_ ?_
      · exact fun hNone => nomatch hNone
      · rintro ⟨_, hNone, _⟩
        cases hNone
    · rw [get_drainDueExpiries_of_notMem hKey, hFiled.filed]
      split_ifs with hBlock
      · -- the root was filed under the timestamp that is due
        refine iff_of_false ?_ ?_
        · rintro ⟨tree, hGet, hTime⟩
          rcases mem_drainDueExpiries_iff.mp hBlock with ⟨due, hDue⟩
          rcases (hFiled.filed due b).mp (mem_dueExpiries hDue).1 with ⟨root, hRoot, hRootTime⟩
          rw [hGet] at hRoot
          cases hRoot
          rw [← hTime, hRootTime] at hKey
          exact hKey hDue
        · rintro ⟨_, hNone, _⟩
          cases hNone
      · rfl
  · intro b root hRoot
    dsimp only at hRoot
    rw [get_foldl_remove] at hRoot
    split_ifs at hRoot
    exact hFiled.kept b root hRoot

/- Only the start of a block records a root. -/
theorem perform {C : Chains} {w w' : World C} {op : Op C} (hFiled : RootsFiled w.credits)
    (hOp : op.startsBlock = false) (hStep : w.perform op = .ok w') :
    RootsFiled w'.credits := by
  cases chainEffect_of_perform hStep with
  | initialized => cases hOp
  | sent room routed =>
    change RootsFiled (w.credits.doSendCreditTrees room routed).1
    unfold CreditsState.doSendCreditTrees
    split
    · exact hFiled
    · dsimp only
      split
      · exact hFiled
      · exact ⟨hFiled.filed, hFiled.kept⟩
  | swept => exact hFiled.doSweepExpiredRoots
  | deletionsDelivered message =>
    change RootsFiled (World.receiveDeletions w.credits message)
    unfold World.receiveDeletions
    split
    · exact hFiled.foldl_removeCreditRoot _
    · exact hFiled
  | replayed | creditsTimed | treesDelivered | claimed | deletionsSent =>
    exact ⟨hFiled.filed, hFiled.kept⟩

end RootsFiled

end CreditTrees

namespace NftCredits

open CreditTrees AwardingState

variable {C : AwardConfig} {s : AwardingState C}

--
-- Blocks of a Claimant
--

/- Noting a block keeps the most recent of all blocks. -/
theorem toList_noteBlock {blocks : BoundedVec Nat C.maxCreditBlocksPerClaimant} {all : List Nat}
    (hBlocks : blocks.toList = Recent.recent C.maxCreditBlocksPerClaimant all) (block : Nat) :
    (noteBlock blocks block).toList = Recent.recent C.maxCreditBlocksPerClaimant
        (Recent.noteLast all block) := by
  by_cases hZero : C.maxCreditBlocksPerClaimant = 0
  · -- nothing is ever kept
    have hLeft := (noteBlock blocks block).length_le
    have hRight := Recent.length_recent C.maxCreditBlocksPerClaimant (Recent.noteLast all block)
    have hNoted : (noteBlock blocks block).toList = [] := List.eq_nil_of_length_eq_zero (by omega)
    have hRecent : Recent.recent C.maxCreditBlocksPerClaimant (Recent.noteLast all block) = [] :=
      List.eq_nil_of_length_eq_zero (by omega)
    rw [hNoted, hRecent]
  · have hPos : 0 < C.maxCreditBlocksPerClaimant := Nat.pos_of_ne_zero hZero
    have hLength := Recent.length_recent C.maxCreditBlocksPerClaimant all
    unfold noteBlock Recent.noteLast
    rw [hBlocks, Recent.getLast?_recent hPos]
    split_ifs with hLast
    · exact hBlocks
    · cases hPush : blocks.tryPush block with
      | some pushed =>
        have hList := BoundedVec.tryPush_eq_some_iff.mp hPush
        have hFits := pushed.length_le
        rw [hList, List.length_append, List.length_singleton, hBlocks] at hFits
        dsimp only
        rw [hList, hBlocks, Recent.recent_of_le (by omega), Recent.recent_of_le]
        rw [List.length_append, List.length_singleton]
        omega
      | none =>
        have hFull : C.maxCreditBlocksPerClaimant ≤ blocks.toList.length := by
          by_contra hRoom
          have hFits : (blocks.toList ++ [block]).length ≤ C.maxCreditBlocksPerClaimant := by
            rw [List.length_append, List.length_singleton]
            omega
          rcases BoundedVec.ofList?_isSome_iff.mpr hFits with ⟨pushed, hPushed⟩
          unfold BoundedVec.tryPush at hPush
          rw [hPushed] at hPush
          cases hPush
        rw [hBlocks] at hFull
        have hShifted : (blocks.eraseIdx 0).toList
              = (Recent.recent C.maxCreditBlocksPerClaimant all).tail := by
          rw [BoundedVec.toList_eraseIdx, hBlocks, List.eraseIdx_zero]
        have hFits : ((blocks.eraseIdx 0).toList ++ [block]).length
              ≤ C.maxCreditBlocksPerClaimant := by
          rw [hShifted, List.length_append, List.length_tail, List.length_singleton]
          omega
        rcases BoundedVec.ofList?_isSome_iff.mpr hFits with ⟨pushed, hPushed⟩
        have hPush' : (blocks.eraseIdx 0).tryPush block = some pushed := hPushed
        dsimp only
        rw [hPush', Option.getD_some, BoundedVec.ofList?_eq_some_iff.mp hPushed, hShifted,
          Recent.recent_append_singleton hPos (by omega)]

/- The blocks that were announced to a claimant, in order. -/
def blocksOf (s : AwardingState C) (claimant : C.Claimant) : List Nat :=
  Recent.noted ((s.announced.filter fun a =>
      decide (a.award.claimant = claimant)).map (·.block))

/- The buffer or the tree of a block has a leaf of a claimant. -/
def HoldsLeaf (s : AwardingState C) (claimant : C.Claimant) (block : Nat) : Prop :=
  (∃ buffer, s.creditBuffers.get block = some buffer
      ∧ ∃ award ∈ s.blockAwards block buffer.awards, award.claimant = claimant)
    ∨ ∃ gameIndex timestamp, s.credits.recorded.get block = some
            (awardTree gameIndex timestamp (s.awardsAt block))
        ∧ ∃ award ∈ s.awardsAt block, award.claimant = claimant

variable {claimant : C.Claimant}

theorem mem_awardsAt_iff {block : Nat} :
    (∃ award ∈ s.awardsAt block, award.claimant = claimant) ↔ block ∈ blocksOf s claimant := by
  unfold awardsAt announcedAt blocksOf
  rw [Recent.mem_noted_iff]
  simp only [List.mem_map, List.mem_filter, decide_eq_true_eq]
  constructor
  · rintro ⟨_, ⟨a, ⟨hMem, hBlock⟩, rfl⟩, hClaimant⟩
    exact ⟨a, ⟨hMem, hClaimant⟩, hBlock⟩
  · rintro ⟨a, ⟨hMem, hClaimant⟩, hBlock⟩
    exact ⟨a.award, ⟨a, ⟨hMem, hBlock⟩, rfl⟩, hClaimant⟩

theorem Buffered.holdsLeaf_iff (hBuffered : Buffered s) {block : Nat} :
    HoldsLeaf s claimant block ↔ block ∈ blocksOf s claimant := by
  rw [← mem_awardsAt_iff]
  constructor
  · rintro (⟨buffer, hGet, hAward⟩ | ⟨_, _, _, hAward⟩)
    · have hLe := (hBuffered.le_of_get (by rw [hGet]; simp)).1
      rw [blockAwards_of_stored (hBuffered.waiting block hLe).1
        (hBuffered.pending block buffer hGet).2.2.2.count]
        at hAward
      exact hAward
    · exact hAward
  · rintro ⟨award, hMem, hClaimant⟩
    have hAnnounced : s.announcedAt block ≠ [] := by
      intro hNil
      unfold awardsAt at hMem
      rw [hNil] at hMem
      cases hMem
    rcases Nat.lt_or_ge block s.credits.number with hLt | hLe
    · rcases hBuffered.built block hLt with ⟨hNil, _⟩ | ⟨buffer, _, _, _, hRecorded⟩
      · exact absurd hNil hAnnounced
      · exact Or.inr ⟨_, _, hRecorded, award, hMem, hClaimant⟩
    · have hWaiting := hBuffered.waiting block hLe
      cases hGet : s.creditBuffers.get block with
      | none => exact absurd (hWaiting.2.2 hGet) hAnnounced
      | some buffer =>
        refine Or.inl ⟨buffer, hGet, award, ?_, hClaimant⟩
        rw [blockAwards_of_stored hWaiting.1 (hBuffered.pending block buffer hGet).2.2.2.count]
        exact hMem

--
-- Steps
--

/- What the pallet files beside its roots, its awards and the awards of each claimant. -/
structure Filed (s : AwardingState C) : Prop where
  roots : RootsFiled s.credits
  awards : ∀ timestamp block,
      StorageMap.get s.awardExpiries (timestamp, block)
          = some ()
        ↔ (∃ tree, s.credits.recorded.get block = some tree
              ∧ tree.timestamp = timestamp)
          ∧ ∃ index, StorageMap.get s.creditAwards (block, index) ≠ none
  ordered : (s.announced.map (·.block)).Pairwise (· ≤ ·)
  noted : ∀ claimant,
      (s.creditBlocks.getD claimant .empty).toList
        = Recent.recent C.maxCreditBlocksPerClaimant
          (blocksOf s claimant)

namespace Filed

theorem genesis : Filed (AwardingState.genesis C) where
  roots := by
    constructor
    · intro timestamp block
      simp [AwardingState.genesis, CreditsState.genesis]
    · intro block tree hGet
      simp [AwardingState.genesis, CreditsState.genesis] at hGet
  awards := by
    intro timestamp block
    simp [AwardingState.genesis]
  ordered := List.Pairwise.nil
  noted := by
    intro claimant
    simp [AwardingState.genesis, blocksOf, Recent.noted, Recent.recent]

variable {buffer : PendingBuffer}

/- An award goes to the last block that has any. -/
theorem recordAward {gameIndex awardTime block : Nat} {grant : Grant C}
    {chunk : BoundedVec (NftClaimCreditAward C) awardsPerChunk} (hFiled : Filed s)
    (hBuffered : Buffered s) (hOpens : Opens s gameIndex block buffer) :
    Filed (s.recordAward gameIndex grant awardTime block buffer chunk) where
  roots := hFiled.roots
  awards := by
    intro timestamp b
    have hOld := hFiled.awards timestamp b
    change StorageMap.get s.awardExpiries (timestamp, b) = some () ↔ (∃ tree,
          s.credits.recorded.get b = some tree ∧ tree.timestamp = timestamp)
        ∧ ∃ index, StorageMap.get (s.creditAwards.insert
                (block, buffer.awards / awardsPerChunk) chunk)
              (b, index)
            ≠ none
    by_cases hBlock : b = block
    · -- the block of the award has no tree yet
      have hNone := (hBuffered.waiting block hOpens.le).2.1
      rw [hOld, hBlock, hNone]
      refine iff_of_false ?_ ?_
      · rintro ⟨⟨_, hGet, _⟩, _⟩
        cases hGet
      · rintro ⟨⟨_, hGet, _⟩, _⟩
        cases hGet
    · have hSame : ∀ index, StorageMap.get (s.creditAwards.insert
                  (block, buffer.awards / awardsPerChunk) chunk)
                (b, index)
              = StorageMap.get s.creditAwards (b, index) :=
        fun index =>
          StorageMap.get_insert_of_ne _ _ fun hKey => hBlock (Prod.mk.inj hKey).1
      simp only [hSame]
      exact hOld
  ordered := by
    change ((s.announced ++ [announcementOf gameIndex awardTime block grant
        buffer]).map (·.block)).Pairwise (· ≤ ·)
    rw [List.map_append, List.pairwise_append]
    refine ⟨hFiled.ordered, List.pairwise_singleton _ _, ?_⟩
    intro b hMem b' hMem'
    rw [List.mem_map] at hMem
    rcases hMem with ⟨a, hA, rfl⟩
    rw [List.mem_singleton.mp hMem']
    change a.block ≤ block
    by_contra hLater
    have hLe := hOpens.le
    have hNone : s.creditBuffers.get a.block = none := by
      by_contra hSome
      have hBounds := (hOpens.range a.block).mp (Or.inr hSome)
      omega
    have hPlace := (hBuffered.place hA).1
    rw [(hBuffered.waiting a.block (by omega)).2.2 hNone]
      at hPlace
    cases hPlace
  noted := by
    intro claimant
    change ((s.creditBlocks.insert grant.award.claimant (noteBlock
            (s.creditBlocks.getD grant.award.claimant .empty)
            block)).getD claimant .empty).toList
        = Recent.recent C.maxCreditBlocksPerClaimant
          (Recent.noted (((s.announced ++ [announcementOf gameIndex awardTime block
                  grant buffer]).filter fun a =>
              decide (a.award.claimant = claimant)).map (·.block)))
    rw [List.filter_append, List.map_append, StorageMap.getD_insert]
    by_cases hClaimant : claimant = grant.award.claimant
    · have hMine : ([announcementOf gameIndex awardTime block grant buffer].filter fun a =>
            decide (a.award.claimant = claimant)).map (·.block)
            = [block] := by
        rw [hClaimant]
        unfold announcementOf
        simp
      rw [if_pos hClaimant, hMine, Recent.noted_append_singleton, hClaimant]
      exact toList_noteBlock (hFiled.noted _) block
    · have hOther : ([announcementOf gameIndex awardTime block grant buffer].filter fun a =>
            decide (a.award.claimant = claimant)).map (·.block)
            = [] := by
        unfold announcementOf
        simp [Ne.symm hClaimant]
      rw [if_neg hClaimant, hOther, List.append_nil]
      exact hFiled.noted claimant

theorem award {gameIndex awardTime : Nat} {grant : Grant C} (hFiled : Filed s)
    (hBuffered : Buffered s) :
    Filed (s.awardNftClaimCredit gameIndex grant awardTime).1 := by
  have hDefensive : ∀ branch, Filed (s.defensive branch) :=
    fun _ => ⟨hFiled.roots, hFiled.awards, hFiled.ordered, hFiled.noted⟩
  unfold awardNftClaimCredit
  split
  · exact hDefensive _
  · split
    · exact hFiled
    · split
      · exact hDefensive _
      · rename_i block buffer hChosen
        split
        · exact hDefensive _
        · exact hFiled.recordAward hBuffered (hBuffered.opens hChosen)

theorem awardCredits {gameIndex awardTime : Nat} (hFiled : Filed s) (hBuffered : Buffered s)
    (grants : List (Grant C)) :
    Filed (s.awardCredits gameIndex grants awardTime).1 := by
  unfold AwardingState.awardCredits
  generalize (0 : Nat) = recorded
  induction grants generalizing s recorded with
  | nil => exact hFiled
  | cons grant grants ih =>
    rw [List.foldl_cons]
    exact ih (hFiled.award hBuffered) hBuffered.award _

/- A block with a buffer files its tree and its awards. -/
theorem recordTree (hFiled : Filed s) (hBuffered : Buffered s)
    (hGet : s.creditBuffers.get s.credits.number = some buffer) :
    Filed (s.withTree buffer) where
  roots := by
    have hStarted : RootsFiled s.startBlock.credits := ⟨hFiled.roots.filed, hFiled.roots.kept⟩
    have hNone : s.startBlock.credits.recorded.get s.credits.number = none :=
      (hBuffered.waiting s.credits.number (Nat.le_refl _)).2.1
    exact (hStarted.recordRoot hNone _).queueCreditTreeDelivery _
  awards := by
    intro timestamp b
    have hOld := hFiled.awards timestamp b
    have hWaiting := hBuffered.waiting s.credits.number (Nat.le_refl _)
    have hPending := hBuffered.pending _ _ hGet
    have hRecorded : (s.withTree buffer).credits.recorded
          = s.credits.recorded.insert s.credits.number (awardTree buffer.gameIndex buffer.timestamp
              (s.awardsAt s.credits.number)) :=
      recorded_queueCreditTreeDelivery _ _
    rw [hRecorded]
    change StorageMap.get (s.awardExpiries.insert (buffer.timestamp, s.credits.number) ())
          (timestamp, b)
          = some ()
        ↔ _ ∧ ∃ index, StorageMap.get s.creditAwards (b, index) ≠ none
    rw [get_insert, get_insert]
    by_cases hBlock : b = s.credits.number
    · subst hBlock
      rw [if_pos rfl]
      by_cases hTime : timestamp = buffer.timestamp
      · subst hTime
        rw [if_pos rfl]
        refine iff_of_true rfl ⟨⟨_, rfl, rfl⟩, 0, ?_⟩
        -- the first chunk holds the first award
        intro hNone
        have hChunk : s.chunk s.credits.number 0 = .empty := by
          unfold chunk StorageMap.getD
          rw [hNone]
          rfl
        have hLength := hWaiting.1.length_page 0
        rw [hChunk, length_awardsAt, ← hPending.2.2.2.count,
          BoundedVec.toList_empty, List.length_nil] at hLength
        have hPos := hPending.2.1
        unfold awardsPerChunk at hLength
        omega
      · rw [if_neg fun hKey => hTime (Prod.mk.inj hKey).1, hOld, hWaiting.2.1]
        refine iff_of_false ?_ ?_
        · rintro ⟨⟨_, hNone, _⟩, _⟩
          cases hNone
        · rintro ⟨⟨_, hTree, hSame⟩, _⟩
          cases hTree
          exact hTime hSame.symm
    · rw [if_neg fun hKey => hBlock (Prod.mk.inj hKey).2, if_neg hBlock]
      exact hOld
  ordered := hFiled.ordered
  noted := hFiled.noted

theorem onInitialize {s' : AwardingState C} (hFiled : Filed s) (hBuffered : Buffered s)
    (hStep : s.onInitialize = .ok s') :
    Filed s' := by
  rcases hBuffered.onInitialize_cases hStep with ⟨_, rfl⟩ | ⟨buffer, hGet, rfl⟩
  · exact ⟨⟨hFiled.roots.filed, hFiled.roots.kept⟩, hFiled.awards, hFiled.ordered, hFiled.noted⟩
  · exact hFiled.recordTree hBuffered hGet

end Filed

/- Clearing some built blocks leaves the chunks of the others. -/
theorem Buffered.foldl_clearAwards (hBuffered : Buffered s) {blocks : List Nat}
    (hBuilt : ∀ block ∈ blocks, block < s.credits.number) :
    (∃ chunks, blocks.foldl AwardingState.clearAwards s = { s with creditAwards := chunks })
      ∧ ∀ b index, StorageMap.get (blocks.foldl AwardingState.clearAwards s).creditAwards (b, index)
          = if b ∈ blocks then none else StorageMap.get s.creditAwards (b, index) := by
  induction blocks generalizing s with
  | nil => exact ⟨⟨_, rfl⟩, fun _ _ => rfl⟩
  | cons block blocks ih =>
    rw [List.foldl_cons]
    rcases hBuffered.clearAwards_eq block with ⟨hEq, hCleared⟩
    have hNext := hBuffered.clearAwards (hBuilt block (List.mem_cons_self ..))
    have hRest : ∀ b ∈ blocks, b < (s.clearAwards block).credits.number := by
      intro b hMem
      rw [hNext.2.1]
      exact hBuilt b (List.mem_cons_of_mem _ hMem)
    rcases ih hNext.1 hRest with ⟨⟨chunks, hFold⟩, hGet⟩
    refine ⟨⟨chunks, ?_⟩, ?_⟩
    · rw [hFold, hEq]
    · intro b index
      rw [hGet, hCleared]
      by_cases hBlock : b = block
      · rw [if_pos hBlock, ite_self, if_pos (hBlock ▸ List.mem_cons_self ..)]
      · rw [if_neg hBlock]
        simp only [List.mem_cons, hBlock, false_or]

/- What a sweep of the awards leaves. -/
theorem Buffered.doSweepExpiredAwards_eq (hBuffered : Buffered s) :
    (∃ chunks, s.doSweepExpiredAwards
          = { s with
              awardExpiries := (drainDueExpiries C.twox C.awardRetentionTtl
                  s.credits.now C.maxAwardBlocksPerSweep
                  s.awardExpiries).2
              creditAwards := chunks })
      ∧ ∀ b index, StorageMap.get s.doSweepExpiredAwards.creditAwards (b, index)
          = if b ∈ (drainDueExpiries C.twox C.awardRetentionTtl
                s.credits.now C.maxAwardBlocksPerSweep
                s.awardExpiries).1 then none
            else StorageMap.get s.creditAwards (b, index) := by
  have hBuilt : ∀ block ∈ (drainDueExpiries C.twox C.awardRetentionTtl
          s.credits.now C.maxAwardBlocksPerSweep
          s.awardExpiries).1,
        block < s.credits.number := by
    intro block hMem
    rcases mem_drainDueExpiries_iff.mp hMem with ⟨timestamp, hDue⟩
    exact hBuffered.expiries timestamp block (mem_dueExpiries hDue).1
  have hDrained : Buffered
        { s with
          awardExpiries := (drainDueExpiries C.twox C.awardRetentionTtl
              s.credits.now C.maxAwardBlocksPerSweep
              s.awardExpiries).2 } :=
    { hBuffered with
      expiries := fun timestamp block hGet =>
        hBuffered.expiries timestamp block (get_of_get_drainDueExpiries hGet) }
  rcases hDrained.foldl_clearAwards hBuilt with ⟨⟨chunks, hFold⟩, hGet⟩
  exact ⟨⟨chunks, hFold⟩, hGet⟩

/- The awards of a swept block go with its expiry. -/
theorem Filed.doSweepExpiredAwards (hFiled : Filed s) (hBuffered : Buffered s) :
    Filed s.doSweepExpiredAwards := by
  rcases hBuffered.doSweepExpiredAwards_eq with ⟨⟨chunks, hEq⟩, hGet⟩
  rw [hEq] at hGet ⊢
  refine ⟨hFiled.roots, ?_, hFiled.ordered, hFiled.noted⟩
  intro timestamp b
  dsimp only at hGet ⊢
  simp only [hGet]
  by_cases hKey : (timestamp, b) ∈ dueExpiries C.twox C.awardRetentionTtl s.credits.now
      C.maxAwardBlocksPerSweep s.awardExpiries
  · rw [get_drainDueExpiries_of_mem hKey]
    simp only [if_pos (mem_drainDueExpiries_iff.mpr ⟨timestamp, hKey⟩)]
    refine iff_of_false ?_ ?_
    · intro hNone
      cases hNone
    · rintro ⟨_, _, hSome⟩
      exact hSome rfl
  · rw [get_drainDueExpiries_of_notMem hKey, hFiled.awards]
    split_ifs with hBlock
    · -- the block was filed under the timestamp that is due
      refine iff_of_false ?_ ?_
      · rintro ⟨⟨tree, hTree, hTime⟩, _⟩
        rcases mem_drainDueExpiries_iff.mp hBlock with ⟨due, hDue⟩
        rcases (hFiled.awards due b).mp (mem_dueExpiries hDue).1 with ⟨⟨tree', hTree', hTime'⟩, _⟩
        rw [hTree] at hTree'
        cases hTree'
        rw [← hTime, hTime'] at hKey
        exact hKey hDue
      · rintro ⟨_, _, hSome⟩
        exact hSome rfl
    · rfl

end NftCredits

namespace CreditTrees

open NftCredits AwardingState

variable {A : AwardChains} {w w' : AwardWorld A}

--
-- Runs
--

/- A step of the chains keeps what is filed. -/
theorem filed_perform {op : AwardOp A} (hBuffered : Buffered w.awarding) (hFiled : Filed w.awarding)
    (hStep : w.perform op = .ok w') :
    Filed w'.awarding := by
  cases awardEffect_of_perform hStep with
  | initialized _ hInitialize => exact hFiled.onInitialize hBuffered hInitialize
  | awarded _ grants => exact hFiled.awardCredits hBuffered grants
  | forgotten =>
    exact ⟨hFiled.roots, hFiled.awards, hFiled.ordered, hFiled.noted⟩
  | swept => exact hFiled.doSweepExpiredAwards hBuffered
  | chains _ world hOp hWorld =>
    have hRoots : RootsFiled w.world.credits := hFiled.roots
    refine ⟨hRoots.perform hOp hWorld, ?_, hFiled.ordered, hFiled.noted⟩
    intro timestamp block
    change _ ↔ (∃ tree, world.credits.recorded.get block = some tree ∧ _) ∧ _
    rw [(same_perform hOp hWorld).1]
    exact hFiled.awards timestamp block

/-
  The indices agree with what they index: the expiries with the roots and the stored awards, and the
  blocks of a claimant with the buffers and trees that hold its leaves. A sweep takes the due
  entries, and what they stand for.
-/
structure IndicesAgree (s : AwardingState A.awarding) : Prop where
  roots : ∀ timestamp block,
      s.credits.rootExpiries.get (timestamp, block) = some ()
        ↔ ∃ tree,
          s.credits.creditRoots.get block = some tree
            ∧ tree.timestamp = timestamp
  awards : ∀ timestamp block,
      StorageMap.get s.awardExpiries (timestamp, block)
          = some ()
        ↔ (∃ tree, s.credits.recorded.get block = some tree
              ∧ tree.timestamp = timestamp)
          ∧ ∃ index, StorageMap.get s.creditAwards (block, index) ≠ none
  stored : ∀ block tree index,
      s.credits.recorded.get block = some tree →
      StorageMap.get s.creditAwards (block, index) ≠ none →
        s.blockAwards block tree.leafCount = s.awardsAt block
  rootSweep : ∃ removed,
      SweepsDue (rootTtl A.awarding.config) s.credits.now
          A.awarding.maxRootsPerSweep s.credits.rootExpiries
          s.credits.doSweepExpiredRoots.rootExpiries removed
        ∧ ∀ block,
          s.credits.doSweepExpiredRoots.creditRoots.get block
            = if block ∈ removed.map Prod.snd then none
              else s.credits.creditRoots.get block
  awardSweep : ∃ removed,
      SweepsDue A.awarding.awardRetentionTtl s.credits.now
          A.awarding.maxAwardBlocksPerSweep s.awardExpiries
          s.doSweepExpiredAwards.awardExpiries removed
        ∧ ∀ block index,
          StorageMap.get s.doSweepExpiredAwards.creditAwards
              (block, index)
            = if block ∈ removed.map Prod.snd then none
              else StorageMap.get s.creditAwards (block, index)
  blocks : ∀ claimant,
      ∃ all : List Nat,
        all.Pairwise (· < ·)
          ∧ (∀ block, block ∈ all ↔ HoldsLeaf s claimant block)
          ∧ (s.creditBlocks.getD claimant .empty).toList
            = Recent.recent
              A.awarding.maxCreditBlocksPerClaimant all
          ∧ (s.creditBlocks.getD claimant .empty).toList.Pairwise (· < ·)

/- In every state of the two chains the indices agree. -/
theorem credit_indices_agree {allowed : AwardWorld A → AwardOp A → AwardWorld A → Prop}
    (hRun : RunUnder AwardWorld.perform allowed (AwardWorld.genesis A) w) :
    IndicesAgree w.awarding := by
  have hBuffered := buffered_of_run hRun
  have hFiled : Filed w.awarding := by
    have hBoth := hRun.invariant (fun w => Buffered w.awarding ∧ Filed w.awarding) (by
          rintro w op w' _ hStep ⟨hBuffered, hFiled⟩
          exact ⟨buffered_perform hBuffered hStep, filed_perform hBuffered hFiled hStep⟩)
        ⟨buffered_genesis, Filed.genesis⟩
    exact hBoth.2
  refine ⟨hFiled.roots.filed, hFiled.awards, ?_, ?_, ?_, ?_⟩
  · intro block tree index hTree hSome
    have hLt : block < w.awarding.credits.number := by
      by_contra hLe
      rw [(hBuffered.waiting block (Nat.le_of_not_lt hLe)).2.1] at hTree
      cases hTree
    have hStored := (hBuffered.retained block hLt).resolve_right fun hNone => hSome (hNone index)
    rcases hBuffered.built block hLt with ⟨_, hNone⟩ | ⟨buffer, _, _, _, hRecorded⟩
    · rw [hNone] at hTree
      cases hTree
    · rw [hRecorded] at hTree
      obtain rfl := Option.some.inj hTree
      exact blockAwards_of_stored hStored (length_awardsAt block)
  · exact ⟨_, sweepsDue_drainDueExpiries, fun block =>
        get_foldl_remove _ _ _⟩
  · rcases hBuffered.doSweepExpiredAwards_eq with ⟨⟨chunks, hEq⟩, hGet⟩
    refine ⟨_, ?_, hGet⟩
    rw [hEq]
    exact sweepsDue_drainDueExpiries
  · intro claimant
    have hAscending : (blocksOf w.awarding claimant).Pairwise (· < ·) := Recent.pairwise_noted
        (hFiled.ordered.sublist (List.filter_sublist.map _))
    refine ⟨blocksOf w.awarding claimant, hAscending, fun block => hBuffered.holdsLeaf_iff.symm,
        hFiled.noted claimant, ?_⟩
    rw [hFiled.noted claimant]
    exact hAscending.sublist (Recent.recent_sublist _ _)

/- Awards of two blocks were filed, and those of one swept. -/
theorem credit_indices_agree_sample : ∃ w : AwardWorld sampleAwardChains,
      IndicesAgree w.awarding ∧ StorageMap.get w.awarding.awardExpiries (11, 1) = some ()
        ∧ StorageMap.get w.awarding.awardExpiries (10, 0) = none
        ∧ (w.awarding.creditBlocks.getD (3 : Nat) .empty).toList = [0, 1] := by
  have hExecute : (execute AwardWorld.perform inRangeCheck (AwardWorld.genesis sampleAwardChains)
        sampleAwardOps).any (fun w =>
            decide (StorageMap.get w.awarding.awardExpiries (11, 1) = some ()
                ∧ StorageMap.get w.awarding.awardExpiries (10, 0) = none
                ∧ (w.awarding.creditBlocks.getD (3 : Nat) .empty).toList = [0, 1])) = true := by
    decide +kernel
  rcases exists_run_of_execute inRangeCheck_spec hExecute with ⟨w, hRun, hTest⟩
  rw [decide_eq_true_eq] at hTest
  exact ⟨w, credit_indices_agree hRun, hTest⟩

end CreditTrees

end Individuality
