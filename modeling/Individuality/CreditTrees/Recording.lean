import Individuality.CreditTrees.Tracking

/-
  What the game chain does with the roots: it records them, delivers and replays them, and removes
  the roots of finished blocks.

  Main declaration: `RootsRemoved`
-/

namespace Individuality.CreditTrees

open StorageMap (get_foldl_remove get_insert get_remove)

open NftClaims (ClaimsState SpentInvariant Paid Deliverable)

open NftCredits (CreditsState CreditBuffer rootTtl rootTtlGrace)

variable {C : Chains} {content : Nat → NftClaimCreditTree}
variable {D : NftCredits.Config} {gone : Nat → Prop} {block : Nat} {w : World C}

--
-- Removal
--

/- Only the roots of some blocks are gone. -/
structure RootsRemoved {D : NftCredits.Config} (gone : Nat → Prop)
    (s s' : CreditsState D) : Prop where
  state : ∃ creditRoots rootExpiries,
      s' = { s with
        creditRoots := creditRoots
        rootExpiries := rootExpiries }
  roots : ∀ block tree,
      s'.creditRoots.get block = some tree → s.creditRoots.get block = some tree
  kept : ∀ block, ¬ gone block → s'.creditRoots.get block = s.creditRoots.get block
  expiries :
    ∀ key, s'.rootExpiries.get key = some () → s.rootExpiries.get key = some ()

variable {s : CreditsState D}

theorem RootsRemoved.trans {s' s'' : CreditsState D} (hFirst : RootsRemoved gone s s')
    (hSecond : RootsRemoved gone s' s'') :
    RootsRemoved gone s s'' where
  state := by
    rcases hFirst.state with ⟨_, _, hEq⟩
    rcases hSecond.state with ⟨roots, expiries, hEq'⟩
    refine ⟨roots, expiries, ?_⟩
    rw [hEq', hEq]
  roots := by
    intro block tree hGet
    exact hFirst.roots block tree (hSecond.roots block tree hGet)
  kept := by
    intro block hKept
    rw [hSecond.kept block hKept, hFirst.kept block hKept]
  expiries := by
    intro key hGet
    exact hFirst.expiries key (hSecond.expiries key hGet)

theorem removeCreditRoot_spec (s : CreditsState D) (hGone : gone block) :
    RootsRemoved gone s (s.removeCreditRoot block) := by
  unfold CreditsState.removeCreditRoot
  split
  · exact
      { state := ⟨_, _, rfl⟩
        roots := fun _ _ hGet => hGet
        kept := fun _ _ => rfl
        expiries := fun _ hGet => hGet }
  · refine
      { state := ⟨_, _, rfl⟩
        roots := ?_
        kept := ?_
        expiries := ?_ }
    · intro block' tree' hGet
      dsimp only at hGet
      rw [get_remove] at hGet
      split at hGet
      · cases hGet
      · exact hGet
    · intro block' hKept
      dsimp only
      rw [get_remove, if_neg]
      rintro rfl
      exact hKept hGone
    · intro key hGet
      dsimp only at hGet
      rw [get_remove] at hGet
      split at hGet
      · cases hGet
      · exact hGet

theorem foldl_removeCreditRoot_spec (blocks : List Nat) (s : CreditsState D)
    (hGone : ∀ block ∈ blocks, gone block) :
    RootsRemoved gone s (blocks.foldl CreditsState.removeCreditRoot s) := by
  induction blocks generalizing s with
  | nil =>
    exact
      { state := ⟨_, _, rfl⟩
        roots := fun _ _ hGet => hGet
        kept := fun _ _ => rfl
        expiries := fun _ hGet => hGet }
  | cons head rest ih =>
    have hHead := removeCreditRoot_spec s (hGone head (List.mem_cons_self ..))
    exact hHead.trans (ih (s.removeCreditRoot head) fun block hMem =>
        hGone block (List.mem_cons_of_mem _ hMem))

/- Roots of finished blocks may go. -/
theorem Tracked.of_removal {s' : CreditsState C.credits} (hTracked : Tracked content w)
    (hRemoved : RootsRemoved gone w.credits s')
    (hGone : ∀ block, gone block → Finished content w.claims block) :
    Tracked content { w with credits := s' } := by
  have hRoots := hRemoved.roots
  have hKept := hRemoved.kept
  have hExpiries := hRemoved.expiries
  rcases hRemoved.state with ⟨roots, expiries, rfl⟩
  exact
    { spent := hTracked.spent
      paid := hTracked.paid
      recorded := hTracked.recorded
      roots := fun block tree hGet =>
        hTracked.roots block tree (hRoots block tree hGet)
      expiries := fun timestamp block hGet =>
        hTracked.expiries timestamp block (hExpiries _ hGet)
      clock := hTracked.clock
      flight := hTracked.flight
      coming := hTracked.coming
      next := hTracked.next
      exact := hTracked.exact
      deletions := hTracked.deletions
      absent := by
        intro block tree hGet hNone
        by_cases hBlock : gone block
        · exact hGone block hBlock
        · rw [hKept block hBlock] at hNone
          exact hTracked.absent block tree hGet hNone
      accounted := hTracked.accounted }

theorem Tracked.deliverDeletions {message : List Nat} {rest : List (List Nat)}
    (hTracked : Tracked content w) (hFlight : w.toGame = message :: rest) :
    Tracked content
      { w with
        credits := World.receiveDeletions w.credits message
        toGame := rest } := by
  have hRest : Tracked content { w with toGame := rest } :=
    { hTracked with
      deletions := by
        rintro block (hMem | ⟨other, hMem, hBlock⟩)
        · exact hTracked.deletions block (Or.inl hMem)
        · refine hTracked.deletions block (Or.inr ⟨other, ?_, hBlock⟩)
          rw [hFlight]
          exact List.mem_cons_of_mem _ hMem }
  unfold World.receiveDeletions
  split
  · rename_i blocks hBlocks
    have hList := BoundedVec.ofList?_eq_some_iff.mp hBlocks
    have hRemoved : RootsRemoved (· ∈ message) w.credits
          (w.credits.doReceiveTreeDeletions blocks) :=
      foldl_removeCreditRoot_spec blocks.toList w.credits fun block hMem => hList ▸ hMem
    refine hRest.of_removal hRemoved ?_
    intro block hMem
    refine hTracked.deletions block (Or.inr ⟨message, ?_, hMem⟩)
    rw [hFlight]
    exact List.mem_cons_self ..
  · exact hRest

/-
  A root outlives the deadline of its tree by a grace, so that
  a clock that is close has passed the deadline as well.
-/
theorem deadline_of_rootTtl {max timestamp ttl grace now now' : Nat}
    (hDue : saturatingAdd max timestamp (saturatingAdd max ttl grace) ≤ now) (hNow : now < max)
    (hClose : now < now' + grace) :
    saturatingAdd max timestamp ttl ≤ now' := by
  unfold saturatingAdd at hDue ⊢
  omega

theorem Tracked.sweepExpiredRoots (hTracked : Tracked content w) (hClose : ClocksClose w) :
    Tracked content { w with credits := w.credits.doSweepExpiredRoots } := by
  let drained := drainDueExpiries C.credits.twox (rootTtl C.credits)
      w.credits.now C.credits.maxRootsPerSweep
      w.credits.rootExpiries
  have hRemoved : RootsRemoved (· ∈ drained.1) w.credits
        w.credits.doSweepExpiredRoots := by
    refine
      { state := ⟨_, _, rfl⟩
        roots := ?_
        kept := ?_
        expiries := fun key hGet =>
          get_of_get_drainDueExpiries hGet }
    · intro block tree hGet
      change (drained.1.foldl (·.remove ·) w.credits.creditRoots).get block = some tree at hGet
      rw [get_foldl_remove] at hGet
      split at hGet
      · cases hGet
      · exact hGet
    · intro block hKept
      change (drained.1.foldl (·.remove ·) w.credits.creditRoots).get block = _
      rw [get_foldl_remove, if_neg hKept]
  refine hTracked.of_removal hRemoved ?_
  intro block hMem
  rcases mem_drainDueExpiries_iff.mp hMem with ⟨timestamp, hDue⟩
  have hEntry := mem_dueExpiries hDue
  refine Or.inr ?_
  rw [← hTracked.expiries timestamp block hEntry.1, ← C.sameTtl]
  exact deadline_of_rootTtl hEntry.2 hTracked.clock hClose.1

--
-- Deliveries
--

theorem mem_resolveCreditTrees {blocks : List (Option Nat × Nat)} {update : CreditTreeDelivery}
    (hMem : update ∈ s.resolveCreditTrees blocks) :
    s.creditRoots.get update.block = some update.tree := by
  unfold CreditsState.resolveCreditTrees at hMem
  rw [List.mem_filterMap] at hMem
  rcases hMem with ⟨entry, _, hSome⟩
  rw [Option.map_eq_some_iff] at hSome
  rcases hSome with ⟨tree, hGet, rfl⟩
  exact hGet

theorem length_resolveCreditTrees_le (s : CreditsState D) (blocks : List (Option Nat × Nat)) :
    (s.resolveCreditTrees blocks).length ≤ blocks.length :=
  List.length_filterMap_le _ _

/- The trees that are resolved keep their sequences in order. -/
theorem sequences_resolveCreditTrees (s : CreditsState D) (blocks : List (Option Nat × Nat)) :
    ((s.resolveCreditTrees blocks).filterMap (·.sequence)).Sublist (blocks.filterMap Prod.fst) := by
  unfold CreditsState.resolveCreditTrees
  induction blocks with
  | nil => exact List.Sublist.slnil
  | cons entry rest ih =>
    cases hRoot : s.creditRoots.get entry.2 with
    | none =>
      rw [List.filterMap_cons_none (by rw [hRoot]; rfl)]
      exact ih.trans ((List.sublist_cons_self entry rest).filterMap _)
    | some tree =>
      rw [List.filterMap_cons_some (by rw [hRoot]; rfl)]
      rcases entry with ⟨sequence, block⟩
      cases sequence with
      | none => exact ih
      | some sequence => exact ih.cons_cons sequence

/- A message of recorded trees is on its way. -/
theorem Tracked.message {updates : List CreditTreeDelivery} (hTracked : Tracked content w)
    (hLength : updates.length ≤ C.credits.maxCreditTreesPerMessage)
    (hRoots : ∀ update ∈ updates, w.credits.creditRoots.get update.block = some update.tree)
    (hComing : Gaps.Ascends u64Max w.claims.nextExpectedSequence
        (arriving { w with toClaims := w.toClaims ++ [updates] })
        w.credits.nextCreditTreeSequence) :
    Tracked content { w with toClaims := w.toClaims ++ [updates] } :=
  { hTracked with
    flight := by
      intro message hMem
      rw [List.mem_append, List.mem_singleton] at hMem
      rcases hMem with hOld | rfl
      · exact hTracked.flight message hOld
      · refine ⟨Nat.le_trans hLength C.treesFit, ?_⟩
        intro update hUpdate
        exact hTracked.roots _ _ (hRoots update hUpdate)
    coming := hComing
    accounted := by
      intro block tree hGet
      rcases hTracked.accounted block tree hGet with
        hDone | hHeld | ⟨message, hMem, hIn⟩ | hElse
      · exact Or.inl hDone
      · exact Or.inr (Or.inl hHeld)
      · exact Or.inr (Or.inr (Or.inl ⟨message, List.mem_append_left _ hMem, hIn⟩))
      · exact Or.inr (Or.inr (Or.inr hElse)) }

theorem Tracked.replay {blocks : BoundedVec Nat C.credits.maxCreditTreesPerMessage}
    {room : Option Nat} {routed : Bool} {sent : CreditsState C.credits × List CreditTreeDelivery}
    (hTracked : Tracked content w)
    (hReplay : w.credits.doReplayCreditTrees blocks room routed = .ok sent) :
    Tracked content
      { w with
        credits := sent.1
        toClaims := w.toClaims ++ [sent.2] } := by
  simp only [CreditsState.doReplayCreditTrees, Except.bind_eq_ok, ensure_eq_ok_iff, exists_const,
    Except.pure_eq_ok] at hReplay
  rcases hReplay with ⟨_, _, _, _, _, _, _, _, rfl⟩
  have hLater : Tracked content
        { w with
          credits :=
            { w.credits with
              lastReplayTime := some w.credits.now } } :=
    { hTracked with }
  refine hLater.message ?_ ?_ ?_
  · refine Nat.le_trans (length_resolveCreditTrees_le _ _) ?_
    rw [List.length_map]
    exact blocks.length_le
  · intro update hMem
    exact mem_resolveCreditTrees hMem
  · have hNone : (w.credits.resolveCreditTrees (blocks.toList.map fun block =>
            ((none : Option Nat), block))).filterMap (·.sequence) = [] := by
      rw [← List.sublist_nil]
      refine (sequences_resolveCreditTrees w.credits _).trans ?_
      rw [List.sublist_nil, List.filterMap_map, List.filterMap_eq_nil_iff]
      intro block _
      rfl
    have hComing := hTracked.coming
    unfold arriving at hComing ⊢
    dsimp only
    rw [List.flatten_append, List.flatten_singleton, List.filterMap_append, hNone, List.append_nil]
    exact hComing

variable {tree : NftClaimCreditTree}

/- The entries of the queue that a message takes. -/
theorem mem_nextUpdates {taken sequence : Nat}
    (hMem : (sequence, block) ∈ s.deliveryQueue.toList.take taken)
    (hGet : s.creditRoots.get block = some tree) :
    { sequence := some sequence, block := block, tree := tree } ∈ s.nextUpdates taken := by
  unfold CreditsState.nextUpdates CreditsState.resolveCreditTrees
  rw [List.mem_filterMap]
  refine ⟨(some sequence, block), ?_, ?_⟩
  · exact List.mem_map.mpr ⟨(sequence, block), hMem, rfl⟩
  · dsimp only
    rw [hGet]
    rfl

theorem sequences_nextUpdates (s : CreditsState D) (taken : Nat) :
    ((s.nextUpdates taken).filterMap (·.sequence)).Sublist
      ((s.deliveryQueue.toList.take taken).map Prod.fst) := by
  unfold CreditsState.nextUpdates
  refine (sequences_resolveCreditTrees s _).trans ?_
  rw [List.filterMap_map, ← List.filterMap_eq_map]
  exact List.Sublist.refl _

/- Entries leave the queue when their trees are in a message, or when their roots are gone. -/
theorem Tracked.taken {taken : Nat} {messages : List (List CreditTreeDelivery)}
    (hTracked : Tracked content w) (hMessages : messages.flatten = w.credits.nextUpdates taken)
    (hLength : ∀ message ∈ messages, message.length ≤ C.credits.maxCreditTreesPerMessage) :
    Tracked content
      { w with
        credits :=
          { w.credits with
            deliveryQueue := CreditsState.dropFront w.credits.deliveryQueue taken }
        toClaims := w.toClaims ++ messages } := by
  have hSplit : w.credits.deliveryQueue.toList.take taken
          ++ w.credits.deliveryQueue.toList.drop taken
        = w.credits.deliveryQueue.toList :=
    List.take_append_drop taken _
  have hInMessages : ∀ update, update ∈ w.credits.nextUpdates taken →
          ∃ message ∈ w.toClaims ++ messages, update ∈ message := by
    intro update hUpdate
    rw [← hMessages, List.mem_flatten] at hUpdate
    rcases hUpdate with ⟨message, hMem, hIn⟩
    exact ⟨message, List.mem_append_right _ hMem, hIn⟩
  refine
    { hTracked with
      flight := ?_
      coming := ?_
      accounted := ?_ }
  · intro message hMem
    rw [List.mem_append] at hMem
    rcases hMem with hOld | hNew
    · exact hTracked.flight message hOld
    · refine ⟨Nat.le_trans (hLength message hNew) C.treesFit, ?_⟩
      intro update hIn
      have hUpdate : update ∈ w.credits.nextUpdates taken := by
        rw [← hMessages]
        exact List.mem_flatten.mpr ⟨message, hNew, hIn⟩
      exact hTracked.roots _ _ (mem_resolveCreditTrees hUpdate)
  · have hComing := hTracked.coming
    have hCap := hTracked.exact.capped
    dsimp only at hCap
    refine Gaps.Ascends.sublist ?_ hCap hComing
    unfold arriving
    dsimp only [CreditsState.dropFront]
    rw [List.flatten_append, hMessages, List.filterMap_append, List.append_assoc]
    apply List.Sublist.append (List.Sublist.refl _)
    rw [← hSplit, List.map_append]
    have hDrop : (w.credits.deliveryQueue.toList.take taken
          ++ w.credits.deliveryQueue.toList.drop taken).drop taken
          = w.credits.deliveryQueue.toList.drop taken := by
      rw [hSplit]
    rw [hDrop]
    exact (sequences_nextUpdates w.credits taken).append (List.Sublist.refl _)
  · intro block tree hGet
    rcases hTracked.accounted block tree hGet with
      hDone | hHeld | ⟨message, hMem, hIn⟩
        | ⟨sequence, hQueued⟩ | hDropped
    · exact Or.inl hDone
    · exact Or.inr (Or.inl hHeld)
    · exact Or.inr (Or.inr (Or.inl ⟨message, List.mem_append_left _ hMem, hIn⟩))
    · rw [← hSplit, List.mem_append] at hQueued
      rcases hQueued with hTaken | hLeft
      · cases hRoot : w.credits.creditRoots.get block with
        | none =>
          exact Or.inl (hTracked.absent block tree hGet hRoot)
        | some tree' =>
          have hSame := hTracked.roots block tree' hRoot
          rw [hGet, Option.some.injEq] at hSame
          rcases hInMessages _ (mem_nextUpdates hTaken hRoot) with ⟨message, hMem, hIn⟩
          exact Or.inr (Or.inr (Or.inl ⟨message, hMem, _, hIn, rfl, hSame.symm⟩))
      · exact Or.inr (Or.inr (Or.inr (Or.inl ⟨sequence, hLeft⟩)))
    · exact Or.inr (Or.inr (Or.inr (Or.inr hDropped)))

theorem Tracked.send (hTracked : Tracked content w) (room : Option Nat) (routed : Bool) :
    Tracked content
      { w with
        credits := (w.credits.doSendCreditTrees room routed).1
        toClaims := w.toClaims ++ (w.credits.doSendCreditTrees room routed ).2.toList } := by
  unfold CreditsState.doSendCreditTrees
  cases hRoom : CreditsState.maxTreesPerMessage C.credits room with
  | none =>
    dsimp only
    rw [Option.toList_none, List.append_nil]
    exact hTracked
  | some capacity =>
    have hCapacity : capacity ≤ C.credits.maxCreditTreesPerMessage := by
      unfold CreditsState.maxTreesPerMessage at hRoom
      cases room with
      | none => cases hRoom
      | some trees =>
        dsimp only at hRoom
        split at hRoom
        · cases hRoom
          exact Nat.min_le_right _ _
        · cases hRoom
    dsimp only
    generalize hTaken : min capacity w.credits.deliveryQueue.length = taken
    have hLength : (w.credits.nextUpdates taken).length ≤ C.credits.maxCreditTreesPerMessage := by
      unfold CreditsState.nextUpdates
      refine Nat.le_trans (length_resolveCreditTrees_le _ _) ?_
      rw [List.length_map, List.length_take]
      omega
    by_cases hRefused : (w.credits.nextUpdates taken).length > 0 ∧ routed = false
    · rw [if_pos hRefused]
      dsimp only
      rw [Option.toList_none, List.append_nil]
      exact hTracked
    · rw [if_neg hRefused]
      dsimp only
      apply hTracked.taken
      · split
        · simp
        · rename_i hEmpty
          have hNil : w.credits.nextUpdates taken = [] := List.eq_nil_of_length_eq_zero (by omega)
          rw [hNil]
          rfl
      · intro message hMem
        split at hMem
        · rw [Option.toList_some, List.mem_singleton] at hMem
          rw [hMem]
          exact hLength
        · cases hMem

--
-- Recording
--

theorem Tracked.number (hTracked : Tracked content w) :
    Tracked content
      { w with
        credits := { w.credits with number := w.credits.number + 1 } } :=
  { hTracked with
    recorded := by
      intro block tree hGet
      have hOld := hTracked.recorded block tree hGet
      exact ⟨hOld.1, Nat.lt_succ_of_lt hOld.2.1, hOld.2.2⟩ }

/- The tree over a buffer that is not empty. -/
theorem deliverable_creditTree {buffer : CreditBuffer C.credits}
    (hAwards : buffer.awards.length ≠ 0) :
    Deliverable C.claims (CreditsState.creditTree buffer) where
  leaves := hAwards
  root := by
    apply C.rootNonzero
    intro hNil
    rw [List.map_eq_nil_iff] at hNil
    exact hAwards (by rw [BoundedVec.length_def, hNil]; rfl)
  fits := Nat.le_trans buffer.awards.length_le C.leavesFit

/- Where a delivery may be dropped, it may be queued. -/
theorem Tracked.queue
    (hDropped : Tracked content
        { w with
          credits :=
            { w.credits with
              dropped := w.credits.dropped ++ [block] } }) :
    Tracked content
      { w with
        credits := w.credits.queueCreditTreeDelivery block } := by
  unfold CreditsState.queueCreditTreeDelivery
  split
  · exact hDropped
  · rename_i queued hPush
    have hQueued := BoundedVec.tryPush_eq_some_iff.mp hPush
    refine
      { hDropped with
        coming := ?_
        next := saturatingAdd_le _ _ _
        accounted := ?_ }
    · have hComing := hDropped.coming.snoc hDropped.next
      unfold arriving at hComing ⊢
      dsimp only at hComing ⊢
      rw [hQueued, List.map_append, ← List.append_assoc]
      exact hComing
    · intro block' tree hRecorded
      rcases hDropped.accounted block' tree hRecorded with
        hDone | hHeld | hFlight | ⟨sequence, hMem⟩ | hLost
      · exact Or.inl hDone
      · exact Or.inr (Or.inl hHeld)
      · exact Or.inr (Or.inr (Or.inl hFlight))
      · refine Or.inr (Or.inr (Or.inr (Or.inl ⟨sequence, ?_⟩)))
        dsimp only
        rw [hQueued]
        exact List.mem_append_left _ hMem
      · dsimp only at hLost
        rw [List.mem_append, List.mem_singleton] at hLost
        rcases hLost with hPast | rfl
        · exact Or.inr (Or.inr (Or.inr (Or.inr hPast)))
        · refine Or.inr (Or.inr (Or.inr (Or.inl ⟨w.credits.nextCreditTreeSequence, ?_⟩)))
          dsimp only
          rw [hQueued]
          exact List.mem_append_right _ (List.mem_singleton_self _)

/- A tree that is recorded is queued, or dropped. -/
theorem Tracked.record (hTracked : Tracked content w) (hTree : tree = content w.credits.number)
    (hFine : Deliverable C.claims tree) :
    Tracked content
      { w with
        credits :=
          ({ w.credits with
              number := w.credits.number + 1 }
            : CreditsState C.credits).recordRoot w.credits.number tree
            |>.queueCreditTreeDelivery w.credits.number } := by
  have hGet : ∀ block, (w.credits.recorded.insert w.credits.number tree).get block
          = if block = w.credits.number then some tree else w.credits.recorded.get block :=
    fun block => get_insert _ _ _ _
  have hOld : ∀ block tree', w.credits.recorded.get block = some tree' →
          (w.credits.recorded.insert w.credits.number tree).get block = some tree' := by
    intro block tree' hRecorded
    rw [hGet, if_neg]
    · exact hRecorded
    · have hLt := (hTracked.recorded block tree' hRecorded).2.1
      omega
  apply Tracked.queue (w :=
      { w with
        credits :=
          ({ w.credits with
              number := w.credits.number + 1 }
            : CreditsState C.credits).recordRoot w.credits.number tree })
  exact
    { hTracked with
      recorded := by
        intro block tree' hRecorded
        change (w.credits.recorded.insert w.credits.number tree).get block = some tree' at hRecorded
        change _ ∧ block < w.credits.number + 1 ∧ _
        rw [hGet] at hRecorded
        by_cases hBlock : block = w.credits.number
        · rw [if_pos hBlock, Option.some.injEq] at hRecorded
          subst hBlock hRecorded
          exact ⟨hTree, Nat.lt_succ_self _, hFine⟩
        · rw [if_neg hBlock] at hRecorded
          have hPast := hTracked.recorded block tree' hRecorded
          exact ⟨hPast.1, Nat.lt_succ_of_lt hPast.2.1, hPast.2.2⟩
      roots := by
        intro block tree' hRoot
        change (w.credits.creditRoots.insert w.credits.number tree).get block = some tree' at hRoot
        change (w.credits.recorded.insert w.credits.number tree).get block = some tree'
        rw [get_insert] at hRoot
        by_cases hBlock : block = w.credits.number
        · rw [hGet, if_pos hBlock]
          rw [if_pos hBlock] at hRoot
          exact hRoot
        · rw [if_neg hBlock] at hRoot
          exact hOld block tree' (hTracked.roots block tree' hRoot)
      expiries := by
        intro timestamp block hEntry
        change (w.credits.rootExpiries.insert (tree.timestamp, w.credits.number) ()).get
            (timestamp, block) = some () at hEntry
        rw [get_insert] at hEntry
        by_cases hKey : (timestamp, block) = (tree.timestamp, w.credits.number)
        · rw [Prod.mk.injEq] at hKey
          rw [hKey.1, hKey.2, hTree]
        · rw [if_neg hKey] at hEntry
          exact hTracked.expiries timestamp block hEntry
      flight := by
        intro message hMem
        have hFlight := hTracked.flight message hMem
        refine ⟨hFlight.1, ?_⟩
        intro update hUpdate
        exact hOld _ _ (hFlight.2 update hUpdate)
      absent := by
        intro block tree' hRecorded hNone
        change (w.credits.recorded.insert w.credits.number tree).get block = some tree' at hRecorded
        change (w.credits.creditRoots.insert w.credits.number tree).get block = none at hNone
        rw [get_insert] at hNone
        rw [hGet] at hRecorded
        by_cases hBlock : block = w.credits.number
        · simp [hBlock] at hNone
        · rw [if_neg hBlock] at hNone hRecorded
          exact hTracked.absent block tree' hRecorded hNone
      accounted := by
        intro block tree' hRecorded
        change (w.credits.recorded.insert w.credits.number tree).get block = some tree' at hRecorded
        rw [hGet] at hRecorded
        by_cases hBlock : block = w.credits.number
        · subst hBlock
          exact Or.inr (Or.inr (Or.inr (Or.inr (List.mem_append_right _
              (List.mem_singleton_self _)))))
        · rw [if_neg hBlock] at hRecorded
          rcases hTracked.accounted block tree' hRecorded with
            hDone | hHeld | hFlight | hQueued | hDropped
          · exact Or.inl hDone
          · exact Or.inr (Or.inl hHeld)
          · exact Or.inr (Or.inr (Or.inl hFlight))
          · exact Or.inr (Or.inr (Or.inr (Or.inl hQueued)))
          · exact Or.inr (Or.inr (Or.inr (Or.inr (List.mem_append_left _ hDropped)))) }

end Individuality.CreditTrees
