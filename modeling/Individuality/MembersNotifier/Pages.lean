import Individuality.MembersNotifier.Effects
import Individuality.MembersNotifier.Sample
import Individuality.Base.Runs

/-
  The pages of recorded changes.  The steps carry along how many pages were opened and how many were
  sent, which the page numbers tell only up to a wrap-around.

  Main declaration: `Paging.page_buffer`
-/

namespace Individuality.MembersNotifier

open NotifierSubscriber NotifierState

variable {R : Type} {T : Config}

--
-- Pages
--

/- What the pallet requires of the size of a batch. -/
structure BatchBounds (T : Config) : Prop where
  maxUpdatesPerBatch_le : T.maxUpdatesPerBatch ≤ u32Max
  maxCollections_le : T.maxCollectionsPerSubscriber ≤ T.maxUpdatesPerBatch

/- A page from the send page on, up to the write page. -/
def PagingState.InRange (state : PagingState) (page : PageIndex) : Prop :=
  ∃ k, k ≤ (state.writePage + pageCount - state.sendPage) % pageCount
      ∧ page = (state.sendPage + k) % pageCount

section Entries

variable {s s' : NotifierState T} {page : PageIndex}

theorem mem_pageUpdates_iff {update : Identifier × RingIndex} :
    update ∈ s.pageUpdates page ↔ s.pendingUpdates.get (page, update) ≠ none := by
  unfold pageUpdates
  rw [List.mem_map]
  constructor
  · rintro ⟨⟨page', update'⟩, hMem, rfl⟩
    rw [List.mem_filter, decide_eq_true_eq, StorageMap.mem_keys_iff] at hMem
    rw [← hMem.2]
    exact hMem.1
  · intro hGet
    refine ⟨(page, update), ?_, rfl⟩
    rw [List.mem_filter, decide_eq_true_eq, StorageMap.mem_keys_iff]
    exact ⟨hGet, rfl⟩

theorem nodup_pageUpdates : (s.pageUpdates page).Nodup := by
  unfold pageUpdates
  apply List.Nodup.map_on
  · intro key hKey key' hKey' hSame
    rw [List.mem_filter, decide_eq_true_eq] at hKey hKey'
    exact Prod.ext (hKey.2.trans hKey'.2.symm) hSame
  · exact (AList.keys_nodup s.pendingUpdates).filter _

theorem pageUpdates_eq_nil_iff : s.pageUpdates page = []
      ↔ ∀ update, s.pendingUpdates.get (page, update) = none := by
  rw [List.eq_nil_iff_forall_not_mem]
  refine forall_congr' fun update => ?_
  rw [mem_pageUpdates_iff, not_not]

/- The same entries of a page, counted. -/
theorem length_pageUpdates_congr
    (hSame : ∀ update, s'.pendingUpdates.get (page, update) = s.pendingUpdates.get (page, update)) :
    (s'.pageUpdates page).length = (s.pageUpdates page).length := by
  apply List.Perm.length_eq
  rw [List.perm_ext_iff_of_nodup nodup_pageUpdates nodup_pageUpdates]
  intro update
  rw [mem_pageUpdates_iff, mem_pageUpdates_iff, hSame]

theorem length_pageUpdates_recordUpdate (page : PageIndex)
    {identifier : Identifier} {ringIndex : RingIndex}
    (hNew : s.pendingUpdates.get (s.pageState.writePage, identifier, ringIndex) = none) :
    ((s.recordUpdate identifier ringIndex).pageUpdates page).length = (s.pageUpdates page).length
        + if page = s.pageState.writePage then 1 else 0 := by
  split_ifs with hPage
  · rw [hPage, ← List.length_cons (a := (identifier, ringIndex))]
    apply List.Perm.length_eq
    rw [List.perm_ext_iff_of_nodup nodup_pageUpdates]
    · intro update
      rw [List.mem_cons, mem_pageUpdates_iff, mem_pageUpdates_iff]
      change (s.pendingUpdates.insert _ ()).get _ ≠ none ↔ _
      rw [StorageMap.get_insert]
      by_cases hUpdate : update = (identifier, ringIndex)
      · simp [hUpdate]
      · simp [hUpdate]
    · refine List.nodup_cons.mpr ⟨?_, nodup_pageUpdates⟩
      rw [mem_pageUpdates_iff, not_not]
      exact hNew
  · apply length_pageUpdates_congr
    intro update
    exact StorageMap.get_insert_of_ne _ _ fun hKey => hPage (congrArg Prod.fst hKey)

/-
  The bounded removal takes a whole page away, when there are
  no more updates on it than fit into a batch.
-/
theorem get_cleanupSendBuffer (block : Nat)
    (hLe : (s.pageUpdates page).length ≤ T.maxUpdatesPerBatch)
    (key : PageIndex × Identifier × RingIndex) :
    (s.cleanupSendBuffer block page).pendingUpdates.get key
      = if key.1 = page then none else s.pendingUpdates.get key := by
  unfold pageUpdates at hLe
  rw [List.length_map] at hLe
  unfold cleanupSendBuffer
  dsimp only
  rw [List.take_of_length_le hLe, StorageMap.get_foldl_remove]
  by_cases hPage : key.1 = page
  · rw [if_pos hPage]
    split_ifs with hMem
    · rfl
    · rw [List.mem_filter, decide_eq_true_eq, StorageMap.mem_keys_iff, not_and'] at hMem
      exact not_not.mp (hMem hPage)
  · rw [if_neg hPage, if_neg]
    intro hMem
    exact hPage (of_decide_eq_true (List.mem_filter.mp hMem).2)

end Entries

--
-- Effects on the Pages
--

/-
  Two states with the same pages.  A collection that is new
  to the subscribed ones has a place in a subscription.
-/
structure SamePages (s s' : NotifierState T) : Prop where
  pageState_eq : s'.pageState = s.pageState
  pendingUpdates_eq : s'.pendingUpdates = s.pendingUpdates
  pageUpdatesCount_eq : s'.pageUpdatesCount = s.pageUpdatesCount
  subscribed : ∀ identifier ∈ s'.subscribedCollections,
      identifier ∈ s.subscribedCollections
        ∨ 0 < T.maxCollectionsPerSubscriber

theorem SamePages.of_subscribed_eq {s s' : NotifierState T} (hState : s'.pageState = s.pageState)
    (hPending : s'.pendingUpdates = s.pendingUpdates)
    (hCount : s'.pageUpdatesCount = s.pageUpdatesCount)
    (hSubscribed : s'.subscribedCollections = s.subscribedCollections) :
    SamePages s s' := by
  refine ⟨hState, hPending, hCount, ?_⟩
  intro identifier hMem
  rw [hSubscribed] at hMem
  exact .inl hMem

/- A subscription with a collection has room for one. -/
theorem room_of_mem_rebuilt {s : NotifierState T} {identifier : Identifier}
    (hMem : identifier ∈ s.rebuildSubscribedCollections.subscribedCollections) :
    0 < T.maxCollectionsPerSubscriber := by
  unfold rebuildSubscribedCollections at hMem
  rw [List.mem_toFinset, List.mem_flatMap] at hMem
  rcases hMem with ⟨e, _, hCollection⟩
  have hPos := List.length_pos_of_mem hCollection
  rw [List.length_map] at hPos
  exact hPos.trans_le e.2.collections.length_le

theorem samePages_countDown (s : NotifierState T) (batch : BatchDistributionState) :
    SamePages s (s.countDown batch) := by
  unfold countDown
  split_ifs
  · exact .of_subscribed_eq rfl rfl rfl rfl
  · exact .of_subscribed_eq rfl rfl rfl rfl

theorem samePages_leaveBatch (s : NotifierState T) (paraId : ParaId) (info : SubscriberInfo T) :
    SamePages s (s.leaveBatch paraId info) := by
  unfold leaveBatch
  split
  · exact .of_subscribed_eq rfl rfl rfl rfl
  · split_ifs
    · exact .of_subscribed_eq rfl rfl rfl rfl
    · exact samePages_countDown s _
    · exact .of_subscribed_eq rfl rfl rfl rfl

/- Only the hook of the provider and the sealing of a page change the pages. -/
theorem NotifierEffect.pages {s s' : NotifierState T} {chain : Chain R} {op : NotifierOp T}
    {sent : Sent R} (hEffect : NotifierEffect s chain op s' sent) :
    SamePages s s' ∨ (∃ identifier ringIndex, s' = s.onRingRootChange identifier ringIndex)
      ∨ ∃ block, SamePages (s.drained block) s' := by
  cases hEffect with
  | joined =>
    exact .inl ⟨rfl, rfl, rfl, fun _ hMem => .inr (room_of_mem_rebuilt hMem)⟩
  | left p _ info _ =>
    have hLeave := samePages_leaveBatch (s.removed p info) p info
    refine .inl ⟨hLeave.pageState_eq, hLeave.pendingUpdates_eq, hLeave.pageUpdatesCount_eq, ?_⟩
    intro identifier hMem
    rcases hLeave.subscribed identifier hMem with hOld | hRoom
    · exact .inr (room_of_mem_rebuilt hOld)
    · exact .inr hRoom
  | drained =>
    exact .inr (.inr ⟨chain.block, .of_subscribed_eq rfl rfl rfl rfl⟩)
  | «sealed» =>
    refine .inr (.inr ⟨chain.block, ?_⟩)
    unfold NotifierState.sealed NotifierState.drained sealWritePage
    split_ifs
    · exact .of_subscribed_eq rfl rfl rfl rfl
    · exact .of_subscribed_eq rfl rfl rfl rfl
  | skipped p batch | delivered p batch =>
    have hCount := samePages_countDown
        { s with
          subscribersWithCurrentBatch := insert p s.subscribersWithCurrentBatch } batch
    exact .inl ⟨hCount.pageState_eq, hCount.pendingUpdates_eq,
      hCount.pageUpdatesCount_eq, hCount.subscribed⟩
  | changed identifier ringIndex =>
    exact .inr (.inl ⟨identifier, ringIndex, rfl⟩)
  | replayed | retried | initStalled | initFinished | initPage
  | abandoned =>
    exact .inl (.of_subscribed_eq rfl rfl rfl rfl)

--
-- The Buffer
--

/- The pallet, with the numbers of pages opened and sent. -/
structure Paging (T : Config) where
  pallet : NotifierState T
  opened : Nat
  sent : Nat

/-
  What is recorded of the pages from the send page to the
  write page, and that nothing is recorded of others.
-/
structure PageBuffer (w : Paging T) : Prop where
  write_eq : w.pallet.pageState.writePage = w.opened % pageCount
  send_eq : w.pallet.pageState.sendPage = w.sent % pageCount
  sent_le : w.sent ≤ w.opened
  few : w.opened < w.sent + pageCount
  count_eq : ∀ page,
      w.pallet.pageUpdatesCount.getD page 0
        = (w.pallet.pageUpdates page).length
  count_le : ∀ page,
      (w.pallet.pageUpdates page).length ≤ T.maxUpdatesPerBatch
  inside : ∀ page,
      w.pallet.pageUpdates page ≠ [] →
        ∃ k, w.sent ≤ k ∧ k ≤ w.opened ∧ page = k % pageCount
  room : ∀ identifier ∈ w.pallet.subscribedCollections,
      0 < T.maxUpdatesPerBatch

namespace PageBuffer

variable {w : Paging T}

theorem genesis (whitelist : StorageMap ParaId (Collections T)) :
    PageBuffer ⟨NotifierState.genesis whitelist, 0, 0⟩ where
  write_eq := rfl
  send_eq := rfl
  sent_le := Nat.le_refl 0
  few := show 0 < 0 + pageCount by decide
  count_eq := fun _ => rfl
  count_le := fun _ => Nat.zero_le _
  inside := fun _ hNe => absurd rfl hNe
  room := fun _ hMem => absurd hMem (Finset.notMem_empty _)

theorem of_samePages (hBounds : BatchBounds T) (hBuffer : PageBuffer w) {s : NotifierState T}
    (hSame : SamePages w.pallet s) :
    PageBuffer { w with pallet := s } := by
  have hUpdates : s.pageUpdates = w.pallet.pageUpdates := by
    funext page
    unfold pageUpdates
    rw [hSame.pendingUpdates_eq]
  refine ⟨?_, ?_, hBuffer.sent_le, hBuffer.few, ?_, ?_, ?_, ?_⟩
  · rw [hSame.pageState_eq]
    exact hBuffer.write_eq
  · rw [hSame.pageState_eq]
    exact hBuffer.send_eq
  · rw [hUpdates, hSame.pageUpdatesCount_eq]
    exact hBuffer.count_eq
  · rw [hUpdates]
    exact hBuffer.count_le
  · rw [hUpdates]
    exact hBuffer.inside
  · intro identifier hMem
    rcases hSame.subscribed identifier hMem with hOld | hRoom
    · exact hBuffer.room identifier hOld
    · exact hRoom.trans_le hBounds.maxCollections_le

/- Another page is opened, which has nothing on it yet. -/
theorem openPage (hBuffer : PageBuffer w) (hFew : w.opened + 1 < w.sent + pageCount) :
    PageBuffer
        ⟨{ w.pallet with
            pageState :=
              { w.pallet.pageState with
                writePage := nextPage w.pallet.pageState.writePage } },
          w.opened + 1, w.sent⟩
      ∧ w.pallet.pageUpdates (nextPage w.pallet.pageState.writePage) = [] := by
  have hNext : nextPage w.pallet.pageState.writePage = (w.opened + 1) % pageCount := by
    unfold nextPage
    rw [hBuffer.write_eq, Nat.mod_add_mod]
  constructor
  · refine ⟨hNext, hBuffer.send_eq, hBuffer.sent_le.trans (Nat.le_succ _), hFew,
      hBuffer.count_eq, hBuffer.count_le, ?_, hBuffer.room⟩
    intro page hNe
    rcases hBuffer.inside page hNe with ⟨k, hSent, hOpened, hPage⟩
    exact ⟨k, hSent, Nat.le_succ_of_le hOpened, hPage⟩
  · by_contra hNe
    rcases hBuffer.inside _ hNe with ⟨k, hSent, hOpened, hPage⟩
    rw [hNext] at hPage
    have hSame : (w.opened + 1) % 65536 = k % 65536 := hPage
    unfold pageCount at hFew
    omega

/- A change is recorded on a write page with room for it. -/
theorem record (hBounds : BatchBounds T) (hBuffer : PageBuffer w)
    {identifier : Identifier} {ringIndex : RingIndex}
    (hNew : w.pallet.pendingUpdates.get
        (w.pallet.pageState.writePage, identifier, ringIndex) = none)
    (hRoom : (w.pallet.pageUpdates w.pallet.pageState.writePage).length < T.maxUpdatesPerBatch) :
    PageBuffer
      { w with
        pallet := w.pallet.recordUpdate identifier ringIndex } := by
  have hLength := fun page => length_pageUpdates_recordUpdate page hNew
  refine ⟨hBuffer.write_eq, hBuffer.send_eq, hBuffer.sent_le, hBuffer.few, ?_, ?_, ?_, hBuffer.room⟩
  · intro page
    rw [hLength]
    unfold recordUpdate
    dsimp only
    rw [StorageMap.getD_insert]
    split_ifs with hPage
    · rw [hBuffer.count_eq, hPage]
      apply saturatingAdd_of_le
      exact Nat.succ_le_of_lt (hRoom.trans_le hBounds.maxUpdatesPerBatch_le)
    · exact hBuffer.count_eq page
  · intro page
    rw [hLength]
    split_ifs with hPage
    · rw [hPage]
      exact hRoom
    · exact hBuffer.count_le page
  · intro page hNe
    by_cases hPage : page = w.pallet.pageState.writePage
    · exact ⟨w.opened, hBuffer.sent_le, Nat.le_refl _, hPage.trans hBuffer.write_eq⟩
    · apply hBuffer.inside page
      have hPos := List.length_pos_iff.mpr hNe
      rw [hLength, if_neg hPage] at hPos
      exact List.length_pos_iff.mp hPos

/- The send page is cleared, unless it is the write page. -/
theorem cleanup (hBuffer : PageBuffer w) (block : Nat) (hLt : w.sent < w.opened) :
    PageBuffer ⟨w.pallet.cleanupSendBuffer block w.pallet.pageState.sendPage,
        w.opened, w.sent + 1⟩ := by
  have hGet := get_cleanupSendBuffer block (hBuffer.count_le w.pallet.pageState.sendPage)
  have hSent : (w.pallet.cleanupSendBuffer block w.pallet.pageState.sendPage).pageUpdates
          w.pallet.pageState.sendPage = [] := by
    rw [pageUpdates_eq_nil_iff]
    intro update
    rw [hGet, if_pos rfl]
  have hOther : ∀ page, page ≠ w.pallet.pageState.sendPage → ((w.pallet.cleanupSendBuffer block
          w.pallet.pageState.sendPage).pageUpdates page).length
            = (w.pallet.pageUpdates page).length := by
    intro page hPage
    apply length_pageUpdates_congr
    intro update
    rw [hGet, if_neg hPage]
  have hFew : w.opened < w.sent + 1 + pageCount :=
    hBuffer.few.trans (Nat.add_lt_add_right (Nat.lt_succ_self _) _)
  refine ⟨hBuffer.write_eq, ?_, hLt, hFew, ?_, ?_, ?_, hBuffer.room⟩
  · change nextPage w.pallet.pageState.sendPage = _
    unfold nextPage
    rw [hBuffer.send_eq, Nat.mod_add_mod]
  · intro page
    change (w.pallet.pageUpdatesCount.remove _).getD page 0 = _
    rw [StorageMap.getD_remove]
    split_ifs with hPage
    · rw [hPage, hSent]
      rfl
    · rw [hOther page hPage]
      exact hBuffer.count_eq page
  · intro page
    by_cases hPage : page = w.pallet.pageState.sendPage
    · rw [hPage, hSent]
      exact Nat.zero_le _
    · rw [hOther page hPage]
      exact hBuffer.count_le page
  · intro page hNe
    have hPage : page ≠ w.pallet.pageState.sendPage := by
      intro hPage
      rw [hPage] at hNe
      exact hNe hSent
    have hPos := List.length_pos_iff.mpr hNe
    rw [hOther page hPage] at hPos
    rcases hBuffer.inside page (List.length_pos_iff.mp hPos) with ⟨k, hSentLe, hOpened, hMod⟩
    refine ⟨k, Nat.lt_of_le_of_ne hSentLe ?_, hOpened, hMod⟩
    -- the first page to be sent is the one that is cleared
    intro hFirst
    rw [← hFirst, ← hBuffer.send_eq] at hMod
    exact hPage hMod

end PageBuffer

--
-- Runs
--

theorem nextPage_ne (page : Nat) : nextPage page ≠ page := by
  intro hSame
  have hMod : (page + 1) % 65536 = page := hSame
  omega

/- Whether a pointer went on to another page. -/
def moved (page page' : PageIndex) : Nat :=
  if page' = page then 0 else 1

@[simp] theorem moved_self (page : PageIndex) : moved page page = 0 := if_pos rfl

@[simp] theorem moved_nextPage (page : PageIndex) :
    moved page (nextPage page) = 1 :=
  if_neg (nextPage_ne page)

namespace Paging

def start (whitelist : StorageMap ParaId (Collections T)) : Paging T where
  pallet := .genesis whitelist
  opened := 0
  sent := 0

/- Count how the pointers have moved to a new state. -/
def follow (w : Paging T) (s : NotifierState T) : Paging T where
  pallet := s
  opened := w.opened + moved w.pallet.pageState.writePage s.pageState.writePage
  sent := w.sent + moved w.pallet.pageState.sendPage s.pageState.sendPage

def step (w : Paging T) (call : Chain R × NotifierOp T) : Except Failure (Paging T) :=
  (fun result => w.follow result.1) <$> w.pallet.apply call.1 call.2

def outstanding (w : Paging T) : Nat :=
  w.opened - w.sent

/-
  There are fewer outstanding pages than page numbers.  The
  pointers do not show it later when there were more.
-/
def FewOutstanding (_ : Paging T) (_ : Chain R × NotifierOp T) (w' : Paging T) : Prop :=
  w'.outstanding < pageCount

/- The counters of pages only depend on the pointers. -/
theorem follow_of_samePages (w : Paging T) {s s' : NotifierState T} (hSame : SamePages s s') :
    w.follow s' = { w.follow s with pallet := s' } := by
  unfold follow
  rw [hSame.pageState_eq]

theorem follow_self (w : Paging T) : w.follow w.pallet = w := by
  unfold follow
  rw [moved_self, moved_self]
  rfl

/- A change of a ring is recorded, on a new page if need be. -/
theorem pageBuffer_onRingRootChange {w : Paging T} (hBounds : BatchBounds T)
    (hBuffer : PageBuffer w) {identifier : Identifier} {ringIndex : RingIndex}
    (hFew : (w.follow (w.pallet.onRingRootChange identifier ringIndex)).outstanding < pageCount) :
    PageBuffer (w.follow (w.pallet.onRingRootChange identifier ringIndex)) := by
  unfold onRingRootChange at hFew ⊢
  split_ifs at hFew ⊢ with hSubscribed hKnown
  · rw [follow_self]
    exact hBuffer
  · have hPos := hBuffer.room identifier hSubscribed
    have hNew := StorageMap.containsKey_eq_false_iff.mp (Bool.eq_false_iff.mpr hKnown)
    unfold openWritePage at hFew ⊢
    dsimp only at hFew ⊢
    split_ifs at hFew ⊢ with hFull
    · have hOpened : (w.opened + moved w.pallet.pageState.writePage
              (nextPage w.pallet.pageState.writePage))
            - (w.sent + moved w.pallet.pageState.sendPage
                w.pallet.pageState.sendPage) < pageCount :=
        hFew
      rw [moved_nextPage, moved_self] at hOpened
      rcases hBuffer.openPage (by omega) with ⟨hOpen, hNil⟩
      have hRecord := hOpen.record hBounds (pageUpdates_eq_nil_iff.mp hNil (identifier, ringIndex))
          (lt_of_eq_of_lt (congrArg List.length hNil) hPos)
      unfold follow recordUpdate
      dsimp only
      rw [moved_nextPage, moved_self]
      exact hRecord
    · have hRecord := hBuffer.record hBounds hNew
          (by rw [← hBuffer.count_eq]; exact Nat.lt_of_not_le hFull)
      unfold follow recordUpdate
      dsimp only
      rw [moved_self, moved_self]
      exact hRecord
  · rw [follow_self]
    exact hBuffer

/- The write page is opened first when it is the send page. -/
theorem pageBuffer_drained {w : Paging T} (hBuffer : PageBuffer w) (block : Nat) :
    PageBuffer (w.follow (w.pallet.drained block)) := by
  have hFew := hBuffer.few
  have hLe := hBuffer.sent_le
  unfold NotifierState.drained sealWritePage follow
  split_ifs with hPage
  · have hSame : w.sent % 65536 = w.opened % 65536 :=
      hBuffer.send_eq.symm.trans (hPage.trans hBuffer.write_eq)
    unfold pageCount at hFew
    have hOpen := (hBuffer.openPage (by unfold pageCount; omega)).1
    unfold cleanupSendBuffer
    dsimp only
    rw [moved_nextPage, moved_nextPage]
    exact hOpen.cleanup block (Nat.lt_succ_of_le hLe)
  · have hLt : w.sent < w.opened := by
      refine Nat.lt_of_le_of_ne hLe ?_
      intro hSame
      apply hPage
      rw [hBuffer.send_eq, hBuffer.write_eq, hSame]
    unfold cleanupSendBuffer
    dsimp only
    rw [moved_self, moved_nextPage]
    exact hBuffer.cleanup block hLt

theorem pageBuffer_step {w w' : Paging T} {call : Chain R × NotifierOp T} (hBounds : BatchBounds T)
    (hFew : FewOutstanding w call w') (hStep : step w call = .ok w') (hBuffer : PageBuffer w) :
    PageBuffer w' := by
  unfold step at hStep
  rw [Except.map_eq_ok] at hStep
  rcases hStep with ⟨⟨s', sent⟩, hApply, rfl⟩
  rcases (notifierEffect_of_apply hApply).pages with
    hSame | ⟨identifier, ringIndex, rfl⟩ | ⟨block, hSame⟩
  · rw [follow_of_samePages w hSame, follow_self]
    exact hBuffer.of_samePages hBounds hSame
  · exact pageBuffer_onRingRootChange hBounds hBuffer hFew
  · rw [follow_of_samePages w hSame]
    exact (pageBuffer_drained hBuffer block).of_samePages hBounds hSame

theorem pageBuffer_run (hBounds : BatchBounds T) (whitelist : StorageMap ParaId (Collections T))
    {w : Paging T} (hRun : RunUnder (step (R := R)) FewOutstanding (start whitelist) w) :
    PageBuffer w :=
  hRun.invariant PageBuffer
    (fun _ _ _ hFew hStep hBuffer => pageBuffer_step hBounds hFew hStep hBuffer)
    (.genesis whitelist)

/- The pages between the pointers, by the numbers of both. -/
theorem inRange_of_pending {w : Paging T} (hBuffer : PageBuffer w) {page : PageIndex}
    (hNe : w.pallet.pageUpdates page ≠ []) :
    w.pallet.pageState.InRange page := by
  rcases hBuffer.inside page hNe with ⟨k, hSent, hOpened, hPage⟩
  have hFew := hBuffer.few
  refine ⟨k - w.sent, ?_, ?_⟩
  · rw [hBuffer.write_eq, hBuffer.send_eq]
    change k - w.sent ≤ (w.opened % 65536 + 65536 - w.sent % 65536) % 65536
    unfold pageCount at hFew
    omega
  · rw [hBuffer.send_eq, Nat.mod_add_mod, Nat.add_sub_of_le hSent]
    exact hPage

/- A whole page is cleared, whatever else has changed. -/
theorem cleared {w : Paging T} (hBuffer : PageBuffer w) {s : NotifierState T}
    (block : Nat) (page : PageIndex) (hPending : s.pendingUpdates = w.pallet.pendingUpdates) :
    (s.cleanupSendBuffer block page).pageUpdates page = [] := by
  have hUpdates : s.pageUpdates page = w.pallet.pageUpdates page := by
    unfold pageUpdates
    rw [hPending]
  rw [pageUpdates_eq_nil_iff]
  intro update
  rw [get_cleanupSendBuffer, if_pos rfl]
  rw [hUpdates]
  exact hBuffer.count_le page

theorem pendingUpdates_sealWritePage (s : NotifierState T) :
    s.sealWritePage.pendingUpdates = s.pendingUpdates := by
  unfold sealWritePage
  split_ifs
  · rfl
  · rfl

/- No changed ring of a collection is cut off. -/
theorem truncateFrom_changedIndices {w : Paging T} (hBuffer : PageBuffer w) (page : PageIndex)
    (identifier : Identifier) :
    (truncateFrom (n := T.maxUpdatesPerBatch)
      (changedIndices (w.pallet.pageUpdates page) identifier)).toList
      = changedIndices (w.pallet.pageUpdates page) identifier := by
  apply List.take_of_length_le
  unfold changedIndices
  rw [List.length_insertionSort, List.length_map]
  exact (List.length_filter_le _ _).trans (hBuffer.count_le page)

/-
  The page that is sealed is drained, and each collection that
  is subscribed to gets all its changes into the batch.
-/
theorem enqueued {w : Paging T} (hBuffer : PageBuffer w)
    {chain : Chain R} {page : PageIndex} {s' : NotifierState T} {sent : Sent R}
    (hApply : w.pallet.apply chain (.enqueueUpdates page) = .ok (s', sent)) :
    s'.pageUpdates page = [] ∧ (w.pallet.subscribers.keys.length ≠ 0 → ∀ identifier ∈
          w.pallet.changedCollections (w.pallet.pageUpdates page),
        ∃ indices, s'.sealedBatchIndices.get identifier = some indices
            ∧ indices.toList = changedIndices (w.pallet.pageUpdates page) identifier) := by
  cases notifierEffect_of_apply hApply with
  | joined op p collections hOp =>
    rcases hOp with hEq | hEq
    · cases hEq
    · cases hEq
  | drained _ hNone =>
    refine ⟨cleared hBuffer _ _ (pendingUpdates_sealWritePage _), ?_⟩
    intro hSubscribers identifier hMem
    rcases hNone with hZero | hNil
    · exact absurd hZero hSubscribers
    · rw [hNil] at hMem
      cases hMem
  | «sealed» =>
    refine ⟨cleared hBuffer _ _ (pendingUpdates_sealWritePage _), ?_⟩
    intro _ identifier hMem
    refine ⟨_, ?_, truncateFrom_changedIndices hBuffer _ identifier⟩
    exact (StorageMap.get_foldl_insert _ _ _ _).trans (if_pos hMem)

/-
  The count of a page is the number of its entries and no more than fit into a batch, and the other
  pages are empty.  So a page is drained as a whole, and nothing of it is cut off.
-/
theorem page_buffer (hBounds : BatchBounds T) (whitelist : StorageMap ParaId (Collections T))
    (w : Paging T) (hRun : RunUnder (step (R := R)) FewOutstanding (start whitelist) w) :
    (∀ page, w.pallet.pageUpdatesCount.getD page 0 = (w.pallet.pageUpdates page).length
        ∧ (w.pallet.pageUpdates page).length ≤ T.maxUpdatesPerBatch) ∧
      (∀ page, ¬ w.pallet.pageState.InRange page → w.pallet.pageUpdates page = []) ∧
      ∀ (chain : Chain R) page s' sent,
        w.pallet.apply chain (.enqueueUpdates page) = .ok (s', sent) → s'.pageUpdates page = [] ∧
            (w.pallet.subscribers.keys.length ≠ 0 → ∀ identifier ∈
                  w.pallet.changedCollections (w.pallet.pageUpdates page),
                ∃ indices, s'.sealedBatchIndices.get identifier = some indices
                    ∧ indices.toList = changedIndices (w.pallet.pageUpdates page) identifier) := by
  have hBuffer := pageBuffer_run hBounds whitelist hRun
  refine ⟨?_, ?_, ?_⟩
  · intro page
    exact ⟨hBuffer.count_eq page, hBuffer.count_le page⟩
  · intro page hOutside
    by_contra hNe
    exact hOutside (inRange_of_pending hBuffer hNe)
  · intro chain page s' sent hApply
    exact enqueued hBuffer hApply

/- The steps that keep the outstanding pages few. -/
def keepsFew (w : Paging sampleConfig) (call : Chain Nat × NotifierOp sampleConfig) : Bool :=
  match step w call with
  | .error _ => false
  | .ok w' => w'.outstanding < pageCount

theorem fewOutstanding_of_keepsFew
    (w : Paging sampleConfig) (call : Chain Nat × NotifierOp sampleConfig)
    (w' : Paging sampleConfig) (hCheck : keepsFew w call = true) (hStep : step w call = .ok w') :
    FewOutstanding w call w' := by
  unfold keepsFew at hCheck
  rw [hStep] at hCheck
  unfold FewOutstanding
  exact of_decide_eq_true hCheck

/- Five changes take two pages of four. -/
theorem page_buffer_sample : ∃ w : Paging sampleConfig,
      w.pallet.pageState.writePage = 1 ∧ w.pallet.pageUpdatesCount.getD 1 0
          = (w.pallet.pageUpdates 1).length := by
  have hExecute : ((execute (step (R := Nat)) keepsFew (start (T := sampleConfig) .empty)
        (([NotifierOp.subscribe 1 sampleCollections] ++ (List.range 5).map fun ringIndex =>
            NotifierOp.onRingRootChange MembersPallet.sampleIdentifier ringIndex).map
                (sampleChain, ·))).any fun w =>
        w.pallet.pageState.writePage = 1) = true := by
    decide +kernel
  rcases exists_run_of_execute fewOutstanding_of_keepsFew hExecute with ⟨w, hRun, hTest⟩
  exact ⟨w, of_decide_eq_true hTest, ((page_buffer ⟨by decide, by decide⟩ .empty w hRun).1 1).1⟩

end Paging

end Individuality.MembersNotifier
