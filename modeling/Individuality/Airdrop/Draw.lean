import Individuality.Airdrop.Conservation
import Individuality.Airdrop.Sample
import Individuality.Base.Window

/-
  The draw of an event makes winners of the registrations that come first in a cyclic walk from the
  entropy, whatever the batches are.

  Main declaration: `World.draw_window`
-/

namespace Individuality.Airdrop

open Except (ok_bind)

variable {T : Config} {eventId : EventId}

--
-- Winners of a Batch
--

/- No entry is listed under two slots. -/
def OneSlotEach (xs : List (BigEndianU256 × T.Entry)) : Prop :=
  ∀ x ∈ xs, ∀ y ∈ xs, x.2 = y.2 → x.1 = y.1

namespace World

theorem addWinners_key (eventId : EventId) (winners : DoubleMap EventId T.Entry BigEndianU256)
    (key : BigEndianU256) (batch : List (BigEndianU256 × T.Entry)) :
    (addWinners eventId winners key batch).2 = resumeKey key batch := by
  induction batch generalizing winners key with
  | nil => rfl
  | cons x rest ih => exact ih _ _

/- Winners of a batch are added to the others. -/
theorem get_addWinners {winners : DoubleMap EventId T.Entry BigEndianU256}
    {batch : List (BigEndianU256 × T.Entry)} (hOne : OneSlotEach batch)
    (key : BigEndianU256) (slot : BigEndianU256) (entry : T.Entry) :
    (addWinners eventId winners key batch).1.get (eventId, entry) = some slot
      ↔ (slot, entry) ∈ batch ∨ ((∀ slot', (slot', entry) ∉ batch)
          ∧ winners.get (eventId, entry) = some slot) := by
  induction batch generalizing winners key with
  | nil =>
    unfold addWinners
    simp
  | cons x rest ih =>
    rcases x with ⟨slot₀, entry₀⟩
    have hRest : OneSlotEach rest := by
      intro y hY z hZ
      exact hOne y (List.mem_cons_of_mem _ hY) z (List.mem_cons_of_mem _ hZ)
    unfold addWinners
    rw [ih hRest, StorageMap.get_insert]
    simp only [Prod.mk.injEq, true_and, List.mem_cons]
    by_cases hEntry : entry = entry₀
    · -- the head is stored, unless the entry comes again
      subst hEntry
      rw [if_pos rfl]
      simp only [Option.some.injEq, and_true]
      have hSame : ∀ slot', (slot', entry) ∈ rest → slot' = slot₀ := by
        intro slot' hMem
        exact hOne (slot', entry) (List.mem_cons_of_mem _ hMem)
            (slot₀, entry) List.mem_cons_self rfl
      constructor
      · rintro (hMem | ⟨_, rfl⟩)
        · exact Or.inl (Or.inr hMem)
        · exact Or.inl (Or.inl rfl)
      · rintro ((rfl | hMem) | ⟨hNone, _⟩)
        · by_cases hMem : (slot, entry) ∈ rest
          · exact Or.inl hMem
          · refine Or.inr ⟨?_, rfl⟩
            intro slot' hMem'
            rw [hSame slot' hMem'] at hMem'
            exact hMem hMem'
        · exact Or.inl hMem
        · exact absurd (Or.inl rfl) (hNone slot₀)
    · rw [if_neg hEntry]
      simp only [hEntry, and_false, false_or]

end World

--
-- A Draw in Progress
--

/-
  A draw from the entropy has made winners of the entries it
  has done, and the others on its walk are still to be done.
-/
structure DrawnUpTo (w₀ w : World T) (eventId : EventId) (total effective : Nat)
    (entropy : BigEndianU256) (done : List (BigEndianU256 × T.Entry)) : Prop where
  registrations : w.state.registrations = w₀.state.registrations
  failures : w.failures = w₀.failures
  event : ∃ event,
      w.state.events.get eventId = some event
        ∧ event.status
          = .drawWinners total effective done.length
              (resumeKey entropy done)
  walk : ∃ todo,
      cyclicAfter entropy
          (w₀.state.registrations.iterPrefix eventId)
        = done ++ todo
  winners : ∀ slot entry,
      w.state.winners.get (eventId, entry) = some slot ↔ (slot, entry) ∈ done

/- Registrations of an event that no entry has twice. -/
def DistinctEntries (s : AirdropState T) (eventId : EventId) : Prop :=
  ∀ slot slot' entry, s.registrations.get (eventId, slot) = some entry →
    s.registrations.get (eventId, slot') = some entry → slot = slot'

theorem DistinctEntries.oneSlotEach {s : AirdropState T} (hDistinct : DistinctEntries s eventId)
    {xs : List (BigEndianU256 × T.Entry)}
    (hSub : ∀ x ∈ xs, x ∈ s.registrations.iterPrefix eventId) :
    OneSlotEach xs := by
  rintro ⟨slot, entry⟩ hX ⟨slot', entry'⟩ hY hEq
  have hEntry : entry = entry' := hEq
  subst hEntry
  exact hDistinct slot slot' entry (DoubleMap.mem_iterPrefix_iff.mp (hSub _ hX))
      (DoubleMap.mem_iterPrefix_iff.mp (hSub _ hY))

variable {done : List (BigEndianU256 × T.Entry)} {entropy : BigEndianU256}

/- One call draws the next batch of the walk. -/
theorem DrawnUpTo.next {w₀ w : World T} {total effective : Nat}
    (hDrawn : DrawnUpTo w₀ w eventId total effective entropy done)
    (hDistinct : DistinctEntries w₀.state eventId)
    (hLe : effective ≤ w₀.state.registrations.count eventId) (hMax : effective ≤ u32Max)
    (hDone : done.length ≤ effective) (chain : Chain T) :
    ∃ w' batch, w.dispatch (chain, .drawWinnersAuthorized .inBlock eventId) = .ok w'
        ∧ DrawnUpTo w₀ w' eventId total effective entropy (done ++ batch)
        ∧ batch.length = min (effective - done.length)
            chain.limits.drawLimit := by
  rcases hDrawn with ⟨hRegs, hFailures, ⟨event, hGet, hStatus⟩, ⟨todo, hWalk⟩, hWinners⟩
  generalize hCapped : min (effective - done.length) chain.limits.drawLimit = capped
  have hTodo : capped ≤ todo.length := by
    have hLength := congrArg List.length hWalk
    rw [length_cyclicAfter, DoubleMap.length_iterPrefix, List.length_append] at hLength
    omega
  have hBatch : w.drawnBatch eventId (resumeKey entropy done) capped = todo.take capped := by
    unfold World.drawnBatch DoubleMap.iterPrefixFrom
    rw [hRegs]
    exact take_resume (DoubleMap.pairwise_iterPrefix _ _) hWalk hTodo
  have hLength : (todo.take capped).length = capped := by
    rw [List.length_take]
    omega
  have hMember : ∀ x ∈ done ++ todo, x ∈ w₀.state.registrations.iterPrefix eventId := by
    intro x hMem
    rw [← hWalk] at hMem
    exact mem_cyclicAfter_iff.mp hMem
  have hOne : OneSlotEach (done ++ todo) := hDistinct.oneSlotEach hMember
  have hTake : ∀ x ∈ todo.take capped, x ∈ done ++ todo :=
    fun x hMem => List.mem_append_right _ (List.mem_of_mem_take hMem)
  have hOneBatch : OneSlotEach (todo.take capped) :=
    fun x hX y hY => hOne x (hTake x hX) y (hTake y hY)
  have hAuthorize : w.authorizeDrawWinners chain .inBlock eventId = .ok () := by
    unfold World.authorizeDrawWinners World.authorize World.ensureLocal
    rw [ensure_of (Or.inl rfl), ok_bind, hGet, okOr_some, ok_bind, hStatus]
    rfl
  have hCall : w.dispatch (chain, .drawWinnersAuthorized .inBlock eventId) = .ok
          { w with
            state := AirdropState.insertEvent
                { w.state with
                  winners := (World.addWinners eventId w.state.winners (resumeKey entropy done)
                      (todo.take capped)).1 }
                eventId
                { event with
                  status := .drawWinners total effective (saturatingAdd u32Max done.length capped)
                      (World.addWinners eventId w.state.winners (resumeKey entropy done)
                        (todo.take capped)).2 } } := by
    unfold World.dispatch
    dsimp only
    rw [hAuthorize, ok_bind]
    unfold World.drawWinners
    rw [hGet, okOr_some, ok_bind, hStatus]
    dsimp only
    rw [hCapped, hBatch, hLength, if_pos rfl]
    rfl
  refine ⟨_, todo.take capped, hCall, ?_, hLength⟩
  refine ⟨hRegs, hFailures, ?_, ?_, ?_⟩
  · refine ⟨_, StorageMap.get_insert_self _ _ _, ?_⟩
    dsimp only
    have hAdded : done.length + capped ≤ u32Max := by omega
    rw [saturatingAdd_of_le hAdded, World.addWinners_key,
      ← resumeKey_append, List.length_append, hLength]
  · refine ⟨todo.drop capped, ?_⟩
    rw [List.append_assoc, List.take_append_drop, hWalk]
  · intro slot entry
    refine (World.get_addWinners hOneBatch _ slot entry).trans ?_
    rw [hWinners slot entry, List.mem_append]
    constructor
    · rintro (hMem | ⟨_, hMem⟩)
      · exact Or.inr hMem
      · exact Or.inl hMem
    · rintro (hMem | hMem)
      · by_cases hAgain : (slot, entry) ∈ todo.take capped
        · exact Or.inl hAgain
        · refine Or.inr ⟨?_, hMem⟩
          intro slot' hMem'
          have hSame : slot' = slot := hOne (slot', entry) (hTake _ hMem') (slot, entry)
              (List.mem_append_left _ hMem) rfl
          rw [hSame] at hMem'
          exact hAgain hMem'
      · exact Or.inl hMem

--
-- A Whole Draw
--

namespace World

/- Calls to draw, one after the other. -/
def drawCalls (w : World T) (eventId : EventId)
    (chains : List (Chain T)) : Except Error (World T) :=
  chains.foldlM (fun w chain => w.dispatch (chain, .drawWinnersAuthorized .inBlock eventId)) w

/- The limits of a number of calls, added up. -/
def totalLimit (chains : List (Chain T)) : Nat :=
  (chains.map fun chain => chain.limits.drawLimit).sum

theorem drawCalls_spec {w₀ w : World T} {total effective : Nat}
    (hDrawn : DrawnUpTo w₀ w eventId total effective entropy done)
    (hDistinct : DistinctEntries w₀.state eventId)
    (hLe : effective ≤ w₀.state.registrations.count eventId) (hMax : effective ≤ u32Max)
    (hDone : done.length ≤ effective) (chains : List (Chain T)) :
    ∃ w' batch, w.drawCalls eventId chains = .ok w'
        ∧ DrawnUpTo w₀ w' eventId total effective entropy (done ++ batch)
        ∧ (done ++ batch).length = min effective (done.length + totalLimit chains) := by
  induction chains generalizing w done with
  | nil =>
    refine ⟨w, [], rfl, ?_, ?_⟩
    · rw [List.append_nil]
      exact hDrawn
    · rw [List.append_nil]
      exact (Nat.min_eq_right hDone).symm
  | cons chain rest ih =>
    rcases hDrawn.next hDistinct hLe hMax hDone chain with ⟨w₁, batch₁, hCall, hDrawn₁, hLength₁⟩
    have hDone₁ : (done ++ batch₁).length ≤ effective := by
      rw [List.length_append]
      omega
    rcases ih hDrawn₁ hDone₁ with ⟨w₂, batch₂, hCalls, hDrawn₂, hLength₂⟩
    refine ⟨w₂, batch₁ ++ batch₂, ?_, ?_, ?_⟩
    · unfold drawCalls at hCalls ⊢
      rw [List.foldlM_cons, hCall, ok_bind, hCalls]
    · rw [← List.append_assoc]
      exact hDrawn₂
    · rw [← List.append_assoc, hLength₂, List.length_append]
      unfold totalLimit
      rw [List.map_cons, List.sum_cons]
      omega

/-
  From a draw that has no winners yet, any calls succeed, no assertion fails, and once as many
  winners are added as there are to be, the winners are the first registrations in cyclic order
  after the entropy, each with its slot.  The limits of the calls decide only how many calls that
  takes.
-/
theorem draw_window (w : World T) (eventId : EventId) (event : T.Event) (total effective : Nat)
    (entropy : BigEndianU256) (hGet : w.state.events.get eventId = some event)
    (hStatus : event.status = .drawWinners total effective 0 entropy) (hMax : effective ≤ u32Max)
    (hLe : effective ≤ w.state.registrations.count eventId)
    (hNone : ∀ entry, w.state.winners.get (eventId, entry) = none)
    (hDistinct : DistinctEntries w.state eventId) (chains : List (Chain T)) :
    ∃ w' event' added key, w.drawCalls eventId chains = .ok w' ∧ w'.failures = w.failures
        ∧ w'.state.events.get eventId = some event'
        ∧ event'.status = .drawWinners total effective added key
        ∧ added = min effective (totalLimit chains)
        ∧ (added = effective → ∀ slot entry,
            w'.state.winners.get (eventId, entry) = some slot ↔ (slot, entry)
                ∈ (cyclicAfter entropy (w.state.registrations.iterPrefix
                    eventId)).take effective) := by
  have hStart : DrawnUpTo w w eventId total effective entropy [] := by
    refine ⟨rfl, rfl, ⟨event, hGet, hStatus⟩, ⟨_, rfl⟩, ?_⟩
    intro slot entry
    rw [hNone]
    simp
  rcases drawCalls_spec hStart hDistinct hLe hMax (Nat.zero_le _)
        chains with
    ⟨w', batch, hCalls, hDrawn, hLength⟩
  rw [List.nil_append] at hDrawn hLength
  rw [List.length_nil, Nat.zero_add] at hLength
  rcases hDrawn.event with ⟨event', hGet', hStatus'⟩
  refine ⟨w', event', batch.length, _, hCalls, hDrawn.failures, hGet', hStatus', hLength, ?_⟩
  intro hAll slot entry
  rcases hDrawn.walk with ⟨todo, hWalk⟩
  rw [hDrawn.winners, hWalk, ← hAll, List.take_left]

/- A draw of one winner from two registrations. -/
def sampleDraw : World sampleConfig :=
  { genesis with
    state :=
      { AirdropState.genesis with
        events := StorageMap.empty.insert 1
            { id := 1
              info := sampleEvent
              status := .drawWinners 2 1 0 6
              source := none }
        registrations := (StorageMap.empty.insert (1, 5) (.account 1)).insert
            (1, 9) (.account 2) } }

/- The first slot after the entropy 6 is 9, of account 2. -/
theorem draw_window_sample : ∃ w',
      sampleDraw.drawCalls 1 [sampleChain 22] = .ok w' ∧ w'.failures = []
        ∧ w'.state.winners.get (1, .account 2) = some 9 := by
  have hCount : 1 ≤ sampleDraw.state.registrations.count 1 := by
    decide +kernel
  have hDistinct : DistinctEntries sampleDraw.state 1 := by
    intro slot slot' entry hSlot hSlot'
    unfold sampleDraw at hSlot hSlot'
    simp only [StorageMap.get_insert, StorageMap.get_empty] at hSlot hSlot'
    split at hSlot <;> split at hSlot' <;> grind
  have hMember : ((9, .account 2) : BigEndianU256 × sampleConfig.Entry)
        ∈ (cyclicAfter 6 (sampleDraw.state.registrations.iterPrefix 1)).take 1 := by
    decide +kernel
  rcases draw_window sampleDraw 1
        { id := 1
          info := sampleEvent
          status := .drawWinners 2 1 0 6
          source := none }
        2 1 6 (StorageMap.get_insert_self _ _ _) rfl
        (by decide) hCount (fun _ => rfl) hDistinct
        [sampleChain 22] with
    ⟨w', event', added, key, hCalls, hFailures, _, _, hAdded, hWinners⟩
  refine ⟨w', hCalls, hFailures, ?_⟩
  exact (hWinners hAdded 9 (.account 2)).mpr hMember

end World

end Individuality.Airdrop
