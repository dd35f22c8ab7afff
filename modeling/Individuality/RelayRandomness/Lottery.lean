import Individuality.Airdrop.Conservation
import Individuality.Airdrop.Sample
import Individuality.RelayRandomness.Pallet

/-
  The parachain with its airdrops in one run: winners are drawn with randomness that no block had
  produced when an account registered.

  Main declaration: `Lottery.entropy_unknown`
-/

namespace Individuality

open Except (bind_eq_ok pure_eq_ok)

namespace Airdrop

variable {T : Config} {chain : Chain T} {w w' : World T} {eventId : EventId} {event : T.Event}

--
-- Moments of Events
--

def Status.closedAt : Status → Option Nat
  | .awaitingEntropy _ _ lastMoment => some lastMoment
  | _ => none

/- The moment from which an event waits for entropy. -/
def World.closedAt (w : World T) (eventId : EventId) : Option Nat :=
  (w.state.events.get eventId).bind fun event => event.status.closedAt

theorem World.closedAt_insert (hEvents : w'.state.events = w.state.events.insert eventId event)
    (id : EventId) :
    w'.closedAt id = if id = eventId then event.status.closedAt else w.closedAt id := by
  unfold World.closedAt
  rw [hEvents, StorageMap.get_insert]
  split_ifs <;> rfl

/-
  What a call does to the moments and the entropy of events: a registration closes at the current
  moment, and entropy is captured for an event that waits for it.
-/
structure Draws (chain : Chain T) (w w' : World T) : Prop where
  closed : ∀ eventId moment, w'.closedAt eventId = some moment →
    w.closedAt eventId = some moment ∨ moment = chain.currentMoment
  entropy : ∀ eventId target, w'.state.eventEntropy.get eventId = some target →
    w.state.eventEntropy.get eventId = some target
      ∨ ∃ moment v, w.closedAt eventId = some moment
        ∧ World.freshEntropy chain moment = some v ∧ target = .ofBytes v

namespace Draws

theorem kept (hEvents : w'.state.events = w.state.events)
    (hEntropy : w'.state.eventEntropy = w.state.eventEntropy) :
    Draws chain w w' := by
  refine ⟨fun id moment hClosed => .inl ?_, fun id target hGet => .inl (hEntropy ▸ hGet)⟩
  rwa [World.closedAt, hEvents] at hClosed

/- An event that does not wait, or waits from now on. -/
theorem stored (eventId : EventId) (event : T.Event)
    (hEvents : w'.state.events = w.state.events.insert eventId event)
    (hEntropy : w'.state.eventEntropy = w.state.eventEntropy)
    (hClosed : event.status.closedAt = none ∨ event.status.closedAt = some chain.currentMoment) :
    Draws chain w w' := by
  refine ⟨?_, fun id target hGet => .inl (hEntropy ▸ hGet)⟩
  intro id moment hMoment
  rw [World.closedAt_insert hEvents] at hMoment
  split_ifs at hMoment
  · rcases hClosed with hNone | hNow
    · cases hNone.symm.trans hMoment
    · exact .inr (Option.some.inj (hMoment.symm.trans hNow))
  · exact .inl hMoment

theorem moved {w₁ : World T} {s : AirdropState T} {newStatus : Status}
    (hEvents : s.events = w.state.events) (hEntropy : s.eventEntropy = w.state.eventEntropy)
    (hClosed : newStatus.closedAt = none ∨ newStatus.closedAt = some chain.currentMoment) :
    Draws chain w (w₁.withState (s.moveTo eventId event newStatus)) := by
  refine .stored eventId { event with status := newStatus } ?_ ?_ hClosed
  · simp [World.withState, hEvents]
  · simp [World.withState, hEntropy]

theorem removed (eventId : EventId) (hEvents : w'.state.events = w.state.events.remove eventId)
    (hEntropy : ∀ id target, w'.state.eventEntropy.get id = some target →
      w.state.eventEntropy.get id = some target) :
    Draws chain w w' := by
  refine ⟨?_, fun id target hGet => .inl (hEntropy id target hGet)⟩
  intro id moment hMoment
  rw [World.closedAt, hEvents, StorageMap.get_remove] at hMoment
  split_ifs at hMoment
  · cases hMoment
  · exact .inl hMoment

@[simp] theorem state_releaseRemainingPrizes
    (w : World T) (eventId : EventId) (source : Option T.AccountId)
    (prize : AirdropPrize T.AssetId) (count : Nat) :
    (w.releaseRemainingPrizes chain eventId source prize count).state = w.state := by
  unfold World.releaseRemainingPrizes
  dsimp only
  repeat' first | split | rfl

theorem refundAndDropEvent (w : World T) (event : T.Event) :
    Draws chain w (w.refundAndDropEvent chain event) := by
  refine .removed event.id ?_ ?_ <;> simp [World.refundAndDropEvent, World.withState]

theorem doSchedule {info : T.Info} {source : Option T.AccountId} {v : World T}
    (hState : v.state = w.state) (hSchedule : v.doSchedule chain eventId info source = .ok w') :
    Draws chain w w' := by
  unfold World.doSchedule at hSchedule
  simp only [bind_eq_ok, ensure_eq_ok_iff, okOr_eq_ok_iff, exists_const, pure_eq_ok] at hSchedule
  rcases hSchedule with ⟨_, _, _, _, _, _, _, _, _, _, _, rfl⟩
  exact .stored eventId _ (by rw [hState]) (by rw [hState]) (.inl rfl)

theorem doRemoveScheduled (hRemove : w.doRemoveScheduled chain eventId = .ok w') :
    Draws chain w w' := by
  unfold World.doRemoveScheduled at hRemove
  simp only [bind_eq_ok, ensure_eq_ok_iff, okOr_eq_ok_iff, exists_const, pure_eq_ok] at hRemove
  rcases hRemove with ⟨event, _, _, rfl⟩
  exact refundAndDropEvent w event

theorem doCancel (w : World T) (eventId : EventId) :
    Draws chain w (w.doCancel chain eventId) := by
  unfold World.doCancel
  split
  · exact kept rfl rfl
  · rename_i event _
    split
    · exact refundAndDropEvent w event
    all_goals first
      | exact kept rfl rfl
      | exact moved (by simp) (by simp) (.inl rfl)

theorem closeRegistration (hClose : w.closeRegistration chain eventId = .ok w') :
    Draws chain w w' := by
  unfold World.closeRegistration at hClose
  simp only [bind_eq_ok, okOr_eq_ok_iff] at hClose
  rcases hClose with ⟨event, _, hClose⟩
  split at hClose
  · split_ifs at hClose <;> cases hClose
    · exact refundAndDropEvent w event
    all_goals exact moved (by simp) (by simp) (.inr rfl)
  · cases hClose

theorem captureEntropy (hCapture : w.captureEntropy chain eventId = .ok w') :
    Draws chain w w' := by
  unfold World.captureEntropy at hCapture
  simp only [bind_eq_ok, okOr_eq_ok_iff] at hCapture
  rcases hCapture with ⟨event, hGet, hCapture⟩
  cases hStatus : event.status with
  | awaitingEntropy total effective lastMoment =>
    rw [hStatus] at hCapture
    simp only [bind_eq_ok, okOr_eq_ok_iff, pure_eq_ok] at hCapture
    rcases hCapture with ⟨v, hFresh, rfl⟩
    refine ⟨?_, ?_⟩
    · intro id moment hMoment
      rw [World.closedAt_insert (AirdropState.moveTo_events _ _ _ _)] at hMoment
      split_ifs at hMoment
      · cases hMoment
      · exact .inl hMoment
    · intro id target hEntropy
      simp only [World.withState, AirdropState.moveTo_eventEntropy,
        StorageMap.get_insert] at hEntropy
      split_ifs at hEntropy with hSame
      · cases hEntropy
        refine .inr ⟨lastMoment, v, ?_, hFresh, rfl⟩
        rw [hSame, World.closedAt, hGet, Option.bind_some, hStatus]
        rfl
      · exact .inl hEntropy
  | scheduled | registering | drawWinners | claiming
    | clearingRegistrations | clearingWinners | finalizing =>
      rw [hStatus] at hCapture
      cases hCapture

/- A registration leaves its event registering. -/
theorem registerSlotIn {slot : BigEndianU256} {entry : T.Entry}
    (hRegister : w.registerSlotIn eventId event slot entry = .ok w') :
    Draws chain w w' ∧ ∃ event' total, w'.state.events.get eventId = some event'
        ∧ event'.status = .registering total := by
  unfold World.registerSlotIn at hRegister
  split at hRegister
  · simp only [bind_eq_ok, ensure_eq_ok_iff, okOr_eq_ok_iff, exists_const, pure_eq_ok] at hRegister
    rcases hRegister with ⟨_, total, _, rfl⟩
    exact ⟨.stored eventId _ rfl rfl (.inl rfl),
      _, total, StorageMap.get_insert_self _ _ _, rfl⟩
  · cases hRegister

end Draws

/- The event that a call registers for. -/
def Op.registersFor : Op T → Option EventId
  | .participateWithAlias eventId _ _ _ _ => some eventId
  | .participateWithAccount _ eventId _ => some eventId
  | .participateWithSlot eventId _ _ => some eventId
  | _ => none

theorem Draws.registers {op : Op T} (hOp : op.registersFor = some eventId)
    (hCall : w.dispatch (chain, op) = .ok w') :
    Draws chain w w' ∧ ∃ event total, w'.state.events.get eventId = some event
        ∧ event.status = .registering total := by
  cases op <;> cases hOp
  case participateWithAlias =>
    simp only [World.dispatch, World.doParticipateWithAlias, bind_eq_ok, okOr_eq_ok_iff] at hCall
    rcases hCall with ⟨event, _, hCall⟩
    split at hCall
    · simp only [bind_eq_ok, okOr_eq_ok_iff] at hCall
      rcases hCall with ⟨_, _, hCall⟩
      exact registerSlotIn hCall
    · cases hCall
  case participateWithAccount =>
    simp only [World.dispatch, World.doParticipateWithAccount, World.registerSlot,
      bind_eq_ok, okOr_eq_ok_iff] at hCall
    rcases hCall with ⟨_, _, _, _, _, _, hCall⟩
    exact registerSlotIn hCall
  case participateWithSlot =>
    simp only [World.dispatch, World.registerSlot, bind_eq_ok, okOr_eq_ok_iff] at hCall
    rcases hCall with ⟨_, _, hCall⟩
    exact registerSlotIn hCall

theorem Draws.dispatch {op : Op T} (hCall : w.dispatch (chain, op) = .ok w') :
    Draws chain w w' := by
  cases op with
  | scheduleEvent id info => exact doSchedule rfl hCall
  | removeScheduledEvent id => exact doRemoveScheduled hCall
  | enableAsset assetId source =>
    simp only [World.dispatch, World.enableAsset, bind_eq_ok, pure_eq_ok] at hCall
    rcases hCall with ⟨_, _, _, _, rfl⟩
    exact kept rfl rfl
  | disableAsset assetId beneficiary =>
    simp only [World.dispatch, World.disableAsset, bind_eq_ok, pure_eq_ok] at hCall
    rcases hCall with ⟨_, _, _, _, rfl⟩
    exact kept rfl rfl
  | closeRegistrationAuthorized source id =>
    rcases Except.bind_eq_ok.mp hCall with ⟨_, _, hBody⟩
    exact closeRegistration hBody
  | captureEntropyAuthorized source id =>
    rcases Except.bind_eq_ok.mp hCall with ⟨_, _, hBody⟩
    exact captureEntropy hBody
  | finalizeAuthorized source id =>
    simp only [World.dispatch, World.finalize, bind_eq_ok, okOr_eq_ok_iff] at hCall
    rcases hCall with ⟨_, _, event, _, hCall⟩
    split at hCall <;> cases hCall
    refine .removed id ?_ ?_
    · simp only [World.withState]
      split_ifs <;> simp
    · intro id' target hGet
      simp only [World.withState, StorageMap.get_remove] at hGet
      split_ifs at hGet <;> simpa using hGet
  | startRegistrationAuthorized source id =>
    simp only [World.dispatch, World.startRegistration, bind_eq_ok, okOr_eq_ok_iff,
      pure_eq_ok] at hCall
    rcases hCall with ⟨_, _, event, _, rfl⟩
    exact moved rfl rfl (.inl rfl)
  | drawWinnersAuthorized source id =>
    simp only [World.dispatch, World.drawWinners, bind_eq_ok, okOr_eq_ok_iff] at hCall
    rcases hCall with ⟨_, _, event, _, hCall⟩
    split at hCall <;> cases hCall
    exact .stored id _ rfl rfl (.inl rfl)
  | closeDrawingAuthorized source id | closeClaimingAuthorized source id =>
    simp only [World.dispatch, World.closeDrawing, World.closeClaiming, bind_eq_ok,
      okOr_eq_ok_iff] at hCall
    rcases hCall with ⟨_, _, event, _, hCall⟩
    split at hCall <;> cases hCall
    exact moved rfl rfl (.inl rfl)
  | cleanUpRegistrationsAuthorized source id backend
  | cleanUpWinnersAuthorized source id backend =>
    simp only [World.dispatch, World.cleanUpRegistrationsInner,
      World.cleanUpWinnersInner, bind_eq_ok, okOr_eq_ok_iff] at hCall
    rcases hCall with ⟨_, _, event, _, hCall⟩
    split at hCall
    · split_ifs at hCall <;> cases hCall
      · exact moved rfl rfl (.inl rfl)
      · exact .stored id _ rfl rfl (.inl rfl)
    · cases hCall
  | schedule source id info =>
    simp only [World.dispatch, World.schedule, bind_eq_ok] at hCall
    rcases hCall with ⟨_, _, funds, _, hCall⟩
    refine doSchedule ?_ hCall
    rfl
  | removeScheduled id =>
    simp only [World.dispatch] at hCall
    split at hCall <;> cases hCall
    · exact kept rfl rfl
    · rename_i hRemove
      exact doRemoveScheduled hRemove
  | cancel id =>
    cases hCall
    exact doCancel w id
  | participateWithAlias | participateWithAccount | participateWithSlot =>
    exact (registers rfl hCall).1
  | claim id registrant beneficiary =>
    simp only [World.dispatch, World.doClaim, bind_eq_ok, okOr_eq_ok_iff] at hCall
    rcases hCall with ⟨event, _, hCall⟩
    split at hCall
    · simp only [bind_eq_ok, ensure_eq_ok_iff, okOr_eq_ok_iff, exists_const, pure_eq_ok] at hCall
      rcases hCall with ⟨_, _, _, _, _, _, _, _, rfl⟩
      exact .stored id _ rfl rfl (.inl rfl)
    · cases hCall
  | setFree assetId who amount =>
    cases hCall
    exact kept rfl rfl

end Airdrop

namespace RelayRandomness

open Airdrop (EventId)

--
-- Composition
--

/-
  The parachain with its airdrops.  `registered` is a ghost: the events that were registered for,
  with the relay parent of the block that did so.
-/
structure Lottery (T : Airdrop.Config) where
  chain : Parachain
  world : Airdrop.World T
  registered : List (EventId × Nat)

namespace Lottery

inductive Op (T : Airdrop.Config) where
  | parachain (op : RelayRandomness.Op)
  | airdrop (chain : Airdrop.Chain T) (op : Airdrop.Op T)

variable {T : Airdrop.Config} {C : Config} {relay : Nat → RelayStateProof} {s s' : Lottery T}

def genesis : Lottery T := ⟨.genesis, .genesis, []⟩

/- The randomness of airdrops is that of the relay block. -/
def step (C : Config) (relay : Nat → RelayStateProof) (s : Lottery T) :
    Op T → Except Unit (Lottery T)
  | .parachain op => do
    let chain ← s.chain.step C relay op
    return { s with chain := chain }
  | .airdrop chain op => do
    let currentMoment ← okOr s.chain.relayParent ()
    let provided : Airdrop.Chain T :=
      { chain with
        randomness := RelayBlockRandomness.randomness s.chain.values
        currentMoment := currentMoment }
    let world ← (s.world.dispatch (provided, op)).mapError fun _ => ()
    return {
      chain := s.chain
      world := world
      registered := (op.registersFor.map fun eventId => (eventId, currentMoment)).toList
          ++ s.registered }

/- Relay parents of the parachain do not go back. -/
def monotone (s : Lottery T) : Op T → Bool
  | .parachain (.block n) => s.chain.relayParent.all fun q => q ≤ n
  | _ => true

abbrev Monotone (s : Lottery T) (op : Op T) (_ : Lottery T) : Prop := s.monotone op = true

/-
  Registrations precede the moment that their event waits
  from, and its entropy is an output that came after them.
-/
structure Sound (C : Config) (relay : Nat → RelayStateProof) (s : Lottery T) : Prop where
  block : Parachain.BlockSound C relay s.chain
  life : Airdrop.LifeInvariant s.world
  registered_le : ∀ eventId r, (eventId, r) ∈ s.registered →
    ∃ q, s.chain.relayParent = some q ∧ r ≤ q
  closed : ∀ eventId moment, s.world.closedAt eventId = some moment →
    ∀ r, (eventId, r) ∈ s.registered → r ≤ moment
  drawn : ∀ eventId target, s.world.state.eventEntropy.get eventId = some target →
    ∃ v n, target = .ofBytes v ∧ Produced relay n v
      ∧ ∀ r, (eventId, r) ∈ s.registered → r + C.relayParentOffset < n

/- Nothing is drawn for an event that is registering. -/
theorem no_entropy_of_registering {w : Airdrop.World T} {eventId : EventId}
    (hInv : Airdrop.LifeInvariant w)
    (hRegistering : ∃ event total, w.state.events.get eventId = some event
      ∧ event.status = .registering total) :
    w.state.eventEntropy.get eventId = none ∧ w.closedAt eventId = none := by
  rcases hRegistering with ⟨event, total, hGet, hStatus⟩
  have hSound := ((hInv.event eventId).sound event hGet).status
  rw [hStatus] at hSound
  refine ⟨hSound.2.2, ?_⟩
  rw [Airdrop.World.closedAt, hGet, Option.bind_some, hStatus]
  rfl

theorem Sound.parachain {op : RelayRandomness.Op} {chain : Parachain} (hSound : Sound C relay s)
    (hMonotone : s.monotone (.parachain op) = true) (hStep : s.chain.step C relay op = .ok chain) :
    Sound C relay { s with chain := chain } := by
  refine ⟨hSound.block.step hStep, hSound.life, ?_, hSound.closed, hSound.drawn⟩
  intro eventId r hMem
  rcases hSound.registered_le eventId r hMem with ⟨q, hParent, hLe⟩
  rcases Parachain.step_cases hStep with ⟨n, _, _, rfl, _, _, rfl⟩ | ⟨_, _, _, rfl⟩
  · have hNext : q ≤ n := by simpa [monotone, hParent] using hMonotone
    exact ⟨n, rfl, hLe.trans hNext⟩
  · exact ⟨q, hParent, hLe⟩

theorem Sound.airdrop {chain : Airdrop.Chain T} {op : Airdrop.Op T} {world : Airdrop.World T}
    {registered : List (EventId × Nat)} {q : Nat} (hSound : Sound C relay s)
    (hParent : s.chain.relayParent = some q)
    (hRandomness : chain.randomness = RelayBlockRandomness.randomness s.chain.values)
    (hMoment : chain.currentMoment = q) (hCall : s.world.dispatch (chain, op) = .ok world)
    (hRegistered : ∀ eventId r, (eventId, r) ∈ registered →
      (op.registersFor = some eventId ∧ r = q) ∨ (eventId, r) ∈ s.registered) :
    Sound C relay ⟨s.chain, world, registered⟩ := by
  have hLife := hSound.life.dispatch hCall
  have hDraws := Airdrop.Draws.dispatch hCall
  have hLe : ∀ eventId r, (eventId, r) ∈ s.registered → r ≤ q := by
    intro eventId r hMem
    rcases hSound.registered_le eventId r hMem with ⟨q', hParent', hLe⟩
    cases hParent.symm.trans hParent'
    exact hLe
  have hOpen : ∀ eventId, op.registersFor = some eventId →
      world.state.eventEntropy.get eventId = none ∧ world.closedAt eventId = none := by
    intro eventId hOp
    exact no_entropy_of_registering hLife (Airdrop.Draws.registers hOp hCall).2
  refine ⟨hSound.block, hLife, ?_, ?_, ?_⟩
  · intro eventId r hMem
    refine ⟨q, hParent, ?_⟩
    rcases hRegistered eventId r hMem with ⟨_, rfl⟩ | hOld
    · exact le_rfl
    · exact hLe eventId r hOld
  · intro eventId moment hClosed r hMem
    rcases hRegistered eventId r hMem with ⟨hOp, _⟩ | hOld
    · cases (hOpen eventId hOp).2.symm.trans hClosed
    · rcases hDraws.closed eventId moment hClosed with hBefore | hNow
      · exact hSound.closed eventId moment hBefore r hOld
      · rw [hNow, hMoment]
        exact hLe eventId r hOld
  · intro eventId target hEntropy
    -- an event that is registered for has no entropy
    have hOld : ∀ r, (eventId, r) ∈ registered → (eventId, r) ∈ s.registered := by
      intro r hMem
      rcases hRegistered eventId r hMem with ⟨hOp, _⟩ | hOld
      · rw [(hOpen eventId hOp).1] at hEntropy
        cases hEntropy
      · exact hOld
    rcases hDraws.entropy eventId target hEntropy with
      hBefore | ⟨moment, v, hClosed, hFresh, hTarget⟩
    · rcases hSound.drawn eventId target hBefore with ⟨v, n, hTarget, hMade, hLater⟩
      exact ⟨v, n, hTarget, hMade, fun r hMem => hLater r (hOld r hMem)⟩
    · rcases hSound.block.fresh hRandomness hFresh with ⟨n, hMade, hLater⟩
      refine ⟨v, n, hTarget, hMade, fun r hMem => ?_⟩
      have hLe := hSound.closed eventId moment hClosed r (hOld r hMem)
      omega

theorem Sound.step {op : Op T} (hSound : Sound C relay s) (hMonotone : Monotone s op s')
    (hStep : s.step C relay op = .ok s') :
    Sound C relay s' := by
  cases op with
  | parachain op =>
    simp only [Lottery.step, bind_eq_ok, pure_eq_ok] at hStep
    rcases hStep with ⟨chain, hChain, rfl⟩
    exact hSound.parachain hMonotone hChain
  | airdrop chain op =>
    simp only [Lottery.step, bind_eq_ok, okOr_eq_ok_iff, mapError_eq_ok_iff, pure_eq_ok] at hStep
    rcases hStep with ⟨q, hParent, world, hCall, rfl⟩
    refine hSound.airdrop hParent rfl rfl hCall ?_
    intro eventId r hMem
    rcases List.mem_append.mp hMem with hNew | hOld
    · rw [Option.mem_toList, Option.map_eq_some_iff] at hNew
      rcases hNew with ⟨id, hOp, hPair⟩
      cases hPair
      exact .inl ⟨hOp, rfl⟩
    · exact .inr hOld

theorem sound_of_run (hRun : RunUnder (Lottery.step C relay) Monotone genesis s) :
    Sound C relay s := by
  refine RunUnder.invariant (Sound C relay) hRun
    (fun _ _ _ hMonotone hStep hSound => hSound.step hMonotone hStep) ?_
  refine ⟨?_, .genesis, ?_, ?_, ?_⟩
  · intro _ hEntry
    cases hEntry
  · intro _ _ hMem
    cases hMem
  · intro _ _ _ _ hMem
    cases hMem
  · intro _ _ hGet
    cases hGet

/-
  However blocks and calls interleave, winners are drawn with an output of the relay chain, and none
  of the relay blocks that were public at a registration for the event had it.
-/
theorem entropy_unknown (hDistinct : ∀ i j v, Produced relay i v → Produced relay j v → i = j)
    (hRun : RunUnder (Lottery.step C relay) Monotone genesis s)
    {eventId : EventId} {target : Airdrop.BigEndianU256}
    (hEntropy : s.world.state.eventEntropy.get eventId = some target) :
    ∃ v, target = .ofBytes v ∧ (∃ n, Produced relay n v)
      ∧ ∀ n r, Produced relay n v → (eventId, r) ∈ s.registered → r + C.relayParentOffset < n := by
  rcases (sound_of_run hRun).drawn eventId target hEntropy with ⟨v, n, hTarget, hMade, hLater⟩
  refine ⟨v, hTarget, ⟨n, hMade⟩, ?_⟩
  intro n' r hProduced hMem
  rw [hDistinct n' n v hProduced hMade]
  exact hLater r hMem

/- Block 26 draws for an event registered for at 10. -/
theorem entropy_unknown_sample :
    ∃ (s : Lottery Airdrop.sampleConfig) (v : Airdrop.Bytes32),
      RunUnder (Lottery.step Parachain.sampleRelayConfig Parachain.sampleRelay) Monotone genesis s
        ∧ (1, 10) ∈ s.registered
        ∧ s.world.state.eventEntropy.get 1 = some (.ofBytes v)
        ∧ ∀ n r, Produced Parachain.sampleRelay n v → (1, r) ∈ s.registered → r + 2 < n := by
  have hDistinct : ∀ i j v, Produced Parachain.sampleRelay i v → Produced Parachain.sampleRelay j v →
      i = j := by
    intro i j v hI hJ
    simp only [Produced, Parachain.sampleRelay, Except.ok.injEq, Option.some.injEq,
      Option.ite_none_right_eq_some] at hI hJ
    omega
  have hExecute : (execute (Lottery.step Parachain.sampleRelayConfig Parachain.sampleRelay) monotone genesis
      (.parachain (.block 10)
        :: (Airdrop.sampleLife.take 7).map (fun op => .airdrop (Airdrop.sampleChain op.1) op.2)
        ++ [.parachain (.block 26),
          .airdrop (Airdrop.sampleChain 21) (.captureEntropyAuthorized .inBlock 1)])).any
      (fun s => decide ((1, 10) ∈ s.registered)
        && (s.world.state.eventEntropy.get 1).isSome) = true := by
    decide +kernel
  rcases exists_run_of_execute (fun _ _ _ hCheck _ => hCheck) hExecute with ⟨s, hRun, hTest⟩
  rw [Bool.and_eq_true, decide_eq_true_eq] at hTest
  rcases Option.isSome_iff_exists.mp hTest.2 with ⟨target, hEntropy⟩
  rcases entropy_unknown hDistinct hRun hEntropy with ⟨v, rfl, _, hUnknown⟩
  exact ⟨s, v, hRun, hTest.1, hEntropy, hUnknown⟩

end Lottery

end RelayRandomness

end Individuality
