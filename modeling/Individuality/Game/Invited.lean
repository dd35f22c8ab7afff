import Individuality.Airdrop.Sample
import Individuality.Game.Agreement

/-
  Signing up with an invite: the extension that validates the transaction and consumes the invite,
  and the dispatch that follows it, over the game, score and airdrop pallets.

  Main declaration: `InviteWorld.invite_buys_sign_up`
-/

namespace Individuality

open Except (bind_eq_ok ok_bind pure_eq_ok)
open StorageMap (getD_insert get_insert_self)

namespace Game

--
-- Transactions
--

/- "pop:game:airdrop:" and ten blanks. -/
def airdropEventIdBase : List Nat :=
  [112, 111, 112, 58, 103, 97, 109, 101, 58, 97, 105, 114, 100, 114,
    111, 112, 58, 32, 32, 32, 32, 32, 32, 32, 32, 32, 32]

/- The base, a byte for the airdrop and four for the game. -/
def airdropEventId (gameIndex airdropIndex : Nat) : Airdrop.EventId :=
  let base := airdropEventIdBase.foldl (fun n byte => n * 256 + byte) 0
  BitVec.ofNat 256 ((base * 256 + airdropIndex % 256) * 2 ^ 32 + gameIndex % 2 ^ 32)

/-
  The pallets, with the accounts of the system.  Nonces are validated and prepared by the system, on
  its own record of an account and the number of references that pay for it.
-/
structure InviteConfig where
  game : Config
  airdrop : Airdrop.Config
  Ticket : Type
  AccountSignature : Type
  System : Type
  [decEqTicket : DecidableEq Ticket]
  accountId : game.Account → airdrop.AccountId
  verify : AccountSignature → game.Account → Ticket → Bool
  system : System
  validateNonce : System → Nat → game.Account → Nat → Bool
  prepareNonce : System → game.Account → Nat → Option System

attribute [instance] InviteConfig.decEqTicket

variable {C : InviteConfig}

inductive AirdropEntries (C : InviteConfig) where
  | account (vrfs : List C.airdrop.Signature)
  | alias_
      (proofs : List C.airdrop.Proof)
      (ringIndex revision : Nat)

def AirdropEntries.vrfs : AirdropEntries C → AirdropVrfs
  | .account vrfs => .account vrfs.length
  | .alias_ proofs _ _ => .alias_ proofs.length

/- A signed call of sign_up_with_invite, with the extension. -/
structure InviteTx (C : InviteConfig) where
  who : C.game.Account
  nonce : Nat
  inviter : C.game.Account
  ticket : C.Ticket
  signature : C.AccountSignature
  airdrops : Option (AirdropEntries C)

structure InviteEnv (C : InviteConfig) where
  game : Env C.game
  airdrop : Airdrop.Chain C.airdrop

/- What the game reads when the entries are accepted or not. -/
def InviteEnv.registering (env : InviteEnv C) (accepted : Bool) : Env C.game :=
  { env.game with airdropAccepted := accepted }

inductive InviteError where
  | noGame
  | gameRegistrationEnded
  | gameNotInRegistration
  | notNewPlayer
  | accountAlreadyUsedForStmtAccount
  | cannotOnboardAlreadyOnboarded
  | noPendingInvite
  | invalidSignature
  | invalidAirdropVrfCount
  | invalidAirdropVrfVariant
  | invalidAirdropRegistration
  | nonce
  | noInvites
  | alreadyInvited
  | noTicket
  | game (e : Error)
  | airdrop (e : Airdrop.Error)
  deriving DecidableEq, Repr

def InviteError.ofShape : Error → InviteError
  | .invalidAirdropVrfCount => .invalidAirdropVrfCount
  | _ => .invalidAirdropVrfVariant

namespace World

variable {T : Config}

def sufficients (w : World T) (account : T.Account) : Nat :=
  w.score.people.sufficients.getD account 0

def incSufficients (w : World T) (account : T.Account) : World T :=
  { w with
    score := { w.score with people := w.score.people.incSufficients account } }

def decSufficients (w : World T) (account : T.Account) : World T :=
  { w with
    score := { w.score with people := w.score.people.decSufficients account } }

end World

--
-- The Extension
--

/-
  The three pallets, the invites and the accounts of the system.  `failures` counts the invites that
  were consumed for nothing.
-/
structure InviteWorld (C : InviteConfig) where
  game : World C.game
  airdrop : Airdrop.World C.airdrop
  availableInvites : StorageMap C.game.Account Nat
  pendingInvites : StorageMap (C.game.Account × C.Ticket) Unit
  system : C.System
  failures : Nat

namespace InviteWorld

def genesis (C : InviteConfig) : InviteWorld C where
  game := .genesis
  airdrop := .genesis
  availableInvites := .empty
  pendingInvites := .empty
  system := C.system
  failures := 0

/- One entry for each event, in the order of the airdrops. -/
def participate (chain : Airdrop.Chain C.airdrop) (who : C.game.Account) (gameIndex : Nat)
    (w : Airdrop.World C.airdrop) :
    Option (AirdropEntries C) → Except Airdrop.Error (Airdrop.World C.airdrop)
  | none => .ok w
  | some (.account vrfs) =>
    vrfs.zipIdx.foldlM (fun w entry =>
        w.doParticipateWithAccount chain (C.accountId who)
          (airdropEventId gameIndex entry.2) entry.1)
      w
  | some (.alias_ proofs ringIndex revision) =>
    proofs.zipIdx.foldlM (fun w entry =>
        w.doParticipateWithAlias chain (airdropEventId gameIndex entry.2)
          (.account (C.accountId who)) entry.1 ringIndex revision)
      w

/- The entries are made, and what they wrote is rolled back. -/
def validateRegisterForAirdrop (env : InviteEnv C) (w : InviteWorld C)
    (airdrops : Option (AirdropEntries C)) (who : C.game.Account)
    (game : GameInfo C.game.Who) : Except InviteError Unit :=
  match airdrops with
  | none => .ok ()
  | some entries => do
    (World.checkAirdropShape entries.vrfs (.account who) (w.game.isRecognized (.account who))
      game.airdropsScheduled).mapError InviteError.ofShape
    let _ ← (participate env.airdrop who game.index w.airdrop
        airdrops).mapError fun _ => InviteError.invalidAirdropRegistration
    return ()

/- Why the game is not open. -/
def closedReason (env : InviteEnv C) (w : InviteWorld C) : InviteError :=
  match w.game.store.game with
  | none => .noGame
  | some game =>
    if fromSecs game.registrationEnds ≤ env.game.now then
      .gameRegistrationEnded
    else
      .gameNotInRegistration

/- The reference lets the system validate the nonce. -/
def validate (env : InviteEnv C) (w : InviteWorld C)
    (tx : InviteTx C) : Except InviteError (InviteWorld C) := do
  let _ ← (w.game.checkSignUpEligibility (.account tx.who)
      .withInvite).mapError fun _ => InviteError.notNewPlayer
  let game ← (w.game.requireOpenGame env.game).mapError fun _ => w.closedReason env
  ensure (¬w.game.store.stmtAccountToAlias.containsKey tx.who)
    InviteError.accountAlreadyUsedForStmtAccount
  ensure (w.game.archived (.account tx.who) = true ∨ w.game.participates (.account tx.who) = false)
    InviteError.cannotOnboardAlreadyOnboarded
  ensure (w.pendingInvites.containsKey (tx.inviter, tx.ticket)) InviteError.noPendingInvite
  ensure (C.verify tx.signature tx.who tx.ticket) InviteError.invalidSignature
  let w := { w with game := w.game.incSufficients tx.who }
  w.validateRegisterForAirdrop env tx.airdrops tx.who game
  ensure (C.validateNonce w.system (w.game.sufficients tx.who) tx.who tx.nonce) InviteError.nonce
  return w

/- The nonce comes first, so a refused one keeps the invite. -/
def prepare (w : InviteWorld C) (tx : InviteTx C) : Except InviteError (InviteWorld C) := do
  let system ← okOr (C.prepareNonce w.system tx.who tx.nonce) InviteError.nonce
  return { w with
    system := system
    pendingInvites := w.pendingInvites.remove (tx.inviter, tx.ticket) }

/- The call itself; what fails is rolled back. -/
def signUpWithInvite (env : InviteEnv C) (w : InviteWorld C)
    (tx : InviteTx C) : Except Error (InviteWorld C) := do
  let game ← w.game.requireOpenGame env.game
  let registered := participate env.airdrop tx.who game.index w.airdrop tx.airdrops
  let signedUp ← w.game.signUpInner (env.registering registered.isOk)
      (.account tx.who true (tx.airdrops.map AirdropEntries.vrfs))
  return { w with
    game := signedUp
    airdrop := registered.toOption.getD w.airdrop }

/- An invite that was consumed for nothing is reported. -/
def postDispatch (w : InviteWorld C) (who : C.game.Account) (succeeded : Bool) : InviteWorld C :=
  { w with
    game := w.game.decSufficients who
    failures := if succeeded then w.failures else w.failures + 1 }

/- The whole transaction. -/
def applyInvite (env : InviteEnv C) (w : InviteWorld C)
    (tx : InviteTx C) : Except InviteError (InviteWorld C) := do
  let validated ← w.validate env tx
  let prepared ← validated.prepare tx
  match prepared.signUpWithInvite env tx with
  | .ok w' => return w'.postDispatch tx.who true
  | .error _ => return prepared.postDispatch tx.who false

--
-- Invites
--

def setInviteTicket (w : InviteWorld C) (inviter : C.game.Account)
    (ticket : C.Ticket) : Except InviteError (InviteWorld C) := do
  let available := w.availableInvites.getD inviter 0
  ensure (0 < available) InviteError.noInvites
  ensure (¬w.pendingInvites.containsKey (inviter, ticket)) InviteError.alreadyInvited
  return { w with
    pendingInvites := w.pendingInvites.insert (inviter, ticket) ()
    availableInvites :=
      if 1 < available then
        w.availableInvites.insert inviter (available - 1)
      else
        w.availableInvites.remove inviter }

def cancelInviteTicket (w : InviteWorld C) (inviter : C.game.Account)
    (ticket : C.Ticket) : Except InviteError (InviteWorld C) := do
  ensure (w.pendingInvites.containsKey (inviter, ticket)) InviteError.noTicket
  return { w with
    pendingInvites := w.pendingInvites.remove (inviter, ticket)
    availableInvites := w.availableInvites.insert inviter
        (saturatingAdd u32Max (w.availableInvites.getD inviter 0) 1) }

end InviteWorld

/-
  `removed` are the tickets that a bounded clearing takes, and
  other transactions change the accounts of the system.
-/
inductive InviteOp (C : InviteConfig) where
  | game (call : Env C.game × Op C.game)
  | airdrop (call : Airdrop.Chain C.airdrop × Airdrop.Op C.airdrop)
  | grantInvites (account : C.game.Account) (count : Nat)
  | removeAvailableAndPendingInvites
      (account : C.game.Account)
      (removed : List C.Ticket)
  | setInviteTicket (inviter : C.game.Account) (ticket : C.Ticket)
  | cancelInviteTicket (inviter : C.game.Account) (ticket : C.Ticket)
  | signUpWithInvite (env : InviteEnv C) (tx : InviteTx C)
  | otherTransaction (system : C.System)

def InviteWorld.perform (w : InviteWorld C) :
    InviteOp C → Except InviteError (InviteWorld C)
  | .game call => do
    let game ← (w.game.dispatch call).mapError InviteError.game
    return { w with game := game }
  | .airdrop call => do
    let airdrop ← (w.airdrop.dispatch call).mapError InviteError.airdrop
    return { w with airdrop := airdrop }
  | .grantInvites account count =>
    .ok { w with
      availableInvites := w.availableInvites.insert account (saturatingAdd u32Max
          (w.availableInvites.getD account 0) count) }
  | .removeAvailableAndPendingInvites account removed =>
    .ok { w with
      availableInvites := w.availableInvites.remove account
      pendingInvites := removed.foldl (fun invites ticket => invites.remove (account, ticket))
          w.pendingInvites }
  | .setInviteTicket inviter ticket => w.setInviteTicket inviter ticket
  | .cancelInviteTicket inviter ticket =>
    w.cancelInviteTicket inviter ticket
  | .signUpWithInvite env tx => w.applyInvite env tx
  | .otherTransaction system => .ok { w with system := system }

--
-- Signing Up
--

namespace World

variable {T : Config} {w : World T} {env : Env T} {who : T.Account} {game : GameInfo T.Who}

/- The score pallet after the sign-up of an account. -/
def onboardedScore (score : Score.World T.toConfig) (who : T.Account)
    (known : Bool) : Score.World T.toConfig :=
  if known then
    score
  else
    Score.World.setParticipant { score with people := score.people.incSufficients who }
      (.account who)
      { score := 0
        reachedPersonhood := false
        hasEverReachedPersonhood := false
        recognition := .notRecognized }

/- The world after the sign-up of an account with an invite. -/
def signedUp (w : World T) (game : GameInfo T.Who) (who : T.Account) : World T :=
  let taken : World T := w.withStore
      { w.store with
        archivedPlayers := w.store.archivedPlayers.remove (.account who) }
  let onboarded : World T :=
    { taken with
      score := onboardedScore w.score who (w.archived (.account who)) }
  let nextPlayerIndex :=
    match game.state with
    | .registration index => index
    | _ => 0
  ((onboarded.setPlayer (.account who)
      { firstGame := game.index
        registered := true
        credibility := .invited }).grantAllowance
    (.account who) false).setState game (.registration (saturatingAdd u32Max nextPlayerIndex 1))

theorem onboardIfNew_eq {v : World T} {known : Bool} (hScore : v.score = w.score)
    (hNew : known = true ∨ w.participates (.account who) = false) :
    v.onboardIfNew (.account who) known
      = .ok { v with score := onboardedScore w.score who known } := by
  rw [← hScore]
  unfold onboardIfNew onboardedScore
  cases known with
  | true => rfl
  | false =>
    have hFree : v.score.score.participants.containsKey (.account who) = false := by
      rw [hScore]
      exact hNew.resolve_left Bool.false_ne_true
    unfold onboard Score.World.onboardForRecognition
    dsimp only
    rw [ensure_of (by rw [hFree]; exact Bool.false_ne_true)]
    rfl

/- A new account is recognized neither before nor after. -/
theorem isRecognized_onboardedScore {v : World T} {known : Bool}
    (hNew : known = true ∨ w.participates (.account who) = false)
    (hScore : v.score = onboardedScore w.score who known) :
    v.isRecognized (.account who) = w.isRecognized (.account who) := by
  unfold isRecognized
  rw [hScore]
  unfold onboardedScore
  cases known with
  | true => rfl
  | false =>
    have hFree : w.score.score.participants.containsKey (.account who) = false :=
      hNew.resolve_left Bool.false_ne_true
    rw [StorageMap.containsKey_eq_false_iff.mp hFree]
    unfold Score.World.setParticipant
    dsimp only [Bool.false_eq_true, if_false]
    rw [if_neg Bool.false_ne_true]
    dsimp only
    rw [get_insert_self]
    rfl

/- What the validation checks is all that the sign-up of an invited account can fail on. -/
theorem signUpInner_invited {airdrops : Option AirdropVrfs}
    (hOpen : w.requireOpenGame env = .ok game)
    (hFree : w.store.stmtAccountToAlias.containsKey who = false)
    (hNone : w.store.players.get (.account who) = none)
    (hNew : w.archived (.account who) = true ∨ w.participates (.account who) = false)
    (hAirdrop : ∀ v : World T, v.isRecognized (.account who) = w.isRecognized (.account who) →
        v.registerForAirdrop env airdrops (.account who) game.airdropsScheduled = .ok ()) :
    w.signUpInner env (.account who true airdrops) = .ok (w.signedUp game who) := by
  have hCheck : w.checkSignUpEligibility (.account who) .withInvite = .ok none := by
    unfold checkSignUpEligibility
    dsimp only
    rw [hNone]
    rfl
  have hKnown : (w.store.archivedPlayers.get (.account who)).isSome
      = w.archived (.account who) := rfl
  have hOnboard : ∀ v : World T, v.score = w.score →
          v.onboardIfNew (.account who) (w.archived (.account who))
            = .ok { v with
                score := onboardedScore w.score who (w.archived (.account who)) } :=
    fun _ hScore => onboardIfNew_eq hScore hNew
  unfold signUpInner
  rw [hOpen, ok_bind]
  dsimp only
  rw [ensure_of (by rw [hFree]; exact Bool.false_ne_true), ok_bind]
  unfold signUpPlayer
  dsimp only
  rw [if_pos rfl, hCheck, ok_bind, Option.isSome_none, Bool.or_false, hKnown, hOnboard, ok_bind]
  · unfold playCredibility
    dsimp only
    rw [if_pos rfl, ok_bind, hAirdrop, ok_bind]
    · rfl
    · exact isRecognized_onboardedScore hNew rfl
  · rfl

/- The reference of the extension does not affect the call. -/
theorem signedUp_incSufficients :
    (w.incSufficients who).signedUp game who = (w.signedUp game who).incSufficients who := by
  have hSame : (w.incSufficients who).archived (.account who) = w.archived (.account who) := rfl
  unfold signedUp
  rw [hSame]
  unfold onboardedScore
  cases w.archived (.account who) <;> rfl

end World

end Game

namespace PeopleMulti.PeopleState

variable {M A : Type} [DecidableEq M] [DecidableEq A] {s : PeopleState M A} {held : A → Bool}

omit [DecidableEq M] in
theorem References.le_two (hRefs : s.References held) (account : A) :
    s.sufficients.getD account 0 ≤ 2 := by
  have hCount := hRefs.count account
  unfold oneIf at hCount
  split_ifs at hCount <;> omega

omit [DecidableEq M] in
theorem getD_incSufficients {account : A} (hLe : s.sufficients.getD account 0 ≤ 2) (other : A) :
    (s.incSufficients account).sufficients.getD other 0
      = s.sufficients.getD other 0 + oneIf (decide (other = account)) := by
  dsimp only [incSufficients]
  rw [getD_insert]
  unfold oneIf
  by_cases hOther : other = account
  · subst hOther
    rw [if_pos rfl, decide_eq_true rfl, if_pos rfl, saturatingAdd_of_le (by unfold u32Max; omega)]
  · rw [if_neg hOther, decide_eq_false hOther, if_neg Bool.false_ne_true]
    rfl

omit [DecidableEq M] in
theorem getD_decSufficients (account other : A) :
    (s.decSufficients account).sufficients.getD other 0
      = s.sufficients.getD other 0 - oneIf (decide (other = account)) := by
  dsimp only [decSufficients]
  rw [getD_insert]
  unfold oneIf
  by_cases hOther : other = account
  · subst hOther
    rw [if_pos rfl, decide_eq_true rfl, if_pos rfl]
  · rw [if_neg hOther, decide_eq_false hOther, if_neg Bool.false_ne_true]
    rfl

/- A reference that is given and taken back changes nothing. -/
omit [DecidableEq M] in
theorem References.released (hRefs : s.References held) (account : A) :
    ((s.incSufficients account).decSufficients account).References held where
  linked := hRefs.linked
  count := by
    intro other
    rw [getD_decSufficients, getD_incSufficients (hRefs.le_two account), Nat.add_sub_cancel]
    exact hRefs.count other

end PeopleMulti.PeopleState

namespace Game

open PeopleMulti.PeopleState (oneIf getD_incSufficients getD_decSufficients)

--
-- References
--

theorem World.sufficients_decSufficients {T : Config} (w : World T) (account other : T.Account) :
    (w.decSufficients account).sufficients other
      = w.sufficients other - oneIf (decide (other = account)) :=
  getD_decSufficients account other

namespace MembershipInvariant

variable {T : Config} {w : World T} {who account : T.Account} {game : GameInfo T.Who}

theorem sufficients_le (hOld : MembershipInvariant False w) (account : T.Account) :
    w.sufficients account ≤ 2 :=
  hOld.enrolled.references.le_two account

theorem sufficients_incSufficients (hOld : MembershipInvariant False w)
    (account other : T.Account) :
    (w.incSufficients account).sufficients other
      = w.sufficients other + oneIf (decide (other = account)) :=
  getD_incSufficients (hOld.sufficients_le account) other

theorem sufficients_pos (hOld : MembershipInvariant False w)
    (hParticipates : w.participates (.account account) = true) :
    0 < w.sufficients account := by
  have hCount := hOld.enrolled.references.count account
  have hHeld : w.held account = true := hParticipates
  rw [hHeld] at hCount
  unfold World.sufficients
  rw [hCount]
  unfold oneIf
  rw [if_pos rfl]
  exact Nat.lt_add_left _ Nat.one_pos

theorem released (hOld : MembershipInvariant False w) (account : T.Account) :
    MembershipInvariant False ((w.incSufficients account).decSufficients account) :=
  hOld.of_same (SamePopulation.of_score rfl rfl rfl
      { participates := fun _ => rfl
        references := fun _ hRefs => hRefs.released account } rfl)

/- A sign-up with an invite adds the reference of onboarding. -/
theorem sufficients_signedUp (hOld : MembershipInvariant False w) (other : T.Account) :
    (w.signedUp game who).sufficients other = w.sufficients other
        + if other = who ∧ w.archived (.account who) = false then 1 else 0 := by
  have hScore : (w.signedUp game who).score = World.onboardedScore w.score who
      (w.archived (.account who)) := rfl
  unfold World.sufficients
  rw [hScore]
  unfold World.onboardedScore
  cases w.archived (.account who) with
  | true =>
    rw [if_pos rfl, if_neg fun hBoth => nomatch hBoth.2]
    rfl
  | false =>
    have hAdded := hOld.sufficients_incSufficients who other
    unfold oneIf at hAdded
    simp only [decide_eq_true_eq] at hAdded
    simp only [Bool.false_eq_true, if_false, and_true]
    exact hAdded

end MembershipInvariant

--
-- A Small Example
--

/-
  A nonce is valid from the next one on, for an account with
  references, and prepared unless it is ahead of the next one.
-/
abbrev sampleInviteConfig : InviteConfig where
  game := sampleConfig
  airdrop := Airdrop.sampleConfig
  Ticket := Nat
  AccountSignature := Unit
  System := StorageMap Nat Nat
  accountId := id
  verify := fun _ _ _ => true
  system := .empty
  validateNonce := fun nonces references who nonce =>
    decide (0 < references ∧ nonces.getD who 0 ≤ nonce)
  prepareNonce := fun nonces who nonce =>
    if nonces.getD who 0 < nonce then none
    else some (nonces.insert who (nonce + 1))

/- Account 5 gives away a ticket for a game. -/
def sampleInviteOps : List (InviteOp sampleInviteConfig) :=
  [.game (sampleEnv 10, .scheduleGames [sampleSchedule]), .game (sampleEnv 20, .startGame),
    .grantInvites (5 : Nat) 1,
    .setInviteTicket (5 : Nat) (0 : Nat)]

def sampleInviteEnv : InviteEnv sampleInviteConfig where
  game := sampleEnv 30
  airdrop := Airdrop.sampleChain 30

/- Account 1 signs up with the ticket. -/
def sampleInvite (nonce : Nat) : InviteTx sampleInviteConfig where
  who := (1 : Nat)
  nonce := nonce
  inviter := (5 : Nat)
  ticket := (0 : Nat)
  signature := ()
  airdrops := some (.account [])

--
-- Runs
--

namespace InviteWorld

variable {w v p w' : InviteWorld C} {env : InviteEnv C} {tx : InviteTx C}

/- What a validated transaction has been checked for. -/
theorem validate_spec (hValid : w.validate env tx = .ok v) :
    v = { w with game := w.game.incSufficients tx.who } ∧ (w.game.archived (.account tx.who) = true
          ∨ w.game.participates (.account tx.who) = false)
      ∧ ∃ game registered, w.game.requireOpenGame env.game = .ok game
          ∧ participate env.airdrop tx.who game.index w.airdrop tx.airdrops = .ok registered
          ∧ w.game.signUpInner (env.registering true)
              (.account tx.who true (tx.airdrops.map AirdropEntries.vrfs))
            = .ok (w.game.signedUp game tx.who)
          ∧ v.game.signUpInner (env.registering true)
              (.account tx.who true (tx.airdrops.map AirdropEntries.vrfs))
            = .ok (v.game.signedUp game tx.who) := by
  unfold validate at hValid
  simp only [bind_eq_ok, mapError_eq_ok_iff, ensure_eq_ok_iff, exists_const, pure_eq_ok,
    Bool.not_eq_true] at hValid
  rcases hValid with ⟨maybePlayer, hCheck, game, hOpen, hFree, hNew, _, _, _, hAirdrops, _, rfl⟩
  have hNone : w.game.store.players.get (.account tx.who) = none := by
    obtain rfl := World.checkSignUpEligibility_spec hCheck
    unfold World.checkSignUpEligibility at hCheck
    simp only [bind_eq_ok, ensure_eq_ok_iff] at hCheck
    rcases hCheck with ⟨_, hInvite, _⟩
    exact hInvite.resolve_left fun hNe => hNe rfl
  have hRegistered : ∃ registered, participate env.airdrop tx.who game.index w.airdrop tx.airdrops
          = .ok registered := by
    unfold validateRegisterForAirdrop at hAirdrops
    cases hEntries : tx.airdrops with
    | none => exact ⟨w.airdrop, rfl⟩
    | some entries =>
      rw [hEntries] at hAirdrops
      simp only [bind_eq_ok, mapError_eq_ok_iff] at hAirdrops
      rcases hAirdrops with ⟨_, _, registered, hOk, _⟩
      exact ⟨registered, hOk⟩
  have hRegisters : ∀ u : World C.game, u.isRecognized (.account tx.who)
            = w.game.isRecognized (.account tx.who) →
          u.registerForAirdrop (env.registering true) (tx.airdrops.map AirdropEntries.vrfs)
              (.account tx.who) game.airdropsScheduled
            = .ok () := by
    intro u hRecognized
    unfold validateRegisterForAirdrop at hAirdrops
    unfold World.registerForAirdrop
    rw [hRecognized]
    cases hEntries : tx.airdrops with
    | none => rfl
    | some entries =>
      rw [hEntries] at hAirdrops
      simp only [bind_eq_ok, mapError_eq_ok_iff] at hAirdrops
      rcases hAirdrops with ⟨_, hShape, _⟩
      have hSame : World.checkAirdropShape entries.vrfs (.account tx.who)
            (w.game.isRecognized (.account tx.who))
            game.airdropsScheduled
          = .ok () := hShape
      dsimp only [Option.map]
      rw [hSame]
      rfl
  rcases hRegistered with ⟨registered, hRegistered⟩
  refine ⟨rfl, hNew, game, registered, hOpen, hRegistered, ?_, ?_⟩
  · exact World.signUpInner_invited hOpen hFree hNone hNew hRegisters
  · exact World.signUpInner_invited (w := w.game.incSufficients tx.who)
        hOpen hFree hNone hNew hRegisters

theorem prepare_spec (hPrepare : v.prepare tx = .ok p) :
    p.game = v.game ∧ p.airdrop = v.airdrop ∧ p.failures = v.failures
      ∧ p.pendingInvites = v.pendingInvites.remove (tx.inviter, tx.ticket) := by
  unfold prepare at hPrepare
  simp only [bind_eq_ok, okOr_eq_ok_iff, pure_eq_ok] at hPrepare
  rcases hPrepare with ⟨_, _, rfl⟩
  exact ⟨rfl, rfl, rfl, rfl⟩

/- What is prepared after it was validated signs up. -/
theorem signUpWithInvite_of_validate (hValid : w.validate env tx = .ok v)
    (hPrepare : v.prepare tx = .ok p) :
    ∃ game registered, p.signUpWithInvite env tx
          = .ok { p with
              game := (w.game.signedUp game tx.who).incSufficients tx.who
              airdrop := registered }
        ∧ w.game.signUpInner (env.registering true)
            (.account tx.who true (tx.airdrops.map AirdropEntries.vrfs))
          = .ok (w.game.signedUp game tx.who) := by
  rcases validate_spec hValid with ⟨rfl, _, game, registered, hOpen, hRegistered, hPlain, hSignUp⟩
  rcases prepare_spec hPrepare with ⟨hGame, hAirdrop, _, _⟩
  refine ⟨game, registered, ?_, hPlain⟩
  have hOpen' : p.game.requireOpenGame env.game = .ok game := by
    rw [hGame]
    exact hOpen
  have hRegistered' : participate env.airdrop tx.who game.index p.airdrop tx.airdrops
        = .ok registered := by
    rw [hAirdrop]
    exact hRegistered
  have hSignUp' : p.game.signUpInner (env.registering true)
          (.account tx.who true (tx.airdrops.map AirdropEntries.vrfs))
        = .ok ((w.game.signedUp game tx.who).incSufficients tx.who) := by
    rw [hGame, ← World.signedUp_incSufficients]
    exact hSignUp
  unfold signUpWithInvite
  rw [hOpen', ok_bind]
  dsimp only
  rw [hRegistered']
  change (p.game.signUpInner (env.registering true) _ >>= _) = _
  rw [hSignUp']
  rfl

/- The pipeline keeps what the game keeps. -/
theorem membershipInvariant_applyInvite (hOld : MembershipInvariant False w.game)
    (hApply : w.applyInvite env tx = .ok w') :
    MembershipInvariant False w'.game := by
  unfold applyInvite at hApply
  simp only [bind_eq_ok] at hApply
  rcases hApply with ⟨v, hValid, p, hPrepare, hApply⟩
  rcases signUpWithInvite_of_validate hValid hPrepare with ⟨game, registered, hSignUp, hPlain⟩
  rw [hSignUp] at hApply
  obtain rfl := Except.pure_eq_ok.mp hApply
  exact (hOld.signUpInner hPlain).released tx.who

theorem membershipInvariant_perform {op : InviteOp C} (hOld : MembershipInvariant False w.game)
    (hStep : w.perform op = .ok w') :
    MembershipInvariant False w'.game := by
  cases op with
  | game call =>
    simp only [perform, bind_eq_ok, mapError_eq_ok_iff, pure_eq_ok] at hStep
    rcases hStep with ⟨game, hDispatch, rfl⟩
    exact hOld.dispatch False.elim hDispatch
  | airdrop call =>
    simp only [perform, bind_eq_ok, pure_eq_ok] at hStep
    rcases hStep with ⟨_, _, rfl⟩
    exact hOld
  | grantInvites account count =>
    cases hStep
    exact hOld
  | removeAvailableAndPendingInvites account removed =>
    cases hStep
    exact hOld
  | setInviteTicket inviter ticket =>
    simp only [perform, InviteWorld.setInviteTicket, bind_eq_ok, pure_eq_ok] at hStep
    rcases hStep with ⟨_, _, _, _, rfl⟩
    exact hOld
  | cancelInviteTicket inviter ticket =>
    simp only [perform, InviteWorld.cancelInviteTicket, bind_eq_ok, pure_eq_ok] at hStep
    rcases hStep with ⟨_, _, rfl⟩
    exact hOld
  | signUpWithInvite env tx =>
    exact membershipInvariant_applyInvite hOld hStep
  | otherTransaction system =>
    cases hStep
    exact hOld

/-
  A validated transaction is prepared exactly when the system takes its nonce, and then it buys a
  sign-up: the invite is consumed, the dispatch succeeds, and what it adds to the references of the
  account is what stays.
-/
theorem invite_buys_sign_up (w : InviteWorld C)
    (hRun : RunUnder perform (fun _ _ _ => True) (genesis C) w)
    (env : InviteEnv C) (tx : InviteTx C) (v : InviteWorld C) (hValid : w.validate env tx = .ok v) :
    ((∃ p, v.prepare tx = .ok p) ↔ C.prepareNonce w.system tx.who tx.nonce ≠ none)
      ∧ ∀ p, v.prepare tx = .ok p → ∃ w', p.signUpWithInvite env tx = .ok w'
          ∧ w.applyInvite env tx = .ok (w'.postDispatch tx.who true)
          ∧ (w'.postDispatch tx.who true).failures = w.failures
          ∧ w'.game.playing (.account tx.who) = some .invited
          ∧ w'.pendingInvites.get (tx.inviter, tx.ticket) = none
          ∧ (∀ account, (w'.postDispatch tx.who true).game.sufficients account
                + p.game.sufficients account
              = w.game.sufficients account + w'.game.sufficients account)
          ∧ (∀ account, (w'.postDispatch tx.who true).game.sufficients account
              = w.game.sufficients account + if account = tx.who
                    ∧ w.game.archived (.account tx.who) = false
                  then 1 else 0)
          ∧ 0 < (w'.postDispatch tx.who true).game.sufficients
              tx.who := by
  have hOld : MembershipInvariant False w.game :=
    hRun.invariant (fun w => MembershipInvariant False w.game)
      (fun _ _ _ _ hStep hOld => membershipInvariant_perform hOld hStep)
      MembershipInvariant.genesis
  have hValidated := (validate_spec hValid).1
  refine ⟨?_, ?_⟩
  · unfold prepare
    simp only [bind_eq_ok, okOr_eq_ok_iff]
    rw [hValidated, Option.ne_none_iff_exists']
    constructor
    · rintro ⟨_, system, hNonce, _⟩
      exact ⟨system, hNonce⟩
    · rintro ⟨system, hNonce⟩
      exact ⟨_, system, hNonce, rfl⟩
  · intro p hPrepare
    rcases signUpWithInvite_of_validate hValid hPrepare with ⟨game, registered, hSignUp, hPlain⟩
    rcases prepare_spec hPrepare with ⟨hGame, _, hFailures, hInvites⟩
    have hNew := hOld.signUpInner hPlain
    have hBefore : ∀ account, p.game.sufficients account = w.game.sufficients account
              + oneIf (decide (account = tx.who)) := by
      intro account
      rw [hGame, hValidated]
      exact hOld.sufficients_incSufficients tx.who account
    have hAfter := hNew.sufficients_incSufficients tx.who
    have hEnd : ∀ account, (((w.game.signedUp game tx.who).incSufficients
              tx.who).decSufficients tx.who).sufficients account
            = (w.game.signedUp game tx.who).sufficients account := by
      intro account
      rw [World.sufficients_decSufficients, hAfter, Nat.add_sub_cancel]
    refine ⟨_, hSignUp, ?_, ?_, ?_, ?_, ?_, ?_, ?_⟩
    · unfold applyInvite
      rw [hValid, ok_bind, hPrepare, ok_bind, hSignUp]
      rfl
    · change p.failures = w.failures
      rw [hFailures, hValidated]
    · unfold World.playing
      change ((w.game.store.players.insert (.account tx.who) _).get (.account tx.who)).map _ = _
      rw [get_insert_self]
      rfl
    · change p.pendingInvites.get (tx.inviter, tx.ticket) = none
      rw [hInvites]
      exact StorageMap.get_remove_self _ _
    · intro account
      change (((w.game.signedUp game tx.who).incSufficients
            tx.who).decSufficients tx.who).sufficients account
            + p.game.sufficients account
          = w.game.sufficients account + ((w.game.signedUp game tx.who).incSufficients
              tx.who).sufficients account
      rw [hEnd, hBefore, hAfter]
      omega
    · intro account
      exact (hEnd account).trans (hOld.sufficients_signedUp account)
    · have hPos : 0 < (w.game.signedUp game tx.who).sufficients tx.who := by
        apply hNew.sufficients_pos
        rw [hNew.enrolled.participates]
        left
        unfold World.playing
        change ((w.game.store.players.insert (.account tx.who) _).get
            (.account tx.who)).map _ ≠ none
        rw [get_insert_self]
        exact Option.some_ne_none _
      exact lt_of_lt_of_eq hPos (hEnd tx.who).symm

/- The invite buys the sign-up when the nonce is the next. -/
theorem invite_buys_sign_up_sample : ∃ w w' : InviteWorld sampleInviteConfig,
      RunUnder perform (fun _ _ _ => True) (genesis _) w
        ∧ w.applyInvite sampleInviteEnv (sampleInvite 0) = .ok w'
        ∧ w'.failures = w.failures
        ∧ 0 < w'.game.sufficients (1 : Nat) := by
  have hExecute : (execute perform (fun _ _ => true)
        (genesis sampleInviteConfig) sampleInviteOps).any
        (fun w =>
          (w.validate sampleInviteEnv (sampleInvite 0)).toOption.any
            fun v => (v.prepare (sampleInvite 0)).toOption.isSome)
        = true := by
    decide +kernel
  rcases exists_run_of_execute (fun _ _ _ _ _ => trivial) hExecute with ⟨w, hRun, hTest⟩
  cases hValid : w.validate sampleInviteEnv (sampleInvite 0) with
  | error e =>
    rw [hValid] at hTest
    cases hTest
  | ok v =>
    rw [hValid] at hTest
    cases hPrepare : v.prepare (sampleInvite 0) with
    | error e =>
      change (v.prepare (sampleInvite 0)).toOption.isSome = true at hTest
      rw [hPrepare] at hTest
      cases hTest
    | ok p =>
      rcases (invite_buys_sign_up w hRun sampleInviteEnv (sampleInvite 0)
          v hValid).2 p hPrepare with
        ⟨_, _, hApply, hFailures, _, _, _, _, hPos⟩
      exact ⟨w, _, hRun, hApply, hFailures, hPos⟩

/- A nonce that is ahead is validated, and not prepared. -/
theorem validated_nonce_refused : ∃ w v : InviteWorld sampleInviteConfig,
      RunUnder perform (fun _ _ _ => True) (genesis _) w
        ∧ w.validate sampleInviteEnv (sampleInvite 1) = .ok v
        ∧ ∀ p, v.prepare (sampleInvite 1) ≠ .ok p := by
  have hExecute : (execute perform (fun _ _ => true)
        (genesis sampleInviteConfig) sampleInviteOps).any
        (fun w =>
          (w.validate sampleInviteEnv (sampleInvite 1)).toOption.any
            fun v => (v.prepare (sampleInvite 1)).toOption.isNone)
        = true := by
    decide +kernel
  rcases exists_run_of_execute (fun _ _ _ _ _ => trivial) hExecute with ⟨w, hRun, hTest⟩
  cases hValid : w.validate sampleInviteEnv (sampleInvite 1) with
  | error e =>
    rw [hValid] at hTest
    cases hTest
  | ok v =>
    rw [hValid] at hTest
    refine ⟨w, v, hRun, hValid, ?_⟩
    intro p hPrepare
    change (v.prepare (sampleInvite 1)).toOption.isNone = true at hTest
    rw [hPrepare] at hTest
    cases hTest

end InviteWorld

end Game

end Individuality
