import Individuality.Game.Schedule

/-
  Signing up for a game, and leaving it for good.

  Main declaration: `World.setStatementAccount`
-/

namespace Individuality.Game

variable {T : Config}

/- The entries for the airdrops of a game: one for each, with an account or with an alias. -/
inductive AirdropVrfs where
  | account (count : Nat)
  | alias_ (count : Nat)
  deriving DecidableEq, Repr

def AirdropVrfs.count : AirdropVrfs → Nat
  | account count => count
  | alias_ count => count

inductive SignUpKind where
  | withInvite
  | direct
  deriving DecidableEq, Repr

namespace World

--
-- Checks
--

def requireOpenGame (env : Env T) (w : World T) : Except Error (GameInfo T.Who) := do
  let game ← okOr w.store.game Error.noGame
  ensure (env.now < fromSecs game.registrationEnds) Error.noRegistration
  ensure (isRegistration game) Error.noRegistration
  return game

/- The record of the player, if it plays already. -/
def checkSignUpEligibility (w : World T) (who : T.Who)
    (kind : SignUpKind) : Except Error (Option Player) := do
  let maybePlayer := w.store.players.get who
  ensure (kind ≠ .withInvite ∨ maybePlayer = none) Error.useInviteButAlreadyPlaying
  ensure (maybePlayer.all (!·.registered)) Error.alreadyRegistered
  return maybePlayer

def isPerson : T.Who → Bool
  | .account _ => false
  | .person _ => true

def checkAirdropShape (airdrops : AirdropVrfs) (who : T.Who) (recognized : Bool)
    (airdropsScheduled : Nat) : Except Error Unit := do
  ensure (airdrops.count = airdropsScheduled) Error.invalidAirdropVrfCount
  match airdrops with
  | .alias_ _ =>
    ensure recognized Error.invalidAirdropVrfVariantForRecognition
  | .account _ => do
    ensure (¬recognized) Error.invalidAirdropVrfVariantForRecognition
    ensure (¬isPerson who) Error.invalidAirdropVrfVariantForAccount

/- Recognized by the score pallet or by others. -/
def isRecognized (w : World T) (who : T.Who) : Bool :=
  (w.score.score.participants.get who).any fun p =>
    p.recognition.isRecognizedByScore
      || p.recognition.isExternallyRecognized

def registerForAirdrop (env : Env T) (w : World T) (airdrops : Option AirdropVrfs) (who : T.Who)
    (airdropsScheduled : Nat) : Except Error Unit :=
  match airdrops with
  | none => .ok ()
  | some airdrops => do
    checkAirdropShape airdrops who (w.isRecognized who) airdropsScheduled
    ensure env.airdropAccepted Error.airdropRefused

--
-- Statement Accounts
--

/- The statement account of an alias before is free again. -/
def releaseStatementAccount (w : World T) (alias_ : T.Alias) : World T :=
  match w.store.aliasToStmtAccount.get alias_ with
  | none => w
  | some prevStmtAccount =>
    (w.withStore
      { w.store with
        stmtAccountToAlias := w.store.stmtAccountToAlias.remove prevStmtAccount }
      ).decreaseAllowanceBy prevStmtAccount

/- Whether an account is a statement account or a player. -/
def statementAccountInUse (w : World T) (account : T.Account) : Bool :=
  w.store.stmtAccountToAlias.containsKey account
    || w.store.players.containsKey (.account account)
    || w.store.archivedPlayers.containsKey (.account account)

def setStatementAccount (w : World T) (alias_ : T.Alias)
    (statementAccount : T.Account) : Except Error (World T) :=
  if
    w.store.aliasToStmtAccount.get alias_ = some statementAccount
  then
    .ok w
  else do
    let w := w.releaseStatementAccount alias_
    ensure (¬w.statementAccountInUse statementAccount) Error.statementAccountAlreadyInUse
    return (w.withStore
      { w.store with
        stmtAccountToAlias := w.store.stmtAccountToAlias.insert statementAccount alias_
        aliasToStmtAccount := w.store.aliasToStmtAccount.insert alias_
            statementAccount }).increaseAllowanceBy
        statementAccount

/- Take the statement account of an alias, or the account. -/
def takeStatementAccount (w : World T) : T.Who → World T × Option T.Account
  | .account account => (w, some account)
  | .person alias_ =>
    match w.store.aliasToStmtAccount.get alias_ with
    | none => (w, none)
    | some stmtAccount =>
      (w.withStore
        { w.store with
          aliasToStmtAccount := w.store.aliasToStmtAccount.remove alias_
          stmtAccountToAlias := w.store.stmtAccountToAlias.remove stmtAccount },
        some stmtAccount)

/- The allowance of a player that leaves is taken back. -/
def revokeAllowance (w : World T) (who : T.Who) : World T :=
  let taken := w.takeStatementAccount who
  match taken.2 with
  | none => taken.1
  | some stmtAccount => taken.1.decreaseAllowanceBy stmtAccount

--
-- Signing Up
--

def onboard (w : World T) (who : T.Who) :
    Except Error (World T) :=
  match who with
  | .account account =>
    w.fromScore (w.score.onboardForRecognition account)
  | .person alias_ =>
    w.fromScore (w.score.onboardExternallyRecognized alias_)

/- Only who neither plays nor is archived is onboarded. -/
def onboardIfNew (w : World T) (who : T.Who) (known : Bool) : Except Error (World T) :=
  if known then .ok w else w.onboard who

/-
  The first game and the credibility of a player that signs
  up.  Only a direct account that does not play yet pays.
-/
def playCredibility (env : Env T) (w : World T) (game : GameInfo T.Who) (who : T.Who)
    (maybePlayer : Option Player) (maybeArchived : Option ArchivedPlayer) (newInvited : Bool) :
    Except Error ((Nat × PlayerCredibility) × World T) :=
  let firstGame := (maybeArchived.map ArchivedPlayer.firstGame).getD game.index
  match maybePlayer with
  | some player =>
    .ok ((player.firstGame, player.credibility), w)
  | none =>
    if newInvited then
      .ok ((game.index, .invited), w)
    else
      match who with
      | .person _ => .ok ((firstGame, .recognized), w)
      | .account account =>
        match env.newDeposit account with
        | none => .error .depositRefused
        | some ticket =>
          .ok ((firstGame, .deposit ticket),
              { w with deposits := w.deposits.create account ticket })

/- An account is given an allowance when it starts to play. -/
def grantAllowance (w : World T) (who : T.Who) (alreadyPlaying : Bool) : World T :=
  match who with
  | .account account =>
    if alreadyPlaying then w else w.increaseAllowanceBy account
  | .person _ => w

/-
  What signing up does after the statement account is settled.
  The number of registered players is the next player index.
-/
def signUpPlayer (env : Env T) (w : World T) (game : GameInfo T.Who) (who : T.Who)
    (newInvited : Bool) (airdrops : Option AirdropVrfs) : Except Error (World T) := do
  let kind :=
    if newInvited then SignUpKind.withInvite else .direct
  let maybePlayer ← w.checkSignUpEligibility who kind
  let maybeArchived := w.store.archivedPlayers.get who
  let w := w.withStore
      { w.store with
        archivedPlayers := w.store.archivedPlayers.remove who }
  let w ← w.onboardIfNew who (maybeArchived.isSome || maybePlayer.isSome)
  let played ← w.playCredibility env game who maybePlayer maybeArchived newInvited
  let player : Player :=
    { firstGame := played.1.1
      registered := true
      credibility := played.1.2 }
  let w := played.2.setPlayer who player
  w.registerForAirdrop env airdrops who game.airdropsScheduled
  let w := w.grantAllowance who maybePlayer.isSome
  let nextPlayerIndex :=
    match game.state with
    | .registration index => index
    | _ => 0
  return w.setState game (.registration (saturatingAdd u32Max nextPlayerIndex 1))

inductive SignUpArgs (T : Config) where
  | alias_ (who : T.Alias) (statementAccount : T.Account) (airdrops : Option AirdropVrfs)
  | account
      (who : T.Account)
      (newInvited : Bool)
      (airdrops : Option AirdropVrfs)

def signUpInner (env : Env T) (w : World T) (args : SignUpArgs T) : Except Error (World T) := do
  let game ← w.requireOpenGame env
  match args with
  | .alias_ who statementAccount airdrops => do
    ensure env.signatureValid Error.invalidStatementAccountSignature
    let w ← w.setStatementAccount who statementAccount
    w.signUpPlayer env game (.person who) false airdrops
  | .account who newInvited airdrops => do
    ensure (¬w.store.stmtAccountToAlias.containsKey who) Error.statementAccountAlreadyInUse
    w.signUpPlayer env game (.account who) newInvited airdrops

/- A lite person invites one account, ever. -/
def signUpWithAccountLiteInvite (env : Env T) (w : World T) (lite : T.Alias) (account : T.Account)
    (airdrops : Option AirdropVrfs) : Except Error (World T) := do
  ensure ((w.store.liteInvites.get lite).all (· = account)) Error.anotherAccountInvited
  let w ← w.signUpInner env (.account account true airdrops)
  return w.withStore
    { w.store with
      liteInvites := w.store.liteInvites.insert lite account }

--
-- Leaving
--

/- The deposit of a player that leaves is given back. -/
def dropDeposit (env : Env T) (w : World T) (who : T.Who)
    (player : Option Player) : Except Error (World T) :=
  match player.map Player.credibility, who with
  | some (.deposit ticket), .account account =>
    if env.dropDeposit account ticket then
      .ok { w with deposits := w.deposits.settle account ticket }
    else
      .error .depositRefused
  | _, _ => .ok w

def offboard (env : Env T) (w : World T) (who : T.Who) : Except Error (World T) := do
  let archived := w.store.archivedPlayers.get who
  let player := w.store.players.get who
  ensure (w.store.game.all isRegistration) Error.invalidGameState
  ensure (player.all (!·.registered)) Error.cannotOffboardWhileRegisteredForGame
  ensure (archived.isSome ∨ player.isSome) Error.noPlayer
  let w := w.withStore
      { w.store with
        archivedPlayers := w.store.archivedPlayers.remove who
        players := w.store.players.remove who }
  let w ← w.dropDeposit env who player
  let w :=
    if player.isSome then w.revokeAllowance who
    else (w.takeStatementAccount who).1
  w.fromScore (Score.World.offboard (w.chain env) w.score who)

def kickout (env : Env T) (w : World T) (account : T.Account) : Except Error (World T) := do
  let player : T.Who := .account account
  let archived ← okOr (w.store.archivedPlayers.get player) Error.noArchivedPlayer
  match archived with
  | .unkickable _ => throw Error.notKickablePlayer
  | .kickable _ archivedSince => do
    ensure (saturatingAdd u32Max archivedSince T.nonPlayingKickoutTime < env.chain.block)
      Error.early
    let w := w.withStore
        { w.store with
          archivedPlayers := w.store.archivedPlayers.remove player }
    w.fromScore (Score.World.offboard (w.chain env) w.score player)

end World

end Individuality.Game
