import Individuality.MembersPallet.Notifications
import Individuality.MembersPallet.GraceWindow
import Individuality.MembersNotifier.Accounting
import Individuality.MembersSubscriber.Purge
import Individuality.Score.Recognition
import Individuality.Game.Applied
import Individuality.Airdrop.Prizes
import Individuality.Airdrop.Draw
import Individuality.PeopleMulti.Identities
import Individuality.MobRule.Stages
import Individuality.NftClaims.Minting
import Individuality.AliasAccounts.Retirement
import Individuality.Resources.Allowances
import Individuality.PeopleLite.Consumers
import Individuality.CreditTrees.Proofs
import Individuality.Scarcity.Authorizations
import Individuality.MembersPallet.Onboarding
import Individuality.MembersPallet.QueuePages
import Individuality.MembersPallet.StaleRings
import Individuality.Honour.Votes
import Individuality.Coinage.Split
import Individuality.OriginRestriction.Bucket
import Individuality.Pgas.Windows
import Individuality.Coinage.Expiry
import Individuality.MobRule.Verdicts
import Individuality.PeopleMulti.Tenure
import Individuality.Game.Fairness
import Individuality.Coinage.UnloadWeight
import Individuality.Score.History
import Individuality.NftCredits.Capacity
import Individuality.NftCredits.Filing
import Individuality.Game.Archival
import Individuality.Game.Invited
import Individuality.ProofOfInk.Design
import Individuality.NftCredits.MessageSize
import Individuality.MembersNotifier.Pages
import Individuality.ChunksManager.Pallet
import Individuality.RelayRandomness.Lottery
import Individuality.NotifierSubscriber.Provenance
import Individuality.DotnsGateway.Pallet
