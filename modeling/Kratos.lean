import Kratos.Lib.Bytes
import Kratos.Lib.Word
import Kratos.Lib.SortedMap
import Kratos.Lib.Merkle
import Kratos.Lib.Quorum
import Kratos.Lib.Run
import Kratos.Lib.Fallible
import Kratos.Lib.IterOrder
import Kratos.Lib.Climb
import Kratos.Lib.Linked
import Kratos.Lib.MerklePath
import Kratos.Lib.MerkleBranch
import Kratos.Lib.Codec
import Kratos.Lib.Listed
import Kratos.Lib.FirstMax
import Kratos.Lib.MaxDraw
import Kratos.Lib.Shares
import Kratos.Lib.FixedWindow
import Kratos.Lib.LazyWindow
import Kratos.Lib.HashChain
import Kratos.Types.Primitives
import Kratos.Types.Transaction
import Kratos.Types.Block
import Kratos.Types.Merkle
import Kratos.Types.StateMerkleTree
import Kratos.Types.Chain
import Kratos.Types.Protocol
import Kratos.Types.Fraud
import Kratos.Types.Dispute
import Kratos.Types.Fork
import Kratos.Types.Emergency
import Kratos.Types.Bincode
import Kratos.Types.Identity
import Kratos.Types.Personhood
import Kratos.Types.Reputation
import Kratos.Storage.Drift
import Kratos.Storage.State
import Kratos.Storage.DriftBound
import Kratos.Storage.StateRoot
import Kratos.Storage.Cache
import Kratos.Storage.Transfer
import Kratos.Consensus.Validator
import Kratos.Consensus.Roster
import Kratos.Consensus.ValidatorCredits
import Kratos.Consensus.CreditLimits
import Kratos.Consensus.SecurityState
import Kratos.Consensus.SecurityHistory
import Kratos.Consensus.Bootstrap
import Kratos.Consensus.VrfSelection
import Kratos.Consensus.Validation
import Kratos.Consensus.Slashing
import Kratos.Consensus.CriticalDecay
import Kratos.Consensus.VcDecay
import Kratos.Consensus.EpochRandomness
import Kratos.Consensus.StakeSelection
import Kratos.Consensus.ClockHealth
import Kratos.Finality.Votes
import Kratos.Finality.Agreement
import Kratos.Finality.Collector
import Kratos.Finality.Rounds
import Kratos.Finality.Justification
import Kratos.Finality.Gadget
import Kratos.Finality.Safety
import Kratos.Finality.Equivocation
import Kratos.Finality.Timeouts
import Kratos.Finality.OwnVotes
import Kratos.Finality.Supermajority
import Kratos.Finality.Certificates
import Kratos.Finality.Network
import Kratos.Finality.PaidVoters
import Kratos.Finality.Progress
import Kratos.Network.WarpSync
import Kratos.Network.Snapshots
import Kratos.Network.ChunkOrders
import Kratos.Network.Sync
import Kratos.Network.SyncBuffer
import Kratos.Network.SyncProgress
import Kratos.Network.Peers
import Kratos.Network.RateBound
import Kratos.Network.Service
import Kratos.Node.Executor
import Kratos.Node.Supply
import Kratos.Node.Rewards
import Kratos.Node.Replay
import Kratos.Node.Production
import Kratos.Node.BlockValidator
import Kratos.Node.Genesis
import Kratos.Node.Import
import Kratos.Node.Atomicity
import Kratos.Node.StakeBacking
import Kratos.Node.Mempool
import Kratos.Node.MempoolIndex
import Kratos.Node.GenesisSpec
import Kratos.Node.RewardSupply
import Kratos.Node.Fees
import Kratos.Node.Unbonding
import Kratos.Node.Selection
import Kratos.Node.Submission
import Kratos.Node.Expiry
import Kratos.Node.Waiting
import Kratos.Node.Producer
import Kratos.Node.CanonicalTimestamps
import Kratos.Node.Membership
import Kratos.Node.SlotLeader
import Kratos.Node.EarlyApprovals
import Kratos.Node.FinalityTracker
import Kratos.Node.Service
import Kratos.Node.ServiceRun
import Kratos.Node.Ledger
import Kratos.Node.ServiceMoves
import Kratos.Node.ChainIntegrity
import Kratos.Node.Restarts
import Kratos.Node.Replication
import Kratos.Node.CatchUp
import Kratos.Node.Inclusion
import Kratos.Contracts.Staking
import Kratos.Contracts.MetaGovernance
import Kratos.Contracts.ParameterAtomicity
import Kratos.Contracts.Upgrades
import Kratos.Contracts.Governance
import Kratos.Contracts.GovernanceBooks
import Kratos.Contracts.Legitimacy
import Kratos.Contracts.Sidechains
import Kratos.Contracts.FraudPurges
import Kratos.Contracts.Payouts
import Kratos.Contracts.PurgePhases
import Kratos.Contracts.Affiliation
import Kratos.Contracts.DerivedValidators
import Kratos.Contracts.Messaging
import Kratos.Contracts.MessageIndex
import Kratos.Contracts.Delivery
import Kratos.Contracts.Arbitration
import Kratos.Contracts.DisputeTable
import Kratos.Contracts.Convictions
import Kratos.Contracts.Juries
import Kratos.Contracts.Restarts
import Kratos.Contracts.Enforcements
import Kratos.Contracts.Fork
import Kratos.Contracts.ForkHistory
import Kratos.Contracts.Ossification
import Kratos.Contracts.Emergency
import Kratos.Contracts.EmergencyPowers
import Kratos.Contracts.FailureSignals
import Kratos.Contracts.Recovery
import Kratos.Contracts.Identity
import Kratos.Contracts.IdentityIndex
import Kratos.Contracts.Attestations
import Kratos.Contracts.Personhood
import Kratos.Contracts.Challenges
import Kratos.Contracts.Reputation
import Kratos.Contracts.ReputationStakes
import Kratos.Contracts.Endorsements
import Kratos.Contracts.DecaySchedules
import Kratos.Contracts.PersonhoodScores
import Kratos.Wallet.Transaction
import Kratos.Wallet.Signing
import Kratos.DnsSeed.Messages
import Kratos.DnsSeed.Binding
import Kratos.DnsSeed.Diversity
