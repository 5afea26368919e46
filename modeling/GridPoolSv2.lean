import GridPoolSv2.BitcoinCoreSv2.StaleTemplates
import GridPoolSv2.BitcoinCoreSv2.TemplateDistribution
import GridPoolSv2.BitcoinCoreSv2.TemplateStream
import GridPoolSv2.Extensions.Handlers
import GridPoolSv2.Extensions.Negotiation
import GridPoolSv2.JobDeclarator.Bip34Height
import GridPoolSv2.JobDeclarator.CoinbaseAgreement
import GridPoolSv2.JobDeclarator.DeclarationRounds
import GridPoolSv2.JobDeclarator.Declarator
import GridPoolSv2.JobDeclarator.DeclaredCoinbase
import GridPoolSv2.JobDeclarator.ErrorCleanup
import GridPoolSv2.JobDeclarator.Isolation
import GridPoolSv2.JobDeclarator.JobValidation
import GridPoolSv2.JobDeclarator.MempoolMirror
import GridPoolSv2.JobDeclarator.MerklePath
import GridPoolSv2.JobDeclarator.MissingTransactions
import GridPoolSv2.JobDeclarator.RewardScript
import GridPoolSv2.JobDeclarator.StaleTip
import GridPoolSv2.JobDeclarator.Tokens
import GridPoolSv2.JobDeclaratorClient.CachedShares
import GridPoolSv2.JobDeclaratorClient.ChannelManager
import GridPoolSv2.JobDeclaratorClient.Channels
import GridPoolSv2.JobDeclaratorClient.Declarations
import GridPoolSv2.JobDeclaratorClient.ExtranonceAgreement
import GridPoolSv2.JobDeclaratorClient.ExtranonceSize
import GridPoolSv2.JobDeclaratorClient.FullTemplate
import GridPoolSv2.JobDeclaratorClient.JobTemplates
import GridPoolSv2.JobDeclaratorClient.MinimumTarget
import GridPoolSv2.JobDeclaratorClient.OpenWindow
import GridPoolSv2.JobDeclaratorClient.OutputConstraints
import GridPoolSv2.JobDeclaratorClient.PaidTemplates
import GridPoolSv2.JobDeclaratorClient.PendingOpens
import GridPoolSv2.JobDeclaratorClient.PrefixReassignment
import GridPoolSv2.JobDeclaratorClient.RewardOutputs
import GridPoolSv2.JobDeclaratorClient.Shares
import GridPoolSv2.JobDeclaratorClient.StoredOutputs
import GridPoolSv2.JobDeclaratorClient.TokenSupply
import GridPoolSv2.JobDeclaratorClient.TokenUse
import GridPoolSv2.JobDeclaratorClient.Walk
import GridPoolSv2.Lib.BestOf
import GridPoolSv2.Lib.ByteOrder
import GridPoolSv2.Lib.Calendar
import GridPoolSv2.Lib.Consensus
import GridPoolSv2.Lib.FixedWidth
import GridPoolSv2.Lib.Handler
import GridPoolSv2.Lib.Link
import GridPoolSv2.Lib.MerkleTree
import GridPoolSv2.Lib.Retention
import GridPoolSv2.Lib.Runs
import GridPoolSv2.Lib.Select
import GridPoolSv2.Lib.Sha256
import GridPoolSv2.Lib.Tally
import GridPoolSv2.Lib.Tasks
import GridPoolSv2.Lib.TxWeight
import GridPoolSv2.Lib.Visit
import GridPoolSv2.Payout.Distribution
import GridPoolSv2.Payout.PayoutMode
import GridPoolSv2.Payout.Verification
import GridPoolSv2.Pool.BlockWeight
import GridPoolSv2.Pool.ChainTip
import GridPoolSv2.Pool.ChannelManager
import GridPoolSv2.Pool.Channels
import GridPoolSv2.Pool.Constraints
import GridPoolSv2.Pool.CustomWork
import GridPoolSv2.Pool.DistinctWork
import GridPoolSv2.Pool.Effects
import GridPoolSv2.Pool.FeeMessages
import GridPoolSv2.Pool.FeeRotation
import GridPoolSv2.Pool.FeeWindow
import GridPoolSv2.Pool.FeeWork
import GridPoolSv2.Pool.GridPool
import GridPoolSv2.Pool.History
import GridPoolSv2.Pool.Identities
import GridPoolSv2.Pool.Iso8601
import GridPoolSv2.Pool.MerklePath
import GridPoolSv2.Pool.OpenWindow
import GridPoolSv2.Pool.PayoutConstraints
import GridPoolSv2.Pool.PayoutModes
import GridPoolSv2.Pool.PrevHash
import GridPoolSv2.Pool.RejectedOpens
import GridPoolSv2.Pool.RpcTemplateProvider
import GridPoolSv2.Pool.ScriptSigLimit
import GridPoolSv2.Pool.SelectLoop
import GridPoolSv2.Pool.ShareProof
import GridPoolSv2.Pool.SharedMaps
import GridPoolSv2.Pool.SlotZero
import GridPoolSv2.Pool.Telemetry
import GridPoolSv2.Pool.TelemetryLoss
import GridPoolSv2.Pool.TemplateLoop
import GridPoolSv2.Pool.WorkRefresh
import GridPoolSv2.StratumApps.FallbackCoordinator
import GridPoolSv2.Translator.ChannelManager
import GridPoolSv2.Translator.ChannelMap
import GridPoolSv2.Translator.ChannelOwnership
import GridPoolSv2.Translator.Channels
import GridPoolSv2.Translator.Difficulty
import GridPoolSv2.Translator.GroupChannels
import GridPoolSv2.Translator.Handshake
import GridPoolSv2.Translator.JobPairs
import GridPoolSv2.Translator.JobRetention
import GridPoolSv2.Translator.JobStorage
import GridPoolSv2.Translator.KeepaliveJobs
import GridPoolSv2.Translator.PayoutVerification
import GridPoolSv2.Translator.PendingTargets
import GridPoolSv2.Translator.ShareFidelity
import GridPoolSv2.Translator.Sv1Server
import GridPoolSv2.Translator.TipMessages
import GridPoolSv2.Translator.Tproxy
import GridPoolSv2.Translator.UserIdentity
import GridPoolSv2.MiningDevice.FastHasher
import GridPoolSv2.MiningDevice.Device
import GridPoolSv2.Pool.ProofSpool
import GridPoolSv2.Lib.Framing
import GridPoolSv2.StratumApps.NoiseStream
import GridPoolSv2.StratumApps.IoTask
import GridPoolSv2.Lib.Failover
import GridPoolSv2.Translator.Failover
import GridPoolSv2.JobDeclaratorClient.Failover
import GridPoolSv2.Lib.Series
import GridPoolSv2.StratumApps.SnapshotCache
import GridPoolSv2.BitcoinCoreSv2.SolutionDump
import GridPoolSv2.Pool.Targets
