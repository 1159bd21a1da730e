import TradingBridge.Proofs.Ledger
import TradingBridge.Proofs.OncePerSignal
import TradingBridge.Proofs.SameFire
import TradingBridge.Proofs.KillSwitchIsolation
import TradingBridge.Proofs.FanoutSide
import TradingBridge.Proofs.CapRace
import TradingBridge.Proofs.ReleasedExit
import TradingBridge.Proofs.LostUpdate
import TradingBridge.Proofs.ConfirmedFills
import TradingBridge.Proofs.DriftAlerts
import TradingBridge.Proofs.ClosedOnce
import TradingBridge.Proofs.PaperAgreement
import TradingBridge.Proofs.LedgerChain
import TradingBridge.Proofs.BillingAccess
import TradingBridge.Proofs.VersionHistory
import TradingBridge.Proofs.ScoresJudged
import TradingBridge.Proofs.BackstopDue
import TradingBridge.Proofs.LiveOrderTrail
import TradingBridge.Proofs.OwnLeg
import TradingBridge.Proofs.FlatEvidence
import TradingBridge.StrategyEngine.Calculations
import TradingBridge.Proofs.DaySessions
import TradingBridge.Proofs.FlushFaults
import TradingBridge.Proofs.SalvagedDay
import TradingBridge.Proofs.SlicedReplay
import TradingBridge.Proofs.TapeConservation
import TradingBridge.Proofs.GlobalLatch
import TradingBridge.Proofs.ExactAttribution
import TradingBridge.Proofs.BookOrder
import TradingBridge.Proofs.StrictTrip
import TradingBridge.Proofs.AccountRecord
import TradingBridge.RedisClient
import TradingBridge.Proofs.RedisClient
import TradingBridge.Proofs.ExitMachine
import TradingBridge.AiValidator
import TradingBridge.Proofs.AiSizing
import TradingBridge.Proofs.BarExits
import TradingBridge.Proofs.RiskCaps
import TradingBridge.Proofs.TradedVolume
import TradingBridge.Lib.Framing
import TradingBridge.Orderflow.FeedParser
import TradingBridge.Proofs.FeedFrames
import TradingBridge.Proofs.DnaPool
import TradingBridge.Proofs.BulkMarkers
import TradingBridge.Orderflow.Levels
import TradingBridge.Orderflow.Research
import TradingBridge.Proofs.BookedCost
import TradingBridge.Proofs.HistoryWindows
import TradingBridge.Proofs.PermutationNull
import TradingBridge.Proofs.WindowDays
import TradingBridge.Lib.RunningPeak
import TradingBridge.Proofs.Drawdown
import TradingBridge.Proofs.SupertrendBands
import TradingBridge.Orderflow.Chain
import TradingBridge.Proofs.MaxPain
import TradingBridge.Proofs.NoLookahead
