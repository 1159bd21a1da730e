import Mathlib

/-!
# The rows

Row ids and the clock are numbers, prices and percentages rationals, quantities integers. A lookup
that the database orders by a time and cuts to one row is `newest`.
-/

namespace TradingBridge

abbrev UserId := Nat
abbrev StrategyId := Nat
abbrev CredentialId := Nat
abbrev SubscriptionId := Nat
abbrev SignalId := Nat
abbrev PositionId := Nat

/-- Ids are UUIDs, so those of two tables never read the same: the numbers here carry their
table. -/
def userText (u : UserId) : String := s!"user-{u}"

def subscriptionText (s : SubscriptionId) : String := s!"subscription-{s}"

inductive OrderSide
  | buy
  | sell
  deriving DecidableEq

def OrderSide.value : OrderSide → String
  | .buy => "buy"
  | .sell => "sell"

inductive OrderStatus
  | pending
  | opened
  | complete
  | cancelled
  | rejected
  | partly
  deriving DecidableEq

inductive OrderType
  | market
  | limit
  deriving DecidableEq

inductive ProductType
  | intraday
  | margin
  | delivery
  | bo
  | co
  deriving DecidableEq

inductive Exchange
  | nse
  | bse
  | nfo
  | bfo
  | cds
  | mcx
  deriving DecidableEq

inductive BrokerName
  | dhan
  | fyers
  | other (n : Nat)
  deriving DecidableEq

/-- An order id: the broker's own, or one made up for a simulated fill. -/
inductive BrokerOrderId
  | broker (n : Nat)
  | paper
  | paperExit
  | paperKillSwitch
  deriving DecidableEq

structure User where
  id : UserId
  isActive : Bool
  liveTradingEnabled : Bool

structure BrokerCredential where
  id : CredentialId
  userId : UserId
  brokerName : BrokerName
  isActive : Bool
  createdAt : Nat
  deriving DecidableEq

/-- What the router, the fan-out sizing and the broker guard read. -/
structure StrategyJson where
  instrumentType : Option String
  optionsBlock : Bool
  entryShares : Option Int
  stopLoss : Bool
  deriving DecidableEq

structure Strategy where
  id : StrategyId
  userId : UserId
  webhookTokenId : Option Nat
  brokerCredentialId : Option CredentialId
  allowedSymbols : List String
  isActive : Bool
  entryLots : Int
  partialProfitLots : Int
  partialProfitTargetPct : Option ℚ
  trailOffsetPct : Option ℚ
  hardSlPct : Option ℚ
  aiValidationEnabled : Bool
  directExit : Bool
  strategyJson : Option StrategyJson
  isPaper : Option Bool
  deriving DecidableEq

inductive PriceField
  | number (q : ℚ)
  | text
  deriving DecidableEq

/-- `atr` is the indicators' `ATR`, or their `atr`. -/
structure Payload where
  side : Option String
  closePct : Option ℚ
  close_pct : Option ℚ
  price : Option PriceField
  atr : Option PriceField
  lotSizeHint : Option Int
  productType : Option String
  quantityUnit : Option String
  timestamp : Option String
  deriving DecidableEq

def Payload.empty : Payload := ⟨none, none, none, none, none, none, none, none, none⟩

inductive SignalStatus
  | received
  | validating
  | executing
  | executed
  | rejected
  | failed
  | duplicate
  | skipped
  | ignored
  | held
  deriving DecidableEq

/-- In flight or done: the statuses that block another delivery of the same fire. -/
def SignalStatus.blocksDuplicate : SignalStatus → Bool
  | .validating | .executing | .executed => true
  | _ => false

structure StrategySignal where
  id : SignalId
  userId : UserId
  strategyId : StrategyId
  rawPayload : Payload
  symbol : String
  action : String
  quantity : Option Int
  status : SignalStatus
  receivedAt : Nat
  deriving DecidableEq

inductive PositionStatus
  | opened
  | partly
  | closed
  deriving DecidableEq

inductive ActionKind
  | entry
  | partly
  | exit
  | slHit
  | killSwitch
  deriving DecidableEq

structure ActionEvent where
  action : ActionKind
  qty : Int
  side : String
  ts : Nat
  signalId : Option SignalId
  brokerOrderId : Option BrokerOrderId
  paperMode : Bool
  deriving DecidableEq

inductive ExitReason
  | directPartialFull
  | directExit
  | directSl
  | killSwitch
  | hardSl
  | circuitBreaker
  | trailingSl
  deriving DecidableEq

structure StrategyPosition where
  id : PositionId
  userId : UserId
  strategyId : StrategyId
  brokerCredentialId : CredentialId
  signalId : Option SignalId
  subscriptionId : Option SubscriptionId
  symbol : String
  side : String
  totalQuantity : Int
  remainingQuantity : Int
  avgEntryPrice : Option ℚ
  targetPrice : Option ℚ
  stopLossPrice : Option ℚ
  trailOffset : Option ℚ
  highestPriceSeen : Option ℚ
  bestPrice : Option ℚ
  currentAtr : Option ℚ
  circuitBreakerTriggered : Bool
  exitReason : Option ExitReason
  status : PositionStatus
  lastAction : Option ActionKind
  actionHistory : List ActionEvent
  openedAt : Nat
  closedAt : Option Nat
  finalPnl : Option ℚ
  deriving DecidableEq

inductive LegRole
  | entry
  | directPartial
  | directExit
  | directSl
  | partialTarget
  | hardSl
  | trailingSl
  | circuitBreaker
  | mirror (action : ActionKind)
  deriving DecidableEq

structure StrategyExecution where
  signalId : SignalId
  brokerCredentialId : CredentialId
  subscriptionId : Option SubscriptionId
  legNumber : Nat
  legRole : LegRole
  symbol : String
  side : String
  quantity : Int
  price : Option ℚ
  brokerOrderId : BrokerOrderId
  brokerStatus : Option OrderStatus

structure MarketplaceSubscription where
  id : SubscriptionId
  strategyId : StrategyId
  subscriberId : UserId
  isActive : Bool
  lotsOverride : Option Int
  executionMode : String
  isPaper : Bool
  directionFilter : String
  brokerCredentialId : Option CredentialId

structure KillSwitchConfig where
  userId : UserId
  enabled : Bool
  maxDailyLossInr : ℚ
  maxDailyTrades : Nat
  autoSquareOff : Bool

structure WebhookToken where
  id : Nat
  userId : UserId
  isActive : Bool
  hmacSecret : Bool
  deriving DecidableEq

/-- The database. `nextId` is the next row id to be given out. -/
structure Db where
  users : List User
  credentials : List BrokerCredential
  strategies : List Strategy
  subscriptions : List MarketplaceSubscription
  configs : List KillSwitchConfig
  tokens : List WebhookToken
  signals : List StrategySignal
  positions : List StrategyPosition
  executions : List StrategyExecution
  nextId : Nat

namespace Db

def empty : Db := ⟨[], [], [], [], [], [], [], [], [], 0⟩

/-- The row a query ordered by `time`, newest first, and cut to one row returns. -/
def newest {α : Type} (time : α → Nat) (rows : List α) : Option α := rows.argmax time

variable (d : Db)

def strategy (id : StrategyId) : Option Strategy := d.strategies.find? (·.id = id)

def signal (id : SignalId) : Option StrategySignal := d.signals.find? (·.id = id)

def credential (id : CredentialId) : Option BrokerCredential :=
  d.credentials.find? (·.id = id)

def subscription (id : SubscriptionId) : Option MarketplaceSubscription :=
  d.subscriptions.find? (·.id = id)

def config (user : UserId) : Option KillSwitchConfig :=
  d.configs.find? (·.userId = user)

def position (id : PositionId) : Option StrategyPosition :=
  d.positions.find? (·.id = id)

def savePosition (p : StrategyPosition) : Db :=
  { d with positions := d.positions.map fun q => if q.id = p.id then p else q }

def addPosition (p : StrategyPosition) : Db :=
  { d with positions := d.positions ++ [{ p with id := d.nextId }], nextId := d.nextId + 1 }

def addExecutions (es : List StrategyExecution) : Db :=
  { d with executions := d.executions ++ es }

def setSignalStatus (id : SignalId) (st : SignalStatus) : Db :=
  { d with signals := d.signals.map fun s => if s.id = id then { s with status := st } else s }

def dupEntryLookback : Nat := 24 * 3600

def findDuplicateEntry (strategyId : StrategyId) (excludeId : SignalId)
    (fireTs : String) (t : Nat) : Option StrategySignal :=
  d.signals.find? fun s => s.strategyId = strategyId ∧ s.id ≠ excludeId ∧ s.action = "ENTRY"
    ∧ s.status.blocksDuplicate ∧ t ≤ s.receivedAt + dupEntryLookback
    ∧ s.rawPayload.timestamp = some fireTs

end Db

/-- Open or partly closed, the statuses every owner lookup filters on. -/
def StrategyPosition.isOpen (p : StrategyPosition) : Bool :=
  p.status = .opened || p.status = .partly

end TradingBridge
