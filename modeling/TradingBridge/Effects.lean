import TradingBridge.Lib.Prog
import TradingBridge.Lib.Expiring
import TradingBridge.Tables

/-!
# What the code asks of the world

A `World` answers the requests of the order paths; what the broker and the other services say comes
from its `Environment`, which may answer each question anew. Each `place_order` call and each
attempt to claim a Redis key is kept.
-/

namespace TradingBridge

open Effectful

inductive AppError
  | strategyExecutor (msg : String)
  | invalidProductType (msg : String)
  | duplicateOrderSuppressed (msg : String)
  | brokerOrderRejected (msg : String)
  | brokerInsufficientFunds (msg : String)
  | brokerSessionExpired (msg : String)
  | broker (msg : String)
  | http (status : Nat) (detail : String)
  | unexpected (msg : String)
  deriving DecidableEq

def AppError.isBrokerError : AppError → Bool
  | .duplicateOrderSuppressed _ | .brokerOrderRejected _ | .brokerInsufficientFunds _
  | .brokerSessionExpired _ | .broker _ => true
  | _ => false

inductive KillSwitchStatus
  | active
  | tripped
  deriving DecidableEq

inductive SignalKind
  | entry
  | partly
  | exit
  | slHit
  deriving DecidableEq

inductive ClaimKind
  | entry
  | exit
  deriving DecidableEq

inductive RedisKey
  | kill (user : UserId)
  | idem (hash : String)
  | signalIdempotency (signal : SignalId) (kind : ClaimKind)
  | trades (user : UserId)
  | ambiguousFill (symbol : String)
  | heldExit (strategy : StrategyId)
  deriving DecidableEq

structure HoldRecord where
  signalId : SignalId
  side : String
  entryPrice : ℚ
  atrAtHold : ℚ
  releaseAt : Nat
  deriving DecidableEq

inductive RedisValue
  | one
  | status (s : KillSwitchStatus)
  | count (n : Nat)
  | order (id : BrokerOrderId)
  | held (record : HoldRecord)
  deriving DecidableEq

def countOf : Option RedisValue → Nat
  | some (.count n) => n
  | _ => 0

structure OrderRequest where
  symbol : String
  exchange : Exchange
  side : OrderSide
  quantity : Int
  orderType : OrderType
  productType : ProductType
  price : Option ℚ
  tag : String

structure OrderResponse where
  brokerOrderId : BrokerOrderId
  status : OrderStatus
  message : String

structure OrderFill where
  orderStatus : OrderStatus
  filledQty : Int
  avgPrice : Option ℚ
  timedOut : Bool

inductive Origin
  | entry (signal : SignalId) (strategy : StrategyId) (user : UserId)
  | directExit (signal : SignalId) (strategy : StrategyId) (position : PositionId)
  | killSwitch (user : UserId) (position : PositionId)
  | webhook (strategy : Option StrategyId) (user : UserId)
  | liveOrder (strategy : StrategyId) (user : UserId)
  deriving DecidableEq

/-- A `place_order` call: the credential the broker object was built from, and the order. -/
structure OrderCall where
  credential : CredentialId
  order : OrderRequest
  origin : Origin

structure BrokerPosition where
  symbol : String
  exchange : Exchange
  quantity : Int
  productType : ProductType

inductive AIDecision
  | approved (recommendedLots : Option Int)
  | rejected

inductive Shield
  | clear
  | cooldown
  | tripped
  deriving DecidableEq

inductive SafetyCheck
  | paperSessions
  | trustScore
  | truthScore
  deriving DecidableEq

inductive IndexKey
  | nifty50
  | bankNifty
  | sensex
  | bseMidcap
  deriving DecidableEq

structure IndexOhlc where
  ltp : ℚ
  opening : ℚ
  high : ℚ
  low : ℚ
  prevClose : ℚ

inductive PaperOutcome
  | executed
  | noOpenPosition
  | failed
  | refused
  deriving DecidableEq

inductive Query
  | buildBroker (cred : CredentialId)
  | isSessionValid (cred : CredentialId)
  | login (cred : CredentialId)
  | validateSymbol (cred : CredentialId) (symbol : String)
  | getFunds (cred : CredentialId)
  | getLotSize (cred : CredentialId) (symbol : String)
  | confirmFill (order : BrokerOrderId) (expectedQty : Int)
  | getPositions (cred : CredentialId)
  | scripLotSize (symbol : String)
  | getQuote (cred : CredentialId) (symbol : String)
  | simulatePaperLtp (position : PositionId)
  | paperExecutor (signal : SignalId)
  | validateSignal (signal : SignalId)
  | anomalyShield (signal : SignalId)
  | dailyPnl (user : UserId)
  | safetyCheck (strategy : StrategyId) (check : SafetyCheck)
  | normalizeSymbol (cred : CredentialId) (symbol : String)
  | rateLimit (user : UserId)
  | circuitBreakerHalt (symbol : String)
  | platformHalted
  | resolveSymbol (symbol : String)
  | indexOhlc (index : IndexKey)

@[reducible] def Answer : Query → Type
  | .buildBroker _ => Except AppError Unit
  | .isSessionValid _ => Except AppError Bool
  | .login _ => Except AppError Unit
  | .validateSymbol _ _ => Except AppError Unit
  | .getFunds _ => Except AppError ℚ
  | .getLotSize _ _ => Except AppError (Option Int)
  | .confirmFill _ _ => Except AppError OrderFill
  | .getPositions _ => Except AppError (List BrokerPosition)
  | .scripLotSize _ => Option Int
  | .getQuote _ _ => Except AppError ℚ
  | .simulatePaperLtp _ => ℚ
  | .paperExecutor _ => Except AppError PaperOutcome
  | .validateSignal _ => Except AppError AIDecision
  | .anomalyShield _ => Except AppError Shield
  | .dailyPnl _ => Except AppError ℚ
  | .safetyCheck _ _ => Except AppError Bool
  | .normalizeSymbol _ _ => Except AppError String
  | .rateLimit _ => Bool
  | .circuitBreakerHalt _ => Bool
  | .platformHalted => Bool
  | .resolveSymbol _ => Except AppError String
  | .indexOhlc _ => Option IndexOhlc

structure Message where
  signal : SignalId
  kind : SignalKind
  deriving DecidableEq

/-- Points of the code a property names that make no request of their own. -/
inductive Mark
  | placeStrategyOrders (signal : SignalId)
  | duplicate (hash : String)
  | accepted (hash : String) (signal : SignalId)
  | liveOrderAttempt (strategy : StrategyId) (user : UserId) (allowed : Bool)
    (blockingReasons : List String)
  deriving DecidableEq

structure Claim where
  key : RedisKey
  time : Nat
  won : Bool
  deriving DecidableEq

/-- The signal statuses and the duplicate lookup have requests of their own: two workers meet
there. -/
inductive Request : Type 1
  | db {α : Type} (f : Db → α × Db)
  | setSignalStatus (id : SignalId) (status : SignalStatus)
  | findDuplicateEntry (strategy : StrategyId) (exclude : SignalId) (fireTs : String) (t : Nat)
  | redisGet (k : RedisKey)
  | redisSet (k : RedisKey) (v : RedisValue)
  | redisSetEx (k : RedisKey) (v : RedisValue) (ttl : Nat)
  | redisSetNX (k : RedisKey) (v : RedisValue) (ttl : Nat)
  | redisDel (k : RedisKey)
  | redisIncr (k : RedisKey) (ttl : Nat)
  | clock
  | ask (q : Query)
  | placeOrder (c : OrderCall)
  | dispatch (m : Message)
  | mark (m : Mark)

@[reducible] def Response : Request → Type
  | @Request.db α _ => α
  | .setSignalStatus _ _ => Unit
  | .findDuplicateEntry _ _ _ _ => Option StrategySignal
  | .redisGet _ => Option RedisValue
  | .redisSet _ _ => Unit
  | .redisSetEx _ _ _ => Unit
  | .redisSetNX _ _ _ => Bool
  | .redisDel _ => Unit
  | .redisIncr _ _ => Nat
  | .clock => Nat
  | .ask q => Answer q
  | .placeOrder _ => Except AppError OrderResponse
  | .dispatch _ => Unit
  | .mark _ => Unit

abbrev Code := Prog Request Response AppError

/-- The answers from outside, the `n`-th question's at `n`. -/
structure Environment where
  answer : Nat → (q : Query) → Answer q
  place : Nat → OrderCall → Except AppError OrderResponse

structure World where
  db : Db
  redis : Expiring.Store RedisKey RedisValue
  clock : Nat
  queue : List Message
  orders : List OrderCall
  claims : List Claim
  marks : List Mark
  asked : Nat
  env : Environment

def handle (w : World) : (r : Request) → Response r × World
  | .db f => ((f w.db).1, { w with db := (f w.db).2 })
  | .setSignalStatus id st => ((), { w with db := w.db.setSignalStatus id st })
  | .findDuplicateEntry strategy exclude ts t =>
    (w.db.findDuplicateEntry strategy exclude ts t, w)
  | .redisGet k => (w.redis.get w.clock k, w)
  | .redisSet k v => ((), { w with redis := w.redis.set k v })
  | .redisSetEx k v ttl => ((), { w with redis := w.redis.setEx w.clock k v ttl })
  | .redisSetNX k v ttl =>
    ((w.redis.setNX w.clock k v ttl).1,
      { w with
        redis := (w.redis.setNX w.clock k v ttl).2
        claims := w.claims ++ [⟨k, w.clock, (w.redis.setNX w.clock k v ttl).1⟩] })
  | .redisDel k => ((), { w with redis := w.redis.del k })
  | .redisIncr k ttl =>
    (countOf (w.redis.get w.clock k) + 1,
      { w with
        redis := w.redis.setEx w.clock k (.count (countOf (w.redis.get w.clock k) + 1)) ttl })
  | .clock => (w.clock, w)
  | .ask q => (w.env.answer w.asked q, { w with asked := w.asked + 1 })
  | .placeOrder c =>
    (w.env.place w.asked c, { w with asked := w.asked + 1, orders := w.orders ++ [c] })
  | .dispatch m => ((), { w with queue := w.queue ++ [m] })
  | .mark m => ((), { w with marks := w.marks ++ [m] })

def Code.exec {α : Type} (c : Code α) (w : World) : Except AppError α × World := c.run handle w

section Requests

variable {α : Type}

def ofExcept : Except AppError α → Code α
  | .ok a => pure a
  | .error e => throw e

def readDb (f : Db → α) : Code α := Prog.perform (Request.db fun d => (f d, d))

def writeDb (f : Db → Db) : Code Unit := Prog.perform (Request.db fun d => ((), f d))

def now : Code Nat := Prog.perform Request.clock

def setSignalStatus (id : SignalId) (st : SignalStatus) : Code Unit :=
  Prog.perform (Request.setSignalStatus id st)

def mark (m : Mark) : Code Unit := Prog.perform (Request.mark m)

def dispatch (m : Message) : Code Unit := Prog.perform (Request.dispatch m)

end Requests

structure Settings where
  strategyPaperMode : Bool
  preTradeMarginPerLotInr : ℚ
  optionsExecutionEnabled : Bool
  cashExecutionEnabled : Bool
  marketplaceFanoutEnabled : Bool
  anomalyShieldEnabled : Bool
  marketShieldEnabled : Bool
  webhookRequireHmac : Bool
  liveTradingEnabled : Bool

end TradingBridge
