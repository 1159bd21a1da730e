import TradingBridge.InstrumentRouter

/-!
# The marketplace fan-out

Both directions are simulated: no broker is built. A mirrored position is the subscriber's, in the
scope of the subscription, but carries the credential of the strategy, which is the owner's.
-/

namespace TradingBridge

def resolveActiveSubscriptions (strategyId : StrategyId) (d : Db) : List MarketplaceSubscription :=
  d.subscriptions.filter fun s => s.strategyId = strategyId ∧ s.isActive

/-- The chosen credential where it is active and theirs, else their newest active one. It is
recorded, never used. -/
def resolveSubscriberCredential (sub : MarketplaceSubscription) (d : Db) : Option CredentialId :=
  match (sub.brokerCredentialId.bind d.credential).filter fun c =>
      c.userId = sub.subscriberId ∧ c.isActive with
  | some c => some c.id
  | none => (Db.newest BrokerCredential.createdAt (d.credentials.filter fun c =>
      c.userId = sub.subscriberId ∧ c.isActive)).map (·.id)

def subscriberIdempotencyKey (sub : SubscriptionId) (signalToken : String) : RedisKey :=
  .idem s!"{subscriptionText sub}:{signalToken}"

def subscriberIdempotencyTtlSeconds : Nat := 60

def claimSubscriberIdempotency (sub : SubscriptionId) (signalToken : String) : Code Bool :=
  Effectful.Prog.perform (Request.redisSetNX (subscriberIdempotencyKey sub signalToken) .one
    subscriberIdempotencyTtlSeconds)

def findOpenOf (strategyId : StrategyId) (sub : SubscriptionId) (d : Db) :
    Option StrategyPosition :=
  Db.newest StrategyPosition.openedAt (d.positions.filter fun p =>
    p.strategyId = strategyId ∧ p.subscriptionId = some sub ∧ p.isOpen)

/-- At least 2 and even, refused otherwise and never rounded. -/
def validatedEven (n : Int) : Option Int := if n < 2 ∨ n % 2 ≠ 0 then none else some n

def directionAllows (directionFilter : String) (side : OrderSide) : Bool :=
  match (strip directionFilter).toLower with
  | "long" => side = .buy
  | "short" => side = .sell
  | _ => true

def realLotSize (symbol : String) : Code Int := do
  let found ← Effectful.Prog.perform (Request.ask (.scripLotSize symbol.toUpper))
  return (Option.filter (0 < ·) found).getD 1

variable (signal : StrategySignal) (strategy : Strategy) (sub : MarketplaceSubscription)

def resolveSubscriberSize (symbol : String) : Code (Option Int) := do
  if (strategy.strategyJson.bind (·.instrumentType)).map (fun m => (strip m).toLower)
      = some "cash" then
    return validatedEven (sub.lotsOverride.getD
      ((strategy.strategyJson.bind (·.entryShares)).getD 2))
  else
    match sub.lotsOverride.map validatedEven with
    | some none => return none
    | some (some lots) => return some (lots * (← realLotSize symbol))
    | none =>
      let lots := if strategy.entryLots = 0 then 1 else strategy.entryLots
      return some (lots * (← realLotSize symbol))

inductive FanoutStatus
  | filled
  | skippedDirectionFilter
  | refusedSize
  | duplicate
  | notifyOnly
  | skippedAlreadyInPosition
  | skippedNoPosition
  | skipped
  | failed
  deriving DecidableEq

structure PaperExecutionResult where
  subscriptionId : SubscriptionId
  status : FanoutStatus
  quantity : Int
  resolvedCredentialId : Option CredentialId

def isAuto : Bool := (strip sub.executionMode).toLower = "auto"

def subscriberPosition (credential : CredentialId) (side : OrderSide) (qty : Int)
    (report : BrokerReport) (ts : Nat) (id : PositionId) : StrategyPosition :=
  { id, userId := sub.subscriberId, strategyId := strategy.id,
    brokerCredentialId := credential, signalId := some signal.id,
    subscriptionId := some sub.id, symbol := signal.symbol, side := side.value,
    totalQuantity := qty, remainingQuantity := qty,
    avgEntryPrice := report.avgPrice.map AvgPrice.value, targetPrice := none,
    stopLossPrice := none, trailOffset := none, highestPriceSeen := none, bestPrice := none,
    currentAtr := none, circuitBreakerTriggered := false, exitReason := none,
    status := .opened, lastAction := none, actionHistory := [], openedAt := ts,
    closedAt := none, finalPnl := none }

def subscriberExecution
    (credential : CredentialId) (role : LegRole) (symbol side : String) (qty : Int)
    (price : Option ℚ) : StrategyExecution :=
  { signalId := signal.id, brokerCredentialId := credential, subscriptionId := some sub.id,
    legNumber := 1, legRole := role, symbol, side, quantity := qty, price,
    brokerOrderId := .paper, brokerStatus := some .complete }

def dispatchOne (signal : StrategySignal) (strategy : Strategy) (entrySide : Option OrderSide)
    (signalToken : String) (sub : MarketplaceSubscription) : Code PaperExecutionResult := do
  let resolved ← readDb (resolveSubscriberCredential sub)
  let size ← resolveSubscriberSize strategy sub signal.symbol
  match size with
  | none => return ⟨sub.id, .refusedSize, 0, resolved⟩
  | some qty =>
    let report ← ofExcept (simulateFill signal qty)
    match entrySide, strategy.brokerCredentialId with
    | none, _ => return ⟨sub.id, .filled, qty, resolved⟩
    | some _, none => throw (.strategyExecutor
        "strategy has no broker_credential_id for the paper placeholder")
    | some side, some credential =>
      let first ← claimSubscriberIdempotency sub.id signalToken
      if !first then return ⟨sub.id, .duplicate, qty, resolved⟩
      else if !isAuto sub then return ⟨sub.id, .notifyOnly, qty, resolved⟩
      else
        let existing ← readDb (findOpenOf strategy.id sub.id)
        if existing.isSome then return ⟨sub.id, .skippedAlreadyInPosition, 0, resolved⟩
        else
          let ts ← now
          writeDb fun d => (d.addPosition (subscriberPosition signal strategy sub credential side
            qty report ts d.nextId)).addExecutions [subscriberExecution signal sub credential
              .entry signal.symbol side.value qty (report.avgPrice.map AvgPrice.value)]
          return ⟨sub.id, .filled, qty, resolved⟩

def dispatchSubscriberExecutions
    (subscribers : List MarketplaceSubscription) (signalToken : String) :
    Code (List PaperExecutionResult) :=
  if resolveInstrumentType strategy = .options then pure []
  else
    let entrySide := (resolveSide signal.action signal.rawPayload.side).toOption
    Effectful.Prog.mapEach (fun sub =>
      if entrySide.any fun side => !directionAllows sub.directionFilter side then
        pure ⟨sub.id, .skippedDirectionFilter, 0, none⟩
      else tryCatch (dispatchOne signal strategy entrySide signalToken sub)
        fun _ => pure ⟨sub.id, .failed, 0, none⟩) subscribers

def mirrorCloseQty (signal : StrategySignal) (kind : ActionKind) (remaining : Int) : Int :=
  match kind with
  | .partly =>
    let pct := ((signal.rawPayload.closePct.filter (· ≠ 0)).getD 50)
    max 1 (min ((remaining : ℚ) * pct / 100).floor remaining)
  | _ => remaining

def isLongSide (positionSide : String) : Bool :=
  positionSide.toLower = "buy" ∨ positionSide.toLower = "long"

def mirrorClose (p : StrategyPosition) (qty : Int) (price : ℚ) (ts : Nat) : StrategyPosition :=
  let remaining := p.remainingQuantity - qty
  let direction : ℚ := if isLongSide p.side then 1 else -1
  let pnl := p.finalPnl.getD 0 + (price - p.avgEntryPrice.getD 0) * qty * direction
  if remaining ≤ 0 then
    { p with
      remainingQuantity := remaining
      finalPnl := some pnl
      status := .closed
      closedAt := some ts }
  else { p with remainingQuantity := remaining, finalPnl := some pnl, status := .partly }

def mirrorSide (positionSide : String) : String :=
  if isLongSide positionSide then "sell" else "buy"

def fanOutExitOne (kind : ActionKind)
    (exitPrice : ℚ) (signalToken : String) (sub : MarketplaceSubscription) :
    Code PaperExecutionResult := do
  let resolved ← readDb (resolveSubscriberCredential sub)
  let first ← claimSubscriberIdempotency sub.id signalToken
  if !first then return ⟨sub.id, .duplicate, 0, resolved⟩
  else
    let found ← readDb (findOpenOf strategy.id sub.id)
    match found with
    -- An exit without a position would open a short at the broker.
    | none => return ⟨sub.id, .skippedNoPosition, 0, resolved⟩
    | some p =>
      let qty := mirrorCloseQty signal kind p.remainingQuantity
      if p.remainingQuantity ≤ 0 then return ⟨sub.id, .skipped, 0, resolved⟩
      else if !isAuto sub then return ⟨sub.id, .notifyOnly, qty, resolved⟩
      else
        let _ ← ofExcept (simulateFill signal qty)
        let ts ← now
        match strategy.brokerCredentialId with
        | none => throw (.unexpected "IntegrityError: broker_credential_id")
        | some credential =>
          writeDb fun d => (d.savePosition (mirrorClose p qty exitPrice ts)).addExecutions
            [subscriberExecution signal sub credential (.mirror kind) p.symbol
              (mirrorSide p.side) qty (some exitPrice)]
          return ⟨sub.id, .filled, qty, resolved⟩

def fanOutExit (signal : StrategySignal) (strategy : Strategy)
    (subscribers : List MarketplaceSubscription) (kind : ActionKind) :
    Code (List PaperExecutionResult) :=
  match signal.rawPayload.price with
  | some .text => throw (.unexpected "decimal.InvalidOperation")
  | price =>
    let exitPrice := match price with
      | some (.number q) => q
      | _ => 0
    Effectful.Prog.mapEach (fun sub =>
      tryCatch (fanOutExitOne signal strategy kind exitPrice s!"{signal.id}" sub)
        fun _ => pure ⟨sub.id, .failed, 0, none⟩) subscribers

/-- Nothing unless switched on; no failure of it reaches the owner's exit. -/
def maybeFanOutExit (cfg : Settings) (signal : StrategySignal) (strategy : Strategy)
    (kind : ActionKind) : Code Unit :=
  if cfg.marketplaceFanoutEnabled then
    tryCatch (do
      let subscribers ← readDb (resolveActiveSubscriptions strategy.id)
      if !subscribers.isEmpty then
        let _ ← fanOutExit signal strategy subscribers kind) fun _ => pure ()
  else pure ()

end TradingBridge
