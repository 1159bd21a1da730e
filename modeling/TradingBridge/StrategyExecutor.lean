import TradingBridge.Effects

/-!
# The strategy executor

`place_strategy_orders` and its helpers.
-/

namespace TradingBridge

open Effectful.Prog (perform)

def resolvePaperMode (cfg : Settings) : Option Strategy → Bool
  | some s => s.isPaper.getD cfg.strategyPaperMode
  | none => cfg.strategyPaperMode

/-- Decrypt the credential and build the broker object, here known by its credential. -/
def buildBroker (cred : BrokerCredential) : Code CredentialId := do
  ofExcept (← perform (Request.ask (.buildBroker cred.id)))
  return cred.id

def ensureSession (broker : CredentialId) : Code Unit := do
  let valid ← ofExcept (← perform (Request.ask (.isSessionValid broker)))
  if !valid then
    ofExcept (← perform (Request.ask (.login broker)))

def validateSymbol (broker : CredentialId) (symbol : String) : Code Unit := do
  ofExcept (← perform (Request.ask (.validateSymbol broker symbol)))

def getFunds (broker : CredentialId) : Code ℚ := do
  ofExcept (← perform (Request.ask (.getFunds broker)))

def getLotSize (broker : CredentialId) (symbol : String) : Code (Option Int) := do
  ofExcept (← perform (Request.ask (.getLotSize broker symbol)))

def placeOrder (c : OrderCall) : Code OrderResponse := do
  ofExcept (← perform (Request.placeOrder c))

def confirmFill (order : BrokerOrderId) (expectedQty : Int) : Code OrderFill := do
  ofExcept (← perform (Request.ask (.confirmFill order expectedQty)))

def signalIdempotencyTtlSeconds : Nat := 3600

def checkAndSetSignalIdempotent (signal : SignalId) (kind : ClaimKind) : Code Bool :=
  perform
    (Request.redisSetNX (.signalIdempotency signal kind) .one signalIdempotencyTtlSeconds)

def ambiguousFillTtl : Nat := 900

def flagAmbiguousFill (order : BrokerOrderId) (symbol : String) : Code Unit :=
  perform
    (Request.redisSetEx (.ambiguousFill symbol.toUpper) (.order order) ambiguousFillTtl)

def strip (s : String) : String :=
  .ofList ((s.toList.dropWhile Char.isWhitespace).reverse.dropWhile Char.isWhitespace).reverse

def resolveSide (action : String) (sideHint : Option String) : Except AppError OrderSide :=
  let upper := action.toUpper
  if upper = "BUY" then .ok .buy
  else if upper = "SELL" then .ok .sell
  else if upper = "ENTRY" then
    let hint := (strip (sideHint.getD "")).toLower
    if hint = "long" then .ok .buy
    else if hint = "short" then .ok .sell
    else .error (.strategyExecutor "ENTRY action requires side_hint='long' or 'short'")
  else .error (.strategyExecutor s!"Unsupported action for strategy entry: {action}")

def loadCredentialRow (credentialId : CredentialId) (userId : UserId) (d : Db) :
    Except AppError BrokerCredential :=
  match d.credentials.find? fun c => c.id = credentialId ∧ c.userId = userId ∧ c.isActive with
  | some row => .ok row
  | none =>
    match d.credential credentialId with
    | none => .error (.strategyExecutor
        s!"Broker credential {credentialId} not found for user {userId}.")
    | some pointed =>
      match Db.newest BrokerCredential.createdAt (d.credentials.filter fun c =>
          c.userId = userId ∧ c.brokerName = pointed.brokerName ∧ c.isActive) with
      | some fallback => .ok fallback
      | none => .error (.strategyExecutor
          s!"No active credential for user {userId}: {credentialId} is deactivated.")

def loadCredential (credentialId : CredentialId) (userId : UserId) : Code BrokerCredential := do
  ofExcept (← readDb (loadCredentialRow credentialId userId))

def resolveLotSize (broker : Option CredentialId) (symbol : String) (signal : StrategySignal)
    (paperMode : Bool) : Code Int :=
  match signal.rawPayload.lotSizeHint.filter (0 < ·), broker with
  | some hint, _ => pure hint
  | none, none => pure 1
  | none, some b => do
    if paperMode then return 1
    else
      let found ← getLotSize b symbol
      return (found.filter (0 < ·)).getD 1

def quantityCeilingContracts : Int := 10000

variable (signal : StrategySignal) (cfg : Settings) (o : LiveOrder)

def signalQuantity (lotSize ceilingContracts fallback : Int) : Except AppError Int :=
  let signalQty := match signal.quantity with
    | none => 0
    | some q => if signal.rawPayload.quantityUnit = some "lots" then q * lotSize else q
  if signalQty = 0 then .ok fallback
  else if ceilingContracts < signalQty then
    .error (.strategyExecutor
      s!"signal.quantity {signalQty} exceeds strategy ceiling {ceilingContracts}")
  else .ok signalQty

/-- An approved AI decision wins where validation is on, then the signal's own quantity, then the
recommendation, then the ceiling. -/
def resolveQuantity (signal : StrategySignal) (strategy : Strategy)
    (recommendedLots : Option Int) (lotSize : Int) : Except AppError Int :=
  let ceilingLots := if strategy.entryLots = 0 then 1 else strategy.entryLots
  let ceilingContracts := ceilingLots * lotSize
  match recommendedLots with
  | some lots =>
    if lots ≤ 0 then
      .error (.strategyExecutor "place_strategy_orders called with recommended_lots=0")
    else if strategy.aiValidationEnabled then .ok (min lots ceilingLots * lotSize)
    else signalQuantity signal lotSize ceilingContracts (min lots ceilingLots * lotSize)
  | none => signalQuantity signal lotSize ceilingContracts ceilingContracts

def validateQuantity (quantity lotSize : Int) (strategy : Strategy) : Except AppError Unit :=
  if quantity ≤ 0 ∨ quantityCeilingContracts < quantity then
    .error (.strategyExecutor s!"Quantity {quantity} contracts outside allowed range")
  else if lotSize ≤ 0 then
    .error (.strategyExecutor s!"Invalid lot_size {lotSize}")
  else if quantity % lotSize ≠ 0 then
    .error (.strategyExecutor
      s!"Quantity {quantity} is not a whole-lot multiple of {lotSize}.")
  else if strategy.partialProfitLots ≠ 0 ∧ quantity / lotSize % 2 ≠ 0 then
    .error (.strategyExecutor "Strategy uses partial profit which requires an even lot count")
  else .ok ()

/-- F&O orders are MARGIN whatever the payload says; one that asks for intraday is refused. -/
def resolveProductType (signal : StrategySignal) : Exchange → Except AppError ProductType
  | .nfo | .bfo | .cds | .mcx =>
    let raw := (signal.rawPayload.productType.getD "").toUpper
    if raw = "INTRADAY" ∨ raw = "MIS" then
      .error (.invalidProductType s!"FORBIDDEN: F&O segment cannot use product_type {raw}.")
    else .ok .margin
  | .nse | .bse =>
    match (signal.rawPayload.productType.getD "").toUpper with
    | "INTRADAY" | "MIS" => .ok .intraday
    | "MARGIN" | "NRML" => .ok .margin
    | "BO" => .ok .bo
    | "CO" => .ok .co
    | _ => .ok .delivery

def roundHalfEven (x : ℚ) : Int :=
  let rest := x - x.floor
  if rest < 1 / 2 then x.floor
  else if 1 / 2 < rest then x.floor + 1
  else if x.floor % 2 = 0 then x.floor else x.floor + 1

def quantize (places : Nat) (x : ℚ) : ℚ := roundHalfEven (x * 10 ^ places) / 10 ^ places

/-- The average price of a fill as the caller holds it: a number, or the text of one. -/
inductive AvgPrice
  | decimal (q : ℚ)
  | str (q : ℚ)

def AvgPrice.value : AvgPrice → ℚ
  | .decimal q => q
  | .str q => q

structure BrokerReport where
  brokerOrderId : BrokerOrderId
  status : OrderStatus
  avgPrice : Option AvgPrice
  filledQty : Int

structure LiveOrder where
  broker : CredentialId
  symbol : String
  side : OrderSide
  quantity : Int
  lotSize : Int
  productType : ProductType
  signalId : Option SignalId
  actionKind : ClaimKind
  orderType : OrderType
  limitPrice : Option ℚ
  origin : Origin

def requiredFunds : ℚ :=
  let lots := if 0 < o.lotSize then o.quantity / o.lotSize else o.quantity
  quantize 2 (lots * cfg.preTradeMarginPerLotInr * (11 / 10))

def preTradeChecks : Code Unit := do
  ensureSession o.broker
  validateSymbol o.broker o.symbol
  let available ← getFunds o.broker
  if available < requiredFunds cfg o then
    throw (.brokerInsufficientFunds "Insufficient funds")

def claimOrder (o : LiveOrder) : Code Unit := do
  match o.signalId with
  | none => pure ()
  | some id =>
    let first ← checkAndSetSignalIdempotent id o.actionKind
    if !first then
      throw (.duplicateOrderSuppressed
        s!"Order for signal {id} already attempted - suppressing duplicate broker call.")

/-- Gate the position on a genuine fill: neither an acknowledgement nor a timeout is one. -/
def confirmEntryFill (response : OrderResponse) : Code BrokerReport := do
  if response.status = .rejected ∨ response.status = .cancelled then
    throw (.brokerOrderRejected "Broker returned non-success status")
  let fill ← confirmFill response.brokerOrderId o.quantity
  if fill.orderStatus = .rejected ∨ fill.orderStatus = .cancelled ∨ fill.filledQty ≤ 0 then
    if fill.timedOut then
      flagAmbiguousFill response.brokerOrderId o.symbol
    throw (.brokerOrderRejected "Order not filled")
  return ⟨response.brokerOrderId, fill.orderStatus, fill.avgPrice.map .str, fill.filledQty⟩

def livePlaceOrder : Code BrokerReport := do
  preTradeChecks cfg o
  claimOrder o
  let response ← placeOrder ⟨o.broker, ⟨o.symbol, .nfo, o.side, o.quantity, o.orderType,
    o.productType, o.limitPrice, "strategy-engine"⟩, o.origin⟩
  confirmEntryFill o response

def simulateFill (signal : StrategySignal) (quantity : Int) : Except AppError BrokerReport :=
  match signal.rawPayload.price with
  | none => .ok ⟨.paper, .complete, some (.decimal 0), quantity⟩
  | some (.number q) => .ok ⟨.paper, .complete, some (.decimal q), quantity⟩
  | some .text => .error (.unexpected "decimal.InvalidOperation")

/-- From the strategy's percentages. A price held as text cannot be multiplied. -/
def computeLevels (avgPrice : Option AvgPrice) (side : OrderSide) (strategy : Strategy) :
    Except AppError (Option ℚ × Option ℚ × Option ℚ) :=
  let above (p pct : ℚ) : ℚ := p + p * pct / 100
  let below (p pct : ℚ) : ℚ := p - p * pct / 100
  match avgPrice with
  | none => .ok (none, none, none)
  | some (.decimal p) =>
    if p = 0 then .ok (none, none, none)
    else .ok (
      strategy.partialProfitTargetPct.map fun pct =>
        if side = .buy then above p pct else below p pct,
      strategy.hardSlPct.map fun pct => if side = .buy then below p pct else above p pct,
      strategy.trailOffsetPct.map fun pct => p * pct / 100)
  | some (.str _) =>
    if strategy.partialProfitTargetPct = none ∧ strategy.hardSlPct = none
        ∧ strategy.trailOffsetPct = none then .ok (none, none, none)
    else .error (.unexpected "TypeError: can't multiply sequence by non-int")

/-- In one subscription's scope or, for `none`, the owner's. -/
def findExistingOpenPosition (strategyId : StrategyId) (symbol : String) (side : OrderSide)
    (subscriptionId : Option SubscriptionId) (d : Db) : Option StrategyPosition :=
  Db.newest StrategyPosition.openedAt (d.positions.filter fun p =>
    p.strategyId = strategyId ∧ p.symbol = symbol.toUpper ∧ p.side = side.value
      ∧ p.isOpen ∧ p.subscriptionId = subscriptionId)

def recordEntryAction (p : StrategyPosition) (qty : Int) (side : OrderSide) (signalId : SignalId)
    (ts : Nat) : StrategyPosition :=
  { p with
    lastAction := some .entry
    actionHistory := p.actionHistory ++
      [⟨.entry, qty, side.value, ts, some signalId, none, false⟩] }

structure ExecutionResult where
  positionId : PositionId
  brokerOrderId : BrokerOrderId
  paperMode : Bool
  brokerStatus : OrderStatus

/-- What an entry has settled before its fill. `broker` is absent in paper mode. -/
structure EntryPlan where
  paperMode : Bool
  side : OrderSide
  cred : BrokerCredential
  broker : Option CredentialId
  lotSize : Int
  quantity : Int

def entryBroker (paperMode : Bool) (cred : BrokerCredential) : Code (Option CredentialId) :=
  if paperMode then pure none else some <$> buildBroker cred

def prepareEntry (cfg : Settings) (signal : StrategySignal) (strategy : Strategy)
    (recommendedLots : Option Int) : Code EntryPlan := do
  let paperMode := resolvePaperMode cfg (some strategy)
  match strategy.brokerCredentialId with
  | none => throw (.strategyExecutor "Strategy has no broker_credential_id linked.")
  | some credentialId =>
    let side ← ofExcept (resolveSide signal.action signal.rawPayload.side)
    let cred ← loadCredential credentialId signal.userId
    let broker ← entryBroker paperMode cred
    let lotSize ← resolveLotSize broker signal.symbol signal paperMode
    let quantity ← ofExcept (resolveQuantity signal strategy recommendedLots lotSize)
    ofExcept (validateQuantity quantity lotSize strategy)
    return ⟨paperMode, side, cred, broker, lotSize, quantity⟩

def fillEntry (cfg : Settings) (signal : StrategySignal) (strategy : Strategy)
    (plan : EntryPlan) : Code BrokerReport :=
  match plan.broker with
  | none => ofExcept (simulateFill signal plan.quantity)
  | some broker => do
    let productType ← ofExcept (resolveProductType signal .nfo)
    livePlaceOrder cfg
      { broker, symbol := signal.symbol, side := plan.side, quantity := plan.quantity,
        lotSize := plan.lotSize, productType, signalId := some signal.id, actionKind := .entry,
        orderType := .market, limitPrice := none,
        origin := .entry signal.id strategy.id signal.userId }

def entryExecutions (plan : EntryPlan) (report : BrokerReport) : List StrategyExecution :=
  (List.range (report.filledQty / plan.lotSize).toNat).map fun leg =>
    { signalId := signal.id, brokerCredentialId := plan.cred.id, subscriptionId := none,
      legNumber := leg + 1, legRole := .entry, symbol := signal.symbol,
      side := plan.side.value, quantity := plan.lotSize,
      price := report.avgPrice.map AvgPrice.value, brokerOrderId := report.brokerOrderId,
      brokerStatus := if plan.paperMode then some .complete else none }

def sumEntry (plan : EntryPlan) (report : BrokerReport) (ts : Nat)
    (p : StrategyPosition) : StrategyPosition :=
  recordEntryAction
    { p with
      totalQuantity := p.totalQuantity + report.filledQty
      remainingQuantity := p.remainingQuantity + report.filledQty }
    plan.quantity plan.side signal.id ts

def openPosition (strategy : Strategy) (plan : EntryPlan)
    (report : BrokerReport) (levels : Option ℚ × Option ℚ × Option ℚ) (ts : Nat)
    (id : PositionId) : StrategyPosition :=
  recordEntryAction
    { id, userId := signal.userId, strategyId := strategy.id,
      brokerCredentialId := plan.cred.id, signalId := some signal.id, subscriptionId := none,
      symbol := signal.symbol, side := plan.side.value, totalQuantity := report.filledQty,
      remainingQuantity := report.filledQty, avgEntryPrice := report.avgPrice.map AvgPrice.value,
      targetPrice := levels.1, stopLossPrice := levels.2.1, trailOffset := levels.2.2,
      highestPriceSeen := report.avgPrice.map AvgPrice.value, bestPrice := none,
      currentAtr := none, circuitBreakerTriggered := false, exitReason := none,
      status := .opened, lastAction := none, actionHistory := [], openedAt := ts,
      closedAt := none, finalPnl := none }
    plan.quantity plan.side signal.id ts

def bookEntry (signal : StrategySignal) (strategy : Strategy) (plan : EntryPlan)
    (report : BrokerReport) : Code ExecutionResult := do
  let ts ← now
  writeDb (·.addExecutions (entryExecutions signal plan report))
  let existing ← readDb (findExistingOpenPosition strategy.id signal.symbol plan.side none)
  match existing with
  | some p =>
    writeDb (·.savePosition (sumEntry signal plan report ts p))
    return ⟨p.id, report.brokerOrderId, plan.paperMode, report.status⟩
  | none =>
    -- Only a first entry computes levels, so only there can they fail, after the fill.
    let levels ← ofExcept (computeLevels report.avgPrice plan.side strategy)
    let id ← perform (Request.db fun d => (d.nextId,
      d.addPosition (openPosition signal strategy plan report levels ts d.nextId)))
    return ⟨id, report.brokerOrderId, plan.paperMode, report.status⟩

def placeStrategyOrders (cfg : Settings) (signal : StrategySignal) (strategy : Strategy)
    (recommendedLots : Option Int) : Code ExecutionResult := do
  mark (.placeStrategyOrders signal.id)
  let plan ← prepareEntry cfg signal strategy recommendedLots
  let report ← fillEntry cfg signal strategy plan
  bookEntry signal strategy plan report

end TradingBridge
