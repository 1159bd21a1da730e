import TradingBridge.MarketplaceFanout

/-!
# The direct exits

`execute_partial` and `execute_exit`. The mode is resolved from the strategy at the time of the
exit.
-/

namespace TradingBridge

def oppositeSide (positionSide : String) : Except AppError OrderSide :=
  let side := (strip positionSide).toLower
  if side = "buy" ∨ side = "long" then .ok .sell
  else if side = "sell" ∨ side = "short" then .ok .buy
  else .error (.strategyExecutor
    s!"Unknown position side {positionSide} - expected long/short/buy/sell.")

def qtyFromOpenPct (openQty : Int) (closePct : ℚ) (lotSize : Int) : Int :=
  if openQty ≤ 0 ∨ closePct ≤ 0 ∨ lotSize ≤ 0 then 0
  else ((openQty : ℚ) * closePct / 100).floor / lotSize * lotSize

def getOpenPosition (strategyId : StrategyId) (symbol side : String) (d : Db) :
    Option StrategyPosition :=
  let sideLc := if side.toLower = "long" ∨ side.toLower = "buy" then "buy" else "sell"
  Db.newest StrategyPosition.openedAt (d.positions.filter fun p =>
    p.strategyId = strategyId ∧ p.symbol = symbol.toUpper ∧ p.side = sideLc
      ∧ p.isOpen ∧ p.subscriptionId = none)

structure CloseFill where
  fillPrice : Option ℚ
  brokerOrderId : BrokerOrderId
  filledQty : Int
  timedOut : Bool

def simulateClose (signal : StrategySignal) (quantity : Int) : Except AppError CloseFill :=
  match signal.rawPayload.price with
  | none => .ok ⟨none, .paperExit, quantity, false⟩
  | some (.number q) => .ok ⟨some q, .paperExit, quantity, false⟩
  | some .text => .error (.unexpected "decimal.InvalidOperation")

def closeChecks (broker : CredentialId) (symbol : String) : Code Unit := do
  ensureSession broker
  validateSymbol broker symbol

def claimClose (signal : SignalId) : Code Unit := do
  let first ← checkAndSetSignalIdempotent signal .exit
  if !first then
    throw (.duplicateOrderSuppressed "Close order already attempted")

/-- Send the close order and wait for its fill. The slot is claimed between the checks and the
order. -/
def placeCloseOrder (broker : Option CredentialId) (signal : StrategySignal)
    (side : OrderSide) (quantity : Int) (productType : ProductType) (origin : Origin) :
    Code CloseFill :=
  match broker with
  | none => ofExcept (simulateClose signal quantity)
  | some b => do
    closeChecks b signal.symbol
    claimClose signal.id
    let response ← placeOrder ⟨b, ⟨signal.symbol, .nfo, side, quantity, .market, productType,
      none, "strategy-engine-direct-exit"⟩, origin⟩
    let fill ← confirmFill response.brokerOrderId quantity
    return ⟨fill.avgPrice, response.brokerOrderId, fill.filledQty, fill.timedOut⟩

inductive DirectExitResult
  | ignored (reason : String)
  | executed (closeQty remaining : Int) (positionStatus : PositionStatus)

structure ExitLeg where
  action : ActionKind
  role : LegRole
  reason : ExitReason
  deriving DecidableEq

def partialLeg : ExitLeg := ⟨.partly, .directPartial, .directPartialFull⟩
def exitLeg : ExitLeg := ⟨.exit, .directExit, .directExit⟩
def slLeg : ExitLeg := ⟨.slHit, .directSl, .directSl⟩

def reducePosition (leg : ExitLeg) (p : StrategyPosition) (filledQty : Int) (side : String)
    (signalId : SignalId) (ts : Nat) : StrategyPosition :=
  let closeQty := min filledQty p.remainingQuantity
  let remaining := p.remainingQuantity - closeQty
  { p with
    remainingQuantity := remaining
    status := if 0 < remaining then .partly else .closed
    closedAt := if 0 < remaining then p.closedAt else some ts
    exitReason := if 0 < remaining then p.exitReason else some leg.reason
    lastAction := some leg.action
    actionHistory := p.actionHistory ++
      [⟨leg.action, closeQty, side, ts, some signalId, none, false⟩] }

def exitExecution (leg : ExitLeg) (paperMode : Bool) (signal : StrategySignal)
    (p : StrategyPosition) (side : OrderSide) (fill : CloseFill) : StrategyExecution :=
  { signalId := signal.id, brokerCredentialId := p.brokerCredentialId, subscriptionId := none,
    legNumber := 0, legRole := leg.role, symbol := signal.symbol, side := side.value,
    quantity := min fill.filledQty p.remainingQuantity, price := fill.fillPrice,
    brokerOrderId := fill.brokerOrderId,
    brokerStatus := if paperMode then some .complete else none }

def closeAndBook (cfg : Settings) (leg : ExitLeg) (signal : StrategySignal)
    (strategy : Strategy) (broker : Option CredentialId) (p : StrategyPosition)
    (side : String) (closeQty : Int) : Code (Option StrategyPosition) := do
  let exitSide ← ofExcept (oppositeSide p.side)
  let productType ← ofExcept (resolveProductType signal .nfo)
  let fill ← placeCloseOrder broker signal exitSide closeQty productType
    (.directExit signal.id strategy.id p.id)
  if fill.filledQty ≤ 0 then
    if fill.timedOut then
      flagAmbiguousFill fill.brokerOrderId signal.symbol
    return none
  else
    let ts ← now
    let p' := reducePosition leg p fill.filledQty side signal.id ts
    writeDb fun d => (d.savePosition p').addExecutions
      [exitExecution leg broker.isNone signal p exitSide fill]
    maybeFanOutExit cfg signal strategy leg.action
    return some p'

def payloadSide (signal : StrategySignal) : Except AppError String :=
  let side := (signal.rawPayload.side.getD "").toLower
  if side = "long" ∨ side = "short" then .ok side
  else .error (.strategyExecutor s!"signal {signal.id} missing side")

def closeBroker (cfg : Settings) (signal : StrategySignal) (strategy : Strategy)
    (p : StrategyPosition) : Code (Option CredentialId) := do
  let cred ← loadCredential p.brokerCredentialId signal.userId
  entryBroker (resolvePaperMode cfg (some strategy)) cred

def payloadClosePct (signal : StrategySignal) : Except AppError ℚ :=
  match (signal.rawPayload.closePct.filter (· ≠ 0)).orElse fun _ =>
      signal.rawPayload.close_pct with
  | some pct =>
    if 0 < pct ∧ pct ≤ 99 then .ok pct
    else .error (.strategyExecutor s!"PARTIAL signal {signal.id} invalid closePct")
  | none => .error (.strategyExecutor s!"PARTIAL signal {signal.id} invalid closePct")

def executePartial (cfg : Settings) (signal : StrategySignal) (strategy : Strategy) :
    Code DirectExitResult := do
  let side ← ofExcept (payloadSide signal)
  let closePct ← ofExcept (payloadClosePct signal)
  let found ← readDb (getOpenPosition strategy.id signal.symbol side)
  match found.filter fun p => 0 < p.remainingQuantity with
  | none => return .ignored "no_open_position"
  | some p =>
    let broker ← closeBroker cfg signal strategy p
    let lotSize ← resolveLotSize broker signal.symbol signal broker.isNone
    let closeQty := qtyFromOpenPct p.remainingQuantity closePct lotSize
    if closeQty ≤ 0 then return .ignored "close_qty_below_lot"
    else
      let booked ← closeAndBook cfg partialLeg signal strategy broker p side closeQty
      match booked with
      | none => return .ignored "close_not_filled"
      | some p' =>
        let closed := p.remainingQuantity - p'.remainingQuantity
        return .executed closed p'.remainingQuantity p'.status

/-- Close the whole remainder. The answer says closed even where a part was not filled. -/
def executeExit (cfg : Settings) (leg : ExitLeg) (signal : StrategySignal)
    (strategy : Strategy) : Code DirectExitResult := do
  let side ← ofExcept (payloadSide signal)
  let found ← readDb (getOpenPosition strategy.id signal.symbol side)
  match found.filter fun p => 0 < p.remainingQuantity with
  | none => return .ignored "no_open_position"
  | some p =>
    let broker ← closeBroker cfg signal strategy p
    let booked ← closeAndBook cfg leg signal strategy broker p side p.remainingQuantity
    match booked with
    | none => return .ignored "close_not_filled"
    | some p' => return .executed (p.remainingQuantity - p'.remainingQuantity) 0 .closed

end TradingBridge
