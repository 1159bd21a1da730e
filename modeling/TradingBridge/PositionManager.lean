import TradingBridge.StrategyExecutor

/-!
# The position manager

`apply_tick`. Booking an exit writes rows; no order goes to a broker.
-/

namespace TradingBridge

def orderSideOf : String → Option OrderSide
  | "buy" => some .buy
  | "sell" => some .sell
  | _ => none

def hitsTarget (ltp target : ℚ) : OrderSide → Bool
  | .buy => target ≤ ltp
  | .sell => ltp ≤ target

def hitsStop (ltp stop : ℚ) : OrderSide → Bool
  | .buy => ltp ≤ stop
  | .sell => stop ≤ ltp

def trailTriggered (ltp high offset : ℚ) : OrderSide → Bool
  | .buy => ltp ≤ high - offset
  | .sell => high + offset ≤ ltp

def breakerTriggered (p : StrategyPosition) (ltp : ℚ) (side : OrderSide) : Bool :=
  match p.avgEntryPrice, p.currentAtr with
  | some entry, some atr =>
    0 < atr && (match side with
      | .buy => atr * 3 < entry - ltp
      | .sell => atr * 3 < ltp - entry)
  | _, _ => false

def bestSeen (side : OrderSide) (ltp : ℚ) : Option ℚ → ℚ
  | none => ltp
  | some h => match side with
    | .buy => if h < ltp then ltp else h
    | .sell => if ltp < h then ltp else h

def observe (side : OrderSide) (ltp : ℚ) (p : StrategyPosition) : StrategyPosition :=
  { p with
    highestPriceSeen := some (bestSeen side ltp p.highestPriceSeen)
    bestPrice := some (bestSeen side ltp p.highestPriceSeen)
    currentAtr := p.currentAtr.orElse fun _ =>
      p.avgEntryPrice.map fun entry => quantize 4 (entry * (1 / 100)) }

def closeAll (reason : ExitReason) (ts : Nat) (p : StrategyPosition) : StrategyPosition :=
  { p with
    remainingQuantity := 0
    status := .closed
    exitReason := some reason
    closedAt := some ts }

abbrev Booking := LegRole × Int

def bookTarget (contracts : Int) (side : OrderSide) (ltp : ℚ) (p : StrategyPosition) :
    StrategyPosition × List Booking :=
  let qty := min p.remainingQuantity contracts
  if p.targetPrice.any (hitsTarget ltp · side) ∧ ¬ p.remainingQuantity < p.totalQuantity
      ∧ 0 < qty then
    ({ p with
        remainingQuantity := p.remainingQuantity - qty
        status := if 0 < p.remainingQuantity - qty then .partly else .closed },
      [(.partialTarget, qty)])
  else (p, [])

def bookTrail (side : OrderSide) (ltp : ℚ) (ts : Nat) (p : StrategyPosition) :
    StrategyPosition × List Booking :=
  match p.trailOffset, p.highestPriceSeen with
  | some offset, some high =>
    if 0 < p.remainingQuantity ∧ trailTriggered ltp high offset side then
      (closeAll .trailingSl ts p, [(.trailingSl, p.remainingQuantity)])
    else (p, [])
  | _, _ => (p, [])

def tick (contracts : Int) (side : OrderSide) (ltp : ℚ) (ts : Nat) (p : StrategyPosition) :
    StrategyPosition × List Booking :=
  let q := observe side ltp p
  if q.stopLossPrice.any (hitsStop ltp · side) then
    (closeAll .hardSl ts q, [(.hardSl, q.remainingQuantity)])
  else if breakerTriggered q ltp side then
    ({ closeAll .circuitBreaker ts q with circuitBreakerTriggered := true },
      [(.circuitBreaker, q.remainingQuantity)])
  else
    let target := bookTarget contracts side ltp q
    let trail := bookTrail side ltp ts target.1
    (trail.1, target.2 ++ trail.2)

/-- The partial exit in contracts: the strategy's lots at the lot size of the entry's rows. -/
def strategyPartialContracts (p : StrategyPosition) (d : Db) : Int :=
  match d.strategy p.strategyId, d.executions.find? fun e =>
      some e.signalId = p.signalId ∧ e.legRole = .entry with
  | some strategy, some row =>
    if strategy.partialProfitLots ≤ 0 ∨ row.quantity ≤ 0 then 0
    else strategy.partialProfitLots * row.quantity
  | _, _ => 0

def OrderSide.opposite : OrderSide → OrderSide
  | .buy => .sell
  | .sell => .buy

def bookExit (p : StrategyPosition) (side : OrderSide) (ltp : ℚ) (b : Booking) :
    StrategyExecution :=
  { signalId := p.signalId.getD 0, brokerCredentialId := p.brokerCredentialId,
    subscriptionId := none, legNumber := 0, legRole := b.1, symbol := p.symbol,
    side := side.opposite.value, quantity := b.2, price := some ltp,
    brokerOrderId := .paperExit, brokerStatus := some .complete }

structure TickOutcome where
  positionId : PositionId
  triggered : List LegRole
  closed : Bool

def applyTick (p : StrategyPosition) (ltp : ℚ) : Code TickOutcome :=
  match orderSideOf p.side with
  | none => throw (.unexpected s!"ValueError: {p.side} is not a valid OrderSide")
  | some side => do
    let contracts ← readDb (strategyPartialContracts p)
    let ts ← now
    let result := tick contracts side ltp ts p
    writeDb fun d =>
      (d.addExecutions (result.2.map (bookExit p side ltp))).savePosition result.1
    return ⟨p.id, result.2.map (·.1), result.1.status = .closed⟩

def fetchLtp (p : StrategyPosition) : Code (Option ℚ) := do
  let cred ← readDb (·.credential p.brokerCredentialId)
  match cred with
  | none => return none
  | some row =>
    let broker ← buildBroker row
    ensureSession broker
    let quote ← Effectful.Prog.perform (Request.ask (.getQuote broker p.symbol))
    some <$> ofExcept quote

/-- The strategies that exit by their own signals are left alone. -/
def manageOpenPositions (cfg : Settings) : Code (List (Option TickOutcome)) := do
  let rows ← readDb fun d => d.positions.filter fun p => p.isOpen ∧ p.subscriptionId = none
  Effectful.Prog.mapEach (fun p => do
    let strategy ← readDb (·.strategy p.strategyId)
    if strategy.any (·.directExit) then return none
    else
      let ltp ← if cfg.strategyPaperMode then
          some <$> Effectful.Prog.perform (Request.ask (.simulatePaperLtp p.id))
        else tryCatch (fetchLtp p) fun e => if e.isBrokerError then pure none else throw e
      match ltp with
      | none => return none
      | some ltp => some <$> applyTick p ltp) rows

end TradingBridge
