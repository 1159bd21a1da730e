import TradingBridge.StrategyEngine.Engines

/-!
# The backtest

A bar fills the entry queued on the one before it at its open, books the exits its range triggers,
updates the position on its close, and may queue an entry.
-/

namespace TradingBridge.StrategyEngine

structure CostSettings where
  fixedCost : ℚ
  percentCost : ℚ
  slippagePercent : ℚ
  spreadPercent : ℚ
  fixed_nonneg : 0 ≤ fixedCost
  percent_nonneg : 0 ≤ percentCost
  slippage_nonneg : 0 ≤ slippagePercent
  spread_nonneg : 0 ≤ spreadPercent

inductive TradeLeg
  | entry
  | exit
  deriving DecidableEq

def legCost (price quantity : ℚ) (settings : CostSettings) : Except EngineError ℚ :=
  if price < 0 ∨ quantity < 0 then .error (.negativeLeg price quantity)
  else .ok (settings.fixedCost + settings.percentCost / 100 * (price * quantity))

/-- The fill is worse than the reference price. -/
def adjustForSlippage (price : ℚ) (side : Side) (leg : TradeLeg) (settings : CostSettings) : ℚ :=
  if settings.slippagePercent = 0 then price
  else
    let slip := settings.slippagePercent / 100
    match side, leg with
    | .buy, .entry => price * (1 + slip)
    | .buy, .exit => price * (1 - slip)
    | .sell, .entry => price * (1 - slip)
    | .sell, .exit => price * (1 + slip)

inductive TradeReason
  | exit (exitType : ExitType)
  | partly (reason : EventReason)
  | backtestEnd
  deriving DecidableEq

structure Trade where
  entryTime : Timestamp
  exitTime : Timestamp
  side : Side
  entryPrice : ℚ
  exitPrice : ℚ
  quantity : ℚ
  pnl : ℚ
  exitReason : TradeReason
  entryReasons : List Condition
  deriving DecidableEq

/-- The model's own checks. -/
def Trade.validate (t : Trade) : Except EngineError Trade :=
  if t.entryPrice ≤ 0 then .error (.invalidField "Trade" "entry_price")
  else if t.exitPrice ≤ 0 then .error (.invalidField "Trade" "exit_price")
  else if t.quantity ≤ 0 then .error (.invalidField "Trade" "quantity")
  else .ok t

structure EquityPoint where
  timestamp : Timestamp
  equity : ℚ
  deriving DecidableEq

def tradePnl (side : Side) (entryPrice exitPrice quantity : ℚ) : ℚ :=
  match side with
  | .buy => (exitPrice - entryPrice) * quantity
  | .sell => (entryPrice - exitPrice) * quantity

def minCandlesForSimulation : ℕ := 2

def hasDuplicate : List Candle → Bool
  | c :: d :: cs => c.timestamp.instant = d.timestamp.instant || hasDuplicate (d :: cs)
  | _ => false

def normalizeCandles (candles : List Candle) : Except EngineError (List Candle) :=
  if candles = [] then .error (.normalizer "Candle list is empty; nothing to backtest.")
  else if candles.length < minCandlesForSimulation then
    .error (.normalizer "Need at least 2 candles to run a backtest.")
  else if candles.any (·.timestamp.offset = none) then
    .error (.normalizer "Candle has a naive timestamp; tz-aware datetimes are required.")
  else
    let sorted := candles.insertionSort fun c d => c.timestamp.instant ≤ d.timestamp.instant
    if hasDuplicate sorted then
      .error (.normalizer "Duplicate timestamps detected in candle list.")
    else .ok sorted

/-- A value for each bar; none while the indicator warms up. -/
abbrev Series := List (Option ℚ)

abbrev SeriesById := List (String × Series)

def setKey {β : Type} (d : List (String × β)) (key : String) (value : β) : List (String × β) :=
  if d.any (·.1 = key) then d.map fun e => if e.1 = key then (key, value) else e
  else d ++ [(key, value)]

abbrev Calculations :=
  IndicatorConfig → List Candle → Except EngineError (Series × List (String × Series))

/-- A calculation without enough bars returns an empty list. -/
def padSeries (n : ℕ) (s : Series) : Series := if s = [] then List.replicate n none else s

def addIndicator (compute : Calculations) (candles : List Candle)
    (acc : SeriesById × List String) (cfg : IndicatorConfig) :
    Except EngineError (SeriesById × List String) := do
  let (primary, extras) ← compute cfg candles
  let n := candles.length
  match cfg.output with
  | some output =>
    match extras.lookup output with
    | none => throw (.indicatorRunner s!"Indicator {cfg.id} requests output {output}.")
    | some sub => return (setKey acc.1 cfg.id (padSeries n sub), acc.2)
  | none =>
    let series := extras.foldl (fun d e => setKey d s!"{cfg.id}.{e.1}" (padSeries n e.2))
      (setKey acc.1 cfg.id (padSeries n primary))
    return (series, if extras = [] then acc.2 else acc.2 ++ [cfg.id])

def addIndicators (compute : Calculations) (candles : List Candle) :
    List IndicatorConfig → SeriesById × List String → Except EngineError (SeriesById × List String)
  | [], acc => .ok acc
  | cfg :: cfgs, acc => do
    addIndicators compute candles cfgs (← addIndicator compute candles acc cfg)

def precomputeIndicators (compute : Calculations) (candles : List Candle)
    (strategy : StrategyJSON) : Except EngineError (SeriesById × List String) :=
  addIndicators compute candles strategy.indicators ([], [])

def valuesAt : SeriesById → ℕ → Except EngineError IndicatorValues
  | [], _ => .ok []
  | (name, series) :: rest, index =>
    match series[index]? with
    | none => .error (.indexError index)
    | some value => do return (name, value) :: (← valuesAt rest index)

section ExitResolution

inductive AmbiguityMode
  | conservative
  | optimistic
  | accuratePlaceholder
  deriving DecidableEq

def conservativeRank : ExitType → ℕ
  | .stopLoss => 0
  | .trailingStop => 1
  | .partly => 2
  | .target => 3
  | .indicator => 4
  | .reverseSignal => 5
  | .squareOff => 6
  | .time => 7

def optimisticRank : ExitType → ℕ
  | .target => 0
  | .partly => 1
  | .trailingStop => 2
  | .stopLoss => 3
  | .indicator => 4
  | .reverseSignal => 5
  | .squareOff => 6
  | .time => 7

def AmbiguityMode.rank : AmbiguityMode → ExitType → ℕ
  | .optimistic => optimisticRank
  | .conservative | .accuratePlaceholder => conservativeRank

def prioritiseEvents (mode : AmbiguityMode) (events : List ExitEvent) : List ExitEvent :=
  events.insertionSort fun e f => mode.rank e.exitType ≤ mode.rank f.exitType

/-- `math.isclose` with `rel_tol=1e-9`. -/
def isClose (a b : ℚ) : Bool := |a - b| ≤ 1 / 1000000000 * max |a| |b|

variable (ctx : ExitContext) (event : ExitEvent)

/-- A partial counts as booked when one of about its percentage is. -/
def partialDone (position : PositionState) : Bool :=
  position.partialExitsDone.any fun r => isClose r.qtyPercent event.qtyPercent

structure ExitContext where
  bar : Candle
  entryReasons : List Condition
  costs : CostSettings
  quantity : ℚ

structure ExitBooking where
  position : PositionState
  closed : List Trade
  realised : ℚ

def ExitContext.trade (position : PositionState) (fillPrice quantity pnl : ℚ)
    (reason : TradeReason) : Except EngineError Trade :=
  Trade.validate ⟨position.entryTime, ctx.bar.timestamp, position.side, position.entryPrice,
    fillPrice, quantity, pnl, reason, ctx.entryReasons⟩

def bookPartial (fillPrice : ℚ) (b : ExitBooking) : Except EngineError ExitBooking := do
  let qtyToClose := ctx.quantity * (event.qtyPercent / 100)
  let cost ← legCost fillPrice qtyToClose ctx.costs
  let pnl := tradePnl b.position.side b.position.entryPrice fillPrice qtyToClose - cost
  let position ← applyPartialExit b.position event.qtyPercent fillPrice ctx.bar.timestamp
    event.reason
  let trade ← ctx.trade position fillPrice qtyToClose pnl (.partly event.reason)
  return ⟨position, b.closed ++ [trade], b.realised + pnl⟩

def bookFull (fillPrice : ℚ) (b : ExitBooking) : Except EngineError ExitBooking := do
  let qtyToClose := b.position.remainingQuantity
  let cost ← legCost fillPrice qtyToClose ctx.costs
  let pnl := tradePnl b.position.side b.position.entryPrice fillPrice qtyToClose - cost
  let trade ← ctx.trade b.position fillPrice qtyToClose pnl (.exit event.exitType)
  return ⟨closePosition b.position, b.closed ++ [trade], b.realised + pnl⟩

def bookEvent (b : ExitBooking) : Except EngineError ExitBooking :=
  let fillPrice := adjustForSlippage event.price b.position.side .exit ctx.costs
  if event.exitType = .partly then
    if partialDone event b.position then .ok b else bookPartial ctx event fillPrice b
  else bookFull ctx event fillPrice b

def bookEvents (ctx : ExitContext) : List ExitEvent → ExitBooking → Except EngineError ExitBooking
  | [], b => .ok b
  | event :: events, b =>
    if b.position.isOpen then do bookEvents ctx events (← bookEvent ctx event b) else .ok b

end ExitResolution

section Simulator

structure DailyStats where
  currentDay : Option ℤ
  tradesToday : ℕ
  dailyPnl : ℚ

def rollDailyStats (daily : DailyStats) (day : ℤ) : DailyStats :=
  match daily.currentDay with
  | none => { daily with currentDay := some day }
  | some current => if day ≠ current then ⟨some day, 0, 0⟩ else daily

structure PendingEntry where
  decision : EntryDecision
  signalledAt : Timestamp

structure SimInput where
  strategy : StrategyJSON
  series : SeriesById
  initialCapital : ℚ
  quantity : ℚ
  costs : CostSettings
  mode : AmbiguityMode

structure SimState where
  realisedPnl : ℚ
  lossStreak : ℕ
  daily : DailyStats
  position : Option PositionState
  pendingEntry : Option PendingEntry
  openReasons : List Condition
  trades : List Trade
  equityCurve : List EquityPoint

def fillPendingEntry (inp : SimInput) (bar : Candle) (pending : PendingEntry) :
    Except EngineError PositionState :=
  match pending.decision.side with
  | none => .error .noSide
  | some side =>
    openPosition side (adjustForSlippage bar.openPrice side .entry inp.costs) inp.quantity
      bar.timestamp

/-- The entry's cost is taken from the realised profit. -/
def fillStep (inp : SimInput) (bar : Candle) (s : SimState) : Except EngineError SimState :=
  match s.pendingEntry, s.position with
  | some pending, none => do
    let position ← fillPendingEntry inp bar pending
    let entryCost ← legCost position.entryPrice position.quantity inp.costs
    return { s with
      position := some position
      openReasons := pending.decision.reasons
      realisedPnl := s.realisedPnl - entryCost
      daily := { s.daily with tradesToday := s.daily.tradesToday + 1 }
      pendingEntry := none }
  | _, _ => .ok s

def nextStreak (streak : ℕ) (t : Trade) : ℕ :=
  if t.pnl < 0 then streak + 1 else if 0 < t.pnl then 0 else streak

variable (inp : SimInput) (bar : Candle) (s : SimState)

def barView (i : ℕ) (prior bar : Candle) : Except EngineError BarView := do
  let values ← valuesAt inp.series i
  let priorValues ← valuesAt inp.series (i - 1)
  return ⟨bar, some prior, values, some priorValues⟩

def exitStep (inp : SimInput) (i : ℕ) (prior bar : Candle) (s : SimState) :
    Except EngineError SimState :=
  match s.position with
  | none => .ok s
  | some position => do
    let v ← barView inp i prior bar
    let events ← evaluateExit position inp.strategy.exit v false
    if events = [] then return s
    else
      let booked ← bookEvents ⟨bar, s.openReasons, inp.costs, inp.quantity⟩
        (prioritiseEvents inp.mode events) ⟨position, [], 0⟩
      return { s with
        position := if booked.position.isOpen then some booked.position else none
        openReasons := if booked.position.isOpen then s.openReasons else []
        trades := s.trades ++ booked.closed
        daily := { s.daily with
          dailyPnl := s.daily.dailyPnl + (booked.closed.map Trade.pnl).sum }
        lossStreak := booked.closed.foldl nextStreak s.lossStreak
        realisedPnl := s.realisedPnl + booked.realised }

def updateStep : SimState :=
  { s with position := s.position.map fun position =>
      updateOnCandle position bar inp.strategy.exit.trailingStopPercent }

def riskBlocked : Bool :=
  let risk := evaluateRisk inp.strategy
    ⟨if 0 < inp.initialCapital then some (s.daily.dailyPnl / inp.initialCapital * 100) else none,
      some s.daily.tradesToday, some s.lossStreak⟩
  risk.severity = .block || !risk.allowed

def entryStep (i : ℕ) (prior bar : Candle) (s : SimState) : Except EngineError SimState :=
  if s.position = none ∧ riskBlocked inp s = false then do
    let v ← barView inp i prior bar
    let decision ← evaluateEntry inp.strategy v
    return if decision.shouldEnter then
        { s with pendingEntry := some ⟨decision, bar.timestamp⟩ }
      else s
  else .ok s

def unrealisedPnl (position : PositionState) (markPrice : ℚ) : ℚ :=
  tradePnl position.side position.entryPrice markPrice position.remainingQuantity

def markStep : SimState :=
  let unrealised := match s.position with
    | none => 0
    | some position => unrealisedPnl position bar.close
  { s with equityCurve :=
      s.equityCurve ++ [⟨bar.timestamp, inp.initialCapital + s.realisedPnl + unrealised⟩] }

def rollStep : SimState :=
  { s with daily := rollDailyStats s.daily bar.timestamp.date }

def simulateBar (i : ℕ) (prior bar : Candle) (s : SimState) : Except EngineError SimState := do
  let filled ← fillStep inp bar (rollStep bar s)
  let exited ← exitStep inp i prior bar filled
  let entered ← entryStep inp i prior bar (updateStep inp bar exited)
  return markStep inp bar entered

def simulateBars (inp : SimInput) : ℕ → Candle → List Candle → SimState →
    Except EngineError SimState
  | _, _, [], s => .ok s
  | i, prior, bar :: bars, s => do
    simulateBars inp (i + 1) bar bars (← simulateBar inp i prior bar s)

def startState (first : Candle) : SimState :=
  { realisedPnl := 0, lossStreak := 0, daily := ⟨none, 0, 0⟩, position := none,
    pendingEntry := none, openReasons := [], trades := [],
    equityCurve := [⟨first.timestamp, inp.initialCapital⟩] }

/-- The last point of the curve is put right. -/
def forceClose (inp : SimInput) (lastBar : Candle) (s : SimState) : Except EngineError SimState :=
  match s.position with
  | none => .ok s
  | some position => do
    let exitPrice := adjustForSlippage lastBar.close position.side .exit inp.costs
    let exitCost ← legCost exitPrice position.remainingQuantity inp.costs
    let pnl := tradePnl position.side position.entryPrice exitPrice position.remainingQuantity
      - exitCost
    let trade ← Trade.validate ⟨position.entryTime, lastBar.timestamp, position.side,
      position.entryPrice, exitPrice, position.remainingQuantity, pnl, .backtestEnd,
      s.openReasons⟩
    return { s with
      realisedPnl := s.realisedPnl + pnl
      trades := s.trades ++ [trade]
      equityCurve := s.equityCurve.dropLast
        ++ [⟨lastBar.timestamp, inp.initialCapital + (s.realisedPnl + pnl)⟩]
      position := none }

structure SimResult where
  trades : List Trade
  equityCurve : List EquityPoint
  spreadWarning : Bool
  deriving DecidableEq

def simulate (inp : SimInput) : List Candle → Except EngineError SimResult
  | [] => .error .noCandles
  | first :: bars => do
    let s ← simulateBars inp 1 first bars (startState inp first)
    let done ← forceClose inp (bars.getLastD first) s
    return ⟨done.trades, done.equityCurve, decide (0 < inp.costs.spreadPercent)⟩

end Simulator

section Metrics

variable (pnls : List ℚ)

def totalPnl : ℚ := pnls.sum

def wins : List ℚ := pnls.filter (0 < ·)

def losses : List ℚ := pnls.filter (· < 0)

def rateOf (part pnls : List ℚ) : ℚ := if pnls = [] then 0 else part.length / pnls.length

def winRate : ℚ := rateOf (wins pnls) pnls

def lossRate : ℚ := rateOf (losses pnls) pnls

def mean (l : List ℚ) : ℚ := if l = [] then 0 else l.sum / l.length

def averageWin : ℚ := mean (wins pnls)

def averageLoss : ℚ := mean ((losses pnls).map fun p => -p)

def largestWin : ℚ := (wins pnls).foldl max 0

def largestLoss : ℚ := (losses pnls).foldl min 0

/-- Without losses the factor of a winning log is infinite: `none`. -/
def profitFactor : Option ℚ :=
  if pnls = [] then some 0
  else if -(losses pnls).sum = 0 then if 0 < (wins pnls).sum then none else some 0
  else some ((wins pnls).sum / -(losses pnls).sum)

def expectancy : ℚ :=
  if pnls = [] then 0
  else averageWin pnls * winRate pnls - averageLoss pnls * (1 - winRate pnls)

def drawdownStep (acc : ℚ × ℚ) (value : ℚ) : ℚ × ℚ :=
  let peak := if acc.1 < value then value else acc.1
  if 0 < peak then
    let dd := (peak - value) / peak
    (peak, if acc.2 < dd then dd else acc.2)
  else (peak, acc.2)

def maxDrawdown : List ℚ → ℚ
  | [] => 0
  | first :: rest => ((first :: rest).foldl drawdownStep (first, 0)).2

def totalReturnPercent (initialCapital finalEquity : ℚ) : ℚ :=
  if initialCapital = 0 then 0 else (finalEquity - initialCapital) / initialCapital * 100

end Metrics

structure BacktestInput where
  candles : List Candle
  strategy : StrategyJSON
  initialCapital : ℚ
  quantity : ℚ
  costs : CostSettings
  mode : AmbiguityMode
  candles_length : 2 ≤ candles.length
  capital_pos : 0 < initialCapital
  quantity_pos : 0 < quantity

structure BacktestResult where
  totalPnl : ℚ
  totalReturnPercent : ℚ
  winRate : ℚ
  lossRate : ℚ
  totalTrades : ℕ
  averageWin : ℚ
  averageLoss : ℚ
  largestWin : ℚ
  largestLoss : ℚ
  maxDrawdown : ℚ
  profitFactor : Option ℚ
  expectancy : ℚ
  equityCurve : List EquityPoint
  trades : List Trade
  multiOutput : List String
  spreadWarning : Bool

def BacktestInput.simInput (payload : BacktestInput) (series : SeriesById) : SimInput :=
  ⟨payload.strategy, series, payload.initialCapital, payload.quantity, payload.costs,
    payload.mode⟩

def runBacktest (compute : Calculations) (payload : BacktestInput) :
    Except EngineError BacktestResult := do
  let candles ← normalizeCandles payload.candles
  let (series, multiOutput) ← precomputeIndicators compute candles payload.strategy
  let sim ← simulate (payload.simInput series) candles
  let pnls := sim.trades.map Trade.pnl
  let equity := sim.equityCurve.map EquityPoint.equity
  return {
    totalPnl := TradingBridge.StrategyEngine.totalPnl pnls
    totalReturnPercent := TradingBridge.StrategyEngine.totalReturnPercent payload.initialCapital
      (equity.getLastD payload.initialCapital)
    winRate := TradingBridge.StrategyEngine.winRate pnls
    lossRate := TradingBridge.StrategyEngine.lossRate pnls
    totalTrades := sim.trades.length
    averageWin := TradingBridge.StrategyEngine.averageWin pnls
    averageLoss := TradingBridge.StrategyEngine.averageLoss pnls
    largestWin := TradingBridge.StrategyEngine.largestWin pnls
    largestLoss := TradingBridge.StrategyEngine.largestLoss pnls
    maxDrawdown := TradingBridge.StrategyEngine.maxDrawdown equity
    profitFactor := TradingBridge.StrategyEngine.profitFactor pnls
    expectancy := TradingBridge.StrategyEngine.expectancy pnls
    equityCurve := sim.equityCurve
    trades := sim.trades
    multiOutput := multiOutput
    spreadWarning := sim.spreadWarning }

end TradingBridge.StrategyEngine
