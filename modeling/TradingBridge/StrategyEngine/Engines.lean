import TradingBridge.StrategyEngine.Schema

/-!
# The condition, position, exit and risk engines

What the backtest and the paper engine share. An exception is an `EngineError`; the checks that
raise it are the engines' own and those of the models they build.
-/

namespace TradingBridge.StrategyEngine

inductive EngineError
  | invalidTime (value : HhMm)
  | wrapAround (value endTime : HhMm)
  | invalidField (model field : String)
  | entryPrice (price : ℚ)
  | entryQuantity (quantity : ℚ)
  | noSide
  | closedPosition
  | qtyPercent (percent : ℚ)
  | exitPrice (price : ℚ)
  | overExit (percent remaining : ℚ)
  | negativeLeg (price quantity : ℚ)
  | indexError (index : ℕ)
  | noCandles
  | normalizer (message : String)
  | indicatorRunner (message : String)
  | sessionEnded
  deriving DecidableEq

abbrev IndicatorValues := List (String × Option ℚ)

def IndicatorValues.get (values : IndicatorValues) (id : String) : Option ℚ :=
  (values.lookup id).join

def resolveRhs (c : IndicatorCondition) (current : IndicatorValues) : Option ℚ :=
  match c.right with
  | some right => current.get right
  | none => c.value

def compareOp (op : IndicatorConditionOp) (left right : ℚ) : Bool :=
  match op with
  | .gt => right < left
  | .lt => left < right
  | .gte => right ≤ left
  | .lte => left ≤ right
  | .eq => left = right
  | .neq => left ≠ right
  | .crossover | .crossunder => false

def evaluateCross (c : IndicatorCondition) (current : IndicatorValues)
    (prior : Option IndicatorValues) : Bool :=
  match prior, c.right with
  | some prior, some right =>
    match prior.get c.left, prior.get right, current.get c.left, current.get right with
    | some leftPrev, some rightPrev, some leftNow, some rightNow =>
      if c.op = .crossover then leftPrev ≤ rightPrev ∧ rightNow < leftNow
      else rightPrev ≤ leftPrev ∧ leftNow < rightNow
    | _, _, _, _ => false
  | _, _ => false

def evaluateIndicatorCondition (c : IndicatorCondition) (current : IndicatorValues)
    (prior : Option IndicatorValues) : Bool :=
  match current.get c.left with
  | none => false
  | some leftNow =>
    if c.op.isCross then evaluateCross c current prior
    else
      match resolveRhs c current with
      | none => false
      | some rhsNow => compareOp c.op leftNow rhsNow

section CandlePatterns

variable (c : Candle)

def isDoji : Bool :=
  let range := c.high - c.low
  if range ≤ 0 then true else |c.close - c.openPrice| ≤ range * (1 / 10)

def isHammer : Bool :=
  let range := c.high - c.low
  if range ≤ 0 then false
  else
    let bodyTop := max c.openPrice c.close
    let bodyBottom := min c.openPrice c.close
    let upperShadow := c.high - bodyTop
    let lowerShadow := bodyBottom - c.low
    bodyTop - bodyBottom ≤ range * (3 / 10) ∧ range * (6 / 10) ≤ lowerShadow
      ∧ upperShadow ≤ lowerShadow * (1 / 2)

def isShootingStar : Bool :=
  let range := c.high - c.low
  if range ≤ 0 then false
  else
    let bodyTop := max c.openPrice c.close
    let bodyBottom := min c.openPrice c.close
    let upperShadow := c.high - bodyTop
    let lowerShadow := bodyBottom - c.low
    bodyTop - bodyBottom ≤ range * (3 / 10) ∧ range * (6 / 10) ≤ upperShadow
      ∧ lowerShadow ≤ upperShadow * (1 / 2)

def barDirection : ℤ :=
  if c.openPrice < c.close then 1 else if c.close < c.openPrice then -1 else 0

def isEngulfing (current prior : Candle) : Bool :=
  min current.openPrice current.close ≤ min prior.openPrice prior.close
    ∧ max prior.openPrice prior.close ≤ max current.openPrice current.close
    ∧ barDirection prior ≠ 0 ∧ barDirection current ≠ 0
    ∧ barDirection prior ≠ barDirection current

def detectCandlePattern (pattern : CandlePattern) (current : Candle) (prior : Option Candle) :
    Bool :=
  match pattern with
  | .bullish => current.openPrice < current.close
  | .bearish => current.close < current.openPrice
  | .doji => isDoji current
  | .hammer => isHammer current
  | .shootingStar => isShootingStar current
  | .engulfing => prior.any fun p => isEngulfing current p

end CandlePatterns

def minuteMicros : ℤ := 60000000

/-- A clock time, in microseconds of the day; the digits may name none. -/
def parseHhmm (value : HhMm) : Except EngineError ℤ :=
  if value.hours.val < 24 ∧ value.minutes.val < 60 then
    .ok ((value.hours.val * 60 + value.minutes.val) * minuteMicros)
  else .error (.invalidTime value)

/-- `exact` is exact to the minute; a window that wraps around midnight is refused. -/
def evaluateTimeCondition (c : TimeCondition) (moment : Timestamp) : Except EngineError Bool := do
  let target ← parseHhmm c.value
  let bar := moment.timeOfDay
  match c.op, c.endTime with
  | .exact, _ => return bar / minuteMicros = target / minuteMicros
  | .after, _ => return target < bar
  | .before, _ => return bar < target
  | .between, none => throw (.invalidField "TimeCondition" "end")
  | .between, some endTime =>
    let stop ← parseHhmm endTime
    if stop < target then throw (.wrapAround c.value endTime)
    else return (target ≤ bar ∧ bar ≤ stop)

def evaluatePriceCondition (c : PriceCondition) (current : Candle) (prior : Option Candle) : Bool :=
  match c.op, c.value with
  | .previousHighBreakout, _ => prior.any fun p => p.high < current.high
  | .previousLowBreakdown, _ => prior.any fun p => current.low < p.low
  | .gt, some value => value < current.close
  | .lt, some value => current.close < value
  | .gte, some value => value ≤ current.close
  | .lte, some value => current.close ≤ value
  | _, none => false

/-- The conditions that passed and failed stand for their descriptions. -/
structure EntryDecision where
  shouldEnter : Bool
  side : Option Side
  reasons : List Condition
  failedConditions : List Condition
  deriving DecidableEq

structure BarView where
  current : Candle
  prior : Option Candle
  values : IndicatorValues
  priorValues : Option IndicatorValues

def evaluateCondition (c : Condition) (v : BarView) : Except EngineError Bool :=
  match c with
  | .indicator c => .ok (evaluateIndicatorCondition c v.values v.priorValues)
  | .candle pattern => .ok (detectCandlePattern pattern v.current v.prior)
  | .time c => evaluateTimeCondition c v.current.timestamp
  | .price c => .ok (evaluatePriceCondition c v.current v.prior)

def evaluateConditions (v : BarView) :
    List Condition → Except EngineError (List Condition × List Condition)
  | [] => .ok ([], [])
  | c :: cs => do
    let passed ← evaluateCondition c v
    let (matched, failed) ← evaluateConditions v cs
    return if passed then (c :: matched, failed) else (matched, c :: failed)

def evaluateEntry (strategy : StrategyJSON) (v : BarView) : Except EngineError EntryDecision := do
  let rules := strategy.entry
  let (matched, failed) ← evaluateConditions v rules.conditions
  let fired : Bool := match rules.operator with
    | .all => failed = []
    | .any => matched ≠ []
  return ⟨fired, if fired then some rules.side else none, matched, failed⟩

section Positions

inductive ExitType
  | target
  | stopLoss
  | trailingStop
  | partly
  | indicator
  | reverseSignal
  | time
  | squareOff
  deriving DecidableEq

/-- Why an exit fired: the numbers its text shows. -/
inductive EventReason
  | target (percent : ℚ)
  | stopLoss (percent : ℚ)
  | trailingStop (percent trail : ℚ)
  | partly (index : ℕ) (qtyPercent targetPercent : ℚ)
  | indicator (c : IndicatorCondition)
  | reverseSignal
  | squareOff (time : HhMm)
  deriving DecidableEq

structure PartialExitRecord where
  qtyPercent : ℚ
  price : ℚ
  timestamp : Timestamp
  reason : EventReason

structure PositionState where
  isOpen : Bool
  side : Side
  entryPrice : ℚ
  entryTime : Timestamp
  quantity : ℚ
  remainingQuantity : ℚ
  highestPriceSinceEntry : ℚ
  lowestPriceSinceEntry : ℚ
  trailingStopPrice : Option ℚ
  partialExitsDone : List PartialExitRecord

def openPosition (side : Side) (entryPrice quantity : ℚ) (entryTime : Timestamp) :
    Except EngineError PositionState :=
  if entryPrice ≤ 0 then .error (.entryPrice entryPrice)
  else if quantity ≤ 0 then .error (.entryQuantity quantity)
  else .ok ⟨true, side, entryPrice, entryTime, quantity, quantity, entryPrice, entryPrice, none, []⟩

/-- The trail moves in the position's favour only; the first one is taken as it comes. -/
def ratchetTrail (side : Side) (currentTrail : Option ℚ) (high low trailingPct : ℚ) : ℚ :=
  let factor := trailingPct / 100
  match side, currentTrail with
  | .buy, none => high * (1 - factor)
  | .buy, some trail => if trail < high * (1 - factor) then high * (1 - factor) else trail
  | .sell, none => low * (1 + factor)
  | .sell, some trail => if low * (1 + factor) < trail then low * (1 + factor) else trail

variable (position : PositionState)

def updateOnCandle (candle : Candle) (trailingStopPercent : Option Percent) : PositionState :=
  if position.isOpen then
    let newHigh := max position.highestPriceSinceEntry candle.high
    let newLow := min position.lowestPriceSinceEntry candle.low
    { position with
      highestPriceSinceEntry := newHigh
      lowestPriceSinceEntry := newLow
      trailingStopPrice := match trailingStopPercent with
        | none => position.trailingStopPrice
        | some pct =>
          some (ratchetTrail position.side position.trailingStopPrice newHigh newLow pct) }
  else position

/-- What a partial may exceed the remaining quantity by. -/
def overExitTolerance : ℚ := 1 / 1000000000

def applyPartialExit (qtyPercent price : ℚ) (timestamp : Timestamp)
    (reason : EventReason) : Except EngineError PositionState :=
  if !position.isOpen then .error .closedPosition
  else if qtyPercent ≤ 0 ∨ 100 < qtyPercent then .error (.qtyPercent qtyPercent)
  else if price ≤ 0 then .error (.exitPrice price)
  else
    let remaining := position.remainingQuantity - position.quantity * (qtyPercent / 100)
    if remaining < -overExitTolerance then
      .error (.overExit qtyPercent position.remainingQuantity)
    else
      .ok { position with
        remainingQuantity := max 0 remaining
        partialExitsDone := position.partialExitsDone ++ [⟨qtyPercent, price, timestamp, reason⟩]
        isOpen := decide (0 < max 0 remaining) }

def closePosition : PositionState :=
  if position.isOpen then { position with isOpen := false, remainingQuantity := 0 } else position

end Positions

structure ExitEvent where
  exitType : ExitType
  qtyPercent : ℚ
  price : ℚ
  reason : EventReason
  deriving DecidableEq

/-- The model's own checks. -/
def ExitEvent.build (exitType : ExitType) (qtyPercent price : ℚ) (reason : EventReason) :
    Except EngineError ExitEvent :=
  if qtyPercent ≤ 0 ∨ 100 < qtyPercent then .error (.invalidField "ExitEvent" "qty_percent")
  else if price ≤ 0 then .error (.invalidField "ExitEvent" "price")
  else .ok ⟨exitType, qtyPercent, price, reason⟩

def ExitEvent.when (fired : Bool) (exitType : ExitType) (qtyPercent price : ℚ)
    (reason : EventReason) : Except EngineError (List ExitEvent) :=
  if fired then (ExitEvent.build exitType qtyPercent price reason).map fun e => [e] else .ok []

def levelAbove (position : PositionState) (percent : ℚ) : ℚ :=
  match position.side with
  | .buy => position.entryPrice * (1 + percent / 100)
  | .sell => position.entryPrice * (1 - percent / 100)

def levelBelow (position : PositionState) (percent : ℚ) : ℚ :=
  match position.side with
  | .buy => position.entryPrice * (1 - percent / 100)
  | .sell => position.entryPrice * (1 + percent / 100)

def barCrossedLong (side : Side) (candle : Candle) (level : ℚ) : Bool :=
  match side with
  | .buy => level ≤ candle.high
  | .sell => candle.low ≤ level

def barCrossedShort (side : Side) (candle : Candle) (level : ℚ) : Bool :=
  match side with
  | .buy => candle.low ≤ level
  | .sell => level ≤ candle.high

def targetEvents (rules : ExitRules) (position : PositionState) (v : BarView) :
    Except EngineError (List ExitEvent) :=
  match rules.targetPercent with
  | none => .ok []
  | some pct =>
    let price := levelAbove position pct
    ExitEvent.when (barCrossedLong position.side v.current price) .target 100 price (.target pct)

def stopLossEvents (rules : ExitRules) (position : PositionState) (v : BarView) :
    Except EngineError (List ExitEvent) :=
  match rules.stopLossPercent with
  | none => .ok []
  | some pct =>
    let price := levelBelow position pct
    ExitEvent.when (barCrossedShort position.side v.current price) .stopLoss 100 price
      (.stopLoss pct)

def trailingStopEvents (rules : ExitRules) (position : PositionState) (v : BarView) :
    Except EngineError (List ExitEvent) :=
  match rules.trailingStopPercent, position.trailingStopPrice with
  | some pct, some trail =>
    ExitEvent.when (barCrossedShort position.side v.current trail) .trailingStop 100 trail
      (.trailingStop pct trail)
  | _, _ => .ok []

/-- One event for each declared level the bar reaches, whether or not it was booked before. -/
def partialEvents (position : PositionState) (v : BarView) :
    ℕ → List PartialExit → Except EngineError (List ExitEvent)
  | _, [] => .ok []
  | idx, p :: ps => do
    let price := levelAbove position p.targetPercent
    let event ← ExitEvent.when (barCrossedLong position.side v.current price) .partly p.qtyPercent
      price (.partly idx p.qtyPercent p.targetPercent)
    return event ++ (← partialEvents position v (idx + 1) ps)

/-- The conditions that are not about indicators are accepted and ignored. -/
def indicatorEvents (v : BarView) : List Condition → Except EngineError (List ExitEvent)
  | [] => .ok []
  | .indicator c :: cs => do
    let event ← ExitEvent.when (evaluateIndicatorCondition c v.values v.priorValues) .indicator 100
      v.current.close (.indicator c)
    return event ++ (← indicatorEvents v cs)
  | _ :: cs => indicatorEvents v cs

def reverseEvents (rules : ExitRules) (v : BarView) (reverseSignalFired : Bool) :
    Except EngineError (List ExitEvent) :=
  ExitEvent.when (rules.reverseSignalExit && reverseSignalFired) .reverseSignal 100 v.current.close
    .reverseSignal

def squareOffEvents (rules : ExitRules) (v : BarView) : Except EngineError (List ExitEvent) :=
  match rules.squareOffTime with
  | none => .ok []
  | some time => do
    let at' ← evaluateTimeCondition ⟨.exact, time, none, by simp⟩ v.current.timestamp
    let after ← evaluateTimeCondition ⟨.after, time, none, by simp⟩ v.current.timestamp
    ExitEvent.when (at' || after) .squareOff 100 v.current.close (.squareOff time)

/-- Every trigger of the bar; the caller decides which of them fill. -/
def evaluateExit (position : PositionState) (rules : ExitRules) (v : BarView)
    (reverseSignalFired : Bool) : Except EngineError (List ExitEvent) := do
  if !position.isOpen then return []
  else
    let target ← targetEvents rules position v
    let stopLoss ← stopLossEvents rules position v
    let trailing ← trailingStopEvents rules position v
    let partials ← partialEvents position v 1 rules.partialExits
    let indicators ← indicatorEvents v rules.indicatorExits
    let reverse ← reverseEvents rules v reverseSignalFired
    let squareOff ← squareOffEvents rules v
    return target ++ stopLoss ++ trailing ++ partials ++ indicators ++ reverse ++ squareOff

section Risk

inductive RiskSeverity
  | info
  | warning
  | error
  | block
  deriving DecidableEq

inductive RiskCode
  | missingStopLoss
  | tooManyIndicators
  | noRiskCaps
  | dailyLossCapHit
  | maxTradesPerDayHit
  | lossStreakCapHit
  deriving DecidableEq

def RiskSeverity.rank : RiskSeverity → ℕ
  | .info => 0
  | .warning => 1
  | .error => 2
  | .block => 3

def RiskCode.severity : RiskCode → RiskSeverity
  | .missingStopLoss | .tooManyIndicators => .warning
  | .noRiskCaps => .info
  | .dailyLossCapHit | .maxTradesPerDayHit | .lossStreakCapHit => .block

structure RiskRuntimeStats where
  dailyPnlPercent : Option ℚ
  tradesToday : Option ℕ
  consecutiveLossStreak : Option ℕ

def tooManyIndicatorsThreshold : ℕ := 8

variable (strategy : StrategyJSON)

def staticMessages : List RiskCode :=
  (if strategy.exit.stopLossPercent = none ∧ strategy.exit.trailingStopPercent = none then
      [.missingStopLoss] else [])
    ++ (if tooManyIndicatorsThreshold < strategy.indicators.length then [.tooManyIndicators]
      else [])
    ++ (if strategy.risk = .none then [.noRiskCaps] else [])

def runtimeMessages (stats : RiskRuntimeStats) : List RiskCode :=
  (match strategy.risk.maxDailyLossPercent, stats.dailyPnlPercent with
    | some cap, some pnl => if cap.val ≤ -pnl then [.dailyLossCapHit] else []
    | _, _ => [])
  ++ (match strategy.risk.maxTradesPerDay, stats.tradesToday with
    | some cap, some trades => if cap.val ≤ trades then [.maxTradesPerDayHit] else []
    | _, _ => [])
  ++ (match strategy.risk.maxLossStreak, stats.consecutiveLossStreak with
    | some cap, some streak => if cap.val ≤ streak then [.lossStreakCapHit] else []
    | _, _ => [])

structure RiskAssessment where
  allowed : Bool
  severity : RiskSeverity
  messages : List RiskCode

def worstSeverity (messages : List RiskCode) : RiskSeverity :=
  messages.foldl (fun worst m => if worst.rank < m.severity.rank then m.severity else worst) .info

def evaluateRisk (stats : RiskRuntimeStats) : RiskAssessment :=
  let messages := staticMessages strategy ++ runtimeMessages strategy stats
  ⟨!messages.any (·.severity = .block), worstSeverity messages, messages⟩

end Risk

end TradingBridge.StrategyEngine
