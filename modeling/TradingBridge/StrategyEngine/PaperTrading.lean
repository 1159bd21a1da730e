import TradingBridge.StrategyEngine.Engines

/-!
# The paper-trading engine

The record is changed in place, so a bar that raises leaves behind what was done before.
-/

namespace TradingBridge.StrategyEngine

structure PaperTrade where
  sessionId : ℕ
  entryTime : Timestamp
  exitTime : Timestamp
  side : Side
  entryPrice : ℚ
  exitPrice : ℚ
  qty : ℚ
  pnl : ℚ
  exitReason : ExitType
  entryReasons : List Condition

def paperPnl (side : Side) (entryPrice exitPrice qty : ℚ) : ℚ :=
  match side with
  | .buy => (exitPrice - entryPrice) * qty
  | .sell => (entryPrice - exitPrice) * qty

/-- The model's own checks. -/
def PaperTrade.validate (t : PaperTrade) : Except EngineError PaperTrade :=
  if t.entryPrice ≤ 0 then .error (.invalidField "PaperTrade" "entry_price")
  else if t.exitPrice ≤ 0 then .error (.invalidField "PaperTrade" "exit_price")
  else if t.qty ≤ 0 then .error (.invalidField "PaperTrade" "qty")
  else if 1 / 1000000 < |paperPnl t.side t.entryPrice t.exitPrice t.qty - t.pnl| then
    .error (.invalidField "PaperTrade" "pnl")
  else if t.exitTime.instant < t.entryTime.instant then
    .error (.invalidField "PaperTrade" "exit_time")
  else .ok t

def defaultPaperQuantity : ℚ := 1

def exitPriority : ExitType → ℕ
  | .stopLoss => 0
  | .trailingStop => 1
  | .squareOff => 2
  | .time => 3
  | .reverseSignal => 4
  | .target => 5
  | .partly => 6
  | .indicator => 7

structure SessionRecord where
  sessionId : ℕ
  candlesProcessed : ℕ
  strategy : StrategyJSON
  isActive : Bool
  position : Option PositionState
  pendingEntrySide : Option Side
  pendingEntryReasons : List Condition
  lastCandle : Option Candle
  lastIndicatorValues : IndicatorValues
  closedTrades : List PaperTrade
  signalsFired : ℕ
  signalsExecuted : ℕ
  lastShouldEnter : Bool

def startSession (sessionId : ℕ) (strategy : StrategyJSON) : SessionRecord where
  sessionId := sessionId
  candlesProcessed := 0
  strategy := strategy
  isActive := true
  position := none
  pendingEntrySide := none
  pendingEntryReasons := []
  lastCandle := none
  lastIndicatorValues := []
  closedTrades := []
  signalsFired := 0
  signalsExecuted := 0
  lastShouldEnter := false

def pickExit : List ExitEvent → Option ExitEvent
  | [] => none
  | e :: es => some (es.foldl (fun best f =>
      if exitPriority f.exitType < exitPriority best.exitType then f else best) e)

section Bar

variable (r : SessionRecord) (candle : Candle) (values : IndicatorValues)

def fillQueued : Except EngineError SessionRecord :=
  match r.pendingEntrySide, r.position with
  | some side, none => do
    let position ← openPosition side candle.openPrice defaultPaperQuantity candle.timestamp
    return { r with
      position := some position
      signalsExecuted := r.signalsExecuted + 1
      pendingEntrySide := none }
  | _, _ => .ok r

def updateOpen : SessionRecord :=
  { r with position := r.position.map fun position =>
      updateOnCandle position candle r.strategy.exit.trailingStopPercent }

def paperView : BarView :=
  ⟨candle, r.lastCandle, values,
    if r.lastIndicatorValues = [] then none else some r.lastIndicatorValues⟩

def closeToTrade (position : PositionState) (event : ExitEvent) : Except EngineError PaperTrade :=
  PaperTrade.validate ⟨r.sessionId, position.entryTime, candle.timestamp, position.side,
    position.entryPrice, event.price, position.quantity,
    paperPnl position.side position.entryPrice event.price position.quantity, event.exitType,
    r.pendingEntryReasons⟩

def exitOpen : Except EngineError (SessionRecord × List PaperTrade) :=
  match r.position with
  | none => .ok (r, [])
  | some position =>
    if position.isOpen then do
      let events ← evaluateExit position r.strategy.exit (paperView r candle values) false
      match pickExit events with
      | none => return (r, [])
      | some event =>
        let trade ← closeToTrade r candle position event
        return ({ r with
          closedTrades := r.closedTrades ++ [trade]
          position := some (closePosition position) }, [trade])
    else .ok (r, [])

def isFlat : Bool :=
  match r.position with
  | none => true
  | some position => !position.isOpen

def queueEntry (decision : EntryDecision) : SessionRecord :=
  if decision.shouldEnter && !r.lastShouldEnter then
    if isFlat r && decision.side.isSome then
      { r with
        signalsFired := r.signalsFired + 1
        pendingEntrySide := decision.side
        pendingEntryReasons := decision.reasons
        lastShouldEnter := decision.shouldEnter }
    else
      { r with signalsFired := r.signalsFired + 1, lastShouldEnter := decision.shouldEnter }
  else { r with lastShouldEnter := decision.shouldEnter }

def finishBar : SessionRecord :=
  { r with
    lastCandle := some candle
    lastIndicatorValues := values
    candlesProcessed := r.candlesProcessed + 1 }

end Bar

variable (r : SessionRecord)

def processCandle (candle : Candle) (values : IndicatorValues) :
    Except EngineError (List PaperTrade) × SessionRecord :=
  if r.isActive then
    match fillQueued r candle with
    | .error e => (.error e, r)
    | .ok filled =>
      let updated := updateOpen filled candle
      match exitOpen updated candle values with
      | .error e => (.error e, updated)
      | .ok (exited, closed) =>
        match evaluateEntry exited.strategy (paperView exited candle values) with
        | .error e => (.error e, exited)
        | .ok decision => (.ok closed, finishBar (queueEntry exited decision) candle values)
  else (.error .sessionEnded, r)

def endSession : SessionRecord := { r with isActive := false }

def feed (bars : List (Candle × IndicatorValues)) : SessionRecord :=
  bars.foldl (fun r bar => (processCandle r bar.1 bar.2).2) r

end TradingBridge.StrategyEngine
