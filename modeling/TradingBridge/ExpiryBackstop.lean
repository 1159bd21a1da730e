import TradingBridge.Tables

/-!
# The expiry backstop of futures

The holidays are the weekdays of the window without a stored daily bar. A forced exit changes the
row and nothing else. Days are ordinals (day 1 is a Monday), times seconds from the start of day 0.
-/

namespace TradingBridge.Backstop

def secondsPerDay : ℤ := 24 * 60 * 60

def dateOf (t : ℤ) : ℤ := t / secondsPerDay

/-- Monday is 0 and Sunday 6. -/
def weekday (d : ℤ) : ℤ := (d + 6) % 7

def daysBetween (start stop : ℤ) : List ℤ :=
  (List.range (stop - start).toNat).map fun i : ℕ => start + 1 + i

def isTradingDay (holidays : List ℤ) (d : ℤ) : Bool := weekday d < 5 ∧ d ∉ holidays

def tradingDaysBetween (start stop : ℤ) (holidays : List ℤ) : ℕ :=
  (daysBetween start stop).countP (isTradingDay holidays)

structure HistoricalCandle where
  timeframe : String
  timestamp : ℤ

def dailyBars (candles : List HistoricalCandle) (start stop : ℤ) : List ℤ :=
  (candles.filter fun c => c.timeframe = "1d" ∧ start * secondsPerDay ≤ c.timestamp
    ∧ c.timestamp < (stop + 1) * secondsPerDay).map (·.timestamp)

/-- The weekdays of `(start, stop]` without a bar; `none` without any bar. -/
def deriveHolidaysFromCandles (candles : List HistoricalCandle) (start stop : ℤ) :
    Option (List ℤ) :=
  let rows := dailyBars candles start stop
  if rows.isEmpty then none
  else
    let traded := rows.map dateOf
    some ((daysBetween start stop).filter fun d => weekday d < 5 ∧ d ∉ traded)

def sessionsToExpiry (today expiry : ℤ) (holidays : List ℤ) : ℕ :=
  tradingDaysBetween today expiry holidays

def backstopSessions : ℕ := 2

def backstopDue (today expiry : ℤ) (holidays : List ℤ) : Bool :=
  expiry < today ∨ sessionsToExpiry today expiry holidays ≤ backstopSessions

section Sweep

structure BackstopEvent where
  action : String
  qty : ℤ
  time : ℤ
  decidedBy : String
  sessionsToExpiry : ℕ
  brokerStatus : String
  brokerMessage : String
  paperMode : Bool

structure FuturesPosition where
  id : PositionId
  strategyId : StrategyId
  symbol : String
  status : PositionStatus
  remainingQuantity : ℤ
  closedAt : Option ℤ
  exitReason : Option String
  lastAction : Option String
  lastActionAt : Option ℤ
  actionHistory : List BackstopEvent

def backstopExitReason : String := "T_2_BACKSTOP"

def backstopDecidedBy : String := "expiry-backstop-T2"

def forceExit (now : ℤ) (sessions : ℕ) (position : FuturesPosition) : FuturesPosition :=
  { position with
    remainingQuantity := 0
    status := .closed
    closedAt := some now
    exitReason := some backstopExitReason
    lastAction := some "expiry_backstop"
    lastActionAt := some now
    actionHistory := position.actionHistory ++ [{
      action := "expiry_backstop"
      qty := position.remainingQuantity
      time := now
      decidedBy := backstopDecidedBy
      sessionsToExpiry := sessions
      brokerStatus := "complete"
      brokerMessage := "T-2 expiry backstop: contract had " ++ toString sessions
        ++ " trading session(s) left; forced exit so the position cannot reach physical delivery."
        ++ " No settlement price fabricated."
      paperMode := true }] }

structure SweepResult where
  status : String
  checked : ℕ
  fired : ℕ
  skippedNotDue : ℕ
  skippedNoExpiry : ℕ
  sessionSource : Option String

def istOffset : ℤ := 5 * 60 * 60 + 30 * 60

def todayIst (now : ℤ) : ℤ := dateOf (now + istOffset)

def isSwept (position : FuturesPosition) : Bool :=
  (position.status = .opened ∨ position.status = .partly) ∧ position.symbol.endsWith "-FUT"

def holidayWindow (candles : List HistoricalCandle) (holidays : Option (List ℤ))
    (today expiry : ℤ) : Option (List ℤ) :=
  match holidays with
  | some injected => some injected
  | none => if today < expiry then deriveHolidaysFromCandles candles today expiry else none

variable (expiryFor : String → Option ℤ) (candles : List HistoricalCandle)
  (holidays : Option (List ℤ)) (now : ℤ)

def sweepPosition (result : SweepResult) (position : FuturesPosition) :
    SweepResult × FuturesPosition :=
  match expiryFor position.symbol with
  | none => ({ result with skippedNoExpiry := result.skippedNoExpiry + 1 }, position)
  | some expiry =>
    let today := todayIst now
    let found := holidayWindow candles holidays today expiry
    let window := found.getD []
    let result := match found with
      | none => { result with sessionSource := some "weekends-only (no daily coverage)" }
      | some _ => { result with sessionSource := some (result.sessionSource.getD "derived") }
    if backstopDue today expiry window then
      ({ result with fired := result.fired + 1 },
        forceExit now (sessionsToExpiry today expiry window) position)
    else ({ result with skippedNotDue := result.skippedNotDue + 1 }, position)

def sweepPositions : SweepResult → List FuturesPosition → SweepResult × List FuturesPosition
  | result, [] => (result, [])
  | result, position :: positions =>
    let (result, position') :=
      if isSwept position then sweepPosition expiryFor candles holidays now result position
      else (result, position)
    let (result, positions') := sweepPositions result positions
    (result, position' :: positions')

def sweepExpiryBackstop (enabled : Bool) (positions : List FuturesPosition) :
    SweepResult × List FuturesPosition :=
  if enabled then
    sweepPositions expiryFor candles holidays now
      ⟨"swept", (positions.filter isSwept).length, 0, 0, 0, none⟩ positions
  else (⟨"dormant", 0, 0, 0, 0, none⟩, positions)

end Sweep

end TradingBridge.Backstop
