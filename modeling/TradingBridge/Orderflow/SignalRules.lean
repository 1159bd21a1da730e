import TradingBridge.Lib.DecimalContext

/-!
# The rules of a signal

The exits, gates, regime, costs, sizing, risk state and ledger under `signals/`. Prices, ratios and
amounts are exact. A division by zero and a raised `ValueError` are `none`.
-/

namespace TradingBridge.Orderflow.Signals

inductive Dir where
  | long
  | short
  deriving DecidableEq

def roundTo (places : ℕ) (x : ℚ) : ℚ := DecimalContext.roundHalfEven (x * 10 ^ places) / 10 ^ places

section Exits

structure ExitConfig where
  tickSize : ℚ := 1 / 20
  thesisStopBufferTicks : ℚ := 2
  minStopAtr : ℚ := 3 / 10
  minStopPct : ℚ := 3 / 100
  atrBars : ℕ := 14
  partialFraction : ℚ := 1 / 2
  chandelierK : Dir → ℚ := fun _ => 3
  sleeperNs : ℤ := 3600000000000
  conditionsRequired : ℤ := 2
  cvdFlip : Bool := true
  ofiFlip : Bool := true
  stopSlippageTicks : ℚ := 2

structure ExitPlan where
  side : Dir
  entry : ℚ
  stop : ℚ
  rValue : ℚ
  target1r : ℚ
  partialFraction : ℚ
  chandelierK : ℚ
  sleeperNs : ℤ
  momentumRequired : ℤ
  stopSlip : ℚ

def riskLevels (levels : List ℚ) (price : ℚ) : Dir → List ℚ
  | .long => levels.filter (· < price)
  | .short => levels.filter (price < ·)

/-- `build_exit_plan`: the structural stop, moved away to the floor where it is closer. -/
def buildExitPlan (cfg : ExitConfig) (levels : List ℚ) (entry : ℚ) (atr : Option ℚ) (side : Dir) :
    ExitPlan :=
  let buf := cfg.thesisStopBufferTicks * cfg.tickSize
  let lvls := riskLevels levels entry side
  let structStop := match side with
    | .long => (lvls.max?).getD (entry * (995 / 1000)) - buf
    | .short => (lvls.min?).getD (entry * (1005 / 1000)) + buf
  let floor := max (cfg.minStopAtr * atr.getD 0) (cfg.minStopPct / 100 * entry)
  let stop :=
    if 0 < floor then
      match side with
      | .long => min structStop (entry - floor)
      | .short => max structStop (entry + floor)
    else structStop
  let r := |entry - stop|
  { side, entry, stop, rValue := r,
    target1r := match side with
      | .long => entry + r
      | .short => entry - r
    partialFraction := cfg.partialFraction, chandelierK := cfg.chandelierK side,
    sleeperNs := cfg.sleeperNs, momentumRequired := cfg.conditionsRequired,
    stopSlip := cfg.stopSlippageTicks * cfg.tickSize }

structure SimBar where
  tsNs : ℤ
  high : ℚ
  low : ℚ
  close : ℚ
  flow : List Bool

inductive ExitReason where
  | stop
  | momentumDeath
  | sleeper
  | sessionEnd
  deriving DecidableEq

structure ExitOutcome where
  exitTsNs : ℤ
  exitReason : ExitReason
  realizedR : ℚ
  partialTaken : Bool

structure SimPosition where
  p : ExitPlan
  entryTs : ℤ
  stop : ℚ
  remaining : ℚ
  realizedR : ℚ
  partialDone : Bool
  extreme : ℚ
  closed : Bool

namespace SimPosition

def new (plan : ExitPlan) (entryTs : ℤ) : SimPosition :=
  { p := plan, entryTs, stop := plan.stop, remaining := 1, realizedR := 0, partialDone := false,
    extreme := plan.entry, closed := false }

variable (pos : SimPosition)

/-- `_r_at`; a plan without a risk unit has no multiples. -/
def rAt (price : ℚ) : Option ℚ :=
  if pos.p.rValue = 0 then none
  else
    some ((match pos.p.side with
      | .long => price - pos.p.entry
      | .short => pos.p.entry - price) / pos.p.rValue)

def closeAt (ts : ℤ) (reason : ExitReason) (price : ℚ) : Option (SimPosition × ExitOutcome) :=
  (pos.rAt price).map fun r =>
    let realized := pos.realizedR + pos.remaining * r
    ({ pos with realizedR := realized, remaining := 0, closed := true },
      { exitTsNs := ts, exitReason := reason, realizedR := roundTo 6 realized,
        partialTaken := pos.partialDone })

def stopHit (pos : SimPosition) (bar : SimBar) : Bool :=
  match pos.p.side with
  | .long => bar.low ≤ pos.stop
  | .short => pos.stop ≤ bar.high

def stopFill (pos : SimPosition) : ℚ :=
  match pos.p.side with
  | .long => pos.stop - pos.p.stopSlip
  | .short => pos.stop + pos.p.stopSlip

/-- The 1R partial, with the stop moved to the entry. -/
def takePartial (bar : SimBar) : SimPosition :=
  let hit : Bool := match pos.p.side with
    | .long => pos.p.target1r ≤ bar.high
    | .short => bar.low ≤ pos.p.target1r
  if ¬ pos.partialDone ∧ hit then
    { pos with
      realizedR := pos.realizedR + pos.p.partialFraction
      remaining := pos.remaining - pos.p.partialFraction
      partialDone := true
      stop := pos.p.entry }
  else pos

def trail (pos : SimPosition) (bar : SimBar) : SimPosition :=
  match pos.p.side with
  | .long =>
    let extreme := max pos.extreme bar.high
    { pos with extreme, stop := max pos.stop (extreme - pos.p.chandelierK * pos.p.rValue) }
  | .short =>
    let extreme := min pos.extreme bar.low
    { pos with extreme, stop := min pos.stop (extreme + pos.p.chandelierK * pos.p.rValue) }

def step (bar : SimBar) : Option (SimPosition × Option ExitOutcome) :=
  if pos.closed then some (pos, none)
  else if pos.stopHit bar then
    (pos.closeAt bar.tsNs .stop pos.stopFill).map fun r => (r.1, some r.2)
  else
    let pos := (pos.takePartial bar).trail bar
    if pos.partialDone ∧ pos.p.momentumRequired ≤ (bar.flow.filter id).length then
      (pos.closeAt bar.tsNs .momentumDeath bar.close).map fun r => (r.1, some r.2)
    else if pos.p.sleeperNs ≤ bar.tsNs - pos.entryTs then
      (pos.closeAt bar.tsNs .sleeper bar.close).map fun r => (r.1, some r.2)
    else some (pos, none)

def forceClose (ts : ℤ) (price : ℚ) : Option (SimPosition × ExitOutcome) :=
  pos.closeAt ts .sessionEnd price

end SimPosition

def momentumFlowFlags (cfg : ExitConfig) (side : Dir) (cvdSlope ofi : ℚ) (ofiEnabled : Bool) :
    List Bool :=
  let sign : ℚ := match side with
    | .long => 1
    | .short => -1
  (if cfg.cvdFlip then [decide (cvdSlope * sign < 0)] else []) ++
    if cfg.ofiFlip ∧ ofiEnabled then [decide (ofi * sign < 0)] else []

end Exits

inductive Direction where
  | bull
  | bear
  | neutral
  deriving DecidableEq

inductive VolBand where
  | low
  | normal
  | high
  deriving DecidableEq

structure RegimeConfig where
  vixLow : ℚ := 12
  vixHigh : ℚ := 18
  trendMaBars : ℕ := 20
  trendSlopeMin : ℚ := 0
  participantOiBias : Direction := .neutral

def volBand (cfg : RegimeConfig) : Option ℚ → VolBand
  | none => .normal
  | some vix =>
    if vix < cfg.vixLow then .low
    else if cfg.vixHigh < vix then .high
    else .normal

def trend (cfg : RegimeConfig) : Option ℚ → Direction
  | none => .neutral
  | some slope =>
    if cfg.trendSlopeMin < slope then .bull
    else if slope < -cfg.trendSlopeMin then .bear
    else .neutral

def regimeDirection (cfg : RegimeConfig) (maSlope : Option ℚ) : Direction :=
  let td := trend cfg maSlope
  let pb := cfg.participantOiBias
  if pb = .neutral then td
  else if pb = td ∨ td = .neutral then pb
  else .neutral

structure AsymmetricGate where
  enabled : Bool := true
  strongBullShortPenalty : ℚ := 10
  strongBearLongPenalty : ℚ := 10
  disableCountertrend : Bool := false

def applyAsymmetric (base : ℚ) (side : Dir) (direction : Direction) (ag : AsymmetricGate) : ℚ :=
  if ¬ ag.enabled then base
  else match side, direction with
    | .short, .bull =>
      if ag.disableCountertrend then 999999 else base + ag.strongBullShortPenalty
    | .long, .bear =>
      if ag.disableCountertrend then 999999 else base + ag.strongBearLongPenalty
    | _, _ => base

section Gates

/-- The IST day since the epoch and minutes of the day. -/
structure CalendarEvent where
  day : ℤ
  windowStart : ℤ
  windowEnd : ℤ
  label : String

/-- Times of the day are minutes after midnight IST. -/
structure GateConfig where
  firstMinutesNoEntry : ℤ := 5
  sessionCutoff : Option ℤ := some 885
  expiryThetaGuard : Option ℤ := some 840
  maxTradesPerDay : ℤ := 3
  oneOpenPosition : Bool := true
  cooldownS : ℚ := 300

structure GateState where
  sessionStartNs : ℤ
  tradesToday : ℕ := 0
  hasOpenPosition : Bool := false
  lastSignalTsNs : Option ℤ := none
  isExpiryDay : Bool

inductive Reason where
  | firstMinNoEntry (minutes : ℤ)
  | afterSessionCutoff (minute : ℤ)
  | eventWindow (label : String)
  | expiryThetaGuard
  | maxTradesPerDay
  | oneOpenPosition
  | cooldown
  | halted (reason : String)
  | dailyLossLimit
  | d2GlobalOnePosition
  | unsizedNoInputs
  | invalidInputs
  | subLotReject (minLots : ℤ)

def nsPerMinute : ℤ := 60000000000

variable (ts : ℤ)

/-- IST is five and a half hours ahead. -/
def istNs : ℤ := ts + 330 * nsPerMinute

def istDay : ℤ := istNs ts / (1440 * nsPerMinute)

def istTimeNs : ℤ := istNs ts % (1440 * nsPerMinute)

def activeEvent (events : List CalendarEvent) (ts : ℤ) : Option CalendarEvent :=
  events.find? fun e => e.day = istDay ts ∧ e.windowStart * nsPerMinute ≤ istTimeNs ts ∧
    istTimeNs ts ≤ e.windowEnd * nsPerMinute

def applyGates (g : GateConfig) (events : List CalendarEvent) (state : GateState) (ts : ℤ)
    (velocitySpike : Bool) : Option Reason :=
  if 0 < g.firstMinutesNoEntry ∧
      ts - state.sessionStartNs < g.firstMinutesNoEntry * nsPerMinute then
    some (.firstMinNoEntry g.firstMinutesNoEntry)
  else if let some cutoff := g.sessionCutoff.filter fun c => c * nsPerMinute ≤ istTimeNs ts then
    some (.afterSessionCutoff cutoff)
  else if let some ev := activeEvent events ts then some (.eventWindow ev.label)
  else if state.isExpiryDay ∧ (g.expiryThetaGuard.any fun c => c * nsPerMinute ≤ istTimeNs ts) ∧
      ¬ velocitySpike then
    some .expiryThetaGuard
  else if 0 < g.maxTradesPerDay ∧ g.maxTradesPerDay ≤ state.tradesToday then some .maxTradesPerDay
  else if g.oneOpenPosition ∧ state.hasOpenPosition then some .oneOpenPosition
  else if 0 < g.cooldownS ∧ state.lastSignalTsNs.any fun last =>
      ((ts - last : ℤ) : ℚ) < g.cooldownS * 1000000000 then
    some .cooldown
  else none

end Gates

structure CostConfig where
  brokeragePerOrderInr : ℚ := 20
  sttRateSell : ℚ := 1 / 1000
  exchangeTxnRate : ℚ := 3503 / 10000000
  sebiTurnoverRate : ℚ := 1 / 1000000
  stampDutyRateBuy : ℚ := 3 / 100000
  gstRate : ℚ := 18 / 100
  spreadOptionPts : ℚ := 1
  slippageOptionPts : ℚ := 0
  slippageMultiplier : ℚ := 1

structure CostInputs where
  delta : ℚ
  premium : Option ℚ
  lot : Option ℤ

def roundTripCost (cfg : CostConfig) (entryPremium exitPremium : ℚ) (lotSize : ℤ)
    (delta rUnit : ℚ) : Option ℚ :=
  if delta ≤ 0 ∨ lotSize ≤ 0 ∨ rUnit ≤ 0 then none
  else
    let buyTurnover := entryPremium * lotSize
    let sellTurnover := exitPremium * lotSize
    let brokerage := cfg.brokeragePerOrderInr * 2
    let stt := cfg.sttRateSell * sellTurnover
    let txn := cfg.exchangeTxnRate * (buyTurnover + sellTurnover)
    let sebi := cfg.sebiTurnoverRate * (buyTurnover + sellTurnover)
    let stamp := cfg.stampDutyRateBuy * buyTurnover
    let gst := cfg.gstRate * (brokerage + txn + sebi)
    let chargesPts := (brokerage + stt + txn + sebi + stamp + gst) / lotSize
    let spread := cfg.spreadOptionPts * cfg.slippageMultiplier
    let slippage := cfg.slippageOptionPts * cfg.slippageMultiplier
    some ((chargesPts + spread + slippage) / delta / rUnit)

/-- The cost of `trade_net_r`: the exit premium follows the trade's own outcome. -/
def tradeCostR (cfg : CostConfig) (realizedR rUnit entryPremium delta : ℚ) (lotSize : ℤ) :
    Option ℚ :=
  roundTripCost cfg entryPremium (entryPremium + realizedR * rUnit * delta) lotSize delta rUnit

section Risk

structure SizingConfig where
  riskPct : ℚ := 1 / 100
  customerMaxLots : ℤ := 8
  evenLotsOnly : Bool := true
  minLots : ℤ := 2

structure SizingResult where
  lots : ℤ
  riskPerLotInr : ℚ
  rejected : Option Reason

def evenDown (n : ℤ) : ℤ := n - n % 2

def sizePosition (equity stopPts delta : ℚ) (lotSize : ℤ) (cfg : SizingConfig)
    (sizeFactor : ℚ) : SizingResult :=
  if stopPts ≤ 0 ∨ delta ≤ 0 ∨ lotSize ≤ 0 ∨ equity ≤ 0 then
    { lots := 0, riskPerLotInr := 0, rejected := some .invalidInputs }
  else
    let riskPerLot := stopPts * delta * lotSize
    let even (n : ℤ) : ℤ := if cfg.evenLotsOnly then evenDown n else n
    let lots := even ⌊equity * cfg.riskPct * sizeFactor / riskPerLot⌋
    let lots := if cfg.customerMaxLots < lots then even cfg.customerMaxLots else lots
    if lots < cfg.minLots then
      { lots := 0, riskPerLotInr := riskPerLot, rejected := some (.subLotReject cfg.minLots) }
    else { lots, riskPerLotInr := riskPerLot, rejected := none }

structure RiskConfig where
  startingCapitalInr : ℚ := 500000
  dailyLossLimitR : ℚ := -3
  consecutiveLossHalt : ℤ := 3
  d1Enabled : Bool := true
  d1AfterConsecutiveWins : ℤ := 2
  d1SizedownFactor : ℚ := 1 / 2
  d2GlobalOnePosition : Bool := true

structure RiskState where
  equityInr : ℚ
  dayPnlR : ℚ := 0
  consecutiveWins : ℕ := 0
  consecutiveLosses : ℕ := 0
  globalOpen : Bool := false
  halted : Option String := none

variable (s : RiskState)

def d1SizeFactor (cfg : RiskConfig) : ℚ :=
  if cfg.d1Enabled ∧ cfg.d1AfterConsecutiveWins ≤ s.consecutiveWins then cfg.d1SizedownFactor
  else 1

/-- `pre_trade_gate`: the halt, the daily limit, then the global one-position rule. -/
def preTradeGate (s : RiskState) (cfg : RiskConfig) : Option Reason :=
  match s.halted with
  | some reason => some (.halted reason)
  | none =>
    if s.dayPnlR ≤ cfg.dailyLossLimitR then some .dailyLossLimit
    else if cfg.d2GlobalOnePosition ∧ s.globalOpen then some .d2GlobalOnePosition
    else none

def onOpen : RiskState := { s with globalOpen := true }

structure Tally where
  dayPnlR : ℚ
  wins : ℕ
  losses : ℕ
  deriving DecidableEq

/-- A flat trade breaks neither streak. -/
def Tally.add (t : Tally) (netR : ℚ) : Tally :=
  { dayPnlR := t.dayPnlR + netR
    wins := if 0 < netR then t.wins + 1 else if netR < 0 then 0 else t.wins
    losses := if 0 < netR then 0 else if netR < 0 then t.losses + 1 else t.losses }

def RiskState.tally : Tally := ⟨s.dayPnlR, s.consecutiveWins, s.consecutiveLosses⟩

def onClose (cfg : RiskConfig) (netR : ℚ) : RiskState :=
  let t := s.tally.add netR
  { s with
    dayPnlR := t.dayPnlR, consecutiveWins := t.wins, consecutiveLosses := t.losses
    globalOpen := false
    halted :=
      if cfg.consecutiveLossHalt ≤ t.losses then some "consecutive_loss_halt"
      else if t.dayPnlR ≤ cfg.dailyLossLimitR then some "daily_loss_limit"
      else s.halted }

structure LedgerEntry where
  tsNs : ℤ
  instrument : ℤ
  side : Dir
  lots : ℤ
  stopPts : ℚ
  delta : ℚ
  lotSize : ℤ
  riskInr : ℚ
  grossR : ℚ
  costR : ℚ
  netR : ℚ
  netInr : ℚ
  equityBeforeInr : ℚ
  equityAfterInr : ℚ

structure Ledger where
  equityInr : ℚ
  entries : List LedgerEntry := []

structure R8Trade where
  lots : ℤ
  stopPts : ℚ
  delta : ℚ
  lot : ℤ

def Ledger.entry (l : Ledger) (ts instrument : ℤ) (side : Dir) (t : R8Trade) (grossR costR : ℚ) :
    LedgerEntry :=
  let riskInr := t.lots * t.stopPts * t.delta * t.lot
  let netInr := grossR * riskInr - costR * riskInr
  { tsNs := ts, instrument, side, lots := t.lots, stopPts := t.stopPts, delta := t.delta,
    lotSize := t.lot, riskInr, grossR, costR, netR := grossR - costR, netInr,
    equityBeforeInr := l.equityInr, equityAfterInr := l.equityInr + netInr }

def Ledger.record (l : Ledger) (e : LedgerEntry) : Ledger :=
  { equityInr := e.equityAfterInr, entries := l.entries ++ [e] }

end Risk

end TradingBridge.Orderflow.Signals
