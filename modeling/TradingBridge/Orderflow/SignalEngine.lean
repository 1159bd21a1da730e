import TradingBridge.Orderflow.SignalRules
import TradingBridge.Orderflow.Tape

/-!
# The signal engine

`signals/engine.py`, run after the tape on every packet. What the level and chain engines, the
scorer and the scrip master answer at an evaluation is a `Reading`. A row that a position will fill
in when it closes is known by its index in `rows`. A step that raises is `none`.
-/

namespace TradingBridge.Orderflow.Signals

open Tape (BarRow TapeEngine TapeConfig TickPacket pushMax)

structure SignalConfig where
  fireThreshold : Dir → ℚ := fun _ => 999
  regime : RegimeConfig := {}
  asymmetricGate : AsymmetricGate := {}
  gates : GateConfig := {}
  exits : ExitConfig := {}
  costs : CostConfig := {}
  r8Enabled : Bool := false
  sizing : SizingConfig := {}
  risk : RiskConfig := {}

structure Setup where
  cfg : SignalConfig := {}
  tradeable : List ℤ
  nodup : tradeable.Nodup
  vixSid : Option ℤ := none
  expiresToday : ℤ → Bool := fun _ => false
  events : List CalendarEvent := []
  sides : List Dir := [.long, .short]

structure Reading where
  score : Dir → ℚ
  levels : List ℚ
  costs : Dir → CostInputs

structure SignalRow where
  tsNs : ℤ
  instrument : ℤ
  side : Dir
  price : ℚ
  score : ℚ
  threshold : ℚ
  baseThreshold : ℚ
  fired : Bool
  gateReason : Option Reason
  regimeDirection : Direction
  regimeVolBand : VolBand
  entry : Option ℚ := none
  stop : Option ℚ := none
  target : Option ℚ := none
  rValue : Option ℚ := none
  exitReason : Option ExitReason := none
  realizedR : Option ℚ := none
  costR : Option ℚ := none
  realizedRNet : Option ℚ := none
  lots : Option ℤ := none
  riskInr : Option ℚ := none

def SignalRow.withOutcome (row : SignalRow) (o : ExitOutcome) : SignalRow :=
  { row with exitReason := some o.exitReason, realizedR := some o.realizedR }

structure Instrument where
  lastBars : ℕ := 0
  ma : List ℚ := []
  atrTr : List ℚ := []
  atrPrevClose : Option ℚ := none
  gate : Option GateState := none
  pos : Option SimPosition := none
  posRow : Option ℕ := none
  entryCost : Option CostInputs := none
  r8Trade : Option R8Trade := none

/-- `openOrder` are the keys of the map of positions, oldest first. -/
structure SignalEngine where
  inst : ℤ → Instrument := fun _ => {}
  openOrder : List ℤ := []
  vix : Option ℚ := none
  firstTs : Option ℤ := none
  rows : List SignalRow := []
  risk : RiskState
  ledger : Ledger

variable (S : Setup)

def SignalEngine.new : SignalEngine :=
  { risk := { equityInr := S.cfg.risk.startingCapitalInr },
    ledger := { equityInr := S.cfg.risk.startingCapitalInr } }

structure Context where
  tsNs : ℤ
  price : ℚ
  velocitySpike : Bool
  atr : Option ℚ
  direction : Direction
  volBand : VolBand

namespace SignalEngine

def update (e : SignalEngine) (sid : ℤ) (f : Instrument → Instrument) : SignalEngine :=
  { e with inst := Function.update e.inst sid (f (e.inst sid)) }

section Close

/-- `_apply_costs`, without the breakdown; a missing input leaves the gross result only. -/
def applyCosts (row : SignalRow) (ci : Option CostInputs) : Option SignalRow :=
  match ci, row.realizedR, row.rValue with
  | some ci, some gross, some rUnit =>
    match ci.lot, ci.premium with
    | some lot, some premium =>
      if rUnit = 0 ∨ lot = 0 ∨ premium = 0 then some row
      else
        (tradeCostR S.cfg.costs gross rUnit premium ci.delta lot).map fun cost =>
          { row with
            costR := some (roundTo 4 cost), realizedRNet := some (roundTo 4 (gross - cost)) }
    | _, _ => some row
  | _, _, _ => some row

variable (e : SignalEngine)

def r8Record (i : ℕ) (row : SignalRow) (t : R8Trade) (gross cost : ℚ) : SignalEngine :=
  let entry := e.ledger.entry row.tsNs row.instrument row.side t gross cost
  let ledger := e.ledger.record entry
  { e with
    ledger
    risk := { onClose e.risk S.cfg.risk entry.netR with equityInr := ledger.equityInr }
    rows := e.rows.set i { row with riskInr := some (roundTo 2 entry.riskInr) } }

def settleRow (sid : ℤ) (i : ℕ) (row : SignalRow) (o : ExitOutcome) : Option SignalEngine :=
  (applyCosts S (row.withOutcome o) (e.inst sid).entryCost).map fun row =>
    let e := { e with rows := e.rows.set i row }
    match S.cfg.r8Enabled, (e.inst sid).r8Trade, row.costR with
    | true, some t, some cost => e.r8Record S i row t o.realizedR cost
    | _, _, _ => e

def dropPosition (sid : ℤ) : SignalEngine :=
  { e.update sid fun x => { x with
      gate := x.gate.map fun g => { g with hasOpenPosition := false }
      pos := none, posRow := none, entryCost := none, r8Trade := none } with
    openOrder := e.openOrder.erase sid }

def closePosition (e : SignalEngine) (sid : ℤ) (o : ExitOutcome) : Option SignalEngine :=
  match (e.inst sid).posRow.bind fun i => (e.rows[i]?).map fun row => (i, row) with
  | none => some (e.dropPosition sid)
  | some (i, row) => (e.settleRow S sid i row o).map fun e => e.dropPosition sid

end Close

section Bar

def stepPosition (ofiEnabled : Bool) (e : SignalEngine) (sid : ℤ) (bar : BarRow) :
    Option SignalEngine :=
  match (e.inst sid).pos with
  | none => some e
  | some pos =>
    if pos.closed then some e
    else
      let flow := momentumFlowFlags S.cfg.exits pos.p.side bar.cvdSlope bar.ofi ofiEnabled
      (pos.step { tsNs := bar.bar.endTsNs, high := bar.bar.high, low := bar.bar.low,
                  close := bar.bar.close, flow }).bind fun r =>
        let e := e.update sid fun x => { x with pos := some r.1 }
        match r.2 with
        | none => some e
        | some o => e.closePosition S sid o

def trueRange (prev : Option ℚ) (high low : ℚ) : ℚ :=
  match prev with
  | none => high - low
  | some prev => max (high - low) (max |high - prev| |low - prev|)

variable (e : SignalEngine) (sid : ℤ)

def pushWindows (bar : BarRow) : SignalEngine :=
  e.update sid fun x => { x with
    ma := pushMax S.cfg.regime.trendMaBars x.ma bar.bar.close
    atrTr := pushMax S.cfg.exits.atrBars x.atrTr
      (trueRange x.atrPrevClose bar.bar.high bar.bar.low)
    atrPrevClose := some bar.bar.close }

def atr (x : Instrument) : Option ℚ :=
  if x.atrTr = [] then none else some (x.atrTr.sum / x.atrTr.length)

def maSlope (x : Instrument) : Option ℚ :=
  if x.ma.length < 2 then none
  else some ((x.ma.getLastD 0 - x.ma.headD 0) / ((x.ma.length - 1 : ℕ) : ℚ))

/-- `_build_context` and the regime, as far as the engine itself reads them. -/
def buildContext (bar : BarRow) : Context :=
  { tsNs := bar.bar.endTsNs, price := bar.bar.close, velocitySpike := bar.velocity.spike,
    atr := atr (e.inst sid), direction := regimeDirection S.cfg.regime (maSlope (e.inst sid)),
    volBand := volBand S.cfg.regime e.vix }

def gateState : GateState :=
  (e.inst sid).gate.getD
    { sessionStartNs := e.firstTs.getD 0, isExpiryDay := S.expiresToday sid }

end Bar

section Evaluate

variable (sid : ℤ) (ctx : Context) (rd : Reading) (side : Dir)

def adjThreshold : ℚ :=
  applyAsymmetric (S.cfg.fireThreshold side) side ctx.direction S.cfg.asymmetricGate

variable (e : SignalEngine)

def gateReject : Option Reason :=
  applyGates S.cfg.gates S.events (e.gateState S sid) ctx.tsNs ctx.velocitySpike

def candidateFires : Bool :=
  adjThreshold S ctx side < 999999 ∧ adjThreshold S ctx side ≤ rd.score side ∧
    gateReject S sid ctx e = none

def exitPlan : ExitPlan := buildExitPlan S.cfg.exits rd.levels ctx.price ctx.atr side

inductive R8Decision where
  | veto (reason : Reason)
  | reject (reason : Reason) (lots : ℤ) (riskInr : ℚ)
  | sized (trade : R8Trade) (riskInr : ℚ)

def r8Decide (e : SignalEngine) : R8Decision :=
  match preTradeGate e.risk S.cfg.risk with
  | some reason => .veto reason
  | none =>
    let plan := exitPlan S ctx rd side
    let ci := rd.costs side
    match ci.lot with
    | none => .veto .unsizedNoInputs
    | some lot =>
      if lot = 0 ∨ ci.delta ≤ 0 ∨ plan.rValue ≤ 0 then .veto .unsizedNoInputs
      else
        let sr := sizePosition e.risk.equityInr plan.rValue ci.delta lot S.cfg.sizing
          (d1SizeFactor e.risk S.cfg.risk)
        let riskInr := roundTo 2 (sr.riskPerLotInr * sr.lots)
        match sr.rejected with
        | some reason => .reject reason sr.lots riskInr
        | none => .sized { lots := sr.lots, stopPts := plan.rValue, delta := ci.delta, lot } riskInr

def candidateRow : SignalRow :=
  { tsNs := ctx.tsNs, instrument := sid, side, price := ctx.price, score := rd.score side,
    threshold := adjThreshold S ctx side, baseThreshold := S.cfg.fireThreshold side,
    fired := candidateFires S sid ctx rd side e, gateReason := gateReject S sid ctx e,
    regimeDirection := ctx.direction, regimeVolBand := ctx.volBand }

def fire (row : SignalRow) : SignalEngine :=
  let plan := exitPlan S ctx rd side
  { e.update sid fun x => { x with
      pos := some (SimPosition.new plan ctx.tsNs)
      posRow := some e.rows.length
      entryCost := some (rd.costs side)
      gate := x.gate.map fun g => { g with
        tradesToday := g.tradesToday + 1, hasOpenPosition := true,
        lastSignalTsNs := some ctx.tsNs } } with
    openOrder := if sid ∈ e.openOrder then e.openOrder else e.openOrder ++ [sid]
    rows := e.rows ++ [{ row with
      entry := some plan.entry, stop := some plan.stop, target := some plan.target1r,
      rValue := some plan.rValue }] }

def log (row : SignalRow) : SignalEngine := { e with rows := e.rows ++ [row] }

def evaluateSide : SignalEngine :=
  let row := candidateRow S sid ctx rd side e
  if ¬ row.fired then e.log row
  else if ¬ S.cfg.r8Enabled then e.fire S sid ctx rd side row
  else match r8Decide S ctx rd side e with
    | .veto reason => e.log { row with fired := false, gateReason := some reason }
    | .reject reason lots riskInr =>
      e.log { row with
        fired := false, gateReason := some reason, lots := some lots, riskInr := some riskInr }
    | .sized t riskInr =>
      let e := e.fire S sid ctx rd side { row with lots := some t.lots, riskInr := some riskInr }
      { e.update sid fun x => { x with r8Trade := some t } with risk := onOpen e.risk }

end Evaluate

variable (e : SignalEngine) (tape : TapeEngine) (sid : ℤ)

/-- `_evaluate`: the gate state is made where missing, the sides taken in turn. -/
def evaluate (bar : BarRow) (rd : Reading) : SignalEngine :=
  let ctx := e.buildContext S sid bar
  let e := e.update sid fun x => { x with gate := some (e.gateState S sid) }
  S.sides.foldl (fun e side => e.evaluateSide S sid ctx rd side) e

def onNewBar (ofiEnabled : Bool) (e : SignalEngine) (sid : ℤ) (bar : BarRow) (rd : Reading) :
    Option SignalEngine :=
  (e.stepPosition S ofiEnabled sid bar).map fun e =>
    (e.pushWindows S sid bar).evaluate S sid bar rd

def lastTickBar : Option BarRow :=
  tape.barRows.reverse.find? fun r => r.securityId = sid ∧ r.bar.barType = .tick

def pendingBar : Option BarRow :=
  (tape.lookup sid).bind fun st =>
    if st.bars = (e.inst sid).lastBars then none else lastTickBar tape sid

def look (ofiEnabled : Bool) (e : SignalEngine) (tape : TapeEngine) (sid : ℤ) (rd : Reading) :
    Option SignalEngine :=
  let seen := match tape.lookup sid with
    | none => e
    | some st => e.update sid fun x => { x with lastBars := st.bars }
  match e.pendingBar tape sid with
  | none => some seen
  | some bar => seen.onNewBar S ofiEnabled sid bar rd

/-- `on_packet`, before the instruments: the first timestamp and the VIX. -/
def note (row : TickPacket) : SignalEngine :=
  { e with
    firstTs := some (e.firstTs.getD row.tsRecvNs)
    vix := if row.securityId = S.vixSid ∧ row.ltp.isSome then row.ltp else e.vix }

/-- `finalize`: what is open is closed at the last bar's close. -/
def finalize : Option SignalEngine :=
  e.openOrder.foldlM (fun e sid =>
    match (e.inst sid).pos with
    | none => some e
    | some pos =>
      if pos.closed then some e
      else
        let px := ((lastTickBar tape sid).map fun r => r.bar.close).getD pos.p.entry
        (pos.forceClose pos.entryTs px).bind fun r => e.closePosition S sid r.2) e

end SignalEngine

structure System where
  tape : TapeEngine := {}
  engine : SignalEngine

/-- An input to the tape, and a look at one tradeable instrument. -/
inductive Move where
  | feed (i : Tape.Input)
  | look (sid : ℤ) (rd : Reading)

namespace System

variable (tcfg : TapeConfig) (symOf : ℤ → String)

def new : System := { engine := SignalEngine.new S }

def feed (s : System) (i : Tape.Input) : System :=
  { tape := s.tape.step tcfg symOf i
    engine := match i with
      | .packet row => if row.isTick then s.engine.note S row else s.engine
      | _ => s.engine }

def next (s : System) : Move → Option System
  | .feed i => some (s.feed S tcfg symOf i)
  | .look sid rd =>
    (s.engine.look S tcfg.depthOfiEnabled s.tape sid rd).map fun engine => { s with engine }

end System

structure Turn where
  input : Tape.Input
  readings : ℤ → Reading

/-- Only a tick makes the engine look at the instruments. -/
def Turn.moves (turn : Turn) : List Move :=
  .feed turn.input :: match turn.input with
    | .packet row =>
      if row.isTick then S.tradeable.map fun sid => .look sid (turn.readings sid) else []
    | _ => []

end TradingBridge.Orderflow.Signals
