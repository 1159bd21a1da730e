import TradingBridge.MarketplaceFanout

/-!
# The options and the cash executor

An entry opens a row of its own every time. An exit closes the newest open row: of the owner with
the symbol of an option leg for options, of the strategy for cash.
-/

namespace TradingBridge

inductive LegExecutionStatus
  | executed
  | skippedFlagOff
  | refusedNotPaper
  | refusedShares
  | refusedShort
  | refusedProduct
  | noOpenPosition
  | failed
  deriving DecidableEq

structure LegExecutionResult where
  status : LegExecutionStatus
  positionId : Option PositionId
  symbol : Option String
  quantity : Int

/-- An executor's run: its result and the database it commits; an exception commits nothing. -/
abbrev PaperRun := Db → Except AppError (LegExecutionResult × Db)

def refuse (status : LegExecutionStatus) : PaperRun := fun d => .ok (⟨status, none, none, 0⟩, d)

def gate (enabled : Bool) (strategy : Strategy) : Option LegExecutionStatus :=
  if !enabled then some .skippedFlagOff
  else if strategy.isPaper ≠ some true then some .refusedNotPaper
  else none

def paperEntry (signal : StrategySignal) (strategy : Strategy) (symbol side : String)
    (quantity : Int) (ts : Nat) : PaperRun := fun d =>
  match strategy.brokerCredentialId with
  | none => refuse .failed d
  | some credential => do
    let report ← simulateFill signal quantity
    let row : StrategyPosition :=
      { id := d.nextId, userId := signal.userId, strategyId := strategy.id,
        brokerCredentialId := credential, signalId := some signal.id, subscriptionId := none,
        symbol, side, totalQuantity := quantity, remainingQuantity := quantity,
        avgEntryPrice := report.avgPrice.map AvgPrice.value, targetPrice := none,
        stopLossPrice := none, trailOffset := none, highestPriceSeen := none, bestPrice := none,
        currentAtr := none, circuitBreakerTriggered := false, exitReason := none,
        status := .opened, lastAction := none, actionHistory := [], openedAt := ts,
        closedAt := none, finalPnl := none }
    return (⟨.executed, some d.nextId, some symbol, quantity⟩, d.addPosition row)

/-- `mapped` is the option leg and the quantity the mapper resolves, where it does. -/
def executeOptionsEntry (cfg : Settings) (mapped : Option (String × Int))
    (signal : StrategySignal) (strategy : Strategy) (ts : Nat) : PaperRun := fun d =>
  match gate cfg.optionsExecutionEnabled strategy with
  | some refused => refuse refused d
  | none =>
    match mapped with
    | none => refuse .failed d
    | some (symbol, quantity) => paperEntry signal strategy symbol "buy" quantity ts d

structure CashPayload where
  side : Option String
  signalDirection : Option String
  type : Option String
  pineType : Option String
  productType : Option String

def isShort (payload : CashPayload) : Bool :=
  payload.side.any (fun s => (strip s).toLower = "short")
    || [payload.signalDirection, payload.type, payload.pineType].any fun marker =>
      marker.any fun m => (strip m).toUpper.startsWith "SHORT_"

def productViolation (products : List (Option String)) : Bool :=
  products.any fun product => product.any fun p =>
    (strip p).toUpper ≠ "DELIVERY" ∧ (strip p).toUpper ≠ "CNC"

def resolveShares (strategy : Strategy) : Option Int :=
  let shares := (strategy.strategyJson.bind (·.entryShares)).getD 2
  if shares < 2 then none else if shares % 2 ≠ 0 then none else some shares

/-- Long and delivery only; `strategyProduct` is the strategy's own product type. -/
def executeCashEntry (cfg : Settings) (payload : CashPayload) (strategyProduct : Option String)
    (signal : StrategySignal) (strategy : Strategy) (ts : Nat) : PaperRun := fun d =>
  match gate cfg.cashExecutionEnabled strategy with
  | some refused => refuse refused d
  | none =>
    if isShort payload then refuse .refusedShort d
    else if productViolation [strategyProduct, payload.productType] then
      refuse .refusedProduct d
    else
      match resolveShares strategy with
      | none => refuse .refusedShares d
      | some shares => paperEntry signal strategy signal.symbol "long" shares ts d

def isOptionLeg (symbol : String) : Bool :=
  "-CE".toList.isSuffixOf symbol.toList || "-PE".toList.isSuffixOf symbol.toList

def findOpenOptionPosition (strategyId : StrategyId) (d : Db) : Option StrategyPosition :=
  Db.newest StrategyPosition.openedAt (d.positions.filter fun p =>
    p.strategyId = strategyId ∧ p.isOpen ∧ p.subscriptionId = none ∧ isOptionLeg p.symbol)

/-- Neither the subscription nor the symbol is looked at. -/
def findOpenCashPosition (strategyId : StrategyId) (d : Db) : Option StrategyPosition :=
  Db.newest StrategyPosition.openedAt (d.positions.filter fun p =>
    p.strategyId = strategyId ∧ p.isOpen)

def exitPrice (signal : StrategySignal) : Except AppError ℚ :=
  match signal.rawPayload.price with
  | none => .ok 0
  | some (.number q) => .ok q
  | some .text => .error (.unexpected "decimal.InvalidOperation")

def paperClose (p : StrategyPosition) (qty : Int) (price : ℚ) (ts : Nat) : StrategyPosition :=
  let remaining := p.remainingQuantity - qty
  let pnl := p.finalPnl.getD 0 + (price - p.avgEntryPrice.getD 0) * qty
  if remaining ≤ 0 then
    { p with
      remainingQuantity := remaining
      finalPnl := some pnl
      status := .closed
      closedAt := some ts }
  else { p with remainingQuantity := remaining, finalPnl := some pnl, status := .partly }

def paperExit (enabled : Bool) (find : StrategyId → Db → Option StrategyPosition)
    (signal : StrategySignal) (strategy : Strategy) (kind : ActionKind) (ts : Nat) :
    PaperRun := fun d =>
  match gate enabled strategy with
  | some refused => refuse refused d
  | none =>
    match find strategy.id d with
    | none => refuse .noOpenPosition d
    | some p => do
      let price ← exitPrice signal
      let qty := mirrorCloseQty signal kind p.remainingQuantity
      return (⟨.executed, some p.id, some p.symbol, qty⟩,
        d.savePosition (paperClose p qty price ts))

def executeOptionsExit (cfg : Settings) := paperExit cfg.optionsExecutionEnabled
  findOpenOptionPosition

def executeCashExit (cfg : Settings) := paperExit cfg.cashExecutionEnabled findOpenCashPosition

end TradingBridge
