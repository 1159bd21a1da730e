import TradingBridge.DirectExit

/-!
# The kill switch

The positions of paper strategies are closed by a write, those of live strategies by an order on the
credential each position carries. A live close trusts the broker's acknowledgement.
-/

namespace TradingBridge

open Effectful.Prog (perform mapEach)

inductive TripReason
  | dailyLossBreached
  | maxTradesBreached
  | manual
  | circuitBreaker
  | autoSquareOff
  deriving DecidableEq

/-- Tripped only where the flag says so: an absent flag is active. -/
def getKillSwitchStatus (user : UserId) : Code KillSwitchStatus := do
  let raw ← perform (Request.redisGet (.kill user))
  match raw with
  | some (.status s) => return s
  | _ => return .active

variable (user : UserId)

def setKillSwitchStatus (s : KillSwitchStatus) : Code Unit :=
  perform (Request.redisSet (.kill user) (.status s))

def clearKillSwitch : Code Unit :=
  perform (Request.redisDel (.kill user))

def dailyTradesTtl : Nat := 86400

def incrementDailyTrades : Code Nat :=
  perform (Request.redisIncr (.trades user) dailyTradesTtl)

def getDailyTrades : Code Nat := do
  return countOf (← perform (Request.redisGet (.trades user)))

def checkMaxDailyTrades (user : UserId) : Code Bool := do
  let config ← readDb (·.config user)
  match config.filter (·.enabled) with
  | none => return true
  | some c => return (← getDailyTrades user) < c.maxDailyTrades

/-- The loss first, then the trades; a limit that is only reached does not trip. -/
def evaluateBreach (dailyPnl maxLoss : ℚ) (tradesToday maxTrades : Nat) : Option TripReason :=
  if 0 < maxLoss ∧ dailyPnl < -maxLoss then some .dailyLossBreached
  else if 0 < maxTrades ∧ maxTrades < tradesToday then some .maxTradesBreached
  else none

def killSwitchClose (p : StrategyPosition) (side : OrderSide) (order : BrokerOrderId)
    (paperMode : Bool) (ts : Nat) : StrategyPosition :=
  { p with
    remainingQuantity := 0
    status := .closed
    closedAt := some ts
    exitReason := some .killSwitch
    lastAction := some .killSwitch
    actionHistory := p.actionHistory ++
      [⟨.killSwitch, p.remainingQuantity, side.value, ts, none, some order, paperMode⟩] }

def closePositionInPaper (ts : Nat) (p : StrategyPosition) : Except AppError StrategyPosition :=
  (oppositeSide p.side).map fun side => killSwitchClose p side .paperKillSwitch true ts

/-- An opposing market order. Any answer counts as a close; only an exception leaves it open. -/
def closePositionViaBroker (broker : CredentialId) (p : StrategyPosition) : Code Unit := do
  let side ← ofExcept (oppositeSide p.side)
  let response ← placeOrder ⟨broker, ⟨p.symbol, .nfo, side, p.remainingQuantity, .market,
    .margin, none, "kill-switch"⟩, .killSwitch user p.id⟩
  let ts ← now
  writeDb (·.savePosition (killSwitchClose p side response.brokerOrderId false ts))

structure KillSwitchActionLog where
  brokerCredentialId : CredentialId
  positionsSquaredOff : Nat
  errors : List AppError

def squareOffPositions (d : Db) : List StrategyPosition :=
  d.positions.filter fun p => p.userId = user ∧ p.isOpen ∧ 0 < p.remainingQuantity

def strategyPaperMode (cfg : Settings) (d : Db) (p : StrategyPosition) : Bool :=
  resolvePaperMode cfg (d.strategy p.strategyId)

def credentialsOf (ps : List StrategyPosition) : List CredentialId :=
  (ps.map (·.brokerCredentialId)).eraseDups

def killSwitchBroker (row : BrokerCredential) : Code (Except AppError CredentialId) :=
  tryCatch (do
    let broker ← buildBroker row
    ensureSession broker
    return .ok broker) fun e => pure (.error e)

/-- The live positions of one credential; a failed close is logged. -/
def closeGroup (user : UserId) (cred : CredentialId) (row : Option BrokerCredential)
    (group : List StrategyPosition) : Code KillSwitchActionLog :=
  match row with
  | none => pure ⟨cred, 0, [.unexpected "broker_credential row missing"]⟩
  | some row => do
    let session ← killSwitchBroker row
    match session with
    | .error e => return ⟨cred, 0, [e]⟩
    | .ok broker =>
      let results ← mapEach (fun p =>
        tryCatch (do
          closePositionViaBroker user broker p
          return none) fun e => pure (some e)) group
      return ⟨cred, (results.filter Option.isNone).length, results.filterMap id⟩

/-- The paper positions are written first, all or none; the live ones go out by credential. -/
def executeEmergencySquareOff (cfg : Settings) (user : UserId) :
    Code (List KillSwitchActionLog) := do
  let positions ← readDb (squareOffPositions user)
  let modes ← readDb fun d => positions.map fun p => (p, strategyPaperMode cfg d p)
  let paper := (modes.filter (·.2)).map (·.1)
  let live := (modes.filter (!·.2)).map (·.1)
  let rows ← readDb fun d => (credentialsOf live).map fun c => (c, d.credential c)
  let ts ← now
  let closed ← ofExcept (paper.mapM (closePositionInPaper ts))
  writeDb fun d => closed.foldl Db.savePosition d
  let paperLogs := (credentialsOf paper).map fun c =>
    ⟨c, (paper.filter (·.brokerCredentialId = c)).length, []⟩
  let liveLogs ← mapEach (fun (c, row) =>
    closeGroup user c row (live.filter (·.brokerCredentialId = c))) rows
  return paperLogs ++ liveLogs

structure KillSwitchResult where
  reason : Option TripReason
  actions : List KillSwitchActionLog

def tripReason (user : UserId) (config : Option KillSwitchConfig) (pnl : ℚ) :
    Option TripReason → Code (Option TripReason)
  | some reason => pure (some reason)
  | none =>
    match config.filter (·.enabled) with
    | none => pure none
    | some c => do
      return evaluateBreach pnl c.maxDailyLossInr (← getDailyTrades user) c.maxDailyTrades

/-- Evaluate the limits and fire. The flag is set before any order goes out. -/
def checkAndTrigger (cfg : Settings) (user : UserId) (forceReason : Option TripReason) :
    Code KillSwitchResult := do
  let config ← readDb (·.config user)
  let pnl ← ofExcept (← perform (Request.ask (.dailyPnl user)))
  let reason ← tripReason user config pnl forceReason
  match reason with
  | none => return ⟨none, []⟩
  | some reason =>
    setKillSwitchStatus user .tripped
    if config.any (!·.autoSquareOff) then return ⟨some reason, []⟩
    else return ⟨some reason, ← executeEmergencySquareOff cfg user⟩

end TradingBridge
