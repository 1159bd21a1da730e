import TradingBridge.KillSwitch

/-!
# The worker

`_process_entry` and `_process_direct_exit`, the two branches of the Celery task. The user's kill
switch is not read here.
-/

namespace TradingBridge

open Effectful.Prog (perform)

def fireTimestamp (sig : StrategySignal) : Option String :=
  sig.rawPayload.timestamp.filter (· ≠ "")

def isDuplicateEntry (sig : StrategySignal) (strategy : Strategy) : Code Bool :=
  match fireTimestamp sig with
  | none => pure false
  | some ts => do
    let t ← now
    let prior ← perform (Request.findDuplicateEntry strategy.id sig.id ts t)
    return Option.isSome prior

def validateEntry (cfg : Settings) (sig : StrategySignal) : Code (Option (Option Int)) := do
  let shield ← if cfg.anomalyShieldEnabled then
      ofExcept (← perform (Request.ask (.anomalyShield sig.id)))
    else pure .clear
  match shield with
  | .cooldown | .tripped => return none
  | .clear =>
    let decision ← ofExcept (← perform (Request.ask (.validateSignal sig.id)))
    match decision with
    | .rejected => return none
    | .approved lots => return some lots

variable (cfg : Settings)

def postTradeHooks (user : UserId) : Code Unit :=
  tryCatch (do
    let _ ← incrementDailyTrades user
    let _ ← checkAndTrigger cfg user none) fun _ => pure ()

/-- A suppressed duplicate is left to the attempt that holds the slot. -/
def executeEntry (sig : StrategySignal) (strategy : Strategy)
    (recommendedLots : Option Int) : Code Unit :=
  tryCatch (do
    let _ ← placeStrategyOrders cfg sig strategy recommendedLots
    setSignalStatus sig.id .executed
    postTradeHooks cfg sig.userId) fun e =>
      match e with
      | .duplicateOrderSuppressed _ => pure ()
      | _ => setSignalStatus sig.id .failed

def PaperOutcome.entryStatus : PaperOutcome → SignalStatus
  | .executed => .executed
  | .failed => .failed
  | _ => .skipped

def PaperOutcome.exitStatus : PaperOutcome → SignalStatus
  | .executed => .executed
  | .noOpenPosition => .ignored
  | .failed => .failed
  | .refused => .skipped

def executeRouted (cfg : Settings) (sig : StrategySignal) (strategy : Strategy)
    (status : PaperOutcome → SignalStatus) (futures : Code Unit) : Code Unit :=
  match resolveInstrumentType strategy with
  | .futures => futures
  | .options => simulated cfg.optionsExecutionEnabled
  | .cash => simulated cfg.cashExecutionEnabled
where
  simulated (enabled : Bool) : Code Unit := do
    if enabled then
      let outcome ← ofExcept (← perform (Request.ask (.paperExecutor sig.id)))
      setSignalStatus sig.id (status outcome)
    else setSignalStatus sig.id .skipped

def enterSignal (cfg : Settings) (sig : StrategySignal) (strategy : Strategy) : Code Unit := do
  let decision ← validateEntry cfg sig
  match decision with
  | none => setSignalStatus sig.id .rejected
  | some lots =>
    setSignalStatus sig.id .executing
    executeRouted cfg sig strategy PaperOutcome.entryStatus (executeEntry cfg sig strategy lots)

def processEntry (cfg : Settings) (id : SignalId) : Code Unit := do
  let found ← readDb (·.signal id)
  match found with
  | none => pure ()
  | some sig =>
    let row ← readDb (·.strategy sig.strategyId)
    match row.filter (·.isActive) with
    | none => setSignalStatus id .failed
    | some strategy =>
      let duplicate ← isDuplicateEntry sig strategy
      if duplicate then setSignalStatus id .duplicate
      else
        setSignalStatus id .validating
        enterSignal cfg sig strategy

def directExit (cfg : Settings) (kind : SignalKind) (sig : StrategySignal)
    (strategy : Strategy) : Code DirectExitResult :=
  match kind with
  | .partly => executePartial cfg sig strategy
  | .exit => executeExit cfg exitLeg sig strategy
  | .slHit => executeExit cfg slLeg sig strategy
  | .entry => throw (.strategyExecutor "Unknown direct-exit action_kind")

def executeDirectExit (kind : SignalKind) (sig : StrategySignal)
    (strategy : Strategy) : Code Unit :=
  tryCatch (do
    let result ← directExit cfg kind sig strategy
    match result with
    | .ignored _ => setSignalStatus sig.id .ignored
    | .executed _ _ _ => setSignalStatus sig.id .executed) fun e =>
      match e with
      | .duplicateOrderSuppressed _ => pure ()
      | _ => setSignalStatus sig.id .failed

def processDirectExit (cfg : Settings) (id : SignalId) (kind : SignalKind) : Code Unit := do
  let found ← readDb (·.signal id)
  match found with
  | none => pure ()
  | some sig =>
    let row ← readDb (·.strategy sig.strategyId)
    match row.filter (·.isActive) with
    | none => setSignalStatus id .failed
    | some strategy =>
      setSignalStatus id .executing
      executeRouted cfg sig strategy PaperOutcome.exitStatus
        (executeDirectExit cfg kind sig strategy)

/-- The Celery task: an exception other than a programming error queues the task again. -/
def executeSignalAsync (m : Message) : Code Unit :=
  tryCatch (match m.kind with
    | .entry => processEntry cfg m.signal
    | kind => processDirectExit cfg m.signal kind) fun e =>
      match e with
      | .unexpected _ => pure ()
      | _ => dispatch m

end TradingBridge
