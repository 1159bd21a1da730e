import TradingBridge.MarketShield
import TradingBridge.OrderService

/-!
# The strategy webhook

`receive_strategy_signal`. The idempotency slot is claimed before the gates and is not given back.
-/

namespace TradingBridge

open Effectful.Prog (perform)

/-- `signalId` is the text of a `signal_id` that counts as present. -/
structure Body where
  type : Option String
  action : Option String
  symbol : Option String
  side : Option String
  quantity : Option Int
  qty : Option Int
  quantityUnit : Option String
  closePct : Option ℚ
  close_pct : Option ℚ
  price : Option PriceField
  atr : Option PriceField
  longMA : Option ℚ
  slowMA : Option ℚ
  lotSizeHint : Option Int
  productType : Option String
  timestamp : Option String
  signalId : Option String
  deriving DecidableEq

/-- `json` is absent where the body is not JSON, and empty where it is no object. `signed` is a
valid signature or a trusted sender. -/
structure SignalRequest where
  token : Nat
  rawBody : String
  json : Option (Option Body)
  signed : Bool
  deriving DecidableEq

def computeStrategySignalHash (sha256 : String → String) (userId : UserId) (payload : Body)
    (rawBody : String) : String :=
  match payload.signalId with
  | some sid => s!"{userText userId}:{sid}"
  | none => s!"{userText userId}:{sha256 rawBody}"

def isPinePayload (payload : Body) : Bool :=
  payload.type.any fun t =>
    "LONG_".toList.isPrefixOf t.toUpper.toList || "SHORT_".toList.isPrefixOf t.toUpper.toList

def pineToNative : String × String → Option (String × String)
  | ("ENTRY", "LONG_ENTRY") => some ("ENTRY", "long")
  | ("ENTRY", "SHORT_ENTRY") => some ("ENTRY", "short")
  | ("PARTIAL", "LONG_PARTIAL") => some ("PARTIAL", "long")
  | ("PARTIAL", "SHORT_PARTIAL") => some ("PARTIAL", "short")
  | ("EXIT", "LONG_EXIT") => some ("EXIT", "long")
  | ("EXIT", "SHORT_EXIT") => some ("EXIT", "short")
  | ("EXIT", "LONG_SL") => some ("SL_HIT", "long")
  | ("EXIT", "SHORT_SL") => some ("SL_HIT", "short")
  | _ => none

def nonBlank (s : Option String) : Option String := (s.map strip).filter (· ≠ "")

def resolveSymbol (payload : Body) (strategy : Strategy) : String :=
  ((nonBlank payload.symbol).orElse fun _ => nonBlank strategy.allowedSymbols.head?).getD ""

def resolvePrice (payload : Body) : Option PriceField :=
  match payload.price with
  | some (.number q) => some (.number q)
  | _ => (payload.longMA.orElse fun _ => payload.slowMA).map .number

/-- Translate a Pine alert into the native shape; `ts` stands in for a missing fire time. -/
def mapToTradetriPayload (payload : Body) (strategy : Strategy) (lotSize : Option Int)
    (ts : Nat) : Except AppError Body :=
  let action := (strip (payload.action.getD "")).toUpper
  let type := (strip (payload.type.getD "")).toUpper
  match pineToNative (action, type) with
  | none => .error (.http 400 s!"Pine payload mapping failed: {action}/{type}")
  | some (nativeAction, side) => .ok
    { type := none, action := some nativeAction, symbol := some (resolveSymbol payload strategy),
      side := some side, quantity := if nativeAction = "ENTRY" then payload.qty else none,
      qty := none, quantityUnit := some "lots",
      closePct := payload.closePct.orElse fun _ => payload.close_pct, close_pct := none,
      price := resolvePrice payload, atr := payload.atr, longMA := none, slowMA := none,
      lotSizeHint := lotSize.orElse fun _ => payload.lotSizeHint, productType := none,
      timestamp := some ((nonBlank payload.timestamp).getD s!"{ts}"), signalId := none }

inductive StrategyAction
  | entry
  | partly
  | exit
  | slHit
  | buy
  | sell
  deriving DecidableEq

def StrategyAction.ofText : String → Option StrategyAction
  | "ENTRY" => some .entry
  | "PARTIAL" => some .partly
  | "EXIT" => some .exit
  | "SL_HIT" => some .slHit
  | "BUY" => some .buy
  | "SELL" => some .sell
  | _ => none

def StrategyAction.isEntry : StrategyAction → Bool
  | .entry | .buy | .sell => true
  | _ => false

def StrategyAction.canonical : StrategyAction → String × SignalKind
  | .entry | .buy | .sell => ("ENTRY", .entry)
  | .partly => ("PARTIAL", .partly)
  | .exit => ("EXIT", .exit)
  | .slHit => ("SL_HIT", .slHit)

structure ValidPayload where
  action : StrategyAction
  symbol : String
  quantity : Option Int

def fieldsAllowed (p : Body) : Bool :=
  p.quantity.all (fun q => 0 < q ∧ q ≤ 100000)
    && p.quantityUnit.all (fun u => u = "contracts" ∨ u = "lots")
    && (p.closePct.orElse fun _ => p.close_pct).all (fun c => 0 < c ∧ c ≤ 99)
    && p.side.all (fun s => s = "long" ∨ s = "short")
    && p.price.all (fun | .number q => 0 ≤ q | .text => false)
    && p.lotSizeHint.all (0 < ·)
    && p.productType.all (·.length ≤ 16)
    && p.signalId.all (·.length ≤ 128)

def requiredFields (p : Body) : StrategyAction → Bool
  | .entry => p.quantity.isSome && p.side.isSome
  | .buy | .sell => p.quantity.isSome
  | .partly => (p.closePct.orElse fun _ => p.close_pct).isSome && p.side.isSome
  | .exit | .slHit => p.side.isSome

def validatePayload (p : Body) : Except AppError ValidPayload :=
  match p.action.bind StrategyAction.ofText, nonBlank p.symbol with
  | some action, some symbol =>
    if symbol.length ≤ 64 && fieldsAllowed p && requiredFields p action then
      .ok ⟨action, symbol.toUpper, if action.isEntry then p.quantity else none⟩
    else .error (.http 400 "invalid_payload")
  | _, _ => .error (.http 400 "invalid_payload")

def authenticate (cfg : Settings) (request : SignalRequest) : Code (WebhookToken × Body) := do
  let halted ← perform (Request.ask .platformHalted)
  require (!halted) 503 "Platform halted - signal rejected."
  let token ← readDb fun d => d.tokens.find? fun t => t.id = request.token ∧ t.isActive
  match token with
  | none => throw (.http 404 "Unknown webhook token.")
  | some t =>
    let allowed ← perform (Request.ask (.rateLimit t.userId))
    require allowed 429 "Webhook rate limit exceeded."
    match request.json with
    | none => throw (.http 400 "Invalid JSON body")
    | some none => throw (.http 400 "Body must be a JSON object.")
    | some (some body) =>
      require (!cfg.webhookRequireHmac || request.signed) 401 "Invalid HMAC signature."
      return (t, body)

/-- 09:15 to 15:25 in India, by the clock in seconds since the epoch. -/
def marketOpen (t : Nat) : Bool :=
  let ofDay := (t + 19800) % 86400
  9 * 3600 + 15 * 60 ≤ ofDay && ofDay ≤ 15 * 3600 + 25 * 60

def resolveStrategy (userId : UserId) (tokenId : Nat) (d : Db) : Option Strategy :=
  d.strategies.find? fun s => s.userId = userId ∧ s.webhookTokenId = some tokenId ∧ s.isActive

def killSwitchGate (user : UserId) : Code Unit := do
  let killStatus ← getKillSwitchStatus user
  require (killStatus ≠ .tripped) 403 "Kill switch is TRIPPED - trading paused."

def signalGates (cfg : Settings) (t : WebhookToken) : Code Strategy := do
  let user ← readDb fun d => d.users.find? (·.id = t.userId)
  require (user.any (·.isActive)) 403 "User account is inactive."
  require (← checkMaxDailyTrades t.userId) 403 "Max daily trades reached."
  let found ← readDb (resolveStrategy t.userId t.id)
  match found with
  | none => throw (.http 400 "No active strategy is bound to this webhook token.")
  | some strategy =>
    let clock ← now
    require (resolvePaperMode cfg (some strategy) || marketOpen clock) 403
      "Outside market hours (09:15-15:25 IST)."
    return strategy

def findOpenPositionByStrategy (strategyId : StrategyId) (side : Option String) (d : Db) :
    Option StrategyPosition :=
  let wanted := match side.map fun s => (strip s).toLower with
    | some "long" | some "buy" => some "buy"
    | some "short" | some "sell" => some "sell"
    | _ => none
  Db.newest StrategyPosition.openedAt (d.positions.filter fun p =>
    p.strategyId = strategyId ∧ p.isOpen ∧ p.subscriptionId = none
      ∧ wanted.all (p.side = ·))

/-- An exit is pinned to the position held; an entry's symbol is resolved to the month's
contract. -/
def normalizeSignalSymbol (strategy : Strategy) (payload : Body) : Code Body := do
  let action := (strip (payload.action.getD "")).toUpper
  if action = "PARTIAL" ∨ action = "EXIT" ∨ action = "SL_HIT" then
    let held ← readDb (findOpenPositionByStrategy strategy.id payload.side)
    match held with
    | some p => return { payload with symbol := some p.symbol }
    | none => return payload
  else
    match payload.symbol with
    | none => return payload
    | some symbol =>
      let resolved ← ofExcept
        (← perform (Request.ask (.resolveSymbol symbol)))
      return { payload with symbol := some resolved }

def preparePayload (strategy : Strategy) (body : Body) : Code (Body × ValidPayload) := do
  let ts ← now
  let mapped ← if isPinePayload body then do
      let lotSize ← perform
        (Request.ask (.scripLotSize (resolveSymbol body strategy).toUpper))
      ofExcept (mapToTradetriPayload body strategy lotSize ts)
    else pure body
  let payload ← normalizeSignalSymbol strategy mapped
  let valid ← ofExcept (validatePayload payload)
  require (valid.quantity.all (· ≤ quantityCeilingContracts)) 400 "quantity_exceeds_ceiling"
  return (payload, valid)

/-- A legacy BUY or SELL writes its side into the payload. -/
def signalRow (t : WebhookToken) (strategy : Strategy) (payload : Body) (valid : ValidPayload)
    (ts : Nat) (id : SignalId) : StrategySignal :=
  { id, userId := t.userId, strategyId := strategy.id,
    rawPayload :=
      { side := match valid.action with
          | .buy => some "long"
          | .sell => some "short"
          | _ => payload.side
        closePct := payload.closePct, close_pct := payload.close_pct, price := payload.price,
        atr := payload.atr,
        lotSizeHint := payload.lotSizeHint, productType := payload.productType,
        quantityUnit := payload.quantityUnit, timestamp := payload.timestamp },
    symbol := valid.symbol, action := valid.action.canonical.1, quantity := valid.quantity,
    status := .received, receivedAt := ts }

def persistSignal (row : SignalId → StrategySignal) : Code StrategySignal :=
  perform (Request.db fun d => (row d.nextId,
    { d with signals := d.signals ++ [row d.nextId], nextId := d.nextId + 1 }))

def releasePass (cfg : Settings) (strategyId : StrategyId) (payload : Payload) :
    Code (Option SignalId) :=
  if cfg.marketShieldEnabled then tryRelease strategyId (releasePrice payload.price)
  else pure none

inductive ExitHold
  | priorHold
  | held
  deriving DecidableEq

def ExitHold.status : ExitHold → SignalStatus
  | .priorHold => .ignored
  | .held => .held

def holdPass (cfg : Settings) (strategyId : StrategyId) (signal : StrategySignal) :
    Code (Option ExitHold) :=
  if cfg.marketShieldEnabled then do
    if ← hasActiveHold strategyId then return some .priorHold
    else if ← maybeHoldExit strategyId signal then return some .held
    else return none
  else pure none

def releaseHeld : Option SignalId → Code Unit
  | some held => dispatch ⟨held, .exit⟩
  | none => pure ()

def queueSignal (cfg : Settings) (strategyId : StrategyId) (signal : StrategySignal) :
    SignalKind → Code Bool
  | .exit => do
    match ← holdPass cfg strategyId signal with
    | some h =>
      setSignalStatus signal.id h.status
      return false
    | none =>
      dispatch ⟨signal.id, .exit⟩
      return true
  | kind => do
    dispatch ⟨signal.id, kind⟩
    return true

def dispatchStored (cfg : Settings) (strategy : Strategy) (signal : StrategySignal)
    (kind : SignalKind) : Code Bool := do
  let released ← releasePass cfg strategy.id signal.rawPayload
  releaseHeld released
  queueSignal cfg strategy.id signal kind

/-- Mirror a stored signal to the subscribers; no failure of it reaches the answer. -/
def fanOutSignal (cfg : Settings) (signal : StrategySignal) (strategy : Strategy)
    (hash : String) : Code Unit :=
  if cfg.marketplaceFanoutEnabled then
    tryCatch (do
      let subscribers ← readDb (resolveActiveSubscriptions strategy.id)
      let _ ← dispatchSubscriberExecutions signal strategy subscribers hash) fun _ => pure ()
  else pure ()

inductive SignalAnswer
  | duplicate
  | accepted (signal : SignalId) (queued : Bool)
  deriving DecidableEq

def processSignal (cfg : Settings) (t : WebhookToken) (body : Body) (hash : String) :
    Code SignalAnswer := do
  killSwitchGate t.userId
  let strategy ← signalGates cfg t
  let (payload, valid) ← preparePayload strategy body
  let ts ← now
  let signal ← persistSignal (signalRow t strategy payload valid ts)
  let queued ← dispatchStored cfg strategy signal valid.action.canonical.2
  fanOutSignal cfg signal strategy hash
  mark (.accepted hash signal.id)
  return .accepted signal.id queued

def receiveStrategySignal (cfg : Settings) (sha256 : String → String)
    (request : SignalRequest) : Code SignalAnswer := do
  let (t, body) ← authenticate cfg request
  let hash := computeStrategySignalHash sha256 t.userId body request.rawBody
  let claimed ← setIdempotencyKey hash
  if claimed then processSignal cfg t body hash
  else
    mark (.duplicate hash)
    return .duplicate

end TradingBridge
