import TradingBridge.KillSwitch

/-!
# The legacy webhook and its order service

`receive_webhook` and `process_webhook_signal`. Only the global paper flag is read.
-/

namespace TradingBridge

open Effectful.Prog (perform)

inductive WebhookAction
  | buy
  | sell
  | exit
  deriving DecidableEq

structure WebhookPayload where
  action : WebhookAction
  symbol : String
  exchange : Exchange
  quantity : Int
  orderType : OrderType
  productType : ProductType
  price : Option ℚ
  strategyName : String
  signalId : Option String

/-- `payload` is absent where the body does not parse. -/
structure WebhookRequest where
  token : Nat
  signatureValid : Bool
  payload : Option WebhookPayload
  bodyDigest : String

def loadOwnCredential (credentialId : CredentialId) (userId : UserId) (d : Db) :
    Option BrokerCredential :=
  d.credentials.find? fun c => c.id = credentialId ∧ c.userId = userId ∧ c.isActive

def login (broker : CredentialId) : Code Unit := do
  ofExcept (← perform (Request.ask (.login broker)))

def squareOffSymbol (broker : CredentialId) (nativeSymbol : String) (exchange : Exchange)
    (origin : Origin) : Code OrderResponse := do
  let positions ← ofExcept (← perform (Request.ask (.getPositions broker)))
  match positions.find? fun p =>
      p.symbol = nativeSymbol ∧ p.exchange = exchange ∧ p.quantity ≠ 0 with
  | none => return ⟨.paper, .complete, "no open position to exit"⟩
  | some target =>
    let side := if 0 < target.quantity then .sell else .buy
    placeOrder ⟨broker, ⟨nativeSymbol, exchange, side, target.quantity.natAbs, .market,
      target.productType, none, ""⟩, origin⟩

def dispatchAction (broker : CredentialId) (payload : WebhookPayload) (nativeSymbol : String)
    (origin : Origin) : Code OrderResponse :=
  let order (side : OrderSide) : OrderCall :=
    ⟨broker, ⟨nativeSymbol, payload.exchange, side, payload.quantity, payload.orderType,
      payload.productType, payload.price, payload.strategyName⟩, origin⟩
  match payload.action with
  | .buy => placeOrder (order .buy)
  | .sell => placeOrder (order .sell)
  | .exit => squareOffSymbol broker nativeSymbol payload.exchange origin

/-- Credential, broker, session, order; one retry after a relogin where the session had expired. -/
def processWebhookSignal (userId : UserId) (credentialId : CredentialId)
    (payload : WebhookPayload) (strategyId : Option StrategyId) : Code OrderResponse := do
  let row ← readDb (loadOwnCredential credentialId userId)
  match row with
  | none => throw (.broker "Broker credential not found or inactive.")
  | some cred =>
    let broker ← buildBroker cred
    ensureSession broker
    let nativeSymbol ← ofExcept
      (← perform (Request.ask (.normalizeSymbol broker payload.symbol)))
    let origin := Origin.webhook strategyId userId
    tryCatch (dispatchAction broker payload nativeSymbol origin) fun e =>
      match e with
      | .brokerSessionExpired _ => do
        login broker
        dispatchAction broker payload nativeSymbol origin
      | e => throw e

def resolveBinding (userId : UserId) (tokenId : Nat) (d : Db) :
    Option (Option StrategyId × CredentialId) :=
  match d.strategies.find? fun s =>
      s.userId = userId ∧ s.webhookTokenId = some tokenId ∧ s.isActive with
  | some s =>
    match s.brokerCredentialId with
    | some c => some (some s.id, c)
    | none => onlyCredential d
  | none => onlyCredential d
where
  onlyCredential (d : Db) : Option (Option StrategyId × CredentialId) :=
    match d.credentials.filter fun c => c.userId = userId ∧ c.isActive with
    | [c] => some (none, c.id)
    | _ => none

def idempotencyTtlSeconds : Nat := 60

def setIdempotencyKey (hash : String) : Code Bool :=
  perform (Request.redisSetNX (.idem hash) .one idempotencyTtlSeconds)

def computeSignalHash (userId : UserId) (payload : WebhookPayload) (digest : String) : String :=
  match payload.signalId.filter (· ≠ "") with
  | some sid => s!"{userText userId}:{sid}"
  | none => s!"{userText userId}:{digest}"

def require (ok : Bool) (status : Nat) (detail : String) : Code Unit :=
  if ok then pure () else throw (.http status detail)

def webhookGates (userId : UserId) (payload : WebhookPayload) : Code Unit := do
  let killStatus ← getKillSwitchStatus userId
  require (killStatus ≠ .tripped) 403 "Kill switch is TRIPPED - trading paused."
  let user ← readDb fun d => d.users.find? (·.id = userId)
  require (user.any (·.isActive)) 403 "User account is inactive."
  require (← checkMaxDailyTrades userId) 403 "Max daily trades reached."
  let halt ← perform (Request.ask (.circuitBreakerHalt payload.symbol))
  require (!halt) 403 "Circuit breaker HALT."

def receiveWebhook (cfg : Settings) (request : WebhookRequest) : Code (Option OrderResponse) := do
  require (!cfg.strategyPaperMode) 503 "Legacy webhook disabled in paper mode."
  let token ← readDb fun d => d.tokens.find? fun t => t.id = request.token ∧ t.isActive
  match token, request.payload with
  | none, _ => throw (.http 404 "Unknown webhook token.")
  | some t, payload =>
    let allowed ← perform (Request.ask (.rateLimit t.userId))
    require allowed 429 "Webhook rate limit exceeded."
    require request.signatureValid 401 "Invalid HMAC signature."
    match payload with
    | none => throw (.http 400 "Invalid payload.")
    | some payload =>
      let claimed ← setIdempotencyKey (computeSignalHash t.userId payload request.bodyDigest)
      if !claimed then return none
      else
        webhookGates t.userId payload
        let binding ← readDb (resolveBinding t.userId t.id)
        match binding with
        | none => throw (.http 422 "No broker credential is bound to this webhook token.")
        | some (strategyId, credentialId) =>
          let response ← processWebhookSignal t.userId credentialId payload strategyId
          let _ ← incrementDailyTrades t.userId
          let _ ← checkAndTrigger cfg t.userId none
          return some response

end TradingBridge
