import TradingBridge.Lib.Fallible
import TradingBridge.Proofs.Footprint

/-!
# What the pieces return

The facts about the returned values that more than one property rests on: the plan of an entry,
the paper fill, the broker of a close. Each comes with the requests of the piece, so that a
monitor takes both from one lemma.
-/

namespace TradingBridge

open Effectful Prog List

variable {S : Request → Prop} {A : (r : Request) → Response r → Prop}

theorem closePositionInPaper_eq_ok {ts : Nat} {p q : StrategyPosition} :
    closePositionInPaper ts p = .ok q ↔ ∃ side, oppositeSide p.side = .ok side
      ∧ killSwitchClose p side .paperKillSwitch true ts = q := Fallible.map_eq_ok

structure EntryPlan.Settled (cfg : Settings) (strategy : Strategy) (plan : EntryPlan) : Prop where
  mode : plan.paperMode = resolvePaperMode cfg (some strategy)
  broker : plan.broker = if plan.paperMode then none else some plan.cred.id
  quantity_pos : 0 < plan.quantity

theorem buildBroker_yields (cred : BrokerCredential) :
    (buildBroker cred).Yields Reads A (· = cred.id) :=
  yields_bind (ask_reads _).yields fun _ _ =>
    yields_bind (ofExcept_asksIn _).yields fun _ _ => yields_pure rfl

theorem entryBroker_yields (paper : Bool) (cred : BrokerCredential) :
    (entryBroker paper cred).Yields Reads A (· = if paper then none else some cred.id) := by
  unfold entryBroker
  split_ifs
  · exact yields_pure (by simp)
  · refine yields_bind (buildBroker_yields cred) fun b hb => yields_pure ?_
    simp [hb]

theorem closeBroker_yields (cfg : Settings) (signal : StrategySignal) (strategy : Strategy)
    (p : StrategyPosition) : (closeBroker cfg signal strategy p).Yields Reads A
      (fun b => b.isNone = resolvePaperMode cfg (some strategy)) := by
  refine yields_bind (loadCredential_reads _ _).yields fun cred _ =>
    (entryBroker_yields _ cred).mono (fun _ h => h) fun b hb => ?_
  cases hm : resolvePaperMode cfg (some strategy) <;> simp_all

section Rows

variable {d : Db} {p : StrategyPosition} {strategyId : StrategyId} {symbol : String}

structure StrategyPosition.OpenFor (strategyId : StrategyId) (symbol side : String)
    (p : StrategyPosition) : Prop where
  strategy : p.strategyId = strategyId
  symbol : p.symbol = symbol
  side : p.side = side
  isOpen : p.isOpen = true
  owner : p.subscriptionId = none

/-- The side of the position a close of `side` looks for. -/
def heldSide (side : String) : String :=
  if side.toLower = "long" ∨ side.toLower = "buy" then "buy" else "sell"

theorem getOpenPosition_spec {side : String}
    (h : getOpenPosition strategyId symbol side d = some p) :
    p ∈ d.positions ∧ p.OpenFor strategyId symbol.toUpper (heldSide side) := by
  obtain ⟨hmem, hp⟩ := mem_filter.1 (argmax_mem h)
  obtain ⟨h₁, h₂, h₃, h₄, h₅⟩ := of_decide_eq_true hp
  exact ⟨hmem, h₁, h₂, h₃, h₄, h₅⟩

variable {side : OrderSide}

theorem findExistingOpenPosition_spec
    (h : findExistingOpenPosition strategyId symbol side none d = some p) :
    p ∈ d.positions ∧ p.OpenFor strategyId symbol.toUpper side.value := by
  obtain ⟨hmem, hp⟩ := mem_filter.1 (argmax_mem h)
  obtain ⟨h₁, h₂, h₃, h₄, h₅⟩ := of_decide_eq_true hp
  exact ⟨hmem, h₁, h₂, h₃, h₄, h₅⟩

theorem findExistingOpenPosition_none
    (h : findExistingOpenPosition strategyId symbol side none d = none) :
    ∀ p ∈ d.positions, ¬ p.OpenFor strategyId symbol.toUpper side.value := by
  intro p hp hopen
  have hnil := argmax_eq_none.1 h
  have hmem : p ∈ d.positions.filter fun p => p.strategyId = strategyId
      ∧ p.symbol = symbol.toUpper ∧ p.side = side.value ∧ p.isOpen ∧ p.subscriptionId = none :=
    mem_filter.2 ⟨hp, decide_eq_true
      ⟨hopen.strategy, hopen.symbol, hopen.side, hopen.isOpen, hopen.owner⟩⟩
  rw [hnil] at hmem
  cases hmem

theorem findOpenOf_spec {sub : SubscriptionId} (h : findOpenOf strategyId sub d = some p) :
    p ∈ d.positions ∧ p.subscriptionId = some sub ∧ p.isOpen = true := by
  obtain ⟨hmem, hp⟩ := mem_filter.1 (argmax_mem h)
  rw [decide_eq_true_eq] at hp
  exact ⟨hmem, hp.2.1, hp.2.2⟩

theorem mirrorClose_scope {qty : Int} {price : ℚ} {ts : Nat} :
    (mirrorClose p qty price ts).id = p.id
    ∧ (mirrorClose p qty price ts).subscriptionId = p.subscriptionId
    ∧ (mirrorClose p qty price ts).side = p.side := by
  unfold mirrorClose
  dsimp only
  split_ifs <;> exact ⟨rfl, rfl, rfl⟩

theorem ids_savePosition (d : Db) (p : StrategyPosition) :
    (d.savePosition p).positions.map (·.id) = d.positions.map (·.id) := by
  rw [Db.savePosition, map_map]
  refine map_congr_left fun q _ => ?_
  simp only [Function.comp_apply]
  split_ifs with hid
  · exact hid.symm
  · rfl

theorem mem_savePosition_iff {d : Db} {p' q : StrategyPosition} : q ∈ (d.savePosition p').positions
      ↔ (q = p' ∧ ∃ r ∈ d.positions, r.id = p'.id) ∨ (q ∈ d.positions ∧ q.id ≠ p'.id) := by
  unfold Db.savePosition
  simp only [mem_map]
  constructor
  · rintro ⟨r, hr, hq⟩
    split_ifs at hq with hid
    · exact .inl ⟨hq.symm, r, hr, hid⟩
    · exact .inr ⟨hq ▸ hr, hq ▸ hid⟩
  · rintro (⟨rfl, r, hr, hid⟩ | ⟨hq, hid⟩)
    · exact ⟨r, hr, if_pos hid⟩
    · exact ⟨q, hq, if_neg hid⟩

theorem mem_savePosition {d : Db} {p q : StrategyPosition} (hq : q ∈ d.positions)
    (hne : q.id ≠ p.id) : q ∈ (d.savePosition p).positions :=
  mem_map.2 ⟨q, hq, if_neg hne⟩

end Rows

section Exec

variable {α β : Type}

variable {c : Code α} {O : OrderCall → Prop} {w w' : World} {n : Nat} {f : α → Code β}

theorem exec_bind_ok {a : α} (h : c.exec w = (.ok a, w')) : (c >>= f).exec w = (f a).exec w' := by
  unfold Code.exec at h ⊢
  rw [run_bind, h]

theorem exec_bind_error {e : AppError}
    (h : c.exec w = (.error e, w')) : (c >>= f).exec w = (.error e, w') := by
  unfold Code.exec at h ⊢
  rw [run_bind, h]

theorem exec_perform (r : Request) (k : Response r → Code β) (w : World) :
    (Prog.perform r >>= k : Code β).exec w = (k (handle w r).1).exec (handle w r).2 := rfl

@[simp] theorem exec_readDb (f : Db → α) (k : α → Code β) (w : World) :
    (readDb f >>= k).exec w = (k (f w.db)).exec w := rfl

@[simp] theorem exec_writeDb (f : Db → Db) (k : Unit → Code β) (w : World) :
    (writeDb f >>= k).exec w = (k ()).exec { w with db := f w.db } := rfl

@[simp] theorem exec_now (k : Nat → Code β) (w : World) :
    (now >>= k).exec w = (k w.clock).exec w := rfl

@[simp] theorem exec_ofExcept_ok (a : α) (k : α → Code β) (w : World) :
    (ofExcept (.ok a) >>= k).exec w = (k a).exec w := rfl

theorem exec_bind_pure (c : Code α) (f : α → β) (w : World) :
    ((c >>= fun a => pure (f a)).exec w).2 = (c.exec w).2 := by
  rcases hc : c.exec w with ⟨_ | a, w'⟩
  · rw [exec_bind_error hc]
  · rw [exec_bind_ok hc]
    rfl

theorem getKillSwitchStatus_exec (user : UserId) (w : World) : (getKillSwitchStatus user).exec w
      = (.ok (if w.redis.get w.clock (.kill user) = some (.status .tripped) then .tripped
          else .active), w) := by
  unfold getKillSwitchStatus
  rw [exec_perform]
  simp only [handle]
  rcases w.redis.get w.clock (.kill user) with _ | v
  · rfl
  · cases v with
    | status st => cases st <;> rfl
    | _ => rfl

theorem exec_total (h : c.Total) (w : World) : ∃ a, c.exec w = (.ok a, (c.exec w).2) := by
  obtain ⟨a, ha⟩ := h.run w
  exact ⟨a, Prod.ext ha rfl⟩

theorem exec_bind_eq_ok {w : World} {b : β} (h : ((c >>= f).exec w).1 = .ok b) :
    ∃ a w', c.exec w = (.ok a, w') ∧ ((f a).exec w').1 = .ok b := by
  rcases hc : c.exec w with ⟨_ | a, w'⟩
  · rw [exec_bind_error hc] at h
    cases h
  · rw [exec_bind_ok hc] at h
    exact ⟨a, w', rfl, h⟩

/-- Requests that only look, at a kill-switch flag too. -/
def Looks : Request → Prop
  | .db f => ∀ d, (f d).2 = d
  | .redisGet _ | .clock | .ask _ => True
  | _ => False

theorem Reads.looks {r : Request} (h : Reads r) : Looks r := by
  cases r with
  | db | clock | ask => exact h
  | redisGet => trivial
  | _ => exact h.elim

/-- Code that only looks changes nothing but the count of questions. -/
theorem exec_looks (h : c.AsksIn Looks) (w : World) :
    (c.exec w).2 = { w with asked := (c.exec w).2.asked } := by
  have hframe : ({ (c.run handle w).2 with asked := 0 } : World) = { w with asked := 0 } :=
    run_frame (f := fun w : World => { w with asked := 0 }) (fun w r hr => by
      cases r with
      | db f => simp [handle, hr w.db]
      | redisGet | clock | ask => rfl
      | _ => exact hr.elim) h
  exact congrArg (fun v : World => { v with asked := (c.exec w).2.asked }) hframe

theorem exec_reads (h : c.AsksIn Reads) (w : World) :
    (c.exec w).2 = { w with asked := (c.exec w).2.asked } :=
  exec_looks (asksIn_mono (fun _ => Reads.looks) h) w

theorem exec_books_orders (h : c.AsksIn Books) (w : World) : (c.exec w).2.orders = w.orders :=
  run_frame (fun w r hr => by
    cases r with
    | db | redisGet | redisSetEx | clock | ask => rfl
    | _ => exact hr.elim) h

def sentBy (c : Code α) (w : World) : List OrderCall := (c.exec w).2.orders.drop w.orders.length

def OrdersIn (O : OrderCall → Prop) : Request → Prop
  | .placeOrder o => O o
  | _ => True

theorem handle_orders (w : World) (r : Request) :
    (∃ o, r = .placeOrder o ∧ (handle w r).2.orders = w.orders ++ [o])
      ∨ (handle w r).2.orders = w.orders := by
  cases r with
  | placeOrder o => exact .inl ⟨o, rfl, rfl⟩
  | _ => exact .inr rfl

/-- Code whose order requests are in `O` adds orders in `O` and takes none away. -/
theorem exec_orders (h : c.AsksIn (OrdersIn O)) (w : World) :
    ∃ sent, (c.exec w).2.orders = w.orders ++ sent ∧ ∀ o ∈ sent, O o := by
  refine run_keeps (I := fun w' : World => ∃ sent, w'.orders = w.orders ++ sent ∧ ∀ o ∈ sent, O o)
    (fun w' r hr hw' => ?_) h ⟨[], by simp⟩
  obtain ⟨sent, hsent, hO⟩ := hw'
  rcases handle_orders w' r with ⟨o, rfl, ho⟩ | ho
  · refine ⟨sent ++ [o], by rw [ho, hsent, append_assoc], fun o' ho' => ?_⟩
    rcases mem_append.1 ho' with ho' | ho'
    · exact hO o' ho'
    · exact mem_singleton.1 ho' ▸ hr
  · exact ⟨sent, by rw [ho, hsent], hO⟩

def Sent (n : Nat) (O : OrderCall → Prop) (w : World) : Prop := ∃ o ∈ w.orders.drop n, O o

theorem sent_handle (w : World) (r : Request) (h : Sent n O w) : Sent n O (handle w r).2 := by
  obtain ⟨o, ho, hO⟩ := h
  rcases handle_orders w r with ⟨o', -, ho'⟩ | ho'
  · exact ⟨o, by simp [ho', drop_append, ho], hO⟩
  · exact ⟨o, by rwa [ho'], hO⟩

theorem sent_exec (c : Code α) {w : World} (h : Sent n O w) : Sent n O (c.exec w).2 :=
  run_keeps (fun w r _ => sent_handle w r) (asksIn_all (fun _ => trivial) c) h

theorem sent_bind (f : α → Code β) {w : World}
    (h : Sent n O (c.exec w).2) : Sent n O ((c >>= f).exec w).2 := by
  rcases hc : c.exec w with ⟨_ | a, w'⟩
  · rw [exec_bind_error hc]
    rwa [hc] at h
  · rw [exec_bind_ok hc]
    rw [hc] at h
    exact sent_exec (f a) h

theorem sent_tryCatch (f : AppError → Code α)
    {w : World} (h : Sent n O (c.exec w).2) : Sent n O ((tryCatch c f).exec w).2 := by
  unfold Code.exec at h ⊢
  rw [run_tryCatch]
  rcases hc : c.run handle w with ⟨e | a, w'⟩
  · rw [hc] at h
    exact sent_exec (f e) h
  · rwa [hc] at h

theorem sent_placeOrder {o : OrderCall} (ho : O o) {w : World}
    (hn : n ≤ w.orders.length) : Sent n O ((placeOrder o).exec w).2 := by
  refine sent_exec (ofExcept (w.env.place w.asked o))
    (w := { w with asked := w.asked + 1, orders := w.orders ++ [o] }) ⟨o, ?_, ho⟩
  simp [drop_append, Nat.sub_eq_zero_of_le hn]

theorem length_handle (w : World) (r : Request) (h : n ≤ w.orders.length) :
    n ≤ (handle w r).2.orders.length := by
  rcases handle_orders w r with ⟨o, -, ho⟩ | ho <;> rw [ho]
  · rw [length_append]
    omega
  · exact h

theorem sentBy_of_asksIn (h : c.AsksIn (OrdersIn O)) (w : World) : ∀ o ∈ sentBy c w, O o := by
  obtain ⟨sent, hsent, hO⟩ := exec_orders h w
  intro o ho
  rw [sentBy, hsent, drop_left] at ho
  exact hO o ho

theorem sentBy_congr {c' : Code β} (hw : w.orders = w'.orders)
    (h : (c.exec w).2.orders = (c'.exec w').2.orders) : sentBy c w = sentBy c' w' := by
  rw [sentBy, sentBy, h, hw]

end Exec

def Request.writes : Request → Option RedisKey
  | .redisSet k _ | .redisSetEx k _ _ | .redisSetNX k _ _ | .redisDel k | .redisIncr k _ => some k
  | _ => none

/-- A request leaves every key alone but the one it writes. -/
theorem handle_slot {w : World} {r : Request} {k : RedisKey} (h : r.writes ≠ some k) :
    (handle w r).2.redis.slot k = w.redis.slot k := by
  have hne : ∀ {j : RedisKey} {x : Option (RedisValue × Option Nat)}, some j ≠ some k →
      Function.update w.redis.slot j x k = w.redis.slot k := fun hj =>
    Function.update_of_ne (fun hk => hj (congrArg some hk.symm)) _ _
  cases r with
  | redisSet j v => exact hne h
  | redisSetEx j v ttl => exact hne h
  | redisDel j => exact hne h
  | redisIncr j ttl => exact hne h
  | redisSetNX j v ttl =>
    simp only [handle, Expiring.Store.setNX]
    split
    · exact hne h
    · rfl
  | _ => rfl

theorem handle_clock (w : World) : ∀ r : Request, (handle w r).2.clock = w.clock
  | .db _ | .setSignalStatus _ _ | .findDuplicateEntry _ _ _ _ | .redisGet _ | .redisSet _ _
  | .redisSetEx _ _ _ | .redisSetNX _ _ _ | .redisDel _ | .redisIncr _ _ | .clock | .ask _
  | .placeOrder _ | .dispatch _ | .mark _ => rfl

theorem handle_env (w : World) : ∀ r : Request, (handle w r).2.env = w.env
  | .db _ | .setSignalStatus _ _ | .findDuplicateEntry _ _ _ _ | .redisGet _ | .redisSet _ _
  | .redisSetEx _ _ _ | .redisSetNX _ _ _ | .redisDel _ | .redisIncr _ _ | .clock | .ask _
  | .placeOrder _ | .dispatch _ | .mark _ => rfl

theorem payloadClosePct_eq_ok {signal : StrategySignal} {pct : ℚ} :
    payloadClosePct signal = .ok pct ↔
      ((signal.rawPayload.closePct.filter (· ≠ 0)).orElse fun _ => signal.rawPayload.close_pct)
        = some pct ∧ 0 < pct ∧ pct ≤ 99 := by
  unfold payloadClosePct
  generalize (signal.rawPayload.closePct.filter (· ≠ 0)).orElse _ = read
  rcases read with _ | q
  · simp
  · simp only [Option.some.injEq]
    split_ifs with hbounds
    · rw [Except.ok.injEq]
      exact ⟨fun h => ⟨h, h ▸ hbounds⟩, fun h => h.1⟩
    · refine ⟨nofun, fun h => absurd h.2 ?_⟩
      rwa [← h.1]

/-- Every check passes, every order is acknowledged and filled as `fill` says. -/
def Environment.willing (fill : Int → OrderFill) : Environment where
  answer _
    | .buildBroker _ => .ok ()
    | .isSessionValid _ => .ok true
    | .login _ => .ok ()
    | .validateSymbol _ _ => .ok ()
    | .getFunds _ => .ok 1000000
    | .getLotSize _ _ => .ok none
    | .confirmFill _ qty => .ok (fill qty)
    | .getPositions _ => .ok []
    | .scripLotSize _ => none
    | .getQuote _ _ => .ok 100
    | .simulatePaperLtp _ => 100
    | .paperExecutor _ => .ok .executed
    | .validateSignal _ => .ok (.approved none)
    | .anomalyShield _ => .ok .clear
    | .dailyPnl _ => .ok 0
    | .safetyCheck _ _ => .ok true
    | .normalizeSymbol _ symbol => .ok symbol
    | .rateLimit _ => true
    | .circuitBreakerHalt _ => false
    | .platformHalted => false
    | .resolveSymbol symbol => .ok symbol
    | .indexOhlc _ => none
  place n _ := .ok ⟨.broker n, .complete, ""⟩

/-- A fill of a quantity at a price of 100. -/
def filled (qty : Int) : OrderFill := ⟨.complete, qty, some 100, false⟩

/-- Live trading with the fan-out on and the shields off. -/
def sampleSettings : Settings where
  strategyPaperMode := false
  preTradeMarginPerLotInr := 1000
  optionsExecutionEnabled := false
  cashExecutionEnabled := false
  marketplaceFanoutEnabled := true
  anomalyShieldEnabled := false
  marketShieldEnabled := false
  webhookRequireHmac := false
  liveTradingEnabled := true

def sampleStrategy : Strategy where
  id := 1
  userId := 10
  webhookTokenId := some 5
  brokerCredentialId := some 7
  allowedSymbols := ["NIFTY"]
  isActive := true
  entryLots := 4
  partialProfitLots := 0
  partialProfitTargetPct := none
  trailOffsetPct := none
  hardSlPct := none
  aiValidationEnabled := false
  directExit := true
  strategyJson := none
  isPaper := some false

def sampleSignal (id : SignalId) (action : String) : StrategySignal where
  id := id
  userId := 10
  strategyId := 1
  rawPayload := { Payload.empty with side := some "long", lotSizeHint := some 1 }
  symbol := "NIFTY"
  action := action
  quantity := some 4
  status := .received
  receivedAt := 0

/-- User 10 with one credential, one live strategy, its webhook token and no position. -/
def sampleDb : Db where
  users := [⟨10, true, true⟩]
  credentials := [⟨7, 10, .dhan, true, 0⟩]
  strategies := [sampleStrategy]
  subscriptions := []
  configs := []
  tokens := [⟨5, 10, true, false⟩]
  signals := [sampleSignal 100 "ENTRY", sampleSignal 101 "EXIT"]
  positions := []
  executions := []
  nextId := 200

/-- The sample database on a weekday morning, with nothing claimed, sent or queued yet. -/
def sampleWorld (env : Environment) : World where
  db := sampleDb
  redis := .empty
  clock := 20000
  queue := []
  orders := []
  claims := []
  marks := []
  asked := 0
  env := env

/-- An open position of four contracts of the sample strategy, bought at 100. -/
def samplePosition (id : PositionId) (subscription : Option SubscriptionId) (user : UserId) :
    StrategyPosition where
  id := id
  userId := user
  strategyId := 1
  brokerCredentialId := 7
  signalId := some 100
  subscriptionId := subscription
  symbol := "NIFTY"
  side := "buy"
  totalQuantity := 4
  remainingQuantity := 4
  avgEntryPrice := some 100
  targetPrice := none
  stopLossPrice := none
  trailOffset := none
  highestPriceSeen := none
  bestPrice := none
  currentAtr := none
  circuitBreakerTriggered := false
  exitReason := none
  status := .opened
  lastAction := none
  actionHistory := []
  openedAt := 0
  closedAt := none
  finalPnl := none

/-- A native body for four contracts, with no `signal_id`. -/
def sampleBody (action : String) : Body where
  type := none
  action := some action
  symbol := some "NIFTY"
  side := some "long"
  quantity := some 4
  qty := none
  quantityUnit := none
  closePct := none
  close_pct := none
  price := none
  atr := none
  longMA := none
  slowMA := none
  lotSizeHint := some 1
  productType := none
  timestamp := none
  signalId := none

def sampleRequest (token : Nat) (action : String) : SignalRequest :=
  ⟨token, action, some (some (sampleBody action)), true⟩

/-- A worker is delivered a message and goes `n` requests far. -/
def deliver (m : Message) (n : Nat) : List (Move Task EnvMove) :=
  .spawn (.worker m) :: List.replicate n (.step 0)

end TradingBridge
