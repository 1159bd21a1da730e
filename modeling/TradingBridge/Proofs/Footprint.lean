import TradingBridge.System

/-!
# What each piece of code can ask

For each function, the requests it can make, whatever the answers. `Reads` are the requests that
change nothing but the count of questions. `Books` adds the writes of position and execution rows
and the reconciliation flag, `Mirrors` the subscribers' claims, `Shields` the held exit,
`SquaresOff` the kill switch's own orders and `Trips` its flag.
-/

namespace TradingBridge

open Effectful Prog

/-- Requests that only look, at anything but a kill-switch flag. -/
def Reads : Request → Prop
  | .db f => ∀ d, (f d).2 = d
  | .redisGet k => ∀ user, k ≠ .kill user
  | .clock => True
  | .ask _ => True
  | _ => False

/-- All of the database but the positions, the executions and the next row id. -/
def SameBooks (d d' : Db) : Prop :=
  d' = { d with positions := d'.positions, executions := d'.executions, nextId := d'.nextId }
    ∧ d.nextId ≤ d'.nextId

/-- Requests that look, write position and execution rows, or flag a fill. -/
def Books : Request → Prop
  | .db f => ∀ d, SameBooks d (f d).2
  | .redisGet k => ∀ user, k ≠ .kill user
  | .redisSetEx (.ambiguousFill _) _ _ => True
  | .clock => True
  | .ask _ => True
  | _ => False

def Mirrors : Request → Prop
  | .redisSetNX k _ _ => ∃ sub token, k = subscriberIdempotencyKey sub token
  | r => Books r

/-- Looks, and writes of a strategy's held exit. -/
def Shields (strategy : StrategyId) : Request → Prop
  | .redisSetEx k v ttl =>
    k = .heldExit strategy ∧ ttl = holdTtlSeconds ∧ ∃ record, v = .held record
  | .redisDel k => k = .heldExit strategy
  | r => Reads r

def SquaresOff (user : UserId) : Request → Prop
  | .placeOrder c => ∃ position, c.origin = .killSwitch user position
  | r => Books r

/-- The square-off, the flag and the day's count of a user. -/
def Trips (user : UserId) : Request → Prop
  | .redisSet k v => k = .kill user ∧ v = .status .tripped
  | .redisIncr k _ => k = .trades user
  | r => SquaresOff user r

variable (d : Db)

theorem SameBooks.refl : SameBooks d d := ⟨rfl, le_rfl⟩

theorem SameBooks.trans {d₁ d₂ d₃ : Db} (h : SameBooks d₁ d₂) (h' : SameBooks d₂ d₃) :
    SameBooks d₁ d₃ := by
  refine ⟨?_, h.2.trans h'.2⟩
  rw [h'.1, h.1]

theorem sameBooks_savePosition (p : StrategyPosition) :
    SameBooks d (d.savePosition p) := ⟨rfl, le_rfl⟩

theorem sameBooks_addPosition (p : StrategyPosition) :
    SameBooks d (d.addPosition p) := ⟨rfl, Nat.le_succ _⟩

theorem sameBooks_addExecutions (es : List StrategyExecution) :
    SameBooks d (d.addExecutions es) := ⟨rfl, le_rfl⟩

theorem sameBooks_savePositions : ∀ (ps : List StrategyPosition) (d : Db),
    SameBooks d (ps.foldl Db.savePosition d)
  | [], d => SameBooks.refl d
  | p :: ps, d => (sameBooks_savePosition d p).trans (sameBooks_savePositions ps _)

theorem Reads.books {r : Request} (h : Reads r) : Books r := by
  cases r with
  | db f => exact fun d => by rw [h d]; exact SameBooks.refl d
  | redisGet | clock | ask => exact h
  | _ => exact h.elim

theorem Books.mirrors {r : Request} (h : Books r) : Mirrors r := by
  cases r with
  | redisSetNX => exact h.elim
  | _ => exact h

theorem Reads.shields {r : Request} {strategy : StrategyId} (h : Reads r) : Shields strategy r := by
  cases r with
  | redisSetEx | redisDel => exact h.elim
  | _ => exact h

theorem Shields.cases {r : Request} {strategy : StrategyId} (h : Shields strategy r) :
    Reads r ∨ (∃ record, r = .redisSetEx (.heldExit strategy) (.held record) holdTtlSeconds)
      ∨ r = .redisDel (.heldExit strategy) := by
  cases r with
  | redisSetEx k v ttl =>
    obtain ⟨rfl, rfl, record, rfl⟩ := h
    exact .inr (.inl ⟨record, rfl⟩)
  | redisDel k =>
    obtain rfl : k = _ := h
    exact .inr (.inr rfl)
  | _ => exact .inl h

theorem Books.squaresOff {r : Request} {user : UserId} (h : Books r) : SquaresOff user r := by
  cases r with
  | placeOrder => exact h.elim
  | _ => exact h

theorem SquaresOff.trips {r : Request} {user : UserId} (h : SquaresOff user r) : Trips user r := by
  cases r with
  | redisSet | redisIncr => exact h.elim
  | _ => exact h

section Reading

variable {α : Type}

variable {S : Request → Prop}

@[simp] theorem ofExcept_asksIn (x : Except AppError α) :
    (ofExcept x).AsksIn S := by
  cases x <;> trivial

@[simp] theorem readDb_reads (f : Db → α) : (readDb f).AsksIn Reads :=
  (asksIn_perform _).2 fun _ => rfl

@[simp] theorem now_reads : now.AsksIn Reads := (asksIn_perform _).2 trivial

@[simp] theorem ask_reads (q : Query) :
    (perform (Request.ask q) : Code (Answer q)).AsksIn Reads := (asksIn_perform _).2 trivial

@[simp] theorem require_asksIn (ok : Bool) (status : Nat)
    (detail : String) : (require ok status detail).AsksIn S := by
  unfold require
  split_ifs <;> trivial

theorem askExcept_reads (q : Query) (f : Answer q → Except AppError α) :
    (perform (Request.ask q) >>= fun a => ofExcept (f a) : Code α).AsksIn Reads :=
  asksIn_bind (ask_reads q) fun _ => ofExcept_asksIn _

@[simp] theorem buildBroker_reads (cred : BrokerCredential) : (buildBroker cred).AsksIn Reads :=
  asksIn_bind (ask_reads _) fun _ => asksIn_bind (ofExcept_asksIn _) fun _ => asksIn_pure _

@[simp] theorem ensureSession_reads (b : CredentialId) : (ensureSession b).AsksIn Reads := by
  refine asksIn_bind (ask_reads _) fun _ => asksIn_bind (ofExcept_asksIn _) fun valid => ?_
  cases valid with
  | false => exact askExcept_reads (.login b) id
  | true => trivial

variable (b : CredentialId) (symbol : String) (cfg : Settings) (user : UserId)

@[simp] theorem validateSymbol_reads :
    (validateSymbol b symbol).AsksIn Reads := askExcept_reads (.validateSymbol b symbol) id

@[simp] theorem getFunds_reads : (getFunds b).AsksIn Reads :=
  askExcept_reads (.getFunds b) id

@[simp] theorem getLotSize_reads :
    (getLotSize b symbol).AsksIn Reads := askExcept_reads (.getLotSize b symbol) id

@[simp] theorem confirmFill_reads (order : BrokerOrderId) (qty : Int) :
    (confirmFill order qty).AsksIn Reads := askExcept_reads (.confirmFill order qty) id

@[simp] theorem loadCredential_reads (c : CredentialId) (u : UserId) :
    (loadCredential c u).AsksIn Reads :=
  asksIn_bind (readDb_reads _) fun _ => ofExcept_asksIn _

@[simp] theorem resolveLotSize_reads (broker : Option CredentialId) (symbol : String)
    (signal : StrategySignal) (paper : Bool) :
    (resolveLotSize broker symbol signal paper).AsksIn Reads := by
  unfold resolveLotSize
  split
  · trivial
  · trivial
  · split_ifs
    · trivial
    · exact asksIn_bind (getLotSize_reads _ _) fun _ => asksIn_pure _

@[simp] theorem preTradeChecks_reads (o : LiveOrder) : (preTradeChecks cfg o).AsksIn Reads := by
  refine asksIn_bind (ensureSession_reads _) fun _ => asksIn_bind (validateSymbol_reads _ _)
    fun _ => asksIn_bind (getFunds_reads _) fun available => ?_
  split_ifs <;> trivial

@[simp] theorem closeChecks_reads : (closeChecks b symbol).AsksIn Reads :=
  asksIn_bind (ensureSession_reads b) fun _ => validateSymbol_reads b symbol

@[simp] theorem entryBroker_reads (paper : Bool) (cred : BrokerCredential) :
    (entryBroker paper cred).AsksIn Reads := by
  unfold entryBroker
  split_ifs
  · trivial
  · exact asksIn_map _ (buildBroker_reads cred)

@[simp] theorem prepareEntry_reads (signal : StrategySignal)
    (strategy : Strategy) (lots : Option Int) :
    (prepareEntry cfg signal strategy lots).AsksIn Reads := by
  unfold prepareEntry
  dsimp only
  split
  · trivial
  · exact asksIn_bind (ofExcept_asksIn _) fun side => asksIn_bind (loadCredential_reads _ _)
      fun cred => asksIn_bind (entryBroker_reads _ _) fun broker =>
      asksIn_bind (resolveLotSize_reads _ _ _ _) fun lotSize =>
      asksIn_bind (ofExcept_asksIn _) fun quantity =>
      asksIn_bind (ofExcept_asksIn _) fun _ => asksIn_pure _

@[simp] theorem closeBroker_reads (signal : StrategySignal)
    (strategy : Strategy) (p : StrategyPosition) :
    (closeBroker cfg signal strategy p).AsksIn Reads :=
  asksIn_bind (loadCredential_reads _ _) fun cred => entryBroker_reads _ cred

@[simp] theorem realLotSize_reads : (realLotSize symbol).AsksIn Reads :=
  asksIn_bind (ask_reads _) fun _ => asksIn_pure _

@[simp] theorem resolveSubscriberSize_reads (strategy : Strategy)
    (sub : MarketplaceSubscription) (symbol : String) :
    (resolveSubscriberSize strategy sub symbol).AsksIn Reads := by
  unfold resolveSubscriberSize
  split
  · trivial
  · split
    · trivial
    · exact asksIn_bind (realLotSize_reads _) fun _ => asksIn_pure _
    · exact asksIn_bind (realLotSize_reads _) fun _ => asksIn_pure _

@[simp] theorem getDailyTrades_reads : (getDailyTrades user).AsksIn Reads :=
  asksIn_bind ((asksIn_perform _).2 nofun) fun _ => asksIn_pure _

@[simp] theorem checkMaxDailyTrades_reads : (checkMaxDailyTrades user).AsksIn Reads := by
  refine asksIn_bind (readDb_reads _) fun config => ?_
  split
  · trivial
  · exact asksIn_bind (getDailyTrades_reads _) fun _ => asksIn_pure _

@[simp] theorem tripReason_reads (config : Option KillSwitchConfig) (pnl : ℚ)
    (force : Option TripReason) : (tripReason user config pnl force).AsksIn Reads := by
  unfold tripReason
  split
  · trivial
  · split
    · trivial
    · exact asksIn_bind (getDailyTrades_reads _) fun _ => asksIn_pure _

@[simp] theorem killSwitchBroker_reads (row : BrokerCredential) :
    (killSwitchBroker row).AsksIn Reads :=
  asksIn_tryCatch (asksIn_bind (buildBroker_reads _) fun _ =>
    asksIn_bind (ensureSession_reads _) fun _ => asksIn_pure _) fun _ => asksIn_pure _

end Reading

theorem writeDb_books {f : Db → Db} (h : ∀ d, SameBooks d (f d)) : (writeDb f).AsksIn Books :=
  (asksIn_perform _).2 h

theorem books_of_reads {α : Type} {c : Code α} (h : c.AsksIn Reads) : c.AsksIn Books :=
  asksIn_mono (fun _ => Reads.books) h

theorem flagAmbiguousFill_books (order : BrokerOrderId) (symbol : String) :
    (flagAmbiguousFill order symbol).AsksIn Books := (asksIn_perform _).2 trivial

@[simp] theorem confirmEntryFill_books (o : LiveOrder) (response : OrderResponse) :
    (confirmEntryFill o response).AsksIn Books := by
  unfold confirmEntryFill
  split
  · trivial
  · refine asksIn_bind (books_of_reads (confirmFill_reads _ _)) fun fill => ?_
    split
    · split
      · exact asksIn_bind (flagAmbiguousFill_books _ _) fun _ => asksIn_throw _
      · trivial
    · trivial

@[simp] theorem bookEntry_books (signal : StrategySignal) (strategy : Strategy)
    (plan : EntryPlan) (report : BrokerReport) :
    (bookEntry signal strategy plan report).AsksIn Books := by
  refine asksIn_bind (books_of_reads now_reads) fun ts => asksIn_bind
    (writeDb_books fun d => sameBooks_addExecutions d _) fun _ =>
    asksIn_bind (books_of_reads (readDb_reads _)) fun existing => ?_
  split
  · exact asksIn_bind (writeDb_books fun d => sameBooks_savePosition d _) fun _ => asksIn_pure _
  · exact asksIn_bind (ofExcept_asksIn _) fun levels => asksIn_bind
      ((asksIn_perform _).2 fun d => sameBooks_addPosition d _) fun _ => asksIn_pure _

theorem mirrors_of_reads {α : Type} {c : Code α} (h : c.AsksIn Reads) : c.AsksIn Mirrors :=
  asksIn_mono (fun _ hr => hr.books.mirrors) h

section Webhook

variable (cfg : Settings) (strategy : StrategyId) {S : Request → Prop}

@[simp] theorem validateEntry_reads (sig : StrategySignal) :
    (validateEntry cfg sig).AsksIn Reads := by
  unfold validateEntry
  split
  on_goal 1 => refine asksIn_bind (ask_reads _) fun _ => ?_
  all_goals
    refine asksIn_bind (by simp) fun shield => ?_
    cases shield with
    | clear =>
      refine asksIn_bind (ask_reads _) fun _ => asksIn_bind (ofExcept_asksIn _) fun d => ?_
      cases d <;> trivial
    | cooldown | tripped => trivial

@[simp] theorem authenticate_reads (request : SignalRequest) :
    (authenticate cfg request).AsksIn Reads := by
  refine asksIn_bind (ask_reads _) fun halted => asksIn_bind (require_asksIn _ _ _) fun _ =>
    asksIn_bind (readDb_reads _) fun token => ?_
  split
  · trivial
  · refine asksIn_bind (ask_reads _) fun allowed => asksIn_bind (require_asksIn _ _ _) fun _ => ?_
    split
    · trivial
    · trivial
    · exact asksIn_bind (require_asksIn _ _ _) fun _ => asksIn_pure _

theorem killSwitchGate_asksIn {user : UserId}
    (h : S (.redisGet (.kill user))) : (killSwitchGate user).AsksIn S := by
  refine asksIn_bind (asksIn_bind ((asksIn_perform _).2 h) fun raw => ?_) fun _ =>
    require_asksIn _ _ _
  split <;> trivial

@[simp] theorem signalGates_reads (t : WebhookToken) : (signalGates cfg t).AsksIn Reads := by
  refine asksIn_bind (readDb_reads _) fun _ => asksIn_bind (require_asksIn _ _ _) fun _ =>
    asksIn_bind (checkMaxDailyTrades_reads _) fun _ => asksIn_bind (require_asksIn _ _ _)
    fun _ => asksIn_bind (readDb_reads _) fun found => ?_
  split
  · trivial
  · exact asksIn_bind now_reads fun _ => asksIn_bind (require_asksIn _ _ _) fun _ =>
      asksIn_pure _

@[simp] theorem normalizeSignalSymbol_reads (strategy : Strategy) (payload : Body) :
    (normalizeSignalSymbol strategy payload).AsksIn Reads := by
  unfold normalizeSignalSymbol
  dsimp only
  split
  · refine asksIn_bind (readDb_reads _) fun held => ?_
    split <;> trivial
  · split
    · trivial
    · exact asksIn_bind (ask_reads _) fun _ => asksIn_bind (ofExcept_asksIn _) fun _ =>
        asksIn_pure _

@[simp] theorem preparePayload_reads (strategy : Strategy) (body : Body) :
    (preparePayload strategy body).AsksIn Reads := by
  have hrest : ∀ mapped : Body, (do
      let payload ← normalizeSignalSymbol strategy mapped
      let valid ← ofExcept (validatePayload payload)
      require (valid.quantity.all (· ≤ quantityCeilingContracts)) 400 "quantity_exceeds_ceiling"
      pure (payload, valid) : Code (Body × ValidPayload)).AsksIn Reads := fun mapped =>
    asksIn_bind (normalizeSignalSymbol_reads _ _) fun _ => asksIn_bind (ofExcept_asksIn _)
      fun _ => asksIn_bind (require_asksIn _ _ _) fun _ => asksIn_pure _
  refine asksIn_bind now_reads fun ts => ?_
  split
  · exact asksIn_bind (ask_reads _) fun _ => asksIn_bind (ofExcept_asksIn _) hrest
  · exact hrest body

theorem shields_of_reads {strategy : StrategyId} {α : Type} {c : Code α} (h : c.AsksIn Reads) :
    c.AsksIn (Shields strategy) := asksIn_mono (fun _ => Reads.shields) h

theorem heldExit_reads :
    (perform (Request.redisGet (.heldExit strategy)) : Code (Option RedisValue)).AsksIn Reads :=
  (asksIn_perform _).2 nofun

@[simp] theorem evaluateBreadth_reads : evaluateBreadth.AsksIn Reads :=
  asksIn_bind (asksIn_mapEach fun k _ => ask_reads (.indexOhlc k)) fun _ => asksIn_pure _

variable {signal : StrategySignal}

theorem holdPass_asksIn {strategy : StrategyId} (hreads : ∀ r, Reads r → S r)
    (hhold : ∀ record, record.signalId = signal.id →
      S (.redisSetEx (.heldExit strategy) (.held record) holdTtlSeconds)) :
    (holdPass cfg strategy signal).AsksIn S := by
  have hmaybe : (maybeHoldExit strategy signal).AsksIn S := by
    unfold maybeHoldExit
    dsimp only
    split
    · trivial
    refine asksIn_bind (asksIn_mono hreads (readDb_reads _)) fun found => ?_
    split
    · trivial
    split
    · trivial
    refine asksIn_bind (asksIn_mono hreads evaluateBreadth_reads) fun breadth => ?_
    split
    · exact asksIn_bind (asksIn_mono hreads now_reads) fun heldAt => asksIn_bind
        ((asksIn_perform _).2 (hhold _ rfl)) fun _ => asksIn_pure _
    · trivial
  unfold holdPass
  split
  · refine asksIn_bind (asksIn_bind (asksIn_mono hreads (heldExit_reads strategy)) fun _ =>
      asksIn_pure _) fun active => ?_
    split
    · trivial
    · refine asksIn_bind hmaybe fun held => ?_
      split <;> trivial
  · trivial

theorem tryRelease_shields (price : Option ℚ) :
    (tryRelease strategy price).AsksIn (Shields strategy) := by
  refine asksIn_bind (shields_of_reads (heldExit_reads strategy)) fun raw => ?_
  split
  · refine asksIn_bind (shields_of_reads now_reads) fun t => ?_
    split
    · exact asksIn_bind ((asksIn_perform _).2 rfl) fun _ => asksIn_pure _
    · trivial
  · trivial

@[simp] theorem releasePass_shields
    (payload : Payload) : (releasePass cfg strategy payload).AsksIn (Shields strategy) := by
  unfold releasePass
  split
  · exact tryRelease_shields strategy _
  · trivial

@[simp] theorem holdPass_shields
    (signal : StrategySignal) : (holdPass cfg strategy signal).AsksIn (Shields strategy) :=
  holdPass_asksIn cfg (fun _ hr => hr.shields) fun record _ => ⟨rfl, rfl, record, rfl⟩

theorem dispatchStored_asksIn {strategy : Strategy} {kind : SignalKind}
    (hshield : ∀ r, Shields strategy.id r → S r)
    (hback : ∀ h : ExitHold, S (.setSignalStatus signal.id h.status))
    (hown : S (.dispatch ⟨signal.id, kind⟩)) (hheld : ∀ held, S (.dispatch ⟨held, .exit⟩)) :
    (dispatchStored cfg strategy signal kind).AsksIn S := by
  have hqueue : (do dispatch ⟨signal.id, kind⟩; pure true : Code Bool).AsksIn S :=
    asksIn_bind ((asksIn_perform _).2 hown) fun _ => asksIn_pure _
  refine asksIn_bind (asksIn_mono hshield (releasePass_shields _ _ _)) fun released =>
    asksIn_bind ?_ fun _ => ?_
  · cases released with
    | some held => exact (asksIn_perform _).2 (hheld held)
    | none => trivial
  · cases kind with
    | exit =>
      refine asksIn_bind (asksIn_mono hshield (holdPass_shields _ _ _)) fun hold => ?_
      cases hold with
      | some h => exact asksIn_bind ((asksIn_perform _).2 (hback h)) fun _ => asksIn_pure _
      | none => exact hqueue
    | entry | partly | slHit => exact hqueue

end Webhook

end TradingBridge
