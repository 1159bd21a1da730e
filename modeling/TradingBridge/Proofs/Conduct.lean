import TradingBridge.Proofs.Traversal

/-!
# What each task can do

All the requests of a task, listed once: which keys it writes, which orders it sends and for what,
which messages it queues, which points it marks. A worker's signal is the one its message names,
since the row it reads under an id has that id.
-/

namespace TradingBridge

open Effectful Prog

/-- The answers to database requests come from a database in `D`. -/
def FromDb (D : Db → Prop) : (r : Request) → Response r → Prop
  | .db f, a => ∃ d, D d ∧ a = (f d).1
  | _, _ => True

theorem fromDb_handle {D : Db → Prop} {w : World} (h : D w.db) :
    ∀ r : Request, FromDb D r (handle w r).1
  | .db _ => ⟨w.db, h, rfl⟩
  | .setSignalStatus _ _ | .findDuplicateEntry _ _ _ _ | .redisGet _ | .redisSet _ _
  | .redisSetEx _ _ _ | .redisSetNX _ _ _ | .redisDel _ | .redisIncr _ _ | .clock | .ask _
  | .placeOrder _ | .dispatch _ | .mark _ => trivial

/-- The tables no task writes stay as they are; signals are only added, under fresh ids. -/
structure Grows (d d' : Db) : Prop where
  users : d'.users = d.users
  credentials : d'.credentials = d.credentials
  strategies : d'.strategies = d.strategies
  subscriptions : d'.subscriptions = d.subscriptions
  configs : d'.configs = d.configs
  tokens : d'.tokens = d.tokens
  nextId : d.nextId ≤ d'.nextId
  signals : d'.signals = d.signals ∨ ∃ row : StrategySignal, row.id = d.nextId
    ∧ row.status = .received ∧ d'.signals = d.signals ++ [row] ∧ d.nextId < d'.nextId

def SignalRequest.HasKey (D : Db → Prop) (sha256 : String → String) (request : SignalRequest)
    (hash : String) : Prop :=
  ∃ body, request.json = some (some body) ∧ ∃ d, D d ∧ ∃ token ∈ d.tokens,
    token.id = request.token ∧ token.isActive = true
      ∧ hash = computeStrategySignalHash sha256 token.userId body request.rawBody

def Conduct (D : Db → Prop) (sha256 : String → String) (t : Task) : Request → Prop
  | .db f => ∀ d, Grows d (f d).2
  | .setSignalStatus id st =>
    st ≠ .received ∧ (st = .executed → ∃ kind, t = .worker ⟨id, kind⟩)
  | .findDuplicateEntry _ _ _ _ | .redisGet _ | .clock | .ask _ => True
  | .redisSet k v => ∃ user, k = .kill user ∧ v = .status .tripped
  | .redisSetEx k _ _ => (∃ symbol, k = .ambiguousFill symbol)
    ∨ ∃ request strategy, t = .webhook request ∧ k = .heldExit strategy
  | .redisSetNX k _ ttl =>
    (∃ sub token, k = subscriberIdempotencyKey sub token)
    ∨ (∃ id kind, k = .signalIdempotency id kind ∧ ttl = signalIdempotencyTtlSeconds)
    ∨ (∃ request hash, t = .webhook request ∧ request.HasKey D sha256 hash
      ∧ k = .idem hash ∧ ttl = idempotencyTtlSeconds)
  | .redisDel k => (∃ user, t = .reset user ∧ k = .kill user)
    ∨ ∃ request strategy, t = .webhook request ∧ k = .heldExit strategy
  | .redisIncr k _ => ∃ user, k = .trades user
  | .placeOrder c =>
    (∃ user position, c.origin = .killSwitch user position)
    ∨ (∃ id strategy user, t = .worker ⟨id, .entry⟩ ∧ c.origin = .entry id strategy user)
    ∨ (∃ id kind strategy position, kind ≠ .entry ∧ t = .worker ⟨id, kind⟩
      ∧ c.origin = .directExit id strategy position)
  | .dispatch m => t = .worker m ∨ ∃ request, t = .webhook request
  | .mark (.placeStrategyOrders id) => t = .worker ⟨id, .entry⟩
  | .mark (.duplicate hash) | .mark (.accepted hash _) =>
    ∃ request, t = .webhook request ∧ request.HasKey D sha256 hash
  | .mark (.liveOrderAttempt ..) => False

section Sets

variable {D : Db → Prop} {sha256 : String → String} {t : Task} {r : Request}

theorem Grows.of_sameBooks {d d' : Db} (h : SameBooks d d') : Grows d d' := by
  obtain ⟨h, hid⟩ := h
  rw [h]
  exact ⟨rfl, rfl, rfl, rfl, rfl, rfl, hid, .inl rfl⟩

theorem Books.conduct (h : Books r) : Conduct D sha256 t r := by
  cases r with
  | db f => exact fun d => .of_sameBooks (h d)
  | redisSetEx k v ttl =>
    cases k with
    | ambiguousFill symbol => exact .inl ⟨symbol, rfl⟩
    | _ => exact h.elim
  | redisGet | clock | ask => trivial
  | _ => exact h.elim

theorem Mirrors.conduct (h : Mirrors r) : Conduct D sha256 t r := by
  cases r with
  | redisSetNX k v ttl => exact .inl h
  | _ => exact Books.conduct h

theorem Reads.conduct (h : Reads r) : Conduct D sha256 t r := h.books.conduct

theorem Shields.conduct {request : SignalRequest} {strategy : StrategyId}
    (h : Shields strategy r) : Conduct D sha256 (.webhook request) r := by
  rcases h.cases with h | ⟨record, rfl⟩ | rfl
  · exact h.conduct
  · exact .inr ⟨request, strategy, rfl, rfl⟩
  · exact .inr ⟨request, strategy, rfl, rfl⟩

/-- Which requests write a key, and in which tasks. -/
theorem Conduct.writes (h : Conduct D sha256 t r) {k : RedisKey} (hw : r.writes = some k) :
    match k with
    | .kill user => r = .redisSet k (.status .tripped) ∨ t = .reset user ∧ r = .redisDel k
    | .heldExit _ => (∃ request, t = .webhook request)
      ∧ ((∃ v ttl, r = .redisSetEx k v ttl) ∨ r = .redisDel k)
    | .idem _ | .signalIdempotency _ _ => ∃ v ttl, r = .redisSetNX k v ttl
    | .trades _ | .ambiguousFill _ => True := by
  cases r with
  | redisSet key v =>
    obtain ⟨user, rfl, rfl⟩ := h
    cases hw
    exact .inl rfl
  | redisSetEx key v ttl =>
    obtain ⟨symbol, rfl⟩ | ⟨request, strategy, rfl, rfl⟩ := h <;> cases hw
    · trivial
    · exact ⟨⟨request, rfl⟩, .inl ⟨v, ttl, rfl⟩⟩
  | redisSetNX key v ttl =>
    obtain ⟨sub, token, rfl⟩ | ⟨id, kind, rfl, -⟩ | ⟨request, hash, -, -, rfl, -⟩ := h <;>
      cases hw <;> exact ⟨v, ttl, rfl⟩
  | redisDel key =>
    obtain ⟨user, rfl, rfl⟩ | ⟨request, strategy, rfl, rfl⟩ := h <;> cases hw
    · exact .inr ⟨rfl, rfl⟩
    · exact ⟨⟨request, rfl⟩, .inr rfl⟩
  | redisIncr key ttl =>
    obtain ⟨user, rfl⟩ := h
    cases hw
    trivial
  | _ => cases hw

theorem Trips.conduct {user : UserId} (h : Trips user r) : Conduct D sha256 t r := by
  cases r with
  | redisSet k v => exact ⟨user, h⟩
  | redisIncr k ttl => exact ⟨user, h⟩
  | placeOrder c =>
    obtain ⟨p, hp⟩ := h
    exact .inl ⟨user, p, hp⟩
  | _ => exact Books.conduct h

end Sets

section Tasks

variable {D : Db → Prop} {sha256 : String → String} {t : Task} {α : Type}

/-- Code that keeps to what the task can ask. -/
abbrev Conducts (D : Db → Prop) (sha256 : String → String) (t : Task) (c : Code α) : Prop :=
  c.Yields (Conduct D sha256 t) (FromDb D) fun _ => True

variable (cfg : Settings) (id : SignalId) (request : SignalRequest) {sig : StrategySignal}
  {c : Code α}

theorem conducts_of_reads (h : c.AsksIn Reads) : Conducts D sha256 t c :=
  (asksIn_mono (fun _ hr => hr.conduct) h).yields

theorem conducts_of_mirrors (h : c.AsksIn Mirrors) : Conducts D sha256 t c :=
  (asksIn_mono (fun _ hr => hr.conduct) h).yields

theorem conducts_of_trips {user : UserId} (h : c.AsksIn (Trips user)) :
    Conducts D sha256 t c := (asksIn_mono (fun _ hr => hr.conduct) h).yields

theorem perform_conducts {r : Request} (h : Conduct D sha256 t r) :
    Conducts D sha256 t (perform r : Code (Response r)) := ((asksIn_perform r).2 h).yields

variable {strategy : Strategy} {st : SignalStatus} {kind : SignalKind}

theorem setStatus_conducts
    (h : st ≠ .received ∧ st ≠ .executed) : Conducts D sha256 t (setSignalStatus id st) :=
  perform_conducts ⟨h.1, fun hst => absurd hst h.2⟩

theorem setOwnStatus_conducts (kind : SignalKind)
    (h : st ≠ .received) : Conducts D sha256 (.worker ⟨id, kind⟩) (setSignalStatus id st) :=
  perform_conducts ⟨h, fun _ => ⟨kind, rfl⟩⟩

theorem working_conducts (m : Message) :
    Working (asking (Conduct D sha256 (.worker m)) (FromDb D)) D m where
  reads _ _ hr := hr.conduct
  db hn := hn
  status _ _ hst := ⟨hst, fun _ => ⟨m.kind, rfl⟩⟩
  twin _ _ _ _ _ := trivial
  flag _ symbol _ _ := .inl ⟨symbol, rfl⟩
  retry _ := .inl rfl

theorem placeStrategyOrders_conducts (sig : StrategySignal)
    (strategy : Strategy) (lots : Option Int) :
    Conducts D sha256 (.worker ⟨sig.id, .entry⟩) (placeStrategyOrders cfg sig strategy lots) := by
  refine (placeStrategyOrders_follows (working_conducts ⟨sig.id, .entry⟩) (fun _ => rfl)
    (fun _ _ hr => hr.conduct) (fun o c _ _ hc => sends_of_may (claimOrder_follows fun _ id _ => ?_)
      fun _ => ?_) lots).yields
  · exact .inr (.inl ⟨id, o.actionKind, rfl, rfl⟩)
  · exact .inr (.inl ⟨sig.id, strategy.id, sig.userId, rfl, hc⟩)

theorem enterSignal_conducts (sig : StrategySignal) (strategy : Strategy) :
    Conducts D sha256 (.worker ⟨sig.id, .entry⟩) (enterSignal cfg sig strategy) :=
  (enterSignal_follows (working_conducts ⟨sig.id, .entry⟩) rfl
    (fun lots => (placeStrategyOrders_conducts cfg sig strategy lots).follows_asking)
    ((postTradeHooks_trips cfg).follows fun _ _ hr => hr.conduct)).yields

theorem executeSignalAsync_conducts (m : Message) :
    Conducts D sha256 (.worker m) (executeSignalAsync cfg m) := by
  have hworking : Working (asking (Conduct D sha256 (.worker m)) (FromDb D)) D m :=
    working_conducts m
  refine (executeSignalAsync_follows hworking (fun hentry => ?_) fun hexit => ?_).yields
  · refine processEntry_follows hworking (fun {sig strategy lots} hid => ?_)
      fun _ => (postTradeHooks_trips cfg).follows fun _ _ hr => hr.conduct
    obtain ⟨id, kind⟩ := m
    obtain rfl : kind = .entry := hentry
    obtain rfl : sig.id = id := hid
    exact (placeStrategyOrders_conducts cfg sig strategy lots).follows_asking
  · refine processDirectExit_follows hworking
      fun {_ _ sig strategy _ _ p _ _} _ hsig _ _ _ _ _ => closeAndBook_follows hworking
        (fun c hc => sends_of_may (claimClose_follows fun _ => ?_) fun _ => ?_)
        (fun _ _ _ _ _ d => .of_sameBooks ((sameBooks_savePosition d _).trans
          (sameBooks_addExecutions _ _)))
        ((maybeFanOutExit_mirrors _ _ _ _).follows fun _ _ hr => hr.conduct)
    · exact .inr (.inl ⟨sig.id, .exit, rfl, rfl⟩)
    · rw [signal_id_of_found hsig.symm] at hc
      exact .inr (.inr ⟨m.signal, m.kind, strategy.id, p.id, hexit, rfl, hc⟩)

def SignalRequest.tokenIn (d : Db) : Option WebhookToken :=
  d.tokens.find? fun t => t.id = request.token ∧ t.isActive

theorem SignalRequest.tokenIn_spec {request : SignalRequest} {d : Db} {t : WebhookToken}
    (h : request.tokenIn d = some t) :
    t ∈ d.tokens ∧ t.id = request.token ∧ t.isActive = true := by
  have hfound := List.find?_some h
  rw [decide_eq_true_eq] at hfound
  exact ⟨List.mem_of_find?_eq_some h, hfound⟩

theorem authenticate_yields : (authenticate cfg request).Yields Reads (FromDb D) fun x =>
      request.json = some (some x.2) ∧ ∃ d, D d ∧ request.tokenIn d = some x.1 := by
  refine yields_bind (ask_reads _).yields fun halted _ => yields_bind
    (require_asksIn _ _ _).yields fun _ _ => yields_bind
   
    (yields_perform fun _ => rfl) fun token htoken => ?_
  split
  · exact yields_throw _
  refine yields_bind (ask_reads _).yields fun allowed _ => yields_bind
    (require_asksIn _ _ _).yields fun _ _ => ?_
  split
  · exact yields_throw _
  · exact yields_throw _
  rename_i body hbody
  refine yields_bind (require_asksIn _ _ _).yields fun _ _ => yields_pure ⟨hbody, ?_⟩
  obtain ⟨d, hD, hd⟩ := htoken
  exact ⟨d, hD, hd.symm⟩

theorem ExitHold.status_ne (h : ExitHold) : h.status ≠ .received ∧ h.status ≠ .executed := by
  cases h <;> decide

theorem dispatchStored_conducts (cfg : Settings) (strategy : Strategy)
    (signal : StrategySignal) (kind : SignalKind) :
    Conducts D sha256 (.webhook request) (dispatchStored cfg strategy signal kind) :=
  (dispatchStored_asksIn cfg (fun _ hr => hr.conduct)
    (fun h => ⟨h.status_ne.1, fun hst => absurd hst h.status_ne.2⟩) (.inr ⟨request, rfl⟩)
    fun _ => .inr ⟨request, rfl⟩).yields

theorem persistSignal_grows (t : WebhookToken) (strategy : Strategy) (payload : Body)
    (valid : ValidPayload) (ts : Nat) (d : Db) :
    Grows d { d with
      signals := d.signals ++ [signalRow t strategy payload valid ts d.nextId]
      nextId := d.nextId + 1 } :=
  ⟨rfl, rfl, rfl, rfl, rfl, rfl, Nat.le_succ _, .inr ⟨_, rfl, rfl, rfl, Nat.lt_succ_self _⟩⟩

theorem processSignal_conducts {request : SignalRequest} {t : WebhookToken} {body : Body}
    {hash : String} (hkey : request.HasKey D sha256 hash) :
    Conducts D sha256 (.webhook request) (processSignal cfg t body hash) :=
  yields_bind (killSwitchGate_asksIn trivial).yields fun _ _ => yields_bind
    (conducts_of_reads (signalGates_reads _ _)) fun strategy _ => yields_bind
    (conducts_of_reads (preparePayload_reads _ _)) fun (payload, valid) _ => yields_bind
    (conducts_of_reads now_reads) fun ts _ => yields_bind
    (perform_conducts (persistSignal_grows t strategy payload valid ts)) fun _ _ =>
    yields_bind (dispatchStored_conducts _ _ _ _ _) fun _ _ => yields_bind
    (conducts_of_mirrors (fanOutSignal_mirrors _ _ _ _)) fun _ _ => yields_bind
    (perform_conducts ⟨request, rfl, hkey⟩) fun _ _ => yields_pure trivial

theorem receiveStrategySignal_conducts :
    Conducts D sha256 (.webhook request) (receiveStrategySignal cfg sha256 request) := by
  refine yields_bind ((authenticate_yields cfg request).mono (fun _ hr => hr.conduct)
    fun _ h => h) fun (t, body) hx => ?_
  obtain ⟨hbody, d, hD, htoken⟩ := hx
  obtain ⟨hmem, hid, hactive⟩ := SignalRequest.tokenIn_spec htoken
  have hkey : request.HasKey D sha256
      (computeStrategySignalHash sha256 t.userId body request.rawBody) :=
    ⟨body, hbody, d, hD, t, hmem, hid, hactive, rfl⟩
  refine yields_bind (perform_conducts
    (.inr (.inr ⟨request, _, rfl, hkey, rfl, rfl⟩))) fun claimed _ => ?_
  split
  · exact processSignal_conducts cfg hkey
  · exact yields_bind (perform_conducts ⟨request, rfl, hkey⟩) fun _ _ =>
      yields_pure trivial

theorem task_conducts (cfg : Settings) (sha256 : String → String) (t : Task) :
    Conducts D sha256 t (t.code cfg sha256) := by
  cases t with
  | webhook request =>
    exact yields_bind (receiveStrategySignal_conducts cfg request) fun _ _ => yields_pure trivial
  | worker m => exact executeSignalAsync_conducts cfg m
  | trip user reason =>
    exact yields_bind (conducts_of_trips (checkAndTrigger_trips cfg reason)) fun _ _ =>
      yields_pure trivial
  | reset user => exact perform_conducts (.inl ⟨user, rfl, rfl⟩)

theorem exec_keeps_of_conduct {I : World → Prop} (sha256 : String → String)
    (t : Task) (hI : ∀ w r, Conduct (fun _ => True) sha256 t r → I w → I (handle w r).2)
    {w : World} (hw : I w) : I ((t.code cfg sha256).exec w).2 := by
  refine wp_serving.1 ((task_conducts (D := fun _ => True) cfg sha256 t).wp
    (Q := fun _ w' => I w') (fun _ _ _ _ => trivial) ?_
    (fun _ _ _ h => h) (fun _ _ h => h) hw)
  rintro w' r _ _ hw' hr ⟨rfl, rfl⟩
  exact ⟨hI w' r hr hw', fromDb_handle trivial r⟩

end Tasks

end TradingBridge
