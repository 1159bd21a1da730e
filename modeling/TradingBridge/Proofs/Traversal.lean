import TradingBridge.Proofs.Specs

/-!
# One way through the code

The fan-out, the kill switch and the worker, each gone through once, for any machine that allows
what they ask: their writes only for the rows the machine has answered. What a property says of
these pieces is then which of the requests it allows.
-/

namespace TradingBridge

open Effectful Prog

variable {μ : Type*} {M : Machine Request Response μ} {α β : Type}

theorem ofExcept_follows (x : Except AppError α) : (ofExcept x).Follows M := by
  cases x with
  | ok a => exact follows_pure a
  | error e => exact follows_throw e

theorem follows_ofExcept {x : Except AppError α} {f : α → Code β}
    (h : ∀ a, x = .ok a → (f a).Follows M) : (ofExcept x >>= f).Follows M := by
  cases x with
  | ok a => exact h a rfl
  | error e => exact follows_throw e

theorem follows_readDb {f : Db → α} {k : α → Code β}
    (hreads : ∀ m r, Reads r → M.may m r)
    (hk : ∀ m a m', M.next m (.db fun d => (f d, d)) a m' → (k a).Follows M) :
    (readDb f >>= k).Follows M := follows_request (fun m => hreads m _ fun _ => rfl) hk

section Mirroring

/-- The machine allows the fan-out: a subscriber's claim, a row added for a subscriber, and the
close of a row found as a subscriber's. -/
structure Mirroring (M : Machine Request Response μ) : Prop where
  reads : ∀ m r, Reads r → M.may m r
  claim : ∀ m sub token v ttl, M.may m (.redisSetNX (subscriberIdempotencyKey sub token) v ttl)
  add : ∀ m (row : PositionId → StrategyPosition) es, (∀ n, (row n).subscriptionId ≠ none) →
    M.may m (.db fun d => ((), (d.addPosition (row d.nextId)).addExecutions es))
  close : ∀ m qty price ts es {m₀ m₁ strategy sub} {p : StrategyPosition},
    M.next m₀ (.db fun d => (findOpenOf strategy sub d, d)) (some p) m₁ →
    M.may m (.db fun d => ((), (d.savePosition (mirrorClose p qty price ts)).addExecutions es))

variable (h : Mirroring M) (signal : StrategySignal) (strategy : Strategy)

include h

theorem Mirroring.of_reads {c : Code α} (hc : c.AsksIn Reads) : c.Follows M := hc.follows h.reads

theorem dispatchOne_follows (side : Option OrderSide) (token : String)
    (sub : MarketplaceSubscription) :
    (dispatchOne signal strategy side token sub).Follows M := by
  refine follows_bind (h.of_reads (readDb_reads _)) fun resolved => follows_bind
    (h.of_reads (resolveSubscriberSize_reads _ _ _)) fun size => ?_
  split
  · exact follows_pure _
  refine follows_bind (ofExcept_follows _) fun report => ?_
  split
  · exact follows_pure _
  · exact follows_throw _
  refine follows_bind (follows_perform fun m => h.claim m _ _ _ _) fun first => ?_
  split_ifs
  · exact follows_pure _
  · exact follows_pure _
  refine follows_bind (h.of_reads (readDb_reads _)) fun existing => ?_
  split_ifs
  · exact follows_pure _
  exact follows_bind (h.of_reads now_reads) fun ts => follows_bind
    (follows_perform fun m => h.add m (fun n => subscriberPosition signal strategy sub _ _ _ _ ts n)
      _ fun _ => nofun) fun _ => follows_pure _

theorem fanOutSignal_follows (cfg : Settings) (hash : String) :
    (fanOutSignal cfg signal strategy hash).Follows M := by
  unfold fanOutSignal
  split
  · refine follows_tryCatch (follows_bind (h.of_reads (readDb_reads _)) fun subs => follows_bind ?_
      fun _ => follows_pure _) fun _ => follows_pure _
    unfold dispatchSubscriberExecutions
    split
    · exact follows_pure _
    · refine follows_mapEach fun sub _ => ?_
      split
      · exact follows_pure _
      · exact follows_tryCatch (dispatchOne_follows h _ _ _ _ _) fun _ => follows_pure _
  · exact follows_pure _

theorem fanOutExitOne_follows (kind : ActionKind) (price : ℚ) (token : String)
    (sub : MarketplaceSubscription) :
    (fanOutExitOne signal strategy kind price token sub).Follows M := by
  refine follows_bind (h.of_reads (readDb_reads _)) fun resolved => follows_bind
    (follows_perform fun m => h.claim m _ _ _ _) fun first => ?_
  split
  · exact follows_pure _
  refine follows_readDb h.reads fun m₀ found m₁ hfound => ?_
  split
  · exact follows_pure _
  split_ifs
  · exact follows_pure _
  · exact follows_pure _
  refine follows_bind (ofExcept_follows _) fun _ => follows_bind (h.of_reads now_reads)
    fun ts => ?_
  split
  · exact follows_throw _
  · exact follows_bind (follows_perform fun m => h.close m _ _ _ _ hfound) fun _ => follows_pure _

theorem maybeFanOutExit_follows (cfg : Settings) (kind : ActionKind) :
    (maybeFanOutExit cfg signal strategy kind).Follows M := by
  unfold maybeFanOutExit fanOutExit
  split
  · refine follows_tryCatch (follows_bind (h.of_reads (readDb_reads _)) fun subs => ?_)
      fun _ => follows_pure _
    split
    · refine follows_bind ?_ fun _ => follows_pure _
      split
      · exact follows_throw _
      · exact follows_mapEach fun sub _ =>
          follows_tryCatch (fanOutExitOne_follows h _ _ _ _ _ _) fun _ => follows_pure _
    · exact follows_pure _
  · exact follows_pure _

omit h

theorem mirroring_mirrors : Mirroring (asking Mirrors fun _ _ => True) where
  reads _ _ hr := hr.books.mirrors
  claim _ sub token _ _ := ⟨sub, token, rfl⟩
  add _ _ _ _ d := (sameBooks_addPosition d _).trans (sameBooks_addExecutions _ _)
  close _ _ _ _ _ _ _ _ _ _ _ d :=
    (sameBooks_savePosition d _).trans (sameBooks_addExecutions _ _)

end Mirroring

section Mirrors

variable (cfg : Settings) (signal : StrategySignal) (strategy : Strategy)

@[simp] theorem maybeFanOutExit_mirrors (kind : ActionKind) :
    (maybeFanOutExit cfg signal strategy kind).AsksIn Mirrors :=
  maybeFanOutExit_follows mirroring_mirrors signal strategy cfg kind ()

@[simp] theorem fanOutSignal_mirrors (hash : String) :
    (fanOutSignal cfg signal strategy hash).AsksIn Mirrors :=
  fanOutSignal_follows mirroring_mirrors signal strategy cfg hash ()

end Mirrors

section Tripping

variable {cfg : Settings} {user : UserId}

/-- A position the square-off goes by, with the mode it was answered. -/
def SquaredOff (M : Machine Request Response μ) (cfg : Settings) (user : UserId)
    (p : StrategyPosition) : Prop :=
  ∃ m₀ m₁ m₂ m₃, ∃ ps : List StrategyPosition, ∃ modes : List (StrategyPosition × Bool),
    M.next m₀ (.db fun d => (squareOffPositions user d, d)) ps m₁
    ∧ M.next m₂ (.db fun d => (ps.map fun p => (p, strategyPaperMode cfg d p), d)) modes m₃
    ∧ p ∈ modes.map (·.1)

/-- The machine allows a trip of the user's kill switch, and their count of trades. -/
structure Tripping (M : Machine Request Response μ) (cfg : Settings) (user : UserId) : Prop where
  reads : ∀ m r, Reads r → M.may m r
  order : ∀ m c position, c.origin = .killSwitch user position → M.may m (.placeOrder c)
  close : ∀ m side order ts {p}, SquaredOff M cfg user p →
    M.may m (.db fun d => ((), d.savePosition (killSwitchClose p side order false ts)))
  paper : ∀ m (ps : List StrategyPosition), (∀ q ∈ ps, ∃ p side ts, SquaredOff M cfg user p
    ∧ q = killSwitchClose p side .paperKillSwitch true ts) →
    M.may m (.db fun d => ((), ps.foldl Db.savePosition d))
  flag : ∀ m, M.may m (.redisSet (.kill user) (.status .tripped))
  count : ∀ m ttl, M.may m (.redisIncr (.trades user) ttl)

variable (h : Tripping M cfg user)

include h

theorem Tripping.of_reads {c : Code α} (hc : c.AsksIn Reads) : c.Follows M := hc.follows h.reads

theorem closeGroup_follows {cred : CredentialId} {row : Option BrokerCredential}
    {group : List StrategyPosition} (hgroup : ∀ p ∈ group, SquaredOff M cfg user p) :
    (closeGroup user cred row group).Follows M := by
  unfold closeGroup
  split
  · exact follows_pure _
  refine follows_bind (h.of_reads (killSwitchBroker_reads _)) fun session => ?_
  split
  · exact follows_pure _
  rename_i broker
  have hclose : ∀ p ∈ group, (closePositionViaBroker user broker p).Follows M := fun p hp =>
    follows_bind (ofExcept_follows _) fun side => follows_bind (follows_bind
      (follows_perform fun m => h.order m _ p.id rfl) fun _ => ofExcept_follows _) fun response =>
      follows_bind (h.of_reads now_reads) fun ts =>
      follows_perform fun m => h.close m _ _ _ (hgroup p hp)
  exact follows_bind (follows_mapEach fun p hp => follows_tryCatch (follows_bind (hclose p hp)
    fun _ => follows_pure _) fun _ => follows_pure _) fun _ => follows_pure _

theorem executeEmergencySquareOff_follows : (executeEmergencySquareOff cfg user).Follows M := by
  refine follows_readDb h.reads fun m₀ ps m₁ hps => follows_readDb h.reads
    fun m₂ modes m₃ hmodes => ?_
  have hmem : ∀ (b : StrategyPosition × Bool → Bool), ∀ p ∈ (modes.filter b).map (·.1),
      SquaredOff M cfg user p := by
    intro b p hp
    obtain ⟨x, hx, rfl⟩ := List.mem_map.1 hp
    exact ⟨m₀, m₁, m₂, m₃, ps, modes, hps, hmodes, List.mem_map_of_mem (List.mem_filter.1 hx).1⟩
  refine follows_bind (h.of_reads (readDb_reads _)) fun rows => follows_bind
    (h.of_reads now_reads) fun ts => follows_ofExcept fun closed hclosed => follows_bind
    (follows_perform fun m => h.paper m closed fun q hq => ?_) fun _ => follows_bind
    (follows_mapEach fun c _ => closeGroup_follows h fun p hp =>
      hmem _ p (List.mem_filter.1 hp).1) fun _ => follows_pure _
  obtain ⟨p, hp, hq⟩ := Fallible.exists_of_mem_mapM hclosed hq
  obtain ⟨side, -, rfl⟩ := closePositionInPaper_eq_ok.1 hq
  exact ⟨p, side, ts, hmem _ p hp, rfl⟩

theorem checkAndTrigger_follows (reason : Option TripReason) :
    (checkAndTrigger cfg user reason).Follows M := by
  refine follows_bind (h.of_reads (readDb_reads _)) fun config => follows_bind
    (h.of_reads (ask_reads _)) fun _ => follows_bind (ofExcept_follows _) fun pnl =>
    follows_bind (h.of_reads (tripReason_reads _ _ _ _)) fun reason => ?_
  split
  · exact follows_pure _
  refine follows_bind (follows_perform h.flag) fun _ => ?_
  split
  · exact follows_pure _
  · exact follows_bind (executeEmergencySquareOff_follows h) fun _ => follows_pure _

theorem postTradeHooks_follows : (postTradeHooks cfg user).Follows M :=
  follows_tryCatch (follows_bind (follows_perform fun m => h.count m _) fun _ =>
    follows_bind (checkAndTrigger_follows h none) fun _ => follows_pure _) fun _ => follows_pure _

omit h

theorem tripping_trips : Tripping (asking (Trips user) fun _ _ => True) cfg user where
  reads _ _ hr := hr.books.squaresOff.trips
  order _ _ position hc := ⟨position, hc⟩
  close _ _ _ _ _ _ d := sameBooks_savePosition d _
  paper _ ps _ d := sameBooks_savePositions ps d
  flag _ := ⟨rfl, rfl⟩
  count _ _ := rfl

variable (cfg)

@[simp] theorem checkAndTrigger_trips (reason : Option TripReason) :
    (checkAndTrigger cfg user reason).AsksIn (Trips user) :=
  checkAndTrigger_follows tripping_trips reason ()

@[simp] theorem postTradeHooks_trips : (postTradeHooks cfg user).AsksIn (Trips user) :=
  postTradeHooks_follows tripping_trips ()

end Tripping

section Working

/-- The order of a claim and a call, before whatever the code goes on with. -/
def Sends (M : Machine Request Response μ) (claim : Code Unit) (c : OrderCall) : Prop :=
  ∀ {α : Type} {rest : OrderResponse → Code α}, (∀ x, (rest x).Follows M) →
    (claim >>= fun _ => placeOrder c >>= rest).Follows M

theorem sends_of_may {claim : Code Unit} {c : OrderCall} (hclaim : claim.Follows M)
    (horder : ∀ m, M.may m (.placeOrder c)) : Sends M claim c := fun hrest =>
  follows_bind hclaim fun _ => follows_bind
    (follows_bind (follows_perform horder) fun _ => ofExcept_follows _) hrest

theorem claimClose_follows {id : SignalId} (h : ∀ m, M.may m
      (.redisSetNX (.signalIdempotency id .exit) .one signalIdempotencyTtlSeconds)) :
    (claimClose id).Follows M := by
  refine follows_bind (follows_perform h) fun first => ?_
  split
  · exact follows_throw _
  · exact follows_pure _

theorem claimOrder_follows {o : LiveOrder} (h : ∀ m id, o.signalId = some id → M.may m
      (.redisSetNX (.signalIdempotency id o.actionKind) .one signalIdempotencyTtlSeconds)) :
    (claimOrder o).Follows M := by
  unfold claimOrder
  split
  · exact follows_pure _
  rename_i id hid
  refine follows_bind (follows_perform fun m => h m id hid) fun first => ?_
  split
  · exact follows_throw _
  · exact follows_pure _

/-- The machine answers from databases in `D`, and allows a worker's requests for its signal. -/
structure Working (M : Machine Request Response μ) (D : Db → Prop) (m : Message) : Prop where
  reads : ∀ s r, Reads r → M.may s r
  db : ∀ {s s'} {α : Type} {f : Db → α × Db} {a : α},
    M.next s (.db f) a s' → ∃ d, D d ∧ a = (f d).1
  status : ∀ s {st}, st ≠ .received → M.may s (.setSignalStatus m.signal st)
  twin : ∀ s strategy except ts t, M.may s (.findDuplicateEntry strategy except ts t)
  flag : ∀ s symbol v ttl, M.may s (.redisSetEx (.ambiguousFill symbol) v ttl)
  retry : ∀ s, M.may s (.dispatch m)

variable {D : Db → Prop} {m : Message} {cfg : Settings} {sig : StrategySignal}
  {strategy : Strategy}

theorem signal_id_of_found {d : Db} {id : SignalId} (h : some sig = d.signal id) : sig.id = id := by
  simpa using List.find?_some h.symm

theorem strategy_id_of_found {d : Db} {id : StrategyId}
    (h : d.strategy id = some strategy) : strategy.id = id := by simpa using List.find?_some h

variable (h : Working M D m)

include h

theorem Working.of_reads {c : Code α} (hc : c.AsksIn Reads) : c.Follows M := hc.follows h.reads

theorem Working.readDb {f : Db → α} {k : α → Code β} (hk : ∀ d, D d → (k (f d)).Follows M) :
    (readDb f >>= k).Follows M := by
  refine follows_readDb h.reads fun s a s' hn => ?_
  obtain ⟨d, hd, rfl⟩ := h.db hn
  exact hk d hd

theorem Working.setStatus {st : SignalStatus} (hid : sig.id = m.signal) (hst : st ≠ .received) :
    (setSignalStatus sig.id st).Follows M := follows_perform fun s => hid ▸ h.status s hst

theorem executeRouted_follows {status : PaperOutcome → SignalStatus} {futures : Code Unit}
    (hid : sig.id = m.signal) (hstatus : ∀ o, status o ≠ .received) (hf : futures.Follows M) :
    (executeRouted cfg sig strategy status futures).Follows M := by
  have hsim : ∀ enabled, (executeRouted.simulated sig status enabled).Follows M := by
    intro enabled
    unfold executeRouted.simulated
    split
    · exact follows_bind (h.of_reads (ask_reads _)) fun _ => follows_bind (ofExcept_follows _)
        fun _ => h.setStatus hid (hstatus _)
    · exact h.setStatus hid (by decide)
  unfold executeRouted
  split
  · exact hf
  · exact hsim _
  · exact hsim _

theorem suppressed_follows (hid : sig.id = m.signal) (e : AppError) : (match e with
      | .duplicateOrderSuppressed _ => pure ()
      | _ => setSignalStatus sig.id .failed : Code Unit).Follows M := by
  split
  · exact follows_pure _
  · exact h.setStatus hid (by decide)

theorem isDuplicateEntry_follows : (isDuplicateEntry sig strategy).Follows M := by
  unfold isDuplicateEntry
  split
  · exact follows_pure _
  · exact follows_bind (h.of_reads now_reads) fun _ => follows_bind
      (follows_perform fun s => h.twin s _ _ _ _) fun _ => follows_pure _

theorem placeStrategyOrders_follows (hmark : ∀ s, M.may s (.mark (.placeStrategyOrders sig.id)))
    (hbooks : ∀ s r, Books r → M.may s r)
    (hsend : ∀ (o : LiveOrder) (c : OrderCall), o.signalId = some sig.id → o.actionKind = .entry →
      c.origin = .entry sig.id strategy.id sig.userId → Sends M (claimOrder o) c)
    (lots : Option Int) : (placeStrategyOrders cfg sig strategy lots).Follows M := by
  refine follows_bind (follows_perform hmark) fun _ => follows_bind
    (h.of_reads (prepareEntry_reads _ _ _ _)) fun plan => follows_bind ?_ fun report =>
    (bookEntry_books _ _ _ _).follows hbooks
  unfold fillEntry
  split
  · exact ofExcept_follows _
  · exact follows_bind (ofExcept_follows _) fun product => follows_bind
      (h.of_reads (preTradeChecks_reads _ _)) fun _ => hsend _ _ rfl rfl rfl fun _ =>
      (confirmEntryFill_books _ _).follows hbooks

theorem enterSignal_follows (hid : sig.id = m.signal)
    (hplace : ∀ lots, (placeStrategyOrders cfg sig strategy lots).Follows M)
    (hhooks : (postTradeHooks cfg sig.userId).Follows M) :
    (enterSignal cfg sig strategy).Follows M := by
  refine follows_bind (h.of_reads (validateEntry_reads _ _)) fun decision => ?_
  split
  · exact h.setStatus hid (by decide)
  refine follows_bind (h.setStatus hid (by decide)) fun _ => executeRouted_follows h hid
    (by intro o; cases o <;> decide) ?_
  exact follows_tryCatch (follows_bind (hplace _) fun _ => follows_bind
    (h.setStatus hid (by decide)) fun _ => hhooks) (suppressed_follows h hid)

theorem processEntry_follows
    (hplace : ∀ {sig strategy lots}, sig.id = m.signal →
      (placeStrategyOrders cfg sig strategy lots).Follows M)
    (hhooks : ∀ user, (postTradeHooks cfg user).Follows M) :
    (processEntry cfg m.signal).Follows M := by
  refine h.readDb fun d hd => ?_
  split
  · exact follows_pure _
  rename_i sig hsig
  have hid := signal_id_of_found hsig.symm
  refine h.readDb fun d _ => ?_
  split
  · exact follows_perform fun s => h.status s (by decide)
  refine follows_bind (isDuplicateEntry_follows h) fun duplicate => ?_
  split
  · exact follows_perform fun s => h.status s (by decide)
  · exact follows_bind (follows_perform fun s => h.status s (by decide)) fun _ =>
      enterSignal_follows h hid (fun _ => hplace hid) (hhooks _)

theorem placeCloseOrder_follows {broker : Option CredentialId} {side : OrderSide} {qty : Int}
    {product : ProductType} {origin : Origin}
    (hsend : ∀ c : OrderCall, c.origin = origin → Sends M (claimClose sig.id) c) :
    (placeCloseOrder broker sig side qty product origin).Follows M := by
  unfold placeCloseOrder
  split
  · exact ofExcept_follows _
  · exact follows_bind (h.of_reads (closeChecks_reads _ _)) fun _ => hsend _ rfl fun response =>
      follows_bind (h.of_reads (confirmFill_reads _ _)) fun fill => follows_pure _

theorem closeAndBook_follows {leg : ExitLeg} {broker : Option CredentialId}
    {p : StrategyPosition} {side : String} {qty : Int}
    (hsend : ∀ c : OrderCall, c.origin = .directExit sig.id strategy.id p.id →
      Sends M (claimClose sig.id) c)
    (hwrite : ∀ s filled ts es, 0 < filled → M.may s (.db fun d => ((),
      (d.savePosition (reducePosition leg p filled side sig.id ts)).addExecutions es)))
    (hfan : (maybeFanOutExit cfg sig strategy leg.action).Follows M) :
    (closeAndBook cfg leg sig strategy broker p side qty).Follows M := by
  refine follows_bind (ofExcept_follows _) fun exitSide => follows_bind (ofExcept_follows _)
    fun product => follows_bind (placeCloseOrder_follows h hsend) fun fill => ?_
  split_ifs with hfill
  · exact follows_bind (follows_perform fun s => h.flag s _ _ _) fun _ => follows_pure _
  · exact follows_pure _
  · exact follows_bind (h.of_reads now_reads) fun ts => follows_bind
      (follows_perform fun s => hwrite s _ _ _ (not_le.1 hfill)) fun _ => follows_bind hfan
      fun _ => follows_pure _

theorem directExit_follows {kind : SignalKind}
    (hclose : ∀ {d leg broker p side qty}, D d → leg.action ≠ .entry → payloadSide sig = .ok side →
      getOpenPosition strategy.id sig.symbol side d = some p →
      (closeAndBook cfg leg sig strategy broker p side qty).Follows M) :
    (directExit cfg kind sig strategy).Follows M := by
  have hexit : ∀ leg : ExitLeg, leg.action ≠ .entry →
      (executeExit cfg leg sig strategy).Follows M := by
    intro leg hleg
    refine follows_ofExcept fun side hside => h.readDb fun d hd => ?_
    split
    · exact follows_pure _
    rename_i p hp
    refine follows_bind (h.of_reads (closeBroker_reads _ _ _ _)) fun broker => follows_bind
      (hclose hd hleg hside (Option.filter_eq_some_iff.1 hp).1) fun booked => ?_
    split <;> exact follows_pure _
  cases kind with
  | entry => exact follows_throw _
  | exit => exact hexit exitLeg (by decide)
  | slHit => exact hexit slLeg (by decide)
  | partly =>
    refine follows_ofExcept fun side hside => follows_bind (ofExcept_follows _) fun pct =>
      h.readDb fun d hd => ?_
    split
    · exact follows_pure _
    rename_i p hp
    refine follows_bind (h.of_reads (closeBroker_reads _ _ _ _)) fun broker => follows_bind
      (h.of_reads (resolveLotSize_reads _ _ _ _)) fun lotSize => ?_
    dsimp only
    split
    · exact follows_pure _
    have hpart : partialLeg.action ≠ .entry := by decide
    refine follows_bind (hclose hd hpart hside
      (Option.filter_eq_some_iff.1 hp).1) fun booked => ?_
    split <;> exact follows_pure _

theorem processDirectExit_follows
    (hclose : ∀ {d₀ d sig strategy leg broker p side qty}, D d₀ → d₀.signal m.signal = some sig →
      strategy.id = sig.strategyId → D d → leg.action ≠ .entry → payloadSide sig = .ok side →
      getOpenPosition strategy.id sig.symbol side d = some p →
      (closeAndBook cfg leg sig strategy broker p side qty).Follows M) :
    (processDirectExit cfg m.signal m.kind).Follows M := by
  refine h.readDb fun d₀ hd₀ => ?_
  split
  · exact follows_pure _
  rename_i sig hsig
  have hid := signal_id_of_found hsig.symm
  refine h.readDb fun d _ => ?_
  split
  · exact follows_perform fun s => h.status s (by decide)
  rename_i strategy hstrategy
  have hrow := strategy_id_of_found (Option.filter_eq_some_iff.1 hstrategy).1
  refine follows_bind (follows_perform fun s => h.status s (by decide)) fun _ =>
    executeRouted_follows h hid (by intro o; cases o <;> decide) ?_
  refine follows_tryCatch (follows_bind (directExit_follows h fun hd hleg hside hp =>
    hclose hd₀ hsig hrow hd hleg hside hp) fun result => ?_) (suppressed_follows h hid)
  split <;> exact h.setStatus hid (by decide)

theorem executeSignalAsync_follows
    (hentry : m.kind = .entry → (processEntry cfg m.signal).Follows M)
    (hexit : m.kind ≠ .entry → (processDirectExit cfg m.signal m.kind).Follows M) :
    (executeSignalAsync cfg m).Follows M := by
  refine follows_tryCatch ?_ fun e => ?_
  · obtain ⟨id, kind⟩ := m
    cases kind with
    | entry => exact hentry rfl
    | partly | exit | slHit => exact hexit nofun
  · split
    · exact follows_pure _
    · exact follows_perform h.retry

end Working

end TradingBridge
