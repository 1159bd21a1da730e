import TradingBridge.Proofs.Conduct

/-!
# One order per signal

The claim on a signal's slot is what lets an order go out. Each running program is followed by a
flag that says whether it holds a claim it has not used: a claim won raises it, an order for the
signal needs it raised and lowers it. So the orders never outnumber the claims won, and claims on
one slot are won at least a TTL apart, whatever the workers, deliveries and crashes.
-/

namespace TradingBridge

open Effectful Prog Expiring List

/-- The signal and kind an order of the executor or of a direct exit is for. -/
def Origin.slot : Origin → Option (SignalId × ClaimKind)
  | .entry signal _ _ => some (signal, .entry)
  | .directExit signal _ _ => some (signal, .exit)
  | _ => none

def ordersFor (w : World) (signal : SignalId) (kind : ClaimKind) : List OrderCall :=
  w.orders.filter fun c => c.origin.slot = some (signal, kind)

def wonTimes (w : World) (key : RedisKey) : List Nat :=
  (w.claims.filter fun c => c.key = key ∧ c.won).map (·.time)

section Monitor

variable {signal : SignalId} {kind : ClaimKind}

/-- Whether a program holds an unused claim. Only `SET NX` may write the slot. -/
def claimMonitor (signal : SignalId) (kind : ClaimKind) : Machine Request Response Bool where
  may b r := match r with
    | .placeOrder c => c.origin.slot = some (signal, kind) → b = true
    | .redisSet k _ | .redisSetEx k _ _ | .redisDel k | .redisIncr k _ =>
      k ≠ .signalIdempotency signal kind
    | .redisSetNX k _ ttl =>
      k = .signalIdempotency signal kind → ttl = signalIdempotencyTtlSeconds
    | _ => True
  next b r a b' := FromDb (fun _ => True) r a ∧ match r, a with
    | .placeOrder c, _ => b' = (b && c.origin.slot ≠ some (signal, kind))
    | .redisSetNX k _ _, won => b' = (b || (k = .signalIdempotency signal kind && won))
    | _, _ => b' = b

theorem Conduct.claimMonitor {D : Db → Prop} {sha256 : String → String} {t : Task}
    {r : Request} (b : Bool) (ht : ∀ m, t ≠ .worker m) (h : Conduct D sha256 t r) :
    (claimMonitor signal kind).may b r := by
  cases r with
  | placeOrder c =>
    obtain ⟨user, p, hp⟩ | ⟨id, _, _, rfl, _⟩ | ⟨id, k, _, _, _, rfl, _⟩ := h
    · simp [TradingBridge.claimMonitor, hp, Origin.slot]
    · exact absurd rfl (ht _)
    · exact absurd rfl (ht _)
  | redisSetNX k v ttl =>
    obtain ⟨sub, token, rfl⟩ | ⟨id, kind', rfl, rfl⟩ | ⟨request, hash, rfl, _, rfl, rfl⟩ := h
    · simp [TradingBridge.claimMonitor, subscriberIdempotencyKey]
    · exact fun _ => rfl
    · simp [TradingBridge.claimMonitor]
  | redisSet | redisSetEx | redisDel | redisIncr =>
    rintro rfl
    obtain ⟨_, _, hset⟩ := h.writes rfl
    cases hset
  | _ => trivial

theorem Books.claimMonitor {r : Request} (b : Bool) (h : Books r) :
    (claimMonitor signal kind).may b r :=
  (show Conduct (fun _ => True) id (.reset 0) r from h.conduct).claimMonitor b (by simp)

theorem Mirrors.claimMonitor {r : Request} (b : Bool) (h : Mirrors r) :
    (claimMonitor signal kind).may b r :=
  (show Conduct (fun _ => True) id (.reset 0) r from h.conduct).claimMonitor b (by simp)

theorem Trips.claimMonitor {r : Request} {user : UserId} (b : Bool) (h : Trips user r) :
    (claimMonitor signal kind).may b r :=
  (show Conduct (fun _ => True) id (.reset user) r from h.conduct).claimMonitor b (by simp)

/-- After a claim that lets its caller go on, the claim is held. -/
def HoldsIfOk (signal : SignalId) (kind : ClaimKind) (slot : SignalId × ClaimKind) :
    Except AppError Unit → Bool → Prop :=
  fun x b => x = .ok () → slot = (signal, kind) → b = true

variable {sig : StrategySignal} {cfg : Settings} (id : SignalId)

theorem claim_wp (k : ClaimKind) (b : Bool) :
    (checkAndSetSignalIdempotent id k).wp (claimMonitor signal kind)
      (fun x b' => x = .ok true → (id, k) = (signal, kind) → b' = true) b := by
  refine ⟨fun _ => rfl, ?_⟩
  rintro won b' hb' hx hslot
  obtain ⟨rfl, rfl⟩ := Prod.mk.injEq .. ▸ hslot
  obtain rfl : won = true := Except.ok.inj hx
  simpa using hb'.2

theorem claim_bind_wp {rest : Bool → Code Unit} {e : AppError} (hlost : rest false = throw e)
    (hwon : rest true = pure ()) (k : ClaimKind) (b : Bool) :
    (checkAndSetSignalIdempotent id k >>= rest).wp (claimMonitor signal kind)
      (HoldsIfOk signal kind (id, k)) b := by
  refine wp_bind_of (claim_wp id k b) (fun won b' hx => ?_) fun _ _ _ h => nomatch h
  cases won with
  | false => exact hlost ▸ fun h => nomatch h
  | true => exact hwon ▸ fun _ => hx rfl

theorem claimOrder_wp {o : LiveOrder} {id : SignalId} (hid : o.signalId = some id) (b : Bool) :
    (claimOrder o).wp (claimMonitor signal kind) (HoldsIfOk signal kind (id, o.actionKind)) b := by
  unfold claimOrder
  rw [hid]
  exact claim_bind_wp id rfl rfl o.actionKind b

theorem claimClose_wp (id : SignalId) (b : Bool) :
    (claimClose id).wp (claimMonitor signal kind) (HoldsIfOk signal kind (id, .exit)) b :=
  claim_bind_wp id rfl rfl .exit b

theorem claimed_sends {slot : SignalId × ClaimKind} {c : OrderCall} {claim : Code Unit}
    (hslot : c.origin.slot = some slot)
    (hclaim : ∀ b, claim.wp (claimMonitor signal kind) (HoldsIfOk signal kind slot) b) :
    Sends (claimMonitor signal kind) claim c := by
  refine fun hrest b => wp_bind_of (hclaim b) (fun u b' hx => ?_) fun _ _ _ => trivial
  refine wp_bind_of (R := fun _ _ => True) ?_ (fun response b'' _ => hrest response b'')
    fun _ _ _ => trivial
  refine wp_bind.2 ⟨fun h => hx rfl (Option.some.inj (hslot.symm.trans h)), ?_⟩
  intro answer b'' _
  cases answer <;> trivial

theorem working_claimMonitor (m : Message) :
    Working (claimMonitor signal kind) (fun _ => True) m where
  reads b _ hr := hr.books.claimMonitor b
  db hn := hn.1
  status _ _ _ := trivial
  twin _ _ _ _ _ := trivial
  flag b _ _ _ := Books.claimMonitor b trivial
  retry _ := trivial

theorem executeSignalAsync_claims (cfg : Settings) (m : Message) :
    (executeSignalAsync cfg m).Follows (claimMonitor signal kind) := by
  have hworking : Working (claimMonitor signal kind) (fun _ => True) m := working_claimMonitor m
  refine executeSignalAsync_follows hworking (fun _ => ?_) fun _ => ?_
  · refine processEntry_follows hworking (fun {sig strategy lots} _ => ?_)
      fun _ => (postTradeHooks_trips cfg).follows fun b _ hr => hr.claimMonitor b
    refine placeStrategyOrders_follows hworking (fun _ => trivial)
      (fun b _ hr => hr.claimMonitor b) (fun o c ho hkind hc => claimed_sends ?_
        (claimOrder_wp ho)) lots
    rw [hc, hkind]
    rfl
  · refine processDirectExit_follows hworking fun _ _ _ _ _ _ _ => closeAndBook_follows hworking
      (fun c hc => claimed_sends (by rw [hc]; rfl) (claimClose_wp _)) (fun b _ _ _ _ =>
        Books.claimMonitor b fun d => (sameBooks_savePosition d _).trans
          (sameBooks_addExecutions _ _))
      ((maybeFanOutExit_mirrors _ _ _ _).follows fun b _ hr => hr.claimMonitor b)

theorem task_follows (cfg : Settings) (sha256 : String → String) (t : Task) :
    (t.code cfg sha256).Follows (claimMonitor signal kind) := by
  have hother : (∀ m, t ≠ .worker m) → (t.code cfg sha256).Follows (claimMonitor signal kind) :=
    fun ht => (task_conducts cfg sha256 t).follows
      (fun b _ hr => hr.claimMonitor b ht)
      fun _ _ _ _ _ hn => hn.1
  cases t with
  | worker m => exact executeSignalAsync_claims cfg m
  | webhook request => exact hother fun _ h => nomatch h
  | trip user reason => exact hother fun _ h => nomatch h
  | reset user => exact hother fun _ h => nomatch h

end Monitor

section Runs

variable {signal : SignalId} {kind : ClaimKind} {w : World} {bs : List Bool}

/-- The orders and unused claims are no more than the claims won, which are a TTL apart and held
that long. -/
structure ClaimInv (signal : SignalId) (kind : ClaimKind)
    (slot₀ : Option (RedisValue × Option Nat)) (w : World) (bs : List Bool) : Prop where
  credit : (ordersFor w signal kind).length + bs.count true
    ≤ (wonTimes w (.signalIdempotency signal kind)).length
  past : ∀ t ∈ wonTimes w (.signalIdempotency signal kind), t ≤ w.clock
  apart : (wonTimes w (.signalIdempotency signal kind)).Pairwise
    fun t t' => t + signalIdempotencyTtlSeconds ≤ t'
  free : wonTimes w (.signalIdempotency signal kind) = [] →
    w.redis.slot (.signalIdempotency signal kind) = slot₀
  held : ∀ t ∈ wonTimes w (.signalIdempotency signal kind), ∃ v lapse,
    w.redis.slot (.signalIdempotency signal kind) = some (v, some lapse)
      ∧ t + signalIdempotencyTtlSeconds ≤ lapse

variable {slot₀ : Option (RedisValue × Option Nat)}

theorem ClaimInv.congr {w' : World} {bs' : List Bool}
    (h : ClaimInv signal kind slot₀ w bs)
    (horders : ordersFor w' signal kind = ordersFor w signal kind)
    (hwon : wonTimes w' (.signalIdempotency signal kind)
      = wonTimes w (.signalIdempotency signal kind))
    (hslot : w'.redis.slot (.signalIdempotency signal kind)
      = w.redis.slot (.signalIdempotency signal kind))
    (hclock : w.clock ≤ w'.clock) (hbs : bs'.count true ≤ bs.count true) :
    ClaimInv signal kind slot₀ w' bs' := by
  refine ⟨?_, ?_, ?_, ?_, ?_⟩
  · rw [horders, hwon]
    exact (Nat.add_le_add_left hbs _).trans h.credit
  · rw [hwon]
    exact fun t ht => (h.past t ht).trans hclock
  · rw [hwon]
    exact h.apart
  · rw [hwon, hslot]
    exact h.free
  · rw [hwon, hslot]
    exact h.held

/-- A claim that is lost changes nothing; one that is won finds every earlier one lapsed. -/
theorem ClaimInv.setNX {i : Nat} {b : Bool}
    {v : RedisValue} (h : ClaimInv signal kind slot₀ w bs) (hi : bs[i]? = some b) :
    ClaimInv signal kind slot₀
      (handle w (.redisSetNX (.signalIdempotency signal kind) v signalIdempotencyTtlSeconds)).2
      (bs.set i (b || (w.redis.get w.clock (.signalIdempotency signal kind)).isNone)) := by
  obtain ⟨hlt, rfl⟩ := List.getElem?_eq_some_iff.1 hi
  cases hget : w.redis.get w.clock (.signalIdempotency signal kind) with
  | some u =>
    refine h.congr rfl ?_ ?_ le_rfl ?_
    · simp [handle, wonTimes, Store.setNX_lost hget]
    · simp [handle, Store.setNX_lost hget]
    · simp
  | none =>
    set w' := (handle w (.redisSetNX (.signalIdempotency signal kind) v
      signalIdempotencyTtlSeconds)).2 with hw'
    have hwon : wonTimes w' (.signalIdempotency signal kind)
        = wonTimes w (.signalIdempotency signal kind) ++ [w.clock] := by
      simp [hw', handle, wonTimes, Store.setNX_won hget]
    have hlapsed : ∀ t ∈ wonTimes w (.signalIdempotency signal kind),
        t + signalIdempotencyTtlSeconds ≤ w.clock := by
      intro t ht
      obtain ⟨u, lapse, hslot, hle⟩ := h.held t ht
      simp only [Store.get, hslot, Store.live] at hget
      split_ifs at hget with hlt
      omega
    have hslot : w'.redis.slot (.signalIdempotency signal kind)
        = some (v, some (w.clock + signalIdempotencyTtlSeconds)) := by
      simp [hw', handle, Store.setNX_won hget, Store.setEx]
    refine ⟨?_, ?_, ?_, ?_, ?_⟩
    · have hcount : (bs.set i true).count true ≤ bs.count true + 1 := by
        rw [count_set hlt]
        simp only [beq_self_eq_true, if_true]
        omega
      have horders : ordersFor w' signal kind = ordersFor w signal kind := rfl
      have hcredit := h.credit
      rw [hwon, horders]
      simp only [Option.isNone_none, Bool.or_true, length_append, length_singleton]
      omega
    · rw [hwon]
      intro t ht
      rcases mem_concat.1 ht with ht | rfl
      · exact h.past t ht
      · exact le_rfl
    · rw [hwon, pairwise_append]
      refine ⟨h.apart, pairwise_singleton _ _, fun t ht t' ht' => ?_⟩
      rw [mem_singleton.1 ht']
      exact hlapsed t ht
    · rw [hwon]
      intro hnil
      simp at hnil
    · rw [hwon, hslot]
      intro t ht
      refine ⟨v, _, rfl, ?_⟩
      rcases mem_concat.1 ht with ht | rfl
      · exact (hlapsed t ht).trans (Nat.le_add_right _ _)
      · exact le_rfl

theorem ClaimInv.placeOrder {i : Nat} {b : Bool}
    {c : OrderCall} (h : ClaimInv signal kind slot₀ w bs) (hi : bs[i]? = some b)
    (hmay : c.origin.slot = some (signal, kind) → b = true) :
    ClaimInv signal kind slot₀ (handle w (.placeOrder c)).2
      (bs.set i (b && c.origin.slot ≠ some (signal, kind))) := by
  obtain ⟨hlt, rfl⟩ := List.getElem?_eq_some_iff.1 hi
  by_cases hc : c.origin.slot = some (signal, kind)
  · refine ⟨?_, h.past, h.apart, h.free, h.held⟩
    have hb := hmay hc
    have hpos : 0 < bs.count true := count_pos_iff.2 (hb ▸ getElem_mem hlt)
    have horders : ordersFor (handle w (.placeOrder c)).2 signal kind
        = ordersFor w signal kind ++ [c] := by
      simp [handle, ordersFor, hc]
    have hwon : wonTimes (handle w (.placeOrder c)).2 (.signalIdempotency signal kind)
        = wonTimes w (.signalIdempotency signal kind) := rfl
    have hcredit := h.credit
    rw [horders, hwon, count_set hlt]
    simp only [hb, hc]
    simp
    omega
  · refine h.congr ?_ rfl rfl le_rfl ?_
    · simp [handle, ordersFor, hc]
    · simp [hc]

theorem claimInv_handle {i : Nat} {b : Bool} {r : Request}
    (h : ClaimInv signal kind slot₀ w bs) (hi : bs[i]? = some b)
    (hmay : (claimMonitor signal kind).may b r) :
    ∃ b', (claimMonitor signal kind).next b r (handle w r).1 b'
      ∧ ClaimInv signal kind slot₀ (handle w r).2 (bs.set i b') := by
  have hself : (bs.set i b).count true ≤ bs.count true := by
    obtain ⟨hlt, rfl⟩ := List.getElem?_eq_some_iff.1 hi
    rw [set_getElem_self hlt]
  have hdb := fromDb_handle (D := fun _ => True) (w := w) trivial r
  cases r with
  | placeOrder c => exact ⟨_, ⟨hdb, rfl⟩, h.placeOrder hi hmay⟩
  | redisSetNX k v ttl =>
    by_cases hk : k = .signalIdempotency signal kind
    · subst hk
      obtain rfl := hmay rfl
      refine ⟨_, ⟨hdb, rfl⟩, ?_⟩
      simpa [handle] using h.setNX hi
    · refine ⟨b, ⟨hdb, by simp [hk]⟩, ?_⟩
      refine h.congr rfl ?_ (handle_slot (by simpa [Request.writes] using hk)) le_rfl hself
      simp [handle, wonTimes, hk]
  | redisSet | redisSetEx | redisDel | redisIncr =>
    exact ⟨b, ⟨hdb, rfl⟩, h.congr rfl rfl (handle_slot (by
      simpa [Request.writes, claimMonitor] using hmay)) le_rfl hself⟩
  | _ => exact ⟨b, ⟨hdb, rfl⟩, h.congr rfl rfl rfl le_rfl hself⟩

variable {cfg : Settings} {sha256 : String → String} {P P' : Pool}

theorem claimInv_run (signal : SignalId) (kind : ClaimKind) {moves : List (Move Task EnvMove)}
    (hP : P.threads = []) (horders : P.shared.orders = []) (hclaims : P.shared.claims = [])
    (h : Run (system cfg sha256).next (fun _ _ => True) P moves P') :
    ∃ bs, ClaimInv signal kind (P.shared.redis.slot (.signalIdempotency signal kind))
      P'.shared bs := by
  have hstart : ClaimInv signal kind (P.shared.redis.slot (.signalIdempotency signal kind))
      P.shared [] := by
    have hwon : wonTimes P.shared (.signalIdempotency signal kind) = [] := by
      simp [wonTimes, hclaims]
    refine ⟨?_, ?_, ?_, fun _ => rfl, ?_⟩ <;> simp [ordersFor, horders, hwon]
  refine Monitored.rel_states (h.invariant
    (I := Monitored (claimMonitor signal kind) (fun _ _ => True)
    (onStates (ClaimInv signal kind (P.shared.redis.slot (.signalIdempotency signal kind))))) ?_
    (monitored_of_no_threads hP hstart))
  intro Q m Q' hQ _ hm
  refine hQ.next_states hm ?_ ?_ ?_ ?_
  · intro t bs _ _ hG
    exact ⟨false, trivial, task_follows cfg sha256 t false,
      hG.congr rfl rfl rfl le_rfl (by simp)⟩
  · intro i t r k bs b _ _ hi _ hG hmay
    obtain ⟨b', hn, hG'⟩ := claimInv_handle hG hi hmay
    exact ⟨b', trivial, hn, hG'⟩
  · intro i bs _ hG
    exact hG.congr rfl rfl rfl le_rfl ((eraseIdx_sublist bs i).count_le true)
  · intro e s bs _ he hG
    cases e with
    | tick n =>
      cases he
      exact hG.congr rfl rfl rfl (Nat.le_add_right _ _) le_rfl
    | ack msg =>
      cases he
      exact hG.congr rfl rfl rfl le_rfl le_rfl

end Runs

section Attempts

variable {α : Type}

/-- An attempt that fails in the checks changes nothing; one that passes them and finds the slot
free sends its order. -/
def ClaimsAfter (checks : Code Unit) (key : RedisKey) (origin : Origin) (attempt : Code α) : Prop :=
  ∀ w : World,
    (∀ e, (checks.exec w).1 = .error e → (attempt.exec w).1 = .error e
      ∧ (attempt.exec w).2.redis = w.redis ∧ (attempt.exec w).2.orders = w.orders)
    ∧ ((checks.exec w).1 = .ok () → w.redis.get w.clock key = none →
      ∃ c : OrderCall, c.origin = origin ∧ (attempt.exec w).2.orders = w.orders ++ [c])

theorem exec_claim {w : World} {signal : SignalId} {kind : ClaimKind}
    (h : w.redis.get w.clock (.signalIdempotency signal kind) = none) :
    ∃ w', (checkAndSetSignalIdempotent signal kind).exec w = (.ok true, w')
      ∧ w'.orders = w.orders := by
  refine ⟨_, Prod.ext ?_ rfl, rfl⟩
  simp [checkAndSetSignalIdempotent, Code.exec, handle, h]

theorem exec_placeOrder_orders {rest : OrderResponse → Code α} (c : OrderCall)
    (hrest : ∀ x, (rest x).AsksIn Books) (w : World) :
    ((placeOrder c >>= rest).exec w).2.orders = w.orders ++ [c] := by
  have hplace : (placeOrder c).exec w = (w.env.place w.asked c, (handle w (.placeOrder c)).2) := by
    simp only [placeOrder, Code.exec, run_bind, handle, run_perform]
    cases w.env.place w.asked c <;> rfl
  cases hx : w.env.place w.asked c with
  | ok response =>
    rw [exec_bind_ok (hx ▸ hplace), exec_books_orders (hrest response)]
    rfl
  | error e =>
    rw [exec_bind_error (hx ▸ hplace)]
    rfl

theorem claimsAfter_of_bind {checks claim : Code Unit} {key : RedisKey} {c : OrderCall}
    {rest : OrderResponse → Code α} (hchecks : checks.AsksIn Reads)
    (hclaim : ∀ w : World, w.redis.get w.clock key = none →
      ∃ w', claim.exec w = (.ok (), w') ∧ w'.orders = w.orders)
    (hrest : ∀ x, (rest x).AsksIn Books) :
    ClaimsAfter checks key c.origin
      (checks >>= fun _ => claim >>= fun _ => placeOrder c >>= rest) := by
  intro w
  have hw := exec_reads hchecks w
  constructor
  · intro e he
    have hexec : checks.exec w = (.error e, { w with asked := (checks.exec w).2.asked }) :=
      Prod.ext he hw
    rw [exec_bind_error hexec]
    exact ⟨rfl, rfl, rfl⟩
  · intro hok hfree
    have hexec : checks.exec w = (.ok (), { w with asked := (checks.exec w).2.asked }) :=
      Prod.ext hok hw
    obtain ⟨w', hclaimed, horders⟩ := hclaim { w with asked := (checks.exec w).2.asked } hfree
    refine ⟨c, rfl, ?_⟩
    rw [exec_bind_ok hexec, exec_bind_ok hclaimed, exec_placeOrder_orders c hrest, horders]

theorem livePlaceOrder_claimsAfter {cfg : Settings} {o : LiveOrder} {id : SignalId}
    (hid : o.signalId = some id) :
    ClaimsAfter (preTradeChecks cfg o) (.signalIdempotency id o.actionKind) o.origin
      (livePlaceOrder cfg o) := by
  refine claimsAfter_of_bind (preTradeChecks_reads cfg o) (fun w hfree => ?_)
    fun x => confirmEntryFill_books o x
  obtain ⟨w', hexec, horders⟩ := exec_claim hfree
  refine ⟨w', ?_, horders⟩
  unfold claimOrder
  rw [hid]
  exact exec_bind_ok hexec

theorem placeCloseOrder_claimsAfter (broker : CredentialId) (sig : StrategySignal)
    (side : OrderSide) (qty : Int) (product : ProductType) (origin : Origin) :
    ClaimsAfter (closeChecks broker sig.symbol) (.signalIdempotency sig.id .exit) origin
      (placeCloseOrder (some broker) sig side qty product origin) := by
  refine claimsAfter_of_bind (closeChecks_reads _ _) (fun w hfree => ?_)
    fun x => asksIn_bind (books_of_reads (confirmFill_reads _ _)) fun _ => asksIn_pure _
  obtain ⟨w', hexec, horders⟩ := exec_claim hfree
  exact ⟨w', exec_bind_ok hexec, horders⟩

end Attempts

theorem length_le_one_of_apart {ts : List Nat} {ttl now : Nat}
    (hapart : ts.Pairwise fun t t' => t + ttl ≤ t') (hpast : ∀ t ∈ ts, t ≤ now)
    (hlive : ∀ t ∈ ts, now < t + ttl) : ts.length ≤ 1 := by
  match ts, hapart with
  | [], _ => exact Nat.zero_le 1
  | [_], _ => exact le_rfl
  | t :: t' :: _, hapart =>
    have h1 := (pairwise_cons.1 hapart).1 t' mem_cons_self
    have h2 := hpast t' (by simp)
    have h3 := hlive t (by simp)
    omega

/-- However a signal's task is delivered, retried or crashes, at most one order goes out for it
while the claims won are live, and both order functions claim only after their checks. -/
theorem one_order_per_signal (cfg : Settings) (sha256 : String → String) (signal : SignalId)
    (kind : ClaimKind) :
    (∀ (P P' : Pool) (moves : List (Move Task EnvMove)), P.threads = [] →
      P.shared.orders = [] → P.shared.claims = [] →
      Run (system cfg sha256).next (fun _ _ => True) P moves P' →
      ((∀ t ∈ wonTimes P'.shared (.signalIdempotency signal kind),
          P'.shared.clock < t + signalIdempotencyTtlSeconds) →
        (ordersFor P'.shared signal kind).length ≤ 1)
      ∧ (wonTimes P'.shared (.signalIdempotency signal kind) = [] →
        P'.shared.redis.slot (.signalIdempotency signal kind)
            = P.shared.redis.slot (.signalIdempotency signal kind)
          ∧ ordersFor P'.shared signal kind = []))
    ∧ (∀ o : LiveOrder, o.signalId = some signal → o.actionKind = kind →
      ClaimsAfter (preTradeChecks cfg o) (.signalIdempotency signal kind) o.origin
        (livePlaceOrder cfg o))
    ∧ (∀ (broker : CredentialId) (sig : StrategySignal) (side : OrderSide) (qty : Int)
        (product : ProductType) (origin : Origin), sig.id = signal → kind = .exit →
      ClaimsAfter (closeChecks broker sig.symbol) (.signalIdempotency signal kind) origin
        (placeCloseOrder (some broker) sig side qty product origin)) := by
  refine ⟨fun P P' moves hP horders hclaims hrun => ?_, fun o hid hkind => ?_,
    fun broker sig side qty product origin hsig hkind => ?_⟩
  · obtain ⟨bs, hinv⟩ := claimInv_run signal kind hP horders hclaims hrun
    have hcredit := hinv.credit
    constructor
    · intro hlive
      have hwon := length_le_one_of_apart hinv.apart hinv.past hlive
      omega
    · intro hnone
      refine ⟨hinv.free hnone, length_eq_zero_iff.1 ?_⟩
      rw [hnone, length_nil] at hcredit
      omega
  · subst hkind
    exact livePlaceOrder_claimsAfter hid
  · subst hsig hkind
    exact placeCloseOrder_claimsAfter broker sig side qty product origin

def sampleOrder : LiveOrder where
  broker := 7
  symbol := "NIFTY"
  side := .buy
  quantity := 4
  lotSize := 1
  productType := .margin
  signalId := some 100
  actionKind := .entry
  orderType := .market
  limitPrice := none
  origin := .entry 100 1 10

def Environment.loggedOut : Environment where
  answer n
    | .isSessionValid _ => .ok false
    | .login _ => .error (.brokerSessionExpired "login failed")
    | q => (Environment.willing filled).answer n q
  place := (Environment.willing filled).place

/-- Two deliveries side by side send one order. A broker that is logged out fails before the
claim. -/
theorem one_order_two_deliveries :
    (∃ P' : Pool, Run (system sampleSettings id).next (fun _ _ => True)
      ⟨{ sampleWorld (.willing filled) with queue := [⟨100, .entry⟩] }, []⟩
      ([.spawn (.worker ⟨100, .entry⟩), .spawn (.worker ⟨100, .entry⟩)]
        ++ List.replicate 12 (.step 0) ++ List.replicate 12 (.step 1)
        ++ List.replicate 10 (.step 0)) P'
      ∧ P'.shared.claims.map (·.won) = [true, false]
      ∧ (ordersFor P'.shared 100 .entry).length ≤ 1)
    ∧ (((livePlaceOrder sampleSettings sampleOrder).exec (sampleWorld .loggedOut)).2.orders = []
      ∧ ∃ c : OrderCall, ((livePlaceOrder sampleSettings sampleOrder).exec
        (sampleWorld (.willing filled))).2.orders = [c])
    ∧ (((placeCloseOrder (some 7) (sampleSignal 101 "EXIT") .sell 4 .margin
        (.directExit 101 1 200)).exec (sampleWorld .loggedOut)).2.orders = []
      ∧ ∃ c : OrderCall, ((placeCloseOrder (some 7) (sampleSignal 101 "EXIT") .sell 4 .margin
        (.directExit 101 1 200)).exec (sampleWorld (.willing filled))).2.orders = [c]) := by
  refine ⟨?_, ?_, ?_⟩
  · obtain ⟨P', hrun, hclaims, hlive⟩ : ∃ P' : Pool,
        Run (system sampleSettings id).next (fun _ _ => True)
          ⟨{ sampleWorld (.willing filled) with queue := [⟨100, .entry⟩] }, []⟩
          ([.spawn (.worker ⟨100, .entry⟩), .spawn (.worker ⟨100, .entry⟩)]
            ++ List.replicate 12 (.step 0) ++ List.replicate 12 (.step 1)
            ++ List.replicate 10 (.step 0)) P'
        ∧ P'.shared.claims.map (·.won) = [true, false]
        ∧ ∀ t ∈ wonTimes P'.shared (.signalIdempotency 100 .entry),
          P'.shared.clock < t + signalIdempotencyTtlSeconds := by decide +kernel
    exact ⟨P', hrun, hclaims,
      ((one_order_per_signal sampleSettings id 100 .entry).1 _ P' _ rfl rfl rfl hrun).1 hlive⟩
  · have h := (one_order_per_signal sampleSettings id 100 .entry).2.1 sampleOrder rfl rfl
    obtain ⟨c, -, hc⟩ := (h (sampleWorld (.willing filled))).2 (by decide +kernel) rfl
    exact ⟨((h (sampleWorld .loggedOut)).1 (.brokerSessionExpired "login failed")
      (by decide +kernel)).2.2, c, hc⟩
  · have h := (one_order_per_signal sampleSettings id 101 .exit).2.2 7 (sampleSignal 101 "EXIT")
      .sell 4 .margin (.directExit 101 1 200) rfl rfl
    obtain ⟨c, -, hc⟩ := (h (sampleWorld (.willing filled))).2 (by decide +kernel) rfl
    exact ⟨((h (sampleWorld .loggedOut)).1 (.brokerSessionExpired "login failed")
      (by decide +kernel)).2.2, c, hc⟩

end TradingBridge
