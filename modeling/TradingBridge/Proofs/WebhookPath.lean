import TradingBridge.Proofs.Conduct

/-!
# The path of a request

A request run to its end either stops before its signal is stored, with nothing changed but the
slot it may have claimed (`Untouched`), or it stores the signal and goes on with the market shield,
the queue and the fan-out (`receive_cases`). What the shield does is read off the held exit it
finds (`afterRelease`, `queueSignal_cases`).
-/

namespace TradingBridge

open Effectful Prog

variable {cfg : Settings} {sha256 : String → String} {request : SignalRequest} {w w' : World}

/-- The world but for the count of questions and the slots of requests. -/
structure Untouched (w w' : World) : Prop where
  db : w'.db = w.db
  clock : w'.clock = w.clock
  queue : w'.queue = w.queue
  env : w'.env = w.env
  slot : ∀ k, (∀ hash, k ≠ .idem hash) → w'.redis.slot k = w.redis.slot k

theorem Untouched.get (h : Untouched w w') {k : RedisKey} (hk : ∀ hash, k ≠ .idem hash) :
    w'.redis.get w'.clock k = w.redis.get w.clock k := by
  rw [Expiring.Store.get, Expiring.Store.get, h.slot k hk, h.clock]

theorem Untouched.trans {w'' : World} (h : Untouched w w') (h' : Untouched w' w'') :
    Untouched w w'' :=
  ⟨h'.db.trans h.db, h'.clock.trans h.clock, h'.queue.trans h.queue, h'.env.trans h.env,
    fun k hk => (h'.slot k hk).trans (h.slot k hk)⟩

theorem untouched_of_looks {α : Type} {c : Code α} (h : c.AsksIn Looks) (w : World) :
    Untouched w (c.exec w).2 := by
  rw [exec_looks h w]
  exact ⟨rfl, rfl, rfl, rfl, fun _ _ => rfl⟩

theorem untouched_of_reads {α : Type} {c : Code α} (h : c.AsksIn Reads) (w : World) :
    Untouched w (c.exec w).2 := untouched_of_looks (asksIn_mono (fun _ => Reads.looks) h) w

theorem untouched_claim (hash : String) (w : World) :
    Untouched w ((setIdempotencyKey hash).exec w).2 :=
  ⟨rfl, rfl, rfl, rfl, fun _ hk => handle_slot fun h => hk hash (Option.some.inj h).symm⟩

theorem of_exec_reads {α : Type} {c : Code α} {P : α → Prop} {a : α}
    (h : c.Yields Reads (FromDb (· = w.db)) P) (hc : c.exec w = (.ok a, w')) : P a := by
  have hwp := h.wp (M := serving handle) (I := fun v => v.db = w.db)
    (Q := fun x _ => ∀ a, x = .ok a → P a) (fun _ _ _ _ => trivial) (fun v r _ _ hv hr hn => ?_)
    (fun a _ ha _ b hb => Except.ok.inj hb ▸ ha) (fun _ _ _ _ hb => nomatch hb) rfl
  · exact wp_serving.1 hwp a (congrArg Prod.fst hc)
  · obtain ⟨rfl, rfl⟩ := hn
    refine ⟨?_, fromDb_handle (D := (· = w.db)) hv r⟩
    cases r with
    | db f => rw [← hv]; exact hr v.db
    | redisGet | clock | ask => exact hv
    | _ => exact hr.elim

theorem signalGates_yields {D : Db → Prop} (t : WebhookToken) :
    (signalGates cfg t).Yields Reads (FromDb D) fun strategy =>
      ∃ d, D d ∧ resolveStrategy t.userId t.id d = some strategy := by
  refine yields_bind (readDb_reads _).yields fun _ _ => yields_bind (require_asksIn _ _ _).yields
    fun _ _ => yields_bind (checkMaxDailyTrades_reads _).yields fun _ _ => yields_bind
    (require_asksIn _ _ _).yields fun _ _ => yields_bind
   
    (yields_perform fun _ => rfl) fun found hfound => ?_
  split
  · exact yields_throw _
  obtain ⟨d, hD, hd⟩ := hfound
  exact yields_bind now_reads.yields fun _ _ => yields_bind (require_asksIn _ _ _).yields
    fun _ _ => yields_pure ⟨d, hD, hd.symm⟩

/-- What is left of a request that is past its gates. -/
def storeSignal (cfg : Settings) (t : WebhookToken) (strategy : Strategy) (payload : Body)
    (valid : ValidPayload) (hash : String) : Code SignalAnswer := do
  let ts ← now
  let signal ← persistSignal (signalRow t strategy payload valid ts)
  let queued ← dispatchStored cfg strategy signal valid.action.canonical.2
  fanOutSignal cfg signal strategy hash
  mark (.accepted hash signal.id)
  return .accepted signal.id queued

def SignalRequest.strategyIn (request : SignalRequest) (d : Db) : Option Strategy :=
  (request.tokenIn d).bind fun t => resolveStrategy t.userId t.id d

/-- The request ends as `x` with its signal not stored. -/
def Stops (w : World) (x : Except AppError SignalAnswer × World) : Prop :=
  Untouched w x.2 ∧ ∀ id queued, x.1 ≠ .ok (.accepted id queued)

theorem Stops.of_error {e : AppError} (h : Untouched w w') : Stops w (.error e, w') :=
  ⟨h, fun _ _ => nofun⟩

theorem processSignal_cases (cfg : Settings) (t : WebhookToken) (body : Body) (hash : String)
    (w : World) : Stops w ((processSignal cfg t body hash).exec w) ∨
      ∃ strategy payload valid w', Untouched w w' ∧ resolveStrategy t.userId t.id w.db
          = some strategy ∧ (processSignal cfg t body hash).exec w
            = (storeSignal cfg t strategy payload valid hash).exec w' := by
  have hlook : (killSwitchGate t.userId).AsksIn Looks := killSwitchGate_asksIn trivial
  have h₁ := untouched_of_looks hlook w
  unfold processSignal
  rcases hgate : (killSwitchGate t.userId).exec w with ⟨_ | _, w₁⟩ <;> rw [hgate] at h₁
  · rw [exec_bind_error hgate]
    exact .inl (.of_error h₁)
  rw [exec_bind_ok hgate]
  have h₂ := untouched_of_reads (signalGates_reads cfg t) w₁
  rcases hgates : (signalGates cfg t).exec w₁ with ⟨_ | strategy, w₂⟩ <;> rw [hgates] at h₂
  · rw [exec_bind_error hgates]
    exact .inl (.of_error (h₁.trans h₂))
  rw [exec_bind_ok hgates]
  have h₃ := untouched_of_reads (preparePayload_reads strategy body) w₂
  rcases hbody : (preparePayload strategy body).exec w₂ with ⟨_ | ⟨payload, valid⟩, w₃⟩ <;>
    rw [hbody] at h₃
  · rw [exec_bind_error hbody]
    exact .inl (.of_error ((h₁.trans h₂).trans h₃))
  rw [exec_bind_ok hbody]
  obtain ⟨d, rfl, hd⟩ := of_exec_reads (signalGates_yields t) hgates
  rw [h₁.db] at hd
  exact .inr ⟨strategy, payload, valid, w₃, (h₁.trans h₂).trans h₃, hd, rfl⟩

theorem receive_cases (cfg : Settings) (sha256 : String → String) (request : SignalRequest)
    (w : World) :
    Stops w ((receiveStrategySignal cfg sha256 request).exec w) ∨
      ∃ t strategy payload valid hash w', Untouched w w' ∧ request.strategyIn w.db = some strategy
        ∧ (receiveStrategySignal cfg sha256 request).exec w
          = (storeSignal cfg t strategy payload valid hash).exec w' := by
  have h₁ := untouched_of_reads (authenticate_reads cfg request) w
  unfold receiveStrategySignal
  rcases hauth : (authenticate cfg request).exec w with ⟨_ | ⟨t, body⟩, w₁⟩ <;> rw [hauth] at h₁
  · rw [exec_bind_error hauth]
    exact .inl (.of_error h₁)
  rw [exec_bind_ok hauth]
  obtain ⟨-, d, rfl, ht⟩ := of_exec_reads (authenticate_yields cfg request) hauth
  have h₂ := h₁.trans (untouched_claim
    (computeStrategySignalHash sha256 t.userId body request.rawBody) w₁)
  rcases hclaim : (setIdempotencyKey
    (computeStrategySignalHash sha256 t.userId body request.rawBody)).exec w₁ with ⟨_ | won, w₂⟩ <;>
    rw [hclaim] at h₂
  · rw [exec_bind_error hclaim]
    exact .inl (.of_error h₂)
  rw [exec_bind_ok hclaim]
  cases won with
  | false =>
    exact .inl ⟨⟨h₂.db, h₂.clock, h₂.queue, h₂.env, h₂.slot⟩, fun _ _ => nofun⟩
  | true =>
    rcases processSignal_cases cfg t body
      (computeStrategySignalHash sha256 t.userId body request.rawBody) w₂ with
      ⟨h₃, hx⟩ | ⟨strategy, payload, valid, w₃, h₃, hd, hx⟩
    · exact .inl ⟨h₂.trans h₃, hx⟩
    · refine .inr ⟨t, strategy, payload, valid, _, w₃, h₂.trans h₃, ?_, hx⟩
      rw [SignalRequest.strategyIn, ht]
      rw [h₂.db] at hd
      exact hd

section Shield

variable {s : StrategyId} {signal : StrategySignal} {kind : SignalKind}

def World.heldExit (w : World) (s : StrategyId) : Option HoldRecord :=
  match w.redis.get w.clock (.heldExit s) with
  | some (.held record) => some record
  | _ => none

/-- The held exit a webhook with this price finds due. -/
def World.dueExit (w : World) (s : StrategyId) (price : Option ℚ) : Option HoldRecord :=
  (w.heldExit s).filter (·.due w.clock price)

/-- The world once the held exit is dropped from the record and queued. -/
def World.release (w : World) (s : StrategyId) (record : HoldRecord) : World :=
  { w with redis := w.redis.del (.heldExit s), queue := w.queue ++ [⟨record.signalId, .exit⟩] }

/-- What the release leaves, with the shield on or off. -/
def afterRelease (cfg : Settings) (s : StrategyId) (payload : Payload) (w : World) : World :=
  if cfg.marketShieldEnabled then
    ((w.dueExit s (releasePrice payload.price)).map (w.release s)).getD w
  else w

theorem dispatchStored_exec (cfg : Settings) (strategy : Strategy) (signal : StrategySignal)
    (kind : SignalKind) (w : World) : (dispatchStored cfg strategy signal kind).exec w
      = (queueSignal cfg strategy.id signal kind).exec
        (afterRelease cfg strategy.id signal.rawPayload w) := by
  unfold dispatchStored releasePass afterRelease
  split_ifs
  · have hread : (tryRelease strategy.id (releasePrice signal.rawPayload.price)).exec w
        = match w.dueExit strategy.id (releasePrice signal.rawPayload.price) with
          | some record =>
            (.ok (some record.signalId), { w with redis := w.redis.del (.heldExit strategy.id) })
          | none => (.ok none, w) := by
      unfold tryRelease World.dueExit World.heldExit
      rw [exec_perform]
      simp only [handle]
      split
      · rename_i record hget
        rw [hget]
        simp only [exec_now, Option.filter_some]
        split_ifs <;> rfl
      · rename_i hget
        split
        · rename_i record _ hfilter
          split at hfilter
          · rename_i record' hget'
            exact absurd hget' (hget record')
          · cases hfilter
        · rfl
    rcases hdue : w.dueExit strategy.id (releasePrice signal.rawPayload.price) with _ | record <;>
      rw [hdue] at hread <;> rw [exec_bind_ok hread] <;> rfl
  · rfl

theorem evaluateBreadth_total : evaluateBreadth.Total :=
  total_bind (total_mapEach fun _ _ => ⟨trivial, fun a _ _ => ⟨a, rfl⟩⟩) fun _ => total_pure _

def HoldRecord.of (signal : StrategySignal) (side : String) (p : StrategyPosition) (t : Nat) :
    HoldRecord :=
  ⟨signal.id, side, p.avgEntryPrice.getD 0, holdAtr signal.rawPayload p, t + holdMaxSeconds⟩

theorem maybeHoldExit_cases (s : StrategyId) (signal : StrategySignal) (w : World) :
    (∃ n, (maybeHoldExit s signal).exec w = (.ok false, { w with asked := n })) ∨
      ∃ n side p, payloadSide signal = .ok side
        ∧ getOpenPosition s signal.symbol side w.db = some p ∧ 0 < p.remainingQuantity
        ∧ (maybeHoldExit s signal).exec w = (.ok true, { w with
            asked := n
            redis := w.redis.setEx w.clock (.heldExit s)
              (.held (.of signal side p w.clock)) holdTtlSeconds }) := by
  unfold maybeHoldExit
  dsimp only
  split_ifs with hside
  · exact .inl ⟨w.asked, rfl⟩
  rw [exec_readDb]
  split
  · exact .inl ⟨w.asked, rfl⟩
  rename_i p hp
  obtain ⟨hfound, hpos⟩ := Option.filter_eq_some_iff.1 hp
  split_ifs
  · exact .inl ⟨w.asked, rfl⟩
  obtain ⟨breadth, hbreadth⟩ := exec_total evaluateBreadth_total w
  rw [exec_reads evaluateBreadth_reads w] at hbreadth
  rw [exec_bind_ok hbreadth]
  split_ifs
  · refine .inr ⟨_, _, p, ?_, hfound, of_decide_eq_true hpos, rfl⟩
    unfold payloadSide
    rw [if_pos (by tauto)]
  · exact .inl ⟨_, rfl⟩

theorem holdPass_cases (cfg : Settings) (s : StrategyId) (signal : StrategySignal) (w : World) :
    (∃ n, (holdPass cfg s signal).exec w = (.ok none, { w with asked := n })) ∨
      ((w.redis.get w.clock (.heldExit s)).isSome
        ∧ (holdPass cfg s signal).exec w = (.ok (some .priorHold), w)) ∨
      ∃ n side p, cfg.marketShieldEnabled = true
        ∧ w.redis.get w.clock (.heldExit s) = none ∧ payloadSide signal = .ok side
        ∧ getOpenPosition s signal.symbol side w.db = some p ∧ 0 < p.remainingQuantity
        ∧ (holdPass cfg s signal).exec w = (.ok (some .held), { w with
            asked := n
            redis := w.redis.setEx w.clock (.heldExit s)
              (.held (.of signal side p w.clock)) holdTtlSeconds }) := by
  unfold holdPass
  split_ifs with hon
  · have hactive : (hasActiveHold s).exec w
        = (.ok (w.redis.get w.clock (.heldExit s)).isSome, w) := rfl
    rw [exec_bind_ok hactive]
    rcases w.redis.get w.clock (.heldExit s) with _ | v
    · rcases maybeHoldExit_cases s signal w with ⟨n, hn⟩ | ⟨n, side, p, hside, hp, hpos, hn⟩
      · exact .inl ⟨n, exec_bind_ok hn⟩
      · exact .inr (.inr ⟨n, side, p, hon, rfl, hside, hp, hpos, exec_bind_ok hn⟩)
    · exact .inr (.inl ⟨rfl, rfl⟩)
  · exact .inl ⟨w.asked, rfl⟩

theorem queueSignal_cases (cfg : Settings) (s : StrategyId) (signal : StrategySignal)
    (kind : SignalKind) (w : World) :
    (∃ n, (queueSignal cfg s signal kind).exec w
        = (.ok true, { w with asked := n, queue := w.queue ++ [⟨signal.id, kind⟩] })) ∨
      (kind = .exit ∧ (w.redis.get w.clock (.heldExit s)).isSome
        ∧ (queueSignal cfg s signal kind).exec w
          = (.ok false, { w with db := w.db.setSignalStatus signal.id .ignored })) ∨
      ∃ n side p, kind = .exit ∧ cfg.marketShieldEnabled = true
        ∧ w.redis.get w.clock (.heldExit s) = none ∧ payloadSide signal = .ok side
        ∧ getOpenPosition s signal.symbol side w.db = some p ∧ 0 < p.remainingQuantity
        ∧ (queueSignal cfg s signal kind).exec w
          = (.ok false, { w with
              asked := n
              db := w.db.setSignalStatus signal.id .held
              redis := w.redis.setEx w.clock (.heldExit s)
                (.held (.of signal side p w.clock)) holdTtlSeconds }) := by
  cases kind with
  | entry | partly | slHit => exact .inl ⟨w.asked, rfl⟩
  | exit =>
    unfold queueSignal
    rcases holdPass_cases cfg s signal w with
      ⟨n, hn⟩ | ⟨hsome, hn⟩ | ⟨n, side, p, hon, hnone, hside, hp, hpos, hn⟩ <;>
      rw [exec_bind_ok hn]
    · exact .inl ⟨n, rfl⟩
    · exact .inr (.inl ⟨rfl, hsome, rfl⟩)
    · exact .inr (.inr ⟨n, side, p, rfl, hon, hnone, hside, hp, hpos, rfl⟩)

end Shield

end TradingBridge
