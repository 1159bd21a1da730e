import TradingBridge.Proofs.HeldExit

/-!
# The daily cap

The webhook compares the day's count with the cap before it looks at the payload, so the gate is
the same for an entry and for an exit (`exit_refused_iff`).
-/

namespace TradingBridge

open Effectful Prog

section Gate

variable {cfg : Settings} {sha256 : String → String} {request : SignalRequest} {w : World}
  {α : Type}

/-- The user's enabled configuration has a cap that the day's count has reached. -/
def AtDailyCap (w : World) (user : UserId) : Prop :=
  ∃ c, w.db.config user = some c ∧ c.enabled = true
    ∧ c.maxDailyTrades ≤ countOf (w.redis.get w.clock (.trades user))

def capRefusal : AppError := .http 403 "Max daily trades reached."

/-- The body asks for a close. -/
def Body.Closes (body : Body) : Prop :=
  (strip (body.action.getD "")).toUpper ∈ ["PARTIAL", "EXIT", "SL_HIT"]

/-- The gates a request comes to before the cap: its slot, the kill switch, the account. -/
structure ComesToCap (sha256 : String → String) (request : SignalRequest) (t : WebhookToken)
    (body : Body) (w : World) : Prop where
  fresh : w.redis.get w.clock
    (.idem (computeStrategySignalHash sha256 t.userId body request.rawBody)) = none
  notTripped : w.redis.get w.clock (.kill t.userId) ≠ some (.status .tripped)
  active : (w.db.users.find? (·.id = t.userId)).any (·.isActive) = true

theorem exec_require (ok : Bool) (status : Nat) (detail : String) (k : Unit → Code α)
    (w : World) : (require ok status detail >>= k).exec w
      = if ok then (k ()).exec w else (.error (.http status detail), w) := by
  cases ok <;> rfl

theorem require_raises {ok : Bool} {status : Nat} {detail : String}
    (h : AppError.http status detail ≠ capRefusal) :
    (require ok status detail).Raises (· ≠ capRefusal) := by
  unfold require
  split_ifs
  · exact raises_pure ()
  · exact raises_throw h

theorem ofExcept_raises {x : Except AppError α} (h : ∀ e, x = .error e → e ≠ capRefusal) :
    (ofExcept x).Raises (· ≠ capRefusal) := by
  cases x with
  | ok a => exact raises_pure a
  | error e => exact raises_throw (h e rfl)

theorem authenticate_raises (cfg : Settings) (request : SignalRequest) :
    (authenticate cfg request).Raises (· ≠ capRefusal) := by
  refine raises_bind (raises_perform _) fun halted => raises_bind (require_raises (by decide))
    fun _ => raises_bind (raises_perform _) fun token => ?_
  split
  · exact raises_throw (by decide)
  refine raises_bind (raises_perform _) fun allowed => raises_bind (require_raises (by decide))
    fun _ => ?_
  split
  · exact raises_throw (by decide)
  · exact raises_throw (by decide)
  · exact raises_bind (require_raises (by decide)) fun _ => raises_pure _

theorem pineToNative_closes {action type native side : String}
    (haction : action ∈ ["PARTIAL", "EXIT", "SL_HIT"])
    (h : pineToNative (action, type) = some (native, side)) :
    native ∈ ["PARTIAL", "EXIT", "SL_HIT"] := by
  unfold pineToNative at h
  split at h <;> simp_all

theorem mapToTradetriPayload_closes {body mapped : Body} {strategy : Strategy}
    {lotSize : Option Int} {ts : Nat} (hbody : body.Closes)
    (h : mapToTradetriPayload body strategy lotSize ts = .ok mapped) : mapped.Closes := by
  unfold mapToTradetriPayload at h
  dsimp only at h
  split at h
  · cases h
  rename_i native side hnative
  cases h
  have hupper : ∀ action ∈ ["PARTIAL", "EXIT", "SL_HIT"],
      (strip action).toUpper ∈ ["PARTIAL", "EXIT", "SL_HIT"] := by decide +kernel
  exact hupper native (pineToNative_closes hbody hnative)

theorem preparePayload_raises (strategy : Strategy) {body : Body} (hbody : body.Closes) :
    (preparePayload strategy body).Raises (· ≠ capRefusal) := by
  have hrest : ∀ mapped : Body, mapped.Closes → (do
      let payload ← normalizeSignalSymbol strategy mapped
      let valid ← ofExcept (validatePayload payload)
      require (valid.quantity.all (· ≤ quantityCeilingContracts)) 400 "quantity_exceeds_ceiling"
      pure (payload, valid) : Code (Body × ValidPayload)).Raises (· ≠ capRefusal) := by
    intro mapped hmapped
    refine raises_bind ?_ fun payload => raises_bind (ofExcept_raises fun e he => ?_) fun valid =>
      raises_bind (require_raises (by decide)) fun _ => raises_pure _
    · unfold normalizeSignalSymbol
      rw [if_pos (by simpa [Body.Closes] using hmapped)]
      refine raises_bind (raises_perform _) fun held => ?_
      split <;> exact raises_pure _
    · unfold validatePayload at he
      split at he
      · split_ifs at he
        cases he
        decide
      · cases he
        decide
  refine raises_bind (raises_perform _) fun ts => ?_
  split_ifs
  · refine raises_bind (raises_perform _) fun lotSize => ?_
    rcases hmap : mapToTradetriPayload body strategy lotSize ts with e | mapped
    · refine raises_throw ?_
      unfold mapToTradetriPayload at hmap
      dsimp only at hmap
      split at hmap <;> cases hmap
      simp [capRefusal]
    · exact hrest mapped (mapToTradetriPayload_closes hbody hmap)
  · exact hrest body hbody

theorem checkMaxDailyTrades_exec (user : UserId) (w : World) :
    ∃ b, (checkMaxDailyTrades user).exec w = (.ok b, w) ∧ (b = false ↔ AtDailyCap w user) := by
  unfold checkMaxDailyTrades
  rw [exec_readDb]
  split
  · rename_i hnone
    refine ⟨true, rfl, nofun, fun ⟨c, hc, hen, _⟩ => ?_⟩
    rw [hc, Option.filter_some, if_pos hen] at hnone
    cases hnone
  · rename_i c hsome
    obtain ⟨hc, hen⟩ := Option.filter_eq_some_iff.1 hsome
    refine ⟨_, rfl, ?_⟩
    rw [decide_eq_false_iff_not, Nat.not_lt]
    refine ⟨fun h => ⟨c, hc, hen, h⟩, fun ⟨c', hc', _, hle⟩ => ?_⟩
    obtain rfl : c = c' := Option.some.inj (hc.symm.trans hc')
    exact hle

theorem signalGates_cap (cfg : Settings) (t : WebhookToken) (w : World) :
    ((signalGates cfg t).exec w).1 = .error capRefusal ↔
      (w.db.users.find? (·.id = t.userId)).any (·.isActive) = true ∧ AtDailyCap w t.userId := by
  unfold signalGates
  rw [exec_readDb, exec_require]
  split_ifs with hactive
  · obtain ⟨b, hcheck, hb⟩ := checkMaxDailyTrades_exec t.userId w
    rw [exec_bind_ok hcheck, exec_require]
    split_ifs with hbelow
    · -- the strategy and the market hours are refused with other errors
      refine ⟨fun h => absurd rfl (Raises.run (E := (· ≠ capRefusal)) ?_ w _ h), fun h => ?_⟩
      · refine raises_bind (raises_perform _) fun found => ?_
        split
        · exact raises_throw (by decide)
        · exact raises_bind (raises_perform _) fun _ => raises_bind
            (require_raises (by decide)) fun _ => raises_pure _
      · rw [hb.2 h.2] at hbelow
        cases hbelow
    · rw [Bool.not_eq_true] at hbelow
      exact ⟨fun _ => ⟨hactive, hb.1 hbelow⟩, fun _ => rfl⟩
  · refine ⟨fun h => ?_, fun h => absurd h.1 hactive⟩
    have htext : AppError.http 403 "User account is inactive." ≠ capRefusal := by decide
    exact absurd (Except.error.inj h) htext

theorem killSwitchGate_exec (user : UserId) (w : World) : (killSwitchGate user).exec w
    = if w.redis.get w.clock (.kill user) = some (.status .tripped) then
        (.error (.http 403 "Kill switch is TRIPPED - trading paused."), w)
      else (.ok (), w) := by
  unfold killSwitchGate
  rw [exec_bind_ok (getKillSwitchStatus_exec user w)]
  split_ifs <;> rfl

theorem Untouched.atDailyCap {w' : World} (h : Untouched w w') (user : UserId) :
    AtDailyCap w' user ↔ AtDailyCap w user := by
  rw [AtDailyCap, AtDailyCap, h.db, h.get (k := .trades user) nofun]

theorem storeSignal_raises (t : WebhookToken) (strategy : Strategy) (payload : Body)
    (valid : ValidPayload) (hash : String) {e : AppError} :
    ((storeSignal cfg t strategy payload valid hash).exec w).1 ≠ .error e := by
  obtain ⟨signal, queued, -, -, -, hx, -⟩ :=
    storeSignal_spec cfg t strategy payload valid hash w
  rw [hx]
  nofun

theorem processSignal_cap {t : WebhookToken} {body : Body} (hash : String) (hbody : body.Closes) :
    ((processSignal cfg t body hash).exec w).1 = .error capRefusal ↔
      w.redis.get w.clock (.kill t.userId) ≠ some (.status .tripped)
        ∧ (w.db.users.find? (·.id = t.userId)).any (·.isActive) = true
        ∧ AtDailyCap w t.userId := by
  unfold processSignal
  have hgate := killSwitchGate_exec t.userId w
  split_ifs at hgate with htripped
  · rw [exec_bind_error hgate]
    refine ⟨fun h => ?_, fun h => absurd htripped h.1⟩
    have htext : AppError.http 403 "Kill switch is TRIPPED - trading paused." ≠ capRefusal := by
      decide
    exact absurd (Except.error.inj h) htext
  rw [exec_bind_ok hgate, and_iff_right htripped, ← signalGates_cap cfg]
  rcases hgates : (signalGates cfg t).exec w with ⟨e | strategy, w₁⟩
  · rw [exec_bind_error hgates]
    exact ⟨fun h => congrArg _ (Except.error.inj h), fun h => congrArg _ (Except.error.inj h)⟩
  rw [exec_bind_ok hgates]
  refine ⟨fun h => ?_, fun h => nomatch h⟩
  rcases hprep : (preparePayload strategy body).exec w₁ with ⟨e | ⟨payload, valid⟩, w₂⟩
  · rw [exec_bind_error hprep] at h
    have hraises := (preparePayload_raises strategy hbody).run w₁ e (congrArg Prod.fst hprep)
    exact absurd (Except.error.inj h) hraises
  · rw [exec_bind_ok hprep] at h
    exact absurd h (storeSignal_raises t strategy payload valid hash)

/-- A close that comes to the cap is refused exactly when the day's count has reached it, whatever
positions are open. -/
theorem exit_refused_iff {body : Body} (hjson : request.json = some (some body))
    (hbody : body.Closes) :
    ((receiveStrategySignal cfg sha256 request).exec w).1 = .error capRefusal ↔
      ∃ t, ((authenticate cfg request).exec w).1 = .ok (t, body)
        ∧ ComesToCap sha256 request t body w ∧ AtDailyCap w t.userId := by
  unfold receiveStrategySignal
  have h₁ := untouched_of_reads (authenticate_reads cfg request) w
  rcases hauth : (authenticate cfg request).exec w with ⟨e | ⟨t, body'⟩, w₁⟩ <;> rw [hauth] at h₁
  · rw [exec_bind_error hauth]
    refine ⟨fun h => ?_, fun ⟨_, h, _⟩ => nomatch h⟩
    have hraises := (authenticate_raises cfg request).run w e (congrArg Prod.fst hauth)
    exact absurd (Except.error.inj h) hraises
  obtain ⟨hjson', -⟩ := of_exec_reads (authenticate_yields cfg request) hauth
  obtain rfl : body' = body := by
    rw [hjson] at hjson'
    exact (Option.some.inj (Option.some.inj hjson')).symm
  rw [exec_bind_ok hauth]
  set hash := computeStrategySignalHash sha256 t.userId body' request.rawBody
  have hget : w₁.redis.get w₁.clock (.idem hash) = w.redis.get w.clock (.idem hash) := by
    have hread := exec_reads (authenticate_reads cfg request) w
    rw [hauth] at hread
    rw [show w₁ = _ from hread]
  have hclaim : (setIdempotencyKey hash).exec w₁
      = (.ok (w.redis.get w.clock (.idem hash)).isNone, ((setIdempotencyKey hash).exec w₁).2) := by
    refine Prod.ext ?_ rfl
    rw [← hget, ← Expiring.Store.setNX_fst]
    rfl
  rw [exec_bind_ok hclaim]
  have h₂ := h₁.trans (untouched_claim hash w₁)
  rcases hfresh : w.redis.get w.clock (.idem hash) with _ | v
  · refine (processSignal_cap hash hbody).trans ?_
    rw [h₂.get (k := .kill t.userId) nofun, h₂.db, h₂.atDailyCap]
    refine ⟨fun ⟨hkill, hactive, hcap⟩ => ⟨t, rfl, ⟨hfresh, hkill, hactive⟩, hcap⟩, ?_⟩
    rintro ⟨t', ht', ⟨-, hkill, hactive⟩, hcap⟩
    obtain rfl : t = t' := congrArg Prod.fst (Except.ok.inj ht')
    exact ⟨hkill, hactive, hcap⟩
  · refine ⟨fun h => (nomatch h), ?_⟩
    rintro ⟨t', ht', hcomes, -⟩
    obtain rfl : t = t' := congrArg Prod.fst (Except.ok.inj ht')
    exact nomatch hfresh.symm.trans hcomes.fresh

end Gate

/-- The sample world with a cap of one trade a day. -/
def cappedWorld : World :=
  { sampleWorld (.willing filled) with
    db := { sampleDb with configs := [⟨10, true, 0, 1, true⟩] } }

def oneEntry : List Turn :=
  [.run (.webhook (sampleRequest 5 "ENTRY")), .run (.worker ⟨200, .entry⟩)]

/-- The entry is executed and its position open, and the exit is refused. -/
theorem exit_stranded_by_cap : ∃ w,
    Run (Turn.take sampleSettings id) (fun _ _ => True) cappedWorld oneEntry w
      ∧ (w.db.signal 200).map (·.status) = some .executed
      ∧ w.db.positions.any (fun p => p.signalId = some 200 ∧ p.isOpen) = true
      ∧ ((receiveStrategySignal sampleSettings id (sampleRequest 5 "EXIT")).exec w).1
        = .error capRefusal := by
  decide +kernel

theorem exit_refused_capped : ∃ t, ((authenticate sampleSettings (sampleRequest 5 "EXIT")).exec
      { cappedWorld with redis := Expiring.Store.empty.set (.trades 10) (.count 1) }).1
        = .ok (t, sampleBody "EXIT")
      ∧ AtDailyCap { cappedWorld with
        redis := Expiring.Store.empty.set (.trades 10) (.count 1) } t.userId := by
  have hclosed : (sampleBody "EXIT").Closes := by
    unfold Body.Closes
    decide +kernel
  have hrefused : ((receiveStrategySignal sampleSettings id (sampleRequest 5 "EXIT")).exec
      { cappedWorld with redis := Expiring.Store.empty.set (.trades 10) (.count 1) }).1
      = .error capRefusal := by decide +kernel
  obtain ⟨t, ht, -, hcap⟩ := (exit_refused_iff rfl hclosed).1 hrefused
  exact ⟨t, ht, hcap⟩

end TradingBridge
