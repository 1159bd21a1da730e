import TradingBridge.Proofs.WebhookPath

/-!
# Held exits

An exit on hold is a record in Redis that lapses. A webhook that finds the record live either
drops it and queues the exit, in one go, or leaves it as it is: another exit of the strategy is
ignored, not held in its place. So a hold can only be lost to the clock. It is when no webhook of
the strategy comes in the minute between its release time and the end of its record.
-/

namespace TradingBridge

open Effectful Prog Expiring

variable {cfg : Settings} {sha256 : String → String} {request : SignalRequest} {w w' : World}
  {s : StrategyId} {record : HoldRecord} {x : SignalId}

def Dispatches (cfg : Settings) (sha256 : String → String) (m : Message) (w : World)
    (l : Turn) : Prop :=
  ∃ w' sent, l.take cfg sha256 w = some w' ∧ w'.queue = w.queue ++ sent ∧ m ∈ sent

def HeldIn (d : Db) (x : SignalId) : Prop := ∃ row ∈ d.signals, row.id = x ∧ row.status = .held

def PutsOnHold (cfg : Settings) (sha256 : String → String) (request : SignalRequest)
    (x : SignalId) (w w' : World) : Prop :=
  (Turn.run (.webhook request)).take cfg sha256 w = some w' ∧ ¬ HeldIn w.db x ∧ HeldIn w'.db x

def Arrives (cfg : Settings) (sha256 : String → String) (s : StrategyId)
    (request : SignalRequest) (w : World) : Prop :=
  (request.strategyIn w.db).map (·.id) = some s ∧ ∃ id queued,
    ((receiveStrategySignal cfg sha256 request).exec w).1 = .ok (.accepted id queued)

def ClockBelow (e : Nat) (w : World) : Turn → Prop
  | .env (.tick n) => w.clock + n < e
  | _ => True

theorem webhook_take (request : SignalRequest) (w : World) :
    (Turn.run (.webhook request)).take cfg sha256 w
      = some ((receiveStrategySignal cfg sha256 request).exec w).2 :=
  congrArg some (exec_bind_pure _ _ w)

structure KeepsHolds (w w' : World) : Prop where
  queue : w'.queue = w.queue
  clock : w'.clock = w.clock
  signals : w'.db.signals = w.db.signals
  slot : ∀ s, w'.redis.slot (.heldExit s) = w.redis.slot (.heldExit s)

theorem KeepsHolds.trans {w'' : World} (h : KeepsHolds w w') (h' : KeepsHolds w' w'') :
    KeepsHolds w w'' :=
  ⟨h'.queue.trans h.queue, h'.clock.trans h.clock, h'.signals.trans h.signals,
    fun s => (h'.slot s).trans (h.slot s)⟩

theorem Untouched.keepsHolds (h : Untouched w w') : KeepsHolds w w' :=
  ⟨h.queue, h.clock, congrArg Db.signals h.db, fun _ => h.slot _ nofun⟩

def SameHold (s : StrategyId) (w w' : World) : Prop :=
  w'.clock = w.clock ∧ w'.redis.slot (.heldExit s) = w.redis.slot (.heldExit s)

theorem SameHold.trans {w'' : World} (h : SameHold s w w') (h' : SameHold s w' w'') :
    SameHold s w w'' := ⟨h'.1.trans h.1, h'.2.trans h.2⟩

theorem SameHold.heldExit (h : SameHold s w w') : w'.heldExit s = w.heldExit s := by
  rw [World.heldExit, World.heldExit, Store.get, Store.get, h.1, h.2]

theorem KeepsHolds.sameHold (h : KeepsHolds w w') (s : StrategyId) : SameHold s w w' :=
  ⟨h.clock, h.slot s⟩

theorem Mirrors.keepsHolds {r : Request} (h : Mirrors r) (w : World) :
    KeepsHolds w (handle w r).2 := by
  cases r with
  | db f =>
    have hsignals := congrArg Db.signals (h w.db).1
    exact ⟨rfl, rfl, hsignals, fun _ => rfl⟩
  | redisSetNX k v ttl =>
    obtain ⟨sub, token, rfl⟩ := h
    exact ⟨rfl, rfl, rfl, fun _ => handle_slot nofun⟩
  | redisSetEx k v ttl =>
    cases k with
    | ambiguousFill symbol => exact ⟨rfl, rfl, rfl, fun _ => handle_slot nofun⟩
    | _ => exact h.elim
  | redisGet | clock | ask => exact ⟨rfl, rfl, rfl, fun _ => rfl⟩
  | _ => exact h.elim

theorem exec_keepsHolds {α : Type} {c : Code α} (h : c.AsksIn Mirrors) (w : World) :
    KeepsHolds w (c.exec w).2 :=
  run_keeps (fun _ _ hr hv => hv.trans (hr.keepsHolds _)) h ⟨rfl, rfl, rfl, fun _ => rfl⟩

theorem fanOutSignal_total (cfg : Settings) (signal : StrategySignal) (strategy : Strategy)
    (hash : String) : (fanOutSignal cfg signal strategy hash).Total := by
  unfold fanOutSignal
  split_ifs
  · exact total_tryCatch _ fun _ => total_pure _
  · exact total_pure _

def World.store (w : World) (signal : StrategySignal) : World :=
  { w with db := { w.db with signals := w.db.signals ++ [signal], nextId := w.db.nextId + 1 } }

theorem storeSignal_spec (cfg : Settings) (t : WebhookToken) (strategy : Strategy)
    (payload : Body) (valid : ValidPayload) (hash : String) (w : World) :
    ∃ (signal : StrategySignal) (queued : Bool), signal.id = w.db.nextId
      ∧ signal.status = .received ∧ signal.strategyId = strategy.id
      ∧ ((storeSignal cfg t strategy payload valid hash).exec w).1
        = .ok (.accepted signal.id queued)
      ∧ KeepsHolds ((queueSignal cfg strategy.id signal valid.action.canonical.2).exec
          (afterRelease cfg strategy.id signal.rawPayload (w.store signal))).2
          ((storeSignal cfg t strategy payload valid hash).exec w).2 := by
  refine ⟨signalRow t strategy payload valid w.clock w.db.nextId, ?_⟩
  set signal := signalRow t strategy payload valid w.clock w.db.nextId
  have hstore : (storeSignal cfg t strategy payload valid hash).exec w = ((do
      let queued ← dispatchStored cfg strategy signal valid.action.canonical.2
      fanOutSignal cfg signal strategy hash
      mark (.accepted hash signal.id)
      return .accepted signal.id queued : Code SignalAnswer)).exec (w.store signal) := rfl
  rw [hstore]
  have hq := dispatchStored_exec cfg strategy signal valid.action.canonical.2
    (w.store signal)
  obtain ⟨b, v, hv⟩ : ∃ b v, (queueSignal cfg strategy.id signal valid.action.canonical.2).exec
      (afterRelease cfg strategy.id signal.rawPayload (w.store signal)) = (.ok b, v) := by
    rcases queueSignal_cases cfg strategy.id signal valid.action.canonical.2
      (afterRelease cfg strategy.id signal.rawPayload (w.store signal)) with
      ⟨n, h⟩ | ⟨-, -, h⟩ | ⟨n, side, p, -, -, -, -, -, -, h⟩ <;> exact ⟨_, _, h⟩
  rw [hv] at hq ⊢
  obtain ⟨u, hfan⟩ := exec_total (fanOutSignal_total cfg signal strategy hash) v
  rw [exec_bind_ok hq, exec_bind_ok hfan]
  refine ⟨b, rfl, rfl, rfl, rfl, ?_⟩
  exact (exec_keepsHolds (fanOutSignal_mirrors cfg signal strategy hash) v).trans
    ⟨rfl, rfl, rfl, fun _ => rfl⟩

section Webhooks

theorem afterRelease_cases (cfg : Settings) (s : StrategyId) (payload : Payload) (w : World) :
    (∃ record, w.dueExit s (releasePrice payload.price) = some record
        ∧ afterRelease cfg s payload w = w.release s record) ∨
      ((cfg.marketShieldEnabled = true → w.dueExit s (releasePrice payload.price) = none)
        ∧ afterRelease cfg s payload w = w) := by
  unfold afterRelease
  split_ifs with hon
  · rcases hdue : w.dueExit s (releasePrice payload.price) with _ | record
    · exact .inr ⟨fun _ => rfl, rfl⟩
    · exact .inl ⟨record, rfl, rfl⟩
  · exact .inr ⟨fun h => absurd h hon, rfl⟩

theorem sameHold_release {s' : StrategyId} (hne : s ≠ s') (w : World) (record : HoldRecord) :
    SameHold s w (w.release s' record) :=
  ⟨rfl, Function.update_of_ne (fun h => hne (RedisKey.heldExit.inj h)) _ _⟩

theorem get_heldExit (h : w.heldExit s = some record) :
    w.redis.get w.clock (.heldExit s) = some (.held record) := by
  unfold World.heldExit at h
  split at h
  · rename_i r hget
    rw [hget, Option.some.inj h]
  · cases h

theorem queueSignal_sameHold (signal : StrategySignal) (kind : SignalKind) (s' : StrategyId)
    (h : w.heldExit s = some record) :
    SameHold s w ((queueSignal cfg s' signal kind).exec w).2 := by
  rcases queueSignal_cases cfg s' signal kind w with
    ⟨n, hq⟩ | ⟨-, -, hq⟩ | ⟨n, side, p, -, -, hnone, -, -, -, hq⟩ <;> rw [hq]
  · exact ⟨rfl, rfl⟩
  · exact ⟨rfl, rfl⟩
  · have hne : s ≠ s' := by
      rintro rfl
      rw [get_heldExit h] at hnone
      cases hnone
    exact ⟨rfl, Function.update_of_ne (fun h => hne (RedisKey.heldExit.inj h)) _ _⟩

theorem queueSignal_queue (cfg : Settings) (signal : StrategySignal) (kind : SignalKind)
    (s : StrategyId) (w : World) :
    ∃ sent, ((queueSignal cfg s signal kind).exec w).2.queue = w.queue ++ sent := by
  rcases queueSignal_cases cfg s signal kind w with
    ⟨n, hq⟩ | ⟨-, -, hq⟩ | ⟨n, side, p, -, -, -, -, -, -, hq⟩ <;> rw [hq]
  · exact ⟨_, rfl⟩
  · exact ⟨[], (List.append_nil _).symm⟩
  · exact ⟨[], (List.append_nil _).symm⟩

theorem dueExit_eq_some {price : Option ℚ} (h : w.dueExit s price = some record) :
    w.heldExit s = some record := (Option.filter_eq_some_iff.1 h).1

variable {signal : StrategySignal}

theorem dispatches_of_release {t : WebhookToken} {strategy : Strategy} {payload : Body}
    {valid : ValidPayload} {hash : String} {v : World} (hv : Untouched w v)
    (hexec : (receiveStrategySignal cfg sha256 request).exec w
      = (storeSignal cfg t strategy payload valid hash).exec v)
    (hkeep : KeepsHolds ((queueSignal cfg strategy.id signal valid.action.canonical.2).exec
      (afterRelease cfg strategy.id signal.rawPayload (v.store signal))).2
      ((storeSignal cfg t strategy payload valid hash).exec v).2)
    (hrelease : afterRelease cfg strategy.id signal.rawPayload (v.store signal)
      = (v.store signal).release strategy.id record) :
    Dispatches cfg sha256 ⟨record.signalId, .exit⟩ w (.run (.webhook request)) := by
  obtain ⟨sent, hsent⟩ := queueSignal_queue cfg signal valid.action.canonical.2
    strategy.id (afterRelease cfg strategy.id signal.rawPayload (v.store signal))
  refine ⟨_, ⟨record.signalId, .exit⟩ :: sent, webhook_take request w, ?_, List.mem_cons_self⟩
  rw [hexec, hkeep.queue, hsent, hrelease, ← hv.queue]
  exact List.append_assoc _ _ _

theorem webhook_sameHold (h : w.heldExit s = some record)
    (ht : (Turn.run (.webhook request)).take cfg sha256 w = some w') :
    SameHold s w w'
      ∨ Dispatches cfg sha256 ⟨record.signalId, .exit⟩ w (.run (.webhook request)) := by
  rw [webhook_take, Option.some.injEq] at ht
  subst ht
  rcases receive_cases cfg sha256 request w with
    ⟨hsame, -⟩ | ⟨t, strategy, payload, valid, hash, v, hv, -, hexec⟩
  · exact .inl (hsame.keepsHolds.sameHold s)
  obtain ⟨signal, -, -, -, -, -, hkeep⟩ := storeSignal_spec cfg t strategy payload valid hash v
  have hstored : SameHold s w (v.store signal) := hv.keepsHolds.sameHold s
  have hleft : SameHold s w (afterRelease cfg strategy.id signal.rawPayload (v.store signal)) →
      SameHold s w ((receiveStrategySignal cfg sha256 request).exec w).2 := by
    intro hafter
    rw [hexec]
    exact (hafter.trans (queueSignal_sameHold signal _ _ (hafter.heldExit.trans h))).trans
      (hkeep.sameHold s)
  rcases afterRelease_cases cfg strategy.id signal.rawPayload (v.store signal) with
    ⟨record', hdue, hrelease⟩ | ⟨-, hrelease⟩
  · by_cases hs : s = strategy.id
    · subst hs
      obtain rfl : record' = record :=
        Option.some.inj ((dueExit_eq_some hdue).symm.trans (hstored.heldExit.trans h))
      exact .inr (dispatches_of_release hv hexec hkeep hrelease)
    · refine .inl (hleft ?_)
      rw [hrelease]
      exact hstored.trans (sameHold_release hs _ _)
  · refine .inl (hleft ?_)
    rw [hrelease]
    exact hstored

/-- A webhook that is accepted at or after the release time of a live hold queues the exit. -/
theorem webhook_releases (hon : cfg.marketShieldEnabled = true) (h : w.heldExit s = some record)
    (hdue : record.releaseAt ≤ w.clock) (harrives : Arrives cfg sha256 s request w) :
    Dispatches cfg sha256 ⟨record.signalId, .exit⟩ w (.run (.webhook request)) := by
  obtain ⟨hs, id, queued, haccepted⟩ := harrives
  rcases receive_cases cfg sha256 request w with
    ⟨-, hstop⟩ | ⟨t, strategy, payload, valid, hash, v, hv, hstrategy, hexec⟩
  · exact absurd haccepted (hstop id queued)
  obtain ⟨signal, -, -, -, -, -, hkeep⟩ := storeSignal_spec cfg t strategy payload valid hash v
  rw [hstrategy] at hs
  obtain rfl : strategy.id = s := Option.some.inj hs
  have hfound : (v.store signal).dueExit strategy.id (releasePrice signal.rawPayload.price)
      = some record := by
    refine Option.filter_eq_some_iff.2 ⟨(hv.keepsHolds.sameHold _).heldExit.trans h, ?_⟩
    have hclock : record.releaseAt ≤ (v.store signal).clock := hdue.trans_eq hv.clock.symm
    simp [HoldRecord.due, hclock]
  refine dispatches_of_release hv hexec hkeep ?_
  rcases afterRelease_cases cfg strategy.id signal.rawPayload (v.store signal) with
    ⟨record', hrecord, hrelease⟩ | ⟨hnone, -⟩
  · rw [hfound] at hrecord
    rw [hrelease, Option.some.inj hrecord]
  · rw [hnone hon] at hfound
    cases hfound

theorem heldIn_setSignalStatus {d : Db} {id : SignalId} {st : SignalStatus}
    (h : HeldIn (d.setSignalStatus id st) x) : HeldIn d x ∨ (st = .held ∧ x = id) := by
  obtain ⟨row, hrow, hid, hheld⟩ := h
  obtain ⟨row', hrow', rfl⟩ := List.mem_map.1 hrow
  split_ifs at hid hheld with heq
  · exact .inr ⟨hheld, hid.symm.trans heq⟩
  · exact .inl ⟨row', hrow', hid, hheld⟩

theorem heldIn_store (hrow : signal.status = .received)
    (h : HeldIn (w.store signal).db x) : HeldIn w.db x := by
  obtain ⟨row, hmem, hid, hheld⟩ := h
  rcases mem_concat.1 hmem with hmem | rfl
  · exact ⟨row, hmem, hid, hheld⟩
  · rw [hrow] at hheld
    cases hheld

def OnRecord (s : StrategyId) (record : HoldRecord) (e : Nat) (w : World) : Prop :=
  w.redis.slot (.heldExit s) = some (.held record, some e) ∧ w.clock < e

theorem OnRecord.heldExit {e : Nat} (h : OnRecord s record e w) : w.heldExit s = some record := by
  simp [World.heldExit, Store.get, h.1, Store.live, h.2]

theorem OnRecord.congr {e : Nat} (h : OnRecord s record e w) (hsame : SameHold s w w') :
    OnRecord s record e w' := ⟨hsame.2.trans h.1, hsame.1.trans_lt h.2⟩

/-- A signal put on hold is a new exit of the strategy, on record for half an hour. -/
theorem putsOnHold_cases (h : PutsOnHold cfg sha256 request x w w') :
    cfg.marketShieldEnabled = true ∧ ∃ strategy signal side p,
      request.strategyIn w.db = some strategy
      ∧ x = signal.id ∧ signal.id = w.db.nextId ∧ signal.strategyId = strategy.id
      ∧ payloadSide signal = .ok side ∧ getOpenPosition strategy.id signal.symbol side w.db = some p
      ∧ w'.db.signals = ((w.store signal).db.setSignalStatus signal.id .held).signals
      ∧ OnRecord strategy.id (.of signal side p w.clock) (w.clock + holdTtlSeconds) w' := by
  obtain ⟨ht, hnot, hheld⟩ := h
  rw [webhook_take, Option.some.injEq] at ht
  subst ht
  rcases receive_cases cfg sha256 request w with
    ⟨hsame, -⟩ | ⟨t, strategy, payload, valid, hash, v, hv, hstrategy, hexec⟩
  · rw [hsame.db] at hheld
    exact absurd hheld hnot
  obtain ⟨signal, -, hid, hrow, hsid, -, hkeep⟩ :=
    storeSignal_spec cfg t strategy payload valid hash v
  set v' := afterRelease cfg strategy.id signal.rawPayload (v.store signal)
  have hdb : v'.db = (w.store signal).db ∧ v'.clock = w.clock := by
    have hstore : (v.store signal).db = (w.store signal).db := by
      rw [World.store, World.store, hv.db]
    rcases afterRelease_cases cfg strategy.id signal.rawPayload (v.store signal) with
      ⟨record, -, hrelease⟩ | ⟨-, hrelease⟩ <;> rw [show v' = _ from hrelease] <;>
      exact ⟨hstore, hv.clock⟩
  have hbefore : ¬ HeldIn v'.db x := fun hx => by
    rw [hdb.1] at hx
    exact hnot (heldIn_store hrow hx)
  have hsignals : HeldIn ((queueSignal cfg strategy.id signal
      valid.action.canonical.2).exec v').2.db x := by
    rw [hexec, HeldIn, hkeep.signals] at hheld
    exact hheld
  have hrecorded := hkeep.sameHold strategy.id
  have hrows := hkeep.signals
  rw [hexec]
  rcases queueSignal_cases cfg strategy.id signal valid.action.canonical.2 v' with
    ⟨n, hq⟩ | ⟨-, -, hq⟩ | ⟨n, side, p, -, hon, -, hside, hp, -, hq⟩ <;>
    rw [hq] at hsignals hrecorded hrows
  · exact absurd hsignals hbefore
  · rcases heldIn_setSignalStatus hsignals with hx | ⟨hst, -⟩
    · exact absurd hx hbefore
    · cases hst
  · rcases heldIn_setSignalStatus hsignals with hx | ⟨-, rfl⟩
    · exact absurd hx hbefore
    rw [hdb.1] at hp
    rw [hv.db] at hid
    refine ⟨hon, strategy, signal, side, p, hstrategy, rfl, hid, hsid, hside, hp, ?_, ?_⟩
    · rw [hrows, ← hdb.1]
    · rw [← hdb.2]
      refine ⟨hrecorded.2.trans (Function.update_self _ _ _), ?_⟩
      rw [hrecorded.1]
      exact Nat.lt_add_of_pos_right (by decide)

theorem putsOnHold_recorded (h : PutsOnHold cfg sha256 request x w w') :
    cfg.marketShieldEnabled = true ∧ ∃ strategy record, request.strategyIn w.db = some strategy
      ∧ record.signalId = x ∧ record.releaseAt = w.clock + holdMaxSeconds
      ∧ OnRecord strategy.id record (w.clock + holdTtlSeconds) w' := by
  obtain ⟨hon, strategy, signal, side, p, hstrategy, rfl, -, -, -, -, -, hrecord⟩ :=
    putsOnHold_cases h
  exact ⟨hon, strategy, _, hstrategy, rfl, rfl, hrecord⟩

end Webhooks

theorem exec_sameHold {t : Task} (ht : ∀ request, t ≠ .webhook request) (s : StrategyId)
    (w : World) : SameHold s w ((t.code cfg sha256).exec w).2 := by
  refine exec_keeps_of_conduct cfg sha256 t
    (fun v r hr hv => ⟨(handle_clock v r).trans hv.1, ?_⟩) ⟨rfl, rfl⟩
  refine (handle_slot fun hwrites => ?_).trans hv.2
  obtain ⟨⟨request, h⟩, -⟩ := hr.writes hwrites
  exact ht request h

theorem turn_onRecord {l : Turn} {e : Nat} (h : OnRecord s record e w)
    (hok : ClockBelow e w l ∧ ¬ Dispatches cfg sha256 ⟨record.signalId, .exit⟩ w l)
    (ht : l.take cfg sha256 w = some w') : OnRecord s record e w' := by
  cases l with
  | run t =>
    by_cases hweb : ∃ request, t = .webhook request
    · obtain ⟨request, rfl⟩ := hweb
      exact h.congr ((webhook_sameHold h.heldExit ht).resolve_right hok.2)
    · simp only [Turn.take, Option.ite_none_right_eq_some, Option.some.injEq] at ht
      rw [← ht.2]
      exact h.congr (exec_sameHold (fun request hr => hweb ⟨request, hr⟩) s w)
  | env m =>
    cases m with
    | tick n =>
      obtain rfl := Option.some.inj ht
      exact ⟨h.1, hok.1⟩
    | ack m =>
      obtain rfl := Option.some.inj ht
      exact h

/-- An exit on hold stays on record until it is queued, and the first request accepted at or after
its release time queues it, while its record has not lapsed. -/
theorem held_exit_kept {w₁ w₂ : World} {turns : List Turn}
    (hhold : PutsOnHold cfg sha256 request x w w₁)
    (hrun : Run (Turn.take cfg sha256) (fun v l => ClockBelow (w.clock + holdTtlSeconds) v l
      ∧ ¬ Dispatches cfg sha256 ⟨x, .exit⟩ v l) w₁ turns w₂) :
    ∃ strategy record, request.strategyIn w.db = some strategy ∧ record.signalId = x
      ∧ record.releaseAt = w.clock + holdMaxSeconds ∧ w₂.heldExit strategy.id = some record
      ∧ ∀ later, Arrives cfg sha256 strategy.id later w₂ → record.releaseAt ≤ w₂.clock →
        Dispatches cfg sha256 ⟨x, .exit⟩ w₂ (.run (.webhook later)) := by
  obtain ⟨hon, strategy, record, hstrategy, rfl, hrelease, hrecord⟩ := putsOnHold_recorded hhold
  have hkept := hrun.invariant (fun _ _ _ h hok ht => turn_onRecord h hok ht) hrecord
  exact ⟨strategy, record, hstrategy, rfl, hrelease, hkept.heldExit,
    fun _ harrives hdue => webhook_releases hon hkept.heldExit hdue harrives⟩

def shieldedSettings : Settings := { sampleSettings with marketShieldEnabled := true }

/-- Every index a tenth above its opening and near its high. -/
def strongMarket : Environment where
  answer
    | _, .indexOhlc _ => some ⟨110, 100, 112, 99, 100⟩
    | n, q => (Environment.willing filled).answer n q
  place := (Environment.willing filled).place

def shieldedWorld : World :=
  { sampleWorld strongMarket with
    db := { sampleDb with positions := [samplePosition 150 none 10] } }

def pricedExit : SignalRequest :=
  ⟨5, "EXIT", some (some { sampleBody "EXIT" with
    price := some (.number 100), atr := some (.number 5) }), true⟩

def heldWorld : World :=
  ((receiveStrategySignal shieldedSettings id pricedExit).exec shieldedWorld).2

instance (d : Db) (x : SignalId) : Decidable (HeldIn d x) :=
  inferInstanceAs (Decidable (∃ row ∈ d.signals, row.id = x ∧ row.status = .held))

theorem pricedExit_held : PutsOnHold shieldedSettings id pricedExit 200 shieldedWorld heldWorld :=
  ⟨webhook_take _ _, by decide +kernel, by decide +kernel⟩

theorem Dispatches.mem_drop {m : Message} {l : Turn} (h : Dispatches cfg sha256 m w l)
    (ht : l.take cfg sha256 w = some w') : m ∈ w'.queue.drop w.queue.length := by
  obtain ⟨v, sent, hv, hsent, hm⟩ := h
  rw [ht] at hv
  cases hv
  rwa [hsent, List.drop_left]

theorem not_dispatches_tick (m : Message) (n : Nat) :
    ¬ Dispatches cfg sha256 m w (.env (.tick n)) := fun h => by simpa using h.mem_drop rfl

theorem held_exit_kept_half_hour : ∃ w₁ w₂,
    PutsOnHold shieldedSettings id pricedExit 200 shieldedWorld w₁
      ∧ Run (Turn.take shieldedSettings id) (fun v l =>
        ClockBelow (shieldedWorld.clock + holdTtlSeconds) v l
          ∧ ¬ Dispatches shieldedSettings id ⟨200, .exit⟩ v l) w₁ [.env (.tick 1800)] w₂
      ∧ Dispatches shieldedSettings id ⟨200, .exit⟩ w₂
        (.run (.webhook (sampleRequest 5 "SL_HIT"))) := by
  have hrun : Run (Turn.take shieldedSettings id) (fun v l =>
      ClockBelow (shieldedWorld.clock + holdTtlSeconds) v l
        ∧ ¬ Dispatches shieldedSettings id ⟨200, .exit⟩ v l) heldWorld [.env (.tick 1800)]
      { heldWorld with clock := heldWorld.clock + 1800 } :=
    .single ⟨show heldWorld.clock + 1800 < _ by decide +kernel, not_dispatches_tick _ _⟩ rfl
  refine ⟨heldWorld, _, pricedExit_held, hrun, ?_⟩
  obtain ⟨strategy, record, hstrategy, -, hrelease, -, hlater⟩ :=
    held_exit_kept pricedExit_held hrun
  have hbound : (pricedExit.strategyIn shieldedWorld.db) = some sampleStrategy := by decide +kernel
  obtain rfl : sampleStrategy = strategy := Option.some.inj (hbound.symm.trans hstrategy)
  refine hlater (sampleRequest 5 "SL_HIT") ⟨by decide +kernel, 201, true, by decide +kernel⟩ ?_
  rw [hrelease]
  decide +kernel

/-- A minute past the release time the record has lapsed. -/
theorem held_exit_lost : ∃ w₁ w₂, PutsOnHold shieldedSettings id pricedExit 200 shieldedWorld w₁
      ∧ Run (Turn.take shieldedSettings id)
        (fun v l => ¬ Dispatches shieldedSettings id ⟨200, .exit⟩ v l) w₁ [.env (.tick 1860)] w₂
      ∧ shieldedWorld.clock + holdMaxSeconds ≤ w₂.clock ∧ w₂.heldExit 1 = none
      ∧ Arrives shieldedSettings id 1 (sampleRequest 5 "SL_HIT") w₂
      ∧ ¬ Dispatches shieldedSettings id ⟨200, .exit⟩ w₂
        (.run (.webhook (sampleRequest 5 "SL_HIT"))) := by
  refine ⟨heldWorld, _, pricedExit_held, .single (not_dispatches_tick _ _) rfl, by decide +kernel,
    by decide +kernel, ⟨by decide +kernel, 201, true, by decide +kernel⟩, fun h => ?_⟩
  have hmem := h.mem_drop (webhook_take _ _)
  revert hmem
  decide +kernel

end TradingBridge
