import TradingBridge.Proofs.DailyCap
import TradingBridge.Proofs.KillSwitchEntries

/-!
# The daily cap, requests side by side

The webhook reads the day's count, and the worker adds to it once the entry is done, so what is
under way in between is not counted. An entry is spent once it is queued, in the hands of a worker
or executed. Where a request gets past the gate only with room for the spent entries and for all of
the user's requests at work, no more entries are executed than the cap allows.
-/

namespace TradingBridge

open Effectful Prog List

section Rows

structure Known (d : Db) (msg : Message) : Prop where
  stored : msg.signal < d.nextId
  action : msg.kind ≠ .entry → ∀ x ∈ d.rows, x.1 = msg.signal → x.2.2 ≠ "ENTRY"

/-- The user has a cap, and the stored signals have ids of their own. -/
structure Capped (U : UserId) (N : Nat) (d : Db) : Prop where
  ids : IdsBelow d
  nodup : (d.rows.map Prod.fst).Nodup
  config : ∃ c, d.config U = some c ∧ c.enabled = true ∧ c.maxDailyTrades = N

variable {d d' : Db} {U : UserId} {N : Nat}

theorem Known.kept {msg : Message} (h : Known d msg) (hk : Kept d d') : Known d' msg :=
  ⟨h.stored.trans_le hk.nextId, fun hkind x hx hid =>
    h.action hkind x (hk.old x hx (hid ▸ h.stored)) hid⟩

theorem rows_fst (d : Db) : d.rows.map Prod.fst = d.signals.map (·.id) := map_map ..

theorem Appends.capped (h : Appends d d') (hd : Capped U N d) : Capped U N d' := by
  obtain ⟨c, hc, hrest⟩ := hd.config
  refine ⟨h.idsBelow hd.ids, ?_, c, by rw [Db.config, h.configs]; exact hc, hrest⟩
  rcases h.rows with heq | ⟨x, hx, heq, -⟩
  · exact heq ▸ hd.nodup
  · rw [heq, map_append, nodup_append]
    refine ⟨hd.nodup, by simp, ?_⟩
    rintro _ hid _ hx' rfl
    obtain ⟨y, hy, hyid⟩ := mem_map.1 hid
    rw [map_singleton, mem_singleton, hx] at hx'
    exact (idsBelow_iff.1 hd.ids y hy).ne (hyid.trans hx')

end Rows

section Monitor

def Mode.afterCount (U : UserId) (N : Nat) (u : UserId) (count : Option RedisValue) : Mode → Mode
  | .waiting => if u = U then (if countOf count < N then .free else .other) else .waiting
  | mode => mode

/-- What is queued or held is known, and only a request that is free queues an entry of the
user's. -/
def Sight.Admits (U : UserId) (m : Sight) : Request → Prop
  | .dispatch msg => m.task = .worker msg ∨ (Known m.db msg
    ∧ (msg.kind = .entry → m.mode = .free ∨ ¬ m.db.OwnedBy msg.signal U))
  | .redisSetEx (.heldExit _) (.held record) _ => Known m.db ⟨record.signalId, .exit⟩
  | _ => True

/-- Follows a request by what it may still queue. One entry queued, it queues no other. -/
def capMonitor (U : UserId) (N : Nat) (sha256 : String → String) :
    Machine Request Response Sight where
  may m r := Conduct (fun _ => True) sha256 m.task r ∧ m.Admits U r
  next m r a m' := match r, a with
    | .db f, a => ∃ d, Capped U N d ∧ Kept m.db d ∧ a = (f d).1 ∧ m' = { m with db := (f d).2 }
    | .redisGet (.trades u), count => m' = { m with mode := m.mode.afterCount U N u count }
    | .redisGet (.heldExit _), v => ∃ d, Kept m.db d
      ∧ (∀ record, v = some (.held record) → Known d ⟨record.signalId, .exit⟩)
      ∧ m' = { m with db := d }
    | .dispatch msg, _ =>
      m' = { m with mode := if msg.kind = .entry ∧ m.mode = .free then .other else m.mode }
    | _, _ => m' = m

variable {U : UserId} {N : Nat} {sha256 : String → String} {α β : Type} {m m' m'' : Sight}

/-- The same task, a later sight of the database, and free if it was. -/
structure Sight.Onward (m m' : Sight) : Prop where
  task : m'.task = m.task
  free : m.mode = .free → m'.mode = .free
  db : Kept m.db m'.db

theorem Sight.Onward.refl (m : Sight) : m.Onward m := ⟨rfl, id, .refl _⟩

theorem Sight.Onward.trans (h : m.Onward m') (h' : m'.Onward m'') : m.Onward m'' :=
  ⟨h'.task.trans h.task, fun hfree => h'.free (h.free hfree), h.db.trans h'.db⟩

/-- Requests that do not read the day's count or a held exit, and queue nothing. -/
def Request.Plain : Request → Prop
  | .redisGet k => ∃ u, k = .kill u
  | .dispatch _ => False
  | _ => True

theorem onward_of_next {r : Request} {a : Response r}
    (hr : Conduct (fun _ => True) sha256 m.task r) (hdispatch : ∀ msg, r ≠ .dispatch msg)
    (h : (capMonitor U N sha256).next m r a m') :
    m.Onward m' ∧ (r.Plain → m'.mode = m.mode) := by
  cases r with
  | db f =>
    obtain ⟨d, -, hkept, -, rfl⟩ := h
    exact ⟨⟨rfl, id, hkept.trans (hr d).appends.kept⟩, fun _ => rfl⟩
  | redisGet k =>
    cases k with
    | trades u =>
      obtain rfl : m' = _ := h
      refine ⟨⟨rfl, fun hfree => ?_, .refl _⟩, fun ⟨_, hk⟩ => nomatch hk⟩
      rw [hfree]
      rfl
    | heldExit strategy =>
      obtain ⟨d, hkept, -, rfl⟩ := h
      exact ⟨⟨rfl, id, hkept⟩, fun _ => rfl⟩
    | _ =>
      obtain rfl : m' = m := h
      exact ⟨.refl _, fun _ => rfl⟩
  | dispatch msg => exact absurd rfl (hdispatch msg)
  | _ =>
    obtain rfl : m' = m := h
    exact ⟨.refl _, fun _ => rfl⟩

theorem fromDb_of_capNext {r : Request} {a : Response r}
    (h : (capMonitor U N sha256).next m r a m') : FromDb (fun _ => True) r a := by
  cases r with
  | db f =>
    obtain ⟨d, -, -, ha, -⟩ := h
    exact ⟨d, trivial, ha⟩
  | _ => trivial

theorem task_of_capNext {r : Request} {a : Response r}
    (h : (capMonitor U N sha256).next m r a m') : m'.task = m.task := by
  cases r with
  | db f =>
    obtain ⟨d, -, -, -, rfl⟩ := h
    rfl
  | redisGet k =>
    cases k with
    | heldExit strategy =>
      obtain ⟨d, -, -, rfl⟩ := h
      rfl
    | _ =>
      obtain rfl : m' = _ := h
      rfl
  | _ =>
    obtain rfl : m' = _ := h
    rfl

theorem wp_onward {S : Request → Prop} {c : Code α}
    (hc : Conducts (fun _ => True) sha256 m.task c) (hs : c.AsksIn S)
    (hdispatch : ∀ msg, ¬ S (.dispatch msg))
    (hadmits : ∀ m' r, m.Onward m' → S r → m'.Admits U r) :
    c.wp (capMonitor U N sha256) (fun _ m' => m.Onward m') m := by
  refine (hc.and hs).wp ?_ ?_ (fun _ _ _ hm => hm) (fun _ _ hm => hm) (.refl m)
  · rintro m' r hm ⟨hr, hS⟩
    exact ⟨hm.task ▸ hr, hadmits m' r hm hS⟩
  · rintro m' r a m'' hm ⟨hr, hS⟩ hn
    refine ⟨hm.trans (onward_of_next (hm.task ▸ hr) ?_ hn).1, fromDb_of_capNext hn⟩
    rintro msg rfl
    exact hdispatch msg hS

theorem Mirrors.admits {r : Request} (h : Mirrors r) (m : Sight) : m.Admits U r := by
  cases r with
  | dispatch => exact h.elim
  | redisSetEx k v ttl =>
    cases k with
    | ambiguousFill symbol => trivial
    | _ => exact h.elim
  | _ => trivial

theorem bind_onward {c : Code α} {f : α → Code β} {Q : Except AppError β → Sight → Prop}
    (hc : c.AsksIn Mirrors)
    (hok : ∀ a m', m.Onward m' → (f a).wp (capMonitor U N sha256) Q m')
    (herr : ∀ e m', Q (.error e) m') : (c >>= f).wp (capMonitor U N sha256) Q m :=
  wp_bind_of (wp_onward (conducts_of_mirrors hc) hc (fun _ h => h) fun m' _ _ hr => hr.admits m')
    hok fun e m' _ => herr e m'

variable {Q : Except AppError β → Sight → Prop}

theorem bind_reads_onward {c : Code α} {f : α → Code β}
    (hc : c.AsksIn Reads)
    (hok : ∀ a m', m.Onward m' → (f a).wp (capMonitor U N sha256) Q m')
    (herr : ∀ e m', Q (.error e) m') : (c >>= f).wp (capMonitor U N sha256) Q m :=
  bind_onward (mirrors_of_reads hc) hok herr

theorem bind_readDb {f : Db → α} {k : α → Code β}
    (h : ∀ d, Capped U N d → Kept m.db d →
      (k (f d)).wp (capMonitor U N sha256) Q { m with db := d }) :
    (readDb f >>= k).wp (capMonitor U N sha256) Q m := by
  refine wp_bind.2 ⟨⟨fun d => Grows.of_sameBooks (.refl d), trivial⟩, ?_⟩
  rintro a _ ⟨d, hd, hkept, rfl, rfl⟩
  exact h d hd hkept

theorem bind_require {ok : Bool} {status : Nat} {detail : String} {k : Unit → Code β}
    {Q : Except AppError β → Sight → Prop}
    (hok : ok = true → (k ()).wp (capMonitor U N sha256) Q m)
    (herr : ∀ e m', Q (.error e) m') :
    (require ok status detail >>= k).wp (capMonitor U N sha256) Q m := by
  cases ok with
  | true => exact hok rfl
  | false => exact herr _ m

end Monitor

section Request

variable {U : UserId} {N : Nat} {sha256 : String → String} {m : Sight}

theorem checkMaxDailyTrades_frees {u : UserId} (hwait : u = U → m.mode = .waiting) :
    (checkMaxDailyTrades u).wp (capMonitor U N sha256)
      (fun x m' => m.Onward m' ∧ (x = .ok true → u = U → m'.mode = .free)) m := by
  refine bind_readDb fun d hd hkept => ?_
  split
  · rename_i hnone
    refine ⟨⟨rfl, id, hkept⟩, ?_⟩
    rintro - rfl
    obtain ⟨c, hc, henabled, -⟩ := hd.config
    simp [hc, henabled] at hnone
  · rename_i c hsome
    refine wp_bind.2 (wp_bind.2 ⟨⟨trivial, trivial⟩, ?_⟩)
    rintro count _ rfl
    refine ⟨⟨rfl, fun hfree => ?_, hkept⟩, fun hbelow hu => ?_⟩
    · rw [hfree]
      rfl
    · obtain ⟨c', hc', -, rfl⟩ := hd.config
      rw [hu, hc'] at hsome
      obtain ⟨hc, -⟩ := Option.filter_eq_some_iff.1 hsome
      obtain rfl := Option.some.inj hc
      have hlt : countOf count < c'.maxDailyTrades := by simpa using hbelow
      simp [hwait hu, Mode.afterCount, hu, hlt]

/-- Where the gates let a request of the user's through, it is free. -/
def Passed (U : UserId) (tok : WebhookToken) (m : Sight) : Except AppError Strategy → Sight → Prop
  | .ok _, m' => m.Onward m' ∧ (tok.userId = U → m'.mode = .free)
  | .error _, _ => True

theorem signalGates_passes (cfg : Settings) {tok : WebhookToken}
    (hwait : tok.userId = U → m.mode = .waiting) :
    (signalGates cfg tok).wp (capMonitor U N sha256) (Passed U tok m) m := by
  have herr : ∀ e m', Passed U tok m (.error e) m' := fun _ _ => trivial
  refine bind_readDb fun d _ hkept => bind_require (fun _ => ?_) herr
  refine wp_bind_of (checkMaxDailyTrades_frees hwait) (fun below m₁ ⟨h₁, hfree₁⟩ =>
    bind_require (fun hbelow => bind_reads_onward (readDb_reads _) (fun found m₂ h₂ => ?_) herr)
      herr) fun e m' _ => herr e m'
  split
  · trivial
  refine bind_reads_onward now_reads (fun clock m₃ h₃ => bind_require (fun _ => ?_) herr) herr
  have hd : m.Onward { m with db := d } := ⟨rfl, id, hkept⟩
  exact ⟨((hd.trans h₁).trans h₂).trans h₃, fun hu =>
    h₃.free (h₂.free (hfree₁ (congrArg _ hbelow) hu))⟩

/-- A request at a signal it has stored, of which it may queue the kind. -/
structure Sight.Stored (U : UserId) (request : SignalRequest) (msg : Message) (m : Sight) :
    Prop where
  task : m.task = .webhook request
  known : Known m.db msg
  safe : msg.kind = .entry → m.mode = .free ∨ ¬ m.db.OwnedBy msg.signal U

variable {request : SignalRequest}

theorem Sight.Stored.onward {msg : Message} {m' : Sight} (h : m.Stored U request msg)
    (hl : m.Onward m') : m'.Stored U request msg :=
  ⟨hl.task.trans h.task, h.known.kept hl.db, fun hkind =>
    (h.safe hkind).imp hl.free fun hno ho => hno (hl.db.owned_old h.known.stored ho)⟩

theorem releasePass_known (cfg : Settings) (strategy : StrategyId) (payload : Payload)
    (htask : m.task = .webhook request) :
    (releasePass cfg strategy payload).wp (capMonitor U N sha256)
      (fun x m' => m.Onward m' ∧ ∀ id, x = .ok (some id) → Known m'.db ⟨id, .exit⟩) m := by
  unfold releasePass
  split
  swap
  · exact ⟨.refl _, nofun⟩
  refine wp_bind.2 ⟨⟨trivial, trivial⟩, ?_⟩
  rintro v _ ⟨d, hkept, hheld, rfl⟩
  have hl : m.Onward { m with db := d } := ⟨rfl, id, hkept⟩
  rcases v with _ | v
  · exact ⟨hl, nofun⟩
  cases v with
  | held record =>
    refine wp_bind.2 ⟨⟨trivial, trivial⟩, ?_⟩
    rintro t _ rfl
    change (if record.due t (releasePrice payload.price) = true then do
        consumeHold strategy
        pure (some record.signalId)
      else pure none : Code (Option SignalId)).wp _ _ _
    split
    · refine wp_bind.2 ⟨⟨.inr ⟨request, strategy, htask, rfl⟩, trivial⟩, ?_⟩
      rintro _ _ rfl
      refine ⟨hl, fun id hid => ?_⟩
      cases hid
      exact hheld record rfl
    · exact ⟨hl, nofun⟩
  | _ => exact ⟨hl, nofun⟩

def HoldsOwn (id : SignalId) : Request → Prop
  | .redisSetEx k v _ => ∃ strategy record, k = .heldExit strategy ∧ v = .held record
    ∧ record.signalId = id
  | r => Reads r

theorem Reads.holdsOwn {id : SignalId} {r : Request} (h : Reads r) : HoldsOwn id r := by
  cases r with
  | redisSetEx => exact h.elim
  | _ => exact h

theorem HoldsOwn.cases {id : SignalId} {r : Request} (h : HoldsOwn id r) : Reads r
    ∨ ∃ strategy record ttl, r = .redisSetEx (.heldExit strategy) (.held record) ttl
      ∧ record.signalId = id := by
  cases r with
  | redisSetEx k v ttl =>
    obtain ⟨strategy, record, rfl, rfl, hid⟩ := h
    exact .inr ⟨strategy, record, ttl, rfl, hid⟩
  | _ => exact .inl h

theorem queueSignal_capWp (cfg : Settings) (strategy : StrategyId) {signal : StrategySignal}
    {kind : SignalKind} (hm : m.Stored U request ⟨signal.id, kind⟩) :
    (queueSignal cfg strategy signal kind).wp (capMonitor U N sha256)
      (fun _ m' => m'.task = .webhook request) m := by
  have hqueue : ∀ m', m'.Stored U request ⟨signal.id, kind⟩ →
      (do dispatch ⟨signal.id, kind⟩; pure true : Code Bool).wp (capMonitor U N sha256)
        (fun _ m' => m'.task = .webhook request) m' := by
    intro m' hm'
    refine wp_bind.2 ⟨⟨.inr ⟨request, hm'.task⟩, .inr ⟨hm'.known, hm'.safe⟩⟩, ?_⟩
    rintro _ _ rfl
    exact hm'.task
  cases kind with
  | entry | partly | slHit => exact hqueue m hm
  | exit =>
    have hasks : (holdPass cfg strategy signal).AsksIn (HoldsOwn signal.id) :=
      holdPass_asksIn cfg (fun _ hr => hr.holdsOwn) fun record hid => ⟨_, record, rfl, rfl, hid⟩
    have hconduct : Conducts (fun _ => True) sha256 m.task (holdPass cfg strategy signal) := by
      rw [hm.task]
      exact (asksIn_mono (fun _ hr => hr.conduct) (holdPass_shields cfg strategy signal)).yields
    refine wp_bind_of (wp_onward hconduct hasks (fun _ h => h) fun m' r hm' hr => ?_)
      (fun hold m' hm' => ?_) fun _ m' hm' => (hm.onward hm').task
    swap
    · cases hold with
      | none => exact hqueue m' (hm.onward hm')
      | some h =>
        refine wp_bind.2 ⟨⟨⟨h.status_ne.1, fun hst => absurd hst h.status_ne.2⟩, trivial⟩, ?_⟩
        rintro _ _ rfl
        exact (hm.onward hm').task
    · rcases hr.cases with hr | ⟨strategy, record, ttl, rfl, hid⟩
      · exact hr.books.mirrors.admits m'
      · change Known m'.db ⟨record.signalId, .exit⟩
        rw [hid]
        exact hm.known.kept hm'.db

theorem dispatchStored_capWp (cfg : Settings) (strategy : Strategy) {signal : StrategySignal}
    {kind : SignalKind} (hm : m.Stored U request ⟨signal.id, kind⟩) :
    (dispatchStored cfg strategy signal kind).wp (capMonitor U N sha256)
      (fun _ m' => m'.task = .webhook request) m := by
  refine wp_bind_of (releasePass_known cfg strategy.id signal.rawPayload hm.task)
    (fun released m₁ ⟨h₁, hknown⟩ => ?_) fun _ m₁ h₁ => (hm.onward h₁.1).task
  have hm₁ := hm.onward h₁
  cases released with
  | none => exact queueSignal_capWp cfg strategy.id hm₁
  | some held =>
    refine wp_bind.2 ⟨⟨.inr ⟨request, hm₁.task⟩, .inr ⟨hknown held rfl, nofun⟩⟩, ?_⟩
    rintro _ _ rfl
    exact queueSignal_capWp cfg strategy.id hm₁

variable {d : Db}

theorem stored_of_persisted {tok : WebhookToken} (strategy : Strategy) (payload : Body)
    (valid : ValidPayload) (ts : Nat) (hd : IdsBelow d)
    (htask : m.task = .webhook request) (hfree : m.mode = .free ∨ tok.userId ≠ U) :
    Sight.Stored U request ⟨d.nextId, valid.action.canonical.2⟩ { m with
      db := { d with
        signals := d.signals ++ [signalRow tok strategy payload valid ts d.nextId]
        nextId := d.nextId + 1 } } := by
  refine ⟨htask, ⟨Nat.lt_succ_self _, ?_⟩, fun _ =>
    (ready_of_persisted strategy payload valid ts hd htask hfree).safe⟩
  intro hkind x hx hid
  obtain ⟨s, hs, rfl⟩ := mem_map.1 hx
  rcases mem_concat.1 hs with hs | rfl
  · exact absurd hid (hd s hs).ne
  · change valid.action.canonical.1 ≠ "ENTRY"
    cases haction : valid.action <;> rw [haction] at hkind <;>
      first | exact absurd rfl hkind | decide

theorem processSignal_capWp (cfg : Settings) {tok : WebhookToken} {body : Body} {hash : String}
    (htask : m.task = .webhook request) (hwait : tok.userId = U → m.mode = .waiting)
    (hkey : request.HasKey (fun _ => True) sha256 hash) :
    (processSignal cfg tok body hash).wp (capMonitor U N sha256) (fun _ _ => True) m := by
  have herr : ∀ (e : AppError) (m' : Sight), True := fun _ _ => trivial
  have hgate : ∀ k : Unit → Code SignalAnswer,
      (k ()).wp (capMonitor U N sha256) (fun _ _ => True) m →
      (killSwitchGate tok.userId >>= k).wp (capMonitor U N sha256) (fun _ _ => True) m := by
    intro k hk
    refine wp_bind.2 (wp_bind.2 (wp_bind.2
      ⟨⟨trivial, trivial⟩, ?_⟩))
    rintro flag _ rfl
    rcases flag with _ | v
    · exact hk
    cases v with
    | status st =>
      cases st with
      | active => exact hk
      | tripped => trivial
    | _ => exact hk
  refine hgate _ (wp_bind_of (signalGates_passes cfg hwait) (fun strategy m₁ ⟨h₁, hfree₁⟩ =>
    bind_reads_onward (preparePayload_reads _ _) (fun (payload, valid) m₂ h₂ =>
      bind_reads_onward now_reads (fun ts m₃ h₃ => ?_) herr) herr) fun e m' _ => herr e m')
  have hl := (h₁.trans h₂).trans h₃
  have hfree : m₃.mode = .free ∨ tok.userId ≠ U := by
    by_cases hu : tok.userId = U
    · exact .inl (h₃.free (h₂.free (hfree₁ hu)))
    · exact .inr hu
  refine wp_bind.2 ⟨⟨persistSignal_grows _ _ _ _ _, trivial⟩, ?_⟩
  rintro signal _ ⟨d, hd, -, rfl, rfl⟩
  have hstored := stored_of_persisted strategy payload valid ts hd.ids (hl.task.trans htask) hfree
  refine wp_bind_of (dispatchStored_capWp cfg strategy hstored) (fun queued m₄ h₄ =>
    bind_onward (fanOutSignal_mirrors _ _ _ _) (fun _ m₅ h₅ => ?_) herr) fun e m' _ => herr e m'
  exact wp_bind.2 ⟨⟨⟨request, h₅.task.trans h₄, hkey⟩, trivial⟩, fun _ _ _ => trivial⟩

variable (cfg : Settings)

theorem authenticate_plain (request : SignalRequest) :
    (authenticate cfg request).AsksIn Request.Plain := by
  refine asksIn_bind ((asksIn_perform _).2 trivial) fun halted => asksIn_bind
    (require_asksIn _ _ _) fun _ => asksIn_bind ((asksIn_perform _).2 trivial) fun token => ?_
  split
  · trivial
  refine asksIn_bind ((asksIn_perform _).2 trivial) fun allowed => asksIn_bind
    (require_asksIn _ _ _) fun _ => ?_
  split
  · trivial
  · trivial
  · exact asksIn_bind (require_asksIn _ _ _) fun _ => asksIn_pure _

/-- A request of the user's waits for the count; one of another user's may start in any mode. -/
theorem receiveStrategySignal_capWp (request : SignalRequest) {mode : Mode}
    (hmode : Task.Enters U d (.webhook request) → mode = .waiting) :
    (receiveStrategySignal cfg sha256 request).wp (capMonitor U N sha256) (fun _ _ => True)
      ⟨.webhook request, mode, d⟩ := by
  refine wp_bind.2 (((authenticate_yields (D := fun d' => d'.tokens = d.tokens) cfg
    request).and (authenticate_plain cfg request)).wp
    (I := fun m => Sight.Onward ⟨.webhook request, mode, d⟩ m ∧ m.mode = mode) ?_ ?_ ?_
    (fun _ _ _ => trivial) ⟨.refl _, rfl⟩)
  · rintro m r - ⟨hr, -⟩
    exact ⟨hr.conduct, hr.books.mirrors.admits m⟩
  · rintro m r a m' ⟨hm, hmodeq⟩ ⟨hr, hplain⟩ hn
    obtain ⟨hl, hsame⟩ := onward_of_next (hm.task ▸ hr.conduct) (by rintro msg rfl; exact hplain) hn
    refine ⟨⟨hm.trans hl, (hsame hplain).trans hmodeq⟩, ?_⟩
    cases r with
    | db f =>
      obtain ⟨d', -, hkept, ha, -⟩ := hn
      exact ⟨d', hkept.tokens.trans hm.db.tokens, ha⟩
    | _ => trivial
  · rintro ⟨tok, body⟩ m ⟨hbody, d', hd', htoken⟩ ⟨hm, hmodeq⟩
    obtain ⟨htok, hid, hactive⟩ := SignalRequest.tokenIn_spec htoken
    have hkey : request.HasKey (fun _ => True) sha256
        (computeStrategySignalHash sha256 tok.userId body request.rawBody) :=
      ⟨body, hbody, d', trivial, tok, htok, hid, hactive, rfl⟩
    refine wp_bind.2 ⟨⟨.inr (.inr ⟨request, _, hm.task, hkey, rfl, rfl⟩), trivial⟩, ?_⟩
    rintro claimed _ rfl
    cases claimed with
    | true =>
      exact processSignal_capWp cfg hm.task
        (fun hu => hmodeq.trans (hmode ⟨tok, hd' ▸ htok, hid, hu⟩)) hkey
    | false =>
      exact wp_bind.2 ⟨⟨⟨request, hm.task, hkey⟩, trivial⟩, fun _ _ _ => trivial⟩

theorem task_capWp {t : Task} {mode : Mode}
    (hmode : t.Enters U d → ∀ request, t = .webhook request → mode = .waiting) :
    (t.code cfg sha256).wp (capMonitor U N sha256) (fun _ _ => True) ⟨t, mode, d⟩ := by
  by_cases hrequest : ∃ request, t = .webhook request
  · obtain ⟨request, rfl⟩ := hrequest
    exact wp_bind_of (receiveStrategySignal_capWp cfg request fun henters =>
      hmode henters request rfl) (fun _ _ _ => trivial) fun _ _ _ => trivial
  · refine (task_conducts (D := fun _ => True) cfg sha256 t).wp
      (I := fun m => m.task = t) ?_ ?_ (fun _ _ _ _ => trivial) (fun _ _ _ => trivial) rfl
    · rintro m r rfl hr
      refine ⟨hr, ?_⟩
      cases r with
      | dispatch msg => exact .inl (hr.resolve_right fun ⟨request, h⟩ => hrequest ⟨request, h⟩)
      | redisSetEx k v ttl =>
        rcases hr with ⟨symbol, rfl⟩ | ⟨request, strategy, h, -⟩
        · trivial
        · exact absurd ⟨request, h⟩ hrequest
      | _ => trivial
    · rintro m r a m' hm _ hn
      exact ⟨(task_of_capNext hn).trans hm, fromDb_of_capNext hn⟩

end Request

section Counts

abbrev Threads := List (Thread Request Response AppError Task)

def AtWork (th : Thread Request Response AppError Task) : Bool := match th.prog with
  | .op _ _ => true
  | _ => false

/-- The entry is queued or in the hands of a worker. -/
def underWay (queue : List Message) (ths : Threads) (id : SignalId) : Bool :=
  ⟨id, .entry⟩ ∈ queue || ths.any fun th => th.task = .worker ⟨id, .entry⟩ && AtWork th

/-- An entry of the user's, stored under `n₀` or later. -/
def StrategySignal.entryOf (U : UserId) (n₀ : SignalId) (s : StrategySignal) : Bool :=
  n₀ ≤ s.id && s.userId = U && s.action = "ENTRY"

theorem StrategySignal.action_of_entryOf {U : UserId} {n₀ : SignalId} (s : StrategySignal)
    (h : s.entryOf U n₀ = true) : s.action = "ENTRY" := by
  simp only [StrategySignal.entryOf, Bool.and_eq_true, decide_eq_true_eq] at h
  exact h.2

def executedEntries (U : UserId) (n₀ : SignalId) (w : World) : Nat :=
  w.db.signals.countP fun s => s.entryOf U n₀ && s.status = .executed

/-- The user's entries since `n₀` that are executed, queued or in the hands of a worker. -/
def spentEntries (U : UserId) (n₀ : SignalId) (w : World) (ths : Threads) : Nat :=
  w.db.signals.countP fun s =>
    s.entryOf U n₀ && (s.status = .executed || underWay w.queue ths s.id)

def Task.asksFor (U : UserId) (d : Db) : Task → Bool
  | .webhook request => d.tokens.any fun t => t.id = request.token ∧ t.userId = U
  | _ => false

def requestsAtWork (U : UserId) (w : World) (ths : Threads) : Nat :=
  ths.countP fun th => AtWork th && th.task.asksFor U w.db

/-- A count below the cap is read only with room for the spent entries and all requests at work. -/
def RoomAtGate (U : UserId) (N : Nat) (n₀ : SignalId) (P : Pool) : Move Task EnvMove → Prop
  | .step i => ∀ request k,
    P.threads[i]? = some ⟨.webhook request, .op (.redisGet (.trades U)) k⟩ →
    countOf (P.shared.redis.get P.shared.clock (.trades U)) < N →
    spentEntries U n₀ P.shared P.threads + requestsAtWork U P.shared P.threads ≤ N
  | _ => True

variable {U : UserId} {N n₀ : Nat} {sha256 : String → String} {w : World}

theorem executedEntries_le_spent (ths : Threads) :
    executedEntries U n₀ w ≤ spentEntries U n₀ w ths :=
  countP_mono_left fun s _ h => by
    simp only [Bool.and_eq_true, Bool.or_eq_true] at h ⊢
    exact ⟨h.1, .inl h.2⟩

theorem asksFor_iff {d : Db} {request : SignalRequest} :
    (Task.webhook request).asksFor U d = true ↔ (Task.webhook request).Enters U d := by
  simp [Task.asksFor, Task.Enters]

theorem asksFor_webhook {d : Db} {t : Task} (h : t.asksFor U d = true) :
    ∃ request, t = .webhook request := by
  cases t with
  | webhook request => exact ⟨request, rfl⟩
  | _ => cases h

theorem asksFor_kept {d d' : Db} (h : Kept d d') (t : Task) : t.asksFor U d' = t.asksFor U d := by
  cases t with
  | webhook request => simp [Task.asksFor, h.tokens]
  | _ => rfl

theorem countP_set_le {α : Type*} {p q : α → Bool} {x y : α} {l : List α} {i : Nat}
    (hx : p x = true → q y = true) (hi : l[i]? = some y) (hl : ∀ g ∈ l, p g = true → q g = true) :
    (l.set i x).countP p ≤ l.countP q := by
  obtain ⟨hlt, rfl⟩ := List.getElem?_eq_some_iff.1 hi
  have hhead : (if p x then 1 else 0) ≤ if q l[i] then 1 else 0 := by split_ifs <;> simp_all
  have hl' : l.countP q = (l.take i ++ l[i] :: l.drop (i + 1)).countP q := by simp
  rw [set_eq_take_append_cons_drop, if_pos hlt, hl']
  simp only [countP_append, countP_cons]
  refine Nat.add_le_add ?_ (Nat.add_le_add ?_ hhead)
  · exact countP_mono_left fun g hg => hl g (mem_of_mem_take hg)
  · exact countP_mono_left fun g hg => hl g (mem_of_mem_drop hg)

theorem countP_or_le {α : Type*} (p q : α → Bool) (l : List α) :
    l.countP (fun x => p x || q x) ≤ l.countP p + l.countP q := by
  induction l with
  | nil => simp
  | cons x l ih =>
    simp only [countP_cons]
    cases p x <;> cases q x <;> simp <;> omega

variable {ths : Threads} {i : Nat} {t : Task} {r : Request} {k : Response r → Code Unit}
  {D : Db → Prop}

def Request.queues : Request → Option SignalId
  | .dispatch msg => if msg.kind = .entry then some msg.signal else none
  | _ => none

theorem eq_of_queues {r : Request} {id : SignalId} (h : r.queues = some id) :
    r = .dispatch ⟨id, .entry⟩ := by
  cases r with
  | dispatch msg =>
    obtain ⟨signal, kind⟩ := msg
    simp only [Request.queues] at h
    split_ifs at h with hkind
    cases h
    rw [hkind]
  | _ => cases h

variable {id : SignalId}

variable {a : Response r}

theorem underWay_step (hi : ths[i]? = some ⟨t, .op r k⟩)
    (h : underWay (handle w r).2.queue (ths.set i ⟨t, k a⟩) id = true) :
    underWay w.queue ths id = true ∨ r.queues = some id := by
  have hmem := mem_of_getElem? hi
  simp only [underWay, Bool.or_eq_true, decide_eq_true_eq, any_eq_true, Bool.and_eq_true]
    at h ⊢
  rcases h with hqueue | ⟨th, hth, htask, hwork⟩
  · cases r with
    | dispatch msg =>
      rcases mem_concat.1 hqueue with hqueue | rfl
      · exact .inl (.inl hqueue)
      · exact .inr rfl
    | _ => exact .inl (.inl hqueue)
  · rcases mem_or_eq_of_mem_set hth with hth | rfl
    · exact .inl (.inr ⟨th, hth, htask, hwork⟩)
    · exact .inl (.inr ⟨_, hmem, htask, rfl⟩)

theorem underWay_of_worker
    (hi : ths[i]? = some ⟨.worker ⟨id, .entry⟩, .op r k⟩) : underWay w.queue ths id = true := by
  simp only [underWay, Bool.or_eq_true, any_eq_true]
  exact .inr ⟨_, mem_of_getElem? hi, by simp [AtWork]⟩

def AllKnown (w : World) (ths : Threads) : Prop :=
  ∀ msg, (msg ∈ w.queue ∨ ∃ th ∈ ths, th.task = .worker msg) → Known w.db msg

theorem AllKnown.underWay (h : AllKnown w ths)
    (hid : underWay w.queue ths id = true) : id < w.db.nextId := by
  simp only [TradingBridge.underWay, Bool.or_eq_true, decide_eq_true_eq, any_eq_true,
    Bool.and_eq_true] at hid
  rcases hid with hid | ⟨th, hth, htask, -⟩
  · exact (h _ (.inl hid)).stored
  · exact (h _ (.inr ⟨th, hth, htask⟩)).stored

/-- A row is spent, or is the one the request queues. -/
def spends (U : UserId) (n₀ : SignalId) (w : World) (ths : Threads) (r : Request)
    (s : StrategySignal) : Bool :=
  (s.entryOf U n₀ && (s.status = .executed || underWay w.queue ths s.id))
    || (s.entryOf U n₀ && r.queues = some s.id)

theorem spends_of_step (hi : ths[i]? = some ⟨t, .op r k⟩) {s : StrategySignal}
    (hentry : s.entryOf U n₀ = true)
    (h : s.status = .executed ∨ underWay (handle w r).2.queue (ths.set i ⟨t, k a⟩) s.id = true) :
    spends U n₀ w ths r s = true := by
  simp only [spends, hentry, Bool.true_and, Bool.or_eq_true, decide_eq_true_eq]
  rcases h with hstatus | hunder
  · exact .inl (.inl hstatus)
  · exact (underWay_step hi hunder).imp_left .inr

theorem spent_le_spends (hi : ths[i]? = some ⟨t, .op r k⟩) (hr : Conduct D sha256 t r)
    (hknown : AllKnown w ths) (a : Response r) :
    spentEntries U n₀ (handle w r).2 (ths.set i ⟨t, k a⟩)
      ≤ w.db.signals.countP (spends U n₀ w ths r) := by
  have hsame : ∀ s ∈ w.db.signals, (s.entryOf U n₀ && (s.status = .executed
      || underWay (handle w r).2.queue (ths.set i ⟨t, k a⟩) s.id)) = true →
      spends U n₀ w ths r s = true := by
    intro s _ h
    simp only [Bool.and_eq_true, Bool.or_eq_true, decide_eq_true_eq] at h
    exact spends_of_step hi h.1 h.2
  cases r with
  | db f =>
    unfold spentEntries
    rcases (hr w.db).signals with heq | ⟨row, hrow, hstatus, heq, -⟩
    · rw [show (handle w (.db f)).2.db.signals = w.db.signals from heq]
      exact countP_mono_left hsame
    · rw [show (handle w (.db f)).2.db.signals = w.db.signals ++ [row] from heq,
        countP_append]
      have hnew : ([row].countP fun s => s.entryOf U n₀ && (s.status = .executed
          || underWay (handle w (.db f)).2.queue (ths.set i ⟨t, k a⟩) s.id)) = 0 := by
        rw [countP_eq_zero]
        intro s hs h
        obtain rfl := mem_singleton.1 hs
        simp only [Bool.and_eq_true, hstatus] at h
        have hunder := (underWay_step hi h.2).resolve_right nofun
        exact (hknown.underWay hunder).ne hrow
      rw [hnew]
      exact countP_mono_left hsame
  | setSignalStatus id st =>
    refine (countP_map ..).trans_le (countP_mono_left fun s hs h => ?_)
    simp only [Function.comp_apply, Bool.and_eq_true, Bool.or_eq_true, decide_eq_true_eq] at h
    by_cases hid : s.id = id
    · rw [if_pos hid] at h
      obtain ⟨hentry, hst | hunder⟩ := h
      · obtain ⟨kind, rfl⟩ := hr.2 hst
        have hown := hknown ⟨id, kind⟩ (.inr ⟨_, mem_of_getElem? hi, rfl⟩)
        have haction : s.action = "ENTRY" := s.action_of_entryOf hentry
        by_cases hkind : kind = .entry
        · subst hkind hid
          simp only [spends, underWay_of_worker hi, Bool.or_true, Bool.and_true, Bool.or_eq_true]
          exact .inl hentry
        · exact absurd haction (hown.action hkind _ (mem_map_of_mem hs) hid)
      · exact spends_of_step hi hentry (.inr hunder)
    · rw [if_neg hid] at h
      exact spends_of_step hi h.1 h.2
  | _ => exact countP_mono_left hsame

theorem spent_step (hi : ths[i]? = some ⟨t, .op r k⟩) (hr : Conduct D sha256 t r)
    (hknown : AllKnown w ths) (a : Response r)
    (hq : ∀ id, r.queues = some id → underWay w.queue ths id = true ∨ ¬ w.db.OwnedBy id U) :
    spentEntries U n₀ (handle w r).2 (ths.set i ⟨t, k a⟩) ≤ spentEntries U n₀ w ths := by
  refine (spent_le_spends hi hr hknown a).trans (countP_mono_left fun s hs h => ?_)
  simp only [spends, Bool.or_eq_true, Bool.and_eq_true, decide_eq_true_eq] at h ⊢
  rcases h with h | ⟨hentry, hid⟩
  · exact h
  · refine ⟨hentry, (hq _ hid).elim .inr fun hno => absurd ⟨s, hs, rfl, ?_⟩ hno⟩
    simp only [StrategySignal.entryOf, Bool.and_eq_true, decide_eq_true_eq] at hentry
    exact hentry.1.2

theorem spent_step_le (hi : ths[i]? = some ⟨t, .op r k⟩) (hr : Conduct D sha256 t r)
    (hknown : AllKnown w ths) (hnodup : (w.db.signals.map (·.id)).Nodup) (a : Response r) :
    spentEntries U n₀ (handle w r).2 (ths.set i ⟨t, k a⟩) ≤ spentEntries U n₀ w ths + 1 := by
  refine (spent_le_spends hi hr hknown a).trans ((countP_or_le _ _ _).trans ?_)
  refine Nat.add_le_add_left ?_ _
  cases hq : r.queues with
  | none => simp
  | some id =>
    calc w.db.signals.countP (fun s => s.entryOf U n₀ && decide (some id = some s.id))
        ≤ w.db.signals.countP ((· == id) ∘ (·.id)) :=
          countP_mono_left fun s _ h => by
            simp only [Bool.and_eq_true, decide_eq_true_eq, Option.some.injEq] at h
            simp [h.2]
      _ = (w.db.signals.map (·.id)).count id := (countP_map ..).symm
      _ ≤ 1 := nodup_iff_count_le_one.1 hnodup id

end Counts

section Runs

variable {U : UserId} {N n₀ : Nat} {sha256 : String → String} {w : World}

def pastGate (gs : Sights) : Nat := gs.countP fun g => g.2.mode = .free && AtWork g.1

/-- What is held is known, and the cap has room for the spent entries and the requests past the
gate. -/
structure CapInv (U : UserId) (N n₀ : Nat) (w : World) (gs : Sights) : Prop where
  capped : Capped U N w.db
  seen : ∀ g ∈ gs, Kept g.2.db w.db
  known : AllKnown w (gs.map Prod.fst)
  holds : ∀ strategy record e, w.redis.slot (.heldExit strategy) = some (.held record, e) →
    Known w.db ⟨record.signalId, .exit⟩
  asks : ∀ g ∈ gs, g.2.mode ≠ .other → g.1.task.asksFor U w.db = true
  room : spentEntries U n₀ w (gs.map Prod.fst) + pastGate gs ≤ N

/-- How a request moves the monitor of its thread. -/
def Sight.counted (U : UserId) (N : Nat) (w : World) (m : Sight) : Request → Sight
  | .db f => { m with db := (f w.db).2 }
  | .redisGet (.trades u) =>
    { m with mode := m.mode.afterCount U N u (w.redis.get w.clock (.trades u)) }
  | .redisGet (.heldExit _) => { m with db := w.db }
  | .dispatch msg =>
    { m with mode := if msg.kind = .entry ∧ m.mode = .free then .other else m.mode }
  | _ => m

variable {gs : Sights} {m : Sight}

theorem next_counted (hinv : CapInv U N n₀ w gs) (hseen : Kept m.db w.db) (r : Request) :
    (capMonitor U N sha256).next m r (handle w r).1 (m.counted U N w r) := by
  cases r with
  | db f => exact ⟨w.db, hinv.capped, hseen, rfl, rfl⟩
  | redisGet k =>
    cases k with
    | heldExit strategy =>
      refine ⟨w.db, hseen, fun record h => ?_, rfl⟩
      obtain ⟨e, he, -⟩ := Expiring.Store.get_eq_some_iff.1 h
      exact hinv.holds strategy record e he
    | _ => rfl
  | _ => rfl

theorem counted_free {r : Request} (h : (m.counted U N w r).mode = .free) :
    m.mode = .free ∨ (m.mode = .waiting ∧ r = .redisGet (.trades U)
      ∧ countOf (w.redis.get w.clock (.trades U)) < N) := by
  unfold Sight.counted at h
  split at h
  · exact .inl h
  · cases hmode : m.mode with
    | waiting =>
      rw [hmode] at h
      simp only [Mode.afterCount] at h
      split_ifs at h with hu hlt
      subst hu
      exact .inr ⟨rfl, rfl, hlt⟩
    | free => exact .inl rfl
    | other =>
      rw [hmode] at h
      cases h
  · exact .inl h
  · split_ifs at h
    exact .inl h
  · exact .inl h

theorem counted_other {r : Request} (h : m.mode = .other) : (m.counted U N w r).mode = .other := by
  unfold Sight.counted
  split
  · exact h
  · rw [h]
    rfl
  · exact h
  · split_ifs
    · rfl
    · exact h
  · exact h

theorem kept_counted {D : Db → Prop} {t : Task} {r : Request} (hseen : Kept m.db w.db)
    (hr : Conduct D sha256 t r) : Kept (m.counted U N w r).db (handle w r).2.db := by
  cases r with
  | db f => exact .refl _
  | setSignalStatus => exact hseen.trans (kept_handle hr)
  | redisGet k =>
    cases k with
    | heldExit strategy => exact .refl _
    | _ => exact hseen
  | _ => exact hseen

section Step

variable {i : Nat} {t : Task} {r : Request} {k : Response r → Code Unit} {a : Response r}

theorem known_step (hinv : CapInv U N n₀ w gs) (hi : gs[i]? = some (⟨t, .op r k⟩, m))
    (htask : m.task = t) (hmay : (capMonitor U N sha256).may m r) (m' : Sight) :
    AllKnown (handle w r).2 ((gs.set i (⟨t, k a⟩, m')).map Prod.fst) := by
  have hmem : ⟨t, .op r k⟩ ∈ gs.map Prod.fst :=
    mem_map_of_mem (mem_of_getElem? hi)
  intro msg hmsg
  suffices hold : Known w.db msg from hold.kept (kept_handle hmay.1)
  rcases hmsg with hqueue | ⟨th, hth, hworker⟩
  · cases r with
    | dispatch msg' =>
      rcases mem_concat.1 hqueue with hqueue | rfl
      · exact hinv.known msg (.inl hqueue)
      · rcases hmay.2 with hown | ⟨hknown, -⟩
        · exact hinv.known msg (.inr ⟨_, hmem, htask.symm.trans hown⟩)
        · exact hknown.kept (hinv.seen _ (mem_of_getElem? hi))
    | _ => exact hinv.known msg (.inl hqueue)
  · rw [map_set] at hth
    rcases mem_or_eq_of_mem_set hth with hth | rfl
    · exact hinv.known msg (.inr ⟨th, hth, hworker⟩)
    · exact hinv.known msg (.inr ⟨_, hmem, hworker⟩)

theorem holds_step (hinv : CapInv U N n₀ w gs) (hi : gs[i]? = some (⟨t, .op r k⟩, m))
    (hmay : (capMonitor U N sha256).may m r) {strategy : StrategyId} {record : HoldRecord}
    {e : Option Nat}
    (h : (handle w r).2.redis.slot (.heldExit strategy) = some (.held record, e)) :
    Known (handle w r).2.db ⟨record.signalId, .exit⟩ := by
  suffices hold : Known w.db ⟨record.signalId, .exit⟩ from hold.kept (kept_handle hmay.1)
  by_cases hwrites : r.writes = some (.heldExit strategy)
  · obtain ⟨-, ⟨v, ttl, rfl⟩ | rfl⟩ := hmay.1.writes hwrites
    · obtain rfl : v = .held record := by
        simp only [handle, Expiring.Store.setEx, Function.update_self, Option.some.injEq,
          Prod.mk.injEq] at h
        exact h.1
      exact Known.kept hmay.2 (hinv.seen _ (mem_of_getElem? hi))
    · simp [handle, Expiring.Store.del] at h
  · rw [handle_slot hwrites] at h
    exact hinv.holds strategy record e h

theorem pastGate_step (hi : gs[i]? = some (⟨t, .op r k⟩, m)) (m' : Sight)
    (h : m'.mode = .free → m.mode = .free) :
    pastGate (gs.set i (⟨t, k a⟩, m')) ≤ pastGate gs := by
  refine countP_set_le (fun hx => ?_) hi fun _ _ h => h
  simp only [Bool.and_eq_true, decide_eq_true_eq] at hx ⊢
  exact ⟨h hx.1, rfl⟩

theorem pastGate_step_lt (hi : gs[i]? = some (⟨t, .op r k⟩, m)) (m' : Sight)
    (hfree : m.mode = .free) (h : m'.mode ≠ .free) :
    pastGate (gs.set i (⟨t, k a⟩, m')) + 1 ≤ pastGate gs := by
  obtain ⟨hlt, hget⟩ := List.getElem?_eq_some_iff.1 hi
  have hpos : 0 < pastGate gs := countP_pos_iff.2
    ⟨_, mem_of_getElem? hi, by simp [hfree, AtWork]⟩
  have hset : pastGate (gs.set i (⟨t, k a⟩, m')) = pastGate gs - 1 := by
    unfold pastGate
    rw [countP_set hlt, hget]
    simp [hfree, h, AtWork]
  omega

/-- The room at the gate is room for every request past it. -/
theorem pastGate_le_requests (hinv : CapInv U N n₀ w gs) (hi : gs[i]? = some (⟨t, .op r k⟩, m))
    (hmode : m.mode ≠ .other) (m' : Sight) :
    pastGate (gs.set i (⟨t, k a⟩, m')) ≤ requestsAtWork U w (gs.map Prod.fst) := by
  unfold requestsAtWork pastGate
  rw [countP_map]
  refine countP_set_le (fun _ => ?_) hi fun g hg h => ?_
  · simp [AtWork, hinv.asks _ (mem_of_getElem? hi) hmode]
  · simp only [Bool.and_eq_true, decide_eq_true_eq, Function.comp_apply] at h ⊢
    exact ⟨h.2, hinv.asks g hg (by rw [h.1]; nofun)⟩

theorem room_step (hinv : CapInv U N n₀ w gs) (hi : gs[i]? = some (⟨t, .op r k⟩, m))
    (htask : m.task = t) (hmay : (capMonitor U N sha256).may m r)
    (hok : RoomAtGate U N n₀ ⟨w, gs.map Prod.fst⟩ (.step i)) :
    spentEntries U n₀ (handle w r).2 ((gs.map Prod.fst).set i ⟨t, k a⟩)
      + pastGate (gs.set i (⟨t, k a⟩, m.counted U N w r)) ≤ N := by
  have hi' : (gs.map Prod.fst)[i]? = some ⟨t, .op r k⟩ := by simp [hi]
  have hg := mem_of_getElem? hi
  have hconduct : Conduct (fun _ => True) sha256 t r := htask ▸ hmay.1
  have hroom := hinv.room
  by_cases hgate : m.mode = .waiting ∧ r = .redisGet (.trades U)
      ∧ countOf (w.redis.get w.clock (.trades U)) < N
  · -- the gate is passed: the condition leaves room
    obtain ⟨hwait, rfl, hlt⟩ := hgate
    have hmode : m.mode ≠ .other := by rw [hwait]; nofun
    obtain ⟨request, rfl⟩ := asksFor_webhook (hinv.asks _ hg hmode)
    have hpast := pastGate_le_requests (a := a) hinv hi hmode
      (m.counted U N w (.redisGet (.trades U)))
    have hspent : spentEntries U n₀ _ _ ≤ spentEntries U n₀ w _ :=
      spent_step hi' hconduct hinv.known a nofun
    have hguard := hok request k hi' hlt
    dsimp only at hguard
    omega
  have hpast := pastGate_step (a := a) hi (m.counted U N w r)
    fun h => (counted_free h).resolve_right hgate
  by_cases hqueues : ∃ id, r.queues = some id ∧ m.mode = .free
  · -- a free request queues its entry, and is free no more
    obtain ⟨id, hid, hfree⟩ := hqueues
    obtain rfl := eq_of_queues hid
    have hpast' := pastGate_step_lt (a := a) hi (m.counted U N w (.dispatch ⟨id, .entry⟩))
      hfree (by simp [Sight.counted, hfree])
    have hspent : spentEntries U n₀ _ _ ≤ spentEntries U n₀ w _ + 1 :=
      spent_step_le hi' hconduct hinv.known (rows_fst w.db ▸ hinv.capped.nodup) a
    omega
  · suffices hspent : spentEntries U n₀ (handle w r).2 ((gs.map Prod.fst).set i ⟨t, k a⟩)
        ≤ spentEntries U n₀ w (gs.map Prod.fst) by omega
    refine spent_step hi' hconduct hinv.known a fun id hid => ?_
    obtain rfl := eq_of_queues hid
    rcases hmay.2 with hown | ⟨hknown, hsafe⟩
    · obtain rfl : t = .worker ⟨id, .entry⟩ := htask.symm.trans hown
      exact .inl (underWay_of_worker hi')
    · have hnot := (hsafe rfl).resolve_left fun hfree => hqueues ⟨id, hid, hfree⟩
      exact .inr fun ho => hnot ((hinv.seen _ hg).owned_old hknown.stored ho)

end Step

variable {cfg : Settings} {P P' : Pool}

/-- The relation of every interleaving with room at the gate. -/
abbrev CapMonitored (U : UserId) (N n₀ : Nat) (sha256 : String → String) : Pool → Prop :=
  Monitored (capMonitor U N sha256) (fun t m => m.task = t) (CapInv U N n₀)

theorem spentEntries_mono {ths ths' : Threads} {w' : World} (hdb : w'.db = w.db)
    (h : ∀ id, underWay w'.queue ths' id = true → underWay w.queue ths id = true) :
    spentEntries U n₀ w' ths' ≤ spentEntries U n₀ w ths := by
  unfold spentEntries
  rw [hdb]
  refine countP_mono_left fun s _ hs => ?_
  simp only [Bool.and_eq_true, Bool.or_eq_true] at hs ⊢
  exact ⟨hs.1, hs.2.imp_right (h s.id)⟩

theorem CapInv.shrink {gs' : Sights} {w' : World} (h : CapInv U N n₀ w gs)
    (hgs : gs'.Sublist gs) (hdb : w'.db = w.db) (hredis : w'.redis = w.redis)
    (hqueue : ∀ msg ∈ w'.queue, msg ∈ w.queue) : CapInv U N n₀ w' gs' := by
  have hthreads : ∀ th ∈ gs'.map Prod.fst, th ∈ gs.map Prod.fst := (hgs.map Prod.fst).subset
  refine ⟨hdb ▸ h.capped, fun g hg => hdb ▸ h.seen g (hgs.subset hg), fun msg hmsg => ?_,
    fun strategy record e he => ?_, fun g hg => hdb ▸ h.asks g (hgs.subset hg), ?_⟩
  · rw [hdb]
    exact h.known msg (hmsg.imp (hqueue msg) fun ⟨th, hth, htask⟩ => ⟨th, hthreads th hth, htask⟩)
  · rw [hdb]
    exact h.holds strategy record e (hredis ▸ he)
  · refine (Nat.add_le_add (spentEntries_mono hdb fun id hid => ?_) hgs.countP_le).trans h.room
    simp only [underWay, Bool.or_eq_true, decide_eq_true_eq, any_eq_true] at hid ⊢
    exact hid.imp (hqueue _) fun ⟨th, hth, hwork⟩ => ⟨th, hthreads th hth, hwork⟩

theorem capInv_spawn {t : Task} (hinv : CapInv U N n₀ w gs) (hstart : t.start w = true) :
    ∃ m₀ : Sight, m₀.task = t
      ∧ (t.code cfg sha256).wp (capMonitor U N sha256) (fun _ _ => True) m₀
      ∧ CapInv U N n₀ w (gs ++ [(⟨t, t.code cfg sha256⟩, m₀)]) := by
  have hqueued : ∀ msg, t = .worker msg → msg ∈ w.queue := by
    rintro msg rfl
    exact of_decide_eq_true hstart
  refine ⟨⟨t, if t.asksFor U w.db then .waiting else .other, w.db⟩, rfl,
    task_capWp cfg fun henters request ht => ?_, hinv.capped, fun g hg => ?_, fun msg hmsg => ?_,
    hinv.holds, fun g hg hmode => ?_, ?_⟩
  · subst ht
    exact if_pos (asksFor_iff.2 henters)
  · rcases mem_concat.1 hg with hg | rfl
    · exact hinv.seen g hg
    · exact .refl _
  · rcases hmsg with hmsg | ⟨th, hth, htask⟩
    · exact hinv.known msg (.inl hmsg)
    · rw [map_append] at hth
      rcases mem_concat.1 hth with hth | rfl
      · exact hinv.known msg (.inr ⟨th, hth, htask⟩)
      · exact hinv.known msg (.inl (hqueued msg htask))
  · rcases mem_concat.1 hg with hg | rfl
    · exact hinv.asks g hg hmode
    · by_contra hno
      exact hmode (if_neg hno)
  · have hpast : pastGate (gs ++ [(⟨t, t.code cfg sha256⟩,
        ⟨t, if t.asksFor U w.db then .waiting else .other, w.db⟩)]) = pastGate gs := by
      unfold pastGate
      split_ifs <;> simp
    rw [hpast]
    refine (Nat.add_le_add_right (spentEntries_mono rfl fun id hid => ?_) _).trans hinv.room
    simp only [underWay, Bool.or_eq_true, decide_eq_true_eq, any_eq_true, Bool.and_eq_true,
      map_append, mem_append] at hid ⊢
    rcases hid with hid | ⟨th, hth | hth, htask, hwork⟩
    · exact .inl hid
    · exact .inr ⟨th, hth, htask, hwork⟩
    · rw [mem_singleton.1 hth] at htask
      exact .inl (hqueued _ htask)

theorem capMonitored_next {m : Move Task EnvMove} (h : CapMonitored U N n₀ sha256 P)
    (hok : RoomAtGate U N n₀ P m) (hm : (system cfg sha256).next P m = some P') :
    CapMonitored U N n₀ sha256 P' := by
  refine h.next hm (fun t gs _ hstart hG => capInv_spawn hG hstart) ?_ ?_ ?_
  · rintro i t r k gs a rfl hgs hwp hi hG
    obtain ⟨hT, hmay, -⟩ := hwp _ (mem_of_getElem? hi)
    have hseen := hG.seen _ (mem_of_getElem? hi)
    have hkept := kept_handle (w := P.shared) hmay.1
    have hnext : (capMonitor U N sha256).next a r (handle P.shared r).1
        (a.counted U N P.shared r) :=
      next_counted hG hseen r
    refine ⟨a.counted U N P.shared r, (task_of_capNext hnext).trans hT, hnext,
      (appends_handle hmay.1).capped hG.capped, fun g hg => ?_, known_step hG hi hT hmay _,
      fun _ _ _ => holds_step hG hi hmay, fun g hg hmode => ?_, ?_⟩
    · rcases mem_or_eq_of_mem_set hg with hg | rfl
      · exact (hG.seen g hg).trans hkept
      · exact kept_counted hseen hmay.1
    · refine (asksFor_kept hkept _).trans ?_
      rcases mem_or_eq_of_mem_set hg with hg | rfl
      · exact hG.asks g hg hmode
      · have hold := hG.asks _ (mem_of_getElem? hi) fun h : a.mode = .other =>
          hmode (counted_other h)
        exact hold
    · rw [map_set]
      refine room_step hG hi hT hmay ?_
      rw [hgs]
      exact hok
  · exact fun i gs _ hG => hG.shrink (eraseIdx_sublist gs i) rfl rfl fun _ h => h
  · intro e s gs _ he hG
    cases e with
    | tick n =>
      cases he
      exact hG.shrink (.refl _) rfl rfl fun _ h => h
    | ack msg =>
      cases he
      exact hG.shrink (.refl _) rfl rfl fun _ h => mem_of_mem_erase h

/-- Nothing runs, is queued or is held, and the stored signals have ids of their own. -/
structure AtRest (P : Pool) : Prop where
  threads : P.threads = []
  queue : P.shared.queue = []
  holds : ∀ strategy, P.shared.redis.slot (.heldExit strategy) = none
  ids : IdsBelow P.shared.db
  nodup : (P.shared.db.signals.map (·.id)).Nodup

/-- In every run whose requests find room at the gate, no more of the user's entries are executed
than the cap allows. -/
theorem executed_within_cap {c : KillSwitchConfig} {moves : List (Move Task EnvMove)} {Q : Pool}
    (hP : AtRest P) (hc : P.shared.db.config U = some c) (henabled : c.enabled = true)
    (hrun : Run (system cfg sha256).next (RoomAtGate U c.maxDailyTrades P.shared.db.nextId) P
      moves Q) :
    executedEntries U P.shared.db.nextId Q.shared ≤ c.maxDailyTrades := by
  have hspent : spentEntries U P.shared.db.nextId P.shared [] = 0 := by
    refine countP_eq_zero.2 fun s hs h => ?_
    have hlt := hP.ids s hs
    simp only [StrategySignal.entryOf, Bool.and_eq_true, decide_eq_true_eq] at h
    exact absurd h.1.1.1 hlt.not_ge
  have hinv : CapInv U c.maxDailyTrades P.shared.db.nextId P.shared [] :=
    ⟨⟨hP.ids, rows_fst _ ▸ hP.nodup, c, hc, henabled, rfl⟩, by simp, by simp [AllKnown, hP.queue],
      by simp [hP.holds], by simp, by simp [hspent, pastGate]⟩
  obtain ⟨gs, -, -, hG⟩ := hrun.invariant
    (fun _ _ _ hI hok hm => capMonitored_next hI hok hm)
    (monitored_of_no_threads hP.threads hinv :
      CapMonitored U c.maxDailyTrades P.shared.db.nextId sha256 P)
  exact (executedEntries_le_spent _).trans (Nat.le_add_right _ _ |>.trans hG.room)

end Runs

/-- A cap of one trade a day, with nothing running. -/
def cappedPool : Pool := ⟨cappedWorld, []⟩

def entryRequest (rawBody : String) : SignalRequest :=
  { sampleRequest 5 "ENTRY" with rawBody := rawBody }

def entryAtCap : List (Move Task EnvMove) :=
  .spawn (.webhook (entryRequest "first")) :: List.replicate 17 (.step 0)
    ++ .spawn (.worker ⟨200, .entry⟩) :: List.replicate 23 (.step 1)

/-- Two entries are accepted before either is executed. -/
def racingEntries : List (Move Task EnvMove) :=
  .spawn (.webhook (entryRequest "first")) :: List.replicate 17 (.step 0)
    ++ .spawn (.webhook (entryRequest "second")) :: List.replicate 17 (.step 1)
    ++ .spawn (.worker ⟨200, .entry⟩) :: List.replicate 23 (.step 2)
    ++ .spawn (.worker ⟨201, .entry⟩) :: List.replicate 34 (.step 3)

/-- Two entries are executed under a cap of one. -/
theorem cap_exceeded : ∃ Q : Pool,
    Run (system sampleSettings id).next (fun _ _ => True) cappedPool racingEntries Q
      ∧ (cappedPool.shared.db.config 10).map (·.maxDailyTrades) = some 1
      ∧ executedEntries 10 cappedPool.shared.db.nextId Q.shared = 2 := by
  decide +kernel

/-- A test for room at the gate: there is room wherever a key is read. -/
def roomyReads (U : UserId) (N : Nat) (n₀ : SignalId) (P : Pool) : Move Task EnvMove → Bool
  | .step i => match P.threads[i]? with
    | some ⟨_, .op (.redisGet _) _⟩ =>
      spentEntries U n₀ P.shared P.threads + requestsAtWork U P.shared P.threads ≤ N
    | _ => true
  | _ => true

theorem roomAtGate_of_roomyReads {U : UserId} {N : Nat} {n₀ : SignalId} {P : Pool}
    {m : Move Task EnvMove} (h : roomyReads U N n₀ P m = true) : RoomAtGate U N n₀ P m := by
  cases m with
  | step i =>
    intro request k hi _
    simp only [roomyReads, hi] at h
    exact of_decide_eq_true h
  | _ => trivial

theorem cap_kept_by_one : ∃ Q : Pool,
    Run (system sampleSettings id).next (RoomAtGate 10 1 200) cappedPool entryAtCap Q
      ∧ executedEntries 10 200 Q.shared = 1 ∧ executedEntries 10 200 Q.shared ≤ 1 := by
  have hexec : (exec (fun P m => if roomyReads 10 1 200 P m then
      (system sampleSettings id).next P m else none) cappedPool entryAtCap).any (fun Q : Pool =>
      decide (executedEntries 10 200 Q.shared = 1)) = true := by decide +kernel
  obtain ⟨Q, hrun, h⟩ := exists_run_of_exec_checked (roomyReads 10 1 200)
    (fun _ _ => roomAtGate_of_roomyReads) hexec
  have hrest : AtRest cappedPool :=
    ⟨rfl, rfl, fun _ => rfl, by unfold IdsBelow; decide, by decide⟩
  have hc : cappedPool.shared.db.config 10 = some ⟨10, true, 0, 1, true⟩ := rfl
  exact ⟨Q, hrun, of_decide_eq_true h, executed_within_cap hrest hc rfl hrun⟩

end TradingBridge
