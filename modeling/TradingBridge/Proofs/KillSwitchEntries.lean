import TradingBridge.Proofs.Conduct

/-!
# Entries after a trip

The flag is read by the webhook, before the signal is stored and queued; the worker that sends the
order does not read it. Where the flag is set with none of the user's entries queued and no other
thread of the user's at work, no entry order of the user goes out until the flag is cleared.
-/

namespace TradingBridge

open Effectful Prog List

section Rows

def Db.OwnedBy (d : Db) (id : SignalId) (u : UserId) : Prop :=
  ∃ s ∈ d.signals, s.id = id ∧ s.userId = u

def IdsBelow (d : Db) : Prop := ∀ s ∈ d.signals, s.id < d.nextId

/-- Of the stored signals, what no change of status touches. -/
def Db.rows (d : Db) : List (SignalId × UserId × String) :=
  d.signals.map fun s => (s.id, s.userId, s.action)

/-- What a thread saw of the configurations, the tokens and the stored signals still holds. -/
structure Kept (d d' : Db) : Prop where
  configs : d'.configs = d.configs
  tokens : d'.tokens = d.tokens
  nextId : d.nextId ≤ d'.nextId
  rows : d.rows ⊆ d'.rows
  old : ∀ x ∈ d'.rows, x.1 < d.nextId → x ∈ d.rows

/-- What one request does to them. -/
structure Appends (d d' : Db) : Prop where
  configs : d'.configs = d.configs
  tokens : d'.tokens = d.tokens
  nextId : d.nextId ≤ d'.nextId
  rows : d'.rows = d.rows ∨ ∃ x, x.1 = d.nextId ∧ d'.rows = d.rows ++ [x] ∧ d.nextId < d'.nextId

variable {d d' d'' : Db} {id : SignalId} {u : UserId}

theorem ownedBy_iff : d.OwnedBy id u ↔ ∃ a, (id, u, a) ∈ d.rows := by
  simp [Db.OwnedBy, Db.rows]

theorem idsBelow_iff : IdsBelow d ↔ ∀ x ∈ d.rows, x.1 < d.nextId := by
  simp [IdsBelow, Db.rows]

theorem Kept.refl (d : Db) : Kept d d :=
  ⟨rfl, rfl, le_rfl, List.Subset.refl _, fun _ hx _ => hx⟩

theorem Kept.trans (h : Kept d d') (h' : Kept d' d'') : Kept d d'' :=
  ⟨h'.configs.trans h.configs, h'.tokens.trans h.tokens, h.nextId.trans h'.nextId,
    List.Subset.trans h.rows h'.rows,
    fun x hx hid => h.old x (h'.old x hx (hid.trans_le h.nextId)) hid⟩

theorem Kept.owned (h : Kept d d') : d.OwnedBy id u → d'.OwnedBy id u := by
  simp only [ownedBy_iff]
  exact fun ⟨a, ha⟩ => ⟨a, h.rows ha⟩

theorem Kept.owned_old (h : Kept d d') (hid : id < d.nextId) :
    d'.OwnedBy id u → d.OwnedBy id u := by
  simp only [ownedBy_iff]
  exact fun ⟨a, ha⟩ => ⟨a, h.old _ ha hid⟩

theorem Grows.appends (h : Grows d d') : Appends d d' :=
  ⟨h.configs, h.tokens, h.nextId, h.signals.imp (congrArg (List.map _))
    fun ⟨row, hrow, _, heq, hlt⟩ =>
      ⟨(row.id, row.userId, row.action), hrow, by simp [Db.rows, heq], hlt⟩⟩

theorem Appends.kept (h : Appends d d') : Kept d d' := by
  rcases h.rows with heq | ⟨x, hx, heq, -⟩
  · exact ⟨h.configs, h.tokens, h.nextId, heq ▸ List.Subset.refl _, fun y hy _ => heq ▸ hy⟩
  · refine ⟨h.configs, h.tokens, h.nextId, by simp [heq], fun y hy hid => ?_⟩
    rw [heq] at hy
    rcases mem_concat.1 hy with hy | rfl
    · exact hy
    · exact absurd hx hid.ne

theorem Appends.idsBelow (h : Appends d d') (hd : IdsBelow d) : IdsBelow d' := by
  rw [idsBelow_iff] at hd ⊢
  intro y hy
  rcases h.rows with heq | ⟨x, hx, heq, hlt⟩
  · exact (hd y (heq ▸ hy)).trans_le h.nextId
  · rw [heq] at hy
    rcases mem_concat.1 hy with hy | rfl
    · exact (hd y hy).trans hlt
    · exact hx ▸ hlt

variable {D : Db → Prop} {sha256 : String → String} {t : Task} {r : Request} {w : World}

theorem appends_handle (hr : Conduct D sha256 t r) : Appends w.db (handle w r).2.db := by
  cases r with
  | db f => exact (hr w.db).appends
  | setSignalStatus id st =>
    refine ⟨rfl, rfl, le_rfl, .inl ?_⟩
    refine (map_map ..).trans (map_congr_left fun s _ => ?_)
    simp only [Function.comp_apply]
    split_ifs <;> rfl
  | _ => exact ⟨rfl, rfl, le_rfl, .inl rfl⟩

theorem kept_handle (hr : Conduct D sha256 t r) : Kept w.db (handle w r).2.db :=
  (appends_handle hr).kept

end Rows

section Monitor

/-- Whether a thread may still enter: it has yet to read the flag, it may, it will not. -/
inductive Mode
  | waiting
  | free
  | other
  deriving DecidableEq

/-- A thread's task and mode, and the database as it last saw it. -/
structure Sight where
  task : Task
  mode : Mode
  db : Db

def Task.Enters (U : UserId) (d : Db) : Task → Prop
  | .worker m => m.kind = .entry ∧ d.OwnedBy m.signal U
  | .webhook request => ∃ t ∈ d.tokens, t.id = request.token ∧ t.userId = U
  | _ => False

/-- A thread that waits is freed by a flag that is not tripped. -/
def Mode.afterRead (U u : UserId) (flag : Option RedisValue) : Mode → Mode
  | .waiting =>
    if u = U then (if flag = some (.status .tripped) then .other else .free) else .waiting
  | mode => mode

/-- Only a free thread sends or queues an entry of the user's, which is stored. -/
def Sight.Allows (U : UserId) (m : Sight) : Request → Prop
  | .placeOrder c => m.mode = .free ∨ ∀ id s, c.origin ≠ .entry id s U
  | .dispatch msg => msg.kind = .entry →
    msg.signal < m.db.nextId ∧ (m.mode = .free ∨ ¬ m.db.OwnedBy msg.signal U)
  | .redisGet (.kill u) => u = U → m.mode = .waiting → m.task.Enters U m.db
  | _ => True

/-- Follows a thread by its mode. Who trips the switch will not enter. -/
def entryMonitor (U : UserId) (sha256 : String → String) : Machine Request Response Sight where
  may m r := Conduct (fun _ => True) sha256 m.task r ∧ m.Allows U r
  next m r a m' := match r, a with
    | .db f, a => ∃ d, IdsBelow d ∧ Kept m.db d ∧ a = (f d).1 ∧ m' = { m with db := (f d).2 }
    | .redisGet (.kill u), flag => m' = { m with mode := m.mode.afterRead U u flag }
    | .redisSet (.kill u) _, _ => m' = { m with mode := if u = U then .other else m.mode }
    | _, _ => m' = m

variable {U : UserId} {sha256 : String → String} {α : Type}

structure Sight.Later (m m' : Sight) : Prop where
  task : m'.task = m.task
  mode : m'.mode = m.mode
  db : Kept m.db m'.db

theorem Sight.Later.refl (m : Sight) : m.Later m := ⟨rfl, rfl, .refl _⟩

theorem Sight.Later.trans {m m' m'' : Sight} (h : m.Later m') (h' : m'.Later m'') : m.Later m'' :=
  ⟨h'.task.trans h.task, h'.mode.trans h.mode, h.db.trans h'.db⟩

/-- Requests that queue nothing, leave the flags alone and send the orders in `O` only. -/
def Quiet (O : OrderCall → Prop) : Request → Prop
  | .placeOrder c => O c
  | .dispatch _ => False
  | .redisGet k => ∀ u, k ≠ .kill u
  | .redisSet _ _ => False
  | _ => True

theorem fromDb_of_next {m m' : Sight} {r : Request} {a : Response r}
    (h : (entryMonitor U sha256).next m r a m') : FromDb (fun _ => True) r a := by
  cases r with
  | db f =>
    obtain ⟨d, -, -, ha, -⟩ := h
    exact ⟨d, trivial, ha⟩
  | _ => trivial

theorem later_of_quiet {O : OrderCall → Prop} {m m' : Sight} {r : Request} {a : Response r}
    (hr : Conduct (fun _ => True) sha256 m.task r) (hq : Quiet O r)
    (h : (entryMonitor U sha256).next m r a m') : m.Later m' := by
  cases r with
  | db f =>
    obtain ⟨d, -, hkept, -, rfl⟩ := h
    exact ⟨rfl, rfl, hkept.trans ((hr d).appends.kept)⟩
  | redisGet k =>
    cases k with
    | kill u => exact absurd rfl (hq u)
    | _ =>
      obtain rfl : m' = m := h
      exact .refl _
  | redisSet k v => exact hq.elim
  | _ =>
    obtain rfl : m' = m := h
    exact .refl _

theorem wp_quiet {O : OrderCall → Prop} {m : Sight} {c : Code α}
    (hc : Conducts (fun _ => True) sha256 m.task c) (hq : c.AsksIn (Quiet O))
    (hO : ∀ o, O o → m.mode = .free ∨ ∀ id s, o.origin ≠ .entry id s U) :
    c.wp (entryMonitor U sha256) (fun _ m' => m.Later m') m := by
  refine (hc.and hq).wp ?_ ?_ (fun _ _ _ hm => hm) (fun _ _ hm => hm) (.refl m)
  · rintro m' r hm ⟨hr, hquiet⟩
    refine ⟨hm.task ▸ hr, ?_⟩
    cases r with
    | placeOrder o => exact (hO o hquiet).imp hm.mode.trans id
    | dispatch msg => exact hquiet.elim
    | redisGet k =>
      cases k with
      | kill u => exact absurd rfl (hquiet u)
      | _ => trivial
    | _ => trivial
  · rintro m' r a m'' hm ⟨hr, hquiet⟩ hn
    exact ⟨hm.trans (later_of_quiet (hm.task ▸ hr) hquiet hn), fromDb_of_next hn⟩

theorem Mirrors.quiet {r : Request} (h : Mirrors r) : Quiet (fun _ => False) r := by
  cases r with
  | placeOrder | dispatch | redisSet | redisGet => exact h
  | _ => trivial

theorem wp_mirrors {m : Sight} {c : Code α} (h : c.AsksIn Mirrors) :
    c.wp (entryMonitor U sha256) (fun _ m' => m.Later m') m :=
  wp_quiet (conducts_of_mirrors h) (asksIn_mono (fun _ hr => hr.quiet) h) fun _ ho => ho.elim

end Monitor

section Worker

variable {U : UserId} {sha256 : String → String} {α : Type}

variable (cfg : Settings) {O : OrderCall → Prop} {sig : StrategySignal} {c : Code α}

theorem quiet_of_books (h : c.AsksIn Books) : c.AsksIn (Quiet O) :=
  asksIn_mono (fun r hr => by
    cases r with
    | redisGet => exact hr
    | placeOrder | dispatch | redisSet => exact hr.elim
    | _ => trivial) h

theorem quiet_of_reads (h : c.AsksIn Reads) :
    c.AsksIn (Quiet O) := quiet_of_books (books_of_reads h)

theorem setSignalStatus_quiet (id : SignalId) (st : SignalStatus) :
    (setSignalStatus id st).AsksIn (Quiet O) := (asksIn_perform _).2 trivial

theorem placeStrategyOrders_quiet (sig : StrategySignal) (strategy : Strategy)
    (lots : Option Int) : (placeStrategyOrders cfg sig strategy lots).AsksIn
      (Quiet fun o => o.origin = .entry sig.id strategy.id sig.userId) := by
  refine asksIn_bind ((asksIn_perform _).2 trivial) fun _ => asksIn_bind
    (quiet_of_reads (prepareEntry_reads _ _ _ _)) fun plan => asksIn_bind ?_ fun report =>
    quiet_of_books (bookEntry_books _ _ _ _)
  unfold fillEntry
  split
  · exact ofExcept_asksIn _
  refine asksIn_bind (ofExcept_asksIn _) fun product => asksIn_bind
    (quiet_of_reads (preTradeChecks_reads _ _)) fun _ => asksIn_bind ?_ fun _ => asksIn_bind
    (asksIn_bind ((asksIn_perform _).2 rfl) fun _ => ofExcept_asksIn _) fun _ =>
    quiet_of_books (confirmEntryFill_books _ _)
  refine asksIn_bind ((asksIn_perform _).2 trivial) fun first => ?_
  split <;> trivial

/-- At a stored signal, free to enter, or the signal is not the user's. -/
structure Sight.Ready (U : UserId) (t : Task) (id : SignalId) (m : Sight) : Prop where
  task : m.task = t
  stored : id < m.db.nextId
  safe : m.mode = .free ∨ ¬ m.db.OwnedBy id U

theorem Sight.Ready.later {t : Task} {id : SignalId} {m m' : Sight} (h : m.Ready U t id)
    (hl : m.Later m') : m'.Ready U t id :=
  ⟨hl.task.trans h.task, h.stored.trans_le hl.db.nextId,
    h.safe.imp hl.mode.trans fun hno ho => hno (hl.db.owned_old h.stored ho)⟩

abbrev Sight.AtEntry (U : UserId) (id : SignalId) : Sight → Prop :=
  Sight.Ready U (.worker ⟨id, .entry⟩) id

/-- What the worker leaves behind where it fails, a worker can go on from. -/
def EntryPost (U : UserId) (id : SignalId) : Except AppError α → Sight → Prop
  | .ok _, _ => True
  | .error _, m => m.AtEntry U id

theorem entryPost_of_atEntry {id : SignalId} {x : Except AppError α} {m : Sight}
    (h : m.AtEntry U id) : EntryPost U id x m := by
  cases x with
  | ok => trivial
  | error => exact h

variable {id : SignalId} {m : Sight}

theorem setSignalStatus_wp (hm : m.AtEntry U id) {st : SignalStatus} (hst : st ≠ .received) :
    (setSignalStatus id st).wp (entryMonitor U sha256) (EntryPost U id) m := by
  have hconduct : Conducts (fun _ => True) sha256 m.task (setSignalStatus id st) :=
    hm.task ▸ setOwnStatus_conducts _ _ hst
  exact wp_mono (fun _ _ hl => entryPost_of_atEntry (hm.later hl))
    (wp_quiet hconduct (setSignalStatus_quiet (O := fun _ => False) _ _) fun _ ho => ho.elim)

theorem bind_wp {β : Type} {O : OrderCall → Prop} {c : Code α} {f : α → Code β}
    {Q : Except AppError β → Sight → Prop} (hm : m.AtEntry U id)
    (hc : Conducts (fun _ => True) sha256 (.worker ⟨id, .entry⟩) c) (hq : c.AsksIn (Quiet O))
    (hO : ∀ o, O o → m.mode = .free ∨ ∀ id s, o.origin ≠ .entry id s U)
    (hok : ∀ a m', m.Later m' → (f a).wp (entryMonitor U sha256) Q m')
    (herr : ∀ e m', m.Later m' → Q (.error e) m') :
    (c >>= f).wp (entryMonitor U sha256) Q m :=
  wp_bind_of (wp_quiet (hm.task ▸ hc) hq hO) hok herr

variable {f : α → Code Unit}

theorem bind_quiet_wp (hm : m.AtEntry U id)
    (hc : Conducts (fun _ => True) sha256 (.worker ⟨id, .entry⟩) c)
    (hq : c.AsksIn (Quiet fun _ => False))
    (hok : ∀ a m', m.Later m' → m'.AtEntry U id →
      (f a).wp (entryMonitor U sha256) (EntryPost U id) m') :
    (c >>= f).wp (entryMonitor U sha256) (EntryPost U id) m :=
  bind_wp hm hc hq (fun _ ho => ho.elim) (fun a m' hl => hok a m' hl (hm.later hl))
    fun _ _ hl => hm.later hl

theorem bind_reads_wp (hm : m.AtEntry U id)
    (hc : c.AsksIn Reads) (hok : ∀ a m', m.Later m' → m'.AtEntry U id →
      (f a).wp (entryMonitor U sha256) (EntryPost U id) m') :
    (c >>= f).wp (entryMonitor U sha256) (EntryPost U id) m :=
  bind_quiet_wp hm (conducts_of_reads hc) (quiet_of_reads hc) hok

theorem follows_of_trips (user : UserId) {c : Code α} (h : c.AsksIn (Trips user)) :
    c.Follows (entryMonitor U sha256) := by
  refine h.follows fun m r hr => ⟨hr.conduct, ?_⟩
  cases r with
  | placeOrder o =>
    obtain ⟨p, hp⟩ := hr
    exact .inr fun id s => by rw [hp]; nofun
  | dispatch => exact hr.elim
  | redisGet k =>
    cases k with
    | kill u => exact absurd rfl (hr u)
    | _ => trivial
  | _ => trivial

theorem postTradeHooks_wp (id : SignalId) (cfg : Settings) (user : UserId) (m : Sight) :
    (postTradeHooks cfg user).wp (entryMonitor U sha256) (EntryPost U id) m := by
  refine wp_tryCatch.2 (wp_mono (fun x m' _ => ?_) (follows_of_trips user ?_ m))
  · cases x <;> trivial
  · exact asksIn_bind ((asksIn_perform _).2 rfl) fun _ =>
      asksIn_bind (checkAndTrigger_trips cfg none) fun _ => asksIn_pure _

theorem suppressed_wp (hm : m.AtEntry U id) (e : AppError) : (match e with
      | .duplicateOrderSuppressed _ => pure ()
      | _ => setSignalStatus id .failed : Code Unit).wp (entryMonitor U sha256)
        (EntryPost U id) m := by
  split
  · trivial
  · exact setSignalStatus_wp hm (by decide)

theorem executeEntry_wp (strategy : Strategy)
    (lots : Option Int) (hm : m.AtEntry U sig.id) (hsig : m.mode = .free ∨ sig.userId ≠ U) :
    (executeEntry cfg sig strategy lots).wp (entryMonitor U sha256) (EntryPost U sig.id) m := by
  refine wp_tryCatch.2 (bind_wp hm (placeStrategyOrders_conducts _ _ _ _)
    (placeStrategyOrders_quiet cfg sig strategy lots) ?_ ?_ fun e m' hl =>
      suppressed_wp (hm.later hl) e)
  · intro o ho
    refine hsig.imp_right fun hne id s horigin => hne ?_
    rw [ho] at horigin
    exact (Origin.entry.inj horigin).2.2
  · intro result m' hl
    refine bind_wp (hm.later hl) (setOwnStatus_conducts _ _ (by decide))
      (setSignalStatus_quiet (O := fun _ => False) _ _) (fun _ ho => ho.elim) ?_
      fun e m'' hl' => suppressed_wp ((hm.later hl).later hl') e
    intro _ m'' _
    refine wp_mono (fun x m₃ hx => ?_) (postTradeHooks_wp sig.id cfg sig.userId m'')
    cases x with
    | ok => trivial
    | error e => exact suppressed_wp hx e

theorem simulated_wp (hm : m.AtEntry U sig.id) (enabled : Bool) :
    (executeRouted.simulated sig PaperOutcome.entryStatus enabled).wp
      (entryMonitor U sha256) (EntryPost U sig.id) m := by
  unfold executeRouted.simulated
  split
  · refine bind_reads_wp hm (ask_reads _) fun answer m₁ _ hm₁ => bind_reads_wp hm₁
      (ofExcept_asksIn _) fun outcome m₂ _ hm₂ => ?_
    exact setSignalStatus_wp hm₂ (by cases outcome <;> decide)
  · exact setSignalStatus_wp hm (by decide)

theorem enterSignal_wp (strategy : Strategy)
    (hm : m.AtEntry U sig.id) (hsig : m.mode = .free ∨ sig.userId ≠ U) :
    (enterSignal cfg sig strategy).wp (entryMonitor U sha256) (EntryPost U sig.id) m := by
  refine bind_reads_wp hm (validateEntry_reads _ _) fun decision m₁ hl₁ hm₁ => ?_
  split
  · exact setSignalStatus_wp hm₁ (by decide)
  refine bind_quiet_wp hm₁ (setStatus_conducts _ (by decide)) (setSignalStatus_quiet _ _)
    fun _ m₂ hl₂ hm₂ => ?_
  unfold executeRouted
  split
  · exact executeEntry_wp cfg strategy _ hm₂
      (hsig.imp_left fun hfree => hl₂.mode.trans (hl₁.mode.trans hfree))
  · exact simulated_wp hm₂ _
  · exact simulated_wp hm₂ _

theorem readDb_wp {β : Type} (f : Db → α) {k : α → Code β}
    {Q : Except AppError β → Sight → Prop} (h : ∀ d, IdsBelow d → Kept m.db d →
      (k (f d)).wp (entryMonitor U sha256) Q { m with db := d }) :
    (readDb f >>= k).wp (entryMonitor U sha256) Q m := by
  refine wp_bind.2 ⟨⟨fun d => Grows.of_sameBooks (.refl d), trivial⟩, ?_⟩
  rintro a _ ⟨d, hd, hkept, rfl, rfl⟩
  exact h d hd hkept

theorem processEntry_entries (hm : m.AtEntry U id) :
    (processEntry cfg id).wp (entryMonitor U sha256) (EntryPost U id) m := by
  refine readDb_wp _ fun d _ hkept => ?_
  have hm₁ : Sight.AtEntry U id { m with db := d } := hm.later ⟨rfl, rfl, hkept⟩
  split
  · trivial
  rename_i sig hsig
  obtain rfl := signal_id_of_found hsig.symm
  have hfree : m.mode = .free ∨ sig.userId ≠ U := hm₁.safe.imp_right fun hno hu =>
    hno ⟨sig, mem_of_find?_eq_some hsig, rfl, hu⟩
  refine bind_reads_wp hm₁ (readDb_reads _) fun row m₂ hl₂ hm₂ => ?_
  split
  · exact setSignalStatus_wp hm₂ (by decide)
  rename_i strategy _
  have hdup : (isDuplicateEntry sig strategy).AsksIn (Quiet fun _ => False) := by
    unfold isDuplicateEntry
    split
    · trivial
    · exact asksIn_bind (quiet_of_reads now_reads) fun _ => asksIn_bind
        ((asksIn_perform _).2 trivial) fun _ => asksIn_pure _
  refine bind_quiet_wp hm₂ (isDuplicateEntry_follows (working_conducts _)).yields hdup
    fun duplicate m₃ hl₃ hm₃ => ?_
  split
  · exact setSignalStatus_wp hm₃ (by decide)
  refine bind_quiet_wp hm₃ (setStatus_conducts _ (by decide)) (setSignalStatus_quiet _ _)
    fun _ m₄ hl₄ hm₄ => enterSignal_wp cfg strategy hm₄ ?_
  exact hfree.imp_left fun hfree =>
    hl₄.mode.trans (hl₃.mode.trans (hl₂.mode.trans hfree))

theorem entryWorker_wp (cfg : Settings) (hm : m.AtEntry U id) :
    ((Task.worker ⟨id, .entry⟩).code cfg sha256).wp (entryMonitor U sha256)
      (fun _ _ => True) m := by
  refine wp_tryCatch.2 (wp_mono (fun x m' hx => ?_) (processEntry_entries cfg hm))
  cases x with
  | ok => trivial
  | error e =>
    unfold Handler
    dsimp only
    split
    · trivial
    · exact ⟨⟨.inl hx.task, fun _ => ⟨hx.stored, hx.safe⟩⟩, fun _ _ _ => trivial⟩

end Worker

section Tasks

variable {U : UserId} {sha256 : String → String}

variable (cfg : Settings)

theorem other_wp {t : Task} (hentry : ∀ id, t ≠ .worker ⟨id, .entry⟩)
    (hrequest : ∀ request, t ≠ .webhook request) (d : Db) :
    (t.code cfg sha256).wp (entryMonitor U sha256) (fun _ _ => True) ⟨t, .other, d⟩ := by
  refine (task_conducts (D := fun _ => True) cfg sha256 t).wp
    (I := fun m => m.task = t ∧ m.mode = .other) ?_ ?_ (fun _ _ _ _ => trivial)
    (fun _ _ _ => trivial) ⟨rfl, rfl⟩
  · rintro m r ⟨rfl, hmode⟩ hr
    refine ⟨hr, ?_⟩
    cases r with
    | placeOrder c =>
      rcases hr with ⟨user, p, hp⟩ | ⟨id, s, user, ht, -⟩ | ⟨id, kind, s, p, -, -, hp⟩
      · exact .inr fun id s => by rw [hp]; nofun
      · exact absurd ht (hentry id)
      · exact .inr fun id s => by rw [hp]; nofun
    | dispatch msg =>
      intro hkind
      rcases hr with ht | ⟨request, ht⟩
      · obtain ⟨id, kind⟩ := msg
        obtain rfl : kind = .entry := hkind
        exact absurd ht (hentry id)
      · exact absurd ht (hrequest request)
    | redisGet k =>
      cases k with
      | kill u =>
        intro _ hwaiting
        rw [hmode] at hwaiting
        cases hwaiting
      | _ => trivial
    | _ => trivial
  · rintro m r a m' ⟨rfl, hmode⟩ _ hn
    refine ⟨?_, fromDb_of_next hn⟩
    cases r with
    | db f =>
      obtain ⟨d, -, -, -, rfl⟩ := hn
      exact ⟨rfl, hmode⟩
    | redisGet k =>
      cases k with
      | kill u =>
        obtain rfl : m' = _ := hn
        exact ⟨rfl, by simp [hmode, Mode.afterRead]⟩
      | _ =>
        obtain rfl : m' = m := hn
        exact ⟨rfl, hmode⟩
    | redisSet k v =>
      cases k with
      | kill u =>
        obtain rfl : m' = _ := hn
        exact ⟨rfl, by simp [hmode]⟩
      | _ =>
        obtain rfl : m' = m := hn
        exact ⟨rfl, hmode⟩
    | _ =>
      obtain rfl : m' = m := hn
      exact ⟨rfl, hmode⟩

variable {m : Sight} {α β : Type}

theorem bind_mirrors_wp {c : Code α} {f : α → Code β} (hc : c.AsksIn Mirrors)
    (hok : ∀ a m', m.Later m' → (f a).wp (entryMonitor U sha256) (fun _ _ => True) m') :
    (c >>= f).wp (entryMonitor U sha256) (fun _ _ => True) m :=
  wp_bind_of (wp_mirrors hc) hok fun _ _ _ => trivial

/-- The gate stops a request of the user's that finds the flag tripped and frees one that does
not. -/
theorem killSwitchGate_wp {u : UserId} {k : Unit → Code β} (hwait : m.mode = .waiting)
    (htask : u = U → m.task.Enters U m.db)
    (hk : (k ()).wp (entryMonitor U sha256) (fun _ _ => True)
      { m with mode := if u = U then .free else .waiting }) :
    (killSwitchGate u >>= k).wp (entryMonitor U sha256) (fun _ _ => True) m := by
  refine wp_bind.2 (wp_bind.2 (wp_bind.2
    ⟨⟨trivial, fun hu _ => htask hu⟩, ?_⟩))
  rintro flag _ rfl
  rw [hwait]
  by_cases htripped : flag = some (.status .tripped)
  · subst htripped
    trivial
  · cases flag with
    | none => exact hk
    | some v =>
      cases v with
      | status st =>
        cases st with
        | active => exact hk
        | tripped => exact absurd rfl htripped
      | _ => exact hk

variable {request : SignalRequest}

def QueuesOnly (id : SignalId) : Request → Prop
  | .dispatch msg => msg.kind = .entry → msg.signal = id
  | r => Quiet (fun _ => False) r

theorem QueuesOnly.cases {id : SignalId} {r : Request} (h : QueuesOnly id r) :
    (∃ msg, r = .dispatch msg) ∨ Quiet (fun _ => False) r := by
  cases r with
  | dispatch msg => exact .inl ⟨msg, rfl⟩
  | _ => exact .inr h

theorem Shields.queuesOnly {strategy : StrategyId} {id : SignalId} {r : Request}
    (h : Shields strategy r) : QueuesOnly id r := by
  cases r with
  | dispatch | placeOrder | redisSet => exact h.elim
  | redisGet => exact h
  | _ => trivial

theorem dispatchStored_wp (strategy : Strategy) {signal : StrategySignal}
    (kind : SignalKind) (hm : m.Ready U (.webhook request) signal.id) :
    (dispatchStored cfg strategy signal kind).wp (entryMonitor U sha256)
      (fun _ m' => m'.task = .webhook request) m := by
  have hasks : (dispatchStored cfg strategy signal kind).AsksIn (QueuesOnly signal.id) :=
    dispatchStored_asksIn cfg (fun _ hr => hr.queuesOnly) (fun _ => trivial) (fun _ => rfl) nofun
  have hconduct : Conducts (fun _ => True) sha256 (.webhook request)
      (dispatchStored cfg strategy signal kind) := dispatchStored_conducts _ _ _ _ _
  refine (hconduct.and hasks).wp
    (I := fun m' => m.Later m') ?_ ?_
    (fun _ _ _ hl => hl.task.trans hm.task) (fun _ _ hl => hl.task.trans hm.task) (.refl m)
  · rintro m' r hl ⟨hr, hqueues⟩
    have hm' := hm.later hl
    refine ⟨hm'.task ▸ hr, ?_⟩
    cases r with
    | dispatch msg =>
      intro hkind
      rw [hqueues hkind]
      exact ⟨hm'.stored, hm'.safe⟩
    | placeOrder => exact hqueues.elim
    | redisGet k =>
      cases k with
      | kill u => exact absurd rfl (hqueues u)
      | _ => trivial
    | _ => trivial
  · rintro m' r a m'' hl ⟨hr, hqueues⟩ hn
    refine ⟨hl.trans ?_, fromDb_of_next hn⟩
    rcases hqueues.cases with ⟨msg, rfl⟩ | hquiet
    · obtain rfl : m'' = m' := hn
      exact .refl _
    · exact later_of_quiet (hl.task.trans hm.task ▸ hr) hquiet hn

theorem ready_of_persisted {tok : WebhookToken} (strategy : Strategy) (payload : Body)
    (valid : ValidPayload) (ts : Nat) {d : Db} (hd : IdsBelow d) (htask : m.task = .webhook request)
    (hfree : m.mode = .free ∨ tok.userId ≠ U) :
    Sight.Ready U (.webhook request) d.nextId { m with
      db := { d with
        signals := d.signals ++ [signalRow tok strategy payload valid ts d.nextId]
        nextId := d.nextId + 1 } } := by
  refine ⟨htask, Nat.lt_succ_self _, hfree.imp_right ?_⟩
  rintro hne ⟨s, hs, hid, hu⟩
  rcases mem_concat.1 hs with hs | rfl
  · exact absurd hid (hd s hs).ne
  · exact hne hu

theorem processSignal_wp (cfg : Settings) {tok : WebhookToken} {body : Body} {hash : String}
    (htask : m.task = .webhook request) (hwait : m.mode = .waiting) (htok : tok ∈ m.db.tokens)
    (hid : tok.id = request.token) (hkey : request.HasKey (fun _ => True) sha256 hash) :
    (processSignal cfg tok body hash).wp (entryMonitor U sha256) (fun _ _ => True) m := by
  refine killSwitchGate_wp hwait (fun hu => ?_) ?_
  · rw [htask]
    exact ⟨tok, htok, hid, hu⟩
  have hfree : (if tok.userId = U then Mode.free else .waiting) = .free ∨ tok.userId ≠ U := by
    by_cases hu : tok.userId = U
    · exact .inl (if_pos hu)
    · exact .inr hu
  refine bind_mirrors_wp (mirrors_of_reads (signalGates_reads _ _)) fun strategy m₁ h₁ =>
    bind_mirrors_wp (mirrors_of_reads (preparePayload_reads _ _)) fun (payload, valid) m₂ h₂ =>
    bind_mirrors_wp (mirrors_of_reads now_reads) fun ts m₃ h₃ => ?_
  have hl := (h₁.trans h₂).trans h₃
  refine wp_bind.2 ⟨⟨persistSignal_grows _ _ _ _ _, trivial⟩, ?_⟩
  rintro signal _ ⟨d, hd, -, rfl, rfl⟩
  have hready := ready_of_persisted strategy payload valid ts hd (hl.task.trans htask)
    (hfree.imp_left hl.mode.trans)
  refine wp_bind_of (dispatchStored_wp cfg strategy _ hready) (fun queued m₄ h₄ =>
    bind_mirrors_wp (fanOutSignal_mirrors _ _ _ _) fun _ m₅ h₅ => ?_) fun _ _ _ => trivial
  exact wp_bind.2 ⟨⟨⟨request, h₅.task.trans h₄, hkey⟩, trivial⟩, fun _ _ _ => trivial⟩

theorem receiveStrategySignal_waits (request : SignalRequest) (d : Db) :
    (receiveStrategySignal cfg sha256 request).wp (entryMonitor U sha256) (fun _ _ => True)
      ⟨.webhook request, .waiting, d⟩ := by
  refine wp_bind.2 ((authenticate_yields (D := fun d' => d'.tokens = d.tokens) cfg
    request).wp
    (I := fun m => Sight.Later ⟨.webhook request, .waiting, d⟩ m) ?_ ?_ ?_
    (fun _ _ _ => trivial) (.refl _))
  · intro m r hm hr
    refine ⟨hr.books.conduct, ?_⟩
    cases r with
    | redisGet k =>
      cases k with
      | kill u => exact absurd rfl (hr u)
      | _ => trivial
    | placeOrder | dispatch => exact hr.elim
    | _ => trivial
  · intro m r a m' hm hr hn
    refine ⟨hm.trans (later_of_quiet hr.books.conduct hr.books.mirrors.quiet hn), ?_⟩
    cases r with
    | db f =>
      obtain ⟨d', -, hkept, ha, -⟩ := hn
      exact ⟨d', hkept.tokens.trans hm.db.tokens, ha⟩
    | _ => trivial
  · rintro ⟨tok, body⟩ m ⟨hbody, d', hd', htoken⟩ hm
    obtain ⟨htok, hid, hactive⟩ := SignalRequest.tokenIn_spec htoken
    have hkey : request.HasKey (fun _ => True) sha256
        (computeStrategySignalHash sha256 tok.userId body request.rawBody) :=
      ⟨body, hbody, d', trivial, tok, htok, hid, hactive, rfl⟩
    refine wp_bind.2 ⟨⟨.inr (.inr ⟨request, _, hm.task, hkey, rfl, rfl⟩), trivial⟩, ?_⟩
    rintro claimed _ rfl
    cases claimed with
    | true =>
      exact processSignal_wp cfg hm.task hm.mode (by rw [hm.db.tokens, ← hd']; exact htok) hid hkey
    | false =>
      exact wp_bind.2 ⟨⟨⟨request, hm.task, hkey⟩, trivial⟩, fun _ _ _ => trivial⟩

theorem webhook_wp (request : SignalRequest) (d : Db) :
    ((Task.webhook request).code cfg sha256).wp (entryMonitor U sha256) (fun _ _ => True)
      ⟨.webhook request, .waiting, d⟩ :=
  wp_bind_of (receiveStrategySignal_waits cfg request d) (fun _ _ _ => trivial)
    fun _ _ _ => trivial

end Tasks

section Runs

variable {U : UserId} {sha256 : String → String} {w : World}

def Tripped (U : UserId) (w : World) : Prop :=
  w.redis.get w.clock (.kill U) = some (.status .tripped)

instance (U : UserId) (w : World) : Decidable (Tripped U w) :=
  inferInstanceAs (Decidable (_ = _))

theorem tripped_handle {D : Db → Prop} {t : Task} {r : Request} (hr : Conduct D sha256 t r)
    (h : Tripped U (handle w r).2) :
    Tripped U w ∨ r = .redisSet (.kill U) (.status .tripped) := by
  by_cases hw : r.writes = some (.kill U)
  · rcases hr.writes hw with rfl | ⟨-, rfl⟩
    · exact .inr rfl
    · simp [Tripped, handle] at h
  · left
    unfold Tripped Expiring.Store.get at h ⊢
    rwa [handle_slot hw, handle_clock] at h

theorem Task.Enters.kept {d d' : Db} {t : Task} (h : t.Enters U d) (he : Kept d d') :
    t.Enters U d' := by
  cases t with
  | worker m => exact ⟨h.1, he.owned h.2⟩
  | webhook request =>
    obtain ⟨tok, htok, hrest⟩ := h
    exact ⟨tok, he.tokens ▸ htok, hrest⟩
  | trip | reset => exact h.elim

abbrev Sights := List (Thread Request Response AppError Task × Sight)

/-- Free threads are the user's; while tripped none at work is free and no entry is queued. -/
structure EntryInv (U : UserId) (w : World) (gs : Sights) : Prop where
  ids : IdsBelow w.db
  seen : ∀ g ∈ gs, Kept g.2.db w.db
  queue : ∀ msg ∈ w.queue, msg.kind = .entry → msg.signal < w.db.nextId
  free : ∀ g ∈ gs, g.2.mode = .free → g.2.task.Enters U w.db
  stopped : Tripped U w → (∀ g ∈ gs, (∃ r k, g.1.prog = .op r k) → g.2.mode ≠ .free)
    ∧ ∀ msg ∈ w.queue, msg.kind = .entry → ¬ w.db.OwnedBy msg.signal U

/-- How a request moves the monitor of its thread. -/
def Sight.after (U : UserId) (w : World) (m : Sight) : Request → Sight
  | .db f => { m with db := (f w.db).2 }
  | .redisGet (.kill u) =>
    { m with mode := m.mode.afterRead U u (w.redis.get w.clock (.kill u)) }
  | .redisSet (.kill u) _ => { m with mode := if u = U then .other else m.mode }
  | _ => m

theorem next_after {m : Sight} (hids : IdsBelow w.db) (hseen : Kept m.db w.db) (r : Request) :
    (entryMonitor U sha256).next m r (handle w r).1 (m.after U w r) := by
  cases r with
  | db f => exact ⟨w.db, hids, hseen, rfl, rfl⟩
  | redisGet k => cases k <;> rfl
  | redisSet k v => cases k <;> rfl
  | _ => rfl

theorem after_task (m : Sight) (r : Request) : (m.after U w r).task = m.task := by
  unfold Sight.after
  split <;> rfl

theorem after_free {m : Sight} {r : Request} (h : (m.after U w r).mode = .free) :
    m.mode = .free ∨ (m.mode = .waiting ∧ r = .redisGet (.kill U) ∧ ¬ Tripped U w) := by
  unfold Sight.after at h
  split at h
  · exact .inl h
  · cases hmode : m.mode with
    | waiting =>
      rw [hmode] at h
      simp only [Mode.afterRead] at h
      split_ifs at h with hu htripped
      subst hu
      exact .inr ⟨rfl, rfl, htripped⟩
    | free => exact .inl rfl
    | other =>
      rw [hmode] at h
      cases h
  · split_ifs at h
    exact .inl h
  · exact .inl h

theorem kept_after {D : Db → Prop} {t : Task} {m : Sight} {r : Request}
    (hseen : Kept m.db w.db) (hr : Conduct D sha256 t r) :
    Kept (m.after U w r).db (handle w r).2.db := by
  have hsame : (m.after U w r).db = m.db → Kept (m.after U w r).db (handle w r).2.db :=
    fun h => h ▸ hseen.trans (kept_handle hr)
  cases r with
  | db f => exact .refl _
  | redisGet k => cases k <;> exact hsame rfl
  | redisSet k v => cases k <;> exact hsame rfl
  | _ => exact hsame rfl

/-- The flag is set only with none of the user's entries queued and no other thread of theirs at
work. -/
def TripsClear (U : UserId) (P : Pool) : Move Task EnvMove → Prop
  | .step i => ∀ t k, P.threads[i]? = some ⟨t, .op (.redisSet (.kill U) (.status .tripped)) k⟩ →
    ¬ Tripped U P.shared →
    (∀ msg ∈ P.shared.queue, msg.kind = .entry → ¬ P.shared.db.OwnedBy msg.signal U)
      ∧ ∀ j t' r k', j ≠ i → P.threads[j]? = some ⟨t', .op r k'⟩ →
        ¬ t'.Enters U P.shared.db
  | _ => True

section Step

variable {P : Pool} {gs : Sights} {i : Nat} {t : Task} {r : Request} {k : Response r → Code Unit}
  {m : Sight}

theorem queue_step (hinv : EntryInv U P.shared gs) (hi : gs[i]? = some (⟨t, .op r k⟩, m))
    (hmay : (entryMonitor U sha256).may m r) :
    ∀ msg ∈ (handle P.shared r).2.queue, msg.kind = .entry →
      msg.signal < P.shared.db.nextId
      ∧ (Tripped U P.shared → ¬ P.shared.db.OwnedBy msg.signal U) := by
  have hold : ∀ msg ∈ P.shared.queue, msg.kind = .entry →
      msg.signal < P.shared.db.nextId
      ∧ (Tripped U P.shared → ¬ P.shared.db.OwnedBy msg.signal U) := fun msg hmsg hkind =>
    ⟨hinv.queue msg hmsg hkind, fun htripped => (hinv.stopped htripped).2 msg hmsg hkind⟩
  have hg := mem_of_getElem? hi
  intro msg hmsg hkind
  cases r with
  | dispatch msg' =>
    rcases mem_concat.1 hmsg with hmsg | rfl
    · exact hold msg hmsg hkind
    · obtain ⟨hstored, hsafe⟩ := hmay.2 hkind
      refine ⟨hstored.trans_le (hinv.seen _ hg).nextId, fun htripped ho => ?_⟩
      have hbusy := (hinv.stopped htripped).1 _ hg ⟨_, _, rfl⟩
      exact hsafe.resolve_left hbusy ((hinv.seen _ hg).owned_old hstored ho)
  | _ => exact hold msg hmsg hkind

theorem stopped_step (hinv : EntryInv U P.shared gs) (hgs : gs.map Prod.fst = P.threads)
    (htasks : ∀ g ∈ gs, g.2.task = g.1.task) (hok : TripsClear U P (.step i))
    (hi : gs[i]? = some (⟨t, .op r k⟩, m))
    (hmay : (entryMonitor U sha256).may m r) (htripped : Tripped U (handle P.shared r).2) :
    ∀ g ∈ gs.set i (⟨t, k (handle P.shared r).1⟩, m.after U P.shared r),
      (∃ r k, g.1.prog = .op r k) → g.2.mode ≠ .free := by
  have hthread : P.threads[i]? = some ⟨t, .op r k⟩ := by simp [← hgs, hi]
  intro g hg hbusy hfree
  obtain ⟨j, hj⟩ := mem_iff_getElem?.1 hg
  by_cases hji : i = j
  · subst hji
    obtain ⟨hlt, -⟩ := List.getElem?_eq_some_iff.1 hi
    rw [getElem?_set_self hlt] at hj
    obtain rfl := Option.some.inj hj
    rcases tripped_handle hmay.1 htripped with hold | rfl
    · rcases after_free hfree with hfree | ⟨-, -, hnot⟩
      · exact (hinv.stopped hold).1 _ (mem_of_getElem? hi) ⟨_, _, rfl⟩ hfree
      · exact hnot hold
    · simp [Sight.after] at hfree
  · rw [getElem?_set_ne hji] at hj
    have hmem := mem_of_getElem? hj
    by_cases hold : Tripped U P.shared
    · exact (hinv.stopped hold).1 g hmem hbusy hfree
    · obtain rfl := (tripped_handle hmay.1 htripped).resolve_left hold
      obtain ⟨r', k', hprog⟩ := hbusy
      have hother : P.threads[j]? = some ⟨g.1.task, .op r' k'⟩ := by
        rw [← hprog, ← hgs, getElem?_map, hj]
        rfl
      refine (hok t k hthread hold).2 j _ r' k' (Ne.symm hji) hother ?_
      exact htasks g hmem ▸ hinv.free g hmem hfree

end Step

variable {cfg : Settings} {P P' : Pool}

/-- The relation of every interleaving whose trips are clear. -/
abbrev EntryMonitored (U : UserId) (sha256 : String → String) : Pool → Prop :=
  Monitored (entryMonitor U sha256) (fun t m => m.task = t) (EntryInv U)

theorem entryInv_spawn {gs : Sights} {t : Task} (hinv : EntryInv U w gs)
    (hstart : t.start w = true) :
    ∃ m₀ : Sight, m₀.task = t
      ∧ (t.code cfg sha256).wp (entryMonitor U sha256) (fun _ _ => True) m₀
      ∧ EntryInv U w (gs ++ [(⟨t, t.code cfg sha256⟩, m₀)]) := by
  have hadd : ∀ mode, (mode = .free → t.Enters U w.db ∧ ¬ Tripped U w) →
      EntryInv U w (gs ++ [(⟨t, t.code cfg sha256⟩, ⟨t, mode, w.db⟩)]) := by
    intro mode hmode
    refine ⟨hinv.ids, fun g hg => ?_, hinv.queue, fun g hg hfree => ?_, fun htripped =>
      ⟨fun g hg hbusy hfree => ?_, (hinv.stopped htripped).2⟩⟩
    all_goals rcases mem_append.1 hg with hg | hg
    · exact hinv.seen g hg
    · rw [mem_singleton.1 hg]
      exact .refl _
    · exact hinv.free g hg hfree
    · obtain rfl := mem_singleton.1 hg
      exact (hmode hfree).1
    · exact (hinv.stopped htripped).1 g hg hbusy hfree
    · obtain rfl := mem_singleton.1 hg
      exact (hmode hfree).2 htripped
  by_cases hentry : ∃ id, t = .worker ⟨id, .entry⟩
  · obtain ⟨id, rfl⟩ := hentry
    have hqueued : ⟨id, .entry⟩ ∈ w.queue := of_decide_eq_true hstart
    have hstored := hinv.queue _ hqueued rfl
    by_cases howned : w.db.OwnedBy id U
    · exact ⟨⟨_, .free, w.db⟩, rfl, entryWorker_wp cfg ⟨rfl, hstored, .inl rfl⟩,
        hadd .free fun _ => ⟨⟨rfl, howned⟩, fun htripped =>
          (hinv.stopped htripped).2 _ hqueued rfl howned⟩⟩
    · exact ⟨⟨_, .other, w.db⟩, rfl, entryWorker_wp cfg ⟨rfl, hstored, .inr howned⟩,
        hadd .other nofun⟩
  · by_cases hrequest : ∃ request, t = .webhook request
    · obtain ⟨request, rfl⟩ := hrequest
      exact ⟨⟨_, .waiting, w.db⟩, rfl, webhook_wp cfg request w.db, hadd .waiting nofun⟩
    · exact ⟨⟨_, .other, w.db⟩, rfl, other_wp cfg (fun id h => hentry ⟨id, h⟩)
        (fun request h => hrequest ⟨request, h⟩) w.db, hadd .other nofun⟩

theorem entryMonitored_next {m : Move Task EnvMove} (h : EntryMonitored U sha256 P)
    (hok : TripsClear U P m) (hm : (system cfg sha256).next P m = some P') :
    EntryMonitored U sha256 P' := by
  refine h.next hm (fun t gs _ hstart hG => entryInv_spawn hG hstart) ?_ ?_ ?_
  · rintro i t r k gs a rfl hgs hwp hi hG
    obtain ⟨hT, hmay, -⟩ := hwp _ (mem_of_getElem? hi)
    have hseen := hG.seen _ (mem_of_getElem? hi)
    have hkept := kept_handle (w := P.shared) hmay.1
    have hqueue := queue_step hG hi hmay
    refine ⟨a.after U P.shared r, (after_task a r).trans hT, next_after hG.ids hseen r,
      (appends_handle hmay.1).idsBelow hG.ids, fun g hg => ?_, fun msg hmsg hkind =>
        (hqueue msg hmsg hkind).1.trans_le hkept.nextId, fun g hg hfree => ?_, fun htripped =>
      ⟨stopped_step hG hgs (fun g hg => (hwp g hg).1) hok hi hmay htripped,
        fun msg hmsg hkind ho => ?_⟩⟩
    · rcases mem_or_eq_of_mem_set hg with hg | rfl
      · exact (hG.seen g hg).trans hkept
      · exact kept_after hseen hmay.1
    · rcases mem_or_eq_of_mem_set hg with hg | rfl
      · exact (hG.free g hg hfree).kept hkept
      · rcases after_free hfree with hfree | ⟨hwait, rfl, -⟩
        · rw [after_task]
          exact (hG.free _ (mem_of_getElem? hi) hfree).kept hkept
        · exact (hmay.2 rfl hwait).kept (hseen.trans hkept)
    · obtain ⟨hstored, hclear⟩ := hqueue msg hmsg hkind
      have ho' := hkept.owned_old hstored ho
      by_cases hold : Tripped U P.shared
      · exact hclear hold ho'
      · obtain rfl := (tripped_handle hmay.1 htripped).resolve_left hold
        have hthread :
            P.threads[i]? = some ⟨t, .op (.redisSet (.kill U) (.status .tripped)) k⟩ := by
          simp [← hgs, hi]
        exact (hok t k hthread hold).1 msg hmsg hkind ho'
  · intro i gs _ hG
    have hsub : ∀ g ∈ gs.eraseIdx i, g ∈ gs := fun g hg => mem_of_mem_eraseIdx hg
    exact ⟨hG.ids, fun g hg => hG.seen g (hsub g hg), hG.queue,
      fun g hg => hG.free g (hsub g hg), fun htripped =>
      ⟨fun g hg => (hG.stopped htripped).1 g (hsub g hg), (hG.stopped htripped).2⟩⟩
  · intro e s gs _ he hG
    cases e with
    | tick n =>
      cases he
      refine ⟨hG.ids, hG.seen, hG.queue, hG.free, fun htripped => hG.stopped ?_⟩
      exact Expiring.Store.get_of_later (Nat.le_add_right _ n) htripped
    | ack msg =>
      cases he
      exact ⟨hG.ids, hG.seen, fun msg hmsg => hG.queue msg (mem_of_mem_erase hmsg), hG.free,
        fun htripped => ⟨(hG.stopped htripped).1,
          fun msg hmsg => (hG.stopped htripped).2 msg (mem_of_mem_erase hmsg)⟩⟩

def entryOrders (U : UserId) (w : World) : List OrderCall :=
  w.orders.filter fun c => match c.origin with
    | .entry _ _ u => u = U
    | _ => false

theorem entryOrders_handle {r : Request} (h : ∀ c id s, r = .placeOrder c →
    c.origin ≠ .entry id s U) : entryOrders U (handle w r).2 = entryOrders U w := by
  cases r with
  | placeOrder c =>
    have hc : ∀ id s, c.origin ≠ .entry id s U := fun id s => h c id s rfl
    simp only [entryOrders, handle]
    cases horigin : c.origin with
    | entry id s u =>
      have hu : u ≠ U := fun hu => hc id s (by rw [horigin, hu])
      simp [horigin, hu]
    | _ => simp [horigin]
  | _ => rfl

/-- In every run in which the switch is tripped only with none of the user's entries queued or at
work, a tripped switch lets no entry order out. -/
theorem tripped_sends_no_entry {moves : List (Move Task EnvMove)} {m : Move Task EnvMove}
    {Q Q' : Pool} (hP : P.threads = []) (hids : IdsBelow P.shared.db)
    (hqueue : ∀ msg ∈ P.shared.queue, msg.kind = .entry → msg.signal < P.shared.db.nextId)
    (hstart : ¬ Tripped U P.shared)
    (hrun : Run (system cfg sha256).next (TripsClear U) P moves Q)
    (hm : (system cfg sha256).next Q m = some Q') (htripped : Tripped U Q.shared) :
    entryOrders U Q'.shared = entryOrders U Q.shared := by
  have hinv : EntryInv U P.shared [] :=
    ⟨hids, by simp, hqueue, by simp, fun h => absurd h hstart⟩
  obtain ⟨gs, hgs, hwp, hG⟩ := hrun.invariant
    (fun _ _ _ hI hok hm => entryMonitored_next hI hok hm)
    (monitored_of_no_threads hP hinv : EntryMonitored U sha256 P)
  obtain ⟨t, rfl, hs, rfl⟩ | ⟨i, t, r, k, rfl, hi, rfl⟩ | ⟨i, rfl, rfl⟩ | ⟨e, s, rfl, he, rfl⟩ :=
    System.next_cases hm
  · rfl
  · refine entryOrders_handle fun c id s hr horigin => ?_
    subst hr
    rw [← hgs, getElem?_map, Option.map_eq_some_iff] at hi
    obtain ⟨g, hg, hthread⟩ := hi
    have hmem := mem_of_getElem? hg
    have hprog : g.1.prog = .op (.placeOrder c) k := by rw [hthread]
    have hbusy := (hG.stopped htripped).1 g hmem ⟨_, _, hprog⟩
    obtain ⟨-, hwpg⟩ := hwp g hmem
    rw [hprog] at hwpg
    exact (hwpg.1.2.resolve_left hbusy) id s horigin
  · rfl
  · cases e <;> cases he <;> rfl

end Runs

def idlePool : Pool := ⟨sampleWorld (.willing filled), []⟩

def acceptedThenTripped : List (Move Task EnvMove) :=
  .spawn (.webhook (sampleRequest 5 "ENTRY")) :: List.replicate 16 (.step 0)
    ++ .spawn (.trip 10 (some .manual)) :: List.replicate 8 (.step 1)
    ++ .spawn (.worker ⟨200, .entry⟩) :: List.replicate 12 (.step 2)

/-- The entry accepted before the trip is sent to the broker while the flag reads TRIPPED. -/
theorem entry_sent_while_tripped : ∃ Q Q' : Pool,
    Run (system sampleSettings id).next (fun _ _ => True) idlePool acceptedThenTripped Q
    ∧ Tripped 10 Q.shared ∧ entryOrders 10 Q.shared = []
    ∧ (system sampleSettings id).next Q (.step 2) = some Q'
    ∧ (entryOrders 10 Q'.shared).map (·.origin) = [.entry 200 1 10] := by
  simp only [exists_and_left]
  decide +kernel

/-- A test for a clear trip: nothing is queued and only trips and resets run. -/
def tripsAlone (P : Pool) : Move Task EnvMove → Bool
  | .step i => match P.threads[i]? with
    | some ⟨_, .op (.redisSet _ _) _⟩ =>
      P.shared.queue.isEmpty && P.threads.all fun th => match th.task with
        | .trip _ _ | .reset _ => true
        | _ => false
    | _ => true
  | _ => true

theorem tripsClear_of_tripsAlone (U : UserId) {P : Pool} {m : Move Task EnvMove}
    (h : tripsAlone P m = true) : TripsClear U P m := by
  cases m with
  | step i =>
    intro t k hi _
    simp only [tripsAlone, hi, Bool.and_eq_true, all_eq_true, List.isEmpty_iff] at h
    obtain ⟨hqueue, hthreads⟩ := h
    refine ⟨by simp [hqueue], fun j t' r k' _ hj henters => ?_⟩
    have htask := hthreads _ (mem_of_getElem? hj)
    cases t' with
    | worker => simp at htask
    | webhook => simp at htask
    | trip | reset => exact henters
  | _ => trivial

/-- The switch is tripped first; a request that comes then sends and queues nothing. -/
theorem tripped_sends_no_entry_later : ∃ Q Q' : Pool,
    Run (system sampleSettings id).next (TripsClear 10) idlePool
      (.spawn (.trip 10 (some .manual)) :: List.replicate 3 (.step 0)
        ++ .spawn (.webhook (sampleRequest 5 "ENTRY")) :: List.replicate 4 (.step 1)) Q
    ∧ Tripped 10 Q.shared
    ∧ (system sampleSettings id).next Q (.step 1) = some Q'
    ∧ entryOrders 10 Q'.shared = entryOrders 10 Q.shared := by
  have hexec : (exec (fun P m => if tripsAlone P m then (system sampleSettings id).next P m
        else none) idlePool (.spawn (.trip 10 (some .manual)) :: List.replicate 3 (.step 0)
        ++ .spawn (.webhook (sampleRequest 5 "ENTRY")) :: List.replicate 4 (.step 1))).any
      (fun Q => Tripped 10 Q.shared
        ∧ ((system sampleSettings id).next Q (.step 1)).isSome = true) = true := by decide +kernel
  obtain ⟨Q, hrun, h⟩ := exists_run_of_exec_checked tripsAlone
    (fun _ _ => tripsClear_of_tripsAlone 10) hexec
  obtain ⟨htripped, hnext⟩ := of_decide_eq_true h
  obtain ⟨Q', hQ'⟩ := Option.isSome_iff_exists.1 hnext
  exact ⟨Q, Q', hrun, htripped, hQ', tripped_sends_no_entry rfl (by unfold IdsBelow; decide)
    (by decide) (by decide) hrun hQ' htripped⟩

end TradingBridge
