import TradingBridge.Proofs.Traversal

/-!
# Laws of the books

The position rows are written in five ways: a mirrored row is added or closed, a direct exit
reduces the row it found, the kill switch closes the rows it found, and an entry adds to the row it
found or opens one. A property of the database that the first four keep is kept by every task that
is no entry, whatever runs beside it.
-/

namespace TradingBridge

open Effectful Prog

/-- The answers to database requests come from a database in `D`, those to questions are in `A`. -/
def BookAnswer (D : Db → Prop) (A : (q : Query) → Answer q → Prop) :
    (r : Request) → Response r → Prop
  | .db f, a => ∃ d, D d ∧ a = (f d).1
  | .ask q, a => A q a
  | _, _ => True

/-- The request leaves the database in `D`, in every world. -/
def StaysIn (D : Db → Prop) (r : Request) : Prop := ∀ w : World, D w.db → D (handle w r).2.db

/-- The code leaves the database in `D` request by request, and returns what meets `P`. -/
abbrev Stays {α : Type} (D : Db → Prop) (A : (q : Query) → Answer q → Prop) (P : α → Prop)
    (c : Code α) : Prop := c.Yields (StaysIn D) (BookAnswer D A) P

/-- The writes of the fan-out keep `D`, and so do those of statuses and execution rows. -/
structure MirrorLaw (D : Db → Prop) : Prop where
  status : ∀ {d} id st, D d → D (d.setSignalStatus id st)
  executions : ∀ {d} es, D d → D (d.addExecutions es)
  add : ∀ {d} {p : StrategyPosition}, p.subscriptionId ≠ none → D d → D (d.addPosition p)
  close : ∀ {d₀ d} {p : StrategyPosition} qty price ts, D d₀ → p ∈ d₀.positions →
    p.subscriptionId ≠ none → D d → D (d.savePosition (mirrorClose p qty price ts))

def Reduces (D : Db → Prop) (signal : StrategySignal) : Prop :=
  ∀ {d₀ d leg p side filled ts}, leg.action ≠ .entry → payloadSide signal = .ok side → D d₀ →
    getOpenPosition signal.strategyId signal.symbol side d₀ = some p → 0 < filled → D d →
    D (d.savePosition (reducePosition leg p filled side signal.id ts))

def Squares (D : Db → Prop) : Prop :=
  ∀ {d₀ d p} side order paper ts, D d₀ → p ∈ d₀.positions → D d →
    D (d.savePosition (killSwitchClose p side order paper ts))

def Stores (D : Db → Prop) : Prop :=
  ∀ {d} (row : StrategySignal), row.id = d.nextId → D d →
    D { d with signals := d.signals ++ [row], nextId := d.nextId + 1 }

variable {D : Db → Prop} {A : (q : Query) → Answer q → Prop} {α : Type}

section Requests

theorem Reads.staysIn {r : Request} (h : Reads r) : StaysIn D r := by
  cases r with
  | db f =>
    intro w hw
    simpa [handle, h w.db] using hw
  | redisGet | clock | ask => exact fun _ hw => hw
  | _ => exact h.elim

theorem Shields.staysIn {strategy : StrategyId} {r : Request} (h : Shields strategy r) :
    StaysIn D r := by
  rcases h.cases with h | ⟨record, rfl⟩ | rfl
  · exact h.staysIn
  · exact fun _ hw => hw
  · exact fun _ hw => hw

variable {c : Code α} {P : α → Prop}

theorem stays_of_reads (h : c.AsksIn Reads) : Stays D A (fun _ => True) c :=
  (asksIn_mono (fun _ hr => hr.staysIn) h).yields

theorem perform_stays {r : Request} (h : StaysIn D r) :
    Stays D A (fun _ => True) (perform r : Code (Response r)) :=
  ((asksIn_perform r).2 h).yields

theorem bookAnswer_handle {w : World} (hw : D w.db) (r : Request)
    (hask : ∀ q, r = .ask q → A q (w.env.answer w.asked q)) :
    BookAnswer D A r (handle w r).1 := by
  cases r with
  | db f => exact ⟨w.db, hw, rfl⟩
  | ask q => exact hask q rfl
  | _ => trivial

theorem wp_of_stays
    (h : c.Yields (StaysIn D) (BookAnswer D fun _ _ => True) P) {w : World} (hw : D w.db) :
    c.wp (serving handle) (fun x w' => D w'.db ∧ ∀ a, x = .ok a → P a) w := by
  refine h.wp (I := fun w => D w.db) (fun _ _ _ _ => trivial) ?_ ?_ ?_ hw
  · rintro v r _ _ hv hr ⟨rfl, rfl⟩
    exact ⟨hr v hv, bookAnswer_handle hv r fun _ _ => trivial⟩
  · rintro a v ha hv
    exact ⟨hv, fun b hb => by cases hb; exact ha⟩
  · exact fun e v hv => ⟨hv, nofun⟩

theorem exec_of_stays (h : Stays D (fun _ _ => True) P c) {w : World}
    (hw : D w.db) : D (c.exec w).2.db := (wp_serving.1 (wp_of_stays h hw)).1

end Requests

theorem MirrorLaw.mirroring (L : MirrorLaw D) :
    Mirroring (asking (StaysIn D) (BookAnswer D A)) where
  reads _ _ hr := hr.staysIn
  claim _ _ _ _ _ _ hw := hw
  add _ _ _ hrow _ hw := L.executions _ (L.add (hrow _) hw)
  close _ _ _ _ _ _ _ _ _ _ hfound _ hw := by
    obtain ⟨d, hd, hp⟩ := hfound
    obtain ⟨hmem, hsub, -⟩ := findOpenOf_spec hp.symm
    exact L.executions _ (L.close _ _ _ hd hmem (by rw [hsub]; nofun) hw)

theorem maybeFanOutExit_stays (L : MirrorLaw D) (cfg : Settings) (signal : StrategySignal)
    (strategy : Strategy) (kind : ActionKind) :
    Stays D A (fun _ => True) (maybeFanOutExit cfg signal strategy kind) :=
  (maybeFanOutExit_follows L.mirroring signal strategy cfg kind).yields

theorem SquaredOff.found {cfg : Settings} {user : UserId} {p : StrategyPosition}
    (h : SquaredOff (asking (StaysIn D) (BookAnswer D A)) cfg user p) :
    ∃ d, D d ∧ p ∈ d.positions := by
  obtain ⟨-, -, -, -, ps, modes, ⟨d, hd, rfl⟩, ⟨d', -, rfl⟩, hp⟩ := h
  obtain ⟨x, hx, rfl⟩ := List.mem_map.1 hp
  obtain ⟨q, hq, rfl⟩ := List.mem_map.1 hx
  exact ⟨d, hd, (List.mem_filter.1 hq).1⟩

theorem Squares.savePositions (hkill : Squares D) : ∀ (ps : List StrategyPosition),
    (∀ q ∈ ps, ∃ p side ts, (∃ d, D d ∧ p ∈ d.positions)
      ∧ q = killSwitchClose p side .paperKillSwitch true ts) →
    ∀ {d : Db}, D d → D (ps.foldl Db.savePosition d)
  | [], _, _, hd => hd
  | q :: ps, hps, d, hd => by
    obtain ⟨p, side, ts, ⟨d₀, hd₀, hp⟩, rfl⟩ := hps q List.mem_cons_self
    exact hkill.savePositions ps (fun q hq => hps q (List.mem_cons_of_mem _ hq))
      (hkill _ _ _ _ hd₀ hp hd)

theorem Squares.tripping (hkill : Squares D) (cfg : Settings) (user : UserId) :
    Tripping (asking (StaysIn D) (BookAnswer D A)) cfg user where
  reads _ _ hr := hr.staysIn
  order _ _ _ _ _ hw := hw
  close _ _ _ _ _ hp _ hw := by
    obtain ⟨d, hd, hmem⟩ := hp.found
    exact hkill _ _ _ _ hd hmem hw
  paper _ ps hps _ hw := by
    refine hkill.savePositions ps (fun q hq => ?_) hw
    obtain ⟨p, side, ts, hp, rfl⟩ := hps q hq
    exact ⟨p, side, ts, hp.found, rfl⟩
  flag _ _ hw := hw
  count _ _ _ hw := hw

theorem postTradeHooks_stays (hkill : Squares D) (cfg : Settings) (user : UserId) :
    Stays D A (fun _ => True) (postTradeHooks cfg user) :=
  (postTradeHooks_follows (hkill.tripping cfg user)).yields

theorem MirrorLaw.working (L : MirrorLaw D) (m : Message) :
    Working (asking (StaysIn D) (BookAnswer D A)) D m where
  reads _ _ hr := hr.staysIn
  db hn := hn
  status _ _ _ _ hw := L.status _ _ hw
  twin _ _ _ _ _ _ hw := hw
  flag _ _ _ _ _ hw := hw
  retry _ _ hw := hw

theorem processDirectExit_stays (L : MirrorLaw D) (cfg : Settings) (id : SignalId)
    (kind : SignalKind) (hred : ∀ {d sig}, D d → d.signal id = some sig → Reduces D sig) :
    Stays D A (fun _ => True) (processDirectExit cfg id kind) := by
  refine (processDirectExit_follows (L.working ⟨id, kind⟩)
    fun hd₀ hsig hrow hd hleg hside hp => ?_).yields
  rw [hrow] at hp
  exact closeAndBook_follows (L.working ⟨id, kind⟩)
    (fun _ _ => sends_of_may (claimClose_follows fun _ _ hw => hw) fun _ _ hw => hw)
    (fun _ _ _ _ hpos _ hw => L.executions _ (hred hd₀ hsig hleg hside hd hp hpos hw))
    (maybeFanOutExit_follows L.mirroring _ _ _ _)

theorem executeSignalAsync_stays (L : MirrorLaw D) (cfg : Settings) (m : Message)
    (hentry : m.kind = .entry → Stays D A (fun _ => True) (processEntry cfg m.signal))
    (hexit : m.kind ≠ .entry → Stays D A (fun _ => True) (processDirectExit cfg m.signal m.kind)) :
    Stays D A (fun _ => True) (executeSignalAsync cfg m) :=
  (executeSignalAsync_follows (L.working m) (fun hk => (hentry hk).follows_asking)
    fun hk => (hexit hk).follows_asking).yields

theorem receiveStrategySignal_stays (L : MirrorLaw D) (hstore : Stores D) (cfg : Settings)
    (sha256 : String → String) (request : SignalRequest) :
    Stays D A (fun _ => True) (receiveStrategySignal cfg sha256 request) := by
  refine yields_bind (stays_of_reads (authenticate_reads _ _)) fun (t, body) _ => yields_bind
    (perform_stays fun _ hw => hw) fun claimed _ => ?_
  split
  · refine yields_bind (killSwitchGate_asksIn fun _ hw => hw).yields fun _ _ => yields_bind
      (stays_of_reads (signalGates_reads _ _)) fun strategy _ => yields_bind
      (stays_of_reads (preparePayload_reads _ _)) fun (payload, valid) _ => yields_bind
      (stays_of_reads now_reads) fun ts _ => yields_bind
      (perform_stays fun w hw => hstore _ rfl hw) fun signal _ => yields_bind (P := fun _ => True)
      ?_ fun queued _ => yields_bind
      (fanOutSignal_follows L.mirroring _ _ _ _).yields fun _ _ => yields_bind
      (perform_stays fun _ hw => hw) fun _ _ => yields_pure trivial
    exact (dispatchStored_asksIn cfg (fun _ hr => hr.staysIn) (fun _ _ hw => L.status _ _ hw)
      (fun _ hw => hw) fun _ _ hw => hw).yields
  · exact yields_bind (perform_stays fun _ hw => hw) fun _ _ => yields_pure trivial

theorem task_stays (L : MirrorLaw D) (hred : ∀ sig, Reduces D sig) (hkill : Squares D)
    (hstore : Stores D) (cfg : Settings) (sha256 : String → String) {t : Task}
    (ht : ∀ id, t = .worker ⟨id, .entry⟩ →
      Stays D A (fun _ => True) (processEntry cfg id)) :
    Stays D A (fun _ => True) (t.code cfg sha256) := by
  cases t with
  | webhook r =>
    exact yields_bind (receiveStrategySignal_stays L hstore _ _ _) fun _ _ => yields_pure trivial
  | worker m =>
    exact executeSignalAsync_stays L cfg m (fun hk => ht m.signal (by rw [← hk]))
      fun _ => processDirectExit_stays L cfg _ _ fun _ _ => hred _
  | trip user reason =>
    exact yields_bind (checkAndTrigger_follows (hkill.tripping cfg user) reason).yields
      fun _ _ => yields_pure trivial
  | reset user => exact perform_stays fun _ hw => hw

end TradingBridge
