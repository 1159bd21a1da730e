import TradingBridge.Proofs.BookLaw
import TradingBridge.Proofs.HeldExit
import TradingBridge.Proofs.KillSwitchEntries

/-!
# What a released exit closes

The record of a hold names the signal and not the position, and the worker looks the position up
again. Run one after the other, the tasks keep at most one owner position open for a strategy, a
symbol and a side, since an entry adds to the one that is open. So the lookup can only go astray
where an entry has opened a position after the one the exit was held for was closed.
-/

namespace TradingBridge

open Effectful Prog List

theorem toUpper_toUpper (s : String) : s.toUpper.toUpper = s.toUpper := by
  rw [String.toUpper, String.toUpper, String.map_map]
  congr 1
  exact funext Char.toUpper_toUpper_eq_toUpper

section Rows

variable {s : StrategyId} {symbol side : String} {pid : PositionId} {d : Db}
  {p : StrategyPosition}

/-- The ids are the rows' own, and an open owner position of the triple has the id `pid`. -/
structure Book (s : StrategyId) (symbol side : String) (pid : PositionId) (d : Db) : Prop where
  ids : (d.positions.map (·.id)).Nodup
  below : ∀ p ∈ d.positions, p.id < d.nextId
  only : ∀ p ∈ d.positions, p.OpenFor s symbol.toUpper side → p.id = pid

theorem Book.congr {d' : Db} (h : Book s symbol side pid d) (hrows : d'.positions = d.positions)
    (hnext : d.nextId ≤ d'.nextId) : Book s symbol side pid d' := by
  refine ⟨hrows ▸ h.ids, fun p hp => ?_, hrows ▸ h.only⟩
  exact (h.below p (hrows ▸ hp)).trans_le hnext

theorem Book.save (h : Book s symbol side pid d)
    (hp : p.OpenFor s symbol.toUpper side → p.id = pid) :
    Book s symbol side pid (d.savePosition p) := by
  refine ⟨(ids_savePosition d p).symm ▸ h.ids, fun q hq => ?_, fun q hq hopen => ?_⟩
  · have hmem : q.id ∈ (d.savePosition p).positions.map (·.id) :=
      mem_map_of_mem hq
    rw [ids_savePosition] at hmem
    obtain ⟨r, hr, hid⟩ := mem_map.1 hmem
    exact hid ▸ h.below r hr
  · obtain ⟨r, hr, rfl⟩ := mem_map.1 hq
    split_ifs at hopen ⊢
    · exact hp hopen
    · exact h.only r hr hopen

theorem Book.add (h : Book s symbol side pid d)
    (hp : { p with id := d.nextId }.OpenFor s symbol.toUpper side → d.nextId = pid) :
    Book s symbol side pid (d.addPosition p) := by
  refine ⟨?_, fun q hq => ?_, fun q hq hopen => ?_⟩
  · rw [Db.addPosition, map_append, nodup_append]
    refine ⟨h.ids, by simp, ?_⟩
    rintro _ hid _ hnew rfl
    obtain ⟨r, hr, hrid⟩ := mem_map.1 hid
    rw [map_singleton, mem_singleton] at hnew
    exact (h.below r hr).ne (hrid.trans hnew)
  · rcases mem_concat.1 hq with hq | rfl
    · exact (h.below q hq).trans (Nat.lt_succ_self _)
    · exact Nat.lt_succ_self _
  · rcases mem_concat.1 hq with hq | rfl
    · exact h.only q hq hopen
    · exact hp hopen

theorem Book.eq_of_id {q : StrategyPosition} (h : Book s symbol side pid d)
    (hp : p ∈ d.positions) (hq : q ∈ d.positions) (hid : p.id = q.id) : p = q :=
  inj_on_of_nodup_map h.ids hp hq hid

theorem book_mirror : MirrorLaw (Book s symbol side pid) where
  status _ _ h := h.congr rfl le_rfl
  executions _ h := h.congr rfl le_rfl
  add hsub h := h.add fun hopen => absurd hopen.owner hsub
  close _ _ _ _ _ hsub h := h.save fun hopen =>
    absurd (mirrorClose_scope.2.1.symm.trans hopen.owner) hsub

theorem book_reduces (signal : StrategySignal) : Reduces (Book s symbol side pid) signal := by
  intro d₀ d leg p side' filled ts _ _ hd₀ hp _ hd
  obtain ⟨hmem, hopen⟩ := getOpenPosition_spec hp
  exact hd.save fun h => hd₀.only p hmem ⟨h.strategy, h.symbol, h.side, hopen.isOpen, h.owner⟩

theorem book_squares : Squares (Book s symbol side pid) :=
  fun _ _ _ _ _ _ hd => hd.save fun h => nomatch h.isOpen

theorem book_stores : Stores (Book s symbol side pid) :=
  fun _ _ h => h.congr rfl (Nat.le_succ _)

end Rows

section Entry

variable {α β : Type} {w v : World} {id : SignalId} {R : Db → Prop}

def SameRows (w v : World) : Prop :=
  v.db.positions = w.db.positions ∧ v.db.nextId = w.db.nextId

/-- Requests that leave the position rows and the next id alone. -/
def Spares : Request → Prop
  | .db f => ∀ d, (f d).2.positions = d.positions ∧ (f d).2.nextId = d.nextId
  | _ => True

theorem Spares.sameRows {r : Request} (h : Spares r) (v : World) : SameRows v (handle v r).2 := by
  cases r with
  | db f => exact h v.db
  | _ => exact ⟨rfl, rfl⟩

theorem SameRows.trans {u : World} (h : SameRows w v) (h' : SameRows v u) : SameRows w u :=
  ⟨h'.1.trans h.1, h'.2.trans h.2⟩

theorem Reads.spares {r : Request} (h : Reads r) : Spares r := by
  cases r with
  | db f => exact fun d => by rw [h d]; exact ⟨rfl, rfl⟩
  | _ => trivial

theorem spares_of_reads {c : Code α} (h : c.AsksIn Reads) : c.AsksIn Spares :=
  asksIn_mono (fun _ hr => hr.spares) h

theorem exec_sameRows {c : Code α} (h : c.AsksIn Spares) (v : World) : SameRows v (c.exec v).2 :=
  run_keeps (fun u _ hr hu => hu.trans (hr.sameRows u)) h ⟨rfl, rfl⟩

theorem bind_sameRows {c : Code α} {f : α → Code β} {Q : Except AppError β → World → Prop}
    (hc : c.AsksIn Spares) (hv : SameRows w v)
    (hok : ∀ a u, SameRows w u → (f a).wp (serving handle) Q u)
    (herr : ∀ e u, SameRows w u → Q (.error e) u) : (c >>= f).wp (serving handle) Q v := by
  refine wp_bind.2 (wp_serving.2 ?_)
  have hrows := hv.trans (exec_sameRows hc v)
  cases hx : (c.run handle v).1 with
  | ok a => exact hok a _ hrows
  | error e => exact herr e _ hrows

theorem setSignalStatus_spares (id : SignalId) (st : SignalStatus) :
    (setSignalStatus id st).AsksIn Spares := (asksIn_perform _).2 trivial

theorem isDuplicateEntry_spares (sig : StrategySignal) (strategy : Strategy) :
    (isDuplicateEntry sig strategy).AsksIn Spares := by
  unfold isDuplicateEntry
  split
  · trivial
  · exact asksIn_bind (spares_of_reads now_reads) fun _ => asksIn_bind
      ((asksIn_perform _).2 trivial) fun _ => asksIn_pure _

theorem simulated_spares (sig : StrategySignal) (status : PaperOutcome → SignalStatus)
    (enabled : Bool) : (executeRouted.simulated sig status enabled).AsksIn Spares := by
  unfold executeRouted.simulated
  split
  · exact asksIn_bind (spares_of_reads (ask_reads _)) fun _ => asksIn_bind (ofExcept_asksIn _)
      fun _ => setSignalStatus_spares _ _
  · exact setSignalStatus_spares _ _

theorem fillEntry_spares (cfg : Settings) (sig : StrategySignal) (strategy : Strategy)
    (plan : EntryPlan) : (fillEntry cfg sig strategy plan).AsksIn Spares := by
  unfold fillEntry
  split
  · exact ofExcept_asksIn _
  refine asksIn_bind (ofExcept_asksIn _) fun product => asksIn_bind
    (spares_of_reads (preTradeChecks_reads _ _)) fun _ => asksIn_bind ?_ fun _ => asksIn_bind
    (asksIn_bind ((asksIn_perform _).2 trivial) fun _ => ofExcept_asksIn _) fun response => ?_
  · refine asksIn_bind ((asksIn_perform _).2 trivial) fun first => ?_
    split <;> trivial
  · unfold confirmEntryFill
    split
    · trivial
    refine asksIn_bind (spares_of_reads (confirmFill_reads _ _)) fun fill => ?_
    split
    · split
      · exact asksIn_bind ((asksIn_perform _).2 trivial) fun _ => asksIn_throw _
      · trivial
    · trivial

/-- What the booking of an entry keeps, the entry keeps. -/
theorem processEntry_rows (cfg : Settings)
    (hstatus : ∀ {d} id st, R d → R (d.setSignalStatus id st)) (hkill : Squares R)
    (hsame : ∀ v, SameRows w v → R v.db)
    (hbook : ∀ sig strategy plan report v, w.db.signal id = some sig →
      strategy.id = sig.strategyId → SameRows w v →
      R ((bookEntry sig strategy plan report).exec v).2.db) :
    R ((processEntry cfg id).exec w).2.db := by
  have hset : ∀ {u : World} id st, R u.db →
      (setSignalStatus id st).wp (serving handle) (fun _ u' => R u'.db) u :=
    fun id st hu => wp_serving.2 (hstatus id st hu)
  have hhandler : ∀ (sid : SignalId) {c : Code Unit} {u : World}, R u.db →
      c = pure () ∨ c = setSignalStatus sid .failed →
      c.wp (serving handle) (fun _ u' => R u'.db) u := by
    rintro sid c u hu (rfl | rfl)
    · exact hu
    · exact hset _ _ hu
  have herr : ∀ (e : AppError) (u : World), SameRows w u → R u.db := fun _ u hu => hsame u hu
  unfold processEntry
  rw [exec_readDb]
  split
  · exact hsame w ⟨rfl, rfl⟩
  rename_i sig hsig
  rw [exec_readDb]
  split
  · exact hstatus _ _ (hsame w ⟨rfl, rfl⟩)
  rename_i strategy hstrategy
  have hid := strategy_id_of_found (Option.filter_eq_some_iff.1 hstrategy).1
  refine (wp_serving (Q := fun _ u => R u.db)).1 (bind_sameRows
    (isDuplicateEntry_spares sig strategy) ⟨rfl, rfl⟩ (fun duplicate u hu => ?_) herr)
  split
  · exact hset _ _ (hsame u hu)
  refine bind_sameRows (setSignalStatus_spares _ _) hu (fun _ u hu => bind_sameRows
    (spares_of_reads (validateEntry_reads cfg sig)) hu (fun decision u hu => ?_) herr) herr
  split
  · exact hset _ _ (hsame u hu)
  rename_i lots
  refine bind_sameRows (setSignalStatus_spares _ _) hu (fun _ u hu => ?_) herr
  have hsimulated : ∀ enabled,
      (executeRouted.simulated sig PaperOutcome.entryStatus enabled).wp (serving handle)
        (fun _ u' => R u'.db) u := fun enabled =>
    wp_serving.2 (hsame _ (hu.trans (exec_sameRows (simulated_spares sig _ enabled) u)))
  unfold executeRouted
  split
  · refine wp_tryCatch.2 (wp_bind.2
      (bind_sameRows ((asksIn_perform _).2 trivial) hu
        (fun _ u hu => bind_sameRows (spares_of_reads (prepareEntry_reads cfg sig strategy lots))
        hu (fun plan u hu => bind_sameRows (fillEntry_spares cfg sig strategy plan) hu
          (fun report u hu => ?_) ?_) ?_) ?_))
    any_goals exact fun e u hu => hhandler sig.id (hsame u hu) (by cases e <;> simp)
    have hbooked := hbook sig strategy plan report u hsig hid hu
    refine wp_serving.2 ?_
    cases hx : ((bookEntry sig strategy plan report).run handle u).1 with
    | error e => exact hhandler sig.id hbooked (by cases e <;> simp)
    | ok result =>
      refine wp_bind.2 (wp_serving.2 ?_)
      refine wp_mono (fun x u' hx => ?_) (wp_of_stays (postTradeHooks_stays hkill cfg sig.userId)
        (hstatus sig.id .executed hbooked))
      cases x with
      | ok => exact hx.1
      | error e => exact hhandler sig.id hx.1 (by cases e <;> simp)
  · exact hsimulated _
  · exact hsimulated _

variable {s : StrategyId} {symbol side : String} {pid : PositionId}

theorem bookEntry_book (hv : Book s symbol side pid v.db) (sig : StrategySignal)
    (strategy : Strategy) (plan : EntryPlan) (report : BrokerReport) :
    Book s symbol side pid ((bookEntry sig strategy plan report).exec v).2.db ∨
      (strategy.id = s ∧ sig.symbol = symbol.toUpper
        ∧ (∀ q ∈ v.db.positions, ¬ q.OpenFor s symbol.toUpper side)
        ∧ ∃ pid', Book s symbol side pid' ((bookEntry sig strategy plan report).exec v).2.db) := by
  unfold bookEntry
  rw [exec_now, exec_writeDb, exec_readDb]
  have hrows : ∀ pid', Book s symbol side pid' v.db →
      Book s symbol side pid' (v.db.addExecutions (entryExecutions sig plan report)) :=
    fun _ h => h.congr rfl le_rfl
  split
  · rename_i p hfound
    obtain ⟨hmem, hopen⟩ := findExistingOpenPosition_spec hfound
    refine .inl ((hrows pid hv).save fun h => hv.only p hmem ?_)
    exact ⟨h.strategy, h.symbol, h.side, hopen.isOpen, h.owner⟩
  · rename_i hnone
    have hclosed := findExistingOpenPosition_none hnone
    cases hlevels : computeLevels report.avgPrice plan.side strategy with
    | error e => exact .inl (hrows pid hv)
    | ok levels =>
      by_cases hnew : (openPosition sig strategy plan report levels v.clock v.db.nextId).OpenFor s
        symbol.toUpper side
      · have hsymbol : sig.symbol = symbol.toUpper := hnew.symbol
        have hside : plan.side.value = side := hnew.side
        have hstrategy : strategy.id = s := hnew.strategy
        have hnobody : ∀ q ∈ v.db.positions, ¬ q.OpenFor s symbol.toUpper side := by
          intro q hq hopen
          refine hclosed q hq ?_
          rw [hsymbol, toUpper_toUpper, hside, hstrategy]
          exact hopen
        refine .inr ⟨hstrategy, hsymbol, hnobody, v.db.nextId, ?_⟩
        have hbook : Book s symbol side v.db.nextId v.db :=
          ⟨hv.ids, hv.below, fun q hq hopen => absurd hopen (hnobody q hq)⟩
        exact (hrows _ hbook).add fun _ => rfl
      · exact .inl ((hrows pid hv).add fun h => absurd h hnew)

end Entry

section Turns

variable {cfg : Settings} {sha256 : String → String} {w w' : World} {l : Turn}
  {s : StrategyId} {symbol side : String} {pid : PositionId}

theorem take_cases (ht : l.take cfg sha256 w = some w') :
    (∃ t, l = .run t ∧ w' = ((t.code cfg sha256).exec w).2) ∨ w'.db = w.db := by
  cases l with
  | run t =>
    simp only [Turn.take, Option.ite_none_right_eq_some, Option.some.injEq] at ht
    exact .inl ⟨t, rfl, ht.2.symm⟩
  | env e =>
    cases e <;> cases ht <;> exact .inr rfl

theorem worker_rows {R : Db → Prop} {id : SignalId} (h : R ((processEntry cfg id).exec w).2.db) :
    R (((Task.worker ⟨id, .entry⟩).code cfg sha256).exec w).2.db := by
  refine (wp_serving (Q := fun _ (u : World) => R u.db)).1
    (wp_tryCatch.2 (wp_serving.2 ?_))
  cases hx : ((processEntry cfg id).run handle w).1 with
  | ok => exact h
  | error e => cases e <;> exact wp_serving.2 h

def StillOpen (p : StrategyPosition) (d : Db) : Prop :=
  ∃ q ∈ d.positions, q.id = p.id ∧ q.OpenFor p.strategyId p.symbol p.side

def NoNewTrade (p : StrategyPosition) (w : World) : Turn → Prop
  | .run (.worker ⟨id, .entry⟩) => ∀ sig, w.db.signal id = some sig →
    sig.strategyId = p.strategyId → sig.symbol = p.symbol → StillOpen p w.db
  | _ => True

theorem turn_book (h : Book s symbol side pid w.db) (ht : l.take cfg sha256 w = some w')
    (hentry : ∀ id, l = .run (.worker ⟨id, .entry⟩) →
      Book s symbol side pid ((processEntry cfg id).exec w).2.db) :
    Book s symbol side pid w'.db := by
  rcases take_cases ht with ⟨t, rfl, rfl⟩ | hdb
  · by_cases he : ∃ id, t = .worker ⟨id, .entry⟩
    · obtain ⟨id, rfl⟩ := he
      exact worker_rows (hentry id rfl)
    · exact exec_of_stays (task_stays book_mirror book_reduces book_squares book_stores cfg sha256
        fun id hid => absurd ⟨id, hid⟩ he) h
  · exact hdb ▸ h

theorem turn_book_same {p : StrategyPosition} (hp : p.OpenFor s symbol.toUpper side)
    (h : Book s symbol side p.id w.db) (hok : NoNewTrade p w l)
    (ht : l.take cfg sha256 w = some w') : Book s symbol side p.id w'.db := by
  refine turn_book h ht ?_
  rintro id rfl
  refine processEntry_rows cfg (fun _ _ hd => book_mirror.status _ _ hd) book_squares
    (fun v hv => h.congr hv.1 hv.2.ge) fun sig strategy plan report v hsig hid hv => ?_
  rcases bookEntry_book (h.congr hv.1 hv.2.ge) sig strategy plan report with
    hbook | ⟨hstrategy, hsig', hnobody, -⟩
  · exact hbook
  · obtain ⟨q, hq, -, hopen⟩ := hok sig hsig
      (hid.symm.trans (hstrategy.trans hp.strategy.symm)) (hsig'.trans hp.symbol.symm)
    rw [hp.strategy, hp.symbol, hp.side] at hopen
    exact absurd hopen (hnobody q (hv.1.symm ▸ hq))

def OneOpen (s : StrategyId) (symbol side : String) (d : Db) : Prop :=
  ∃ pid, Book s symbol side pid d

theorem turn_oneOpen (h : OneOpen s symbol side w.db) (ht : l.take cfg sha256 w = some w') :
    OneOpen s symbol side w'.db := by
  obtain ⟨pid, h⟩ := h
  by_cases hentry : ∃ id, l = .run (.worker ⟨id, .entry⟩)
  · obtain ⟨id, rfl⟩ := hentry
    rcases take_cases ht with ⟨t, hrun, rfl⟩ | hdb
    · obtain rfl := Turn.run.inj hrun
      refine worker_rows (processEntry_rows cfg ?_ ?_
        (fun v hv => ⟨pid, h.congr hv.1 hv.2.ge⟩) fun sig strategy plan report v _ _ hv => ?_)
      · rintro d id st ⟨pid', hd⟩
        exact ⟨pid', book_mirror.status _ _ hd⟩
      · rintro d₀ d p side' order paper ts - - ⟨pid', hd⟩
        exact ⟨pid', hd.save fun hopen => nomatch hopen.isOpen⟩
      · rcases bookEntry_book (h.congr hv.1 hv.2.ge) sig strategy plan report with
          hbook | ⟨-, -, -, hbook⟩
        · exact ⟨pid, hbook⟩
        · exact hbook
    · exact ⟨pid, hdb ▸ h⟩
  · exact ⟨pid, turn_book h ht fun id hid => absurd ⟨id, hid⟩ hentry⟩

theorem turn_keeps {I : Db → Prop}
    (hI : ∀ (v : World) t r, Conduct (fun _ => True) sha256 t r → I v.db → I (handle v r).2.db)
    (hw : I w.db) (ht : l.take cfg sha256 w = some w') : I w'.db := by
  rcases take_cases ht with ⟨t, rfl, rfl⟩ | hdb
  · exact exec_keeps_of_conduct cfg sha256 t (fun v r hr hv => hI v t r hr hv) hw
  · exact hdb ▸ hw

end Turns

section Release

variable {cfg : Settings} {sha256 : String → String} {request : SignalRequest} {x : SignalId}
  {w w' : World} {l : Turn} {signal : StrategySignal}

/-- What is stored under the id is the signal, whatever its status. -/
structure SignalIs (x : SignalId) (signal : StrategySignal) (d : Db) : Prop where
  stored : x < d.nextId
  row : ∀ row ∈ d.signals, row.id = x → row.strategyId = signal.strategyId
    ∧ row.symbol = signal.symbol ∧ row.rawPayload = signal.rawPayload

variable {row : StrategySignal} {d : Db}

theorem SignalIs.setSignalStatus (h : SignalIs x signal d) (id : SignalId)
    (st : SignalStatus) : SignalIs x signal (d.setSignalStatus id st) := by
  refine ⟨h.stored, fun row hrow hid => ?_⟩
  obtain ⟨row', hrow', rfl⟩ := mem_map.1 hrow
  split_ifs at hid ⊢ <;> exact h.row row' hrow' hid

theorem signalIs_handle {D : Db → Prop} {t : Task} {r : Request} (hr : Conduct D sha256 t r)
    (h : SignalIs x signal w.db) : SignalIs x signal (handle w r).2.db := by
  cases r with
  | db f =>
    have hg := hr w.db
    refine ⟨h.stored.trans_le hg.nextId, fun row hrow hid => ?_⟩
    rcases hg.signals with heq | ⟨new, hnew, -, heq, -⟩
    · exact h.row row (heq ▸ hrow) hid
    · rw [show (handle w (.db f)).2.db.signals = _ from heq] at hrow
      rcases mem_concat.1 hrow with hrow | rfl
      · exact h.row row hrow hid
      · rw [hnew] at hid
        exact absurd hid.symm h.stored.ne
  | setSignalStatus id st => exact h.setSignalStatus id st
  | _ => exact h

theorem payloadSide_congr {side : String}
    (hrow : row.rawPayload = signal.rawPayload) (h : payloadSide signal = .ok side) :
    payloadSide row = .ok side := by
  unfold payloadSide at h ⊢
  dsimp only at h ⊢
  rw [hrow]
  split_ifs at h ⊢
  exact h

/-- The one open position it may close, the signal, and the rows it leaves alone. -/
structure Closing (x : SignalId) (signal : StrategySignal) (side : String) (pid : PositionId)
    (K : StrategyPosition → Prop) (d : Db) : Prop where
  book : Book signal.strategyId signal.symbol (heldSide side) pid d
  signal : SignalIs x signal d
  kept : ∀ q, K q → q ∈ d.positions

variable {side : String} {pid : PositionId} {K : StrategyPosition → Prop}

theorem closing_mirror (hK : ∀ q, K q → q.subscriptionId = none) :
    MirrorLaw (Closing x signal side pid K) where
  status _ _ h := ⟨book_mirror.status _ _ h.book, h.signal.setSignalStatus _ _, h.kept⟩
  executions _ h := ⟨book_mirror.executions _ h.book, ⟨h.signal.stored, h.signal.row⟩, h.kept⟩
  add hsub h := ⟨book_mirror.add hsub h.book,
    ⟨h.signal.stored.trans (Nat.lt_succ_self _), h.signal.row⟩,
    fun q hq => mem_append_left _ (h.kept q hq)⟩
  close qty price ts h₀ hp hsub h := by
    refine ⟨book_mirror.close qty price ts h₀.book hp hsub h.book, ⟨h.signal.stored, h.signal.row⟩,
      fun q hq => mem_savePosition (h.kept q hq) ?_⟩
    rw [mirrorClose_scope.1]
    intro hid
    rw [← h₀.book.eq_of_id (h₀.kept q hq) hp hid] at hsub
    exact hsub (hK q hq)

theorem closing_reduces (hside : payloadSide signal = .ok side)
    (hK : ∀ q, K q → ¬ (q.id = pid ∧ q.isOpen = true))
    (hd : Closing x signal side pid K d) (hrow : d.signal x = some row) :
    Reduces (Closing x signal side pid K) row := by
  obtain ⟨hsid, hsymbol, hpayload⟩ := hd.signal.row row (mem_of_find?_eq_some hrow)
    (signal_id_of_found hrow.symm)
  intro d₀ d leg p side' filled ts hleg hside' h₀ hp hpos h
  obtain ⟨hmem, hopen⟩ := getOpenPosition_spec hp
  obtain rfl : side = side' :=
    Except.ok.inj ((payloadSide_congr hpayload hside).symm.trans hside')
  rw [hsid, hsymbol] at hopen
  refine ⟨book_reduces row hleg hside' h₀.book hp hpos h.book, ⟨h.signal.stored, h.signal.row⟩,
    fun q hq => mem_savePosition (h.kept q hq) fun hid => hK q hq ?_⟩
  rw [h₀.book.eq_of_id (h₀.kept q hq) hmem hid]
  exact ⟨h₀.book.only p hmem hopen, hopen.isOpen⟩

theorem exit_closes_only (hside : payloadSide signal = .ok side)
    (hbook : Book signal.strategyId signal.symbol (heldSide side) pid w.db)
    (hsignal : SignalIs x signal w.db)
    (ht : (Turn.run (.worker ⟨x, .exit⟩)).take cfg sha256 w = some w') :
    ∀ q ∈ w.db.positions, q.subscriptionId = none → q ∉ w'.db.positions →
      q.id = pid ∧ q.isOpen = true := by
  set K : StrategyPosition → Prop := fun q =>
    (q ∈ w.db.positions ∧ q.subscriptionId = none) ∧ ¬ (q.id = pid ∧ q.isOpen = true)
  have hclosing : Closing x signal side pid K w.db := ⟨hbook, hsignal, fun q hq => hq.1.1⟩
  have hmirror : MirrorLaw (Closing x signal side pid K) := closing_mirror fun q hq => hq.1.2
  simp only [Turn.take, Option.ite_none_right_eq_some, Option.some.injEq] at ht
  have hafter : Closing x signal side pid K w'.db := by
    rw [← ht.2]
    exact exec_of_stays (executeSignalAsync_stays hmirror cfg ⟨x, .exit⟩ (by simp) fun _ =>
      processDirectExit_stays hmirror cfg x .exit fun hd hrow =>
        closing_reduces hside (fun q hq => hq.2) hd hrow) hclosing
  intro q hq howner hgone
  by_contra hkeep
  exact hgone (hafter.kept q ⟨⟨hq, howner⟩, hkeep⟩)

/-- The rows have ids of their own, and no two open owner positions share a triple. -/
structure SoundBooks (d : Db) : Prop where
  signals : IdsBelow d
  ids : (d.positions.map (·.id)).Nodup
  below : ∀ p ∈ d.positions, p.id < d.nextId
  one : ∀ p ∈ d.positions, ∀ q ∈ d.positions, ∀ s symbol side,
    p.OpenFor s symbol side → q.OpenFor s symbol side → p.id = q.id

theorem SoundBooks.oneOpen (h : SoundBooks d) (s : StrategyId) (symbol side : String) :
    OneOpen s symbol side d := by
  by_cases hopen : ∃ p ∈ d.positions, p.OpenFor s symbol.toUpper side
  · obtain ⟨p, hp, hopen⟩ := hopen
    exact ⟨p.id, h.ids, h.below, fun q hq hq' => h.one q hq p hp _ _ _ hq' hopen⟩
  · exact ⟨0, h.ids, h.below, fun q hq hq' => absurd ⟨q, hq, hq'⟩ hopen⟩

def Names (row : StrategySignal) (p : StrategyPosition) : Prop :=
  ∃ side, payloadSide row = .ok side
    ∧ p.OpenFor row.strategyId row.symbol.toUpper (heldSide side)

/-- In every run in which no entry of its strategy and symbol is executed once the position it is
held for is closed, the exit writes to no owner position but that one, and to none if it is closed
by then. -/
theorem released_exit_closes_held {w₀ w₁ : World} {before : List Turn} (hsound : SoundBooks w₀.db)
    (hbefore : Run (Turn.take cfg sha256) (fun _ _ => True) w₀ before w)
    (hhold : PutsOnHold cfg sha256 request x w w₁) :
    ∃ p ∈ w.db.positions, (∃ row ∈ w₁.db.signals, row.id = x ∧ Names row p)
      ∧ ∀ after w₂ w₃, Run (Turn.take cfg sha256) (NoNewTrade p) w₁ after w₂ →
        (Turn.run (.worker ⟨x, .exit⟩)).take cfg sha256 w₂ = some w₃ →
        ∀ q ∈ w₂.db.positions, q.subscriptionId = none → q ∉ w₃.db.positions →
          q.id = p.id ∧ q.isOpen = true := by
  have hidsTurn : ∀ {u u' : World} {l : Turn}, IdsBelow u.db → l.take cfg sha256 u = some u' →
      IdsBelow u'.db := fun h ht =>
    turn_keeps (fun v t r hr hv => (appends_handle hr).idsBelow hv) h ht
  have hids : IdsBelow w.db := hbefore.invariant (fun _ _ _ h _ ht => hidsTurn h ht) hsound.signals
  obtain ⟨-, strategy, signal, side, p, -, hx, hnew, hsid, hside, hp, hrows, -⟩ :=
    putsOnHold_cases hhold
  rw [← hsid] at hp
  obtain ⟨hmem, hopen⟩ := getOpenPosition_spec hp
  -- before the hold: the one open position is the one the exit was held for
  have hbook : Book signal.strategyId signal.symbol (heldSide side) p.id w.db := by
    obtain ⟨pid, hbook⟩ := hbefore.invariant
     
      (fun _ _ _ h _ ht => turn_oneOpen h ht) (hsound.oneOpen _ _ _)
    rw [hbook.only p hmem hopen]
    exact hbook
  have hbook₁ := turn_book hbook hhold.1 nofun
  have hrow : { signal with status := .held } ∈ w₁.db.signals := by
    rw [hrows]
    exact mem_map.2 ⟨signal, by simp [World.store], if_pos rfl⟩
  have hsignal₁ : SignalIs x signal w₁.db := by
    have hlt := hidsTurn hids hhold.1 _ hrow
    refine ⟨hx ▸ hlt, fun row hrow hid => ?_⟩
    rw [hrows] at hrow
    obtain ⟨row', hrow', rfl⟩ := mem_map.1 hrow
    rcases mem_concat.1 hrow' with hold | rfl
    · have hlt := hids row' hold
      rw [← hnew, ← hx] at hlt
      split_ifs at hid <;> exact absurd hid hlt.ne
    · rw [if_pos rfl]
      exact ⟨rfl, rfl, rfl⟩
  refine ⟨p, hmem, ⟨_, hrow, hx.symm, side, hside, hopen⟩, fun after w₂ w₃ hafter hrun => ?_⟩
  -- after it: the position stays the only one that is open, and the signal is as it was
  have hbook₂ := hafter.invariant (fun _ _ _ h hok ht => turn_book_same hopen h hok ht) hbook₁
  have hsignal₂ := hafter.invariant
    (fun _ _ _ h _ ht => turn_keeps (fun v t r hr hv => signalIs_handle hr hv) h ht) hsignal₁
  exact exit_closes_only hside hbook₂ hsignal₂ hrun

end Release

def halfRequest : SignalRequest :=
  ⟨5, "PARTIAL", some (some { sampleBody "PARTIAL" with closePct := some 50 }), true⟩

/-- The stop closes the position, an entry opens another, and later a request releases the exit. -/
def stoppedAndBack : List Turn :=
  [.run (.webhook (sampleRequest 5 "SL_HIT")), .run (.worker ⟨201, .slHit⟩),
    .run (.webhook (sampleRequest 5 "ENTRY")), .run (.worker ⟨202, .entry⟩),
    .env (.tick 1800), .run (.webhook halfRequest)]

theorem shieldedWorld_sound : SoundBooks shieldedWorld.db where
  signals := show ∀ s ∈ shieldedWorld.db.signals, s.id < _ by decide +kernel
  ids := by decide +kernel
  below := by decide +kernel
  one p hp q hq _ _ _ _ _ := by rw [mem_singleton.1 hp, mem_singleton.1 hq]

def noWorker : Turn → Bool
  | .run (.worker _) => false
  | _ => true

theorem noNewTrade_of_noWorker (p : StrategyPosition) {l : Turn} (h : noWorker l = true) :
    NoNewTrade p w l := by
  unfold NoNewTrade
  split
  · exact absurd h (by simp [noWorker])
  · trivial

theorem released_exit_closes_sample : ∃ w₁ w₂ w₃,
    PutsOnHold shieldedSettings id pricedExit 200 shieldedWorld w₁
      ∧ Run (Turn.take shieldedSettings id) (NoNewTrade (samplePosition 150 none 10)) w₁
        [.env (.tick 1800), .run (.webhook halfRequest)] w₂
      ∧ (Turn.run (.worker ⟨200, .exit⟩)).take shieldedSettings id w₂ = some w₃
      ∧ ∃ q ∈ w₂.db.positions, q ∉ w₃.db.positions ∧ q.id = 150 ∧ q.isOpen = true := by
  have hexec : (exec (fun v l => if noWorker l then Turn.take shieldedSettings id v l else none)
      heldWorld [.env (.tick 1800), .run (.webhook halfRequest)]).any (fun w₂ : World =>
        ((Turn.run (.worker ⟨200, .exit⟩)).take shieldedSettings id w₂).any (fun w₃ : World =>
          decide (∃ q ∈ w₂.db.positions, q.subscriptionId = none ∧ q ∉ w₃.db.positions)))
      = true := by
    decide +kernel
  obtain ⟨w₂, hrun, h⟩ := exists_run_of_exec_checked (fun _ l => noWorker l)
    (fun _ _ => noNewTrade_of_noWorker (samplePosition 150 none 10)) hexec
  obtain ⟨w₃, hworker, h⟩ := (Option.any_eq_true _ _).1 h
  obtain ⟨q, hq, howner, hgone⟩ := of_decide_eq_true h
  obtain ⟨p, hp, -, hcloses⟩ :=
    released_exit_closes_held shieldedWorld_sound (.nil _) pricedExit_held
  obtain rfl := mem_singleton.1 hp
  exact ⟨heldWorld, w₂, w₃, pricedExit_held, hrun, hworker, q, hq, hgone,
    hcloses _ w₂ w₃ hrun hworker q hq howner hgone⟩

/-- The exit held for the first position is released once a second one is open, and closes it. -/
theorem released_exit_closes_another : ∃ w₁ w₂ w₃,
    PutsOnHold shieldedSettings id pricedExit 200 shieldedWorld w₁
      ∧ Run (Turn.take shieldedSettings id) (fun _ _ => True) w₁ stoppedAndBack w₂
      ∧ ⟨200, .exit⟩ ∈ w₂.queue
      ∧ (Turn.run (.worker ⟨200, .exit⟩)).take shieldedSettings id w₂ = some w₃
      ∧ (∀ p ∈ shieldedWorld.db.positions, p.id = 150)
      ∧ (∃ p ∈ w₂.db.positions, p.id = 150 ∧ p.isOpen = false)
      ∧ (∃ p ∈ w₂.db.positions, p.id = 203 ∧ p.isOpen = true)
      ∧ ∃ p ∈ w₃.db.positions, p.id = 203 ∧ p.isOpen = false := by
  have hexec : ∃ w₂, Run (Turn.take shieldedSettings id) (fun _ _ => True) heldWorld
      stoppedAndBack w₂ ∧ ⟨200, .exit⟩ ∈ w₂.queue
      ∧ ∃ w₃, (Turn.run (.worker ⟨200, .exit⟩)).take shieldedSettings id w₂ = some w₃
      ∧ (∀ p ∈ shieldedWorld.db.positions, p.id = 150)
      ∧ (∃ p ∈ w₂.db.positions, p.id = 150 ∧ p.isOpen = false)
      ∧ (∃ p ∈ w₂.db.positions, p.id = 203 ∧ p.isOpen = true)
      ∧ ∃ p ∈ w₃.db.positions, p.id = 203 ∧ p.isOpen = false := by
    decide +kernel
  obtain ⟨w₂, hrun, hqueue, w₃, h⟩ := hexec
  exact ⟨heldWorld, w₂, w₃, pricedExit_held, hrun, hqueue, h⟩

end TradingBridge
