import TradingBridge.Proofs.Conduct

/-!
# The same-fire guard

A worker that enters a signal looks for another entry of the same fire that is under way or done,
and only then commits the status that lets others find its own. Where no check falls between
another's check and its commit, and no signal under way has ended in a status that does not block,
at most one signal of the fire reaches the executor.
-/

namespace TradingBridge

open Effectful Prog List

section Rows

/-- The signals are stored as entries of the strategy's fire at `ts`. -/
def Fires (strategy : StrategyId) (ts : String) (fire : List SignalId) (d : Db) : Prop :=
  ∀ x ∈ fire, ∃ s, d.signal x = some s ∧ s.strategyId = strategy ∧ s.action = "ENTRY"
    ∧ s.rawPayload.timestamp = some ts

def Begun (d : Db) (x : SignalId) : Prop := ∀ s, d.signal x = some s → s.status ≠ .received

variable {x : SignalId}

variable {s : StrategySignal} {st : SignalStatus}

theorem signal_grows {d d' : Db} (h : Grows d d')
    (hs : d.signal x = some s) : d'.signal x = some s := by
  unfold Db.signal at hs ⊢
  rcases h.signals with heq | ⟨row, -, -, heq, -⟩
  · rw [heq, hs]
  · rw [heq, find?_append, hs]
    rfl

theorem signal_setSignalStatus (d : Db) (id x : SignalId) (st : SignalStatus) :
    (d.setSignalStatus id st).signal x
      = (d.signal x).map fun s => if s.id = id then { s with status := st } else s := by
  unfold Db.signal Db.setSignalStatus
  rw [find?_map]
  congr 2
  funext s
  by_cases h : s.id = id <;> simp [h]

variable {strategy : StrategyId} {ts : String} {fire : List SignalId} {d d' : Db}

/-- A request changes nothing of a stored signal but its status, and not back to the first. -/
theorem signal_handle {D : Db → Prop} {sha256 : String → String} {t : Task} {r : Request}
    {w : World} (hr : Conduct D sha256 t r) (hs : w.db.signal x = some s) :
    ∃ st, (handle w r).2.db.signal x = some { s with status := st }
      ∧ (st = s.status ∨ st ≠ .received) := by
  cases r with
  | db f => exact ⟨s.status, signal_grows (hr w.db) hs, .inl rfl⟩
  | setSignalStatus id st =>
    have hrow := signal_setSignalStatus w.db id x st
    rw [hs, Option.map_some] at hrow
    split_ifs at hrow
    · exact ⟨st, hrow, .inr hr.1⟩
    · exact ⟨s.status, hrow, .inl rfl⟩
  | _ => exact ⟨s.status, hs, .inl rfl⟩

theorem begun_setSignalStatus (hst : st ≠ .received) (x : SignalId) :
    Begun (d.setSignalStatus x st) x := by
  intro s' hs'
  rw [signal_setSignalStatus] at hs'
  obtain ⟨s, hs, rfl⟩ := Option.map_eq_some_iff.1 hs'
  rw [if_pos (signal_id_of_found hs.symm)]
  exact hst

theorem findDuplicateEntry_isSome {x y : SignalId} {t : Nat}
    (h : Fires strategy ts fire d) (hy : y ∈ fire) (hyx : y ≠ x) (hs : d.signal y = some s)
    (hblocks : s.status.blocksDuplicate = true) (hrecent : t ≤ s.receivedAt + Db.dupEntryLookback) :
    (d.findDuplicateEntry strategy x ts t).isSome = true := by
  obtain ⟨s', hs', hstrategy, haction, hts⟩ := h y hy
  obtain rfl : s = s' := Option.some.inj (hs.symm.trans hs')
  refine find?_isSome.2 ⟨s, mem_of_find?_eq_some hs, ?_⟩
  have hid := signal_id_of_found hs.symm
  simp [hstrategy, haction, hts, hblocks, hrecent, hid, hyx]

end Rows

section Monitor

/-- Before its check, between it and the commit of the status, after the commit. -/
inductive Phase
  | before
  | checked
  | committed
  deriving DecidableEq

structure Guarded where
  task : Task
  phase : Phase

def Phase.advance : Phase → (r : Request) → Response r → Phase
  | .before, .findDuplicateEntry _ _ _ _, prior =>
    if Option.isSome prior then .before else .checked
  | .checked, _, _ => .committed
  | p, _, _ => p

/-- The worker checks for its own fire, commits right after, and then reaches the executor. -/
def Phase.Allows (strategy : StrategyId) (ts : String) (x : SignalId) : Phase → Request → Prop
  | .before, .mark (.placeStrategyOrders _) => False
  | .before, .findDuplicateEntry s e ts' _ => s = strategy ∧ e = x ∧ ts' = ts
  | .checked, r => r = .setSignalStatus x .validating
  | _, _ => True

def fireMonitor (strategy : StrategyId) (ts : String) (fire : List SignalId)
    (sha256 : String → String) : Machine Request Response Guarded where
  may m r := Conduct (Fires strategy ts fire) sha256 m.task r
    ∧ ∀ x ∈ fire, m.task = .worker ⟨x, .entry⟩ → m.phase.Allows strategy ts x r
  next m r a m' := FromDb (Fires strategy ts fire) r a ∧ m' = ⟨m.task, m.phase.advance r a⟩

variable {strategy : StrategyId} {ts : String} {fire : List SignalId} {sha256 : String → String}

@[simp] theorem advance_committed (r : Request) (a : Response r) :
    Phase.committed.advance r a = .committed := by
  cases r <;> rfl

theorem allows_committed (x : SignalId) (r : Request) : Phase.committed.Allows strategy ts x r := by
  cases r <;> trivial

variable {t : Task}

theorem wp_committed {α : Type} {c : Code α} (h : Conducts (Fires strategy ts fire) sha256 t c) :
    c.wp (fireMonitor strategy ts fire sha256) (fun _ m => m = ⟨t, .committed⟩)
      ⟨t, .committed⟩ := by
  refine h.wp (I := fun m => m = ⟨t, .committed⟩) ?_ ?_ (fun _ _ _ hm => hm) (fun _ _ hm => hm) rfl
  · rintro _ r rfl hr
    exact ⟨hr, fun x _ _ => allows_committed x r⟩
  · rintro _ r a _ rfl _ ⟨hdb, rfl⟩
    exact ⟨by simp, hdb⟩

theorem wp_before {r : Request} (hr : Conduct (Fires strategy ts fire) sha256 t r)
    (hmark : ∀ id, r ≠ .mark (.placeStrategyOrders id))
    (hcheck : ∀ s e ts' n, r ≠ .findDuplicateEntry s e ts' n) :
    (perform r : Code (Response r)).wp (fireMonitor strategy ts fire sha256)
      (fun _ m => m = ⟨t, .before⟩) ⟨t, .before⟩ := by
  refine ⟨⟨hr, fun x _ _ => ?_⟩, ?_⟩
  · cases r with
    | mark mk =>
      cases mk with
      | placeStrategyOrders id => exact absurd rfl (hmark id)
      | _ => trivial
    | findDuplicateEntry s e ts' n => exact absurd rfl (hcheck s e ts' n)
    | _ => trivial
  · rintro a _ ⟨-, rfl⟩
    cases r with
    | findDuplicateEntry s e ts' n => exact absurd rfl (hcheck s e ts' n)
    | _ => rfl

theorem wp_readDb_before {α β : Type} (f : Db → α) {k : α → Code β}
    {Q : Except AppError β → Guarded → Prop} (h : ∀ d, Fires strategy ts fire d →
      (k (f d)).wp (fireMonitor strategy ts fire sha256) Q ⟨t, .before⟩) :
    (readDb f >>= k).wp (fireMonitor strategy ts fire sha256) Q ⟨t, .before⟩ := by
  refine wp_bind.2 ⟨⟨fun d => Grows.of_sameBooks (.refl d), fun _ _ _ => trivial⟩, ?_⟩
  rintro a _ ⟨⟨d, hd, rfl⟩, rfl⟩
  exact h d hd

/-- Not between the check and the commit. -/
def Guarded.Settled (t : Task) (m : Guarded) : Prop := m = ⟨t, .before⟩ ∨ m = ⟨t, .committed⟩

theorem commit_wp {x : SignalId} {c : Code Unit} (h : Conducts (Fires strategy ts fire) sha256
      (.worker ⟨x, .entry⟩) c) :
    (setSignalStatus x .validating >>= fun _ => c).wp (fireMonitor strategy ts fire sha256)
      (fun _ m => m.Settled (.worker ⟨x, .entry⟩)) ⟨.worker ⟨x, .entry⟩, .checked⟩ := by
  have hrest : c.wp (fireMonitor strategy ts fire sha256)
      (fun _ m => m.Settled (.worker ⟨x, .entry⟩)) ⟨.worker ⟨x, .entry⟩, .committed⟩ :=
    wp_mono (fun _ _ hm => .inr hm) (wp_committed h)
  refine wp_bind.2 ⟨⟨⟨nofun, nofun⟩, ?_⟩, ?_⟩
  · rintro y _ ⟨⟩
    rfl
  · rintro a _ ⟨-, rfl⟩
    exact hrest

theorem processEntry_wp (cfg : Settings) (hts : ts ≠ "") {x : SignalId} (hx : x ∈ fire) :
    (processEntry cfg x).wp (fireMonitor strategy ts fire sha256)
      (fun _ m => m.Settled (.worker ⟨x, .entry⟩)) ⟨.worker ⟨x, .entry⟩, .before⟩ := by
  have hstatus : ∀ st, st ≠ .received → (setSignalStatus x st).wp
      (fireMonitor strategy ts fire sha256) (fun _ m => m.Settled (.worker ⟨x, .entry⟩))
      ⟨.worker ⟨x, .entry⟩, .before⟩ := fun st hst =>
    wp_mono (fun _ _ h => .inl h) (wp_before ⟨hst, fun _ => ⟨.entry, rfl⟩⟩ (by simp) (by simp))
  refine wp_readDb_before _ fun d hd => ?_
  obtain ⟨sig, hsig, hstrategy, -, htimestamp⟩ := hd x hx
  obtain rfl := signal_id_of_found hsig.symm
  simp only [hsig]
  refine wp_readDb_before _ fun d' _ => ?_
  split
  · exact hstatus _ (by decide)
  rename_i row hrow
  have hrowId : row.id = strategy := by
    have hfound := (Option.filter_eq_some_iff.1 hrow).1
    simpa [hstrategy] using find?_some hfound
  have hfire : fireTimestamp sig = some ts := by
    simp [fireTimestamp, htimestamp, hts]
  unfold isDuplicateEntry
  simp only [hfire]
  refine wp_bind.2 (wp_bind.2 ⟨⟨trivial, fun _ _ _ => trivial⟩, ?_⟩)
  rintro t _ ⟨-, rfl⟩
  refine wp_bind.2 ⟨⟨trivial, ?_⟩, ?_⟩
  · rintro y _ ⟨⟩
    exact ⟨hrowId, rfl, rfl⟩
  rintro prior _ ⟨-, rfl⟩
  cases prior with
  | some s => exact hstatus _ (by decide)
  | none => exact commit_wp (enterSignal_conducts cfg sig row)

theorem task_fireMonitor (cfg : Settings) (hts : ts ≠ "") (t : Task) :
    (t.code cfg sha256).wp (fireMonitor strategy ts fire sha256) (fun _ _ => True)
      ⟨t, .before⟩ := by
  by_cases ht : ∃ x ∈ fire, t = .worker ⟨x, .entry⟩
  · obtain ⟨x, hx, rfl⟩ := ht
    refine wp_tryCatch.2 (wp_mono (fun e m hm => ?_) (processEntry_wp cfg hts hx))
    cases e with
    | ok => trivial
    | error e =>
      unfold Handler
      dsimp only
      split
      · trivial
      · refine ⟨⟨.inl ?_, fun y _ _ => ?_⟩, fun _ _ _ => trivial⟩
        · rcases hm with rfl | rfl <;> rfl
        · rcases hm with rfl | rfl <;> trivial
  · refine (task_conducts cfg sha256 t).wp (M := fireMonitor strategy ts fire sha256)
      (I := fun m => m.task = t) (fun m r hm hr => ⟨hm ▸ hr, fun x hx hxt => ?_⟩) ?_
      (fun _ _ _ _ => trivial) (fun _ _ _ => trivial) rfl
    · exact absurd ⟨x, hx, hm ▸ hxt⟩ ht
    · rintro m r a _ hm _ ⟨hdb, rfl⟩
      exact ⟨hm, hdb⟩

end Monitor

section Runs

variable {strategy : StrategyId} {ts : String} {fire : List SignalId} {sha256 : String → String}

abbrev Guards := List (Thread Request Response AppError Task × Guarded)

/-- The signal has reached the executor, or a worker past its check still may. -/
def Entering (w : World) (gs : Guards) (x : SignalId) : Prop :=
  .placeStrategyOrders x ∈ w.marks ∨ ∃ g ∈ gs, g.2.task = .worker ⟨x, .entry⟩
    ∧ g.2.phase ≠ .before ∧ ∃ r k, g.1.prog = .op r k

/-- The signal has reached the executor, or a worker has committed its status. -/
def Committed (w : World) (gs : Guards) (x : SignalId) : Prop :=
  .placeStrategyOrders x ∈ w.marks ∨ ∃ g ∈ gs, g.2 = ⟨.worker ⟨x, .entry⟩, .committed⟩

/-- At most one signal of the fire is on its way into the executor or in it. -/
structure FireInv (strategy : StrategyId) (ts : String) (fire : List SignalId) (w : World)
    (gs : Guards) : Prop where
  rows : Fires strategy ts fire w.db
  begun : ∀ x ∈ fire, Committed w gs x → Begun w.db x
  one : ∀ x ∈ fire, ∀ y ∈ fire, Entering w gs x → Entering w gs y → x = y

theorem fires_handle {w : World} {t : Task} {r : Request} (h : Fires strategy ts fire w.db)
    (hr : Conduct (Fires strategy ts fire) sha256 t r) :
    Fires strategy ts fire (handle w r).2.db := by
  intro x hx
  obtain ⟨s, hs, hrow⟩ := h x hx
  obtain ⟨st, hs', -⟩ := signal_handle hr hs
  exact ⟨_, hs', hrow⟩

theorem begun_handle {w : World} {t : Task} {r : Request} {x : SignalId}
    (h : Fires strategy ts fire w.db) (hx : x ∈ fire)
    (hr : Conduct (Fires strategy ts fire) sha256 t r) (hb : Begun w.db x) :
    Begun (handle w r).2.db x := by
  obtain ⟨s, hs, -⟩ := h x hx
  obtain ⟨st, hs', hst⟩ := signal_handle hr hs
  intro s' h'
  obtain rfl := Option.some.inj (hs'.symm.trans h')
  rcases hst with rfl | hst
  · exact hb s hs
  · exact hst

theorem marks_handle {w : World} {r : Request} {x : SignalId}
    (h : .placeStrategyOrders x ∈ (handle w r).2.marks) :
    .placeStrategyOrders x ∈ w.marks ∨ r = .mark (.placeStrategyOrders x) := by
  cases r with
  | mark mk =>
    rcases mem_append.1 h with h | h
    · exact .inl h
    · exact .inr (by rw [mem_singleton.1 h])
  | _ => exact .inl h

section Step

variable {w : World} {gs : Guards} {i : Nat} {t : Task} {r : Request}
  {k : Response r → Code Unit} {m : Guarded} {x : SignalId}

theorem phase_of_mark (hmay : (fireMonitor strategy ts fire sha256).may m r) (hx : x ∈ fire)
    (hr : r = .mark (.placeStrategyOrders x)) : m = ⟨.worker ⟨x, .entry⟩, .committed⟩ := by
  subst hr
  obtain ⟨task, phase⟩ := m
  obtain ⟨htask, hallows⟩ := hmay
  obtain rfl : task = .worker ⟨x, .entry⟩ := htask
  have h := hallows x hx rfl
  cases phase with
  | before => exact h.elim
  | checked => cases h
  | committed => rfl

theorem advance_of_before (h : Phase.before.advance r (handle w r).1 ≠ .before) :
    ∃ s e ts' n, r = .findDuplicateEntry s e ts' n
      ∧ w.db.findDuplicateEntry s e ts' n = none := by
  cases r with
  | findDuplicateEntry s e ts' n =>
    refine ⟨s, e, ts', n, rfl, Option.not_isSome_iff_eq_none.1 fun hsome => h ?_⟩
    exact if_pos hsome
  | _ => exact absurd rfl h

theorem entering_step (hi : gs[i]? = some (⟨t, .op r k⟩, m)) (hT : m.task = t)
    (hmay : (fireMonitor strategy ts fire sha256).may m r) (hx : x ∈ fire)
    (h : Entering (handle w r).2 (gs.set i (⟨t, k (handle w r).1⟩,
      ⟨m.task, m.phase.advance r (handle w r).1⟩)) x) :
    Entering w gs x ∨ (t = .worker ⟨x, .entry⟩ ∧ ∃ n, r = .findDuplicateEntry strategy x ts n
      ∧ w.db.findDuplicateEntry strategy x ts n = none) := by
  have hold : m.task = .worker ⟨x, .entry⟩ → m.phase ≠ .before → Entering w gs x :=
    fun htask hphase => .inr ⟨_, mem_of_getElem? hi, htask, hphase, r, k, rfl⟩
  rcases h with hmark | ⟨g, hg, htask, hphase, hprog⟩
  · rcases marks_handle hmark with hmark | hr
    · exact .inl (.inl hmark)
    · have hm := phase_of_mark hmay hx hr
      exact .inl (hold (by rw [hm]) (by simp [hm]))
  · rcases mem_or_eq_of_mem_set hg with hg | rfl
    · exact .inl (.inr ⟨g, hg, htask, hphase, hprog⟩)
    · by_cases hbefore : m.phase = .before
      · rw [hbefore] at hphase
        obtain ⟨s, e, ts', n, rfl, hnone⟩ := advance_of_before hphase
        have hallows := hmay.2 x hx htask
        rw [hbefore] at hallows
        obtain ⟨rfl, rfl, rfl⟩ := hallows
        exact .inr ⟨hT ▸ htask, n, rfl, hnone⟩
      · exact .inl (hold htask hbefore)

theorem begun_step (hinv : FireInv strategy ts fire w gs) (hi : gs[i]? = some (⟨t, .op r k⟩, m))
    (hmay : (fireMonitor strategy ts fire sha256).may m r) (hx : x ∈ fire)
    (h : Committed (handle w r).2 (gs.set i (⟨t, k (handle w r).1⟩,
      ⟨m.task, m.phase.advance r (handle w r).1⟩)) x) : Begun (handle w r).2.db x := by
  have hkeep : Committed w gs x → Begun (handle w r).2.db x := fun hc =>
    begun_handle hinv.rows hx hmay.1 (hinv.begun x hx hc)
  have hself : m = ⟨.worker ⟨x, .entry⟩, .committed⟩ → Committed w gs x := fun hm =>
    .inr ⟨_, mem_of_getElem? hi, hm⟩
  rcases h with hmark | ⟨g, hg, hcommitted⟩
  · rcases marks_handle hmark with hmark | hr
    · exact hkeep (.inl hmark)
    · exact hkeep (hself (phase_of_mark hmay hx hr))
  · rcases mem_or_eq_of_mem_set hg with hg | rfl
    · exact hkeep (.inr ⟨g, hg, hcommitted⟩)
    · obtain ⟨htask, hphase⟩ := Guarded.mk.inj hcommitted
      obtain ⟨task, phase⟩ := m
      cases phase with
      | before =>
        obtain ⟨s, e, ts', n, rfl, hnone⟩ := advance_of_before (by rw [hphase]; decide)
        simp [Phase.advance, handle, hnone] at hphase
      | checked =>
        obtain rfl : r = .setSignalStatus x .validating := hmay.2 x hx htask
        exact begun_setSignalStatus (by decide) x
      | committed => exact hkeep (hself (by rw [← htask]))

end Step

/-- No worker of the signal stands between its check and its commit. -/
def NoneBetween (P : Pool) (y : SignalId) : Prop :=
  ∀ k, ⟨.worker ⟨y, .entry⟩, .op (.setSignalStatus y .validating) k⟩ ∉ P.threads

/-- The signal has reached the executor, or a worker is at it. -/
def UnderWay (P : Pool) (y : SignalId) : Prop :=
  .placeStrategyOrders y ∈ P.shared.marks
    ∨ ∃ r k, ⟨.worker ⟨y, .entry⟩, .op r k⟩ ∈ P.threads

def NotEnded (P : Pool) (y : SignalId) : Prop :=
  UnderWay P y → ∀ s, P.shared.db.signal y = some s →
    s.status = .received ∨ s.status.blocksDuplicate = true

/-- The signal was received within the lookback of a check at `n`. -/
def Recent (P : Pool) (y : SignalId) (n : Nat) : Prop :=
  ∀ s, P.shared.db.signal y = some s → n ≤ s.receivedAt + Db.dupEntryLookback

/-- At each check by a worker of the fire, every other signal of the fire meets the condition. -/
def AtChecks (fire : List SignalId) (C : Pool → SignalId → Nat → Prop) (P : Pool) :
    Move Task EnvMove → Prop
  | .step i => ∀ x ∈ fire, ∀ y ∈ fire, y ≠ x → ∀ s e ts n k,
    P.threads[i]? = some ⟨.worker ⟨x, .entry⟩, .op (.findDuplicateEntry s e ts n) k⟩ → C P y n
  | _ => True

variable {cfg : Settings} {P P' : Pool}

/-- A check finds every other signal of the fire that is on its way into the executor. -/
theorem check_finds {gs : Guards} {x y : SignalId} {n : Nat}
    (hinv : FireInv strategy ts fire P.shared gs) (hgs : gs.map Prod.fst = P.threads)
    (hwp : ∀ g ∈ gs, g.1.Follows (fireMonitor strategy ts fire sha256) (fun t m => m.task = t) g.2)
    (hy : y ∈ fire) (hyx : y ≠ x) (hbetween : NoneBetween P y) (hended : NotEnded P y)
    (hrecent : Recent P y n) (h : Entering P.shared gs y) :
    (P.shared.db.findDuplicateEntry strategy x ts n).isSome = true := by
  obtain ⟨s, hs, -⟩ := hinv.rows y hy
  have hblocks : UnderWay P y → Committed P.shared gs y →
      (P.shared.db.findDuplicateEntry strategy x ts n).isSome = true := by
    intro hway hcommitted
    have hstatus := (hended hway s hs).resolve_left (hinv.begun y hy hcommitted s hs)
    exact findDuplicateEntry_isSome hinv.rows hy hyx hs hstatus (hrecent s hs)
  rcases h with hmark | ⟨⟨⟨t, prog⟩, ⟨task, phase⟩⟩, hg, htask, hphase, r, k, hprog⟩
  · exact hblocks (.inl hmark) (.inl hmark)
  · obtain ⟨hT, hmay⟩ := hwp _ hg
    have hthread := hgs ▸ mem_map_of_mem hg
    dsimp only at htask hphase hprog hT hthread
    subst hT htask hprog
    cases phase with
    | before => exact absurd rfl hphase
    | checked =>
      obtain rfl : r = .setSignalStatus y .validating := hmay.1.2 y hy rfl
      exact absurd hthread (hbetween k)
    | committed => exact hblocks (.inr ⟨r, k, hthread⟩) (.inr ⟨_, hg, rfl⟩)

theorem FireInv.mono {w w' : World} {gs gs' : Guards} (h : FireInv strategy ts fire w gs)
    (hdb : w'.db = w.db) (hmarks : w'.marks = w.marks)
    (hgs : ∀ g ∈ gs', g ∈ gs ∨ g.2.phase = .before) : FireInv strategy ts fire w' gs' := by
  have hentering : ∀ x, Entering w' gs' x → Entering w gs x := by
    rintro x (hmark | ⟨g, hg, htask, hphase, hprog⟩)
    · exact .inl (hmarks ▸ hmark)
    · exact .inr ⟨g, (hgs g hg).resolve_right hphase, htask, hphase, hprog⟩
  refine ⟨hdb ▸ h.rows, fun x hx hc => hdb ▸ h.begun x hx ?_, fun x hx y hy hex hey =>
    h.one x hx y hy (hentering x hex) (hentering y hey)⟩
  rcases hc with hmark | ⟨g, hg, hcommitted⟩
  · exact .inl (hmarks ▸ hmark)
  · refine .inr ⟨g, (hgs g hg).resolve_right ?_, hcommitted⟩
    simp [hcommitted]

theorem fireInv_next {m : Move Task EnvMove} (hts : ts ≠ "")
    (h : Monitored (fireMonitor strategy ts fire sha256) (fun t m => m.task = t)
      (FireInv strategy ts fire) P)
    (hok : AtChecks fire (fun P y n => NoneBetween P y ∧ NotEnded P y ∧ Recent P y n) P m)
    (hm : (system cfg sha256).next P m = some P') :
    Monitored (fireMonitor strategy ts fire sha256) (fun t m => m.task = t)
      (FireInv strategy ts fire) P' := by
  refine h.next hm ?_ ?_ ?_ ?_
  · intro t gs _ _ hG
    refine ⟨⟨t, .before⟩, rfl, task_fireMonitor cfg hts t, hG.mono rfl rfl fun g hg => ?_⟩
    rcases mem_concat.1 hg with hg | rfl
    · exact .inl hg
    · exact .inr rfl
  · rintro i t r k gs a rfl hgs hwp hi hG
    obtain ⟨hT, hmay, -⟩ := hwp _ (mem_of_getElem? hi)
    refine ⟨⟨a.task, a.phase.advance r (handle P.shared r).1⟩, hT,
      ⟨fromDb_handle hG.rows r, rfl⟩, fires_handle hG.rows hmay.1,
      fun x hx hc => begun_step hG hi hmay hx hc, fun x hx y hy hex hey => ?_⟩
    -- a check that finds nothing rules out every other signal on its way
    have hcheck : ∀ x ∈ fire, ∀ y ∈ fire, (t = .worker ⟨x, .entry⟩ ∧
        ∃ n, r = .findDuplicateEntry strategy x ts n
          ∧ P.shared.db.findDuplicateEntry strategy x ts n = none) →
        Entering P.shared gs y → x = y := by
      rintro x hx y hy ⟨rfl, n, rfl, hnone⟩ hey
      by_contra hne
      have hthread : P.threads[i]? = some ⟨.worker ⟨x, .entry⟩,
          .op (.findDuplicateEntry strategy x ts n) k⟩ := by simp [← hgs, hi]
      obtain ⟨hbetween, hended, hrecent⟩ := hok x hx y hy (Ne.symm hne) _ _ _ _ _ hthread
      have hsome := check_finds hG hgs hwp hy (Ne.symm hne) hbetween hended hrecent hey
      rw [hnone] at hsome
      cases hsome
    rcases entering_step hi hT hmay hx hex with hex | hcx
    · rcases entering_step hi hT hmay hy hey with hey | hcy
      · exact hG.one x hx y hy hex hey
      · exact (hcheck y hy x hx hcy hex).symm
    · rcases entering_step hi hT hmay hy hey with hey | hcy
      · exact hcheck x hx y hy hcx hey
      · have hsame := hcx.1.symm.trans hcy.1
        simpa using hsame
  · intro i gs _ hG
    exact hG.mono rfl rfl fun g hg => .inl (mem_of_mem_eraseIdx hg)
  · intro e w gs _ he hG
    cases e <;> cases he <;> exact hG.mono rfl rfl fun g hg => .inl hg

/-- In every run whose checks find no other signal of the fire between check and commit, at most one
reaches the executor, unless one had ended in a status that does not block. -/
theorem one_entry_per_fire {moves : List (Move Task EnvMove)} (hts : ts ≠ "")
    (hP : P.threads = []) (hrows : Fires strategy ts fire P.shared.db)
    (hmarks : ∀ x ∈ fire, .placeStrategyOrders x ∉ P.shared.marks)
    (h : Run (system cfg sha256).next
      (AtChecks fire fun P y n => NoneBetween P y ∧ NotEnded P y ∧ Recent P y n) P moves P')
    {x y : SignalId} (hx : x ∈ fire) (hy : y ∈ fire)
    (hmx : .placeStrategyOrders x ∈ P'.shared.marks)
    (hmy : .placeStrategyOrders y ∈ P'.shared.marks) : x = y := by
  have hstart : FireInv strategy ts fire P.shared [] := by
    refine ⟨hrows, ?_, ?_⟩
    · rintro x hx (hmark | ⟨g, hg, -⟩)
      · exact absurd hmark (hmarks x hx)
      · cases hg
    · rintro x hx y hy (hmark | ⟨g, hg, -⟩)
      · exact absurd hmark (hmarks x hx)
      · cases hg
  obtain ⟨gs, hG⟩ := (h.invariant (fun _ _ _ hQ hok hm => fireInv_next hts hQ hok hm)
    (monitored_of_no_threads hP hstart)).rel
  exact hG.one x hx y hy (.inl hmx) (.inl hmy)

end Runs

/-- Two stored entries of one fire, both queued. -/
def twiceFired : Pool :=
  let row (id : SignalId) : StrategySignal :=
    { sampleSignal id "ENTRY" with
      rawPayload := { (sampleSignal id "ENTRY").rawPayload with timestamp := some "09:20:00" } }
  ⟨{ sampleWorld (.willing filled) with
    db := { sampleDb with signals := [row 100, row 102] }
    queue := [⟨100, .entry⟩, ⟨102, .entry⟩] }, []⟩

theorem fires_twiceFired : Fires 1 "09:20:00" [100, 102] twiceFired.shared.db := by
  intro x hx
  rcases mem_pair.1 hx with rfl | rfl <;> exact ⟨_, rfl, rfl, rfl, rfl⟩

def bothCheck : List (Move Task EnvMove) :=
  [.spawn (.worker ⟨100, .entry⟩), .spawn (.worker ⟨102, .entry⟩)]
    ++ List.replicate 4 (.step 0) ++ List.replicate 4 (.step 1)

/-- Both workers have checked before either commits, and both reach the executor. -/
theorem both_enter_when_checks_overlap : ∃ Q P' : Pool,
    Fires 1 "09:20:00" [100, 102] twiceFired.shared.db
    ∧ Run (system sampleSettings id).next (fun _ _ => True) twiceFired bothCheck Q
    ∧ Q.shared.db.signals.map (·.status) = [.received, .received]
    ∧ Run (system sampleSettings id).next (fun _ _ => True) Q
      (List.replicate 4 (.step 0) ++ List.replicate 4 (.step 1)) P'
    ∧ P'.shared.marks = [.placeStrategyOrders 100, .placeStrategyOrders 102] := by
  simp only [exists_and_left]
  exact ⟨fires_twiceFired, by decide +kernel⟩

/-- While a worker checks, no status is about to be written, and every signal is as stored or
blocks. -/
def checksApart (P : Pool) : Move Task EnvMove → Bool
  | .step i => match P.threads[i]? with
    | some ⟨_, .op (.findDuplicateEntry _ _ _ n) _⟩ =>
      (P.threads.all fun th => match th.prog with
        | .op (.setSignalStatus _ _) _ => false
        | _ => true)
      && P.shared.db.signals.all fun s =>
        (s.status = .received || s.status.blocksDuplicate)
          && n ≤ s.receivedAt + Db.dupEntryLookback
    | _ => true
  | _ => true

theorem atChecks_of_checksApart (fire : List SignalId) {P : Pool} {m : Move Task EnvMove}
    (h : checksApart P m = true) :
    AtChecks fire (fun P y n => NoneBetween P y ∧ NotEnded P y ∧ Recent P y n) P m := by
  cases m with
  | step i =>
    intro x _ y _ _ s e ts n k hi
    simp only [checksApart, hi, Bool.and_eq_true, all_eq_true] at h
    obtain ⟨hthreads, hsignals⟩ := h
    have hsignal : ∀ row, P.shared.db.signal y = some row → _ := fun row hrow =>
      hsignals row (mem_of_find?_eq_some hrow)
    refine ⟨fun k' hk' => ?_, fun _ row hrow => ?_, fun row hrow => ?_⟩
    · exact absurd (hthreads _ hk') (by simp)
    · simpa using (hsignal row hrow).1
    · simpa using (hsignal row hrow).2
  | _ => trivial

/-- One worker runs to the executor before the other starts, which finds it and stops. -/
theorem one_entry_per_fire_in_turn : ∃ P' : Pool,
    Run (system sampleSettings id).next (AtChecks [100, 102] fun P y n =>
      NoneBetween P y ∧ NotEnded P y ∧ Recent P y n) twiceFired
      ([.spawn (.worker ⟨100, .entry⟩)] ++ List.replicate 8 (.step 0)
        ++ [.spawn (.worker ⟨102, .entry⟩)] ++ List.replicate 5 (.step 1)) P'
    ∧ .placeStrategyOrders 100 ∈ P'.shared.marks
    ∧ (.placeStrategyOrders 102 ∈ P'.shared.marks → 100 = 102) := by
  have hexec : (exec (fun P m => if checksApart P m then (system sampleSettings id).next P m
        else none) twiceFired
      ([.spawn (.worker ⟨100, .entry⟩)] ++ List.replicate 8 (.step 0)
        ++ [.spawn (.worker ⟨102, .entry⟩)] ++ List.replicate 5 (.step 1))).any (fun P =>
      .placeStrategyOrders 100 ∈ P.shared.marks) = true := by decide +kernel
  obtain ⟨P', hrun, h⟩ := exists_run_of_exec_checked checksApart
    (fun _ _ => atChecks_of_checksApart [100, 102]) hexec
  refine ⟨P', hrun, of_decide_eq_true h, fun h' => ?_⟩
  exact one_entry_per_fire (by decide) rfl fires_twiceFired (by decide) hrun (by decide)
    (by decide) (of_decide_eq_true h) h'

end TradingBridge
