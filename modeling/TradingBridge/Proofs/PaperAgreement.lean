import TradingBridge.Proofs.ClosedOnce
import TradingBridge.Proofs.QueuedEntries

/-!
# The paper engine against the backtest

Fed the same bars, the two engines go through the same phases until a first position is closed:
waiting for a signal, an entry queued, a position held. What they do not share is the order of the
exits: a square-off that comes with a target or an indicator exit is the paper engine's choice and
not the backtest's.
-/

namespace TradingBridge.StrategyEngine

open Fallible List

section Views

variable {v w : BarView}

/-- Two views of a bar that no condition tells apart. -/
structure Alike (v w : BarView) : Prop where
  current : v.current = w.current
  prior : v.prior = w.prior
  condition : ∀ c, evaluateIndicatorCondition c v.values v.priorValues
    = evaluateIndicatorCondition c w.values w.priorValues

theorem alike_noValues (bar : Candle) (prior : Option Candle) (values : IndicatorValues) :
    Alike ⟨bar, prior, values, none⟩ ⟨bar, prior, values, some []⟩ := by
  refine ⟨rfl, rfl, fun c => ?_⟩
  have hcross : evaluateCross c values (some []) = evaluateCross c values none := by
    unfold evaluateCross
    rcases c.right with _ | right
    · rfl
    · rfl
  simp [evaluateIndicatorCondition, hcross]

theorem Alike.refl (v : BarView) : Alike v v := ⟨rfl, rfl, fun _ => rfl⟩

theorem Alike.evaluateCondition (h : Alike v w) (c : Condition) :
    evaluateCondition c v = evaluateCondition c w := by
  cases c with
  | indicator c => simp [StrategyEngine.evaluateCondition, h.condition]
  | candle pattern => simp [StrategyEngine.evaluateCondition, h.current, h.prior]
  | time c => simp [StrategyEngine.evaluateCondition, h.current]
  | price c => simp [StrategyEngine.evaluateCondition, h.current, h.prior]

theorem Alike.evaluateConditions (h : Alike v w) : ∀ cs : List Condition,
    evaluateConditions v cs = evaluateConditions w cs
  | [] => rfl
  | c :: cs => by
    simp only [StrategyEngine.evaluateConditions, h.evaluateCondition, h.evaluateConditions cs]

theorem Alike.evaluateEntry (h : Alike v w) (strategy : StrategyJSON) :
    evaluateEntry strategy v = evaluateEntry strategy w := by
  simp [StrategyEngine.evaluateEntry, h.evaluateConditions]

theorem Alike.indicatorEvents (h : Alike v w) : ∀ cs : List Condition,
    indicatorEvents v cs = indicatorEvents w cs
  | [] => rfl
  | .indicator c :: cs => by
    simp only [StrategyEngine.indicatorEvents, h.condition, h.current, h.indicatorEvents cs]
  | .candle _ :: cs => h.indicatorEvents cs
  | .time _ :: cs => h.indicatorEvents cs
  | .price _ :: cs => h.indicatorEvents cs

end Views

section Exits

variable {rules : ExitRules} {p : PositionState} {v w : BarView} {events : List ExitEvent}

structure ExitRules.Plain (rules : ExitRules) : Prop where
  no_trailing : rules.trailingStopPercent = none
  no_partials : rules.partialExits = []

theorem levels_updateOnCandle (candle : Candle) (pct : Option Percent) (percent : ℚ) :
    levelAbove (updateOnCandle p candle pct) percent = levelAbove p percent
      ∧ levelBelow (updateOnCandle p candle pct) percent = levelBelow p percent := by
  obtain ⟨hside, -, hprice, -, -, -, -⟩ := updateOnCandle_fields p candle pct
  simp [levelAbove, levelBelow, hside, hprice]

/-- Without a trailing stop the exits do not see whether the position was updated. -/
theorem evaluateExit_updated (hplain : rules.Plain) (h : Alike v w) (candle : Candle)
    (pct : Option Percent) (fired : Bool) :
    evaluateExit (updateOnCandle p candle pct) rules v fired = evaluateExit p rules w fired := by
  obtain ⟨hside, hopen, -, -, -, -, -⟩ := updateOnCandle_fields p candle pct
  have htarget : targetEvents rules (updateOnCandle p candle pct) v = targetEvents rules p w := by
    simp [targetEvents, levels_updateOnCandle, hside, h.current]
  have hstop : stopLossEvents rules (updateOnCandle p candle pct) v
      = stopLossEvents rules p w := by
    simp [stopLossEvents, levels_updateOnCandle, hside, h.current]
  have htrail : ∀ q u, trailingStopEvents rules q u = .ok [] := by
    simp [trailingStopEvents, hplain.no_trailing]
  have hsquare : squareOffEvents rules v = squareOffEvents rules w := by
    simp [squareOffEvents, h.current]
  have hreverse : reverseEvents rules v fired = reverseEvents rules w fired := by
    simp [reverseEvents, h.current]
  simp [evaluateExit, hopen, htarget, hstop, htrail, hplain.no_partials, partialEvents,
    h.indicatorEvents, hreverse, hsquare]

/-- The price a plain exit of a type fills at. -/
def levelOf (rules : ExitRules) (p : PositionState) (v : BarView) : ExitType → Option ℚ
  | .target => rules.targetPercent.map fun pct => levelAbove p pct
  | .stopLoss => rules.stopLossPercent.map fun pct => levelBelow p pct
  | .indicator | .squareOff => some v.current.close
  | _ => none

theorem level_evaluateExit (hplain : rules.Plain) (hopen : p.isOpen = true)
    (h : evaluateExit p rules v false = .ok events) :
    ∀ e ∈ events, levelOf rules p v e.exitType = some e.price := by
  intro e he
  rcases (reports_evaluateExit hopen h e).1.1 he with ⟨pct, hpct, -, rfl⟩ | ⟨pct, hpct, -, rfl⟩ |
    ⟨pct, _, hpct, -⟩ | ⟨p, hp, -⟩ | ⟨c, -, -, rfl⟩ | ⟨hreverse, -⟩ | ⟨time, -, -, rfl⟩
  · simp [levelOf, hpct]
  · simp [levelOf, hpct]
  · simp [hplain.no_trailing] at hpct
  · simp [hplain.no_partials] at hp
  · rfl
  · simp at hreverse
  · rfl

theorem least_prioritiseEvents {mode : AmbiguityMode} {e : ExitEvent} {es : List ExitEvent}
    (h : prioritiseEvents mode events = e :: es) :
    e ∈ events ∧ ∀ f ∈ events, mode.rank e.exitType ≤ mode.rank f.exitType := by
  have hmem : ∀ f, f ∈ e :: es ↔ f ∈ events := fun f => by
    rw [← h]
    exact mem_prioritiseEvents
  refine ⟨(hmem e).1 (mem_cons_self ..), fun f hf => ?_⟩
  have hsorted := pairwise_insertionSort
    (fun e f : ExitEvent => mode.rank e.exitType ≤ mode.rank f.exitType) events
  rw [show List.insertionSort _ events = e :: es from h] at hsorted
  rcases mem_cons.1 ((hmem f).2 hf) with rfl | hf
  · exact le_refl _
  · exact (pairwise_cons.1 hsorted).1 f hf

theorem pickExit_eq (events : List ExitEvent) :
    pickExit events = events.argmin fun e => exitPriority e.exitType := by
  cases events with
  | nil => rfl
  | cons e es =>
    change _ = es.foldl _ (some e)
    rw [pickExit]
    induction es generalizing e with
    | nil => rfl
    | cons f es ih =>
      rw [foldl_cons, ih, foldl_cons]
      congr 1
      simp only [List.argAux]
      split_ifs <;> rfl

theorem least_pickExit (hne : events ≠ []) : ∃ e, pickExit events = some e ∧ e ∈ events
    ∧ ∀ f ∈ events, exitPriority e.exitType ≤ exitPriority f.exitType := by
  rw [pickExit_eq]
  cases h : events.argmin fun e => exitPriority e.exitType with
  | none => exact absurd (argmin_eq_none.1 h) hne
  | some e =>
    exact ⟨e, rfl, argmin_mem h, fun f hf =>
      le_of_mem_argmin (f := fun e : ExitEvent => exitPriority e.exitType) hf h⟩

theorem types_agree {t u : ExitType} (hrank : conservativeRank t ≤ conservativeRank u)
    (hpriority : exitPriority u ≤ exitPriority t) (ht : (levelOf rules p v t).isSome)
    (hu : (levelOf rules p v u).isSome) :
    u = t ∨ (u = .squareOff ∧ (t = .target ∨ t = .indicator)) := by
  cases t <;> cases u <;> simp_all [conservativeRank, exitPriority, levelOf]

end Exits

section Close

variable {rules : ExitRules} {p : PositionState} {v : BarView} {events : List ExitEvent}
  {r : SessionRecord} {candle : Candle} {values : IndicatorValues}

/-- The same entry, and the same exit or a square-off where the backtest takes a target or
indicator. -/
structure Agree (p : PaperTrade) (t : Trade) : Prop where
  entryTime : p.entryTime = t.entryTime
  side : p.side = t.side
  entryPrice : p.entryPrice = t.entryPrice
  exitTime : p.exitTime = t.exitTime
  exit : (p.exitPrice = t.exitPrice ∧ t.exitReason = .exit p.exitReason)
    ∨ (p.exitReason = .squareOff
      ∧ (t.exitReason = .exit .target ∨ t.exitReason = .exit .indicator))

theorem bookEvents_full {ctx : ExitContext} {e : ExitEvent} {es : List ExitEvent}
    {b b' : ExitBooking} (hopen : b.position.isOpen = true) (hfull : e.exitType ≠ .partly)
    (h : bookEvents ctx (e :: es) b = .ok b') :
    b' = b.add (closePosition b.position) (ctx.row b.position
      (adjustForSlippage e.price b.position.side .exit ctx.costs) b.position.remainingQuantity
      (.exit e.exitType)) := by
  rw [bookEvents, if_pos hopen] at h
  obtain ⟨b₁, hb₁, h⟩ := bind_eq_ok.1 h
  unfold bookEvent at hb₁
  rw [if_neg hfull] at hb₁
  obtain ⟨-, -, -, rfl⟩ := bookFull_eq_ok.1 hb₁
  -- the position is closed, so the events after the first are not looked at
  have hclosed : (closePosition b.position).isOpen = false := by simp [closePosition, hopen]
  cases es with
  | nil => exact (Except.ok.inj h).symm
  | cons f fs =>
    rw [bookEvents, ExitBooking.add, hclosed] at h
    exact (Except.ok.inj h).symm

variable {e : ExitEvent}

theorem exists_closeToTrade (hentry : 0 < p.entryPrice) (hprice : 0 < e.price)
    (hquantity : 0 < p.quantity) (htime : p.entryTime.instant ≤ candle.timestamp.instant) :
    ∃ trade, closeToTrade r candle p e = .ok trade ∧ trade.entryTime = p.entryTime
      ∧ trade.side = p.side ∧ trade.entryPrice = p.entryPrice
      ∧ trade.exitTime = candle.timestamp ∧ trade.exitPrice = e.price
      ∧ trade.exitReason = e.exitType := by
  unfold closeToTrade PaperTrade.validate
  rw [if_neg (not_le.2 hentry), if_neg (not_le.2 hprice), if_neg (not_le.2 hquantity),
    if_neg (by norm_num), if_neg (not_lt.2 htime)]
  exact ⟨_, rfl, rfl, rfl, rfl, rfl, rfl, rfl⟩

theorem picks_agree {b q : ExitEvent} (hlevel : ∀ e ∈ events, levelOf rules p v e.exitType
      = some e.price) (hb : b ∈ events) (hq : q ∈ events)
    (hrank : conservativeRank b.exitType ≤ conservativeRank q.exitType)
    (hpriority : exitPriority q.exitType ≤ exitPriority b.exitType) :
    (q.price = b.price ∧ b.exitType = q.exitType)
      ∨ (q.exitType = .squareOff ∧ (b.exitType = .target ∨ b.exitType = .indicator)) := by
  have hbl := hlevel b hb
  have hql := hlevel q hq
  rcases types_agree hrank hpriority (Option.isSome_iff_exists.2 ⟨_, hbl⟩)
    (Option.isSome_iff_exists.2 ⟨_, hql⟩) with heq | hne
  · rw [heq, hbl, Option.some.injEq] at hql
    exact .inl ⟨hql.symm, heq.symm⟩
  · exact .inr hne

theorem exitOpen_of_flat (hposition : r.position = none) :
    exitOpen r candle values = .ok (r, []) := by
  unfold exitOpen
  rw [hposition]

theorem exitOpen_of_no_events (hposition : r.position = some p) (hopen : p.isOpen = true)
    (hevents : evaluateExit p r.strategy.exit (paperView r candle values) false = .ok []) :
    exitOpen r candle values = .ok (r, []) := by
  unfold exitOpen
  simp only [hposition, hopen]
  exact bind_eq_ok.2 ⟨[], hevents, rfl⟩

theorem exitOpen_of_events {trade : PaperTrade} (hposition : r.position = some p)
    (hopen : p.isOpen = true)
    (hevents : evaluateExit p r.strategy.exit (paperView r candle values) false = .ok events)
    (hpick : pickExit events = some e) (htrade : closeToTrade r candle p e = .ok trade) :
    exitOpen r candle values = .ok ({ r with
      closedTrades := r.closedTrades ++ [trade]
      position := some (closePosition p) }, [trade]) := by
  unfold exitOpen
  simp only [hposition, hopen]
  refine bind_eq_ok.2 ⟨events, hevents, ?_⟩
  rw [hpick]
  exact bind_eq_ok.2 ⟨trade, htrade, rfl⟩

theorem processCandle_eq {filled exited : SessionRecord} {closed : List PaperTrade}
    {decision : EntryDecision} (hactive : r.isActive = true)
    (hfill : fillQueued r candle = .ok filled)
    (hexit : exitOpen (updateOpen filled candle) candle values = .ok (exited, closed))
    (hentry : evaluateEntry exited.strategy (paperView exited candle values) = .ok decision) :
    (processCandle r candle values).2 = finishBar (queueEntry exited decision) candle values := by
  rw [processCandle, if_pos hactive, hfill]
  simp [hexit, hentry]

end Close

section Phases

variable {inp : SimInput} {i : ℕ} {prior bar : Candle} {pv values : IndicatorValues}
  {s s' : SimState} {r r' : SessionRecord} {p : PositionState} {now : ℤ}

/-- A backtest as the paper engine runs one. -/
structure SimInput.PaperLike (inp : SimInput) : Prop where
  plain : inp.strategy.exit.Plain
  no_caps : inp.strategy.risk = .none
  quantity : inp.quantity = 1
  slippage : inp.costs.slippagePercent = 0
  mode : inp.mode = .conservative

theorem SimInput.PaperLike.mode_rank (hinp : inp.PaperLike) : inp.mode.rank = conservativeRank := by
  rw [hinp.mode]
  rfl

/-- The session has seen the bars up to `prior`. -/
structure Follows (inp : SimInput) (prior : Candle) (pv : IndicatorValues) (r : SessionRecord) :
    Prop where
  active : r.isActive = true
  strategy : r.strategy = inp.strategy
  lastCandle : r.lastCandle = some prior
  lastValues : r.lastIndicatorValues = pv

/-- Neither engine has a position or an entry queued, and the signal is off. -/
structure Waiting (s : SimState) (r : SessionRecord) : Prop where
  flat : s.position = none ∧ r.position = none
  empty : s.pendingEntry = none ∧ r.pendingEntrySide = none
  fresh : r.lastShouldEnter = false

structure Queued (s : SimState) (r : SessionRecord) : Prop where
  flat : s.position = none ∧ r.position = none
  queued : ∃ pending side, s.pendingEntry = some pending ∧ pending.decision.side = some side
    ∧ r.pendingEntrySide = some side

structure Holding (now : ℤ) (p : PositionState) (s : SimState) (r : SessionRecord) : Prop where
  held : s.position = some p ∧ r.position = some p
  empty : s.pendingEntry = none ∧ r.pendingEntrySide = none
  isOpen : p.isOpen = true
  quantity : p.quantity = 1
  priced : 0 < p.entryPrice
  opened : p.entryTime.instant ≤ now

inductive Phase (now : ℤ) (s : SimState) (r : SessionRecord) : Prop
  | waiting (h : Waiting s r)
  | queued (h : Queued s r)
  | holding (p : PositionState) (h : Holding now p s r)

def Untraded (s : SimState) (r : SessionRecord) : Prop := s.trades = [] ∧ r.closedTrades = []

def Closed (s : SimState) (r : SessionRecord) : Prop :=
  ∃ p t, r.closedTrades.head? = some p ∧ s.trades.head? = some t
    ∧ t.exitReason ≠ .backtestEnd ∧ Agree p t

theorem adjustForSlippage_zero (hinp : inp.PaperLike) (price : ℚ) (side : Side)
    (leg : TradeLeg) : adjustForSlippage price side leg inp.costs = price := if_pos hinp.slippage

theorem alike_paperView (hr : Follows inp prior pv r) :
    Alike (paperView r bar values) ⟨bar, some prior, values, some pv⟩ := by
  unfold paperView
  rw [hr.lastCandle, hr.lastValues]
  split_ifs with hnil
  · subst hnil
    exact alike_noValues bar (some prior) values
  · exact Alike.refl _

theorem phase_filled (hinp : inp.PaperLike) (hr : Follows inp prior pv r) (hnone : Untraded s r)
    (hphase : Phase now s r) (hnow : now ≤ bar.timestamp.instant)
    (h : fillStep inp bar (rollStep bar s) = .ok s') :
    ∃ r', fillQueued r bar = .ok r' ∧ Follows inp prior pv r' ∧ Untraded s' r'
      ∧ (Waiting s' r' ∨ ∃ p, Holding bar.timestamp.instant p s' r') := by
  have hidle (hempty : s.pendingEntry = none ∧ r.pendingEntrySide = none) :
      rollStep bar s = s' ∧ fillQueued r bar = .ok r :=
    ⟨Except.ok.inj ((fillStep_of_flat (s := rollStep bar s) hempty.1).symm.trans h),
      fillQueued_eq_ok.2 (.inl ⟨.inl hempty.2, rfl⟩)⟩
  cases hphase with
  | waiting hw =>
    obtain ⟨rfl, hr'⟩ := hidle hw.empty
    exact ⟨r, hr', hr, hnone, .inl ⟨hw.flat, hw.empty, hw.fresh⟩⟩
  | queued hq =>
    obtain ⟨pending, side, hpending, hside, hrside⟩ := hq.queued
    rcases fillStep_eq_ok.1 h with ⟨hno, -⟩ | ⟨pending', side', hp', -, hs', hprice, -, rfl⟩
    · rcases hno with hno | hno
      · exact absurd (hno.symm.trans hpending) nofun
      · exact absurd hq.flat.1 hno
    · obtain rfl : pending = pending' := Option.some.inj (hpending.symm.trans hp')
      obtain rfl : side = side' := Option.some.inj (hside.symm.trans hs')
      rw [adjustForSlippage_zero hinp] at hprice
      refine ⟨r.opened bar side, fillQueued_eq_ok.2 (.inr ⟨side, hrside, hq.flat.2, hprice, rfl⟩),
        ⟨hr.active, hr.strategy, hr.lastCandle, hr.lastValues⟩, hnone,
        .inr ⟨_, ⟨rfl, ?_⟩, ⟨rfl, rfl⟩, rfl, hinp.quantity, ?_, le_refl _⟩⟩
      · simp [SessionRecord.opened, hinp.quantity, adjustForSlippage_zero hinp,
        defaultPaperQuantity]
      · simp only [adjustForSlippage_zero hinp]
        exact hprice
  | holding p hh =>
    obtain ⟨rfl, hr'⟩ := hidle hh.empty
    exact ⟨r, hr', hr, hnone, .inr ⟨p, hh.held, hh.empty, hh.isOpen, hh.quantity, hh.priced,
      hh.opened.trans hnow⟩⟩

/-- Both engines have seen the bar and are in one phase, or have closed a first position. -/
def Outcome (inp : SimInput) (bar : Candle) (values : IndicatorValues) (s : SimState)
    (r : SessionRecord) : Prop :=
  (Follows inp bar values r ∧ Untraded s r ∧ Phase bar.timestamp.instant s r) ∨ Closed s r

theorem follows_finishBar (hr : Follows inp prior pv r) (decision : EntryDecision) :
    Follows inp bar values (finishBar (queueEntry r decision) bar values) := by
  obtain ⟨hactive, hstrategy, -⟩ := queueEntry_keeps r decision
  exact ⟨hactive.trans hr.active, hstrategy.trans hr.strategy, rfl, rfl⟩

/-- The rest of the paper engine's bar returns, and the engines come out alike. -/
def EndsAlike (inp : SimInput) (bar : Candle) (values : IndicatorValues) (s : SimState)
    (r : SessionRecord) : Prop :=
  ∃ exited closed decision, exitOpen (updateOpen r bar) bar values = .ok (exited, closed)
    ∧ evaluateEntry exited.strategy (paperView exited bar values) = .ok decision
    ∧ Outcome inp bar values (markStep inp bar s)
      (finishBar (queueEntry exited decision) bar values)

theorem outcome_waiting (hinp : inp.PaperLike)
    (hv : barView inp i prior bar = .ok ⟨bar, some prior, values, some pv⟩)
    (hr : Follows inp prior pv r) (hnone : Untraded s r) (hw : Waiting s r)
    (h : entryStep inp i prior bar (updateStep inp bar s) = .ok s') :
    EndsAlike inp bar values s' r := by
  have hopen : updateOpen r bar = r := by
    unfold updateOpen
    rw [hw.flat.2, Option.map_none, ← hw.flat.2]
  have hupdated : updateStep inp bar s = s := by
    unfold updateStep
    rw [hw.flat.1, Option.map_none, ← hw.flat.1]
  rw [hupdated] at h
  obtain ⟨v, decision, hv', hdecision, hs'⟩ := (entryStep_of_flat hw.flat.1
    (riskBlocked_of_no_caps hinp.no_caps s)).1 h
  obtain rfl := Except.ok.inj (hv.symm.trans hv')
  have hpaper : evaluateEntry r.strategy (paperView r bar values) = .ok decision := by
    rw [hr.strategy, (alike_paperView hr).evaluateEntry]
    exact hdecision
  refine ⟨r, [], decision, by rw [hopen, exitOpen_of_flat hw.flat.2], hpaper,
    .inl ⟨follows_finishBar hr _, ?_⟩⟩
  have hflat : isFlat r = true := by
    unfold isFlat
    rw [hw.flat.2]
  obtain ⟨-, -, hposition, htrades, -⟩ := queueEntry_keeps r decision
  by_cases hfired : decision.shouldEnter = true
  · have hside : decision.side = some inp.strategy.entry.side :=
      side_of_shouldEnter hdecision hfired
    rw [if_pos hfired] at hs'
    subst hs'
    refine ⟨⟨hnone.1, htrades.trans hnone.2⟩, .queued ⟨⟨hw.flat.1, hposition.trans hw.flat.2⟩, ?_⟩⟩
    refine ⟨_, _, rfl, hside, ?_⟩
    simp [finishBar, queueEntry, hfired, hw.fresh, hflat, hside]
  · rw [if_neg hfired] at hs'
    subst hs'
    refine ⟨⟨hnone.1, htrades.trans hnone.2⟩, .waiting
      ⟨⟨hw.flat.1, hposition.trans hw.flat.2⟩, ⟨hw.empty.1, ?_⟩, ?_⟩⟩
    · simp [finishBar, queueEntry, hfired, hw.empty.2]
    · simp [finishBar, queueEntry, hfired]

/-- While they hold a position, its exits are the same and close it in both, or in neither. -/
theorem outcome_holding (hinp : inp.PaperLike)
    (hentry : ∀ v, ∃ decision, evaluateEntry inp.strategy v = .ok decision)
    (hv : barView inp i prior bar = .ok ⟨bar, some prior, values, some pv⟩)
    (hr : Follows inp prior pv r) (hnone : Untraded s r)
    (hh : Holding bar.timestamp.instant p s r) {exited entered : SimState}
    (hexited : exitStep inp i prior bar s = .ok exited)
    (hentered : entryStep inp i prior bar (updateStep inp bar exited) = .ok entered) :
    EndsAlike inp bar values entered r := by
  let q := updateOnCandle p bar inp.strategy.exit.trailingStopPercent
  obtain ⟨hside, hopen, hprice, htime, hquantity, -, -⟩ :=
    updateOnCandle_fields p bar inp.strategy.exit.trailingStopPercent
  have hposition : (updateOpen r bar).position = some q := by
    simp [updateOpen, hh.held.2, hr.strategy, q]
  have hfollows : Follows inp prior pv (updateOpen r bar) :=
    ⟨hr.active, hr.strategy, hr.lastCandle, hr.lastValues⟩
  rcases exitStep_eq_ok.1 hexited with ⟨hflat, -⟩ | ⟨p', v, events, hp', hv', hevents, hbook⟩
  · exact absurd (hflat.symm.trans hh.held.1) (Option.some_ne_none p).symm
  obtain rfl : p = p' := Option.some.inj (hh.held.1.symm.trans hp')
  obtain rfl : (⟨bar, some prior, values, some pv⟩ : BarView) = v :=
    Except.ok.inj (hv.symm.trans hv')
  have hpaper : evaluateExit q (updateOpen r bar).strategy.exit
      (paperView (updateOpen r bar) bar values) false = .ok events := by
    rw [hfollows.strategy, evaluateExit_updated hinp.plain (alike_paperView hfollows)]
    exact hevents
  rcases hbook with ⟨rfl, rfl⟩ | ⟨booked, hne, hbooked, rfl⟩
  · -- no exit fired: the position is updated in both
    obtain ⟨decision, hdecision⟩ := hentry (paperView (updateOpen r bar) bar values)
    rw [← hfollows.strategy] at hdecision
    refine ⟨_, _, decision,
      exitOpen_of_no_events hposition (hopen.trans hh.isOpen) hpaper, hdecision, .inl ?_⟩
    have hheld : (updateStep inp bar exited).position = some q := by
      simp [updateStep, hh.held.1, q]
    have hs' : updateStep inp bar exited = entered :=
      Except.ok.inj ((entryStep_of_position i prior bar (by simp [hheld])).symm.trans hentered)
    obtain ⟨-, -, hkept, htrades, -⟩ := queueEntry_keeps (updateOpen r bar) decision
    have hbusy : isFlat (updateOpen r bar) = false := by
      unfold isFlat
      rw [hposition]
      simp [q, hopen, hh.isOpen]
    have hempty : (queueEntry (updateOpen r bar) decision).pendingEntrySide = none := by
      unfold queueEntry
      rw [hbusy]
      split_ifs <;> first | exact hh.empty.2 | contradiction
    subst hs'
    refine ⟨follows_finishBar hfollows _, ⟨hnone.1, htrades.trans hnone.2⟩,
      .holding q ⟨⟨hheld, hkept.trans hposition⟩, ⟨hh.empty.1, hempty⟩, hopen.trans hh.isOpen,
        hquantity.trans hh.quantity, ?_, ?_⟩⟩
    · rw [hprice]
      exact hh.priced
    · rw [htime]
      exact hh.opened
  · -- both close on this bar, each on its own choice
    have hlevel := level_evaluateExit hinp.plain hh.isOpen hevents
    have hsound := sound_evaluateExit hh.isOpen hevents
    obtain ⟨e, hpick, he, hleast⟩ := least_pickExit hne
    obtain ⟨f, fs, hsorted⟩ : ∃ f fs, prioritiseEvents inp.mode events = f :: fs := by
      refine exists_cons_of_ne_nil fun hnil => hne ?_
      refine eq_nil_iff_forall_not_mem.2 fun g hg => ?_
      have hmem := (@mem_prioritiseEvents events inp.mode g).2 hg
      rw [hnil] at hmem
      exact not_mem_nil hmem
    obtain ⟨hf, hfirst⟩ := least_prioritiseEvents hsorted
    have hfull : f.exitType ≠ .partly := by
      intro hpartly
      have hnone := hlevel f hf
      rw [hpartly] at hnone
      cases hnone
    rw [hsorted] at hbooked
    have hrow := bookEvents_full hh.isOpen hfull hbooked
    obtain ⟨trade, htrade, hentryTime, htradeSide, hentryPrice, hexitTime, hexitPrice, hreason⟩ :=
      @exists_closeToTrade q (updateOpen r bar) bar e (by rw [hprice]; exact hh.priced)
        (hsound e he).price_pos (by rw [hquantity, hh.quantity]; norm_num)
        (by rw [htime]; exact hh.opened)
    let closedRecord : SessionRecord := { updateOpen r bar with
      closedTrades := (updateOpen r bar).closedTrades ++ [trade]
      position := some (closePosition q) }
    have hexit : exitOpen (updateOpen r bar) bar values = .ok (closedRecord, [trade]) :=
      exitOpen_of_events hposition (hopen.trans hh.isOpen) hpaper hpick htrade
    obtain ⟨decision, hdecision⟩ := hentry (paperView closedRecord bar values)
    rw [← hfollows.strategy] at hdecision
    have hpaperFirst : (queueEntry closedRecord decision).closedTrades.head? = some trade := by
      rw [(queueEntry_keeps closedRecord decision).2.2.2.1]
      show (r.closedTrades ++ [trade]).head? = _
      rw [hnone.2]
      rfl
    have hsimFirst : entered.trades.head? = booked.closed.head? := by
      rw [trades_entryStep hentered]
      show (s.trades ++ booked.closed).head? = _
      rw [hnone.1, nil_append]
    rw [hrow] at hsimFirst
    refine ⟨closedRecord, [trade], decision, hexit, hdecision,
      .inr ⟨trade, _, hpaperFirst, hsimFirst, by rintro ⟨⟩, ?_⟩⟩
    refine ⟨hentryTime.trans htime, htradeSide.trans hside, hentryPrice.trans hprice, hexitTime, ?_⟩
    have hrank : conservativeRank f.exitType ≤ conservativeRank e.exitType := by
      rw [← hinp.mode_rank]
      exact hfirst e he
    rcases picks_agree hlevel hf he hrank (hleast f hf) with ⟨hsame, htype⟩ | ⟨hsquare, hother⟩
    · refine .inl ⟨?_, by rw [hreason, ← htype]; rfl⟩
      simp only [adjustForSlippage_zero hinp]
      exact hexitPrice.trans hsame
    · refine .inr ⟨hreason.trans hsquare, ?_⟩
      rcases hother with hother | hother
      · exact .inl (congrArg TradeReason.exit hother)
      · exact .inr (congrArg TradeReason.exit hother)

theorem outcome_bar (hinp : inp.PaperLike)
    (hentry : ∀ v, ∃ decision, evaluateEntry inp.strategy v = .ok decision)
    (hv : barView inp i prior bar = .ok ⟨bar, some prior, values, some pv⟩)
    (hr : Follows inp prior pv r) (hnone : Untraded s r) (hphase : Phase now s r)
    (hnow : now ≤ bar.timestamp.instant) (h : simulateBar inp i prior bar s = .ok s') :
    Outcome inp bar values s' (processCandle r bar values).2 := by
  obtain ⟨filled, exited, entered, hfilled, hexited, hentered, rfl⟩ := simulateBar_eq_ok.1 h
  obtain ⟨r', hr', hfollows, hnone', hphase'⟩ := phase_filled hinp hr hnone hphase hnow hfilled
  have hends : EndsAlike inp bar values entered r' := by
    rcases hphase' with hw | ⟨p, hh⟩
    · obtain rfl : filled = exited :=
        Except.ok.inj ((exitStep_of_flat hw.flat.1).symm.trans hexited)
      exact outcome_waiting hinp hv hfollows hnone' hw hentered
    · exact outcome_holding hinp hentry hv hfollows hnone' hh hexited hentered
  obtain ⟨exited', closed, decision, hexit, hdecision, houtcome⟩ := hends
  rw [processCandle_eq hr.active hr' hexit hdecision]
  exact houtcome

end Phases

section Logs

variable {inp : SimInput} {i : ℕ} {prior bar lastBar : Candle} {values : IndicatorValues}
  {s s' : SimState} {r : SessionRecord}

theorem trades_simulateBar (h : simulateBar inp i prior bar s = .ok s') :
    s.trades <+: s'.trades := by
  obtain ⟨filled, exited, entered, hfilled, hexited, hentered, rfl⟩ := simulateBar_eq_ok.1 h
  have hfill : filled.trades = s.trades := by
    rcases fillStep_eq_ok.1 hfilled with ⟨-, rfl⟩ | ⟨pending, side, -, -, -, -, -, rfl⟩ <;> rfl
  have hexit : filled.trades <+: exited.trades := by
    rcases exitStep_eq_ok.1 hexited with ⟨-, rfl⟩ | ⟨position, v, events, -, -, -, hbook⟩
    · exact prefix_refl _
    · rcases hbook with ⟨-, rfl⟩ | ⟨booked, -, -, rfl⟩
      · exact prefix_refl _
      · exact prefix_append _ _
  have hentry : entered.trades = (updateStep inp bar exited).trades := trades_entryStep hentered
  show s.trades <+: entered.trades
  rw [hentry, ← hfill]
  exact hexit

theorem trades_forceClose (h : forceClose inp lastBar s = .ok s') :
    s'.trades = s.trades ∨ ∃ t, t.exitReason = .backtestEnd ∧ s'.trades = s.trades ++ [t] := by
  rcases forceClose_eq_ok.1 h with ⟨-, rfl⟩ | ⟨position, price, -, -, -, -, -, rfl⟩
  · exact .inl rfl
  · exact .inr ⟨_, rfl, rfl⟩

theorem closedTrades_processCandle (r : SessionRecord) (bar : Candle) (values : IndicatorValues) :
    r.closedTrades <+: (processCandle r bar values).2.closedTrades := by
  refine processCandle_rec (P := fun q => r.closedTrades <+: q.closedTrades)
    (fun _ => prefix_refl _) ?_ ?_ ?_
  · intro r' h
    rcases fillQueued_eq_ok.1 h with ⟨-, rfl⟩ | ⟨side, -, -, -, rfl⟩ <;> exact prefix_refl _
  · intro q q' closed hq h
    rcases exitOpen_cases h with rfl | ⟨position, trade, -, rfl⟩
    · exact hq
    · exact hq.trans (prefix_append _ _)
  · intro q decision hq
    rwa [show (finishBar (queueEntry q decision) bar values).closedTrades = q.closedTrades from
      (queueEntry_keeps q decision).2.2.2.1]

theorem head?_of_prefix {α : Type} {l m : List α} {a : α} (h : l <+: m) (ha : l.head? = some a) :
    m.head? = some a := by
  obtain ⟨rest, rfl⟩ := h
  simp [ha]

theorem Closed.next (hc : Closed s r) (h : simulateBar inp i prior bar s = .ok s') :
    Closed s' (processCandle r bar values).2 := by
  obtain ⟨p, t, hp, ht, hreason, hagree⟩ := hc
  exact ⟨p, t, head?_of_prefix (closedTrades_processCandle r bar values) hp,
    head?_of_prefix (trades_simulateBar h) ht, hreason, hagree⟩

end Logs

section Runs

variable {inp : SimInput}

theorem outcome_bars (hinp : inp.PaperLike)
    (hentry : ∀ v, ∃ decision, evaluateEntry inp.strategy v = .ok decision) :
    ∀ {bars : List (Candle × IndicatorValues)} {i : ℕ} {prior : Candle} {pv : IndicatorValues}
      {s s' : SimState} {r : SessionRecord}, Outcome inp prior pv s r →
      valuesAt inp.series (i - 1) = .ok pv →
      (∀ k b, bars[k]? = some b → valuesAt inp.series (i + k) = .ok b.2) →
      (prior.timestamp.instant :: bars.map fun b => b.1.timestamp.instant).Pairwise (· < ·) →
      simulateBars inp i prior (bars.map Prod.fst) s = .ok s' →
        Untraded s' (feed r bars) ∨ Closed s' (feed r bars)
  | [], _, _, _, _, _, _, houtcome, _, _, _, h => by
    cases h
    rcases houtcome with ⟨-, hnone, -⟩ | hclosed
    · exact .inl hnone
    · exact .inr hclosed
  | (bar, values) :: bars, i, prior, pv, s, s', r, houtcome, hpv, hvalues, hsorted, h => by
    obtain ⟨next, hnext, h⟩ := bind_eq_ok.1 h
    have hbar : valuesAt inp.series i = .ok values := hvalues 0 _ rfl
    have hv : barView inp i prior bar = .ok ⟨bar, some prior, values, some pv⟩ :=
      bind_eq_ok.2 ⟨values, hbar, bind_eq_ok.2 ⟨pv, hpv, rfl⟩⟩
    obtain ⟨hlt, hrest⟩ := pairwise_cons.1 hsorted
    have hrest : (bar.timestamp.instant :: bars.map fun b => b.1.timestamp.instant).Pairwise
        (· < ·) := hrest
    have hstep : Outcome inp bar values next (processCandle r bar values).2 := by
      rcases houtcome with ⟨hr, hnone, hphase⟩ | hclosed
      · exact outcome_bar hinp hentry hv hr hnone hphase
          (hlt _ (mem_cons_self ..)).le hnext
      · exact .inr (hclosed.next hnext)
    refine @outcome_bars hinp hentry bars (i + 1) bar values next s' _ hstep hbar
      (fun k b hk => ?_) hrest h
    rw [Nat.add_right_comm]
    exact hvalues (k + 1) b hk

variable {values : IndicatorValues} {s done : SimState} {lastBar : Candle}

/-- The bar a backtest starts from is the paper engine's first; without a signal on it both
wait. -/
theorem outcome_first {first : Candle} {decision : EntryDecision}
    (sessionId : ℕ)
    (hdecision : evaluateEntry inp.strategy ⟨first, none, values, none⟩ = .ok decision)
    (hquiet : decision.shouldEnter = false) :
    Outcome inp first values (startState inp first)
      (processCandle (startSession sessionId inp.strategy) first values).2 := by
  rw [@processCandle_eq (startSession sessionId inp.strategy) first values
    (startSession sessionId inp.strategy) (startSession sessionId inp.strategy) [] decision
    rfl rfl rfl hdecision]
  refine .inl ⟨⟨?_, ?_, rfl, rfl⟩, ⟨rfl, ?_⟩, .waiting ⟨⟨rfl, ?_⟩, ⟨rfl, ?_⟩, ?_⟩⟩ <;>
    simp [finishBar, queueEntry, hquiet, startSession]

theorem closedTrades_of_flat {r : SessionRecord} {bar : Candle} (hposition : r.position = none)
    (hpending : r.pendingEntrySide = none) :
    (processCandle r bar values).2.closedTrades = r.closedTrades := by
  refine (processCandle_rec (P := fun q => q.position = none ∧ q.closedTrades = r.closedTrades)
    (fun _ => ⟨hposition, rfl⟩) ?_ ?_ ?_).2
  · intro r' h
    rcases fillQueued_eq_ok.1 h with ⟨-, rfl⟩ | ⟨side, hside, -⟩
    · exact ⟨by simp [updateOpen, hposition], rfl⟩
    · exact absurd (hside.symm.trans hpending) nofun
  · intro q q' closed hq h
    rcases exitOpen_cases h with rfl | ⟨position, trade, hp, -⟩
    · exact hq
    · exact absurd (hp.symm.trans hq.1) nofun
  · intro q decision hq
    obtain ⟨-, -, hkept, htrades, -⟩ := queueEntry_keeps q decision
    exact ⟨hkept.trans hq.1, htrades.trans hq.2⟩

theorem evaluable_of_simulateBar {first bar : Candle} {s : SimState} (hinp : inp.PaperLike)
    (h : simulateBar inp 1 first bar (startState inp first) = .ok s) (v : BarView) :
    ∃ decision, evaluateEntry inp.strategy v = .ok decision := by
  obtain ⟨filled, exited, entered, hfilled, hexited, hentered, -⟩ := simulateBar_eq_ok.1 h
  obtain rfl : rollStep bar (startState inp first) = filled :=
    Except.ok.inj ((fillStep_of_flat rfl).symm.trans hfilled)
  obtain rfl : rollStep bar (startState inp first) = exited :=
    Except.ok.inj ((exitStep_of_flat rfl).symm.trans hexited)
  obtain ⟨w, decision, -, hdecision, -⟩ :=
    (entryStep_of_flat rfl (riskBlocked_of_no_caps hinp.no_caps _)).1 hentered
  exact returns_evaluateEntry.2 (returns_evaluateEntry.1 ⟨decision, hdecision⟩)

/-- The first trade of a log that is not a close at its end. -/
def firstTrade (trades : List Trade) : Option Trade :=
  trades.find? fun t => t.exitReason ≠ .backtestEnd

theorem firstTrade_of_untraded (hnone : s.trades = [])
    (h : forceClose inp lastBar s = .ok done) : firstTrade done.trades = none := by
  rcases trades_forceClose h with hdone | ⟨t, ht, hdone⟩
  · rw [hdone, hnone]
    rfl
  · rw [hdone, hnone]
    simp [firstTrade, ht]

theorem firstTrade_of_head {t : Trade}
    (ht : s.trades.head? = some t) (hreason : t.exitReason ≠ .backtestEnd)
    (h : forceClose inp lastBar s = .ok done) : firstTrade done.trades = some t := by
  have hhead : done.trades.head? = some t := by
    rcases trades_forceClose h with hdone | ⟨u, -, hdone⟩
    · rw [hdone]
      exact ht
    · exact head?_of_prefix (by rw [hdone]; exact prefix_append _ _) ht
  obtain ⟨ts, hts⟩ := head?_eq_some_iff.1 hhead
  rw [hts, firstTrade, find?_cons_of_pos]
  simpa using hreason

end Runs

/-- Fed a backtest's bars, the paper engine's first trade is the backtest's first that is not a
close at its end; where both have one, they agree. -/
theorem first_trades_agree (inp : SimInput) (sessionId : ℕ)
    (bars : List (Candle × IndicatorValues)) (hinp : inp.PaperLike)
    (hvalues : ∀ k b, bars[k]? = some b → valuesAt inp.series k = .ok b.2)
    (hsorted : (bars.map fun b => b.1.timestamp.instant).Pairwise (· < ·))
    (hquiet : ∀ b decision, bars.head? = some b →
      evaluateEntry inp.strategy ⟨b.1, none, b.2, none⟩ = .ok decision →
        decision.shouldEnter = false)
    (r : SimResult) (h : simulate inp (bars.map Prod.fst) = .ok r) :
    Option.Rel Agree (feed (startSession sessionId inp.strategy) bars).closedTrades.head?
      (firstTrade r.trades) := by
  rcases bars with _ | ⟨⟨first, values⟩, bars⟩
  · cases h
  obtain ⟨s, done, hs, hdone, rfl⟩ := simulate_eq_ok.1 h
  have hend : Untraded s (feed (startSession sessionId inp.strategy) ((first, values) :: bars))
      ∨ Closed s (feed (startSession sessionId inp.strategy) ((first, values) :: bars)) := by
    rcases bars with _ | ⟨⟨bar, values'⟩, bars⟩
    · cases hs
      exact .inl ⟨rfl, closedTrades_of_flat rfl rfl⟩
    · obtain ⟨next, hnext, -⟩ := bind_eq_ok.1 hs
      have hentry := evaluable_of_simulateBar hinp hnext
      obtain ⟨decision, hdecision⟩ := hentry ⟨first, none, values, none⟩
      have hstart : Outcome inp first values (startState inp first)
          (processCandle (startSession sessionId inp.strategy) first values).2 :=
        outcome_first sessionId hdecision (hquiet _ decision rfl hdecision)
      refine @outcome_bars inp hinp hentry ((bar, values') :: bars) 1 first values _ s _ hstart
        (hvalues 0 _ rfl) (fun k b hk => ?_) hsorted hs
      rw [Nat.add_comm]
      exact hvalues (k + 1) b hk
  rcases hend with ⟨hsim, hpaper⟩ | ⟨p, t, hp, ht, hreason, hagree⟩
  · rw [hpaper, firstTrade_of_untraded hsim hdone]
    exact .none
  · rw [hp, firstTrade_of_head ht hreason hdone]
    exact .some hagree

/-- Buys on a close above 100, one unit at no cost; the exits as given. -/
def buyAboveInput (exit : ExitRules) (hids : exit.indicatorExits = []) : SimInput where
  strategy := { buyAbove with
    exit := exit
    ids_declared := by simp [hids, buyAbove, Condition.referencedIds] }
  series := []
  initialCapital := 100000
  quantity := 1
  costs := ⟨0, 0, 0, 0, zero_nonneg, zero_nonneg, zero_nonneg, zero_nonneg⟩
  mode := .conservative

def onePercent : Percent := ⟨1, unit_pos⟩

def targetOnly : ExitRules := ⟨some onePercent, none, none, [], none, [], false, by simp⟩

/-- A target, and a square-off from midnight on: it fires on every bar. -/
def targetOrSquareOff : ExitRules :=
  ⟨some onePercent, none, none, [], some midnight, [], false, by simp⟩

def trailingOnly : ExitRules := ⟨none, none, some onePercent, [], none, [], false, by simp⟩

def quietBar (minute : ℤ) : Candle × IndicatorValues := (flatCandle minute, [])

theorem first_trades_agree_target : (feed (startSession 0 (buyAboveInput targetOnly rfl).strategy)
        [quietBar 0, signalBar 1, targetBar 2]).closedTrades.head? ≠ none
      ∧ ∃ r, simulate (buyAboveInput targetOnly rfl)
          ([quietBar 0, signalBar 1, targetBar 2].map Prod.fst) = .ok r
        ∧ Option.Rel Agree (feed (startSession 0 (buyAboveInput targetOnly rfl).strategy)
            [quietBar 0, signalBar 1, targetBar 2]).closedTrades.head? (firstTrade r.trades) := by
  have hrun : (simulate (buyAboveInput targetOnly rfl)
      ([quietBar 0, signalBar 1, targetBar 2].map Prod.fst)).isOk = true := by decide +kernel
  have hquiet : evaluateEntry (buyAboveInput targetOnly rfl).strategy ⟨flatCandle 0, none, [], none⟩
      = .ok ⟨false, none, [], [.price ⟨.gt, some 100, rfl⟩]⟩ := by decide +kernel
  rcases hr : simulate (buyAboveInput targetOnly rfl)
    ([quietBar 0, signalBar 1, targetBar 2].map Prod.fst) with e | r
  · rw [hr] at hrun
    cases hrun
  · refine ⟨by decide +kernel, r, rfl, first_trades_agree _ 0 _
      ⟨⟨rfl, rfl⟩, rfl, rfl, rfl, rfl⟩ ?_ (by decide +kernel) ?_ r hr⟩
    · intro k b hk
      have hb : b.2 = [] := by
        have hmem := mem_of_getElem? hk
        simp only [mem_cons, not_mem_nil, or_false] at hmem
        rcases hmem with rfl | rfl | rfl <;> rfl
      rw [hb]
      rfl
    · intro b decision hb hdecision
      cases hb
      exact (Except.ok.inj (hdecision.symm.trans hquiet)) ▸ rfl

def PaperTrade.exitKey (t : PaperTrade) : Timestamp × ℚ × TradeReason :=
  (t.exitTime, t.exitPrice, .exit t.exitReason)

def Trade.exitKey (t : Trade) : Timestamp × ℚ × TradeReason :=
  (t.exitTime, t.exitPrice, t.exitReason)

def firstExits (inp : SimInput) (bars : List (Candle × IndicatorValues)) :
    Option (Timestamp × ℚ × TradeReason) × Option (Timestamp × ℚ × TradeReason) :=
  ((feed (startSession 0 inp.strategy) bars).closedTrades.head?.map PaperTrade.exitKey,
    (simulate inp (bars.map Prod.fst)).toOption.bind fun r =>
      (firstTrade r.trades).map Trade.exitKey)

/-- A square-off with a target; a trail moved by the bar's own high; a signal on the first bar. -/
theorem first_trades_disagree :
    (firstExits (buyAboveInput targetOrSquareOff rfl) [quietBar 0, signalBar 1, targetBar 2]
        = (some ((targetBar 2).1.timestamp, 100, .exit .squareOff),
          some ((targetBar 2).1.timestamp, 101, .exit .target)))
      ∧ firstExits (buyAboveInput trailingOnly rfl)
          [quietBar 0, signalBar 1, targetBar 2, quietBar 3]
        = (some ((targetBar 2).1.timestamp, 102 * (99 / 100), .exit .trailingStop),
          some ((quietBar 3).1.timestamp, 102 * (99 / 100), .exit .trailingStop))
      ∧ firstExits (buyAboveInput targetOnly rfl) [signalBar 0, targetBar 1]
        = (some ((targetBar 1).1.timestamp, 101, .exit .target), none) := by
  refine ⟨?_, ?_, ?_⟩ <;> decide +kernel

end TradingBridge.StrategyEngine
