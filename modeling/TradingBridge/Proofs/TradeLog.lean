import TradingBridge.Proofs.BacktestSteps

/-!
# The trade log against the equity curve

The cost of an entry is taken from the realised profit and stands in no trade's profit: what the
log has more than the curve is `unlogged`, the entries' costs. So the two reconcile on every run
exactly when the cost settings charge nothing, or no run that enters returns.
-/

namespace TradingBridge.StrategyEngine

open Fallible List

section Unlogged

/-- What the trades sum to beyond the realised profit. -/
def SimState.unlogged (s : SimState) : ℚ := (s.trades.map Trade.pnl).sum - s.realisedPnl

def SimInput.entryCost (inp : SimInput) (price : ℚ) : ℚ :=
  inp.costs.fixedCost + inp.costs.percentCost / 100 * (price * inp.quantity)

variable {inp : SimInput} {i : ℕ} {prior bar : Candle} {s s' : SimState}

theorem realised_bookEvents {ctx : ExitContext} {events : List ExitEvent} {b b' : ExitBooking}
    (hb : b.realised = (b.closed.map Trade.pnl).sum) (h : bookEvents ctx events b = .ok b') :
    b'.realised = (b'.closed.map Trade.pnl).sum := by
  refine bookEvents_invariant (I := fun b => b.realised = (b.closed.map Trade.pnl).sum) ?_ hb h
  intro e _ b b' hb _ he
  rcases bookEvent_cases he with rfl | ⟨position, fill, quantity, reason, rfl⟩
  · exact hb
  · simp [ExitBooking.add, hb]

theorem unlogged_fillStep (h : fillStep inp bar s = .ok s') :
    s'.unlogged = s.unlogged ∨ ∃ price, 0 < price ∧ 0 < inp.quantity
      ∧ s'.unlogged = s.unlogged + inp.entryCost price := by
  rcases fillStep_eq_ok.1 h with ⟨-, rfl⟩ | ⟨pending, side, -, -, -, hprice, hquantity, rfl⟩
  · exact .inl rfl
  · refine .inr ⟨_, hprice, hquantity, ?_⟩
    simp only [SimState.unlogged, SimState.entered, SimInput.entryCost]
    ring

theorem unlogged_exitStep (h : exitStep inp i prior bar s = .ok s') : s'.unlogged = s.unlogged := by
  rcases exitStep_eq_ok.1 h with ⟨-, rfl⟩ | ⟨position, v, events, -, -, -, hbook⟩
  · rfl
  · rcases hbook with ⟨-, rfl⟩ | ⟨booked, -, hbooked, rfl⟩
    · rfl
    · have hrealised : booked.realised = (booked.closed.map Trade.pnl).sum :=
        realised_bookEvents (by simp) hbooked
      simp only [SimState.unlogged, SimState.exited, map_append, sum_append, hrealised]
      ring

theorem unlogged_entryStep (h : entryStep inp i prior bar s = .ok s') :
    s'.unlogged = s.unlogged := by
  rcases entryStep_cases h with rfl | ⟨v, decision, -, -, -, -, -, rfl⟩
  · rfl
  · rfl

theorem unlogged_simulateBar (h : simulateBar inp i prior bar s = .ok s') :
    s'.unlogged = s.unlogged ∨ ∃ price, 0 < price ∧ 0 < inp.quantity
      ∧ s'.unlogged = s.unlogged + inp.entryCost price := by
  obtain ⟨filled, exited, entered, hfilled, hexited, hentered, rfl⟩ := simulateBar_eq_ok.1 h
  have hmark : (markStep inp bar entered).unlogged = filled.unlogged := by
    show entered.unlogged = _
    rw [unlogged_entryStep hentered, ← unlogged_exitStep hexited]
    rfl
  have hroll : (rollStep bar s).unlogged = s.unlogged := rfl
  rw [hmark, ← hroll]
  exact unlogged_fillStep hfilled

end Unlogged

section Curve

variable {inp : SimInput} {i : ℕ} {prior bar lastBar : Candle} {s s' : SimState}

/-- Flat, the last point of the curve is the capital and the realised profit. -/
def SimState.Marked (inp : SimInput) (s : SimState) : Prop :=
  s.position = none → ∃ init t, s.equityCurve = init ++ [⟨t, inp.initialCapital + s.realisedPnl⟩]

theorem marked_startState (first : Candle) : (startState inp first).Marked inp :=
  fun _ => ⟨[], first.timestamp, by simp [startState]⟩

theorem marked_simulateBar (h : simulateBar inp i prior bar s = .ok s') : s'.Marked inp := by
  obtain ⟨-, -, entered, -, -, -, rfl⟩ := simulateBar_eq_ok.1 h
  intro hflat
  have hposition : entered.position = none := hflat
  refine ⟨entered.equityCurve, bar.timestamp, ?_⟩
  simp [markStep, hposition]

variable {bars : List Candle}

theorem marked_simulateBars (hs : s.Marked inp)
    (h : simulateBars inp i prior bars s = .ok s') : s'.Marked inp :=
  simulateBars_invariant (fun _ _ _ _ _ _ hbar => marked_simulateBar hbar) hs h

theorem equity_forceClose (hs : s.Marked inp) (h : forceClose inp lastBar s = .ok s') :
    ∃ init t, s'.equityCurve = init ++ [⟨t, inp.initialCapital + s'.realisedPnl⟩] := by
  rcases forceClose_eq_ok.1 h with ⟨hflat, rfl⟩ | ⟨position, exitPrice, -, -, -, -, -, rfl⟩
  · exact hs hflat
  · exact ⟨_, _, rfl⟩

theorem unlogged_forceClose (h : forceClose inp lastBar s = .ok s') : s'.unlogged = s.unlogged := by
  rcases forceClose_eq_ok.1 h with ⟨-, rfl⟩ | ⟨position, exitPrice, -, -, -, -, -, rfl⟩
  · rfl
  · simp only [SimState.closedOut, SimState.unlogged, map_append, map_cons,
      map_nil, sum_append, sum_cons, sum_nil]
    ring

variable {first : Candle} {r : SimResult}

theorem simulate_eq_ok : simulate inp (first :: bars) = .ok r ↔
      ∃ s done, simulateBars inp 1 first bars (startState inp first) = .ok s
        ∧ forceClose inp (bars.getLastD first) s = .ok done
        ∧ r = ⟨done.trades, done.equityCurve, decide (0 < inp.costs.spreadPercent)⟩ := by
  simp [simulate, bind_eq_ok, eq_comm (a := r)]

/-- The curve ends at the capital and the trades' profit, less what is unlogged. -/
theorem equity_simulate
    (h : simulate inp (first :: bars) = .ok r) :
    ∃ s done, simulateBars inp 1 first bars (startState inp first) = .ok s
      ∧ forceClose inp (bars.getLastD first) s = .ok done ∧ r.trades = done.trades
      ∧ ∃ init t, r.equityCurve = init
        ++ [⟨t, inp.initialCapital + ((r.trades.map Trade.pnl).sum - done.unlogged)⟩] := by
  obtain ⟨s, done, hs, hdone, rfl⟩ := simulate_eq_ok.1 h
  obtain ⟨init, t, hcurve⟩ :=
    equity_forceClose (marked_simulateBars (marked_startState first) hs) hdone
  refine ⟨s, done, hs, hdone, rfl, init, t, ?_⟩
  simp [hcurve, SimState.unlogged]

end Curve

section Reconciles

/-- The curve ends at the capital and the sum of the trades, and the return is that in percent. -/
def Reconciles (payload : BacktestInput) (r : BacktestResult) : Prop :=
  ∃ last, r.equityCurve.getLast? = some last
    ∧ last.equity - payload.initialCapital = r.totalPnl
    ∧ r.totalReturnPercent = 100 * r.totalPnl / payload.initialCapital

variable {payload : BacktestInput} {r : BacktestResult}

theorem runBacktest_eq_ok {compute : Calculations}
    (h : runBacktest compute payload = .ok r) :
    ∃ first bars series sim, normalizeCandles payload.candles = .ok (first :: bars)
      ∧ simulate (payload.simInput series) (first :: bars) = .ok sim
      ∧ r.totalPnl = (sim.trades.map Trade.pnl).sum
      ∧ r.totalReturnPercent = TradingBridge.StrategyEngine.totalReturnPercent
        payload.initialCapital
        ((sim.equityCurve.map EquityPoint.equity).getLastD payload.initialCapital)
      ∧ r.equityCurve = sim.equityCurve ∧ r.trades = sim.trades := by
  obtain ⟨candles, hcandles, h⟩ := bind_eq_ok.1 h
  obtain ⟨⟨series, multiOutput⟩, hseries, h⟩ := bind_eq_ok.1 h
  obtain ⟨sim, hsim, h⟩ := bind_eq_ok.1 h
  cases h
  rcases candles with _ | ⟨first, bars⟩
  · cases hsim
  · exact ⟨first, bars, series, sim, hcandles, hsim, rfl, rfl, rfl, rfl⟩

theorem reconciles_iff {gap : ℚ} (hcurve : ∃ init t,
      r.equityCurve = init ++ [⟨t, payload.initialCapital + (r.totalPnl - gap)⟩])
    (hreturn : r.totalReturnPercent = TradingBridge.StrategyEngine.totalReturnPercent
      payload.initialCapital
      ((r.equityCurve.map EquityPoint.equity).getLastD payload.initialCapital)) :
    Reconciles payload r ↔ gap = 0 := by
  obtain ⟨init, t, hcurve⟩ := hcurve
  have hlast : r.equityCurve.getLast?
      = some ⟨t, payload.initialCapital + (r.totalPnl - gap)⟩ := by simp [hcurve]
  constructor
  · rintro ⟨last, hl, hsum, -⟩
    rw [hlast, Option.some.injEq] at hl
    rw [← hl] at hsum
    linarith
  · rintro rfl
    refine ⟨_, hlast, by simp, ?_⟩
    rw [hreturn, hcurve]
    have hne : payload.initialCapital ≠ 0 := payload.capital_pos.ne'
    simp only [map_append, map_cons, map_nil, getLastD_concat,
      TradingBridge.StrategyEngine.totalReturnPercent, hne, if_false]
    ring

end Reconciles

section FreeEntries

variable {inp : SimInput} {i : ℕ} {prior bar lastBar : Candle} {s s' : SimState}

/-- Cost settings that charge nothing for a leg. -/
def CostSettings.Free (c : CostSettings) : Prop := c.fixedCost = 0 ∧ c.percentCost = 0

theorem entryCost_eq_zero (hfree : inp.costs.Free) (price : ℚ) : inp.entryCost price = 0 := by
  simp [SimInput.entryCost, hfree.1, hfree.2]

theorem entryCost_pos (hcost : ¬ inp.costs.Free) {price : ℚ} (hprice : 0 < price)
    (hquantity : 0 < inp.quantity) : 0 < inp.entryCost price := by
  have hnotional : 0 < price * inp.quantity := mul_pos hprice hquantity
  have hfixed := inp.costs.fixed_nonneg
  have hpercent := inp.costs.percent_nonneg
  unfold SimInput.entryCost
  rcases lt_or_eq_of_le hfixed with h | h
  · have := mul_nonneg (div_nonneg hpercent (by norm_num : (0 : ℚ) ≤ 100)) hnotional.le
    linarith
  · have hne : inp.costs.percentCost ≠ 0 := fun hz => hcost ⟨h.symm, hz⟩
    have hpos : 0 < inp.costs.percentCost := lt_of_le_of_ne hpercent (Ne.symm hne)
    have := mul_pos (div_pos hpos (by norm_num : (0 : ℚ) < 100)) hnotional
    linarith

theorem unlogged_simulateBars_free (hfree : inp.costs.Free) {bars : List Candle}
    (hs : s.unlogged = 0) (h : simulateBars inp i prior bars s = .ok s') : s'.unlogged = 0 := by
  refine simulateBars_invariant (I := fun s => s.unlogged = 0) ?_ hs h
  intro i prior bar s s' hs hbar
  rcases unlogged_simulateBar hbar with h | ⟨price, -, -, h⟩
  · rw [h, hs]
  · rw [h, hs, entryCost_eq_zero hfree, add_zero]

end FreeEntries

section NoExit

variable {inp : SimInput} {i : ℕ} {prior bar lastBar : Candle} {s s' : SimState}

/-- No trade has been made: flat and untouched, or holding a buy. -/
structure SimState.Stuck (s : SimState) : Prop where
  trades : s.trades = []
  flat : s.position = none → s.realisedPnl = 0
  held : ∀ p, s.position = some p →
    p.side = .buy ∧ p.isOpen = true ∧ p.partialExitsDone = []

theorem slipFactor_nonpos (hslip : 100 ≤ inp.costs.slippagePercent) :
    slipFactor .buy .exit inp.costs ≤ 0 ∧ slipFactor .sell .entry inp.costs ≤ 0 := by
  simp only [slipFactor]
  constructor <;> linarith

theorem not_fill_exit (hslip : 100 ≤ inp.costs.slippagePercent) {price : ℚ} (hprice : 0 ≤ price) :
    ¬ 0 < adjustForSlippage price .buy .exit inp.costs := by
  rw [adjustForSlippage_eq, not_lt]
  exact mul_nonpos_of_nonneg_of_nonpos hprice (slipFactor_nonpos hslip).1

theorem bookEvents_stuck (hslip : 100 ≤ inp.costs.slippagePercent) {ctx : ExitContext}
    (hcosts : ctx.costs = inp.costs) {events : List ExitEvent} {position : PositionState}
    {b : ExitBooking} (hside : position.side = .buy) (hopen : position.isOpen = true)
    (hdone : position.partialExitsDone = []) (hne : events ≠ [])
    (hprice : ∀ e ∈ events, 0 < e.price) :
    bookEvents ctx events ⟨position, [], 0⟩ ≠ .ok b := by
  obtain ⟨event, rest, rfl⟩ := exists_cons_of_ne_nil hne
  intro h
  have hfill := not_fill_exit hslip (hprice event (mem_cons_self ..)).le
  rw [bookEvents, if_pos hopen] at h
  obtain ⟨b₁, hb₁, -⟩ := bind_eq_ok.1 h
  simp only [bookEvent, hside, hcosts, partialDone, hdone, any_nil, Bool.false_eq_true,
    if_false] at hb₁
  split_ifs at hb₁
  · exact hfill (bookPartial_eq_ok.1 hb₁).2.2.2.1
  · exact hfill (bookFull_eq_ok.1 hb₁).1

theorem SimState.Stuck.filled (hslip : 100 ≤ inp.costs.slippagePercent) (hs : s.Stuck)
    (h : fillStep inp bar s = .ok s') : s'.Stuck := by
  rcases fillStep_eq_ok.1 h with ⟨-, rfl⟩ | ⟨pending, side, -, -, -, hprice, -, rfl⟩
  · exact hs
  · have hbuy : side = .buy := by
      cases side with
      | buy => rfl
      | sell =>
        have hopen : 0 ≤ bar.openPrice := bar.low_nonneg.trans bar.open_mem.1
        rw [adjustForSlippage_eq] at hprice
        exact absurd hprice
          (not_lt.2 (mul_nonpos_of_nonneg_of_nonpos hopen (slipFactor_nonpos hslip).2))
    refine ⟨hs.trades, fun hnone => absurd hnone (by simp [SimState.entered]), fun p hp => ?_⟩
    cases hp
    exact ⟨hbuy, rfl, rfl⟩

theorem SimState.Stuck.exited (hslip : 100 ≤ inp.costs.slippagePercent) (hs : s.Stuck)
    (h : exitStep inp i prior bar s = .ok s') : s' = s := by
  rcases exitStep_eq_ok.1 h with ⟨-, rfl⟩ | ⟨position, v, events, hposition, -, hevents, hbook⟩
  · rfl
  · rcases hbook with ⟨-, rfl⟩ | ⟨booked, hne, hbooked, rfl⟩
    · rfl
    · obtain ⟨hside, hopen, hdone⟩ := hs.held position hposition
      have hsound := sound_evaluateExit hopen hevents
      have hne' : prioritiseEvents inp.mode events ≠ [] := by
        obtain ⟨e, he⟩ := exists_mem_of_ne_nil _ hne
        exact ne_nil_of_mem (mem_prioritiseEvents.2 he)
      exact absurd hbooked (bookEvents_stuck hslip rfl hside hopen hdone hne'
        fun e he => (hsound e (mem_prioritiseEvents.1 he)).price_pos)

theorem SimState.Stuck.updated (hs : s.Stuck) : (updateStep inp bar s).Stuck := by
  refine ⟨hs.trades, fun hnone => hs.flat (Option.map_eq_none_iff.1 hnone), fun p hp => ?_⟩
  obtain ⟨q, hq, rfl⟩ := Option.map_eq_some_iff.1 hp
  obtain ⟨hside, hopen, -, -, -, -, hdone⟩ :=
    updateOnCandle_fields q bar inp.strategy.exit.trailingStopPercent
  rw [hside, hopen, hdone]
  exact hs.held q hq

theorem SimState.Stuck.entered (hs : s.Stuck) (h : entryStep inp i prior bar s = .ok s') :
    s'.Stuck := by
  rcases entryStep_cases h with rfl | ⟨v, decision, -, -, -, -, -, rfl⟩
  · exact hs
  · exact ⟨hs.trades, hs.flat, hs.held⟩

theorem SimState.Stuck.next (hslip : 100 ≤ inp.costs.slippagePercent) (hs : s.Stuck)
    (h : simulateBar inp i prior bar s = .ok s') : s'.Stuck := by
  obtain ⟨filled, exited, entered, hfilled, hexited, hentered, rfl⟩ := simulateBar_eq_ok.1 h
  have hrolled : (rollStep bar s).Stuck := ⟨hs.trades, hs.flat, hs.held⟩
  have hstuck := hrolled.filled hslip hfilled
  rw [hstuck.exited hslip hexited] at hentered
  have hdone := hstuck.updated.entered hentered
  exact ⟨hdone.trades, hdone.flat, hdone.held⟩

/-- With all the price as slippage, a run that returns has made no entry. -/
theorem unlogged_of_stuck (hslip : 100 ≤ inp.costs.slippagePercent) (hs : s.Stuck)
    (h : forceClose inp lastBar s = .ok s') : s'.unlogged = 0 := by
  rcases forceClose_eq_ok.1 h with
    ⟨hflat, rfl⟩ | ⟨position, exitPrice, hposition, hexit, hpos, -⟩
  · simp [SimState.unlogged, hs.trades, hs.flat hflat]
  · rw [(hs.held position hposition).1] at hexit
    rw [hexit] at hpos
    exact absurd hpos
      (not_fill_exit hslip (lastBar.low_nonneg.trans lastBar.close_mem.1))

end NoExit

section FlatRun

theorem zero_nonneg : (0 : ℚ) ≤ 0 := le_refl 0

theorem unit_pos : (0 : ℚ) < 1 := by norm_num

theorem no_ids_nodup : (([] : List IndicatorConfig).map (·.id)).Nodup := by simp

/-- A bar at 100 throughout, `minute` minutes in. -/
def flatCandle (minute : ℤ) : Candle where
  timestamp := ⟨minute * minuteMicros, some 0⟩
  openPrice := 100
  high := 100
  low := 100
  close := 100
  volume := 0
  low_nonneg := by norm_num
  open_mem := by norm_num
  close_mem := by norm_num
  volume_nonneg := zero_nonneg

/-- Buys whenever flat, and leaves on a reverse signal that never comes. -/
def alwaysBuy : StrategyJSON where
  indicators := []
  entry := ⟨.buy, .all, [.price ⟨.gt, some 0, rfl⟩], by simp⟩
  exit := ⟨none, none, none, [], none, [], true, by simp⟩
  risk := .none
  ids_nodup := no_ids_nodup
  ids_declared := by simp [Condition.referencedIds]

def flatPayload (c : CostSettings) : BacktestInput where
  candles := [flatCandle 0, flatCandle 1, flatCandle 2]
  strategy := alwaysBuy
  initialCapital := 100000
  quantity := 1
  costs := c
  mode := .conservative
  candles_length := by decide
  capital_pos := by norm_num
  quantity_pos := unit_pos

def flatInput (c : CostSettings) : SimInput := (flatPayload c).simInput []

variable (c : CostSettings)

theorem barView_flat (i : ℕ) (prior bar : Candle) :
    barView (flatInput c) i prior bar = .ok ⟨bar, some prior, [], some []⟩ := rfl

theorem flat_queued : ∃ s pending, simulateBar (flatInput c) 1 (flatCandle 0) (flatCandle 1)
      (startState (flatInput c) (flatCandle 0)) = .ok s
    ∧ s.position = none ∧ s.pendingEntry = some pending ∧ pending.decision.side = some .buy
    ∧ s.unlogged = 0 := by
  have hentry : evaluateEntry alwaysBuy ⟨flatCandle 1, some (flatCandle 0), [], some []⟩
      = .ok ⟨true, some .buy, [.price ⟨.gt, some 0, rfl⟩], []⟩ := by decide +kernel
  refine ⟨_, ⟨⟨true, some .buy, [.price ⟨.gt, some 0, rfl⟩], []⟩, (flatCandle 1).timestamp⟩,
    simulateBar_eq_ok.2 ⟨_, _, _, fillStep_of_flat rfl, exitStep_of_flat rfl,
      (entryStep_of_flat rfl (riskBlocked_of_no_caps rfl _)).2
        ⟨_, _, barView_flat c _ _ _, hentry, rfl⟩, rfl⟩,
    rfl, rfl, rfl, ?_⟩
  simp [SimState.unlogged, markStep, updateStep, rollStep, startState]

theorem flat_filled (hslip : c.slippagePercent < 100) {s : SimState} {pending : PendingEntry}
    (hposition : s.position = none) (hpending : s.pendingEntry = some pending)
    (hside : pending.decision.side = some .buy) (hlogged : s.unlogged = 0) :
    ∃ s' position price, simulateBar (flatInput c) 2 (flatCandle 1) (flatCandle 2) s = .ok s'
      ∧ 0 < price ∧ s'.unlogged = (flatInput c).entryCost price ∧ s'.position = some position
      ∧ position.side = .buy ∧ position.remainingQuantity = 1 ∧ position.entryPrice = price := by
  have hprice : 0 < adjustForSlippage (flatCandle 2).openPrice .buy .entry (flatInput c).costs :=
    adjustForSlippage_pos .buy .entry (by norm_num [flatCandle]) hslip
  have hquantity : 0 < (flatInput c).quantity := (flatPayload c).quantity_pos
  set price := adjustForSlippage (flatCandle 2).openPrice .buy .entry (flatInput c).costs
  set held := (rollStep (flatCandle 2) s).entered (flatInput c) (flatCandle 2) pending .buy price
    with hdef
  have hfill : fillStep (flatInput c) (flatCandle 2) (rollStep (flatCandle 2) s) = .ok held :=
    fillStep_eq_ok.2 (.inr ⟨_, _, hpending, hposition, hside, hprice, hquantity, rfl⟩)
  have hexit : exitStep (flatInput c) 2 (flatCandle 1) (flatCandle 2) held = .ok held :=
    exitStep_eq_ok.2 (.inr ⟨_, _, [], rfl, barView_flat c _ _ _, (evaluateExit_eq_ok rfl).2
      ⟨[], rfl, [], rfl, [], rfl, [], rfl, [], rfl, [], rfl, [], rfl, rfl⟩, .inl ⟨rfl, rfl⟩⟩)
  have hheld : (updateStep (flatInput c) (flatCandle 2) held).position ≠ none := by
    simp [updateStep, hdef, SimState.entered]
  refine ⟨_, _, price, simulateBar_eq_ok.2 ⟨_, _, _, hfill, hexit,
    entryStep_of_position _ _ _ hheld, rfl⟩, hprice, ?_, rfl, rfl, rfl, rfl⟩
  simp only [SimState.unlogged] at hlogged
  simp only [SimState.unlogged, markStep, updateStep, hdef, SimState.entered, rollStep,
    SimInput.entryCost]
  linarith

theorem flat_run (compute : Calculations) (hslip : c.slippagePercent < 100) :
    ∃ r price, 0 < price ∧ runBacktest compute (flatPayload c) = .ok r
      ∧ (Reconciles (flatPayload c) r ↔ (flatInput c).entryCost price = 0) := by
  obtain ⟨s, pending, hbar, hposition, hpending, hside, hlogged⟩ := flat_queued c
  obtain ⟨s', position, price, hbar', hprice, hunlogged, hopen, hside', hremaining, hentry⟩ :=
    flat_filled c hslip hposition hpending hside hlogged
  have hbars : simulateBars (flatInput c) 1 (flatCandle 0) [flatCandle 1, flatCandle 2]
      (startState (flatInput c) (flatCandle 0)) = .ok s' :=
    bind_eq_ok.2 ⟨s, hbar, bind_eq_ok.2 ⟨s', hbar', rfl⟩⟩
  have hexit : 0 < adjustForSlippage (flatCandle 2).close position.side .exit (flatInput c).costs :=
    adjustForSlippage_pos position.side .exit (by norm_num [flatCandle]) hslip
  obtain ⟨done, hdone⟩ : ∃ done, forceClose (flatInput c) (flatCandle 2) s' = .ok done :=
    ⟨_, forceClose_eq_ok.2 (.inr ⟨_, _, hopen, rfl, hexit, by rw [hremaining]; norm_num,
      by rw [hentry]; exact hprice, rfl⟩)⟩
  have hsim : simulate (flatInput c) [flatCandle 0, flatCandle 1, flatCandle 2]
      = .ok ⟨done.trades, done.equityCurve, decide (0 < c.spreadPercent)⟩ :=
    simulate_eq_ok.2 ⟨s', done, hbars, hdone, rfl⟩
  have hcandles : normalizeCandles (flatPayload c).candles
      = .ok [flatCandle 0, flatCandle 1, flatCandle 2] := by
    show normalizeCandles [flatCandle 0, flatCandle 1, flatCandle 2] = _
    decide +kernel
  refine ⟨_, price, hprice,
    bind_eq_ok.2 ⟨_, hcandles, bind_eq_ok.2 ⟨([], []), rfl, bind_eq_ok.2 ⟨_, hsim, rfl⟩⟩⟩, ?_⟩
  obtain ⟨init, t, hcurve⟩ :=
    equity_forceClose (marked_simulateBars (marked_startState (flatCandle 0)) hbars) hdone
  rw [← hunlogged, ← unlogged_forceClose hdone]
  refine reconciles_iff ⟨init, t, ?_⟩ rfl
  simp only [totalPnl, hcurve, SimState.unlogged, sub_sub_cancel]
  rfl

end FlatRun

/-- Curve and trades reconcile on every backtest that returns exactly where an entry costs nothing,
or none can be closed. -/
theorem trade_log_reconciles_iff (compute : Calculations) (c : CostSettings) :
    (∀ payload r, payload.costs = c → runBacktest compute payload = .ok r →
        Reconciles payload r)
      ↔ (c.fixedCost = 0 ∧ c.percentCost = 0) ∨ 100 ≤ c.slippagePercent := by
  constructor
  · intro h
    by_contra hneg
    rw [not_or, not_le] at hneg
    obtain ⟨r, price, hprice, hrun, hiff⟩ := flat_run c compute hneg.2
    have hzero := hiff.1 (h (flatPayload c) r rfl hrun)
    have hquantity : 0 < (flatInput c).quantity := (flatPayload c).quantity_pos
    have hcost : ¬ (flatInput c).costs.Free := hneg.1
    have hpos : 0 < (flatInput c).entryCost price := entryCost_pos hcost hprice hquantity
    exact hpos.ne' hzero
  · rintro hcosts payload r rfl hrun
    obtain ⟨first, bars, series, sim, -, hsim, hpnl, hreturn, hcurve, htrades⟩ :=
      runBacktest_eq_ok hrun
    obtain ⟨s, done, hs, hdone, -, init, t, hlast⟩ := equity_simulate hsim
    have hgap : done.unlogged = 0 := by
      rcases hcosts with hfree | hslip
      · rw [unlogged_forceClose hdone]
        have hfree : (payload.simInput series).costs.Free := hfree
        exact unlogged_simulateBars_free hfree (by simp [SimState.unlogged, startState]) hs
      · have hstart : (startState (payload.simInput series) first).Stuck :=
          ⟨rfl, fun _ => rfl, fun p hp => by cases hp⟩
        have hslip : 100 ≤ (payload.simInput series).costs.slippagePercent := hslip
        refine unlogged_of_stuck hslip ?_ hdone
        exact simulateBars_invariant (fun _ _ _ _ _ hs hbar => hs.next hslip hbar) hstart hs
    have hends : r.equityCurve
        = init ++ [⟨t, payload.initialCapital + (r.totalPnl - done.unlogged)⟩] := by
      rw [hcurve, hlast, hpnl]
      rfl
    refine (reconciles_iff ⟨init, t, hends⟩ ?_).2 hgap
    rw [hreturn, hcurve]

/-- Twenty rupees a leg: the equity is short of them by one leg. -/
def twentyFlat : CostSettings :=
  ⟨20, 0, 0, 0, by norm_num, le_refl 0, le_refl 0, le_refl 0⟩

theorem trade_log_twenty_flat :
    ∃ r, runBacktest (fun _ _ => .ok ([], [])) (flatPayload twentyFlat) = .ok r
      ∧ ¬ Reconciles (flatPayload twentyFlat) r := by
  obtain ⟨r, price, hprice, hrun, hiff⟩ :=
    flat_run twentyFlat (fun _ _ => .ok ([], [])) (by norm_num [twentyFlat])
  refine ⟨r, hrun, fun h => ?_⟩
  have hpos : 0 < (flatInput twentyFlat).entryCost price := by
    refine entryCost_pos (fun hfree => ?_) hprice (flatPayload twentyFlat).quantity_pos
    have hzero : (20 : ℚ) = 0 := hfree.1
    norm_num at hzero
  exact hpos.ne' (hiff.1 h)

end TradingBridge.StrategyEngine
