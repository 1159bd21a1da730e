import TradingBridge.Lib.Fallible
import TradingBridge.StrategyEngine.Backtest

/-!
# What the steps of a backtest do

One lemma for each function of the simulator says all it can return: the checks of the models it
builds, the events of a bar, the booking of an event and the steps of a bar.
-/

namespace TradingBridge.StrategyEngine

open Fallible List

section Checks

variable {price quantity cost : ℚ} {c : CostSettings} {side : Side} {time : Timestamp}
  {p p' : PositionState} {t t' : Trade}

theorem legCost_eq_ok : legCost price quantity c = .ok cost ↔ 0 ≤ price ∧ 0 ≤ quantity
      ∧ cost = c.fixedCost + c.percentCost / 100 * (price * quantity) := by
  unfold legCost
  rw [ite_error_eq_ok, not_or, not_lt, not_lt, Except.ok.injEq, and_assoc, eq_comm]

theorem openPosition_eq_ok : openPosition side price quantity time = .ok p ↔
    0 < price ∧ 0 < quantity
      ∧ p = ⟨true, side, price, time, quantity, quantity, price, price, none, []⟩ := by
  unfold openPosition
  rw [ite_error_eq_ok, ite_error_eq_ok, not_le, not_le, Except.ok.injEq, eq_comm]

theorem validate_eq_ok : t.validate = .ok t' ↔
    0 < t.entryPrice ∧ 0 < t.exitPrice ∧ 0 < t.quantity ∧ t' = t := by
  unfold Trade.validate
  rw [ite_error_eq_ok, ite_error_eq_ok, ite_error_eq_ok, not_le, not_le, not_le, Except.ok.injEq,
    eq_comm]

def PositionState.reduced (p : PositionState) (percent price : ℚ) (time : Timestamp)
    (reason : EventReason) : PositionState :=
  let remaining := max 0 (p.remainingQuantity - p.quantity * (percent / 100))
  { p with
    remainingQuantity := remaining
    partialExitsDone := p.partialExitsDone ++ [⟨percent, price, time, reason⟩]
    isOpen := decide (0 < remaining) }

theorem applyPartialExit_eq_ok {percent : ℚ} {reason : EventReason} :
    applyPartialExit p percent price time reason = .ok p' ↔
      p.isOpen = true ∧ 0 < percent ∧ percent ≤ 100 ∧ 0 < price
        ∧ -overExitTolerance ≤ p.remainingQuantity - p.quantity * (percent / 100)
        ∧ p' = p.reduced percent price time reason := by
  unfold applyPartialExit
  simp only [ite_error_eq_ok, Bool.not_eq_true', Bool.not_eq_false, not_or, not_le, not_lt,
    Except.ok.injEq, and_assoc, eq_comm (a := p')]
  rfl

theorem updateOnCandle_fields (p : PositionState) (candle : Candle) (pct : Option Percent) :
    (updateOnCandle p candle pct).side = p.side
      ∧ (updateOnCandle p candle pct).isOpen = p.isOpen
      ∧ (updateOnCandle p candle pct).entryPrice = p.entryPrice
      ∧ (updateOnCandle p candle pct).entryTime = p.entryTime
      ∧ (updateOnCandle p candle pct).quantity = p.quantity
      ∧ (updateOnCandle p candle pct).remainingQuantity = p.remainingQuantity
      ∧ (updateOnCandle p candle pct).partialExitsDone = p.partialExitsDone := by
  unfold updateOnCandle
  split_ifs <;> simp

end Checks

section Slippage

variable {price : ℚ} {side : Side} {c : CostSettings}

/-- What a fill multiplies the reference price by. -/
def slipFactor (side : Side) (leg : TradeLeg) (c : CostSettings) : ℚ :=
  match side, leg with
  | .buy, .entry | .sell, .exit => 1 + c.slippagePercent / 100
  | .buy, .exit | .sell, .entry => 1 - c.slippagePercent / 100

theorem adjustForSlippage_eq (price : ℚ) (side : Side) (leg : TradeLeg) (c : CostSettings) :
    adjustForSlippage price side leg c = price * slipFactor side leg c := by
  unfold adjustForSlippage slipFactor
  split_ifs with h
  · cases side <;> cases leg <;> simp [h]
  · cases side <;> cases leg <;> rfl

theorem slipFactor_pos (side : Side) (leg : TradeLeg) (h : c.slippagePercent < 100) :
    0 < slipFactor side leg c := by
  have hnonneg := c.slippage_nonneg
  unfold slipFactor
  cases side <;> cases leg <;> simp only [] <;> linarith

theorem adjustForSlippage_pos (side : Side) (leg : TradeLeg) (hprice : 0 < price)
    (h : c.slippagePercent < 100) : 0 < adjustForSlippage price side leg c := by
  rw [adjustForSlippage_eq]
  exact mul_pos hprice (slipFactor_pos side leg h)

end Slippage

section Events

variable {fired : Bool} {exitType : ExitType} {qty price : ℚ} {reason : EventReason}
  {events : List ExitEvent} {rules : ExitRules} {position : PositionState} {v : BarView}

theorem when_eq_ok : ExitEvent.when fired exitType qty price reason = .ok events ↔
    (fired = false ∧ events = [])
      ∨ (fired = true ∧ 0 < qty ∧ qty ≤ 100 ∧ 0 < price
        ∧ events = [⟨exitType, qty, price, reason⟩]) := by
  unfold ExitEvent.when ExitEvent.build
  cases fired
  · simp
  · simp only [if_true, map_eq_ok, ite_error_eq_ok, not_or, and_assoc]
    simp [eq_comm]

/-- An event as the models allow it: a partial books a declared share, the others all. -/
structure Sound (rules : ExitRules) (e : ExitEvent) : Prop where
  price_pos : 0 < e.price
  qty_pos : 0 < e.qtyPercent
  qty_le : e.qtyPercent ≤ 100
  declared : e.exitType = .partly → ∃ p ∈ rules.partialExits, p.qtyPercent = e.qtyPercent

/-- The events are those that fire, and each is as the models allow it. -/
def Reports (rules : ExitRules) (events : List ExitEvent) (P : ExitEvent → Prop) : Prop :=
  ∀ e, (e ∈ events ↔ P e) ∧ (e ∈ events → Sound rules e)

theorem Reports.append {xs ys : List ExitEvent} {P Q : ExitEvent → Prop} (h : Reports rules xs P)
    (h' : Reports rules ys Q) : Reports rules (xs ++ ys) fun e => P e ∨ Q e := by
  intro e
  rw [mem_append]
  exact ⟨or_congr (h e).1 (h' e).1, fun he => he.elim (h e).2 (h' e).2⟩

theorem reports_when (h : ExitEvent.when fired exitType qty price reason = .ok events)
    (hdeclared : exitType = .partly → ∃ p ∈ rules.partialExits, p.qtyPercent = qty) :
    Reports rules events fun e => fired = true ∧ e = ⟨exitType, qty, price, reason⟩ := by
  rcases when_eq_ok.1 h with ⟨rfl, rfl⟩ | ⟨rfl, hpos, hle, hprice, rfl⟩
  · simp [Reports]
  · simp only [Reports, mem_singleton, true_and]
    rintro _ rfl
    exact ⟨hprice, hpos, hle, hdeclared⟩

variable (rules position v)

def TargetFires (e : ExitEvent) : Prop :=
  ∃ pct, rules.targetPercent = some pct
    ∧ barCrossedLong position.side v.current (levelAbove position pct) = true
    ∧ e = ⟨.target, 100, levelAbove position pct, .target pct⟩

def StopLossFires (e : ExitEvent) : Prop :=
  ∃ pct, rules.stopLossPercent = some pct
    ∧ barCrossedShort position.side v.current (levelBelow position pct) = true
    ∧ e = ⟨.stopLoss, 100, levelBelow position pct, .stopLoss pct⟩

def TrailingStopFires (e : ExitEvent) : Prop :=
  ∃ pct trail, rules.trailingStopPercent = some pct ∧ position.trailingStopPrice = some trail
    ∧ barCrossedShort position.side v.current trail = true
    ∧ e = ⟨.trailingStop, 100, trail, .trailingStop pct trail⟩

def PartialFires (idx : ℕ) (ps : List PartialExit) (e : ExitEvent) : Prop :=
  ∃ p ∈ ps.zipIdx idx,
    barCrossedLong position.side v.current (levelAbove position p.1.targetPercent) = true
      ∧ e = ⟨.partly, p.1.qtyPercent, levelAbove position p.1.targetPercent,
        .partly p.2 p.1.qtyPercent p.1.targetPercent⟩

def IndicatorFires (cs : List Condition) (e : ExitEvent) : Prop :=
  ∃ c, .indicator c ∈ cs ∧ evaluateIndicatorCondition c v.values v.priorValues = true
    ∧ e = ⟨.indicator, 100, v.current.close, .indicator c⟩

def SquareOffFires (e : ExitEvent) : Prop :=
  ∃ time, rules.squareOffTime = some time ∧ squareOffEvents rules v ≠ .ok []
    ∧ e = ⟨.squareOff, 100, v.current.close, .squareOff time⟩

/-- The events of an open position on a bar. -/
def Fires (reverse : Bool) (e : ExitEvent) : Prop :=
  TargetFires rules position v e ∨ StopLossFires rules position v e
    ∨ TrailingStopFires rules position v e ∨ PartialFires position v 1 rules.partialExits e
    ∨ IndicatorFires v rules.indicatorExits e
    ∨ ((rules.reverseSignalExit && reverse) = true
      ∧ e = ⟨.reverseSignal, 100, v.current.close, .reverseSignal⟩)
    ∨ SquareOffFires rules v e

variable {rules position v}

theorem reports_targetEvents (h : targetEvents rules position v = .ok events) :
    Reports rules events (TargetFires rules position v) := by
  unfold targetEvents at h
  split at h
  · cases h
    simp [Reports, TargetFires, *]
  · simpa [Reports, TargetFires, *] using reports_when h (by simp)

theorem reports_stopLossEvents (h : stopLossEvents rules position v = .ok events) :
    Reports rules events (StopLossFires rules position v) := by
  unfold stopLossEvents at h
  split at h
  · cases h
    simp [Reports, StopLossFires, *]
  · simpa [Reports, StopLossFires, *] using reports_when h (by simp)

theorem reports_trailingStopEvents (h : trailingStopEvents rules position v = .ok events) :
    Reports rules events (TrailingStopFires rules position v) := by
  unfold trailingStopEvents at h
  split at h
  · simpa [Reports, TrailingStopFires, *] using reports_when h (by simp)
  · rename_i hnone
    cases h
    refine fun e => ⟨⟨nofun, ?_⟩, nofun⟩
    rintro ⟨pct, trail, hpct, htrail, -⟩
    exact (hnone pct trail hpct htrail).elim

theorem reports_partialEvents : ∀ {ps : List PartialExit} {idx : ℕ} {events : List ExitEvent},
    (∀ p ∈ ps, p ∈ rules.partialExits) → partialEvents position v idx ps = .ok events →
      Reports rules events (PartialFires position v idx ps)
  | [], _, _, _, h => by
    cases h
    simp [Reports, PartialFires]
  | p :: ps, idx, _, hps, h => by
    obtain ⟨event, hevent, h⟩ := bind_eq_ok.1 h
    obtain ⟨rest, hrest, h⟩ := bind_eq_ok.1 h
    cases h
    have hfirst := reports_when hevent fun _ => ⟨p, hps p mem_cons_self, rfl⟩
    have hrest := reports_partialEvents (fun q hq => hps q (mem_cons_of_mem _ hq)) hrest
    simpa [Reports, PartialFires] using hfirst.append hrest

theorem reports_indicatorEvents : ∀ {cs : List Condition} {events : List ExitEvent},
    indicatorEvents v cs = .ok events → Reports rules events (IndicatorFires v cs)
  | [], _, h => by
    cases h
    simp [Reports, IndicatorFires]
  | .indicator c :: cs, _, h => by
    obtain ⟨event, hevent, h⟩ := bind_eq_ok.1 h
    obtain ⟨rest, hrest, h⟩ := bind_eq_ok.1 h
    cases h
    have hfirst : Reports rules _ _ := reports_when hevent (by simp)
    simpa [Reports, IndicatorFires] using
      hfirst.append (reports_indicatorEvents hrest)
  | .candle _ :: cs, _, h | .time _ :: cs, _, h | .price _ :: cs, _, h => by
    simpa [Reports, IndicatorFires] using @reports_indicatorEvents cs _ h

theorem reports_squareOffEvents (h : squareOffEvents rules v = .ok events) :
    Reports rules events (SquareOffFires rules v) := by
  unfold SquareOffFires
  rw [h]
  unfold squareOffEvents at h
  split at h
  · cases h
    simp [Reports]
  · obtain ⟨at', -, h⟩ := bind_eq_ok.1 h
    obtain ⟨after, -, h⟩ := bind_eq_ok.1 h
    have hwhen : Reports rules _ _ := reports_when h (by simp)
    rcases when_eq_ok.1 h with ⟨hfired, rfl⟩ | ⟨hfired, -, -, -, rfl⟩ <;>
      simpa [*] using hwhen

theorem evaluateExit_eq_ok {reverse : Bool} (hopen : position.isOpen = true) :
    evaluateExit position rules v reverse = .ok events ↔
      ∃ target, targetEvents rules position v = .ok target
        ∧ ∃ stop, stopLossEvents rules position v = .ok stop
        ∧ ∃ trail, trailingStopEvents rules position v = .ok trail
        ∧ ∃ parts, partialEvents position v 1 rules.partialExits = .ok parts
        ∧ ∃ indicators, indicatorEvents v rules.indicatorExits = .ok indicators
        ∧ ∃ reversed, reverseEvents rules v reverse = .ok reversed
        ∧ ∃ squareOff, squareOffEvents rules v = .ok squareOff
        ∧ target ++ stop ++ trail ++ parts ++ indicators ++ reversed ++ squareOff = events := by
  unfold evaluateExit
  simp only [hopen, Bool.not_true, Bool.false_eq_true, if_false, bind_eq_ok, pure_eq_ok,
    Except.ok.injEq]

/-- The exit engine reports all that fires on the bar and nothing else. -/
theorem reports_evaluateExit {reverse : Bool} (hopen : position.isOpen = true)
    (h : evaluateExit position rules v reverse = .ok events) :
    Reports rules events (Fires rules position v reverse) := by
  obtain ⟨target, htarget, stop, hstop, trail, htrail, parts, hparts, indicators, hindicators,
    reversed, hreversed, squareOff, hsquareOff, rfl⟩ := (evaluateExit_eq_ok hopen).1 h
  simp only [append_assoc]
  exact (reports_targetEvents htarget).append <| (reports_stopLossEvents hstop).append <|
    (reports_trailingStopEvents htrail).append <|
    (reports_partialEvents (fun _ hp => hp) hparts).append <|
    (reports_indicatorEvents hindicators).append <|
    (reports_when hreversed (by simp)).append (reports_squareOffEvents hsquareOff)

theorem sound_evaluateExit {reverse : Bool} (hopen : position.isOpen = true)
    (h : evaluateExit position rules v reverse = .ok events) : ∀ e ∈ events, Sound rules e :=
  fun e => (reports_evaluateExit hopen h e).2

theorem mem_prioritiseEvents {mode : AmbiguityMode} {e : ExitEvent} :
    e ∈ prioritiseEvents mode events ↔ e ∈ events := mem_insertionSort _

end Events

section Booking

variable {ctx : ExitContext} {event : ExitEvent} {b b' : ExitBooking} {fill : ℚ}

def ExitContext.row (ctx : ExitContext) (position : PositionState) (fill quantity : ℚ)
    (reason : TradeReason) : Trade where
  entryTime := position.entryTime
  exitTime := ctx.bar.timestamp
  side := position.side
  entryPrice := position.entryPrice
  exitPrice := fill
  quantity := quantity
  pnl := tradePnl position.side position.entryPrice fill quantity
    - (ctx.costs.fixedCost + ctx.costs.percentCost / 100 * (fill * quantity))
  exitReason := reason
  entryReasons := ctx.entryReasons

def ExitBooking.add (b : ExitBooking) (position : PositionState) (row : Trade) : ExitBooking :=
  ⟨position, b.closed ++ [row], b.realised + row.pnl⟩

theorem bookFull_eq_ok : bookFull ctx event fill b = .ok b' ↔
    0 < fill ∧ 0 < b.position.remainingQuantity ∧ 0 < b.position.entryPrice
      ∧ b' = b.add (closePosition b.position)
        (ctx.row b.position fill b.position.remainingQuantity (.exit event.exitType)) := by
  simp only [bookFull, ExitContext.trade, bind_eq_ok, legCost_eq_ok, validate_eq_ok, and_assoc,
    exists_and_left, exists_eq_left, pure_eq_ok, Except.ok.injEq, eq_comm (a := b')]
  constructor
  · rintro ⟨-, -, hentry, hfill, hquantity, h⟩
    exact ⟨hfill, hquantity, hentry, h⟩
  · rintro ⟨hfill, hquantity, hentry, h⟩
    exact ⟨hfill.le, hquantity.le, hentry, hfill, hquantity, h⟩

theorem bookPartial_eq_ok : bookPartial ctx event fill b = .ok b' ↔
    b.position.isOpen = true ∧ 0 < event.qtyPercent ∧ event.qtyPercent ≤ 100 ∧ 0 < fill
      ∧ -overExitTolerance
          ≤ b.position.remainingQuantity - b.position.quantity * (event.qtyPercent / 100)
      ∧ 0 < ctx.quantity * (event.qtyPercent / 100) ∧ 0 < b.position.entryPrice
      ∧ b' = b.add (b.position.reduced event.qtyPercent fill ctx.bar.timestamp event.reason)
        (ctx.row b.position fill (ctx.quantity * (event.qtyPercent / 100))
          (.partly event.reason)) := by
  simp only [bookPartial, ExitContext.trade, bind_eq_ok, legCost_eq_ok, applyPartialExit_eq_ok,
    validate_eq_ok, and_assoc, exists_and_left, exists_eq_left, pure_eq_ok, Except.ok.injEq,
    eq_comm (a := b')]
  constructor
  · rintro ⟨-, -, hopen, hpos, hle, hfill, hover, hentry, -, hquantity, h⟩
    exact ⟨hopen, hpos, hle, hfill, hover, hquantity, hentry, h⟩
  · rintro ⟨hopen, hpos, hle, hfill, hover, hquantity, hentry, h⟩
    exact ⟨hfill.le, hquantity.le, hopen, hpos, hle, hfill, hover, hentry, hfill, hquantity, h⟩

theorem bookEvent_cases (h : bookEvent ctx event b = .ok b') :
    b' = b ∨ ∃ position fill quantity reason,
      b' = b.add position (ctx.row b.position fill quantity reason) := by
  unfold bookEvent at h
  split_ifs at h
  · exact .inl (Except.ok.inj h).symm
  · obtain ⟨-, -, -, -, -, -, -, rfl⟩ := bookPartial_eq_ok.1 h
    exact .inr ⟨_, _, _, _, rfl⟩
  · obtain ⟨-, -, -, rfl⟩ := bookFull_eq_ok.1 h
    exact .inr ⟨_, _, _, _, rfl⟩

theorem bookEvents_invariant {I : ExitBooking → Prop} : ∀ {events : List ExitEvent}
    {b b' : ExitBooking}, (∀ e ∈ events, ∀ b b', I b → b.position.isOpen = true →
      bookEvent ctx e b = .ok b' → I b') → I b → bookEvents ctx events b = .ok b' → I b'
  | [], _, _, _, hb, h => by
    cases h
    exact hb
  | event :: events, b, b', hI, hb, h => by
    unfold bookEvents at h
    split_ifs at h with hopen
    · obtain ⟨b₁, hb₁, h⟩ := bind_eq_ok.1 h
      exact bookEvents_invariant (fun e he => hI e (mem_cons_of_mem _ he))
        (hI event (mem_cons_self ..) b b₁ hb hopen hb₁) h
    · cases h
      exact hb

end Booking

section Bars

variable {inp : SimInput} {i : ℕ} {prior bar : Candle} {s s' : SimState}

variable {v : BarView} {position : PositionState}

theorem barView_eq_ok (h : barView inp i prior bar = .ok v) :
    v.current = bar ∧ v.prior = some prior := by
  obtain ⟨values, -, h⟩ := bind_eq_ok.1 h
  obtain ⟨priorValues, -, h⟩ := bind_eq_ok.1 h
  cases h
  exact ⟨rfl, rfl⟩

def SimState.entered (s : SimState) (inp : SimInput) (bar : Candle) (pending : PendingEntry)
    (side : Side) (price : ℚ) : SimState :=
  { s with
    position := some ⟨true, side, price, bar.timestamp, inp.quantity, inp.quantity, price, price,
      none, []⟩
    openReasons := pending.decision.reasons
    realisedPnl := s.realisedPnl
      - (inp.costs.fixedCost + inp.costs.percentCost / 100 * (price * inp.quantity))
    daily := { s.daily with tradesToday := s.daily.tradesToday + 1 }
    pendingEntry := none }

theorem fillStep_eq_ok : fillStep inp bar s = .ok s' ↔
    ((s.pendingEntry = none ∨ s.position ≠ none) ∧ s' = s)
      ∨ ∃ pending side, s.pendingEntry = some pending ∧ s.position = none
        ∧ pending.decision.side = some side
        ∧ 0 < adjustForSlippage bar.openPrice side .entry inp.costs ∧ 0 < inp.quantity
        ∧ s' = s.entered inp bar pending side
          (adjustForSlippage bar.openPrice side .entry inp.costs) := by
  unfold fillStep
  rcases hpending : s.pendingEntry with _ | pending <;> rcases hposition : s.position with _ | q
  · simp [eq_comm]
  · simp [eq_comm]
  · rcases hside : pending.decision.side with _ | side
    · simp [fillPendingEntry, hside]
    · simp only [fillPendingEntry, hside, bind_eq_ok, openPosition_eq_ok, legCost_eq_ok, and_assoc,
      exists_and_left, exists_eq_left, reduceCtorEq, ne_eq, not_true_eq_false, false_and, false_or,
      Option.some.injEq, exists_eq_left', true_and, pure_eq_ok, Except.ok.injEq, eq_comm (a := s')]
      exact and_congr_right fun hprice => and_congr_right fun hquantity =>
        ⟨fun h => h.2.2, fun h => ⟨hprice.le, hquantity.le, h⟩⟩
  · simp [eq_comm]

theorem fillStep_of_flat (hpending : s.pendingEntry = none) : fillStep inp bar s = .ok s :=
  fillStep_eq_ok.2 (.inl ⟨.inl hpending, rfl⟩)

def SimState.exited (s : SimState) (booked : ExitBooking) : SimState :=
  { s with
    position := if booked.position.isOpen then some booked.position else none
    openReasons := if booked.position.isOpen then s.openReasons else []
    trades := s.trades ++ booked.closed
    daily := { s.daily with dailyPnl := s.daily.dailyPnl + (booked.closed.map Trade.pnl).sum }
    lossStreak := booked.closed.foldl nextStreak s.lossStreak
    realisedPnl := s.realisedPnl + booked.realised }

theorem exitStep_eq_ok : exitStep inp i prior bar s = .ok s' ↔ (s.position = none ∧ s' = s)
      ∨ ∃ position v events, s.position = some position ∧ barView inp i prior bar = .ok v
        ∧ evaluateExit position inp.strategy.exit v false = .ok events
        ∧ ((events = [] ∧ s' = s)
          ∨ ∃ booked, events ≠ []
            ∧ bookEvents ⟨bar, s.openReasons, inp.costs, inp.quantity⟩
              (prioritiseEvents inp.mode events) ⟨position, [], 0⟩ = .ok booked
            ∧ s' = s.exited booked) := by
  unfold exitStep
  rcases s.position with _ | position
  · simp [eq_comm]
  · simp only [bind_eq_ok, reduceCtorEq, false_and, false_or, Option.some.injEq, exists_and_left,
      exists_eq_left']
    refine exists_congr fun v => and_congr_right fun _ => exists_congr fun events =>
      and_congr_right fun _ => ?_
    split_ifs with hnil
    · simp [hnil, eq_comm]
    · simp only [hnil, false_and, false_or, ne_eq, not_false_eq_true, true_and, bind_eq_ok,
        pure_eq_ok, Except.ok.injEq, eq_comm (a := s')]
      rfl

theorem exitStep_of_flat (hposition : s.position = none) : exitStep inp i prior bar s = .ok s :=
  exitStep_eq_ok.2 (.inl ⟨hposition, rfl⟩)

variable {decision : EntryDecision} {lastBar : Candle}

theorem side_of_shouldEnter {strategy : StrategyJSON}
    (h : evaluateEntry strategy v = .ok decision) (hfired : decision.shouldEnter = true) :
    decision.side = some strategy.entry.side := by
  obtain ⟨r, -, h⟩ := bind_eq_ok.1 h
  cases h
  exact if_pos hfired

theorem entryStep_of_position (i : ℕ) (prior bar : Candle) (hposition : s.position ≠ none) :
    entryStep inp i prior bar s = .ok s := if_neg fun h => hposition h.1

theorem entryStep_of_flat (hposition : s.position = none) (hrisk : riskBlocked inp s = false) :
    entryStep inp i prior bar s = .ok s' ↔ ∃ v decision, barView inp i prior bar = .ok v
      ∧ evaluateEntry inp.strategy v = .ok decision ∧ s' = if decision.shouldEnter then
          { s with pendingEntry := some ⟨decision, bar.timestamp⟩ } else s := by
  rw [entryStep, if_pos ⟨hposition, hrisk⟩]
  simp only [bind_eq_ok, pure_eq_ok, Except.ok.injEq, exists_and_left, eq_comm (a := s')]

theorem entryStep_cases (h : entryStep inp i prior bar s = .ok s') :
    s' = s ∨ ∃ v decision, s.position = none ∧ riskBlocked inp s = false
      ∧ barView inp i prior bar = .ok v ∧ evaluateEntry inp.strategy v = .ok decision
      ∧ decision.shouldEnter = true
      ∧ s' = { s with pendingEntry := some ⟨decision, bar.timestamp⟩ } := by
  by_cases hflat : s.position = none ∧ riskBlocked inp s = false
  · obtain ⟨v, decision, hv, hdecision, rfl⟩ := (entryStep_of_flat hflat.1 hflat.2).1 h
    split_ifs with hshould
    · exact .inr ⟨v, decision, hflat.1, hflat.2, hv, hdecision, hshould, rfl⟩
    · exact .inl rfl
  · rw [entryStep, if_neg hflat] at h
    exact .inl (Except.ok.inj h).symm

theorem trades_entryStep (h : entryStep inp i prior bar s = .ok s') : s'.trades = s.trades := by
  rcases entryStep_cases h with rfl | ⟨v, decision, -, -, -, -, -, rfl⟩
  · rfl
  · rfl

theorem riskBlocked_of_no_caps (h : inp.strategy.risk = .none) (s : SimState) :
    riskBlocked inp s = false := by
  have hruntime : ∀ stats, runtimeMessages inp.strategy stats = [] := by
    intro stats
    simp [runtimeMessages, h, RiskRules.none]
  simp only [riskBlocked, evaluateRisk, hruntime, staticMessages]
  split_ifs <;> rfl

theorem simulateBar_eq_ok : simulateBar inp i prior bar s = .ok s' ↔
    ∃ filled exited entered, fillStep inp bar (rollStep bar s) = .ok filled
      ∧ exitStep inp i prior bar filled = .ok exited
      ∧ entryStep inp i prior bar (updateStep inp bar exited) = .ok entered
      ∧ s' = markStep inp bar entered := by
  simp only [simulateBar, bind_eq_ok, pure_eq_ok, Except.ok.injEq, exists_and_left,
    eq_comm (a := s')]

theorem simulateBars_invariant {I : SimState → Prop}
    (hI : ∀ i prior bar s s', I s → simulateBar inp i prior bar s = .ok s' → I s') :
    ∀ {bars : List Candle} {i : ℕ} {prior : Candle} {s s' : SimState}, I s →
      simulateBars inp i prior bars s = .ok s' → I s'
  | [], _, _, _, _, hs, h => by
    cases h
    exact hs
  | bar :: bars, i, prior, s, s', hs, h => by
    obtain ⟨next, hnext, h⟩ := bind_eq_ok.1 h
    exact simulateBars_invariant hI (hI i prior bar s next hs hnext) h

def SimState.closedOut (s : SimState) (inp : SimInput) (lastBar : Candle) (trade : Trade) :
    SimState :=
  { s with
    realisedPnl := s.realisedPnl + trade.pnl
    trades := s.trades ++ [trade]
    equityCurve := s.equityCurve.dropLast
      ++ [⟨lastBar.timestamp, inp.initialCapital + (s.realisedPnl + trade.pnl)⟩]
    position := none }

theorem forceClose_eq_ok : forceClose inp lastBar s = .ok s' ↔ (s.position = none ∧ s' = s)
      ∨ ∃ position exitPrice, s.position = some position
        ∧ exitPrice = adjustForSlippage lastBar.close position.side .exit inp.costs
        ∧ 0 < exitPrice ∧ 0 < position.remainingQuantity ∧ 0 < position.entryPrice
        ∧ s' = s.closedOut inp lastBar (ExitContext.row
          ⟨lastBar, s.openReasons, inp.costs, inp.quantity⟩ position exitPrice
          position.remainingQuantity .backtestEnd) := by
  unfold forceClose
  rcases s.position with _ | position
  · simp [eq_comm]
  · simp only [bind_eq_ok, legCost_eq_ok, validate_eq_ok, and_assoc, exists_and_left,
      exists_eq_left, reduceCtorEq, false_and, false_or, Option.some.injEq, exists_eq_left',
      pure_eq_ok, Except.ok.injEq, eq_comm (a := s')]
    constructor
    · rintro ⟨-, -, hentry, hprice, hquantity, h⟩
      exact ⟨hprice, hquantity, hentry, h⟩
    · rintro ⟨hprice, hquantity, hentry, h⟩
      exact ⟨hprice.le, hquantity.le, hentry, hprice, hquantity, h⟩

end Bars

end TradingBridge.StrategyEngine
