import TradingBridge.Proofs.TradeLog
import TradingBridge.StrategyEngine.PaperTrading

/-!
# Which queued paper entries fill

A session that has closed its position keeps it, as a closed one, and an entry is filled only
where there is no position at all. So over a whole session a queued entry fills exactly while
none has filled before it, at a bar with an open above zero; from then on the session stays
without a new position.
-/

namespace TradingBridge.StrategyEngine

open Fallible

section Steps

variable {r r' : SessionRecord} {candle : Candle} {values : IndicatorValues}

def SessionRecord.opened (r : SessionRecord) (candle : Candle) (side : Side) : SessionRecord :=
  { r with
    position := some ⟨true, side, candle.openPrice, candle.timestamp, defaultPaperQuantity,
      defaultPaperQuantity, candle.openPrice, candle.openPrice, none, []⟩
    signalsExecuted := r.signalsExecuted + 1
    pendingEntrySide := none }

theorem fillQueued_eq_ok : fillQueued r candle = .ok r' ↔
    ((r.pendingEntrySide = none ∨ r.position ≠ none) ∧ r' = r)
      ∨ ∃ side, r.pendingEntrySide = some side ∧ r.position = none ∧ 0 < candle.openPrice
        ∧ r' = r.opened candle side := by
  have hquantity : 0 < defaultPaperQuantity := by norm_num [defaultPaperQuantity]
  unfold fillQueued
  rcases r.pendingEntrySide with _ | side <;> rcases r.position with _ | q
  · simp [eq_comm]
  · simp [eq_comm]
  · simp [bind_eq_ok, openPosition_eq_ok, hquantity, SessionRecord.opened, eq_comm (a := r')]
  · simp [eq_comm]

/-- What an entry is known by; nothing after the fill changes it. -/
def PositionState.entryKey (p : PositionState) : Side × ℚ × Timestamp :=
  (p.side, p.entryPrice, p.entryTime)

def SessionRecord.entered (r : SessionRecord) : Option (Side × ℚ × Timestamp) × ℕ :=
  (r.position.map PositionState.entryKey, r.signalsExecuted)

theorem entered_updateOpen : (updateOpen r candle).entered = r.entered := by
  unfold SessionRecord.entered updateOpen
  rcases r.position with _ | p
  · rfl
  · obtain ⟨hside, -, hprice, htime, -, -, -⟩ :=
      updateOnCandle_fields p candle r.strategy.exit.trailingStopPercent
    simp [PositionState.entryKey, hside, hprice, htime]

theorem closePosition_entryKey (p : PositionState) : (closePosition p).entryKey = p.entryKey := by
  unfold closePosition
  split_ifs <;> rfl

theorem exitOpen_cases {closed : List PaperTrade}
    (h : exitOpen r candle values = .ok (r', closed)) : r' = r
      ∨ ∃ position trade, r.position = some position ∧ r' = { r with
          closedTrades := r.closedTrades ++ [trade]
          position := some (closePosition position) } := by
  unfold exitOpen at h
  split at h
  · exact .inl (congrArg Prod.fst (Except.ok.inj h)).symm
  · rename_i position hposition
    split_ifs at h
    · obtain ⟨events, -, h⟩ := bind_eq_ok.1 h
      split at h
      · exact .inl (congrArg Prod.fst (Except.ok.inj h)).symm
      · obtain ⟨trade, -, h⟩ := bind_eq_ok.1 h
        exact .inr ⟨position, trade, hposition, (congrArg Prod.fst (Except.ok.inj h)).symm⟩
    · exact .inl (congrArg Prod.fst (Except.ok.inj h)).symm

theorem queueEntry_keeps (r : SessionRecord) (decision : EntryDecision) :
    (queueEntry r decision).isActive = r.isActive
      ∧ (queueEntry r decision).strategy = r.strategy
      ∧ (queueEntry r decision).position = r.position
      ∧ (queueEntry r decision).closedTrades = r.closedTrades
      ∧ (queueEntry r decision).entered = r.entered := by
  unfold queueEntry
  split_ifs <;> exact ⟨rfl, rfl, rfl, rfl, rfl⟩

/-- What the fill gives and the steps after it keep holds after the bar, wherever it raises. -/
theorem processCandle_rec {P : SessionRecord → Prop}
    (hraise : (r.isActive = true → ∀ r', fillQueued r candle ≠ .ok r') → P r)
    (hfill : ∀ r', fillQueued r candle = .ok r' → P (updateOpen r' candle))
    (hexit : ∀ q q' closed, P q → exitOpen q candle values = .ok (q', closed) → P q')
    (hqueue : ∀ q decision, P q → P (finishBar (queueEntry q decision) candle values)) :
    P (processCandle r candle values).2 := by
  unfold processCandle
  split_ifs with hactive
  · rcases hfilled : fillQueued r candle with e | filled
    · exact hraise fun _ r' h => nomatch hfilled.symm.trans h
    · simp only []
      rcases hexited : exitOpen (updateOpen filled candle) candle values with e | ⟨exited, closed⟩
      · exact hfill filled hfilled
      · have hafter := hexit _ _ _ (hfill filled hfilled) hexited
        simp only []
        rcases evaluateEntry exited.strategy (paperView exited candle values) with e | decision
        · exact hafter
        · exact hqueue exited decision hafter
  · exact hraise fun h => absurd h hactive

theorem entered_processCandle (hactive : r.isActive = true) (h : fillQueued r candle = .ok r') :
    (processCandle r candle values).2.entered = r'.entered := by
  refine processCandle_rec (P := fun q => q.entered = r'.entered) (fun hraise => ?_) ?_ ?_ ?_
  · exact absurd h (hraise hactive r')
  · intro q hq
    obtain rfl := Except.ok.inj (hq.symm.trans h)
    exact entered_updateOpen
  · intro q q' closed hq hexit
    rcases exitOpen_cases hexit with rfl | ⟨position, trade, hposition, rfl⟩
    · exact hq
    · simp only [SessionRecord.entered, hposition, Option.map_some, closePosition_entryKey] at hq ⊢
      exact hq
  · exact fun q decision hq => (queueEntry_keeps q decision).2.2.2.2.trans hq

theorem processCandle_of_raise {e : EngineError} (hactive : r.isActive = true)
    (h : fillQueued r candle = .error e) : (processCandle r candle values).2 = r := by
  rw [processCandle, if_pos hactive, h]

end Steps

section Runs

variable {r : SessionRecord} {candle : Candle} {values : IndicatorValues}

theorem isActive_processCandle : (processCandle r candle values).2.isActive = r.isActive := by
  refine processCandle_rec (P := fun q => q.isActive = r.isActive) (fun _ => rfl) ?_ ?_ ?_
  · intro r' h
    rcases fillQueued_eq_ok.1 h with ⟨-, rfl⟩ | ⟨side, -, -, -, rfl⟩ <;> rfl
  · intro q q' closed hq h
    rcases exitOpen_cases h with rfl | ⟨position, trade, -, rfl⟩ <;> exact hq
  · exact fun q decision hq => (queueEntry_keeps q decision).1.trans hq

/-- The session has a position, open or closed, exactly when it has executed a signal. -/
def SessionRecord.Tallied (r : SessionRecord) : Prop :=
  r.isActive = true ∧ (r.position = none ↔ r.signalsExecuted = 0)

theorem tallied_of_entered {q : SessionRecord} (hactive : r.isActive = true)
    (h : r.entered = q.entered) (hq : q.position = none ↔ q.signalsExecuted = 0) : r.Tallied := by
  simp only [SessionRecord.entered, Prod.mk.injEq] at h
  refine ⟨hactive, ?_⟩
  rw [← Option.map_eq_none_iff, h.1, Option.map_eq_none_iff, hq, h.2]

theorem tallied_processCandle (hr : r.Tallied) : (processCandle r candle values).2.Tallied := by
  have hactive : (processCandle r candle values).2.isActive = r.isActive := isActive_processCandle
  rcases hfill : fillQueued r candle with e | r'
  · rw [processCandle_of_raise hr.1 hfill]
    exact hr
  · refine tallied_of_entered (hactive.trans hr.1) (entered_processCandle hr.1 hfill) ?_
    rcases fillQueued_eq_ok.1 hfill with ⟨-, rfl⟩ | ⟨side, -, -, -, rfl⟩
    · exact hr.2
    · simp [SessionRecord.opened]

theorem tallied_feed (bars : List (Candle × IndicatorValues)) (hr : r.Tallied) :
    (feed r bars).Tallied := by
  induction bars generalizing r with
  | nil => exact hr
  | cons bar bars ih => exact ih (tallied_processCandle hr)

end Runs

section Opens

variable {r : SessionRecord} {candle : Candle} {values : IndicatorValues} {side : Side}

/-- The bar opens a position of `side` at its open, and counts it. -/
def Opens (r : SessionRecord) (candle : Candle) (values : IndicatorValues) (side : Side) : Prop :=
  (∃ p, (processCandle r candle values).2.position = some p ∧ p.side = side
      ∧ p.entryPrice = candle.openPrice ∧ p.entryTime = candle.timestamp)
    ∧ (processCandle r candle values).2.signalsExecuted = r.signalsExecuted + 1

theorem opens_iff (hactive : r.isActive = true) (hside : r.pendingEntrySide = some side) :
    Opens r candle values side ↔ r.position = none ∧ 0 < candle.openPrice := by
  constructor
  · rintro ⟨-, hcount⟩
    rcases hfill : fillQueued r candle with e | r'
    · rw [processCandle_of_raise hactive hfill] at hcount
      omega
    · have hentered : (processCandle r candle values).2.signalsExecuted = r'.signalsExecuted :=
        congrArg Prod.snd (entered_processCandle hactive hfill)
      rcases fillQueued_eq_ok.1 hfill with ⟨-, rfl⟩ | ⟨side', -, hposition, hprice, -⟩
      · omega
      · exact ⟨hposition, hprice⟩
  · rintro ⟨hposition, hprice⟩
    have hfill := fillQueued_eq_ok.2 (.inr ⟨side, hside, hposition, hprice, rfl⟩)
    have hentered : (processCandle r candle values).2.entered = (r.opened candle side).entered :=
      entered_processCandle hactive hfill
    simp only [SessionRecord.entered, SessionRecord.opened, Prod.mk.injEq, Option.map_some,
      Option.map_eq_some_iff] at hentered
    obtain ⟨⟨p, hp, hkey⟩, hcount⟩ := hentered
    simp only [PositionState.entryKey, Prod.mk.injEq] at hkey
    exact ⟨⟨p, hp, hkey.1, hkey.2.1, hkey.2.2⟩, hcount⟩

end Opens

/-- At every bar with an entry queued, the next opens it at its open exactly when no signal was
executed before and that open is above zero. -/
theorem queued_entry_opens_iff (sessionId : ℕ) (strategy : StrategyJSON)
    (bars : List (Candle × IndicatorValues)) (candle : Candle) (values : IndicatorValues)
    (side : Side)
    (hqueued : (feed (startSession sessionId strategy) bars).pendingEntrySide = some side) :
    Opens (feed (startSession sessionId strategy) bars) candle values side ↔
      (feed (startSession sessionId strategy) bars).signalsExecuted = 0
        ∧ 0 < candle.openPrice := by
  have hstart : (startSession sessionId strategy).Tallied := ⟨rfl, by simp [startSession]⟩
  obtain ⟨hactive, hposition⟩ := tallied_feed bars hstart
  rw [opens_iff hactive hqueued, hposition]

section SecondEntry

variable (minute : ℤ)

/-- A bar that opens and has its low at 100, `minute` minutes in. -/
def risingCandle (high close : ℚ) (h : 100 ≤ close ∧ close ≤ high) : Candle where
  timestamp := ⟨minute * minuteMicros, some 0⟩
  openPrice := 100
  high := high
  low := 100
  close := close
  volume := 0
  low_nonneg := (flatCandle minute).low_nonneg
  open_mem := ⟨le_refl _, h.1.trans h.2⟩
  close_mem := h
  volume_nonneg := zero_nonneg

/-- Buys on a close above 100 and leaves a percent higher. -/
def buyAbove : StrategyJSON where
  indicators := []
  entry := ⟨.buy, .all, [.price ⟨.gt, some 100, by decide⟩], by simp⟩
  exit := ⟨some ⟨1, unit_pos⟩, none, none, [], none, [], false, by simp⟩
  risk := .none
  ids_nodup := no_ids_nodup
  ids_declared := by simp [Condition.referencedIds]

def signalBar : Candle × IndicatorValues :=
  (risingCandle minute 101 101 (by norm_num), [])

/-- A bar that reaches the target and takes the signal back. -/
def targetBar : Candle × IndicatorValues :=
  (risingCandle minute 102 100 (by norm_num), [])

theorem queued_entry_opens_first :
    (feed (startSession 0 buyAbove) [signalBar 0]).pendingEntrySide = some .buy
      ∧ Opens (feed (startSession 0 buyAbove) [signalBar 0]) (targetBar 1).1 [] .buy := by
  have hqueued : (feed (startSession 0 buyAbove) [signalBar 0]).pendingEntrySide = some .buy := by
    decide +kernel
  refine ⟨hqueued, (queued_entry_opens_iff 0 buyAbove [signalBar 0] _ [] .buy hqueued).2 ?_⟩
  exact ⟨by decide +kernel, by norm_num [targetBar, risingCandle]⟩

/-- After the first position has closed, an entry queued again is not opened. -/
theorem queued_entry_second_lost :
    isFlat (feed (startSession 0 buyAbove) [signalBar 0, targetBar 1, signalBar 2]) = true
      ∧ (feed (startSession 0 buyAbove)
          [signalBar 0, targetBar 1, signalBar 2]).pendingEntrySide = some .buy
      ∧ ¬ Opens (feed (startSession 0 buyAbove) [signalBar 0, targetBar 1, signalBar 2])
          (signalBar 3).1 [] .buy := by
  have hqueued : (feed (startSession 0 buyAbove)
      [signalBar 0, targetBar 1, signalBar 2]).pendingEntrySide = some .buy := by decide +kernel
  have hheld : (feed (startSession 0 buyAbove)
      [signalBar 0, targetBar 1, signalBar 2]).position ≠ none := by decide +kernel
  refine ⟨by decide +kernel, hqueued, fun hopens => hheld ?_⟩
  exact ((opens_iff (by decide +kernel) hqueued).1 hopens).1

end SecondEntry

end TradingBridge.StrategyEngine
