import TradingBridge.Proofs.TradeLog

/-!
# Every entry is closed once, in quantity

The rows of an open position and what remains of it add up to its quantity (`Accounts`), so a
position that is flat was closed exactly once, provided its partials can not take more than all
of it: `PartialsFit`. Such a run returns whenever the prices are above zero and the times of the
rules are times of a day (`Runnable`); both are carried along the bars from one event on.
-/

namespace TradingBridge.StrategyEngine

open Fallible List

/-- What the rows of a position carry of it. -/
structure Entry where
  time : Timestamp
  side : Side
  price : ℚ
  quantity : ℚ

def PositionState.entry (p : PositionState) : Entry :=
  ⟨p.entryTime, p.side, p.entryPrice, p.quantity⟩

structure Entry.Row (e : Entry) (t : Trade) : Prop where
  time : t.entryTime = e.time
  side : t.side = e.side
  price : t.entryPrice = e.price
  quantity_pos : 0 < t.quantity

def rowsQuantity (rows : List Trade) : ℚ := (rows.map Trade.quantity).sum

structure Entry.ClosedBy (e : Entry) (rows : List Trade) : Prop where
  row : ∀ t ∈ rows, e.Row t
  total : rowsQuantity rows = e.quantity

def filledOn (inp : SimInput) (bar : Candle) (s : SimState) : Option Entry :=
  match s.position, fillStep inp bar (rollStep bar s) with
  | none, .ok filled => filled.position.map PositionState.entry
  | _, _ => none

def filledOver (inp : SimInput) : ℕ → Candle → List Candle → SimState → List Entry
  | _, _, [], _ => []
  | i, prior, bar :: bars, s =>
    match simulateBar inp i prior bar s with
    | .error _ => []
    | .ok s' => (filledOn inp bar s).toList ++ filledOver inp (i + 1) bar bars s'

def filledEntries (inp : SimInput) : List Candle → List Entry
  | [] => []
  | first :: bars => filledOver inp 1 first bars (startState inp first)

def ExitRules.partialPercents (rules : ExitRules) : List ℚ :=
  rules.partialExits.map PartialExit.qtyPercent

/-- Percentages that the booking tells apart from those before them. -/
def Apart (l : List ℚ) : Prop := l.Pairwise fun a b => isClose a b = false

/-- The partials that can be booked on one position come to all of it at most. -/
def ExitRules.PartialsFit (rules : ExitRules) : Prop :=
  ∀ l : List ℚ, l ⊆ rules.partialPercents → Apart l → l.sum ≤ 100

theorem isClose_self (a : ℚ) : isClose a a = true := by
  unfold isClose
  simp

theorem Apart.nodup {l : List ℚ} (h : Apart l) : l.Nodup := by
  refine h.imp fun {a b} hab heq => ?_
  rw [heq, isClose_self] at hab
  cases hab

/-- In particular where all the declared percentages come to a hundred at most. -/
theorem partialsFit_of_sum_le {rules : ExitRules} (h : rules.partialPercents.sum ≤ 100) :
    rules.PartialsFit := by
  intro l hl hapart
  have hnonneg : ∀ a ∈ rules.partialPercents, 0 ≤ a := by
    intro a ha
    obtain ⟨p, -, rfl⟩ := mem_map.1 ha
    exact p.qty_pos.le
  obtain ⟨m, hperm, hsub⟩ := List.Nodup.subperm hapart.nodup hl
  calc l.sum = m.sum := hperm.sum_eq.symm
    _ ≤ rules.partialPercents.sum := hsub.sum_le_sum hnonneg
    _ ≤ 100 := h

section Booking

variable {rules : ExitRules} {e : Entry} {rows : List Trade} {p : PositionState}

def PositionState.bookedPercents (p : PositionState) : List ℚ :=
  p.partialExitsDone.map PartialExitRecord.qtyPercent

/-- The rows and what remains make up the entry. -/
@[mk_iff]
structure Accounts (rules : ExitRules) (e : Entry) (rows : List Trade) (p : PositionState) :
    Prop where
  entry : p.entry = e
  row : ∀ t ∈ rows, e.Row t
  total : rowsQuantity rows + p.remainingQuantity = e.quantity
  quantity_pos : 0 < e.quantity
  nonneg : 0 ≤ p.remainingQuantity
  isOpen_iff : p.isOpen = true ↔ 0 < p.remainingQuantity
  declared : p.bookedPercents ⊆ rules.partialPercents
  apart : Apart p.bookedPercents
  share : p.isOpen = true →
    p.remainingQuantity = e.quantity * (1 - p.bookedPercents.sum / 100)

theorem Accounts.closedBy (h : Accounts rules e rows p) (hclosed : p.isOpen = false) :
    e.ClosedBy rows := by
  refine ⟨h.row, ?_⟩
  have hnot : ¬ 0 < p.remainingQuantity := by
    rw [← h.isOpen_iff, hclosed]
    decide
  have htotal := h.total
  have hnonneg := h.nonneg
  linarith

theorem rowsQuantity_append (rows : List Trade) (t : Trade) :
    rowsQuantity (rows ++ [t]) = rowsQuantity rows + t.quantity := by
  simp [rowsQuantity]

variable {ctx : ExitContext} {event : ExitEvent} {fill : ℚ} {b b' : ExitBooking}

variable {reason : TradeReason}

theorem entry_row {quantity : ℚ} (hentry : p.entry = e)
    (hquantity : 0 < quantity) : e.Row (ctx.row p fill quantity reason) := by
  subst hentry
  exact ⟨rfl, rfl, rfl, hquantity⟩

theorem forall_row_append {t : Trade} (hrows : ∀ u ∈ rows, e.Row u) (ht : e.Row t) :
    ∀ u ∈ rows ++ [t], e.Row u := by
  intro u hu
  rcases mem_append.1 hu with hu | hu
  · exact hrows u hu
  · rw [mem_singleton.1 hu]
    exact ht

theorem Accounts.full (h : Accounts rules e rows p) (hopen : p.isOpen = true) :
    Accounts rules e (rows ++ [ctx.row p fill p.remainingQuantity reason]) (closePosition p) := by
  have hclose : closePosition p = { p with isOpen := false, remainingQuantity := 0 } :=
    if_pos hopen
  have htotal := h.total
  rw [hclose]
  refine ⟨h.entry, forall_row_append h.row (entry_row h.entry (h.isOpen_iff.1 hopen)), ?_,
    h.quantity_pos, le_refl 0, by simp, h.declared, h.apart, nofun⟩
  rw [rowsQuantity_append]
  show _ + p.remainingQuantity + 0 = _
  linarith

theorem bookedPercents_reduced (p : PositionState) (percent price : ℚ) (time : Timestamp)
    (reason : EventReason) :
    (p.reduced percent price time reason).bookedPercents = p.bookedPercents ++ [percent] := by
  simp [PositionState.reduced, PositionState.bookedPercents]

theorem apart_of_not_partialDone (happart : Apart p.bookedPercents)
    (hdone : partialDone event p = false) : Apart (p.bookedPercents ++ [event.qtyPercent]) := by
  refine pairwise_append.2 ⟨happart, pairwise_singleton _ _, ?_⟩
  intro a ha c hc
  rw [mem_singleton.1 hc]
  obtain ⟨r, hr, rfl⟩ := mem_map.1 ha
  rw [partialDone, any_eq_false] at hdone
  exact Bool.eq_false_iff.2 (hdone r hr)

theorem Accounts.share_reduced (h : Accounts rules e rows p) (hopen : p.isOpen = true)
    (percent : ℚ) : p.remainingQuantity - p.quantity * (percent / 100)
      = e.quantity * (1 - (p.bookedPercents ++ [percent]).sum / 100) := by
  have hquantity : p.quantity = e.quantity := by rw [← h.entry]; rfl
  rw [h.share hopen, hquantity, sum_append, sum_singleton]
  ring

theorem Accounts.declared_append (h : Accounts rules e rows p)
    (hdeclared : event.qtyPercent ∈ rules.partialPercents) :
    p.bookedPercents ++ [event.qtyPercent] ⊆ rules.partialPercents :=
  append_subset.2 ⟨h.declared, cons_subset.2 ⟨hdeclared, nil_subset _⟩⟩

theorem Accounts.reduced_nonneg (hparts : rules.PartialsFit) (h : Accounts rules e rows p)
    (hopen : p.isOpen = true) (hdeclared : event.qtyPercent ∈ rules.partialPercents)
    (hdone : partialDone event p = false) :
    0 ≤ p.remainingQuantity - p.quantity * (event.qtyPercent / 100) := by
  have hsum := hparts _ (h.declared_append hdeclared) (apart_of_not_partialDone h.apart hdone)
  rw [h.share_reduced hopen]
  refine mul_nonneg h.quantity_pos.le ?_
  linarith

theorem Accounts.partly {note : EventReason} {time : Timestamp}
    (hparts : rules.PartialsFit) (h : Accounts rules e rows p) (hopen : p.isOpen = true)
    (hquantity : ctx.quantity = e.quantity) (hpos : 0 < event.qtyPercent)
    (hdeclared : event.qtyPercent ∈ rules.partialPercents)
    (hdone : partialDone event p = false) :
    Accounts rules e
      (rows ++ [ctx.row p fill (ctx.quantity * (event.qtyPercent / 100)) reason])
      (p.reduced event.qtyPercent fill time note) := by
  have hrow : 0 < ctx.quantity * (event.qtyPercent / 100) := by
    rw [hquantity]
    exact mul_pos h.quantity_pos (div_pos hpos (by norm_num))
  have hremaining : (p.reduced event.qtyPercent fill time note).remainingQuantity
      = p.remainingQuantity - p.quantity * (event.qtyPercent / 100) :=
    max_eq_right (h.reduced_nonneg hparts hopen hdeclared hdone)
  have hbooked := bookedPercents_reduced p event.qtyPercent fill time note
  have htotal := h.total
  have hsame : p.quantity = e.quantity := by rw [← h.entry]; rfl
  refine ⟨h.entry, forall_row_append h.row (entry_row h.entry hrow), ?_, h.quantity_pos,
    le_max_left _ _, by simp [PositionState.reduced], ?_, ?_, fun _ => ?_⟩
  · rw [rowsQuantity_append, hremaining, hsame]
    show _ + ctx.quantity * (event.qtyPercent / 100) + _ = _
    rw [hquantity]
    linarith
  · rw [hbooked]
    exact h.declared_append hdeclared
  · rw [hbooked]
    exact apart_of_not_partialDone h.apart hdone
  · rw [hremaining, hbooked]
    exact h.share_reduced hopen event.qtyPercent

theorem Sound.mem_partialPercents (h : Sound rules event) (hpartly : event.exitType = .partly) :
    event.qtyPercent ∈ rules.partialPercents := by
  obtain ⟨q, hq, heq⟩ := h.declared hpartly
  exact mem_map.2 ⟨q, hq, heq⟩

theorem accounts_bookEvent (hparts : rules.PartialsFit) (hquantity : ctx.quantity = e.quantity)
    (hsound : Sound rules event) (h : Accounts rules e (rows ++ b.closed) b.position)
    (hopen : b.position.isOpen = true) (hb : bookEvent ctx event b = .ok b') :
    Accounts rules e (rows ++ b'.closed) b'.position := by
  unfold bookEvent at hb
  split_ifs at hb with hpartly hdone
  · cases hb
    exact h
  · obtain ⟨-, hpos, -, -, -, -, -, rfl⟩ := bookPartial_eq_ok.1 hb
    simp only [ExitBooking.add, ← append_assoc]
    exact h.partly hparts hopen hquantity hpos (hsound.mem_partialPercents hpartly)
      (Bool.eq_false_iff.2 hdone)
  · obtain ⟨-, -, -, rfl⟩ := bookFull_eq_ok.1 hb
    simp only [ExitBooking.add, ← append_assoc]
    exact h.full hopen

theorem accounts_bookEvents (hparts : rules.PartialsFit) (hquantity : ctx.quantity = e.quantity)
    {events : List ExitEvent} (hsound : ∀ ev ∈ events, Sound rules ev)
    (h : Accounts rules e (rows ++ b.closed) b.position)
    (hb : bookEvents ctx events b = .ok b') :
    Accounts rules e (rows ++ b'.closed) b'.position :=
  bookEvents_invariant (fun ev hev _ _ h hopen hbook =>
      accounts_bookEvent hparts hquantity (hsound ev hev) h hopen hbook) h hb

end Booking

section Bars

variable {inp : SimInput} {i : ℕ} {prior bar lastBar : Candle} {s s' : SimState}
  {entries : List Entry}

/-- The entries so far, each closed by rows of its own, in order; the last may still be open. -/
inductive SimState.Settled (inp : SimInput) : List Entry → SimState → Prop
  | flat {entries : List Entry} {segments : List (List Trade)} {s : SimState}
      (hposition : s.position = none) (htrades : s.trades = segments.flatten)
      (hclosed : List.Forall₂ Entry.ClosedBy entries segments) : Settled inp entries s
  | held {entries : List Entry} {segments : List (List Trade)} {rows : List Trade}
      {s : SimState} {p : PositionState} (hposition : s.position = some p)
      (hopen : p.isOpen = true) (hquantity : p.quantity = inp.quantity)
      (htrades : s.trades = segments.flatten ++ rows)
      (hclosed : List.Forall₂ Entry.ClosedBy entries segments)
      (haccounts : Accounts inp.strategy.exit p.entry rows p) :
      Settled inp (entries ++ [p.entry]) s

theorem SimState.Settled.congr (h : s.Settled inp entries) (hposition : s'.position = s.position)
    (htrades : s'.trades = s.trades) : s'.Settled inp entries := by
  cases h with
  | flat hp ht hc => exact .flat (hposition.trans hp) (htrades.trans ht) hc
  | held hp ho hq ht hc ha => exact .held (hposition.trans hp) ho hq (htrades.trans ht) hc ha

theorem settled_startState (first : Candle) : (startState inp first).Settled inp [] :=
  @SimState.Settled.flat inp [] [] _ rfl rfl .nil

theorem accounts_entered {rules : ExitRules} {side : Side} {price quantity : ℚ}
    {time : Timestamp} (hquantity : 0 < quantity) :
    Accounts rules ⟨time, side, price, quantity⟩ []
      ⟨true, side, price, time, quantity, quantity, price, price, none, []⟩ := by
  refine ⟨rfl, by simp, by simp [rowsQuantity], hquantity, hquantity.le, by simpa using hquantity,
    by simp [PositionState.bookedPercents], List.Pairwise.nil, ?_⟩
  simp [PositionState.bookedPercents]

theorem filledOn_eq {filled : SimState} (h : fillStep inp bar (rollStep bar s) = .ok filled) :
    (filledOn inp bar s).toList
      = if s.position = none then (filled.position.map PositionState.entry).toList else [] := by
  unfold filledOn
  rw [h]
  rcases hp : s.position with _ | p
  · simp
  · simp

theorem SimState.Settled.filled {filled : SimState} (hs : s.Settled inp entries)
    (h : fillStep inp bar (rollStep bar s) = .ok filled) :
    filled.Settled inp (entries ++ (filledOn inp bar s).toList) := by
  have hroll : (rollStep bar s).Settled inp entries := hs.congr rfl rfl
  rw [filledOn_eq h]
  rcases fillStep_eq_ok.1 h with ⟨-, rfl⟩ | ⟨pending, side, -, hflat, -, -, hquantity, rfl⟩
  · -- nothing was filled: a flat book stays flat
    have hnone : (if s.position = none then
        ((rollStep bar s).position.map PositionState.entry).toList else []) = [] := by
      split_ifs with hp
      · rw [show (rollStep bar s).position = none from hp]
        rfl
      · rfl
    rw [hnone, append_nil]
    exact hroll
  · have hnone : s.position = none := hflat
    rw [if_pos hnone]
    cases hroll with
    | flat hp ht hc =>
      refine SimState.Settled.held rfl rfl rfl (ht.trans (append_nil _).symm) hc ?_
      exact accounts_entered hquantity
    | held hp => exact absurd (hp.symm.trans hflat) nofun

theorem SimState.Settled.exited (hparts : inp.strategy.exit.PartialsFit)
    (hs : s.Settled inp entries) (h : exitStep inp i prior bar s = .ok s') :
    s'.Settled inp entries := by
  rcases exitStep_eq_ok.1 h with ⟨-, rfl⟩ | ⟨position, v, events, hposition, -, hevents, hbook⟩
  · exact hs
  rcases hbook with ⟨-, rfl⟩ | ⟨booked, -, hbooked, rfl⟩
  · exact hs
  cases hs with
  | flat hp => exact absurd (hposition.symm.trans hp) nofun
  | @held entries segments rows s p hp hopen hquantity ht hc ha =>
    obtain rfl : p = position := Option.some.inj (hp.symm.trans hposition)
    have hsound := sound_evaluateExit hopen hevents
    have hrows : Accounts inp.strategy.exit p.entry (rows ++ booked.closed) booked.position :=
      accounts_bookEvents hparts hquantity.symm
        (fun e he => hsound e (mem_prioritiseEvents.1 he)) (by simpa using ha) hbooked
    have htrades : (s.exited booked).trades = segments.flatten ++ (rows ++ booked.closed) := by
      show s.trades ++ booked.closed = _
      rw [ht, append_assoc]
    rcases hstill : booked.position.isOpen with _ | _
    · have hsegments : List.Forall₂ Entry.ClosedBy (entries ++ [p.entry])
          (segments ++ [rows ++ booked.closed]) :=
        rel_append hc (.cons (hrows.closedBy hstill) .nil)
      refine SimState.Settled.flat ?_ ?_ hsegments
      · simp [SimState.exited, hstill]
      · rw [htrades, flatten_append, flatten_singleton]
    · rw [← hrows.entry]
      have hkept : booked.position.quantity = inp.quantity :=
        (congrArg Entry.quantity hrows.entry).trans hquantity
      refine SimState.Settled.held ?_ hstill hkept htrades hc ?_
      · simp [SimState.exited, hstill]
      · rw [hrows.entry]
        exact hrows

theorem SimState.Settled.updated (hs : s.Settled inp entries) :
    (updateStep inp bar s).Settled inp entries := by
  cases hs with
  | flat hp ht hc => exact .flat (by simp [updateStep, hp]) ht hc
  | @held entries segments rows s p hp hopen hquantity ht hc ha =>
    obtain ⟨hside, hopen', hprice, htime, hquantity', hremaining, hdone⟩ :=
      updateOnCandle_fields p bar inp.strategy.exit.trailingStopPercent
    have hentry : (updateOnCandle p bar inp.strategy.exit.trailingStopPercent).entry = p.entry := by
      simp [PositionState.entry, hside, hprice, htime, hquantity']
    have hpercents : (updateOnCandle p bar inp.strategy.exit.trailingStopPercent).bookedPercents
        = p.bookedPercents := by simp [PositionState.bookedPercents, hdone]
    rw [← hentry]
    refine SimState.Settled.held (by simp [updateStep, hp]) (hopen'.trans hopen)
      (hquantity'.trans hquantity) ht hc ?_
    rw [accounts_iff, hentry, hremaining, hopen', hpercents]
    exact (accounts_iff ..).1 ha

theorem SimState.Settled.entered (hs : s.Settled inp entries)
    (h : entryStep inp i prior bar s = .ok s') : s'.Settled inp entries := by
  rcases entryStep_cases h with rfl | ⟨v, decision, -, -, -, -, -, rfl⟩
  · exact hs
  · exact hs.congr rfl rfl

theorem SimState.Settled.next (hparts : inp.strategy.exit.PartialsFit)
    (hs : s.Settled inp entries) (h : simulateBar inp i prior bar s = .ok s') :
    s'.Settled inp (entries ++ (filledOn inp bar s).toList) := by
  obtain ⟨filled, exited, entered, hfilled, hexited, hentered, rfl⟩ := simulateBar_eq_ok.1 h
  have hsettled := ((hs.filled hfilled).exited hparts hexited).updated.entered hentered
  exact hsettled.congr rfl rfl

theorem settled_simulateBars (hparts : inp.strategy.exit.PartialsFit) :
    ∀ {bars : List Candle} {i : ℕ} {prior : Candle} {entries : List Entry} {s s' : SimState},
      s.Settled inp entries → simulateBars inp i prior bars s = .ok s' →
        s'.Settled inp (entries ++ filledOver inp i prior bars s)
  | [], _, _, _, _, _, hs, h => by
    cases h
    rw [filledOver, append_nil]
    exact hs
  | bar :: bars, i, prior, entries, s, s', hs, h => by
    obtain ⟨next, hnext, h⟩ := bind_eq_ok.1 h
    rw [filledOver, hnext, ← append_assoc]
    exact settled_simulateBars hparts (hs.next hparts hnext) h

theorem settled_forceClose (hs : s.Settled inp entries) (h : forceClose inp lastBar s = .ok s') :
    ∃ segments, s'.trades = segments.flatten ∧ List.Forall₂ Entry.ClosedBy entries segments := by
  rcases forceClose_eq_ok.1 h with
    ⟨hflat, rfl⟩ | ⟨position, price, hposition, -, -, -, -, rfl⟩
  · cases hs with
    | flat hp ht hc => exact ⟨_, ht, hc⟩
    | held hp => exact absurd (hp.symm.trans hflat) nofun
  · cases hs with
    | flat hp => exact absurd (hposition.symm.trans hp) nofun
    | @held entries segments rows s p hp hopen hquantity ht hc ha =>
      obtain rfl : p = position := Option.some.inj (hp.symm.trans hposition)
      have hclosed : p.entry.ClosedBy (rows ++ [ExitContext.row
          ⟨lastBar, s.openReasons, inp.costs, inp.quantity⟩ p price p.remainingQuantity
          .backtestEnd]) := (ha.full hopen).closedBy (by simp [closePosition, hopen])
      refine ⟨segments ++ [_], ?_, rel_append hc (.cons hclosed .nil)⟩
      simp [SimState.closedOut, ht]

end Bars

def HhMm.IsTime (t : HhMm) : Prop := t.hours.val < 24 ∧ t.minutes.val < 60

def HhMm.minuteOfDay (t : HhMm) : ℤ := t.hours.val * 60 + t.minutes.val

/-- The times of a condition are times of the day, and its window does not wrap around. -/
def Condition.Timed : Condition → Prop
  | .time c => c.value.IsTime
    ∧ ∀ stop ∈ c.endTime, stop.IsTime ∧ c.value.minuteOfDay ≤ stop.minuteOfDay
  | _ => True

theorem parseHhmm_eq_ok {t : HhMm} {micros : ℤ} :
    parseHhmm t = .ok micros ↔ t.IsTime ∧ t.minuteOfDay * minuteMicros = micros := by
  unfold parseHhmm HhMm.IsTime HhMm.minuteOfDay
  split_ifs with h <;> simp [h]

theorem returns_evaluateTimeCondition {c : TimeCondition} (moment : Timestamp) :
    (∃ b, evaluateTimeCondition c moment = .ok b) ↔ (Condition.time c).Timed := by
  obtain ⟨op, value, endTime, hbetween⟩ := c
  unfold evaluateTimeCondition Condition.Timed
  cases endTime with
  | none => cases op <;> simp [bind_eq_ok, parseHhmm_eq_ok] at hbetween ⊢
  | some stop =>
    obtain rfl : op = .between := hbetween.2 rfl
    simp only [bind_eq_ok, parseHhmm_eq_ok]
    by_cases hwrap : stop.minuteOfDay * minuteMicros < value.minuteOfDay * minuteMicros
    · have hlt := not_le.2 (lt_of_mul_lt_mul_right hwrap (by decide))
      simp [hwrap, hlt]
    · have hle := le_of_mul_le_mul_right (not_lt.1 hwrap) (by decide)
      simp [hwrap, hle]

theorem returns_evaluateConditions {v : BarView} : ∀ {cs : List Condition},
    (∃ r, evaluateConditions v cs = .ok r) ↔ ∀ c ∈ cs, c.Timed
  | [] => by simp [evaluateConditions]
  | c :: cs => by
    have hc : (∃ b, evaluateCondition c v = .ok b) ↔ c.Timed := by
      cases c with
      | time c => exact returns_evaluateTimeCondition _
      | _ => simp [evaluateCondition, Condition.Timed]
    rw [forall_mem_cons, ← hc, ← returns_evaluateConditions]
    simp only [evaluateConditions, bind_eq_ok]
    constructor
    · rintro ⟨_, b, hb, rest, hrest, -⟩
      exact ⟨⟨b, hb⟩, rest, hrest⟩
    · rintro ⟨⟨b, hb⟩, rest, hrest⟩
      exact ⟨_, b, hb, rest, hrest, rfl⟩

theorem returns_evaluateEntry {strategy : StrategyJSON} {v : BarView} :
    (∃ decision, evaluateEntry strategy v = .ok decision)
      ↔ ∀ c ∈ strategy.entry.conditions, c.Timed := by
  rw [← returns_evaluateConditions]
  simp only [evaluateEntry, bind_eq_ok]
  constructor
  · rintro ⟨_, r, hr, -⟩
    exact ⟨r, hr⟩
  · rintro ⟨r, hr⟩
    exact ⟨_, r, hr, rfl⟩

section Triggers

variable {rules : ExitRules} {p : PositionState} {v : BarView}

structure PositionState.Priced (p : PositionState) : Prop where
  entry_pos : 0 < p.entryPrice
  lowest_pos : 0 < p.lowestPriceSinceEntry
  trail_pos : p.side = .sell → ∀ trail, p.trailingStopPrice = some trail → 0 < trail

theorem exists_when {fired : Bool} {qty price : ℚ} (exitType : ExitType) (reason : EventReason)
    (hpos : 0 < qty) (hle : qty ≤ 100) (hprice : fired = true → 0 < price) :
    ∃ events, ExitEvent.when fired exitType qty price reason = .ok events := by
  cases fired with
  | false => exact ⟨[], when_eq_ok.2 (.inl ⟨rfl, rfl⟩)⟩
  | true => exact ⟨_, when_eq_ok.2 (.inr ⟨rfl, hpos, hle, hprice rfl, rfl⟩)⟩

theorem levelAbove_pos {percent : ℚ} (hentry : 0 < p.entryPrice) (hpercent : 0 < percent)
    (hlow : 0 < v.current.low)
    (h : barCrossedLong p.side v.current (levelAbove p percent) = true) :
    0 < levelAbove p percent := by
  unfold barCrossedLong levelAbove at *
  rcases hside : p.side with _ | _ <;> rw [hside] at h <;> simp only [decide_eq_true_eq] at h ⊢
  · exact mul_pos hentry (by linarith)
  · exact hlow.trans_le h

theorem levelBelow_pos {percent : ℚ} (hentry : 0 < p.entryPrice) (hpercent : 0 < percent)
    (hlow : 0 < v.current.low)
    (h : barCrossedShort p.side v.current (levelBelow p percent) = true) :
    0 < levelBelow p percent := by
  unfold barCrossedShort levelBelow at *
  rcases hside : p.side with _ | _ <;> rw [hside] at h <;> simp only [decide_eq_true_eq] at h ⊢
  · exact hlow.trans_le h
  · exact mul_pos hentry (by linarith)

theorem exists_targetEvents (hp : p.Priced) (hlow : 0 < v.current.low) :
    ∃ events, targetEvents rules p v = .ok events := by
  unfold targetEvents
  rcases rules.targetPercent with _ | pct
  · exact ⟨[], rfl⟩
  · exact exists_when _ _ (by norm_num) le_rfl (levelAbove_pos hp.entry_pos pct.2 hlow)

theorem exists_stopLossEvents (hp : p.Priced) (hlow : 0 < v.current.low) :
    ∃ events, stopLossEvents rules p v = .ok events := by
  unfold stopLossEvents
  rcases rules.stopLossPercent with _ | pct
  · exact ⟨[], rfl⟩
  · exact exists_when _ _ (by norm_num) le_rfl (levelBelow_pos hp.entry_pos pct.2 hlow)

theorem exists_trailingStopEvents (hp : p.Priced) (hlow : 0 < v.current.low) :
    ∃ events, trailingStopEvents rules p v = .ok events := by
  unfold trailingStopEvents
  rcases rules.trailingStopPercent with _ | pct
  · exact ⟨[], rfl⟩
  rcases htrail : p.trailingStopPrice with _ | trail
  · exact ⟨[], rfl⟩
  · refine exists_when _ _ (by norm_num) le_rfl fun h => ?_
    rcases hside : p.side with _ | _
    · rw [hside, barCrossedShort, decide_eq_true_eq] at h
      exact hlow.trans_le h
    · exact hp.trail_pos hside trail htrail

theorem exists_partialEvents (hp : p.Priced) (hlow : 0 < v.current.low) :
    ∀ (idx : ℕ) (ps : List PartialExit), ∃ events, partialEvents p v idx ps = .ok events
  | _, [] => ⟨[], rfl⟩
  | idx, q :: ps => by
    obtain ⟨event, hevent⟩ := exists_when .partly
      (.partly idx q.qtyPercent q.targetPercent) q.qty_pos q.qty_le
      (levelAbove_pos hp.entry_pos q.target_pos hlow)
    obtain ⟨rest, hrest⟩ := exists_partialEvents hp hlow (idx + 1) ps
    exact ⟨_, bind_eq_ok.2 ⟨event, hevent, bind_eq_ok.2 ⟨rest, hrest, rfl⟩⟩⟩

theorem exists_indicatorEvents (hclose : 0 < v.current.close) :
    ∀ cs : List Condition, ∃ events, indicatorEvents v cs = .ok events
  | [] => ⟨[], rfl⟩
  | .indicator c :: cs => by
    obtain ⟨event, hevent⟩ := exists_when .indicator (.indicator c)
      (by norm_num : (0 : ℚ) < 100) le_rfl
      fun _ : evaluateIndicatorCondition c v.values v.priorValues = true => hclose
    obtain ⟨rest, hrest⟩ := exists_indicatorEvents hclose cs
    exact ⟨_, bind_eq_ok.2 ⟨event, hevent, bind_eq_ok.2 ⟨rest, hrest, rfl⟩⟩⟩
  | .candle _ :: cs => exists_indicatorEvents hclose cs
  | .time _ :: cs => exists_indicatorEvents hclose cs
  | .price _ :: cs => exists_indicatorEvents hclose cs

theorem exists_squareOffEvents (hclose : 0 < v.current.close)
    (htime : ∀ t ∈ rules.squareOffTime, t.IsTime) :
    ∃ events, squareOffEvents rules v = .ok events := by
  unfold squareOffEvents
  rcases ht : rules.squareOffTime with _ | t
  · exact ⟨[], rfl⟩
  · have htimed : ∀ op h, (Condition.time ⟨op, t, none, h⟩).Timed :=
      fun _ _ => ⟨htime t ht, by simp⟩
    obtain ⟨onTime, hon⟩ := (returns_evaluateTimeCondition v.current.timestamp).2
      (htimed .exact (by simp))
    obtain ⟨after, hafter⟩ := (returns_evaluateTimeCondition v.current.timestamp).2
      (htimed .after (by simp))
    simp only [hon, hafter]
    exact exists_when _ _ (by norm_num) le_rfl fun _ => hclose

theorem exists_evaluateExit (hp : p.Priced) (hopen : p.isOpen = true) (hlow : 0 < v.current.low)
    (htime : ∀ t ∈ rules.squareOffTime, t.IsTime) :
    ∃ events, evaluateExit p rules v false = .ok events := by
  have hclose : 0 < v.current.close := hlow.trans_le v.current.close_mem.1
  obtain ⟨target, htarget⟩ := exists_targetEvents hp hlow
  obtain ⟨stop, hstop⟩ := exists_stopLossEvents hp hlow
  obtain ⟨trail, htrail⟩ := exists_trailingStopEvents hp hlow
  obtain ⟨parts, hparts⟩ := exists_partialEvents hp hlow 1 rules.partialExits
  obtain ⟨indicators, hindicators⟩ := exists_indicatorEvents hclose rules.indicatorExits
  have hreverse : reverseEvents rules v false = .ok [] := by simp [reverseEvents, ExitEvent.when]
  obtain ⟨squareOff, hsquareOff⟩ := exists_squareOffEvents hclose htime
  exact ⟨_, (evaluateExit_eq_ok hopen).2 ⟨target, htarget, stop, hstop, trail, htrail, parts,
    hparts, indicators, hindicators, [], hreverse, squareOff, hsquareOff, rfl⟩⟩

end Triggers

section Progress

variable {rules : ExitRules} {e : Entry} {rows : List Trade} {ctx : ExitContext}
  {event : ExitEvent} {b b' : ExitBooking}

theorem exists_bookEvent (hparts : rules.PartialsFit) (hquantity : ctx.quantity = e.quantity)
    (hslip : ctx.costs.slippagePercent < 100) (hprice : 0 < e.price) (hsound : Sound rules event)
    (h : Accounts rules e rows b.position) (hopen : b.position.isOpen = true) :
    ∃ b', bookEvent ctx event b = .ok b' := by
  have hfill := adjustForSlippage_pos b.position.side .exit hsound.price_pos hslip
  have hentry : 0 < b.position.entryPrice := by
    rw [← h.entry] at hprice
    exact hprice
  unfold bookEvent
  split_ifs with hpartly hdone
  · exact ⟨b, rfl⟩
  · have hnonneg := h.reduced_nonneg hparts hopen (hsound.mem_partialPercents hpartly)
      (Bool.eq_false_iff.2 hdone)
    have hover : -overExitTolerance
        ≤ b.position.remainingQuantity - b.position.quantity * (event.qtyPercent / 100) :=
      le_trans (by norm_num [overExitTolerance]) hnonneg
    have hrow : 0 < ctx.quantity * (event.qtyPercent / 100) := by
      rw [hquantity]
      exact mul_pos h.quantity_pos (div_pos hsound.qty_pos (by norm_num))
    exact ⟨_, bookPartial_eq_ok.2
      ⟨hopen, hsound.qty_pos, hsound.qty_le, hfill, hover, hrow, hentry, rfl⟩⟩
  · exact ⟨_, bookFull_eq_ok.2 ⟨hfill, h.isOpen_iff.1 hopen, hentry, rfl⟩⟩

theorem exists_bookEvents (hparts : rules.PartialsFit) (hquantity : ctx.quantity = e.quantity)
    (hslip : ctx.costs.slippagePercent < 100) (hprice : 0 < e.price) :
    ∀ {events : List ExitEvent} {b : ExitBooking}, (∀ ev ∈ events, Sound rules ev) →
      Accounts rules e (rows ++ b.closed) b.position → ∃ b', bookEvents ctx events b = .ok b'
  | [], b, _, _ => ⟨b, rfl⟩
  | event :: events, b, hsound, h => by
    rw [bookEvents]
    split_ifs with hopen
    · have hfirst := hsound event (mem_cons_self ..)
      obtain ⟨next, hnext⟩ := exists_bookEvent hparts hquantity hslip hprice hfirst h hopen
      obtain ⟨b', hb'⟩ := exists_bookEvents hparts hquantity hslip hprice
        (fun ev hev => hsound ev (mem_cons_of_mem _ hev))
        (accounts_bookEvent hparts hquantity hfirst h hopen hnext)
      exact ⟨b', bind_eq_ok.2 ⟨next, hnext, hb'⟩⟩
    · exact ⟨b, rfl⟩

theorem priced_bookEvent (hp : b.position.Priced) (h : bookEvent ctx event b = .ok b') :
    b'.position.Priced := by
  unfold bookEvent at h
  split_ifs at h
  · cases h
    exact hp
  · obtain ⟨-, -, -, -, -, -, -, rfl⟩ := bookPartial_eq_ok.1 h
    exact ⟨hp.entry_pos, hp.lowest_pos, hp.trail_pos⟩
  · obtain ⟨-, -, -, rfl⟩ := bookFull_eq_ok.1 h
    simp only [closePosition]
    split_ifs
    · exact ⟨hp.entry_pos, hp.lowest_pos, hp.trail_pos⟩
    · exact hp

theorem priced_updateOnCandle {p : PositionState} {candle : Candle} (hp : p.Priced)
    (hlow : 0 < candle.low) (pct : Option Percent) : (updateOnCandle p candle pct).Priced := by
  unfold updateOnCandle
  split_ifs with hopen
  · have hlowest : 0 < min p.lowestPriceSinceEntry candle.low := lt_min hp.lowest_pos hlow
    refine ⟨hp.entry_pos, hlowest, fun hside trail htrail => ?_⟩
    rcases pct with _ | pct
    · exact hp.trail_pos hside trail htrail
    · have hside' : p.side = .sell := hside
      have hnew : 0 < min p.lowestPriceSinceEntry candle.low * (1 + pct.val / 100) :=
        mul_pos hlowest (by have := pct.2; linarith)
      simp only [hside', Option.some.injEq, ratchetTrail] at htrail
      rcases hold : p.trailingStopPrice with _ | old <;> rw [hold] at htrail <;>
        simp only [] at htrail
      · rwa [← htrail]
      · split_ifs at htrail
        · rwa [← htrail]
        · rw [← htrail]
          exact hp.trail_pos hside' old hold
  · exact hp

variable {inp : SimInput} {i n : ℕ} {prior bar lastBar : Candle} {s s' : SimState}
  {entries : List Entry}

/-- What a run needs of the input, for `n` bars. -/
structure SimInput.Runnable (inp : SimInput) (n : ℕ) : Prop where
  quantity_pos : 0 < inp.quantity
  slippage_lt : inp.costs.slippagePercent < 100
  series_length : ∀ named ∈ inp.series, n ≤ named.2.length
  entry_times : ∀ c ∈ inp.strategy.entry.conditions, c.Timed
  squareOff_time : ∀ t ∈ inp.strategy.exit.squareOffTime, t.IsTime

/-- A queued entry has a side, and the position's prices are above zero. -/
structure SimState.Ready (s : SimState) : Prop where
  queued : ∀ q, s.pendingEntry = some q → ∃ side, q.decision.side = some side
  priced : ∀ p, s.position = some p → p.Priced

theorem exists_valuesAt : ∀ {series : SeriesById} {i : ℕ},
    (∀ named ∈ series, i < named.2.length) → ∃ values, valuesAt series i = .ok values
  | [], _, _ => ⟨[], rfl⟩
  | (name, points) :: rest, i, h => by
    have hi : points[i]? = some _ := getElem?_eq_getElem (h _ (mem_cons_self ..))
    obtain ⟨values, hvalues⟩ :=
      exists_valuesAt fun named hn => h named (mem_cons_of_mem _ hn)
    rw [valuesAt, hi]
    exact ⟨_, bind_eq_ok.2 ⟨values, hvalues, rfl⟩⟩

theorem exists_barView (hrun : inp.Runnable n) (hi : i < n) :
    ∃ v, barView inp i prior bar = .ok v := by
  obtain ⟨values, hvalues⟩ := exists_valuesAt fun named hn =>
    hi.trans_le (hrun.series_length named hn)
  obtain ⟨priorValues, hprior⟩ := exists_valuesAt fun named hn =>
    (i.sub_le 1).trans_lt (hi.trans_le (hrun.series_length named hn))
  exact ⟨_, bind_eq_ok.2 ⟨values, hvalues, bind_eq_ok.2 ⟨priorValues, hprior, rfl⟩⟩⟩

theorem exists_fillStep (hrun : inp.Runnable n) (hready : s.Ready) (hlow : 0 < bar.low) :
    ∃ s', fillStep inp bar s = .ok s' ∧ s'.Ready := by
  rcases hpending : s.pendingEntry with _ | q
  · exact ⟨s, fillStep_of_flat hpending, hready⟩
  rcases hposition : s.position with _ | p
  · obtain ⟨side, hside⟩ := hready.queued q hpending
    have hopen : 0 < bar.openPrice := hlow.trans_le bar.open_mem.1
    have hprice := adjustForSlippage_pos side .entry hopen hrun.slippage_lt
    refine ⟨_, fillStep_eq_ok.2 (.inr ⟨q, side, hpending, hposition, hside, hprice,
      hrun.quantity_pos, rfl⟩), nofun, fun p hp => ?_⟩
    cases hp
    exact ⟨hprice, hprice, fun _ => nofun⟩
  · exact ⟨s, fillStep_eq_ok.2 (.inl ⟨.inr (hposition ▸ nofun), rfl⟩), hready⟩

theorem exists_exitStep (hparts : inp.strategy.exit.PartialsFit) (hrun : inp.Runnable n)
    (hi : i < n) (hs : s.Settled inp entries) (hready : s.Ready) (hlow : 0 < bar.low) :
    ∃ s', exitStep inp i prior bar s = .ok s' ∧ s'.Ready := by
  cases hs with
  | flat hp => exact ⟨s, exitStep_of_flat hp, hready⟩
  | @held entries segments rows s p hp hopen hquantity ht hc ha =>
    obtain ⟨v, hv⟩ := @exists_barView inp i n prior bar hrun hi
    obtain ⟨hcurrent, -⟩ := barView_eq_ok hv
    have hpriced := hready.priced p hp
    obtain ⟨events, hevents⟩ := exists_evaluateExit hpriced hopen (by rwa [hcurrent])
      hrun.squareOff_time
    by_cases hnil : events = []
    · exact ⟨s, exitStep_eq_ok.2 (.inr ⟨p, v, events, hp, hv, hevents, .inl ⟨hnil, rfl⟩⟩), hready⟩
    · have hsound := sound_evaluateExit hopen hevents
      have hstart : Accounts inp.strategy.exit p.entry (rows ++ (⟨p, [], 0⟩ : ExitBooking).closed)
          (⟨p, [], 0⟩ : ExitBooking).position := by simpa using ha
      have hbook := @exists_bookEvents inp.strategy.exit p.entry rows
        ⟨bar, s.openReasons, inp.costs, inp.quantity⟩ hparts hquantity.symm hrun.slippage_lt
        hpriced.entry_pos (prioritiseEvents inp.mode events) ⟨p, [], 0⟩
        (fun e he => hsound e (mem_prioritiseEvents.1 he)) hstart
      obtain ⟨booked, hbooked⟩ := hbook
      refine ⟨_, exitStep_eq_ok.2 (.inr ⟨p, v, events, hp, hv, hevents,
        .inr ⟨booked, hnil, hbooked, rfl⟩⟩), hready.queued, fun q hq => ?_⟩
      simp only [SimState.exited] at hq
      split_ifs at hq
      cases hq
      exact bookEvents_invariant (fun _ _ _ _ hp _ hb => priced_bookEvent hp hb) hpriced hbooked

theorem SimState.Ready.updated (hs : s.Ready) (hlow : 0 < bar.low) :
    (updateStep inp bar s).Ready := by
  refine ⟨hs.queued, fun p hp => ?_⟩
  obtain ⟨q, hq, rfl⟩ := Option.map_eq_some_iff.1 hp
  exact priced_updateOnCandle (hs.priced q hq) hlow _

theorem exists_entryStep (hrun : inp.Runnable n) (hi : i < n) :
    ∃ s', entryStep inp i prior bar s = .ok s' := by
  by_cases hflat : s.position = none ∧ riskBlocked inp s = false
  · obtain ⟨v, hv⟩ := @exists_barView inp i n prior bar hrun hi
    obtain ⟨decision, hdecision⟩ := (returns_evaluateEntry).2 hrun.entry_times
    exact ⟨_, (entryStep_of_flat hflat.1 hflat.2).2 ⟨v, decision, hv, hdecision, rfl⟩⟩
  · exact ⟨s, if_neg hflat⟩

theorem SimState.Ready.entered (hs : s.Ready) (h : entryStep inp i prior bar s = .ok s') :
    s'.Ready := by
  rcases entryStep_cases h with rfl | ⟨v, decision, -, -, -, hdecision, hfired, rfl⟩
  · exact hs
  · refine ⟨fun q hq => ?_, hs.priced⟩
    cases hq
    exact ⟨_, side_of_shouldEnter hdecision hfired⟩

theorem exists_simulateBar (hparts : inp.strategy.exit.PartialsFit) (hrun : inp.Runnable n)
    (hi : i < n) (hs : s.Settled inp entries) (hready : s.Ready) (hlow : 0 < bar.low) :
    ∃ s', simulateBar inp i prior bar s = .ok s' ∧ s'.Ready := by
  have hrolled : (rollStep bar s).Ready := ⟨hready.queued, hready.priced⟩
  obtain ⟨filled, hfilled, hready₁⟩ := exists_fillStep hrun hrolled hlow
  obtain ⟨exited, hexited, hready₂⟩ :=
    @exists_exitStep inp i n prior bar filled _ hparts hrun hi (hs.filled hfilled) hready₁ hlow
  obtain ⟨entered, hentered⟩ :=
    @exists_entryStep inp i n prior bar (updateStep inp bar exited) hrun hi
  have hready₃ := (hready₂.updated hlow).entered hentered
  exact ⟨_, simulateBar_eq_ok.2 ⟨filled, exited, entered, hfilled, hexited, hentered, rfl⟩,
    hready₃.queued, hready₃.priced⟩

theorem exists_simulateBars (hparts : inp.strategy.exit.PartialsFit) (hrun : inp.Runnable n) :
    ∀ {bars : List Candle} {i : ℕ} {prior : Candle} {entries : List Entry} {s : SimState},
      i + bars.length ≤ n → s.Settled inp entries → s.Ready → (∀ c ∈ bars, 0 < c.low) →
        ∃ s', simulateBars inp i prior bars s = .ok s' ∧ s'.Ready
  | [], _, _, _, s, _, _, hready, _ => ⟨s, rfl, hready⟩
  | bar :: bars, i, prior, entries, s, hi, hs, hready, hlow => by
    rw [length_cons] at hi
    obtain ⟨next, hnext, hready'⟩ := @exists_simulateBar inp i n prior bar s entries hparts hrun
      (by omega) hs hready (hlow bar (mem_cons_self ..))
    have hi' : i + 1 + bars.length ≤ n := by omega
    obtain ⟨s', hs', hready''⟩ := exists_simulateBars hparts hrun hi'
      (hs.next hparts hnext) hready' fun c hc => hlow c (mem_cons_of_mem _ hc)
    exact ⟨s', bind_eq_ok.2 ⟨next, hnext, hs'⟩, hready''⟩

theorem exists_forceClose (hrun : inp.Runnable n) (hs : s.Settled inp entries)
    (hready : s.Ready) (hlow : 0 < lastBar.low) : ∃ s', forceClose inp lastBar s = .ok s' := by
  cases hs with
  | flat hp => exact ⟨s, forceClose_eq_ok.2 (.inl ⟨hp, rfl⟩)⟩
  | @held entries segments rows s p hp hopen hquantity ht hc ha =>
    have hclose : 0 < lastBar.close := hlow.trans_le lastBar.close_mem.1
    exact ⟨_, forceClose_eq_ok.2 (.inr ⟨p, _, hp, rfl,
      adjustForSlippage_pos p.side .exit hclose hrun.slippage_lt, ha.isOpen_iff.1 hopen,
      (hready.priced p hp).entry_pos, rfl⟩)⟩

end Progress

/-- A backtest of partials that fit returns on bars above zero, and the rows of a run are those of
the filled entries in order, each closed to exactly its quantity. -/
theorem filled_entries_closed_once (inp : SimInput) (candles : List Candle)
    (hparts : inp.strategy.exit.PartialsFit) :
    (candles ≠ [] → (∀ c ∈ candles, 0 < c.low) → inp.Runnable candles.length →
        ∃ r, simulate inp candles = .ok r)
      ∧ ∀ r, simulate inp candles = .ok r → ∃ segments, r.trades = segments.flatten
        ∧ List.Forall₂ Entry.ClosedBy (filledEntries inp candles) segments := by
  rcases candles with _ | ⟨first, bars⟩
  · exact ⟨fun h => absurd rfl h, nofun⟩
  constructor
  · intro _ hlow hrun
    have hready : (startState inp first).Ready := ⟨nofun, nofun⟩
    obtain ⟨s, hs, hreadyEnd⟩ := @exists_simulateBars inp _ hparts hrun bars 1 first [] _
      (by rw [length_cons]; omega) (settled_startState first) hready
      fun c hc => hlow c (mem_cons_of_mem _ hc)
    have hsettled := settled_simulateBars hparts (settled_startState first) hs
    have hlast : 0 < (bars.getLastD first).low := hlow _ (getLastD_mem_cons ..)
    obtain ⟨done, hdone⟩ := exists_forceClose hrun hsettled hreadyEnd hlast
    exact ⟨_, simulate_eq_ok.2 ⟨s, done, hs, hdone, rfl⟩⟩
  · intro r hr
    obtain ⟨s, done, hs, hdone, rfl⟩ := simulate_eq_ok.1 hr
    have hsettled := settled_simulateBars hparts (settled_startState first) hs
    exact settled_forceClose hsettled hdone

def spikeCandle (minute : ℤ) : Candle :=
  { flatCandle minute with
    high := 110
    open_mem := by norm_num [flatCandle]
    close_mem := by norm_num [flatCandle] }

/-- A bar of a price that fell to nothing. -/
def zeroCandle (minute : ℤ) : Candle where
  timestamp := ⟨minute * minuteMicros, some 0⟩
  openPrice := 0
  high := 0
  low := 0
  close := 0
  volume := 0
  low_nonneg := zero_nonneg
  open_mem := ⟨zero_nonneg, zero_nonneg⟩
  close_mem := ⟨zero_nonneg, zero_nonneg⟩
  volume_nonneg := zero_nonneg

/-- `percent` of the quantity, a percent above the entry. -/
def partialAt (percent : ℚ) (h : 0 < percent ∧ percent ≤ 100) : PartialExit :=
  ⟨percent, 1, h.1, h.2, unit_pos⟩

/-- Buys on `condition`, one unit at a time, and scales out. -/
def scaleOut (condition : Condition) (hids : condition.referencedIds = [])
    (partials : List PartialExit) : SimInput where
  strategy :=
    { indicators := []
      entry := ⟨.buy, .all, [condition], by simp⟩
      exit := ⟨none, none, none, partials, none, [], true, by simp⟩
      risk := .none
      ids_nodup := no_ids_nodup
      ids_declared := by simp [hids] }
  series := []
  initialCapital := 100000
  quantity := 1
  costs := ⟨0, 0, 0, 0, zero_nonneg, zero_nonneg, zero_nonneg, zero_nonneg⟩
  mode := .conservative

def anyPrice : Condition := .price ⟨.gte, some 0, rfl⟩

theorem anyPrice_ids : anyPrice.referencedIds = [] := rfl

def scaleOutFifty : SimInput :=
  scaleOut anyPrice anyPrice_ids [partialAt 50 (by norm_num), partialAt 30 (by norm_num)]

theorem filled_entries_closed_once_scale_out : (filledEntries scaleOutFifty
        [flatCandle 0, flatCandle 1, spikeCandle 2, flatCandle 3]).length = 1
      ∧ ∃ r segments,
        simulate scaleOutFifty [flatCandle 0, flatCandle 1, spikeCandle 2, flatCandle 3] = .ok r
          ∧ r.trades = segments.flatten ∧ List.Forall₂ Entry.ClosedBy
            (filledEntries scaleOutFifty
              [flatCandle 0, flatCandle 1, spikeCandle 2, flatCandle 3]) segments := by
  have hfit : scaleOutFifty.strategy.exit.PartialsFit :=
    partialsFit_of_sum_le (by
      norm_num [scaleOutFifty, scaleOut, partialAt, ExitRules.partialPercents])
  have hrun : scaleOutFifty.Runnable 4 := by
    refine ⟨by norm_num [scaleOutFifty, scaleOut], by norm_num [scaleOutFifty, scaleOut],
      by simp [scaleOutFifty, scaleOut], ?_, by simp [scaleOutFifty, scaleOut]⟩
    intro c hc
    rw [mem_singleton.1 hc]
    trivial
  have hlow : ∀ c ∈ [flatCandle 0, flatCandle 1, spikeCandle 2, flatCandle 3], 0 < c.low := by
    norm_num [flatCandle, spikeCandle]
  obtain ⟨hreturns, hclosed⟩ := filled_entries_closed_once scaleOutFifty
    [flatCandle 0, flatCandle 1, spikeCandle 2, flatCandle 3] hfit
  obtain ⟨r, hr⟩ := hreturns (by simp) hlow hrun
  obtain ⟨segments, htrades, hsegments⟩ := hclosed r hr
  exact ⟨by decide +kernel, r, segments, hr, htrades, hsegments⟩

def oClock (hours : Fin 100) : HhMm := ⟨hours, 0⟩

def midnight : HhMm := oClock 0

def overnight : Condition := .time ⟨.between, oClock 22, some (oClock 6), by simp⟩

/-- Digits that name no time. -/
def noTime : HhMm := ⟨99, 99⟩

/-- A window around midnight, a time that is none, partials of 130 percent, an entry at zero, no
bars. -/
theorem filled_entries_closed_once_raised :
    simulate (scaleOut overnight rfl []) [flatCandle 0, flatCandle 1]
        = .error (.wrapAround (oClock 22) (oClock 6))
      ∧ simulate (scaleOut (.time ⟨.after, noTime, none, by simp⟩) rfl [])
          [flatCandle 0, flatCandle 1] = .error (.invalidTime noTime)
      ∧ simulate (scaleOut anyPrice rfl
          [partialAt 60 (by norm_num), partialAt 70 (by norm_num)])
          [flatCandle 0, flatCandle 1, spikeCandle 2] = .error (.overExit 70 (2 / 5))
      ∧ simulate (scaleOut anyPrice rfl []) [flatCandle 0, flatCandle 1, zeroCandle 2]
        = .error (.entryPrice 0)
      ∧ simulate (scaleOut anyPrice rfl []) [] = .error .noCandles := by
  refine ⟨?_, ?_, ?_, ?_, rfl⟩ <;> decide +kernel

end TradingBridge.StrategyEngine
