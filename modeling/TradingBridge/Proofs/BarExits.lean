import TradingBridge.Proofs.ClosedOnce

/-!
# The exits of one bar

The exit engine tests each level on one side of the bar only, so a bar that opens beyond a level
fills it at a price that was not traded. The prices are traded exactly when no configured level
lies beyond the bar. A partial is booked under its percentage, so of two crossed partials with one
percentage only the first is booked.
-/

namespace TradingBridge.StrategyEngine

open Fallible List

section Prices

variable {rules : ExitRules} {position : PositionState} {v : BarView} {events : List ExitEvent}
  {bar : Candle} {side : Side} {level : ℚ} {reverse : Bool}

def Candle.Traded (bar : Candle) (price : ℚ) : Prop := bar.low ≤ price ∧ price ≤ bar.high

theorem traded_of_crossedLong : (barCrossedLong side bar level = true → bar.Traded level)
    ↔ barCrossedShort side bar level = true := by
  have hbar := bar.open_mem.1.trans bar.open_mem.2
  cases side <;> simp [barCrossedLong, barCrossedShort]
  · exact ⟨fun h => (le_or_gt level bar.high).elim (fun hl => (h hl).1) fun hl => hbar.trans hl.le,
      fun h hl => ⟨h, hl⟩⟩
  · exact ⟨fun h => (le_or_gt bar.low level).elim (fun hl => (h hl).2) fun hl => hl.le.trans hbar,
      fun h hl => ⟨hl, h⟩⟩

theorem traded_of_crossedShort : (barCrossedShort side bar level = true → bar.Traded level)
    ↔ barCrossedLong side bar level = true := by
  cases side
  · exact @traded_of_crossedLong bar .sell level
  · exact @traded_of_crossedLong bar .buy level

/-- The bar has not left a level behind: a target or partial on the side of the entry, a stop on
the other. -/
structure InReach (rules : ExitRules) (position : PositionState) (bar : Candle) : Prop where
  target : ∀ pct ∈ rules.targetPercent,
    barCrossedShort position.side bar (levelAbove position pct) = true
  partials : ∀ p ∈ rules.partialExits,
    barCrossedShort position.side bar (levelAbove position p.targetPercent) = true
  stopLoss : ∀ pct ∈ rules.stopLossPercent,
    barCrossedLong position.side bar (levelBelow position pct) = true
  trailing : rules.trailingStopPercent ≠ none → ∀ trail ∈ position.trailingStopPrice,
    barCrossedLong position.side bar trail = true

/-- Every exit is filled at a traded price exactly when the bar has left no level behind. -/
theorem exit_prices_traded_iff (hopen : position.isOpen = true)
    (h : evaluateExit position rules v reverse = .ok events) :
    (∀ e ∈ events, v.current.Traded e.price) ↔ InReach rules position v.current := by
  have hfires := fun e => (reports_evaluateExit hopen h e).1
  simp only [hfires]
  constructor
  · intro hall
    refine ⟨fun pct hpct => traded_of_crossedLong.1 fun hc => hall _ (.inl ⟨pct, hpct, hc, rfl⟩),
      fun p hp => traded_of_crossedLong.1 fun hc => ?_,
      fun pct hpct => traded_of_crossedShort.1 fun hc =>
        hall _ (.inr (.inl ⟨pct, hpct, hc, rfl⟩)), fun hpct trail htrail => ?_⟩
    · rw [← zipIdx_map_fst 1 rules.partialExits] at hp
      obtain ⟨q, hq, rfl⟩ := mem_map.1 hp
      exact hall _ (.inr (.inr (.inr (.inl ⟨q, hq, hc, rfl⟩))))
    · obtain ⟨pct, hpct⟩ := Option.ne_none_iff_exists'.1 hpct
      exact traded_of_crossedShort.1 fun hc =>
        hall _ (.inr (.inr (.inl ⟨pct, trail, hpct, htrail, hc, rfl⟩)))
  · rintro hreach e (⟨pct, hpct, hc, rfl⟩ | ⟨pct, hpct, hc, rfl⟩ |
      ⟨pct, trail, hpct, htrail, hc, rfl⟩ | ⟨p, hp, hc, rfl⟩ | ⟨c, -, -, rfl⟩ | ⟨-, rfl⟩ |
      ⟨time, -, -, rfl⟩)
    · exact traded_of_crossedLong.2 (hreach.target pct hpct) hc
    · exact traded_of_crossedShort.2 (hreach.stopLoss pct hpct) hc
    · exact traded_of_crossedShort.2 (hreach.trailing (by simp [hpct]) trail htrail) hc
    · exact traded_of_crossedLong.2 (hreach.partials p.1 (fst_mem_of_mem_zipIdx hp)) hc
    · exact v.current.close_mem
    · exact v.current.close_mem
    · exact v.current.close_mem

/-- A target at five percent and a stop at ten. -/
def bracket : ExitRules :=
  ⟨some ⟨5, by norm_num⟩, some ⟨10, by norm_num⟩, none, [], none, [], false, by simp⟩

def longAt (price : ℚ) : PositionState :=
  ⟨true, .buy, price, ⟨0, some 0⟩, 1, 1, price, price, none, []⟩

/-- Bought at 200, with the price at 100 the next day, the stop fills at 180. -/
theorem gap_fills_at_stop : evaluateExit (longAt 200) bracket ⟨flatCandle 1, none, [], none⟩ false
      = .ok [⟨.stopLoss, 100, 180, .stopLoss 10⟩] ∧ ¬ (flatCandle 1).Traded 180 := by
  unfold Candle.Traded
  decide +kernel

theorem spike_fills_at_target : (spikeCandle 1).Traded 105 := by
  have h : evaluateExit (longAt 100) bracket ⟨spikeCandle 1, none, [], none⟩ false
      = .ok [⟨.target, 100, 105, .target 5⟩] := by decide +kernel
  refine (exit_prices_traded_iff rfl h).2 ⟨?_, ?_, ?_, ?_⟩ _ (mem_singleton_self _)
  · decide +kernel
  · decide +kernel
  · decide +kernel
  · decide +kernel

end Prices

section Partials

variable {inp : SimInput} {rules : ExitRules} {bars : List Candle} {bar prior : Candle} {i : ℕ}
  {s s' : SimState} {p p' : PositionState} {ctx : ExitContext} {b b' : ExitBooking}
  {event : ExitEvent} {mode : AmbiguityMode} {d : PartialExit}

/-- The states of a run while one position is open, with the bars since its entry. -/
inductive StaysOpen (inp : SimInput) : List Candle → SimState → Prop
  | entered {i : ℕ} {prior bar : Candle} {s s' : SimState} (hflat : s.position = none)
      (hbar : simulateBar inp i prior bar s = .ok s') (hopen : s'.position ≠ none) :
      StaysOpen inp [bar] s'
  | next {i : ℕ} {prior bar : Candle} {bars : List Candle} {s s' : SimState}
      (h : StaysOpen inp bars s) (hbar : simulateBar inp i prior bar s = .ok s')
      (hopen : s'.position ≠ none) : StaysOpen inp (bar :: bars) s'

def CrossedBy (bars : List Candle) (p : PositionState) (d : PartialExit) : Prop :=
  ∃ bar ∈ bars, barCrossedLong p.side bar (levelAbove p d.targetPercent) = true

/-- The reason of a declared partial's event names its place in the list. -/
def noteOf (d : PartialExit × ℕ) : EventReason := .partly d.2 d.1.qtyPercent d.1.targetPercent

def PositionState.BookedOnce (p : PositionState) (d : PartialExit × ℕ) : Prop :=
  (p.partialExitsDone.map PartialExitRecord.reason).count (noteOf d) = 1

/-- The records are of declared partials that were crossed, none close to another, and each
crossed partial is close to one of them. -/
structure Booked (rules : ExitRules) (bars : List Candle) (p : PositionState) : Prop where
  declared : ∀ r ∈ p.partialExitsDone, ∃ d ∈ rules.partialExits.zipIdx 1,
    CrossedBy bars p d.1 ∧ r.qtyPercent = d.1.qtyPercent ∧ r.reason = noteOf d
  apart : Apart p.bookedPercents
  covered : ∀ d ∈ rules.partialExits.zipIdx 1, CrossedBy bars p d.1 →
    ∃ r ∈ p.partialExitsDone, isClose r.qtyPercent d.1.qtyPercent = true

theorem isClose_comm (x y : ℚ) : isClose x y = isClose y x := by
  unfold isClose
  rw [abs_sub_comm, max_comm]

theorem crossedBy_congr (hside : p'.side = p.side) (hprice : p'.entryPrice = p.entryPrice) :
    CrossedBy bars p' d ↔ CrossedBy bars p d := by
  simp [CrossedBy, levelAbove, hside, hprice]

theorem Booked.congr (h : Booked rules bars p) (hside : p'.side = p.side)
    (hprice : p'.entryPrice = p.entryPrice) (hdone : p'.partialExitsDone = p.partialExitsDone) :
    Booked rules bars p' := by
  refine ⟨?_, ?_, ?_⟩
  · simpa only [hdone, crossedBy_congr hside hprice] using h.declared
  · simpa [PositionState.bookedPercents, hdone] using h.apart
  · simpa only [hdone, crossedBy_congr hside hprice] using h.covered

theorem bookEvent_records (h : bookEvent ctx event b = .ok b') :
    b'.position.side = b.position.side ∧ b'.position.entryPrice = b.position.entryPrice
      ∧ ((b'.position.partialExitsDone = b.position.partialExitsDone
          ∧ (event.exitType = .partly → partialDone event b.position = true))
        ∨ (event.exitType = .partly ∧ partialDone event b.position = false
          ∧ ∃ r : PartialExitRecord, r.qtyPercent = event.qtyPercent ∧ r.reason = event.reason
            ∧ b'.position.partialExitsDone = b.position.partialExitsDone ++ [r])) := by
  unfold bookEvent at h
  split_ifs at h with hpartly hdone
  · cases h
    exact ⟨rfl, rfl, .inl ⟨rfl, fun _ => hdone⟩⟩
  · obtain ⟨-, -, -, -, -, -, -, rfl⟩ := bookPartial_eq_ok.1 h
    exact ⟨rfl, rfl, .inr ⟨hpartly, Bool.eq_false_iff.2 hdone, _, rfl, rfl, rfl⟩⟩
  · obtain ⟨-, -, -, rfl⟩ := bookFull_eq_ok.1 h
    simp only [ExitBooking.add, closePosition]
    split_ifs <;> simp [hpartly]

/-- The records a booking adds are of its partials, and leave none of them undone if the position
is still open. -/
theorem bookEvents_records : ∀ {events : List ExitEvent} {b b' : ExitBooking},
    bookEvents ctx events b = .ok b' → b'.position.isOpen = true →
      b'.position.side = b.position.side ∧ b'.position.entryPrice = b.position.entryPrice
        ∧ (Apart b.position.bookedPercents → Apart b'.position.bookedPercents)
        ∧ b.position.partialExitsDone ⊆ b'.position.partialExitsDone
        ∧ (∀ r ∈ b'.position.partialExitsDone, r ∈ b.position.partialExitsDone
          ∨ ∃ e ∈ events, e.exitType = .partly ∧ r.qtyPercent = e.qtyPercent
            ∧ r.reason = e.reason)
        ∧ ∀ e ∈ events, e.exitType = .partly → partialDone e b'.position = true
  | [], b, b', h, _ => by
    cases h
    exact ⟨rfl, rfl, id, fun _ => id, fun _ => .inl, nofun⟩
  | event :: events, b, b', h, hopen => by
    unfold bookEvents at h
    split_ifs at h with hfirst
    · obtain ⟨b₁, hb₁, h⟩ := bind_eq_ok.1 h
      obtain ⟨hside, hprice, hapart, hsub, hfrom, hdone⟩ := bookEvents_records h hopen
      obtain ⟨hside₁, hprice₁, hrecords⟩ := bookEvent_records hb₁
      refine ⟨hside.trans hside₁, hprice.trans hprice₁, ?_⟩
      have hgrown : partialDone event b₁.position = true →
          partialDone event b'.position = true := by
        unfold partialDone
        simp only [any_eq_true]
        rintro ⟨r, hr, hclose⟩
        exact ⟨r, hsub hr, hclose⟩
      simp only [forall_mem_cons, exists_mem_cons_iff]
      rcases hrecords with ⟨hsame, hskip⟩ | ⟨hpartly, hnew, r, hqty, hreason, hadded⟩
      · simp only [PositionState.bookedPercents, partialDone, hsame] at hapart hsub hfrom hgrown
        refine ⟨hapart, hsub, fun r hr => (hfrom r hr).imp_right .inr, ?_, hdone⟩
        exact fun hpartly => hgrown (hskip hpartly)
      · refine ⟨fun h => hapart ?_, fun q hq => hsub ?_, fun q hq => ?_, fun _ => hgrown ?_, hdone⟩
        · have := apart_of_not_partialDone h hnew
          rwa [PositionState.bookedPercents, hadded, map_append, map_singleton, hqty]
        · rw [hadded]
          exact mem_append_left _ hq
        · rcases hfrom q hq with hq | hq
          · rw [hadded, mem_append, mem_singleton] at hq
            exact hq.imp_right fun hq => .inl ⟨hpartly, by rw [hq, hqty], by rw [hq, hreason]⟩
          · exact .inr (.inr hq)
        · simp [partialDone, hadded, hqty, isClose_self]
    · cases h
      exact absurd hopen hfirst

theorem partialFires_of_partly {v : BarView} (h : Fires rules p v false event)
    (hpartly : event.exitType = .partly) : PartialFires p v 1 rules.partialExits event := by
  rcases h with ⟨_, -, -, rfl⟩ | ⟨_, -, -, rfl⟩ | ⟨_, _, -, -, -, rfl⟩ | h | ⟨_, -, -, rfl⟩ |
    ⟨-, rfl⟩ | ⟨_, -, -, rfl⟩
  · cases hpartly
  · cases hpartly
  · cases hpartly
  · exact h
  · cases hpartly
  · cases hpartly
  · cases hpartly

theorem Booked.bookEvents {v : BarView} {events : List ExitEvent} (h : Booked rules bars p)
    (hopen : p.isOpen = true) (hevents : evaluateExit p rules v false = .ok events)
    (hbook : bookEvents ctx (prioritiseEvents mode events) ⟨p, [], 0⟩ = .ok b')
    (hstill : b'.position.isOpen = true) : Booked rules (v.current :: bars) b'.position := by
  obtain ⟨hside, hprice, hapart, hsub, hfrom, hdone⟩ := bookEvents_records hbook hstill
  have hfires := fun e => (reports_evaluateExit hopen hevents e).1
  refine ⟨fun r hr => ?_, hapart h.apart, fun d hd hcrossed => ?_⟩
  · simp only [crossedBy_congr hside hprice]
    rcases hfrom r hr with hr | ⟨e, he, hpartly, hqty, hreason⟩
    · obtain ⟨d, hd, ⟨bar, hbar, hc⟩, heq⟩ := h.declared r hr
      exact ⟨d, hd, ⟨bar, mem_cons_of_mem _ hbar, hc⟩, heq⟩
    · obtain ⟨d, hd, hc, rfl⟩ :=
        partialFires_of_partly ((hfires e).1 (mem_prioritiseEvents.1 he)) hpartly
      exact ⟨d, hd, ⟨v.current, mem_cons_self, hc⟩, hqty, hreason⟩
  · obtain ⟨bar, hbar, hc⟩ := (crossedBy_congr hside hprice).1 hcrossed
    rcases mem_cons.1 hbar with rfl | hbar
    · have hmem := (hfires _).2 (.inr (.inr (.inr (.inl ⟨d, hd, hc, rfl⟩))))
      simpa [partialDone] using hdone _ (mem_prioritiseEvents.2 hmem) rfl
    · obtain ⟨r, hr, hclose⟩ := h.covered d hd ⟨bar, hbar, hc⟩
      exact ⟨r, hsub hr, hclose⟩

/-- What holds of the position of a state, if it has one. -/
def SimState.Books (inp : SimInput) (bars : List Candle) (s : SimState) : Prop :=
  ∀ p, s.position = some p → p.isOpen = true ∧ Booked inp.strategy.exit bars p

theorem SimState.Books.exited (hs : s.Books inp bars) (h : exitStep inp i prior bar s = .ok s') :
    s'.Books inp (bar :: bars) := by
  rcases exitStep_eq_ok.1 h with ⟨hflat, rfl⟩ | ⟨p, v, events, hp, hv, hevents, hbook⟩
  · intro p hp
    rw [hflat] at hp
    cases hp
  obtain ⟨hopen, hbooked⟩ := hs p hp
  rw [← (barView_eq_ok hv).1]
  rcases hbook with ⟨rfl, rfl⟩ | ⟨booked, -, hbook, rfl⟩
  · rintro _ hp'
    obtain rfl := Option.some.inj (hp.symm.trans hp')
    have hnone : bookEvents ⟨bar, [], inp.costs, 0⟩ (prioritiseEvents inp.mode []) ⟨p, [], 0⟩
        = .ok ⟨p, [], 0⟩ := rfl
    exact ⟨hopen, hbooked.bookEvents hopen hevents hnone hopen⟩
  · intro p' hp'
    simp only [SimState.exited] at hp'
    split_ifs at hp' with hstill
    cases hp'
    exact ⟨hstill, hbooked.bookEvents hopen hevents hbook hstill⟩

theorem SimState.Books.updated (hs : s.Books inp bars) : (updateStep inp bar s).Books inp bars := by
  intro p hp
  obtain ⟨q, hq, rfl⟩ := Option.map_eq_some_iff.1 hp
  obtain ⟨hside, hopen, hprice, -, -, -, hdone⟩ :=
    updateOnCandle_fields q bar inp.strategy.exit.trailingStopPercent
  obtain ⟨hq, hbooked⟩ := hs q hq
  exact ⟨hopen.trans hq, hbooked.congr hside hprice hdone⟩

theorem StaysOpen.books (h : StaysOpen inp bars s) : s.position ≠ none ∧ s.Books inp bars := by
  induction h with
  | @entered i prior bar s s' hflat hbar hopen =>
    refine ⟨hopen, ?_⟩
    obtain ⟨filled, exited, entered, hfill, hexit, hentry, rfl⟩ := simulateBar_eq_ok.1 hbar
    have hfilled : filled.Books inp [] := by
      rcases fillStep_eq_ok.1 hfill with ⟨-, rfl⟩ | ⟨pending, side, -, -, -, -, -, rfl⟩
      · exact fun p hp => nomatch hflat.symm.trans hp
      · rintro _ ⟨⟩
        exact ⟨rfl, ⟨nofun, .nil, fun _ _ ⟨_, hbar, _⟩ => nomatch hbar⟩⟩
    rcases entryStep_cases hentry with rfl | ⟨_, _, hnone, -, -, -, -, rfl⟩
    · exact (hfilled.exited hexit).updated
    · exact absurd hnone hopen
  | @next i prior bar bars s s' _ hbar hopen ih =>
    refine ⟨hopen, ?_⟩
    obtain ⟨filled, exited, entered, hfill, hexit, hentry, rfl⟩ := simulateBar_eq_ok.1 hbar
    rcases fillStep_eq_ok.1 hfill with ⟨-, rfl⟩ | ⟨_, _, -, hnone, -⟩
    · rcases entryStep_cases hentry with rfl | ⟨_, _, hnone, -, -, -, -, rfl⟩
      · exact (SimState.Books.exited (s := rollStep bar s) ih.2 hexit).updated
      · exact absurd hnone hopen
    · exact absurd hnone ih.1

theorem Booked.qtyPercent {r : PartialExitRecord} {d : PartialExit × ℕ} (h : Booked rules bars p)
    (hr : r ∈ p.partialExitsDone) (hnote : r.reason = noteOf d) :
    r.qtyPercent = d.1.qtyPercent := by
  obtain ⟨e, -, -, hqty, heq⟩ := h.declared r hr
  rw [hqty, (EventReason.partly.inj (heq.symm.trans hnote)).2.1]

theorem Booked.nodup (h : Booked rules bars p) :
    (p.partialExitsDone.map PartialExitRecord.reason).Nodup := by
  refine pairwise_map.2 ((pairwise_map.1 h.apart).imp_of_mem ?_)
  intro r q hr hq hclose heq
  obtain ⟨d, -, -, hqty, hnote⟩ := h.declared q hq
  rw [h.qtyPercent hr (heq.trans hnote), hqty, isClose_self] at hclose
  cases hclose

theorem Booked.bookedOnce_iff (h : Booked rules bars p) (d : PartialExit × ℕ) :
    p.BookedOnce d ↔ ∃ r ∈ p.partialExitsDone, r.reason = noteOf d := by
  rw [PositionState.BookedOnce, h.nodup.count]
  simp

/-- Each crossed partial is booked once exactly when no two of them have close percentages. -/
theorem partials_booked_once_iff (h : StaysOpen inp bars s) (hp : s.position = some p) :
    (∀ d ∈ inp.strategy.exit.partialExits.zipIdx 1, CrossedBy bars p d.1 → p.BookedOnce d)
      ↔ ∀ d ∈ inp.strategy.exit.partialExits.zipIdx 1, CrossedBy bars p d.1 →
        ∀ e ∈ inp.strategy.exit.partialExits.zipIdx 1, CrossedBy bars p e.1 →
          isClose d.1.qtyPercent e.1.qtyPercent = true → d.2 = e.2 := by
  have hb := (h.books.2 p hp).2
  simp only [hb.bookedOnce_iff]
  constructor
  · intro hall d hd hdc e he hec hclose
    obtain ⟨r, hr, hrnote⟩ := hall d hd hdc
    obtain ⟨q, hq, hqnote⟩ := hall e he hec
    by_contra hne
    have hrq : r ≠ q := by
      rintro rfl
      exact hne (EventReason.partly.inj (hrnote.symm.trans hqnote)).1
    have : Std.Symm fun x y : PartialExitRecord => isClose x.qtyPercent y.qtyPercent = false :=
      ⟨fun x y hxy => (isClose_comm y.qtyPercent x.qtyPercent).trans hxy⟩
    have hfar := (pairwise_map.1 hb.apart).forall hr hq hrq
    rw [hb.qtyPercent hr hrnote, hb.qtyPercent hq hqnote, hclose] at hfar
    cases hfar
  · intro hone d hd hdc
    obtain ⟨r, hr, hclose⟩ := hb.covered d hd hdc
    obtain ⟨e, he, hec, hqty, hnote⟩ := hb.declared r hr
    rw [hqty] at hclose
    have hidx := hone e he hec d hd hdc hclose
    have hsame := (mem_zipIdx_iff_le_and_getElem?_sub.1 he).2
    rw [hidx, (mem_zipIdx_iff_le_and_getElem?_sub.1 hd).2] at hsame
    obtain rfl : e = d := Prod.ext (Option.some.inj hsame).symm hidx
    exact ⟨r, hr, hnote⟩

/-- Two levels that book thirty percent each. -/
def twoLevels (first second : ℚ) (h : 0 < first ∧ 0 < second) : SimInput :=
  scaleOut anyPrice anyPrice_ids [⟨30, first, by norm_num, by norm_num, h.1⟩,
    ⟨30, second, by norm_num, by norm_num, h.2⟩]

/-- The bar crosses both levels, 101 and 105, and the second is never booked. -/
theorem second_level_not_booked :
    (simulate (twoLevels 1 5 (by norm_num))
        [flatCandle 0, flatCandle 1, spikeCandle 2, flatCandle 3]).map
        (fun r => r.trades.map Trade.exitReason)
      = .ok [.partly (.partly 1 30 1), .backtestEnd]
      ∧ CrossedBy [spikeCandle 2] (longAt 100)
          (PartialExit.mk 30 5 (by norm_num) (by norm_num) (by norm_num)) := by
  refine ⟨by decide +kernel, spikeCandle 2, mem_singleton_self _, by decide +kernel⟩

theorem fifty_and_thirty_booked : ∃ s p, StaysOpen scaleOutFifty [spikeCandle 2] s
    ∧ s.position = some p ∧ p.BookedOnce (partialAt 50 (by norm_num), 1)
    ∧ p.BookedOnce (partialAt 30 (by norm_num), 2) := by
  have hrun : ∃ s, simulateBars scaleOutFifty 1 (flatCandle 0) [flatCandle 1]
        (startState scaleOutFifty (flatCandle 0)) = .ok s
      ∧ s.position = none ∧ ∃ s', simulateBar scaleOutFifty 2 (flatCandle 1) (spikeCandle 2) s
        = .ok s' ∧ ∃ p ∈ s'.position, barCrossedLong p.side (spikeCandle 2) (levelAbove p 1) := by
    decide +kernel
  obtain ⟨s, -, hflat, s', hbar, p, hp, hcrossed⟩ := hrun
  have hopen : StaysOpen scaleOutFifty [spikeCandle 2] s' :=
    .entered hflat hbar (Option.ne_none_iff_exists'.2 ⟨p, hp⟩)
  have hapart : ∀ d ∈ scaleOutFifty.strategy.exit.partialExits.zipIdx 1,
      ∀ e ∈ scaleOutFifty.strategy.exit.partialExits.zipIdx 1,
        isClose d.1.qtyPercent e.1.qtyPercent = true → d.2 = e.2 := by decide +kernel
  have hbooked := (partials_booked_once_iff hopen hp).2 fun d hd _ e he _ => hapart d hd e he
  have hlevel : ∀ d, d.targetPercent = 1 → CrossedBy [spikeCandle 2] p d := by
    intro d hd
    exact ⟨_, mem_singleton_self _, hd ▸ hcrossed⟩
  exact ⟨s', p, hopen, hp, hbooked _ (.head _) (hlevel _ rfl),
    hbooked _ (.tail _ (.head _)) (hlevel _ rfl)⟩

end Partials

end TradingBridge.StrategyEngine
