import TradingBridge.ExpiryBackstop

/-!
# When the backstop fires

The bars that could be read in the window are those of its first day, today, where no bar is from
the future. With one of them stored there is coverage, every weekday to come has no bar and counts
as a holiday, and the sweep fires whatever the distance to the expiry; without one the weekdays are
counted. And it fires on live and paper positions alike.
-/

namespace TradingBridge.Backstop

open List

section Window

variable {candles : List HistoricalCandle} {today expiry : ℤ}

def barToday (candles : List HistoricalCandle) (today : ℤ) : Bool :=
  candles.any fun c => c.timeframe = "1d" ∧ dateOf c.timestamp = today

def NoFutureBars (candles : List HistoricalCandle) (today : ℤ) : Prop :=
  ∀ c ∈ candles, c.timeframe = "1d" → dateOf c.timestamp ≤ today

theorem mem_daysBetween {start stop d : ℤ} : d ∈ daysBetween start stop ↔ start < d ∧ d ≤ stop := by
  simp only [daysBetween, mem_map, mem_range]
  constructor
  · rintro ⟨i, hi, rfl⟩
    omega
  · rintro ⟨hlt, hle⟩
    exact ⟨(d - start - 1).toNat, by omega, by omega⟩

theorem mem_dailyBars (hpast : NoFutureBars candles today) (hexpiry : today < expiry) {t : ℤ} :
    t ∈ dailyBars candles today expiry
      ↔ ∃ c ∈ candles, (c.timeframe = "1d" ∧ dateOf c.timestamp = today) ∧ c.timestamp = t := by
  simp only [dailyBars, mem_map, mem_filter, decide_eq_true_eq]
  refine exists_congr fun c => ?_
  rw [and_assoc]
  refine and_congr_right fun hc => and_congr_left fun _ => and_congr_right fun hdaily => ?_
  have hle := hpast c hc hdaily
  unfold dateOf secondsPerDay at *
  omega

theorem dailyBars_isEmpty (hpast : NoFutureBars candles today) (hexpiry : today < expiry) :
    (dailyBars candles today expiry).isEmpty = !barToday candles today := by
  rw [Bool.eq_iff_iff, List.isEmpty_iff, eq_nil_iff_forall_not_mem]
  simp only [mem_dailyBars hpast hexpiry, not_exists]
  simp only [barToday, Bool.not_eq_true', any_eq_false, decide_eq_true_eq]
  exact ⟨fun h c hc hbar => h _ c ⟨hc, hbar, rfl⟩, fun h _ c hc => h c hc.1 hc.2.1⟩

theorem sessions_of_barToday (hpast : NoFutureBars candles today) (hexpiry : today < expiry)
    (hbar : barToday candles today = true) :
    sessionsToExpiry today expiry ((holidayWindow candles none today expiry).getD []) = 0 := by
  have hrows := dailyBars_isEmpty hpast hexpiry
  rw [hbar] at hrows
  unfold sessionsToExpiry tradingDaysBetween holidayWindow deriveHolidaysFromCandles
  simp only [if_pos hexpiry, hrows, Option.getD_some, Bool.not_true, Bool.false_eq_true, if_false]
  rw [countP_eq_zero]
  intro d hd htrading
  simp only [isTradingDay, decide_eq_true_eq, mem_filter, not_and] at htrading
  obtain ⟨hweekday, hholiday⟩ := htrading
  refine hholiday hd hweekday fun hmem => ?_
  obtain ⟨t, ht, hdate⟩ := mem_map.1 hmem
  obtain ⟨c, -, ⟨-, htoday⟩, rfl⟩ := (mem_dailyBars hpast hexpiry).1 ht
  have := (mem_daysBetween.1 hd).1
  omega

theorem window_of_no_barToday (hpast : NoFutureBars candles today)
    (h : today < expiry → barToday candles today = false) :
    holidayWindow candles none today expiry = none := by
  unfold holidayWindow
  split_ifs with hexpiry
  · rw [deriveHolidaysFromCandles, dailyBars_isEmpty hpast hexpiry, h hexpiry]
    rfl
  · rfl

end Window

def weekdaysLeft (today expiry : ℤ) : ℕ := tradingDaysBetween today expiry []

def Due (today expiry : ℤ) : Prop := expiry < today ∨ weekdaysLeft today expiry ≤ 2

/-- The sweep finds due what is due, and any contract to come if a bar of today is stored. -/
theorem backstopDue_iff {candles : List HistoricalCandle} {today expiry : ℤ}
    (hpast : NoFutureBars candles today) :
    backstopDue today expiry ((holidayWindow candles none today expiry).getD []) = true
      ↔ Due today expiry ∨ today < expiry ∧ barToday candles today = true := by
  unfold backstopDue Due backstopSessions
  rw [decide_eq_true_eq]
  by_cases h : today < expiry ∧ barToday candles today = true
  · rw [sessions_of_barToday hpast h.1 h.2]
    simp [h]
  · have hbar : today < expiry → barToday candles today = false := fun hexpiry => by
      simpa using fun hbar => h ⟨hexpiry, hbar⟩
    rw [window_of_no_barToday hpast hbar]
    simp only [h, or_false]
    rfl

theorem sweepPositions_snd (expiryFor : String → Option ℤ) (candles : List HistoricalCandle)
    (holidays : Option (List ℤ)) (now : ℤ) (positions : List FuturesPosition)
    (result : SweepResult) {i : ℕ} {position : FuturesPosition}
    (h : positions[i]? = some position) (hswept : isSwept position = true) :
    ∃ result', (sweepPositions expiryFor candles holidays now result positions).2[i]?
      = some (sweepPosition expiryFor candles holidays now result' position).2 := by
  induction positions generalizing i result with
  | nil => cases h
  | cons p positions ih =>
    cases i with
    | zero =>
      obtain rfl : p = position := Option.some.inj h
      refine ⟨result, ?_⟩
      simp only [sweepPositions, hswept]
      rfl
    | succ i =>
      exact ih _ h

/-- The sweep closes the due positions only, and no live one, exactly if no bar of today is stored
with more than two weekdays left, and a live position is not due. -/
theorem sweep_exits_iff (expiryFor : String → Option ℤ) (candles : List HistoricalCandle)
    (now : ℤ) (live : StrategyId → Prop) (positions : List FuturesPosition)
    (hpast : NoFutureBars candles (todayIst now)) (i : ℕ) (position : FuturesPosition)
    (hposition : positions[i]? = some position) (hopen : isSwept position = true) (expiry : ℤ)
    (hexpiry : expiryFor position.symbol = some expiry) :
    ∃ position', (sweepExpiryBackstop expiryFor candles none now true positions).2[i]?
        = some position'
      ∧ (((position'.status = .closed ↔ Due (todayIst now) expiry)
          ∧ (live position.strategyId → position'.status ≠ .closed))
        ↔ ((barToday candles (todayIst now) = true →
            expiry ≤ todayIst now ∨ weekdaysLeft (todayIst now) expiry ≤ 2)
          ∧ (live position.strategyId →
            todayIst now ≤ expiry ∧ 2 < weekdaysLeft (todayIst now) expiry))) := by
  obtain ⟨result, hsweep⟩ := sweepPositions_snd expiryFor candles none now positions
    ⟨"swept", (positions.filter isSwept).length, 0, 0, 0, none⟩ hposition hopen
  refine ⟨_, hsweep, ?_⟩
  have hstatus : (sweepPosition expiryFor candles none now result position).2.status = .closed
      ↔ Due (todayIst now) expiry
        ∨ todayIst now < expiry ∧ barToday candles (todayIst now) = true := by
    rw [← backstopDue_iff hpast]
    unfold sweepPosition
    simp only [hexpiry]
    split_ifs with hdue
    · simp [hdue, forceExit]
    · have hne : position.status ≠ .closed := by
        intro hclosed
        simp [isSwept, hclosed] at hopen
      simp [hdue, hne]
  rw [Ne, hstatus]
  unfold Due
  constructor
  · rintro ⟨hiff, hlive⟩
    refine ⟨fun hbar => ?_, fun hl => ?_⟩
    · by_contra hfar
      push Not at hfar
      have hdue := hiff.1 (Or.inr ⟨hfar.1, hbar⟩)
      omega
    · have hnot := hlive hl
      push Not at hnot
      exact hnot.1
  · rintro ⟨hbar, hlive⟩
    refine ⟨⟨?_, Or.inl⟩, fun hl => ?_⟩
    · rintro (hdue | ⟨hlt, htoday⟩)
      · exact hdue
      · have := hbar htoday
        omega
    · rintro (hdue | ⟨hlt, htoday⟩)
      · have := hlive hl
        omega
      · have := hbar htoday
        have := hlive hl
        omega

/-- A position in a September contract, on Monday the 10th of August. -/
def septemberPosition : FuturesPosition :=
  ⟨1, 1, "BSE-SEP2026-FUT", .opened, 400, none, none, none, none, []⟩

/-- Ten in the morning UTC of that day, and the bar of the day, opened a quarter to four. -/
def augustTenth : ℤ := 739838 * 86400 + 36000

def augustBar : HistoricalCandle := ⟨"1d", 739838 * 86400 + 13500⟩

/-- With that one bar the sweep closes the position thirty-six weekdays early. -/
theorem sweep_fires_early : weekdaysLeft (todayIst augustTenth) 739888 = 36
      ∧ (sweepExpiryBackstop (fun _ => some 739888) [augustBar] none augustTenth true
        [septemberPosition]).2.map (·.status) = [.closed] := by
  decide +kernel

/-- Without the bar it stays open. -/
theorem sweep_exits_iff_no_bar : ∃ position',
    (sweepExpiryBackstop (fun _ => some 739888) [] none augustTenth true
      [septemberPosition]).2[0]? = some position'
    ∧ (position'.status = .closed ↔ Due (todayIst augustTenth) 739888) := by
  obtain ⟨position', hposition', hiff⟩ := sweep_exits_iff (fun _ => some 739888) [] augustTenth
    (fun _ => True) [septemberPosition] nofun 0 septemberPosition rfl (by decide +kernel) 739888
    rfl
  exact ⟨position', hposition', (hiff.2 ⟨nofun, fun _ => by decide +kernel⟩).1⟩

end TradingBridge.Backstop
