import TradingBridge.Proofs.ClosedOnce

/-!
# The risk caps of a backtest

An entry is queued with room under both caps and filled on the next bar. Nothing is traded in
between, and the day's count can only be set back to zero. That count is of the stretch of bars
with one date, so it is the day's where no date comes back.
-/

namespace TradingBridge.StrategyEngine

open List

variable {inp : SimInput} {i : ℕ} {prior bar : Candle} {s s' : SimState}

/-- The losing trades since the last winning one. -/
def losingRun (trades : List Trade) : ℕ :=
  (trades.rtakeWhile fun t => t.pnl ≤ 0).countP fun t => t.pnl < 0

theorem foldl_nextStreak (trades : List Trade) :
    trades.foldl nextStreak 0 = losingRun trades := by
  induction trades using reverseRecOn with
  | nil => rfl
  | append_singleton trades t ih =>
    rw [foldl_concat, ih]
    unfold losingRun nextStreak
    rcases lt_trichotomy t.pnl 0 with h | h | h
    · simp [h, h.le]
    · simp [h]
    · simp [h, h.not_gt]

/-- Flat, and below both caps. -/
structure SimState.Roomy (inp : SimInput) (s : SimState) : Prop where
  flat : s.position = none
  trades : ∀ m ∈ inp.strategy.risk.maxTradesPerDay, s.daily.tradesToday < m
  streak : ∀ k ∈ inp.strategy.risk.maxLossStreak, s.lossStreak < k

theorem roomy_of_not_blocked (hflat : s.position = none) (h : riskBlocked inp s = false) :
    s.Roomy inp := by
  simp only [riskBlocked, evaluateRisk, Bool.or_eq_false_iff, Bool.not_not, any_eq_false,
    mem_append] at h
  refine ⟨hflat, fun m hm => ?_, fun k hk => ?_⟩
  · by_contra hle
    refine h.2 .maxTradesPerDayHit (.inr ?_) rfl
    simp [runtimeMessages, Option.mem_def.1 hm, not_lt.1 hle]
  · by_contra hle
    refine h.2 .lossStreakCapHit (.inr ?_) rfl
    simp [runtimeMessages, Option.mem_def.1 hk, not_lt.1 hle]

/-- An entry is queued with room only, and the streak is that of the log. -/
structure SimState.Counted (inp : SimInput) (s : SimState) : Prop where
  queued : s.pendingEntry ≠ none → s.Roomy inp
  streak : s.lossStreak = losingRun s.trades

theorem filledOn_eq_some {e : Entry} (h : filledOn inp bar s = some e) :
    e.time = bar.timestamp ∧ s.pendingEntry ≠ none := by
  unfold filledOn at h
  split at h
  · rename_i filled hflat hfilled
    rcases fillStep_eq_ok.1 hfilled with ⟨-, rfl⟩ | ⟨pending, side, hpending, -, -, -, -, rfl⟩
    · simp [rollStep, hflat] at h
    · cases h
      exact ⟨rfl, Option.ne_none_iff_exists'.2 ⟨pending, hpending⟩⟩
  · cases h

theorem SimState.Counted.next (hs : s.Counted inp) (h : simulateBar inp i prior bar s = .ok s') :
    s'.Counted inp ∧ s'.daily.currentDay = (rollStep bar s).daily.currentDay
      ∧ s'.daily.tradesToday
        = (rollStep bar s).daily.tradesToday + (filledOn inp bar s).toList.length := by
  obtain ⟨filled, exited, entered, hfilled, hexited, hentered, rfl⟩ := simulateBar_eq_ok.1 h
  rw [filledOn_eq hfilled]
  have hfill : filled.pendingEntry = none ∧ filled.lossStreak = losingRun filled.trades
      ∧ filled.daily.currentDay = (rollStep bar s).daily.currentDay
      ∧ filled.daily.tradesToday = (rollStep bar s).daily.tradesToday + (if s.position = none then
        (filled.position.map PositionState.entry).toList else []).length := by
    rcases fillStep_eq_ok.1 hfilled with ⟨hno, rfl⟩ | ⟨pending, side, -, hflat, -, -, -, rfl⟩
    · refine ⟨by_contra fun hne => hno.elim hne fun hp => hp (hs.queued hne).flat, hs.streak, rfl,
        ?_⟩
      split_ifs with hflat
      · simp [rollStep, hflat]
      · rfl
    · exact ⟨rfl, hs.streak, rfl, by rw [if_pos (show s.position = none from hflat)]; rfl⟩
  obtain ⟨hpending, hstreak, hday, htoday⟩ := hfill
  have hexit : exited.pendingEntry = none ∧ exited.lossStreak = losingRun exited.trades
      ∧ exited.daily.currentDay = filled.daily.currentDay
      ∧ exited.daily.tradesToday = filled.daily.tradesToday := by
    rcases exitStep_eq_ok.1 hexited with ⟨-, rfl⟩ | ⟨position, v, events, -, -, -, ⟨-, rfl⟩ |
      ⟨booked, -, -, rfl⟩⟩
    · exact ⟨hpending, hstreak, rfl, rfl⟩
    · exact ⟨hpending, hstreak, rfl, rfl⟩
    · refine ⟨hpending, ?_, rfl, rfl⟩
      rw [← foldl_nextStreak] at hstreak ⊢
      simp [SimState.exited, hstreak]
  obtain ⟨hpending, hstreak, hday', htoday'⟩ := hexit
  rcases entryStep_cases hentered with rfl | ⟨v, decision, hflat, hroom, -, -, -, rfl⟩
  · exact ⟨⟨fun hne => absurd hpending hne, hstreak⟩, hday'.trans hday, htoday'.trans htoday⟩
  · obtain ⟨hflat, htrades, hbelow⟩ := roomy_of_not_blocked hflat hroom
    exact ⟨⟨fun _ => ⟨hflat, htrades, hbelow⟩, hstreak⟩, hday'.trans hday, htoday'.trans htoday⟩

def fillsOn (day : ℤ) (entries : List Entry) : ℕ := entries.countP (·.time.date = day)

/-- The fills up to now, with the dates of the bars to come. -/
structure WithinCap (inp : SimInput) (m : ℕ) (today : ℤ) (ahead : List ℤ) (fills : List Entry)
    (s : SimState) : Prop where
  counted : s.Counted inp
  current : ∀ day ∈ s.daily.currentDay, day = today
  days : (ahead.destutter' (· ≠ ·) today).Nodup
  fresh : ∀ day ∈ ahead.destutter' (· ≠ ·) today, day ≠ today → fillsOn day fills = 0
  today : fillsOn today fills ≤ s.daily.tradesToday
  capped : ∀ day, fillsOn day fills ≤ m

section Days

variable {m : { n : ℕ // 0 < n }} {today : ℤ} {ahead : List ℤ} {fills : List Entry}

theorem WithinCap.rolled (hm : inp.strategy.risk.maxTradesPerDay = some m)
    (hs : WithinCap inp m today (bar.timestamp.date :: ahead) fills s) :
    (rollStep bar s).daily.currentDay = some bar.timestamp.date
      ∧ fillsOn bar.timestamp.date fills ≤ (rollStep bar s).daily.tradesToday
      ∧ (s.Roomy inp → (rollStep bar s).daily.tradesToday < m)
      ∧ (ahead.destutter' (· ≠ ·) bar.timestamp.date).Nodup
      ∧ ∀ day ∈ ahead.destutter' (· ≠ ·) bar.timestamp.date, day ≠ bar.timestamp.date →
        fillsOn day fills = 0 := by
  obtain ⟨-, hcurrent, hdays, hfresh, htoday, -⟩ := hs
  simp only [rollStep, rollDailyStats]
  by_cases hd : bar.timestamp.date = today
  · rw [destutter'_cons_neg _ (not_not.2 hd.symm), ← hd] at hdays hfresh
    rw [← hd] at htoday hcurrent
    split
    · exact ⟨rfl, htoday, fun hroomy => hroomy.trades m hm, hdays, hfresh⟩
    · rename_i day hday
      obtain rfl := hcurrent day hday
      rw [if_neg (not_not.2 rfl)]
      exact ⟨hday, htoday, fun hroomy => hroomy.trades m hm, hdays, hfresh⟩
  · rw [destutter'_cons_pos _ (Ne.symm hd)] at hdays hfresh
    obtain ⟨hgone, hdays⟩ := nodup_cons.1 hdays
    have hzero := hfresh _ (mem_cons_of_mem _ (mem_destutter' ..)) hd
    have hlater : ∀ day ∈ ahead.destutter' (· ≠ ·) bar.timestamp.date,
        day ≠ bar.timestamp.date → fillsOn day fills = 0 := fun day hday _ =>
      hfresh day (mem_cons_of_mem _ hday) fun h => hgone (h ▸ hday)
    rw [hzero]
    split
    · exact ⟨rfl, Nat.zero_le _, fun hroomy => hroomy.trades m hm, hdays, hlater⟩
    · rename_i day hday
      rw [if_pos (hcurrent day hday ▸ hd)]
      exact ⟨rfl, le_rfl, fun _ => m.2, hdays, hlater⟩

theorem WithinCap.next (hm : inp.strategy.risk.maxTradesPerDay = some m)
    (hs : WithinCap inp m today (bar.timestamp.date :: ahead) fills s)
    (h : simulateBar inp i prior bar s = .ok s') :
    WithinCap inp m bar.timestamp.date ahead (fills ++ (filledOn inp bar s).toList) s' := by
  obtain ⟨hcounted, hday, htrades⟩ := hs.counted.next h
  obtain ⟨hrolled, htoday, hroom, hdays, hfresh⟩ := hs.rolled hm
  have hcurrent : ∀ day ∈ s'.daily.currentDay, day = bar.timestamp.date := by
    rw [hday, hrolled]
    simp
  cases hfilled : filledOn inp bar s with
  | none =>
    rw [hfilled] at htrades
    simp only [Option.toList_none, append_nil]
    exact ⟨hcounted, hcurrent, hdays, hfresh, htrades ▸ htoday, hs.capped⟩
  | some e =>
    obtain ⟨htime, hpending⟩ := filledOn_eq_some hfilled
    have hlt := hroom (hs.counted.queued hpending)
    have hadd : ∀ day, fillsOn day (fills ++ [e])
        = fillsOn day fills + if bar.timestamp.date = day then 1 else 0 := by
      simp [fillsOn, htime]
    simp only [hfilled, Option.toList_some] at htrades ⊢
    refine ⟨hcounted, hcurrent, hdays, fun day hmem hne => ?_, ?_, fun day => ?_⟩
    · rw [hadd, if_neg (Ne.symm hne), hfresh day hmem hne]
    · rw [hadd, if_pos rfl, htrades]
      exact Nat.add_le_add_right htoday 1
    · rw [hadd]
      split_ifs with hd
      · subst hd
        omega
      · exact hs.capped day

theorem WithinCap.over (hm : inp.strategy.risk.maxTradesPerDay = some m) :
    ∀ {bars : List Candle} {i : ℕ} {prior : Candle} {s : SimState} {today : ℤ}
      {fills : List Entry}, WithinCap inp m today (bars.map (·.timestamp.date)) fills s →
      ∀ day, fillsOn day (fills ++ filledOver inp i prior bars s) ≤ m
  | [], _, _, _, _, _, hs, day => by
    rw [filledOver, append_nil]
    exact hs.capped day
  | bar :: bars, i, prior, s, today, fills, hs, day => by
    rw [filledOver]
    split
    · rw [append_nil]
      exact hs.capped day
    · rename_i s' hnext
      rw [← append_assoc]
      exact WithinCap.over hm (hs.next hm hnext) day

end Days

theorem counted_startState (first : Candle) : (startState inp first).Counted inp :=
  ⟨fun h => absurd rfl h, rfl⟩

/-- No more entries are filled on a date than the cap allows, as long as no date comes back once
left, and none after as many losing trades in a row as the other cap. -/
theorem risk_caps_hold (inp : SimInput) (first : Candle) (bars : List Candle) :
    (∀ m, inp.strategy.risk.maxTradesPerDay = some m →
      ((bars.map (·.timestamp.date)).destutter (· ≠ ·)).Nodup →
      ∀ day, fillsOn day (filledEntries inp (first :: bars)) ≤ m)
    ∧ ∀ k, inp.strategy.risk.maxLossStreak = some k → ∀ before bar after s e,
      bars = before ++ bar :: after →
      simulateBars inp 1 first before (startState inp first) = .ok s →
      filledOn inp bar s = some e → losingRun s.trades < k := by
  constructor
  · intro m hm hdays day
    cases bars with
    | nil => exact Nat.zero_le _
    | cons bar bars =>
      have hstart : WithinCap inp m bar.timestamp.date ((bar :: bars).map (·.timestamp.date)) []
          (startState inp first) := by
        refine ⟨counted_startState first, nofun, ?_, fun _ _ _ => rfl, le_rfl,
          fun _ => Nat.zero_le _⟩
        rwa [map_cons, destutter'_cons_neg _ (not_not.2 rfl)]
      exact hstart.over hm day
  · rintro k hk before bar after s e - hrun hfilled
    have hs : s.Counted inp := simulateBars_invariant (fun _ _ _ _ _ hs h => (hs.next h).1)
      (counted_startState first) hrun
    rw [← hs.streak]
    exact (hs.queued (filledOn_eq_some hfilled).2).streak k hk

/-- One trade a day, and none after a loss. -/
def onceADay : SimInput :=
  let inp := scaleOut anyPrice anyPrice_ids [partialAt 100 (by norm_num)]
  { inp with strategy := { inp.strategy with
      risk := ⟨none, some ⟨1, by decide⟩, some ⟨1, by decide⟩⟩ } }

/-- A bar written in the zone an hour ahead, where the next day has begun. -/
def aheadCandle : Candle :=
  { flatCandle 1493 with timestamp := ⟨1493 * minuteMicros, some (60 * minuteMicros)⟩ }

def crossingDays : List Candle :=
  [flatCandle 1430, flatCandle 1431, spikeCandle 1432, aheadCandle, flatCandle 1434]

/-- The bars come in the order of time, and two entries are filled on one date. -/
theorem two_fills_on_returned_day :
    crossingDays.Pairwise (fun c d => c.timestamp.instant < d.timestamp.instant)
      ∧ onceADay.strategy.risk.maxTradesPerDay = some ⟨1, by decide⟩
      ∧ fillsOn 0 (filledEntries onceADay crossingDays) = 2 := by
  decide +kernel

theorem one_fill_on_one_day : fillsOn 0 (filledEntries onceADay
        [flatCandle 0, flatCandle 1, spikeCandle 2, flatCandle 3]) = 1
      ∧ fillsOn 0 (filledEntries onceADay
        [flatCandle 0, flatCandle 1, spikeCandle 2, flatCandle 3]) ≤ 1 :=
  ⟨by decide +kernel, (risk_caps_hold onceADay _ _).1 ⟨1, by decide⟩ rfl (by decide) 0⟩

end TradingBridge.StrategyEngine
