import TradingBridge.Proofs.BacktestSteps
import TradingBridge.StrategyEngine.Calculations

/-!
# No look-ahead

A backtest computes its indicators over the whole history before it runs the first bar. The
exponential average of a history begins with that of each of its beginnings, so with no other
indicator the first bars are run as if there were no later ones.
-/

namespace TradingBridge.StrategyEngine

open Fallible List

variable {n period : ℕ} (values : List ℚ)

theorem emaFrom_take (alpha : ℚ) : ∀ (n : ℕ) (vs : List ℚ) (prev : ℚ),
    emaFrom alpha prev (vs.take n) = (emaFrom alpha prev vs).take n
  | 0, _, _ => rfl
  | _ + 1, [], _ => rfl
  | n + 1, _ :: vs, _ => congrArg (_ :: ·) (emaFrom_take alpha n vs _)

theorem padSeries_ema (hperiod : 0 < period) : padSeries values.length (ema values period)
    = if values.length < period then replicate values.length none
      else
        let seed := (values.take period).sum / period
        replicate (period - 1) none
          ++ some seed :: (emaFrom (2 / (period + 1)) seed (values.drop period)).map some := by
  have hshort : (values = [] ∨ values.length < period) ↔ values.length < period :=
    or_iff_right_of_imp fun h => h ▸ hperiod
  simp only [ema, hshort]
  split_ifs <;> simp [padSeries]

theorem ema_take (hn : n ≤ values.length) (hperiod : 0 < period) :
    padSeries n (ema (values.take n) period)
      = (padSeries values.length (ema values period)).take n := by
  have hlen : (values.take n).length = n := length_take_of_le hn
  have htake := padSeries_ema (values.take n) hperiod
  rw [hlen] at htake
  rw [htake, padSeries_ema values hperiod]
  rcases lt_or_ge n period with hshort | hlong
  · rw [if_pos hshort]
    split_ifs
    · rw [take_replicate, min_eq_left hn]
    · rw [take_append_of_le_length (by simp; omega), take_replicate, min_eq_left (by omega)]
  · have hwarm : min n (period - 1) = period - 1 := by omega
    have hlast : n - (period - 1) = n - period + 1 := by omega
    simp only [hlong.not_gt, (hlong.trans hn).not_gt, if_false, take_append, take_replicate, hwarm,
      length_replicate, hlast, take_succ_cons, take_take, min_eq_left hlong, drop_take,
      emaFrom_take, map_take]

def shorten (n : ℕ) (d : SeriesById) : SeriesById := d.map fun e => (e.1, e.2.take n)

theorem shorten_setKey (d : SeriesById) (key : String) (s : Series) :
    shorten n (setKey d key s) = setKey (shorten n d) key (s.take n) := by
  simp only [setKey, shorten, any_map, Function.comp_def]
  split_ifs
  · simp only [map_map]
    refine map_congr_left fun e _ => ?_
    simp only [Function.comp_apply]
    split_ifs <;> rfl
  · simp

theorem valuesAt_shorten {i : ℕ} (hi : i < n) : ∀ d, valuesAt (shorten n d) i = valuesAt d i
  | [] => rfl
  | (name, s) :: d => by
    have ih := valuesAt_shorten hi d
    simp only [shorten, map_cons, valuesAt, getElem?_take_of_lt hi] at ih ⊢
    rw [ih]

theorem intParam_pos {params : List (String × ParamValue)} {p : ℤ}
    (h : intParam params "period" 20 2 500 = .ok p) : 0 < p.toNat := by
  unfold intParam at h
  split at h
  · split_ifs at h with hin
    cases h
    omega
  · cases h

variable (others : Calculations) {candles : List Candle}

theorem addIndicator_take {cfg : IndicatorConfig} (hema : cfg.type = "ema")
    (hn : n ≤ candles.length) (acc : SeriesById × List String) :
    addIndicator (withEma others) (candles.take n) (acc.map (shorten n) id) cfg
      = (addIndicator (withEma others) candles acc cfg).map (Prod.map (shorten n) id) := by
  simp only [addIndicator, withEma, if_pos hema, length_take_of_le hn, computeEma]
  split_ifs
  · rfl
  · rcases hperiod : intParam cfg.params "period" 20 2 500 with e | period
    · rfl
    · rcases sourceParam cfg.params with e | source
      · rfl
      · have htake := ema_take (candles.map (Candle.price · source))
          ((length_map _).symm ▸ hn) (intParam_pos hperiod)
        rw [length_map] at htake
        rcases cfg.output with _ | output
        · simp [Except.map, shorten_setKey, htake]
        · rfl

theorem addIndicators_take (hn : n ≤ candles.length) : ∀ (cfgs : List IndicatorConfig)
    (acc : SeriesById × List String), (∀ cfg ∈ cfgs, cfg.type = "ema") →
    addIndicators (withEma others) (candles.take n) cfgs (acc.map (shorten n) id)
      = (addIndicators (withEma others) candles cfgs acc).map (Prod.map (shorten n) id)
  | [], _, _ => rfl
  | cfg :: cfgs, acc, hema => by
    have ⟨hcfg, hcfgs⟩ := forall_mem_cons.1 hema
    rw [addIndicators, addIndicators, addIndicator_take others hcfg hn]
    rcases addIndicator (withEma others) candles acc cfg with e | next
    · rfl
    · exact addIndicators_take hn cfgs next hcfgs

theorem simulateBars_shorten (payload : BacktestInput) (d : SeriesById) : ∀ (bars : List Candle)
    (i : ℕ) (prior : Candle) (s : SimState), i + bars.length ≤ n →
    simulateBars (payload.simInput (shorten n d)) i prior bars s
      = simulateBars (payload.simInput d) i prior bars s
  | [], _, _, _, _ => rfl
  | bar :: bars, i, prior, s, h => by
    rw [length_cons] at h
    have hview : barView (payload.simInput (shorten n d)) i prior bar
        = barView (payload.simInput d) i prior bar := by
      simp only [barView, BacktestInput.simInput, valuesAt_shorten (show i < n by omega),
        valuesAt_shorten (show i - 1 < n by omega)]
    rw [simulateBars, simulateBars]
    congr 1
    · unfold simulateBar exitStep entryStep
      rw [hview]
      rfl
    · funext next
      exact simulateBars_shorten payload d bars (i + 1) bar next (by omega)

theorem simulateBars_append (inp : SimInput) (more : List Candle) : ∀ (bars : List Candle) (i : ℕ)
    (prior : Candle) (s : SimState), simulateBars inp i prior (bars ++ more) s
      = simulateBars inp i prior bars s
        >>= simulateBars inp (i + bars.length) (bars.getLastD prior) more
  | [], _, _, _ => rfl
  | bar :: bars, i, prior, s => by
    simp only [cons_append, simulateBars, length_cons, bind_assoc, getLastD_cons,
      simulateBars_append inp more bars, Nat.add_right_comm, Nat.add_assoc]

variable (payload : BacktestInput)

/-- The history, run up to the forced close. -/
def runHistory (compute : Calculations) (first : Candle) (bars : List Candle) :
    Except EngineError SimState := do
  let computed ← precomputeIndicators compute (first :: bars) payload.strategy
  let inp := payload.simInput computed.1
  simulateBars inp 1 first bars (startState inp first)

/-- With more bars after it a history is run as alone, and on from there. -/
theorem no_lookahead (others : Calculations) (first : Candle) (bars more : List Candle)
    (payload : {p : BacktestInput // ∀ cfg ∈ p.strategy.indicators, cfg.type = "ema"}) :
    runHistory payload.1 (withEma others) first (bars ++ more)
      = runHistory payload.1 (withEma others) first bars >>= fun s =>
        precomputeIndicators (withEma others) (first :: (bars ++ more)) payload.1.strategy
          >>= fun computed => simulateBars (payload.1.simInput computed.1) (1 + bars.length)
            (bars.getLastD first) more s := by
  have hlen : bars.length + 1 ≤ (first :: (bars ++ more)).length := by simp
  have hshort := addIndicators_take others hlen _ ([], []) payload.2
  rw [take_succ_cons, take_left] at hshort
  change precomputeIndicators _ _ payload.1.strategy
    = Except.map _ (precomputeIndicators _ _ payload.1.strategy) at hshort
  unfold runHistory
  rw [hshort]
  rcases precomputeIndicators (withEma others) (first :: (bars ++ more)) payload.1.strategy
    with e | computed
  · rfl
  · simp only [Except.map, ok_bind, Prod.map_fst, simulateBars_append]
    rw [simulateBars_shorten payload.1 computed.1 bars 1 first _ (by omega)]
    rfl

end TradingBridge.StrategyEngine
