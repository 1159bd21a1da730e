import TradingBridge.Lib.RunningPeak
import TradingBridge.StrategyEngine.Backtest
import TradingBridge.TransparencyLedger

/-!
# Drawdowns

Both loops are the running-peak loop, with the fall as a fraction of the peak and as an amount. The
ledger subtracts in a decimal context (`maxDrawdownInr_eq`); here the subtraction is exact.
-/

namespace TradingBridge

open RunningPeak StrategyEngine Ledger

def fraction (peak v : ℚ) : ℚ := (peak - v) / peak

/-- The falls from any value to itself or a later one. -/
def pairFalls (series : List ℚ) : Set ℚ :=
  {d | ∃ pre u v, pre ++ [v] <+: series ∧ u ∈ pre ++ [v] ∧ d = u - v}

theorem foldl_drawdownStep (vs : List ℚ) {acc : ℚ × ℚ} (h : 0 < acc.1) :
    vs.foldl drawdownStep acc = vs.foldl (step fraction) acc := by
  induction vs generalizing acc with
  | nil => rfl
  | cons v vs ih =>
    have hpos : 0 < max acc.1 v := h.trans_le (le_max_left ..)
    have hstep : drawdownStep acc v = step fraction acc v := by
      simp only [drawdownStep, ← max_def_lt, if_pos hpos]
      rfl
    rw [List.foldl_cons, List.foldl_cons, hstep, ih hpos]

theorem maxDrawdown_eq {first : ℚ} (h : 0 < first) (rest : List ℚ) :
    maxDrawdown (first :: rest) = (run fraction first rest).2 := by
  have hstart : step fraction (first, 0) first = (first, fraction first first) := by
    simp [step, fraction]
  rw [maxDrawdown, foldl_drawdownStep _ h, List.foldl_cons, hstart, run]

theorem maxDrawdownInr_eq : maxDrawdownInr = drawdownInrBy decimalSub := rfl

theorem drawdownInrBy_sub (series : List ℚ) :
    drawdownInrBy (· - ·) series = (run (· - ·) 0 series).2 := by
  simp only [drawdownInrBy, ← max_def_lt, run, sub_zero]
  rfl

theorem isGreatest_pairFalls {series : List ℚ} {d : ℚ} (h : IsGreatest (falls (· - ·) series) d) :
    IsGreatest (pairFalls series) d := by
  obtain ⟨⟨pre, v, peak, hpre, hpeak, rfl⟩, hle⟩ := h
  refine ⟨⟨pre, peak, v, hpre, hpeak.1, rfl⟩, ?_⟩
  rintro _ ⟨pre, u, v, hpre, hu, rfl⟩
  obtain ⟨x, xs, heq⟩ := List.exists_cons_of_ne_nil (List.concat_ne_nil v pre)
  have htop := (isGreatest_run (· - ·) x xs).1
  rw [← heq] at htop
  exact (sub_le_sub_right (htop.2 hu) v).trans (hle ⟨pre, v, _, hpre, htop, rfl⟩)

/-- Both drawdowns are the greatest of their falls, are not negative, and stay as they are when a
new maximum is appended. -/
theorem drawdowns_greatest (first : { x : ℚ // 0 < x }) (rest series : List ℚ) :
    (IsGreatest (falls fraction (first :: rest)) (maxDrawdown (first :: rest)) ∧
      0 ≤ maxDrawdown (first :: rest) ∧
      ∀ m, (∀ v ∈ (first : ℚ) :: rest, v ≤ m) →
        maxDrawdown (first :: (rest ++ [m])) = maxDrawdown (first :: rest)) ∧
    IsGreatest (pairFalls (0 :: series)) (drawdownInrBy (· - ·) series) ∧
      0 ≤ drawdownInrBy (· - ·) series ∧
      ∀ m, (∀ v ∈ 0 :: series, v ≤ m) →
        drawdownInrBy (· - ·) (series ++ [m]) = drawdownInrBy (· - ·) series := by
  obtain ⟨first, hfirst⟩ := first
  simp only [maxDrawdown_eq hfirst, drawdownInrBy_sub]
  have hfraction := (isGreatest_run fraction first rest).2
  have hpairs := isGreatest_pairFalls (isGreatest_run (· - ·) 0 series).2
  have hf0 : 0 ≤ (run fraction first rest).2 :=
    hfraction.2 ⟨[], first, first, by simp, by simp, by simp [fraction]⟩
  have hp0 : 0 ≤ (run (· - ·) 0 series).2 := hpairs.2 ⟨[], 0, 0, by simp, by simp, by simp⟩
  refine ⟨⟨hfraction, hf0, fun m hm => run_concat _ hm ?_⟩, hpairs, hp0,
    fun m hm => run_concat _ hm ?_⟩
  · simpa [fraction] using hf0
  · simpa using hp0

end TradingBridge
