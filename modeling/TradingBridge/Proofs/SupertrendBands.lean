import TradingBridge.StrategyEngine.Supertrend

/-!
# The line of Supertrend

The ratchets work apart, so the final bands can cross. A bar that flips the trend with its close
between crossed bands stands on the wrong side of its line, and lets go of it at the next bar.
-/

namespace TradingBridge.StrategyEngine.Supertrend

/-- Which direction the bar has is read off its line and its close. -/
def Row.Told (r : Row) : Prop :=
  (r.up = true ↔ r.line = r.lower ∧ r.line ≤ r.close) ∧
    (r.up = false ↔ r.line = r.upper ∧ r.close ≤ r.line)

/-- The close is strictly between crossed bands. -/
def Row.Crossed (r : Row) : Prop := r.upper < r.close ∧ r.close < r.lower

/-- The close is on both bands. -/
def Row.Flat (r : Row) : Prop := r.close = r.upper ∧ r.close = r.lower

/-- The line does not fall from an up bar to the next, nor rise from a down bar. -/
def Row.Leads (r r' : Row) : Prop := if r.up then r.line ≤ r'.line else r'.line ≤ r.line

def Row.Settled (r : Row) : Prop := ∃ long, r = settle long r.close r.upper r.lower

variable {r : Row} {multiplier : ℚ} {bar : Bar} {atr : ℚ}

theorem Row.Settled.line (h : r.Settled) : r.line = if r.up then r.lower else r.upper := by
  obtain ⟨long, h⟩ := h
  rw [h]
  rfl

/-- What holds of the bars after warm-up. -/
def Follows (rows : List (Option Row)) : Prop :=
  ∀ i r, rows[i]? = some (some r) → (r.Told ↔ ¬ r.Crossed ∧ ¬ r.Flat) ∧
    (¬ r.Crossed → ∀ r', rows[i + 1]? = some (some r') → r'.up = r.up → r.Leads r')

end TradingBridge.StrategyEngine.Supertrend
