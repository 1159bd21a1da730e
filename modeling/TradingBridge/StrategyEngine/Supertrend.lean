import Mathlib

/-!
# Supertrend

`indicators/calculations/supertrend.py`, over exact prices. A row keeps the final bands of its bar.
-/

namespace TradingBridge.StrategyEngine.Supertrend

structure Bar where
  high : ℚ
  low : ℚ
  close : ℚ

section Atr

def trueRanges : Option ℚ → List Bar → List ℚ
  | _, [] => []
  | none, bar :: bars => (bar.high - bar.low) :: trueRanges (some bar.close) bars
  | some close, bar :: bars =>
    max (bar.high - bar.low) (max |bar.high - close| |bar.low - close|)
      :: trueRanges (some bar.close) bars

def smoothed (period : ℕ) : ℚ → List ℚ → List ℚ
  | _, [] => []
  | prev, tr :: trs =>
    let current := (prev * (period - 1) + tr) / period
    current :: smoothed period current trs

def atr (bars : List Bar) (period : ℕ) : List (Option ℚ) :=
  if bars = [] ∨ bars.length < period then List.replicate bars.length none
  else
    let tr := trueRanges none bars
    let seed := (tr.take period).sum / period
    List.replicate (period - 1) none
      ++ (seed :: smoothed period seed (tr.drop period)).map some

end Atr

structure Row where
  close : ℚ
  upper : ℚ
  lower : ℚ
  up : Bool
  line : ℚ

def Row.direction (r : Row) : ℚ := if r.up then 1 else -1

/-- The row at a close, from the trend so far and the final bands. -/
def settle (long : Bool) (close upper lower : ℚ) : Row :=
  let up : Bool := if long then lower ≤ close else upper < close
  { close, upper, lower, up, line := if up then lower else upper }

/-- The row of a bar, after the row of the bar before if that has one. -/
def row (multiplier : ℚ) (prev : Option Row) (bar : Bar) (atr : ℚ) : Row :=
  let hl2 := (bar.high + bar.low) / 2
  let upperBasic := hl2 + multiplier * atr
  let lowerBasic := hl2 - multiplier * atr
  match prev with
  | none => settle (upperBasic ≤ bar.close) bar.close upperBasic lowerBasic
  | some r =>
    settle r.up bar.close
      (if upperBasic < r.upper ∨ r.upper < r.close then upperBasic else r.upper)
      (if r.lower < lowerBasic ∨ r.close < r.lower then lowerBasic else r.lower)

def rows (multiplier : ℚ) : Option Row → List (Bar × Option ℚ) → List (Option Row)
  | _, [] => []
  | _, (_, none) :: bars => none :: rows multiplier none bars
  | prev, (bar, some atr) :: bars =>
    let r := row multiplier prev bar atr
    some r :: rows multiplier (some r) bars

/-- The loop over the bars. -/
def trend (highs lows closes : List ℚ) (period : ℤ) (multiplier : ℚ) : List (Option Row) :=
  let bars := (highs.zip (lows.zip closes)).map fun (high, low, close) => ⟨high, low, close⟩
  rows multiplier none (bars.zip (atr bars period.toNat))

end TradingBridge.StrategyEngine.Supertrend
