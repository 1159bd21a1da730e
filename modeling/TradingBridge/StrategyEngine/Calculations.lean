import TradingBridge.StrategyEngine.Backtest

/-!
# The calculations behind the registry

A declared indicator is computed by the function its type names.
-/

namespace TradingBridge.StrategyEngine

def priceSource : String → Option PriceSource
  | "open" => some .openPrice
  | "high" => some .high
  | "low" => some .low
  | "close" => some .close
  | "volume" => some .volume
  | "hl2" => some .hl2
  | "hlc3" => some .hlc3
  | "ohlc4" => some .ohlc4
  | _ => none

def intParam (params : List (String × ParamValue)) (name : String) (default low high : ℤ) :
    Except EngineError ℤ :=
  match (params.lookup name).getD (.int default) with
  | .int n => if low ≤ n ∧ n ≤ high then .ok n else .error (.indicatorRunner s!"Param {name}")
  | _ => .error (.indicatorRunner s!"Param {name}")

def sourceParam (params : List (String × ParamValue)) : Except EngineError PriceSource :=
  match (params.lookup "source").getD (.text "close") with
  | .text name =>
    match priceSource name with
    | some source => .ok source
    | none => .error (.indicatorRunner "Param source")
  | _ => .error (.indicatorRunner "Param source")

def emaFrom (alpha : ℚ) : ℚ → List ℚ → List ℚ
  | _, [] => []
  | prev, v :: vs =>
    let current := alpha * v + (1 - alpha) * prev
    current :: emaFrom alpha current vs

def ema (values : List ℚ) (period : ℕ) : Series :=
  if values = [] ∨ values.length < period then []
  else
    let seed := (values.take period).sum / period
    List.replicate (period - 1) none
      ++ (seed :: emaFrom (2 / (period + 1)) seed (values.drop period)).map some

def computeEma (params : List (String × ParamValue)) (candles : List Candle) :
    Except EngineError (Series × List (String × Series)) := do
  if params.any fun param => param.1 ∉ ["period", "source"] then
    throw (.indicatorRunner "Unknown param(s)")
  else
    let period ← intParam params "period" 20 2 500
    let source ← sourceParam params
    return (ema (candles.map (Candle.price · source)) period.toNat, [])

/-- The exponential average as it is computed, the other calculations as they may be. -/
def withEma (others : Calculations) : Calculations := fun cfg candles =>
  if cfg.type = "ema" then computeEma cfg.params candles else others cfg candles

end TradingBridge.StrategyEngine
