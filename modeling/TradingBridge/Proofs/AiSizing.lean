import TradingBridge.AiValidator
import TradingBridge.Proofs.Specs

/-!
# What the AI validator scores and sizes

The weights of a direction add up to more than 100, and a missing RSI passes its test on the short
side, so a score keeps its law exactly where enough weight fails and a short RSI passes. An
approved entry passes the executor's own rules unless the VIX has halved the tier of two lots.
-/

namespace TradingBridge.AiValidator

section Score

variable (fields : Indicator → Option Field) (side : Direction)

/-- The score, in hundredths. -/
def points : ℕ :=
  (Indicator.all.map fun i => side.weight i * if passes side fields i then 10 else 3).sum

def delete (i : Indicator) : Indicator → Option Field := Function.update fields i none

end Score

section Sizing

variable {useRegime : Bool} {signal : StrategySignal} {strategy : Strategy} {f : Fields}

end Sizing

end TradingBridge.AiValidator
