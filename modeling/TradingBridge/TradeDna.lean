import TradingBridge.Tables

/-!
# The trade-DNA pool

The projection of a payload to its vector is a parameter; the normalisation of the vectors is left
out.
-/

namespace TradingBridge.TradeDna

def maxPoolSize : ℕ := 200

structure DnaSettings where
  tradeDnaLookbackDays : ℕ
  tradeDnaWinnerThresholdInr : ℚ

structure Sample where
  vector : List ℚ
  winner : Bool
  pnl : ℚ
  deriving DecidableEq

variable (settings : DnaSettings) (d : Db) (strategyId : StrategyId) (now : ℕ)

/-- Closed inside the lookback, with a stored P&L. -/
def priced (p : StrategyPosition) : Bool :=
  p.closedAt.any (now ≤ · + settings.tradeDnaLookbackDays * 86400) && p.finalPnl.isSome

def historyRows (side : String) : List (StrategySignal × StrategyPosition) :=
  ((((d.positions.filter fun p => p.strategyId = strategyId ∧ p.side = side
    ∧ priced settings now p = true).filterMap fun p =>
      (p.signalId.bind d.signal).map (·, p)).insertionSort
        fun r r' => r'.2.closedAt.getD 0 ≤ r.2.closedAt.getD 0)).take maxPoolSize

def loadHistoryPool (vector : Payload → Option (List ℚ)) (side : String) : List Sample :=
  (historyRows settings d strategyId now side).filterMap fun (signal, p) =>
    (vector signal.rawPayload).map fun v =>
      ⟨v, settings.tradeDnaWinnerThresholdInr < p.finalPnl.getD 0, p.finalPnl.getD 0⟩

end TradingBridge.TradeDna
