import TradingBridge.OrderService

/-!
# Live orders

`place_live_order` behind the live-orders endpoint. The strategy's own paper flag is not read.
-/

namespace TradingBridge

structure SafetyCheckResult where
  checkName : String
  passed : Bool

structure SafetyChainResult where
  checks : List SafetyCheckResult
  blockingCheck : Option SafetyCheckResult

def safetyCheck (strategyId : StrategyId) (check : SafetyCheck) : Code Bool := do
  ofExcept (← Effectful.Prog.perform (Request.ask (.safetyCheck strategyId check)))

def checkTrustScore (strategyId : StrategyId) : Code SafetyCheckResult := do
  let passed ← safetyCheck strategyId .trustScore
  return ⟨"trust_score", passed⟩

def checkTruthScore (strategyId : StrategyId) : Code SafetyCheckResult := do
  let passed ← safetyCheck strategyId .truthScore
  return ⟨"truth_score", passed⟩

def runChecks : List (Code SafetyCheckResult) → List SafetyCheckResult → Code SafetyChainResult
  | [], results => return ⟨results, none⟩
  | check :: checks, results => do
    let result ← check
    if result.passed then runChecks checks (results ++ [result])
    else return ⟨results ++ [result], some result⟩

end TradingBridge
