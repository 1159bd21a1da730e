import TradingBridge.StrategyExecutor

/-!
# The instrument router

Which executor a strategy's signals go to. A strategy without a marker is a futures strategy.
-/

namespace TradingBridge

inductive Instrument
  | futures
  | options
  | cash
  deriving DecidableEq

def classifyMarker (marker : Option String) : Option Instrument :=
  match marker.map fun m => (strip m).toLower with
  | some "futures" => some .futures
  | some "options" => some .options
  | some "cash" => some .cash
  | _ => none

def resolveInstrumentType (strategy : Strategy) : Instrument :=
  match strategy.strategyJson with
  | none => .futures
  | some json =>
    match classifyMarker json.instrumentType with
    | some i => i
    | none => if json.optionsBlock then .options else .futures

end TradingBridge
