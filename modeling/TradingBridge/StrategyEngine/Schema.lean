import Mathlib

/-!
# The strategy document

What the schema's validators refuse cannot be built here: a bar keeps its open and close between its
low and its high, a rule carries the fields its operator needs, and the conditions name declared
indicators only.
-/

namespace TradingBridge.StrategyEngine

/-- A datetime: the wall clock in microseconds, and its zone's offset if it has one. -/
structure Timestamp where
  wall : ℤ
  offset : Option ℤ
  deriving DecidableEq

namespace Timestamp

def dayMicros : ℤ := 86400000000

variable (t : Timestamp)

def instant : ℤ := t.wall - t.offset.getD 0

def date : ℤ := t.wall / dayMicros

def timeOfDay : ℤ := t.wall % dayMicros

end Timestamp

structure Candle where
  timestamp : Timestamp
  openPrice : ℚ
  high : ℚ
  low : ℚ
  close : ℚ
  volume : ℚ
  low_nonneg : 0 ≤ low
  open_mem : low ≤ openPrice ∧ openPrice ≤ high
  close_mem : low ≤ close ∧ close ≤ high
  volume_nonneg : 0 ≤ volume
  deriving DecidableEq

inductive PriceSource
  | openPrice
  | high
  | low
  | close
  | volume
  | hl2
  | hlc3
  | ohlc4
  deriving DecidableEq

def Candle.price (c : Candle) : PriceSource → ℚ
  | .openPrice => c.openPrice
  | .high => c.high
  | .low => c.low
  | .close => c.close
  | .volume => c.volume
  | .hl2 => (c.high + c.low) / 2
  | .hlc3 => (c.high + c.low + c.close) / 3
  | .ohlc4 => (c.openPrice + c.high + c.low + c.close) / 4

inductive Side
  | buy
  | sell
  deriving DecidableEq

inductive ParamValue
  | int (n : ℤ)
  | float (q : ℚ)
  | bool (b : Bool)
  | text (s : String)

structure IndicatorConfig where
  id : String
  type : String
  params : List (String × ParamValue)
  output : Option String

inductive IndicatorConditionOp
  | gt
  | lt
  | gte
  | lte
  | eq
  | neq
  | crossover
  | crossunder
  deriving DecidableEq

def IndicatorConditionOp.isCross : IndicatorConditionOp → Bool
  | .crossover | .crossunder => true
  | _ => false

/-- An indicator against another one or a constant, never both. -/
structure IndicatorCondition where
  left : String
  op : IndicatorConditionOp
  right : Option String
  value : Option ℚ
  right_xor_value : right.isSome ≠ value.isSome
  cross_right : op.isCross → right.isSome
  deriving DecidableEq

inductive CandlePattern
  | bullish
  | bearish
  | engulfing
  | doji
  | hammer
  | shootingStar
  deriving DecidableEq

inductive TimeConditionOp
  | after
  | before
  | between
  | exact
  deriving DecidableEq

/-- Two digits, a colon, two digits. -/
structure HhMm where
  hours : Fin 100
  minutes : Fin 100
  deriving DecidableEq

structure TimeCondition where
  op : TimeConditionOp
  value : HhMm
  endTime : Option HhMm
  between_iff : op = .between ↔ endTime.isSome
  deriving DecidableEq

inductive PriceConditionOp
  | gt
  | lt
  | gte
  | lte
  | previousHighBreakout
  | previousLowBreakdown
  deriving DecidableEq

def PriceConditionOp.isComparator : PriceConditionOp → Bool
  | .previousHighBreakout | .previousLowBreakdown => false
  | _ => true

structure PriceCondition where
  op : PriceConditionOp
  value : Option ℚ
  value_iff : op.isComparator = value.isSome
  deriving DecidableEq

inductive Condition
  | indicator (c : IndicatorCondition)
  | candle (pattern : CandlePattern)
  | time (c : TimeCondition)
  | price (c : PriceCondition)
  deriving DecidableEq

def Condition.referencedIds : Condition → List String
  | .indicator c => c.left :: c.right.toList
  | _ => []

inductive EntryOperator
  | all
  | any
  deriving DecidableEq

structure EntryRules where
  side : Side
  operator : EntryOperator
  conditions : List Condition
  conditions_ne_nil : conditions ≠ []

structure PartialExit where
  qtyPercent : ℚ
  targetPercent : ℚ
  qty_pos : 0 < qtyPercent
  qty_le : qtyPercent ≤ 100
  target_pos : 0 < targetPercent

abbrev Percent := { q : ℚ // 0 < q }

structure ExitRules where
  targetPercent : Option Percent
  stopLossPercent : Option Percent
  trailingStopPercent : Option Percent
  partialExits : List PartialExit
  squareOffTime : Option HhMm
  indicatorExits : List Condition
  reverseSignalExit : Bool
  at_least_one_exit : targetPercent.isSome ∨ stopLossPercent.isSome ∨ trailingStopPercent.isSome
    ∨ partialExits ≠ [] ∨ squareOffTime.isSome ∨ indicatorExits ≠ [] ∨ reverseSignalExit = true

structure RiskRules where
  maxDailyLossPercent : Option Percent
  maxTradesPerDay : Option { n : ℕ // 0 < n }
  maxLossStreak : Option { n : ℕ // 0 < n }
  deriving DecidableEq

def RiskRules.none : RiskRules := ⟨.none, .none, .none⟩

structure StrategyJSON where
  indicators : List IndicatorConfig
  entry : EntryRules
  exit : ExitRules
  risk : RiskRules
  ids_nodup : (indicators.map IndicatorConfig.id).Nodup
  ids_declared : ∀ c ∈ entry.conditions ++ exit.indicatorExits, ∀ id ∈ c.referencedIds,
    id ∈ indicators.map IndicatorConfig.id

end TradingBridge.StrategyEngine
