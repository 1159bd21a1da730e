import TradingBridge.DirectExit

/-!
# The market shield

An EXIT that comes while the broad market is strong is held back, one for a strategy at a time, and
is released by a later webhook of the strategy. The record lapses a minute after the release is due.
-/

namespace TradingBridge

open Effectful.Prog (perform mapEach)

def indexKeys : List IndexKey := [.nifty50, .bankNifty, .sensex, .bseMidcap]

def computeVwapProxy (ohlc : IndexOhlc) : ℚ :=
  if 0 < ohlc.high ∧ 0 < ohlc.low ∧ 0 < ohlc.ltp then (ohlc.high + ohlc.low + ohlc.ltp) / 3 else 0

/-- Bullish is three of four: above typical price, opening and yesterday's close, high in the
range. -/
def evaluateIndex (ohlc : IndexOhlc) : Bool :=
  let vwap := computeVwapProxy ohlc
  let range := ohlc.high - ohlc.low
  let checks : List Bool := [0 < vwap ∧ vwap < ohlc.ltp, ohlc.opening < ohlc.ltp,
    0 < ohlc.prevClose ∧ ohlc.prevClose < ohlc.ltp,
    0 < range ∧ 2 / 5 ≤ (ohlc.ltp - ohlc.low) / range]
  if ohlc.ltp ≤ 0 ∨ ohlc.opening ≤ 0 then false else 3 ≤ checks.count true

structure BreadthResult where
  bullishCount : Nat
  coldStart : Bool

def BreadthResult.shieldActive (b : BreadthResult) : Bool := !b.coldStart && 3 ≤ b.bullishCount

def evaluateBreadth : Code BreadthResult := do
  let found ← mapEach (fun k =>
    perform (Request.ask (.indexOhlc k))) indexKeys
  let available : List IndexOhlc := found.filterMap id
  return ⟨(available.filter evaluateIndex).length, available.length < indexKeys.length⟩

def holdMaxSeconds : Nat := 30 * 60

def holdTtlSeconds : Nat := 31 * 60

def lossAtr (side : String) (entryPrice price atr : ℚ) : ℚ :=
  if side = "long" then (if price < entryPrice then (entryPrice - price) / atr else 0)
  else (if entryPrice < price then (price - entryPrice) / atr else 0)

def coerceFloat : Option PriceField → ℚ
  | some (.number q) => q
  | _ => 0

def holdAtr (payload : Payload) (p : StrategyPosition) : ℚ :=
  match payload.atr with
  | some (.number q) => if q = 0 then p.currentAtr.getD 0 else q
  | some .text => 0
  | none => p.currentAtr.getD 0

variable (strategyId : StrategyId)

def hasActiveHold : Code Bool := do
  let record ← perform (Request.redisGet (.heldExit strategyId))
  return Option.isSome record

def holdAllowed (side : String) (entryPrice price atr : ℚ) (breadth : BreadthResult) : Bool :=
  breadth.shieldActive && lossAtr side entryPrice price atr < 1

def maybeHoldExit (signal : StrategySignal) : Code Bool := do
  let side := (signal.rawPayload.side.getD "").toLower
  if side ≠ "long" ∧ side ≠ "short" then return false
  else
    let found ← readDb (getOpenPosition strategyId signal.symbol side)
    match found.filter fun p => 0 < p.remainingQuantity with
    | none => return false
    | some p =>
      let entryPrice := p.avgEntryPrice.getD 0
      let atr := holdAtr signal.rawPayload p
      let price := coerceFloat signal.rawPayload.price
      if entryPrice ≤ 0 ∨ atr ≤ 0 ∨ price ≤ 0 then return false
      else
        let breadth ← evaluateBreadth
        if holdAllowed side entryPrice price atr breadth then
          let heldAt ← now
          perform (Request.redisSetEx (.heldExit strategyId)
            (.held ⟨signal.id, side, entryPrice, atr, heldAt + holdMaxSeconds⟩) holdTtlSeconds)
          return true
        else return false

def consumeHold : Code Unit :=
  perform (Request.redisDel (.heldExit strategyId))

def releasePrice : Option PriceField → Option ℚ
  | some (.number q) => if q = 0 then none else some q
  | _ => none

def HoldRecord.due (record : HoldRecord) (t : Nat) (price : Option ℚ) : Bool :=
  record.releaseAt ≤ t || price.any fun q => 0 < q ∧ 0 < record.entryPrice
    ∧ 0 < record.atrAtHold ∧ 1 ≤ lossAtr record.side record.entryPrice q record.atrAtHold

def tryRelease (strategyId : StrategyId) (price : Option ℚ) : Code (Option SignalId) := do
  let raw ← perform (Request.redisGet (.heldExit strategyId))
  match raw with
  | some (.held record) =>
    let t ← now
    if record.due t price then
      consumeHold strategyId
      return some record.signalId
    else return none
  | _ => return none

end TradingBridge
