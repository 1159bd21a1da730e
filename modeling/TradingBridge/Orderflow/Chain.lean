import Mathlib

/-!
# The option chain

`chain/analytics.py`: the strike of max pain. A row that is neither a call nor a put has no `right`.
-/

namespace TradingBridge.Orderflow.Chain

inductive Right where
  | call
  | put
  deriving DecidableEq

structure ChainRow where
  right : Option Right
  strike : ℤ
  oi : Option ℤ

/-- `int(s.get("oi") or 0)`. -/
def ChainRow.interest (row : ChainRow) : ℤ := row.oi.getD 0

def addOi (k oi : ℤ) : List (ℤ × ℤ) → List (ℤ × ℤ)
  | [] => [(k, oi)]
  | e :: es => if e.1 = k then (k, e.2 + oi) :: es else e :: addOi k oi es

/-- `ce_oi` and `pe_oi`. -/
def oiByStrike (right : Right) (rows : List ChainRow) : List (ℤ × ℤ) :=
  rows.foldl (fun es row =>
    if row.right = some right then addOi row.strike row.interest es else es) []

def candidates (rows : List ChainRow) : List ℤ :=
  ((oiByStrike .call rows ++ oiByStrike .put rows).map Prod.fst).dedup.insertionSort (· ≤ ·)

def pay (rows : List ChainRow) (expiryPrice : ℤ) : ℤ :=
  ((oiByStrike .call rows).map fun e => e.2 * max 0 (expiryPrice - e.1)).sum +
    ((oiByStrike .put rows).map fun e => e.2 * max 0 (e.1 - expiryPrice)).sum

/-- On a tie the best so far stays. -/
def maxPain (rows : List ChainRow) : Option ℤ :=
  (candidates rows).foldl (fun best k =>
    match best with
    | none => some k
    | some b => if pay rows k < pay rows b then some k else some b) none

end TradingBridge.Orderflow.Chain
