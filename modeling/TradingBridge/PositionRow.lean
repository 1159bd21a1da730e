import TradingBridge.DirectExit
import TradingBridge.Lib.RowLock

/-!
# The database steps of an entry and an exit on one position row

An entry that sums reads the row without a lock (`_find_existing_open_position`), an exit with `FOR
UPDATE` (`get_open_position`). The columns their lookups filter by, the status apart, are never
written.
-/

namespace TradingBridge

open Effectful

/-- The columns that differ from the row as loaded are set, whatever the others have become. -/
def flushColumns (loaded edited row : StrategyPosition) : StrategyPosition :=
  { row with
    totalQuantity := if edited.totalQuantity = loaded.totalQuantity then row.totalQuantity
      else edited.totalQuantity
    remainingQuantity := if edited.remainingQuantity = loaded.remainingQuantity
      then row.remainingQuantity else edited.remainingQuantity
    status := if edited.status = loaded.status then row.status else edited.status
    closedAt := if edited.closedAt = loaded.closedAt then row.closedAt else edited.closedAt
    exitReason := if edited.exitReason = loaded.exitReason then row.exitReason
      else edited.exitReason
    lastAction := if edited.lastAction = loaded.lastAction then row.lastAction
      else edited.lastAction
    actionHistory := if edited.actionHistory = loaded.actionHistory then row.actionHistory
      else edited.actionHistory }

structure EntryJob where
  signal : StrategySignal
  plan : EntryPlan
  report : BrokerReport
  ts : Nat
  filled_pos : 0 < report.filledQty

def EntryJob.txn (job : EntryJob) : Txn StrategyPosition where
  locks := false
  finds := StrategyPosition.isOpen
  writes p := some (flushColumns p (sumEntry job.signal job.plan job.report job.ts p))

structure ExitJob where
  leg : ExitLeg
  signal : StrategySignal
  side : String
  lotSize : Int
  confirmed : Int → Int
  ts : Nat
  confirmed_nonneg : ∀ qty, 0 < qty → 0 ≤ confirmed qty
  confirmed_le : ∀ qty, 0 < qty → confirmed qty ≤ qty

variable (job : ExitJob)

def ExitJob.closeQty (openQty : Int) : Int :=
  if job.leg = partialLeg then
    match payloadClosePct job.signal with
    | .ok closePct => qtyFromOpenPct openQty closePct job.lotSize
    | .error _ => 0
  else openQty

def ExitJob.filled (p : StrategyPosition) : Int :=
  if 0 < p.remainingQuantity ∧ 0 < job.closeQty p.remainingQuantity
  then job.confirmed (job.closeQty p.remainingQuantity) else 0

/-- The close of the position under its lock, which is held while the order is placed. -/
def ExitJob.txn : Txn StrategyPosition where
  locks := true
  finds := StrategyPosition.isOpen
  writes p :=
    if job.filled p ≤ 0 then none
    else some (flushColumns p
      (reducePosition job.leg p (job.filled p) job.side job.signal.id job.ts))

inductive RowSession
  | entry
  | exit
  deriving DecidableEq

def rowTxn (entry : EntryJob) (exit : ExitJob) : RowSession → Txn StrategyPosition
  | .entry => entry.txn
  | .exit => exit.txn

end TradingBridge
