import TradingBridge.Tables

/-!
# Emitting trade markers

The emitters look for the row first, and the unique index stops what the look-up has missed.
-/

namespace TradingBridge.TradeMarkers

inductive MarkerSide
  | longEntry
  | longExit
  | shortEntry
  | shortExit
  deriving DecidableEq

/-- A marker at its time in microseconds, with the columns that are only stored. -/
structure TradeMarker (D : Type) where
  strategyId : StrategyId
  side : MarkerSide
  price : ℚ
  timestampUtc : ℤ
  data : D

/-- The markers of the others, and what the transaction has written: markers, and rows of other
tables. -/
structure Session (D W : Type) where
  committed : List (TradeMarker D)
  pending : List (TradeMarker D)
  written : List W

abbrev Batch (D : Type) := List (TradeMarker D × List (TradeMarker D))

variable {D W : Type}

def TradeMarker.key (m : TradeMarker D) : StrategyId × MarkerSide × ℚ × ℤ :=
  (m.strategyId, m.side, m.price, m.timestampUtc / 1000000)

def keys (rows : List (TradeMarker D)) : List (StrategyId × MarkerSide × ℚ × ℤ) :=
  rows.map TradeMarker.key

def findDedupRow (s : Session D W) (m : TradeMarker D) : Option (TradeMarker D) :=
  (s.committed ++ s.pending).find? (·.key = m.key)

namespace Session

def keys (s : Session D W) := TradeMarkers.keys (s.committed ++ s.pending)

def rollback (s : Session D W) : Session D W := ⟨s.committed, [], []⟩

/-- Nothing where the index refuses one of the rows. -/
def flush (s : Session D W) (rows : List (TradeMarker D)) : Option (Session D W) :=
  if (∀ k ∈ TradeMarkers.keys rows, k ∉ s.keys) ∧ (TradeMarkers.keys rows).Nodup then
    some { s with pending := s.pending ++ rows }
  else none

/-- What the others commit; on a key of the transaction they wait. -/
def arrive (s : Session D W) (others : List (TradeMarker D)) : Session D W :=
  { s with committed := s.committed ++ others.filter (·.key ∉ TradeMarkers.keys s.pending) }

end Session

/-- `none` is an error raised. -/
def insertOne (m : TradeMarker D) (others : List (TradeMarker D)) (s : Session D W) :
    Option (TradeMarker D) × Session D W :=
  match findDedupRow s m with
  | some existing => (some existing, s.arrive others)
  | none =>
    match (s.arrive others).flush [m] with
    | some s => (some m, s)
    | none => (findDedupRow (s.arrive others).rollback m, (s.arrive others).rollback)

def preScan : Batch D → Session D W → List (TradeMarker D) × List (TradeMarker D)
  | [], _ => ([], [])
  | (m, others) :: markers, s =>
    let rest := preScan markers (s.arrive others)
    match findDedupRow s m with
    | some existing => (existing :: rest.1, rest.2)
    | none => (m :: rest.1, m :: rest.2)

def bulkEmitMarkers (markers : Batch D) (s : Session D W) :
    Option (List (TradeMarker D)) × Session D W :=
  let scanned := s.arrive (markers.flatMap Prod.snd)
  match scanned.flush (preScan markers s).2 with
  | some s' => (some (preScan markers s).1, s')
  | none => (none, scanned.rollback)

end TradingBridge.TradeMarkers
