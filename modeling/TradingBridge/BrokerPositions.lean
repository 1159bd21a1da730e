import TradingBridge.SymbolMatch
import TradingBridge.MarketplaceFanout

/-!
# The broker's own positions

The subscribers' brokers are asked all in one batch, with a bound on the calls in flight, a timeout
for each and a budget for the whole.
-/

namespace TradingBridge

inductive CallPhase
  | waiting
  | inFlight
  | ended
  deriving DecidableEq

/-- The batch. A key without an answer in `out` is unknown. -/
structure Batch (A : Type) where
  tasks : List (SubscriptionId × CallPhase)
  cancelling : Bool
  out : SubscriptionId → Option A

namespace Batch

variable {A : Type}

def start (keys : List SubscriptionId) : Batch A :=
  ⟨keys.map fun k => (k, .waiting), false, fun _ => none⟩

/-- A call that is being cancelled may still come back with its answer. -/
inductive Label (A : Type)
  | acquire (i : ℕ)
  | returned (i : ℕ) (answer : A)
  | timedOut (i : ℕ)
  | raised (i : ℕ)
  | budgetExpired
  | cancelled (i : ℕ)

def inFlight (b : Batch A) : ℕ := b.tasks.countP fun t => t.2 = .inFlight

def move (b : Batch A) (i : ℕ) (before : List CallPhase) (after : CallPhase)
    (k : SubscriptionId → Batch A → Batch A) : Option (Batch A) :=
  match b.tasks[i]? with
  | none => none
  | some (key, phase) =>
    if phase ∈ before then some (k key { b with tasks := b.tasks.set i (key, after) })
    else none

def next (concurrency : ℕ) (b : Batch A) : Label A → Option (Batch A)
  | .acquire i =>
    if b.inFlight < max 1 concurrency ∧ !b.cancelling then
      b.move i [.waiting] .inFlight fun _ b => b
    else none
  | .returned i answer =>
    b.move i [.inFlight] .ended fun key b => { b with out := Function.update b.out key answer }
  | .timedOut i => b.move i [.inFlight] .ended fun _ b => b
  | .raised i => b.move i [.inFlight] .ended fun _ b => b
  | .budgetExpired => if b.cancelling then none else some { b with cancelling := true }
  | .cancelled i =>
    if b.cancelling then b.move i [.waiting, .inFlight] .ended fun _ b => b else none

end Batch

inductive OpenPosition (R : Type)
  | stored (p : StrategyPosition)
  | atBroker (row : R)
  | flat
  | unknown

/-- `BrokerBackedPositionProvider`: the rows the last batch returned, or nothing. -/
structure PositionProvider (R : Type) where
  prefetched : Bool
  cache : SubscriptionId → Option (Option (List R))

namespace PositionProvider

open SymbolMatch

variable {R : Type}

def new : PositionProvider R := ⟨false, fun _ => none⟩

def prefetch (b : Batch (Option (List R))) : PositionProvider R := ⟨true, b.out⟩

def verifySymbol (stored : Option StrategyPosition) (symbol : Option String) : Option String :=
  (symbol.filter (· ≠ "")) <|> stored.map (·.symbol)

def findOpen (provider : PositionProvider R) (symbolOf : R → Option String) (d : Db)
    (strategyId : StrategyId) (subscriptionId : SubscriptionId) (symbol : Option String) :
    OpenPosition R :=
  let stored := findOpenOf strategyId subscriptionId d
  if !provider.prefetched then .unknown
  else
    match provider.cache subscriptionId with
    | none => .unknown
    | some raw =>
      match verifySymbol stored symbol with
      | none => stored.elim .flat .stored
      | some verify =>
        match findMatchingPosition symbolOf (some verify) (raw.getD []) with
        | (_, false) => .unknown
        | (none, true) => .flat
        | (some row, true) =>
          match stored with
          | some p => .stored p
          | none => if symbol.isSome then .atBroker row else .flat

end PositionProvider

end TradingBridge
