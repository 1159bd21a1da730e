import TradingBridge.Lib.Pool
import TradingBridge.StrategyWebhook
import TradingBridge.SignalExecution

/-!
# The system

A message stays on the queue until it is acknowledged, so it may be delivered any number of times; a
worker may crash at any request. Where a property is about the order of whole tasks, `Turn` runs
each to its end.
-/

namespace TradingBridge

open Effectful

inductive Task
  | webhook (request : SignalRequest)
  | worker (m : Message)
  | trip (user : UserId) (reason : Option TripReason)
  | reset (user : UserId)
  deriving DecidableEq

inductive EnvMove
  | tick (seconds : Nat)
  | ack (m : Message)

def Task.code (cfg : Settings) (sha256 : String → String) : Task → Code Unit
  | .webhook r => do
    let _ ← receiveStrategySignal cfg sha256 r
  | .worker m => executeSignalAsync cfg m
  | .trip user reason => do
    let _ ← checkAndTrigger cfg user reason
  | .reset user => clearKillSwitch user

/-- A delivery needs its message on the queue. -/
def Task.start (w : World) : Task → Bool
  | .worker m => m ∈ w.queue
  | _ => true

def EnvMove.apply (w : World) : EnvMove → Option World
  | .tick n => some { w with clock := w.clock + n }
  | .ack m => some { w with queue := w.queue.erase m }

abbrev Pool := Effectful.Pool Request Response AppError World Task

def system (cfg : Settings) (sha256 : String → String) :
    System Request Response AppError World Task EnvMove where
  handle := handle
  code := Task.code cfg sha256
  start := Task.start
  env := EnvMove.apply

inductive Turn
  | run (t : Task)
  | env (e : EnvMove)

def Turn.take (cfg : Settings) (sha256 : String → String) (w : World) : Turn → Option World
  | .run t => if t.start w then some ((t.code cfg sha256).exec w).2 else none
  | .env e => e.apply w

end TradingBridge
