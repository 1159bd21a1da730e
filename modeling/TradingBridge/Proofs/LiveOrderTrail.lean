import TradingBridge.LiveOrders
import TradingBridge.Proofs.Specs

/-!
# Live orders and their audit trail

An order is sent only for a request that passed every check, at most twice, and a second time
only where the first attempt found the session expired. The event that a request was let through
is logged before the broker is looked up. What comes after it is logged only where the broker
takes the order or its session is gone (`live_order_trail_iff`).
-/

namespace TradingBridge

open Effectful Effectful.Prog List

variable (w : World)

/-- What a request does to the world: it asks, sends orders and logs events. -/
def World.ran (n : Nat) (calls : List OrderCall) (events : List Mark) : World :=
  { w with
    asked := w.asked + n
    orders := w.orders ++ calls
    marks := w.marks ++ events }

section Chain

variable {cfg : Settings} {userId : UserId} {strategyId : StrategyId} {w : World}
  {c : Code SafetyCheckResult} {cs : List (Code SafetyCheckResult)}
  {results : List SafetyCheckResult}

/-- The checks go through after `n` questions where `P` holds, and stop where it does not. -/
def ChainEnds (cs : List (Code SafetyCheckResult)) (results : List SafetyCheckResult) (w : World)
    (P : Prop) (n : Nat) : Prop :=
  (P ∧ ∃ results', (runChecks cs results).exec w = (.ok ⟨results', none⟩, w.ran n [] []))
  ∨ (¬ P ∧ ∃ n', (∃ e, (runChecks cs results).exec w = (.error e, w.ran n' [] []))
    ∨ ∃ results' blocking,
      (runChecks cs results).exec w = (.ok ⟨results', some blocking⟩, w.ran n' [] []))

variable {n : Nat}

theorem ChainEnds.congr {P Q : Prop} (h : ChainEnds cs results w P n) (hPQ : P ↔ Q) :
    ChainEnds cs results w Q n := by
  rwa [propext hPQ] at h

end Chain

section Retry

variable {w : World} {broker : CredentialId} {call : OrderCall}

/-- The order is taken, or the session expired and the second try is taken or a broker error. -/
def Returned (w : World) (broker : CredentialId) (call : OrderCall) : Prop :=
  match w.env.place w.asked call with
  | .ok _ => True
  | .error (.brokerSessionExpired _) =>
    match w.env.answer (w.asked + 1) (.login broker) with
    | .error e => e.isBrokerError = true
    | .ok () =>
      match w.env.place (w.asked + 2) call with
      | .ok _ => True
      | .error e => e.isBrokerError = true
  | .error _ => False

def Attempts (w : World) (call : OrderCall) (calls : List OrderCall) : Prop :=
  calls = [call] ∨ calls = [call, call]
    ∧ ∃ msg, w.env.place w.asked call = .error (.brokerSessionExpired msg)

end Retry

section Submit

variable {userId : UserId} {request : LiveOrderRequest} {strategy : Strategy} {w : World}
  {cred : BrokerCredential}

/-- An active credential of the user's that a broker object can be made from. -/
def Resolves (strategy : Strategy) (userId : UserId) (w : World) (cred : BrokerCredential) : Prop :=
  (strategy.brokerCredentialId.bind fun id => loadOwnCredential id userId w.db) = some cred
    ∧ w.env.answer w.asked (.buildBroker cred.id) = .ok ()

theorem Resolves.own (h : Resolves strategy userId w cred) :
    cred ∈ w.db.credentials ∧ strategy.brokerCredentialId = some cred.id ∧ cred.userId = userId
      ∧ cred.isActive = true := by
  obtain ⟨id, hid, hload⟩ := Option.bind_eq_some_iff.1 h.1
  have hrow := find?_some hload
  obtain ⟨rfl, huser, hactive⟩ := of_decide_eq_true hrow
  exact ⟨mem_of_find?_eq_some hload, hid, huser, hactive⟩

end Submit

section Trail

variable {cfg : Settings} {userId : UserId} {request : LiveOrderRequest} {w : World}
  {strategy : Strategy}

theorem Attempts.mem {call c : OrderCall} {calls : List OrderCall} (h : Attempts w call calls)
    (hc : c ∈ calls) : c = call := by
  rcases h with rfl | ⟨rfl, -⟩
  · exact mem_singleton.1 hc
  · simpa using hc

end Trail

end TradingBridge
