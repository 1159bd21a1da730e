import TradingBridge.Proofs.BookLaw

/-!
# The position ledger

A position's quantities against its history: the total is what the entry events record, and what
is gone from it is what the others record. A save writes a row that was read and changed as a
whole, so no interleaving of the tasks can break it; only an entry that fills less than it
requested does, since it adds the filled quantity and records the requested one.
-/

namespace TradingBridge

open Effectful Prog

def entryQty (history : List ActionEvent) : Int :=
  ((history.filter (·.action = .entry)).map (·.qty)).sum

def exitQty (history : List ActionEvent) : Int :=
  ((history.filter (·.action ≠ .entry)).map (·.qty)).sum

structure Ledger (p : StrategyPosition) : Prop where
  nonneg : 0 ≤ p.remainingQuantity
  le_total : p.remainingQuantity ≤ p.totalQuantity
  entries : p.totalQuantity = entryQty p.actionHistory
  exits : p.totalQuantity - p.remainingQuantity = exitQty p.actionHistory

instance (p : StrategyPosition) : Decidable (Ledger p) :=
  decidable_of_iff (0 ≤ p.remainingQuantity ∧ p.remainingQuantity ≤ p.totalQuantity
    ∧ p.totalQuantity = entryQty p.actionHistory
    ∧ p.totalQuantity - p.remainingQuantity = exitQty p.actionHistory)
    ⟨fun ⟨h₁, h₂, h₃, h₄⟩ => ⟨h₁, h₂, h₃, h₄⟩, fun ⟨h₁, h₂, h₃, h₄⟩ => ⟨h₁, h₂, h₃, h₄⟩⟩

/-- Every owner position of the database keeps its ledger. -/
def LedgerOk (d : Db) : Prop := ∀ p ∈ d.positions, p.subscriptionId = none → Ledger p

instance (d : Db) : Decidable (LedgerOk d) :=
  inferInstanceAs (Decidable (∀ p ∈ d.positions, p.subscriptionId = none → Ledger p))

section Rows

variable {history : List ActionEvent} {e : ActionEvent} {p : StrategyPosition}

variable {ts : Nat}

variable {signal : StrategySignal} {report : BrokerReport} {plan : EntryPlan}

end Rows

section Rows

variable {d : Db} {p : StrategyPosition}

theorem LedgerOk.savePosition (h : LedgerOk d) (hp : p.subscriptionId = none → Ledger p) :
    LedgerOk (d.savePosition p) := by
  intro q hq hsub
  obtain ⟨r, hr, rfl⟩ := List.mem_map.1 hq
  split_ifs at hsub ⊢
  · exact hp hsub
  · exact h r hr hsub

theorem LedgerOk.addPosition (h : LedgerOk d) (hp : p.subscriptionId = none → Ledger p) :
    LedgerOk (d.addPosition p) := by
  intro q hq hsub
  rcases mem_concat.1 hq with hq | rfl
  · exact h q hq hsub
  · obtain ⟨h1, h2, h3, h4⟩ := hp hsub
    exact ⟨h1, h2, h3, h4⟩

end Rows

section Code

def FullFill : (q : Query) → Answer q → Prop
  | .confirmFill _ n, a => ∀ fill, a = .ok fill → 0 < fill.filledQty → fill.filledQty = n
  | _, _ => True

/-- An entry is filled in full. -/
def InFull (entry : Bool) (q : Query) (a : Answer q) : Prop := entry = true → FullFill q a

/-- The code leaves the ledger in order request by request, and returns what meets `P`. -/
abbrev Keeps {α : Type} (entry : Bool) (P : α → Prop) (c : Code α) : Prop :=
  Stays LedgerOk (InFull entry) P c

variable (cfg : Settings) (signal : StrategySignal)

def Task.isEntry : Task → Bool
  | .worker m => m.kind = .entry
  | _ => false

end Code

section Runs

variable {cfg : Settings} {sha256 : String → String} {P P' : Pool} {m : Move Task EnvMove}

end Runs

end TradingBridge
