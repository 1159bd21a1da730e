import TradingBridge.Proofs.ReleasedExit
import TradingBridge.TradeDna

/-!
# The trade-DNA pool is empty

The executor stores the side of a position in the words of its order, `buy` or `sell`, and the
fan-out does so too. The pool is asked for in the words of the payload, `long` or `short`, so no
row is ever found, and the pool is the strategy's own side only where that side has no trade.
-/

namespace TradingBridge.TradeDna

open Effectful Prog

/-- Every row has the side of an order. -/
def Sided (d : Db) : Prop := ∀ p ∈ d.positions, ∃ side : OrderSide, p.side = side.value

section History

variable {cfg : Settings} {d d' : Db} {w v : World}

/-- What the executor and the fan-out write, with later changes that leave the sides alone. -/
inductive Recorded (cfg : Settings) : Db → Prop
  | fresh {d : Db} (h : d.positions = []) : Recorded cfg d
  | placed {w : World} (signal : StrategySignal) (strategy : Strategy) (lots : Option Int)
    (h : Recorded cfg w.db) :
    Recorded cfg ((placeStrategyOrders cfg signal strategy lots).exec w).2.db
  | mirrored {d : Db} (signal : StrategySignal) (strategy : Strategy)
    (sub : MarketplaceSubscription) (credential : CredentialId) (side : OrderSide) (qty : Int)
    (report : BrokerReport) (ts : ℕ) (h : Recorded cfg d) : Recorded cfg (d.addPosition
      (subscriberPosition signal strategy sub credential side qty report ts d.nextId))
  | changed {d d' : Db} (h : Recorded cfg d)
    (hrows : ∀ q ∈ d'.positions, ∃ p ∈ d.positions, q.side = p.side) : Recorded cfg d'

theorem Sided.changed (h : Sided d)
    (hrows : ∀ q ∈ d'.positions, ∃ p ∈ d.positions, q.side = p.side) : Sided d' := by
  intro q hq
  obtain ⟨p, hp, hside⟩ := hrows q hq
  exact hside ▸ h p hp

theorem Sided.addPosition (h : Sided d) {p : StrategyPosition} {side : OrderSide}
    (hp : p.side = side.value) : Sided (d.addPosition p) := by
  intro q hq
  rcases mem_concat.1 hq with hq | rfl
  · exact h q hq
  · exact ⟨side, hp⟩

theorem bookEntry_sided (h : Sided v.db) (signal : StrategySignal) (strategy : Strategy)
    (plan : EntryPlan) (report : BrokerReport) :
    Sided ((bookEntry signal strategy plan report).exec v).2.db := by
  unfold bookEntry
  rw [exec_now, exec_writeDb, exec_readDb]
  split
  · rename_i p hfound
    refine h.changed fun q hq => ?_
    obtain ⟨r, hr, rfl⟩ := List.mem_map.1 hq
    split_ifs
    · exact ⟨p, (findExistingOpenPosition_spec hfound).1, rfl⟩
    · exact ⟨r, hr, rfl⟩
  · cases computeLevels report.avgPrice plan.side strategy with
    | error e => exact h
    | ok levels =>
      exact h.addPosition rfl

theorem placeStrategyOrders_sided (h : Sided w.db) (signal : StrategySignal) (strategy : Strategy)
    (lots : Option Int) : Sided ((placeStrategyOrders cfg signal strategy lots).exec w).2.db := by
  have hsame : ∀ {u : World}, SameRows w u → Sided u.db := fun hu p hp => h p (hu.1 ▸ hp)
  refine (wp_serving (Q := fun _ (u : World) => Sided u.db)).1 ?_
  refine bind_sameRows ((asksIn_perform _).2 trivial) ⟨rfl, rfl⟩ (fun _ u hu => ?_)
    fun _ _ hu => hsame hu
  refine bind_sameRows (spares_of_reads (prepareEntry_reads cfg signal strategy lots)) hu
    (fun plan u hu => ?_) fun _ _ hu => hsame hu
  refine bind_sameRows (fillEntry_spares cfg signal strategy plan) hu (fun report u hu => ?_)
    fun _ _ hu => hsame hu
  exact wp_serving.2 (bookEntry_sided (hsame hu) signal strategy plan report)

theorem Recorded.sided (h : Recorded cfg d) : Sided d := by
  induction h with
  | fresh h => simp [Sided, h]
  | placed signal strategy lots _ ih => exact placeStrategyOrders_sided ih signal strategy lots
  | mirrored signal strategy sub credential side qty report ts _ ih => exact ih.addPosition rfl
  | changed _ hrows ih => exact ih.changed hrows

end History

section Pool

/-- The word of a payload for entries on the side. -/
def word : OrderSide → String
  | .buy => "long"
  | .sell => "short"

variable (settings : DnaSettings) (d : Db) (strategyId : StrategyId) (now : ℕ) (side : OrderSide)

/-- A priced trade of the owner's that was entered on the side. -/
def OwnTrade (p : StrategyPosition) : Prop :=
  p.strategyId = strategyId ∧ p.subscriptionId = none ∧ p.side = side.value
    ∧ priced settings now p = true

instance (p : StrategyPosition) : Decidable (OwnTrade settings strategyId now side p) :=
  inferInstanceAs (Decidable (_ ∧ _))

/-- The last closed trades of the owner's, up to the size of the pool. -/
def ownTrades : List StrategyPosition :=
  ((d.positions.filter (OwnTrade settings strategyId now side ·)).insertionSort
    fun p p' => p'.closedAt.getD 0 ≤ p.closedAt.getD 0).take maxPoolSize

variable {settings d strategyId now side}

theorem Sided.historyRows_eq_nil (h : Sided d) :
    historyRows settings d strategyId now (word side) = [] := by
  have hnone : (d.positions.filter fun p => p.strategyId = strategyId ∧ p.side = word side
      ∧ priced settings now p = true) = [] := by
    refine List.filter_eq_nil_iff.2 fun p hp => ?_
    obtain ⟨stored, hstored⟩ := h p hp
    have hword : p.side ≠ word side := by
      rw [hstored]
      cases stored <;> cases side <;> decide
    simp [hword]
  unfold historyRows
  rw [hnone]
  rfl

theorem ownTrades_eq_nil_iff : ownTrades settings d strategyId now side = []
    ↔ ∀ p ∈ d.positions, ¬ OwnTrade settings strategyId now side p := by
  have hpos : maxPoolSize ≠ 0 := by decide
  rw [ownTrades, List.take_eq_nil_iff, or_iff_right hpos, ← List.length_eq_zero_iff]
  simp

/-- The pool is made of the owner's trades on the side just where there is none. -/
theorem pool_own_side_iff {cfg : Settings} (h : Recorded cfg d) :
    (historyRows settings d strategyId now (word side)).map (·.2)
        = ownTrades settings d strategyId now side
      ↔ ∀ p ∈ d.positions, ¬ OwnTrade settings strategyId now side p := by
  rw [h.sided.historyRows_eq_nil, eq_comm]
  exact ownTrades_eq_nil_iff

/-- A long trade of the sample strategy, closed and priced. -/
def closedLong : Db :=
  let entered := ((placeStrategyOrders sampleSettings (sampleSignal 100 "ENTRY") sampleStrategy
    none).exec (sampleWorld (.willing filled))).2.db
  { entered with positions := entered.positions.map fun p =>
    { p with status := .closed, closedAt := some p.openedAt, finalPnl := some 900 } }

theorem recorded_closedLong : Recorded sampleSettings closedLong := by
  refine .changed (.placed (w := sampleWorld (.willing filled)) (sampleSignal 100 "ENTRY")
    sampleStrategy none (.fresh rfl)) fun q hq => ?_
  obtain ⟨p, hp, rfl⟩ := List.mem_map.1 hq
  exact ⟨p, hp, rfl⟩

/-- The long trade is not in the pool for long. -/
theorem long_trade_left_out : Recorded sampleSettings closedLong
    ∧ (ownTrades ⟨30, 500⟩ closedLong 1 0 .buy).map (fun p => (p.side, p.finalPnl))
      = [("buy", some 900)]
    ∧ historyRows ⟨30, 500⟩ closedLong 1 0 (word .buy) = [] :=
  ⟨recorded_closedLong, by decide +kernel, by decide +kernel⟩

/-- No trade was short, and the pool for short is empty. -/
theorem pool_own_side_short : (historyRows ⟨30, 500⟩ closedLong 1 0 (word .sell)).map (·.2)
    = ownTrades ⟨30, 500⟩ closedLong 1 0 .sell :=
  (pool_own_side_iff recorded_closedLong).2 (by decide +kernel)

end Pool

end TradingBridge.TradeDna
