import TradingBridge.Lib.Netting
import TradingBridge.Reconciliation

/-!
# When a clean reconciliation means that the books agree

The books agree when, contract by contract, the signed rows add up to what the broker holds. The
reconciliation compares the legs as sets instead. Against a broker that nets, it is clean exactly
on agreeing books as long as every contract has one row, with a quantity and a side; with any other
rows there is a netted broker book on which the two come apart.
-/

namespace TradingBridge

open Netting List

/-- A row's quantity with its sign, as the broker would report it. -/
def StrategyPosition.signedRemaining (p : StrategyPosition) : Int :=
  if p.side.toLower = "sell" ∨ p.side.toLower = "short" then -p.remainingQuantity
  else p.remainingQuantity

def dbNet (rows : List StrategyPosition) (symbol : String) : Int :=
  ((rows.filter fun p => normSymbol p.symbol = normSymbol symbol).map
    StrategyPosition.signedRemaining).sum

def brokerNet (positions : List BrokerPosition) (symbol : String) : Int :=
  ((positions.filter fun bp => normSymbol bp.symbol = normSymbol symbol).map
    BrokerPosition.quantity).sum

def BooksAgree (rows : List StrategyPosition) (positions : List BrokerPosition) : Prop :=
  ∀ symbol, dbNet rows symbol = brokerNet positions symbol

/-- A row with lots left, on a side the broker's legs can have. -/
def StrategyPosition.Sided (p : StrategyPosition) : Prop :=
  0 < p.remainingQuantity ∧ (p.side.toLower = "buy" ∨ p.side.toLower = "sell")

def SingleRows (rows : List StrategyPosition) : Prop :=
  (∀ p ∈ rows, p.Sided) ∧ (rows.map fun p => normSymbol p.symbol).Nodup

def NettedPositions (positions : List BrokerPosition) : Prop :=
  ((positions.filter (·.quantity ≠ 0)).map fun bp => normSymbol bp.symbol).Nodup

section Books

def StrategyPosition.entry (p : StrategyPosition) : String × ℤ :=
  (normSymbol p.symbol, p.signedRemaining)

def BrokerPosition.entry (bp : BrokerPosition) : String × ℤ := (normSymbol bp.symbol, bp.quantity)

def rowBook (rows : List StrategyPosition) : List (String × ℤ) :=
  rows.map StrategyPosition.entry

def brokerBook (positions : List BrokerPosition) : List (String × ℤ) :=
  (positions.filter (·.quantity ≠ 0)).map BrokerPosition.entry

def legOf (e : String × ℤ) : Leg := (e.1, if 0 < e.2 then "buy" else "sell", e.2.natAbs)

variable {rows : List StrategyPosition} {positions : List BrokerPosition}

theorem dbNet_eq (rows : List StrategyPosition) (symbol : String) :
    dbNet rows symbol = Netting.net (rowBook rows) (normSymbol symbol) := by
  unfold dbNet Netting.net rowBook
  rw [filter_map, map_map]
  rfl

theorem brokerNet_eq (positions : List BrokerPosition) (symbol : String) :
    brokerNet positions symbol = Netting.net (brokerBook positions) (normSymbol symbol) := by
  induction positions with
  | nil => rfl
  | cons bp positions ih =>
    have hhead : brokerNet (bp :: positions) symbol
        = (if normSymbol bp.symbol = normSymbol symbol then bp.quantity else 0)
          + brokerNet positions symbol := by
      unfold brokerNet
      by_cases hs : normSymbol bp.symbol = normSymbol symbol <;> simp [hs]
    rw [hhead, ih]
    by_cases hq : bp.quantity = 0
    · simp [brokerBook, hq]
    · simp [brokerBook, hq, net_cons, BrokerPosition.entry]

theorem booksAgree_iff :
    BooksAgree rows positions ↔
      ∀ k, Netting.net (rowBook rows) k = Netting.net (brokerBook positions) k := by
  simp only [BooksAgree, dbNet_eq, brokerNet_eq]
  refine ⟨fun h k => ?_, fun h symbol => h _⟩
  by_cases hk : ∃ symbol, normSymbol symbol = k
  · obtain ⟨symbol, rfl⟩ := hk
    exact h symbol
  · rw [net_eq_zero, net_eq_zero]
    · intro hmem
      simp only [brokerBook, map_map, mem_map] at hmem
      obtain ⟨bp, -, rfl⟩ := hmem
      exact hk ⟨bp.symbol, rfl⟩
    · intro hmem
      simp only [rowBook, map_map, mem_map] at hmem
      obtain ⟨p, -, rfl⟩ := hmem
      exact hk ⟨p.symbol, rfl⟩

theorem legOf_inj {e f : String × ℤ} (he : e.2 ≠ 0) (hf : f.2 ≠ 0) (h : legOf e = legOf f) :
    e = f := by
  obtain ⟨k, a⟩ := e
  obtain ⟨j, b⟩ := f
  simp only [legOf, Prod.mk.injEq] at h he hf ⊢
  obtain ⟨hk, hside, hquantity⟩ := h
  refine ⟨hk, ?_⟩
  by_cases ha : 0 < a <;> by_cases hb : 0 < b <;> simp only [ha, hb] at hside
  · omega
  · exact absurd hside (by decide)
  · exact absurd hside (by decide)
  · omega

variable {e : String × ℤ}

theorem legOf_sided (he : e.2 ≠ 0) :
    0 < (legOf e).2.2 ∧ ((legOf e).2.1 = "buy" ∨ (legOf e).2.1 = "sell") := by
  refine ⟨by simp [legOf]; omega, ?_⟩
  by_cases ha : 0 < e.2
  · exact .inl (if_pos ha)
  · exact .inr (if_neg ha)

theorem StrategyPosition.Sided.leg_eq {p : StrategyPosition} (h : p.Sided) :
    p.leg = legOf p.entry ∧ p.signedRemaining ≠ 0 := by
  obtain ⟨hpos, hside⟩ := h
  unfold leg legOf entry signedRemaining
  rcases hside with hside | hside <;> rw [hside]
  · simp only [show ¬ ("buy" = "sell" ∨ "buy" = "short") by decide, if_false, if_pos hpos]
    refine ⟨?_, by omega⟩
    rw [Int.natAbs_of_nonneg (by omega)]
  · simp only [true_or, if_true, if_neg (show ¬ 0 < -p.remainingQuantity by omega)]
    refine ⟨?_, by omega⟩
    rw [Int.natAbs_neg, Int.natAbs_of_nonneg (by omega)]

theorem mem_dbSet {leg : Leg} : leg ∈ dbSet rows ↔ ∃ p ∈ rows, p.leg = leg := by
  simp [dbSet]

theorem mem_brokerSet {leg : Leg} :
    leg ∈ brokerSet positions ↔ ∃ e ∈ brokerBook positions, legOf e = leg := by
  simp only [brokerSet, brokerBook, mem_dedup, mem_map]
  constructor
  · rintro ⟨bp, hbp, rfl⟩
    exact ⟨bp.entry, ⟨bp, hbp, rfl⟩, rfl⟩
  · rintro ⟨e, ⟨bp, hbp, rfl⟩, rfl⟩
    exact ⟨bp, hbp, rfl⟩

theorem brokerBook_nonzero (he : e ∈ brokerBook positions) : e.2 ≠ 0 := by
  simp only [brokerBook, mem_map, mem_filter, decide_not, Bool.not_eq_true',
    decide_eq_false_iff_not] at he
  obtain ⟨bp, ⟨-, hne⟩, rfl⟩ := he
  exact hne

theorem mismatches_eq_zero_iff :
    mismatches rows positions = 0 ↔ ∀ leg, leg ∈ dbSet rows ↔ leg ∈ brokerSet positions := by
  simp only [mismatches, Nat.add_eq_zero_iff, length_eq_zero_iff, dbOnly, brokerOnly,
    filter_eq_nil_iff, decide_not, Bool.not_eq_true', decide_eq_false_iff_not, not_not]
  exact ⟨fun h leg => ⟨h.1 leg, h.2 leg⟩, fun h => ⟨fun leg => (h leg).1, fun leg => (h leg).2⟩⟩

theorem mismatches_eq_zero_iff_entries (hrows : ∀ p ∈ rows, p.Sided) :
    mismatches rows positions = 0 ↔ ∀ e, e ∈ rowBook rows ↔ e ∈ brokerBook positions := by
  rw [mismatches_eq_zero_iff]
  constructor
  · intro h e
    constructor
    · intro he
      obtain ⟨p, hp, rfl⟩ := mem_map.1 he
      obtain ⟨hleg, hne⟩ := (hrows p hp).leg_eq
      obtain ⟨f, hf, hfleg⟩ := mem_brokerSet.1 ((h p.leg).1 (mem_dbSet.2 ⟨p, hp, rfl⟩))
      exact legOf_inj (brokerBook_nonzero hf) hne (hfleg.trans hleg) ▸ hf
    · intro he
      obtain ⟨p, hp, hpleg⟩ := mem_dbSet.1 ((h (legOf e)).2 (mem_brokerSet.2 ⟨e, he, rfl⟩))
      obtain ⟨hleg, hne⟩ := (hrows p hp).leg_eq
      exact legOf_inj hne (brokerBook_nonzero he) (hleg.symm.trans hpleg)
        ▸ mem_map_of_mem hp
  · intro h leg
    rw [mem_dbSet, mem_brokerSet]
    constructor
    · rintro ⟨p, hp, rfl⟩
      exact ⟨p.entry, (h _).1 (mem_map_of_mem hp), (hrows p hp).leg_eq.1.symm⟩
    · rintro ⟨e, he, rfl⟩
      obtain ⟨p, hp, rfl⟩ := mem_map.1 ((h e).2 he)
      exact ⟨p, hp, (hrows p hp).leg_eq.1⟩

theorem SingleRows.single (h : SingleRows rows) : Single (rowBook rows) := by
  refine ⟨?_, fun e he => ?_⟩
  · simpa [rowBook, Function.comp_def, StrategyPosition.entry] using h.2
  · obtain ⟨p, hp, rfl⟩ := mem_map.1 he
    exact (h.1 p hp).leg_eq.2

theorem nettedPositions_iff : NettedPositions positions ↔ Single (brokerBook positions) := by
  have hkeys : (brokerBook positions).map Prod.fst
      = (positions.filter (·.quantity ≠ 0)).map fun bp => normSymbol bp.symbol := by
    simp [brokerBook, BrokerPosition.entry]
  rw [NettedPositions, ← hkeys]
  exact ⟨fun h => ⟨h, fun _ => brokerBook_nonzero⟩, fun h => h.nodup⟩

end Books

theorem exists_map_eq {α β : Type} {f : α → β} {P : α → Prop} :
    ∀ {l : List β}, (∀ b ∈ l, ∃ a, P a ∧ f a = b) → ∃ L : List α, (∀ a ∈ L, P a) ∧ L.map f = l
  | [], _ => ⟨[], by simp, rfl⟩
  | b :: l, h => by
    obtain ⟨a, ha, rfl⟩ := h b (mem_cons_self ..)
    obtain ⟨L, hL, rfl⟩ := exists_map_eq fun b' hb' => h b' (mem_cons_of_mem _ hb')
    exact ⟨a :: L, forall_mem_cons.2 ⟨ha, hL⟩, rfl⟩

def openRow (symbol side : String) (quantity : Int) : StrategyPosition where
  id := 0
  userId := 0
  strategyId := 0
  brokerCredentialId := 0
  signalId := none
  subscriptionId := none
  symbol := symbol
  side := side
  totalQuantity := quantity
  remainingQuantity := quantity
  avgEntryPrice := none
  targetPrice := none
  stopLossPrice := none
  trailOffset := none
  highestPriceSeen := none
  bestPrice := none
  currentAtr := none
  circuitBreakerTriggered := false
  exitReason := none
  status := .opened
  lastAction := none
  actionHistory := []
  openedAt := 0
  closedAt := none
  finalPnl := none

def brokerHolds (symbol : String) (quantity : Int) : BrokerPosition :=
  ⟨symbol, .nfo, quantity, .margin⟩

theorem toLower_sides : "buy".toLower = "buy" ∧ "sell".toLower = "sell" := by decide +kernel

theorem exists_openRow (symbol : String) {a : ℤ} (ha : a ≠ 0) :
    ∃ p : StrategyPosition, p.Sided ∧ p.entry = (normSymbol symbol, a) := by
  rcases lt_or_gt_of_ne ha with hneg | hpos
  · refine ⟨openRow symbol "sell" (-a), ⟨by simp [openRow]; omega, .inr ?_⟩, ?_⟩
    · exact toLower_sides.2
    · simp [StrategyPosition.entry, StrategyPosition.signedRemaining, openRow, toLower_sides.2]
  · refine ⟨openRow symbol "buy" a, ⟨hpos, .inl toLower_sides.1⟩, ?_⟩
    simp [StrategyPosition.entry, StrategyPosition.signedRemaining, openRow, toLower_sides.1]

theorem key_of_mem_nets {l : List (String × ℤ)} {e : String × ℤ} (h : e ∈ nets l) :
    e.1 ∈ l.map Prod.fst ∧ e.2 ≠ 0 := by
  obtain ⟨hnet, hne⟩ := mem_nets.1 h
  exact ⟨by_contra fun hk => hne (hnet ▸ net_eq_zero hk), hne⟩

theorem exists_netted (rows : List StrategyPosition) :
    ∃ positions, brokerBook positions = nets (rowBook rows) := by
  have hentry : ∀ e ∈ nets (rowBook rows),
      ∃ bp : BrokerPosition, bp.quantity ≠ 0 ∧ bp.entry = e := by
    intro e he
    obtain ⟨hkey, hne⟩ := key_of_mem_nets he
    simp only [rowBook, map_map, mem_map] at hkey
    obtain ⟨p, -, hp⟩ := hkey
    exact ⟨brokerHolds p.symbol e.2, hne, Prod.ext hp rfl⟩
  obtain ⟨positions, hall, hmap⟩ := exists_map_eq hentry
  refine ⟨positions, ?_⟩
  have hopen : positions.filter (·.quantity ≠ 0) = positions :=
    filter_eq_self.2 fun bp hbp => decide_eq_true (hall bp hbp)
  rw [brokerBook, hopen, hmap]

theorem exists_singleRows (positions : List BrokerPosition) :
    ∃ rows, SingleRows rows ∧ rowBook rows = nets (brokerBook positions) := by
  have hentry : ∀ e ∈ nets (brokerBook positions),
      ∃ p : StrategyPosition, p.Sided ∧ p.entry = e := by
    intro e he
    obtain ⟨hkey, hne⟩ := key_of_mem_nets he
    simp only [brokerBook, map_map, mem_map] at hkey
    obtain ⟨bp, -, hbp⟩ := hkey
    obtain ⟨p, hp, hpe⟩ := exists_openRow bp.symbol hne
    exact ⟨p, hp, hpe.trans (Prod.ext hbp rfl)⟩
  obtain ⟨rows, hall, hmap⟩ := exists_map_eq hentry
  refine ⟨rows, ⟨hall, ?_⟩, hmap⟩
  have hnodup := (single_nets (brokerBook positions)).nodup
  rw [← hmap] at hnodup
  simpa [Function.comp_def, StrategyPosition.entry] using hnodup

variable {rows : List StrategyPosition} {positions : List BrokerPosition}

theorem clean_iff_agree (hrows : SingleRows rows) (hpositions : NettedPositions positions) :
    mismatches rows positions = 0 ↔ BooksAgree rows positions := by
  rw [mismatches_eq_zero_iff_entries hrows.1, booksAgree_iff]
  exact hrows.single.mem_iff_mem (nettedPositions_iff.1 hpositions)

/-- Clean against the nets of its own rows, a book has one row for each contract. -/
theorem singleRows_of_clean (hbook : brokerBook positions = nets (rowBook rows))
    (hclean : mismatches rows positions = 0) : SingleRows rows := by
  have hsided : ∀ p ∈ rows, p.Sided := by
    intro p hp
    obtain ⟨e, he, hleg⟩ := mem_brokerSet.1
      ((mismatches_eq_zero_iff.1 hclean p.leg).1 (mem_dbSet.2 ⟨p, hp, rfl⟩))
    have hside := legOf_sided (brokerBook_nonzero he)
    rwa [hleg] at hside
  have hsingle : Single (rowBook rows) := by
    refine single_of_mem_nets fun e he => ?_
    rw [← hbook]
    exact ((mismatches_eq_zero_iff_entries hsided).1 hclean e).1 he
  refine ⟨hsided, ?_⟩
  simpa [rowBook, Function.comp_def, StrategyPosition.entry] using hsingle.nodup

theorem nettedPositions_of_clean (hrows : SingleRows rows)
    (hbook : rowBook rows = nets (brokerBook positions))
    (hclean : mismatches rows positions = 0) : NettedPositions positions := by
  refine nettedPositions_iff.2 (single_of_mem_nets fun e he => ?_)
  rw [← hbook]
  exact ((mismatches_eq_zero_iff_entries hrows.1).1 hclean e).2 he

/-- Clean exactly on agreeing books: for rows that name a contract once, and against books that
do. -/
theorem clean_iff_agree_iff (rows : List StrategyPosition) (positions : List BrokerPosition) :
    ((∀ positions, NettedPositions positions →
        (mismatches rows positions = 0 ↔ BooksAgree rows positions)) ↔ SingleRows rows)
      ∧ ((∀ rows, SingleRows rows → (mismatches rows positions = 0 ↔ BooksAgree rows positions))
        ↔ NettedPositions positions) := by
  refine ⟨⟨fun h => ?_, fun h positions => clean_iff_agree h⟩,
    fun h => ?_, fun h rows hrows => clean_iff_agree hrows h⟩
  · obtain ⟨positions, hbook⟩ := exists_netted rows
    have hnetted : NettedPositions positions := by
      rw [nettedPositions_iff, hbook]
      exact single_nets _
    have hagree : BooksAgree rows positions := by
      rw [booksAgree_iff, hbook]
      exact fun k => (net_nets _ k).symm
    exact singleRows_of_clean hbook ((h positions hnetted).2 hagree)
  · obtain ⟨rows, hrows, hbook⟩ := exists_singleRows positions
    have hagree : BooksAgree rows positions := by
      rw [booksAgree_iff, hbook]
      exact fun k => net_nets _ k
    exact nettedPositions_of_clean hrows hbook ((h rows hrows).2 hagree)

section SplitRows

variable (a b : Int)

/-- Two rows of a contract, and what the broker holds of it. -/
def splitRows : List StrategyPosition :=
  [openRow "NIFTY" "buy" a, openRow "NIFTY" "buy" b]

def heldAtBroker (q : Int) : List BrokerPosition := [brokerHolds "Nifty" q]

theorem normSymbol_nifty : normSymbol "Nifty" = "NIFTY" ∧ normSymbol "NIFTY" = "NIFTY" := by
  decide +kernel

theorem dbSet_splitRows :
    dbSet (splitRows a b) = [("NIFTY", "buy", a), ("NIFTY", "buy", b)].dedup := by
  simp [dbSet, splitRows, StrategyPosition.leg, openRow, normSymbol_nifty.2, toLower_sides.1]

theorem brokerSet_heldAtBroker {q : Int} (hq : 0 < q) :
    brokerSet (heldAtBroker q) = [("NIFTY", "buy", q)] := by
  have hne : q ≠ 0 := by omega
  simp [brokerSet, heldAtBroker, brokerHolds, hne, BrokerPosition.leg, normSymbol_nifty.1]
  omega

theorem dbNet_splitRows (symbol : String) :
    dbNet (splitRows a b) symbol = if normSymbol symbol = "NIFTY" then a + b else 0 := by
  by_cases hs : "NIFTY" = normSymbol symbol
  · simp [dbNet, splitRows, openRow, StrategyPosition.signedRemaining, normSymbol_nifty.2, ← hs,
      toLower_sides.1]
  · simp [dbNet, splitRows, openRow, normSymbol_nifty.2, hs, Ne.symm hs]

theorem brokerNet_heldAtBroker (q : Int) (symbol : String) :
    brokerNet (heldAtBroker q) symbol = if normSymbol symbol = "NIFTY" then q else 0 := by
  by_cases hs : "NIFTY" = normSymbol symbol
  · simp [brokerNet, heldAtBroker, brokerHolds, normSymbol_nifty.1, ← hs]
  · simp [brokerNet, heldAtBroker, brokerHolds, normSymbol_nifty.1, hs, Ne.symm hs]

theorem splitRows_agree_iff (a b q : Int) :
    BooksAgree (splitRows a b) (heldAtBroker q) ↔ a + b = q := by
  simp only [BooksAgree, dbNet_splitRows, brokerNet_heldAtBroker]
  constructor
  · intro h
    simpa [normSymbol_nifty.2] using h "NIFTY"
  · rintro rfl symbol
    rfl

/-- 50 and 25 of a contract held 75 of: the books agree and legs are reported. Two rows of 50
against 50 read as clean. -/
theorem clean_iff_agree_split_rows : (BooksAgree (splitRows 50 25) (heldAtBroker 75)
        ∧ mismatches (splitRows 50 25) (heldAtBroker 75) = 3)
      ∧ mismatches (splitRows 50 50) (heldAtBroker 50) = 0
      ∧ ¬ BooksAgree (splitRows 50 50) (heldAtBroker 50) := by
  rw [splitRows_agree_iff, splitRows_agree_iff]
  refine ⟨⟨by decide, ?_⟩, ?_, by decide⟩
  · rw [mismatches, dbOnly, brokerOnly, dbSet_splitRows]
    decide +kernel
  · rw [mismatches, dbOnly, brokerOnly, dbSet_splitRows]
    decide +kernel

end SplitRows

end TradingBridge
