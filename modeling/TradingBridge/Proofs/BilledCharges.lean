import TradingBridge.Proofs.BotOnly
import TradingBridge.TradeBook

/-!
# What a trip's charges add up to

The charges of a trip are summed over its fills, each order id and trade id once. The rows of the
history carry no trade id of their own, so of several partial fills of one order only the first is
counted: the sum is that of all fills used exactly if the others were billed nothing.
-/

namespace TradingBridge

open List

variable {entryIds botIds : List String} {fills book : List AccountFill}

theorem filter_isEntry_eq_nil {l : List AccountFill} (h : ∀ f ∈ l, isEntry entryIds f = false) :
    l.filter (isEntry entryIds) = [] :=
  filter_eq_nil_iff.2 fun f hf => by simp [h f hf]

theorem filter_isEntry_span (entryIds : List String) (book : List AccountFill) :
    book.filter (isEntry entryIds) = (entrySpan entryIds book).filter (isEntry entryIds) := by
  have hbefore : (beforeEntry entryIds book).filter (isEntry entryIds) = [] :=
    filter_isEntry_eq_nil fun f hf => by simpa using mem_takeWhile_imp hf
  have hafter : (afterEntry entryIds book).filter (isEntry entryIds) = [] :=
    filter_isEntry_eq_nil fun f hf => by simpa using mem_rtakeWhile_imp hf
  conv_lhs => rw [entry_cut entryIds book]
  rw [filter_append, filter_append, hbefore, hafter, nil_append, append_nil]

theorem used_fills_subperm (entryIds : List String) (fills : List AccountFill)
    (botIds : List String) :
    ((attributeTrip entryIds fills botIds).entryFills ++
      (attributeTrip entryIds fills botIds).exitFills).Subperm fills := by
  rcases attributeTrip_of entryIds botIds fills with ⟨_, _, -, heq⟩ | ⟨c, hcontract, hbook, hof⟩
  · rw [heq]
    exact nil_subperm
  obtain ⟨hentries, hexits⟩ := hof.used
  rw [hentries]
  rw [hbook] at hexits
  have hspan : (sortFills fills).filter (isEntry entryIds) = (entrySpan entryIds
      ((sortFills fills).filter (·.contract = c))).filter (isEntry entryIds) := by
    rw [← filter_isEntry_span, filter_filter]
    refine filter_congr fun f hf => ?_
    by_cases hentry : isEntry entryIds f = true
    · simp [hcontract f (mem_filter.2 ⟨hf, hentry⟩)]
    · simp [hentry]
  have hsub : ((sortFills fills).filter (isEntry entryIds)
      ++ (attributeTrip entryIds fills botIds).exitFills).Sublist
      ((sortFills fills).filter (·.contract = c)) := by
    rw [entry_cut entryIds ((sortFills fills).filter (·.contract = c))]
    refine List.Sublist.trans ?_ (sublist_append_right _ _)
    refine List.Sublist.append ?_ hexits.sublist
    rw [hspan]
    exact filter_sublist
  exact (hsub.trans filter_sublist).subperm.trans
    (perm_insertionSort _ fills).subperm

def chargesSum (l : List AccountFill) : ℚ := (l.map fun f => f.charges.getD 0).sum

def repeatedFills (seen : List (String × String)) : List AccountFill → List AccountFill
  | [] => []
  | f :: fs =>
    if seen.contains (f.orderId, f.tradeId) then f :: repeatedFills seen fs
    else repeatedFills ((f.orderId, f.tradeId) :: seen) fs

theorem billedCharges_go : ∀ {seen : List (String × String)} {l : List AccountFill} {total : ℚ},
    Attribution.billedCharges.go seen l = some total →
    total + chargesSum (repeatedFills seen l) = chargesSum l
  | seen, [], total, h => by
    rw [Attribution.billedCharges.go, Option.some.injEq] at h
    simp [← h, repeatedFills, chargesSum]
  | seen, f :: fs, total, h => by
    rw [Attribution.billedCharges.go] at h
    obtain ⟨c, hc, h⟩ := Option.bind_eq_some_iff.1 h
    have hcons : ∀ l, chargesSum (f :: l) = c + chargesSum l := fun l => by
      rw [chargesSum, map_cons, hc]
      rfl
    simp only [repeatedFills, contains_iff_mem]
    split_ifs at h ⊢ with hseen
    · have ih := billedCharges_go h
      rw [hcons, hcons, ← ih]
      ring
    · obtain ⟨rest, hrest, rfl⟩ := Option.map_eq_some_iff.1 h
      have ih := billedCharges_go hrest
      rw [hcons, ← ih]
      ring

/-- The fills used are fills of the book, each once, and their billed charges complete exactly if
the fills that repeat an order id and trade id were billed nothing in all. -/
theorem billed_charges_complete_iff (rows : List TradeRow) (entryIds botIds : List String)
    (billed : ℚ)
    (h : (attributeTrip entryIds (accountFillsFromRows rows) botIds).billedCharges =
      some billed) :
    ((attributeTrip entryIds (accountFillsFromRows rows) botIds).entryFills ++
      (attributeTrip entryIds (accountFillsFromRows rows) botIds).exitFills).Subperm
        (accountFillsFromRows rows) ∧
    (billed = chargesSum ((attributeTrip entryIds (accountFillsFromRows rows) botIds).entryFills ++
        (attributeTrip entryIds (accountFillsFromRows rows) botIds).exitFills) ↔
      chargesSum (repeatedFills []
        ((attributeTrip entryIds (accountFillsFromRows rows) botIds).entryFills ++
          (attributeTrip entryIds (accountFillsFromRows rows) botIds).exitFills)) = 0) := by
  refine ⟨used_fills_subperm entryIds (accountFillsFromRows rows) botIds, ?_⟩
  rw [← billedCharges_go h, left_eq_add]

def historyRow (order side : String) (qty : Int) (price : String × ℚ) (time : Nat) (stt : ℚ) :
    TradeRow :=
  { customSymbol := some "BSE SEP FUT", drvOptionType := some "NA",
    exchangeSegment := some "NSE_FNO", tradedPrice := some price, tradedQuantity := some qty,
    orderId := some order, exchangeTime := some ⟨1, time⟩, transactionType := some side,
    securityId := some "68456", exchangeTradeId := some "0", stt := .amount stt }

/-- An entry of 400, sold by one order in two parts. -/
def twoPartials : List TradeRow :=
  [historyRow "entry" "BUY" 400 ("100", 100) 1 20, historyRow "exit" "SELL" 200 ("110", 110) 2 15,
    historyRow "exit" "SELL" 200 ("111", 111) 2 12]

/-- Both partial fills of the exit are used and priced, and the charges of one are left out. -/
theorem partial_fill_not_billed :
    let a := attributeTrip ["entry"] (accountFillsFromRows twoPartials) ["entry", "exit"]
    a.tag = .botOnly ∧ a.exitFills.length = 2 ∧ a.billedCharges = some 35 ∧
      chargesSum (a.entryFills ++ a.exitFills) = 47 := by
  decide +kernel

def onePartial : List TradeRow :=
  [historyRow "entry" "BUY" 400 ("100", 100) 1 20, historyRow "exit" "SELL" 400 ("110", 110) 2 27]

theorem onePartial_billed :
    ((attributeTrip ["entry"] (accountFillsFromRows onePartial) ["entry", "exit"]).entryFills ++
      (attributeTrip ["entry"] (accountFillsFromRows onePartial)
        ["entry", "exit"]).exitFills).Subperm (accountFillsFromRows onePartial) ∧
    47 = chargesSum
      ((attributeTrip ["entry"] (accountFillsFromRows onePartial) ["entry", "exit"]).entryFills ++
        (attributeTrip ["entry"] (accountFillsFromRows onePartial) ["entry", "exit"]).exitFills) :=
  have h := billed_charges_complete_iff onePartial ["entry"] ["entry", "exit"] 47
    (by decide +kernel)
  ⟨h.1, h.2.2 (by decide +kernel)⟩

end TradingBridge
