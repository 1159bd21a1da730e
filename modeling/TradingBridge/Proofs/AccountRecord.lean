import TradingBridge.AccountRecord

/-!
# What the account's record says

A row of the table is written from the first fill of its order and never again, so it carries the
order's totals exactly where an order has one distinct fill (`order_totals_iff`). The same-day
check finds a discrepancy and reports it, unless the broker could not be asked
(`sameDay_red_iff`).
-/

namespace TradingBridge

open List

section Ingest

def ProvenanceRow.amounts (row : ProvenanceRow) : Int × Option ℚ :=
  (row.quantity, row.billedCharges)

/-- The table after runs over any books, from the empty one. -/
def provenanceAfter (runs : List IngestRun) : ProvenanceTable :=
  runs.foldl (fun table run => (ingestFills table run).1) fun _ => none

def ingested (runs : List IngestRun) : List AccountFill :=
  runs.flatMap fun run => if run.stops then [] else run.fills

def ofOrder (o : String) (fill : AccountFill) : Bool := fill.orderId = o

def firstAmounts (o : String) (fills : List AccountFill) : Option (Int × Option ℚ) :=
  (fills.find? (ofOrder o)).map fun fill => (fill.qty, fill.charges)

variable {o : String} {run : IngestRun} {runs : List IngestRun}

theorem firstAmounts_append (l l' : List AccountFill) :
    firstAmounts o (l ++ l') = (firstAmounts o l).or (firstAmounts o l') := by
  unfold firstAmounts
  rw [find?_append]
  cases l.find? (ofOrder o) <;> simp

theorem ingestFill_amounts (ho : o ≠ "") (acc : ProvenanceTable × IngestResult)
    (fill : AccountFill) :
    ((ingestFill run acc fill).1 o).map (·.amounts) =
      ((acc.1 o).map (·.amounts)).or (firstAmounts o [fill]) := by
  unfold ingestFill firstAmounts ofOrder
  by_cases hfill : fill.orderId = o
  · subst hfill
    rw [if_neg ho]
    rcases hrow : acc.1 fill.orderId with - | row
    · simp [ProvenanceRow.amounts]
    · simp [hrow]
  · split_ifs
    · simp [hfill]
    · rcases acc.1 fill.orderId with - | row
      · simp [hfill, Function.update_of_ne (Ne.symm hfill)]
      · simp [hfill]

theorem foldl_ingestFill_amounts (ho : o ≠ "") (fills : List AccountFill)
    (acc : ProvenanceTable × IngestResult) :
    ((fills.foldl (ingestFill run) acc).1 o).map (·.amounts) =
      ((acc.1 o).map (·.amounts)).or (firstAmounts o fills) := by
  induction fills generalizing acc with
  | nil => simp [firstAmounts]
  | cons fill fills ih =>
    rw [foldl_cons, ih, ingestFill_amounts ho, Option.or_assoc, ← firstAmounts_append,
      singleton_append]

theorem provenanceAfter_append (runs : List IngestRun) (run : IngestRun) :
    provenanceAfter (runs ++ [run]) = (ingestFills (provenanceAfter runs) run).1 := by
  simp [provenanceAfter]

theorem provenanceAfter_amounts (ho : o ≠ "") (runs : List IngestRun) :
    (provenanceAfter runs o).map (·.amounts) = firstAmounts o (ingested runs) := by
  induction runs using reverseRecOn with
  | nil => rfl
  | append_singleton runs run ih =>
    rw [provenanceAfter_append]
    unfold ingestFills ingested
    rw [flatMap_append, flatMap_singleton, firstAmounts_append]
    split_ifs
    · rw [ih]
      simp [firstAmounts, ingested]
    · rw [foldl_ingestFill_amounts ho, ih]
      rfl

variable {fills : List AccountFill} {fill : AccountFill}

theorem ingestFill_of_present {acc : ProvenanceTable × IngestResult}
    (h : fill.orderId ≠ "" → (acc.1 fill.orderId).isSome) :
    (ingestFill run acc fill).1 = acc.1 := by
  unfold ingestFill
  split_ifs with ho
  · rfl
  · obtain ⟨row, hrow⟩ := Option.isSome_iff_exists.1 (h ho)
    simp [hrow]

theorem foldl_ingestFill_of_present {fills : List AccountFill}
    {acc : ProvenanceTable × IngestResult}
    (h : ∀ fill ∈ fills, fill.orderId ≠ "" → (acc.1 fill.orderId).isSome) :
    (fills.foldl (ingestFill run) acc).1 = acc.1 :=
  List.foldlRecOn (motive := fun x : ProvenanceTable × IngestResult => x.1 = acc.1) fills _ rfl
    fun _ hx fill hfill => (ingestFill_of_present (hx ▸ h fill hfill)).trans hx

theorem provenanceAfter_again (h : run.stops = true ∨ run.fills ⊆ ingested runs) :
    provenanceAfter (runs ++ [run]) = provenanceAfter runs := by
  rw [provenanceAfter_append]
  unfold ingestFills
  split_ifs with hstops
  · rfl
  · refine foldl_ingestFill_of_present fun fill hfill ho => ?_
    have hmem := h.resolve_left (by simpa using hstops) hfill
    rw [← Option.isSome_map, provenanceAfter_amounts ho, firstAmounts, Option.isSome_map,
      find?_isSome]
    exact ⟨fill, hmem, by simp [ofOrder]⟩

def orderFills (runs : List IngestRun) (o : String) : List AccountFill :=
  ((ingested runs).filter (ofOrder o)).dedup

def totalCharges (fills : List AccountFill) : Option ℚ :=
  (fills.mapM AccountFill.charges).map List.sum

/-- Each order's row carries its totals, and a book all ingested changes nothing. -/
def RecordsTotals (runs : List IngestRun) : Prop :=
  (∀ o ≠ "", orderFills runs o ≠ [] → (provenanceAfter runs o).map (·.amounts) =
      some (((orderFills runs o).map (·.qty)).sum, totalCharges (orderFills runs o))) ∧
    ∀ run, run.stops = true ∨ run.fills ⊆ ingested runs →
      provenanceAfter (runs ++ [run]) = provenanceAfter runs

theorem mem_orderFills :
    fill ∈ orderFills runs o ↔ fill ∈ ingested runs ∧ fill.orderId = o := by
  simp [orderFills, ofOrder]

/-- Fills whose quantities add up to that of one of them are all that one. -/
theorem eq_of_sum_qty {f g : AccountFill} (hf : f ∈ fills)
    (hg : g ∈ fills) (hsum : (fills.map (·.qty)).sum = f.qty) : g = f := by
  by_contra hne
  have herase := ((perm_cons_erase hf).map (·.qty)).sum_eq
  have hle : g.qty ≤ ((fills.erase f).map (·.qty)).sum :=
    single_le_sum (by
      rintro _ hx
      obtain ⟨fill, -, rfl⟩ := mem_map.1 hx
      exact fill.qty_pos.le) _ (mem_map_of_mem ((mem_erase_of_ne hne).2 hg))
  have hpos := g.qty_pos
  rw [map_cons, sum_cons] at herase
  omega

theorem firstAmounts_eq_some {amounts : Int × Option ℚ}
    (h : firstAmounts o fills = some amounts) :
    ∃ fill ∈ fills, fill.orderId = o ∧ amounts = (fill.qty, fill.charges) := by
  obtain ⟨fill, hfind, rfl⟩ := Option.map_eq_some_iff.1 h
  exact ⟨fill, mem_of_find?_eq_some hfind,
    by simpa [ofOrder] using find?_some hfind, rfl⟩

theorem order_totals_iff (runs : List IngestRun) :
    RecordsTotals runs ↔ ∀ f ∈ ingested runs, ∀ g ∈ ingested runs,
      f.orderId ≠ "" → g.orderId = f.orderId → g = f := by
  constructor
  · rintro ⟨htotals, -⟩ f hf g hg ho hgo
    have hmem : f ∈ orderFills runs f.orderId := mem_orderFills.2 ⟨hf, rfl⟩
    have hrow := htotals f.orderId ho (ne_nil_of_mem hmem)
    rw [provenanceAfter_amounts ho] at hrow
    obtain ⟨first, hfirst, hfo, heq⟩ := firstAmounts_eq_some hrow
    obtain ⟨hsum, -⟩ := Prod.mk.inj heq
    have hone := mem_orderFills.2 ⟨hfirst, hfo⟩
    rw [eq_of_sum_qty hone hmem hsum]
    exact eq_of_sum_qty hone (mem_orderFills.2 ⟨hg, hgo⟩) hsum
  · refine fun hone => ⟨fun o ho hne => ?_, fun run h => provenanceAfter_again h⟩
    obtain ⟨f, hf⟩ := exists_mem_of_ne_nil _ hne
    obtain ⟨hmem, hfo⟩ := mem_orderFills.1 hf
    have hall : ∀ g, g ∈ orderFills runs o ↔ g ∈ [f] := fun g => by
      rw [mem_singleton]
      refine ⟨fun hg => ?_, fun hg => hg ▸ hf⟩
      obtain ⟨hg, hgo⟩ := mem_orderFills.1 hg
      exact hone f hmem g hg (hfo ▸ ho) (hgo.trans hfo.symm)
    have hsingle : orderFills runs o = [f] := perm_singleton.1
      ((perm_ext_iff_of_nodup (nodup_dedup _) (nodup_singleton f)).2 hall)
    obtain ⟨first, hfirst⟩ : ∃ first, (ingested runs).find? (ofOrder o) = some first :=
      Option.isSome_iff_exists.1 (find?_isSome.2 ⟨f, hmem, by simp [ofOrder, hfo]⟩)
    have heq : first = f := mem_singleton.1 ((hall first).1 (mem_orderFills.2
      ⟨mem_of_find?_eq_some hfirst, by simpa [ofOrder] using find?_some hfirst⟩))
    rw [provenanceAfter_amounts ho, firstAmounts, hfirst, heq, hsingle]
    simp [totalCharges]

/-- One exit order filled in two parts, in one book. -/
def partialsRun : IngestRun where
  fills :=
    [{ contract := "68456", orderId := "exit", side := .sell, qty := 100, price := 110,
        ts := ⟨1, 2⟩, tradeId := "1", orderPlatform := none, charges := some 20,
        qty_pos := by decide },
      { contract := "68456", orderId := "exit", side := .sell, qty := 300, price := 110,
        ts := ⟨1, 2⟩, tradeId := "2", orderPlatform := none, charges := some 60,
        qty_pos := by decide }]
  tape := [("exit", ⟨some "API", none, none⟩)]
  ledgerOrderIds := {"exit"}
  platformOrderIds := ∅

/-- The row keeps the first part; the second is not written down. -/
theorem second_partial_not_recorded :
    (provenanceAfter [partialsRun] "exit").map (·.amounts) = some (100, some 20) ∧
      ((orderFills [partialsRun] "exit").map (·.qty)).sum = 400 ∧
      totalCharges (orderFills [partialsRun] "exit") = some 80 := by
  decide +kernel

end Ingest

def Discrepancy (tapeOrders platformOrders : Finset String) (phantomPositions : List String) :
    Prop :=
  (∃ o ∈ tapeOrders, o ∉ platformOrders) ∨ phantomPositions ≠ []

theorem sort_eq_nil {s : Finset String} : s.sort (· ≤ ·) = [] ↔ s = ∅ := by
  rw [← length_eq_zero_iff, Finset.length_sort, Finset.card_eq_zero]

theorem sameDay_red_iff (tapeOrders platformOrders : Finset String) (dayQtyMoved : Option Int)
    (phantomPositions : List String) (tapeLoaded : Bool) :
    (Discrepancy tapeOrders platformOrders phantomPositions →
      (evaluateSameDay tapeOrders platformOrders dayQtyMoved phantomPositions tapeLoaded).verdict
        = .red) ↔
      (Discrepancy tapeOrders platformOrders phantomPositions →
        tapeLoaded = false ∨ dayQtyMoved.isSome) := by
  refine forall_congr' fun hd => ?_
  unfold evaluateSameDay
  split_ifs with hloaded
  · simp [hloaded]
  · rcases dayQtyMoved with - | qty
    · simp [hloaded]
    · have hfound : (tapeOrders \ platformOrders).sort (· ≤ ·) ≠ [] ∨
          phantomPositions.toFinset.sort (· ≤ ·) ≠ [] := by
        rw [ne_eq, ne_eq, sort_eq_nil, sort_eq_nil, toFinset_eq_empty_iff]
        refine hd.imp_left fun ⟨o, ho, hrec⟩ hempty => ?_
        exact Finset.notMem_empty o (hempty ▸ Finset.mem_sdiff.2 ⟨ho, hrec⟩)
      refine iff_of_true (if_pos (hfound.imp_left fun hne => ?_)) (.inr rfl)
      rw [if_neg fun h => hne h.2.2]
      exact hne

theorem unreachable_broker_hides_unrecorded :
    Discrepancy {"A1"} ∅ [] ∧ (evaluateSameDay {"A1"} ∅ none [] true).verdict = .noData := by
  refine ⟨.inl ⟨"A1", by simp, by simp⟩, rfl⟩

end TradingBridge
