import TradingBridge.PnlReconciler

/-!
# The strict pass

A trip is complete when every leg of the history was filled and the closing legs add up to the
position. The entry legs are counted by what their events record, which is what the executor asked
for, while it sizes the position by what was filled. So a complete trip is balanced exactly if its
entries were filled in full.
-/

namespace TradingBridge

variable {position : PositionRecord} {fills : FillIndex} {segment : Segment}

/-- What an entry asked for, and what the broker confirmed of it. -/
structure EntryBooking where
  requested : Int
  filled : Int

variable (p : PositionRecord)

def PositionRecord.entryEvents : List HistoryEvent :=
  (p.actionHistory.filter (·.signalId.isSome)).filter (·.isEntryEvent)

/-- Each event records what was asked for, and the position is as large as what was filled. -/
structure BookedAs (bookings : List EntryBooking) (p : PositionRecord) : Prop where
  events : p.entryEvents.map (·.qty) = bookings.map fun b => some b.requested
  total : p.totalQuantity = (bookings.map (·.filled)).sum

/-- The event is a leg with a priced fill. -/
def HistoryEvent.filledIn (fills : FillIndex) (ev : HistoryEvent) : Bool :=
  (fills.get ev.signal).any fun fill => fill.status = .filled && fill.price.isSome

def entryLegQty (fills : FillIndex) : Int :=
  ((p.entryEvents.filter (·.filledIn fills)).map fun ev => ev.qty.getD 0).sum

/-- As much was entered as was closed, and as the position says. -/
def BalancedTrip (fills : FillIndex) (trip : RoundTrip) : Prop :=
  entryLegQty p fills = p.totalQuantity ∧ entryLegQty p fills = (trip.exits.map (·.qty)).sum

theorem tallyEntry_ok {events : List HistoryEvent} {t : EntryTally}
    (h : (events.foldl (tallyEntry fills) t).ok = true) :
    t.ok = true ∧ ∀ ev ∈ events, ev.filledIn fills = true := by
  induction events generalizing t with
  | nil => simpa using h
  | cons ev events ih =>
    obtain ⟨hok, hrest⟩ := ih h
    have hev : t.ok = true ∧ ev.filledIn fills = true := by
      unfold tallyEntry at hok
      unfold HistoryEvent.filledIn
      rcases hget : fills.get ev.signal with _ | ⟨_ | _ | _, raw, _ | price, _, _, _, _⟩ <;>
        simp_all
    simpa [hev] using hrest

theorem tallyExit_qty {direction : TripDirection} {entryPrice : Option ℚ}
    {events : List HistoryEvent} {t : ExitTally}
    (ht : t.ok = true → (t.exits.map (·.qty)).sum = t.qty)
    (h : (events.foldl (tallyExit fills direction entryPrice) t).ok = true) :
    ((events.foldl (tallyExit fills direction entryPrice) t).exits.map (·.qty)).sum =
      (events.foldl (tallyExit fills direction entryPrice) t).qty := by
  induction events generalizing t with
  | nil => exact ht h
  | cons ev events ih =>
    refine ih (fun hok => ?_) h
    unfold tallyExit at hok ⊢
    rcases hget : fills.get ev.signal with _ | ⟨_ | _ | _, raw, _ | price, _, _, _, _⟩ <;>
      simp_all

theorem entryLegQty_of_filled {bookings : List EntryBooking} (hbooked : BookedAs bookings position)
    (h : ∀ ev ∈ position.entryEvents, ev.filledIn fills = true) :
    entryLegQty position fills = (bookings.map (·.requested)).sum := by
  have hqty := congrArg (List.map fun q : Option Int => q.getD 0) hbooked.events
  simp only [List.map_map, Function.comp_def, Option.getD_some] at hqty
  rw [entryLegQty, List.filter_eq_self.2 h, hqty]

theorem complete_legs (h : (strictTrip position fills segment).complete = true) :
    (∀ ev ∈ position.entryEvents, ev.filledIn fills = true) ∧
      ((strictTrip position fills segment).exits.map (·.qty)).sum = position.totalQuantity := by
  simp only [strictTrip, Bool.and_eq_true, decide_eq_true_eq] at h ⊢
  obtain ⟨⟨⟨⟨hentry, hexit⟩, -, hqty⟩, -⟩, -⟩ := h
  exact ⟨(tallyEntry_ok hentry).2, (tallyExit_qty (fun _ => rfl) hexit).trans hqty⟩

theorem reconcilePosition_strict (position : PositionRecord) (fills : FillIndex)
    (segment : Segment) (ids : List String) :
    (reconcilePosition position fills segment none ids).complete =
        (strictTrip position fills segment).complete ∧
      (reconcilePosition position fills segment none ids).exits =
        (strictTrip position fills segment).exits := by
  unfold reconcilePosition classifyTrip
  dsimp only
  split_ifs <;> exact ⟨rfl, rfl⟩

/-- A complete trip is balanced exactly if what its entries asked for was filled. -/
theorem strict_trip_balanced_iff (position : PositionRecord) (fills : FillIndex)
    (segment : Segment) (ids : List String) (bookings : List EntryBooking)
    (hbooked : BookedAs bookings position)
    (h : (reconcilePosition position fills segment none ids).complete = true) :
    BalancedTrip position fills (reconcilePosition position fills segment none ids) ↔
      (bookings.map (·.requested)).sum = (bookings.map (·.filled)).sum := by
  obtain ⟨hcomplete, hexits⟩ := reconcilePosition_strict position fills segment ids
  obtain ⟨hfilled, hclosed⟩ := complete_legs (hcomplete ▸ h)
  rw [BalancedTrip, hexits, hclosed, entryLegQty_of_filled hbooked hfilled, hbooked.total, and_self]

def enteredInPart (filled : Int) : PositionRecord :=
  { id := 1, strategyId := 1, subscriptionId := none, status := .closed, symbol := "NIFTY",
    side := "buy", totalQuantity := filled, openedAt := 1, closedAt := none,
    actionHistory := [⟨"entry", some 750, some "entry", some (some 1)⟩,
      ⟨"exit", some filled, some "exit", some (some 2)⟩],
    finalPnl := none, pnlAttribution := none, pnlAttributionDetail := none }

def soldIndex (filled : Int) : FillIndex :=
  [(1, parseFill (.dhan (some "TRADED") (some 100) (some filled) (some "in") none)),
    (2, parseFill (.dhan (some "TRADED") (some 110) (some filled) (some "out") none))]

theorem full_entry_balanced :
    (reconcilePosition (enteredInPart 750) (soldIndex 750) .nfo none []).complete = true ∧
      BalancedTrip (enteredInPart 750) (soldIndex 750)
        (reconcilePosition (enteredInPart 750) (soldIndex 750) .nfo none []) := by
  have hcomplete : (reconcilePosition (enteredInPart 750) (soldIndex 750) .nfo none []).complete =
      true := by decide +kernel
  exact ⟨hcomplete, (strict_trip_balanced_iff _ _ _ _ [⟨750, 750⟩]
    ⟨by decide +kernel, by decide⟩ hcomplete).2 (by decide)⟩

/-- Of an entry of 750 half was filled and sold: complete, with 750 entered and 375 closed. -/
theorem half_entry_complete :
    (reconcilePosition (enteredInPart 375) (soldIndex 375) .nfo none []).complete = true ∧
      entryLegQty (enteredInPart 375) (soldIndex 375) = 750 ∧
      ((reconcilePosition (enteredInPart 375) (soldIndex 375) .nfo none []).exits.map
        (·.qty)).sum = 375 ∧
      (reconcilePosition (enteredInPart 375) (soldIndex 375) .nfo none []).costs =
        some (computeCosts 75000 41250 2 .nfo) := by
  decide +kernel

end TradingBridge
