import TradingBridge.PnlReconciler
import TradingBridge.Proofs.BotOnly

/-!
# What the reconciler writes

A run of the reconciler writes a position's P&L, tag and detail and nothing else, and it decides
what to write from the other columns. So a second run finds nothing to do. What it does to one row
is `reconcileOne`, which leaves the archive alone, and `applyWrite` below it, which leaves a stored
P&L alone unless told to overwrite.
-/

namespace TradingBridge

section Write

variable {p : PositionRecord} {trip : RoundTrip} {overwrite : Bool} {stored : Option ℚ}

theorem writePnl_idem : (writePnl (writePnl stored trip overwrite).1 trip overwrite).1
    = (writePnl stored trip overwrite).1 := by
  unfold writePnl
  cases trip.writable with
  | true =>
    cases trip.netPnl with
    | none => dsimp only; split_ifs <;> simp_all
    | some net => dsimp only; split_ifs <;> simp_all
  | false => dsimp only; split_ifs <;> simp_all

theorem applyWrite_fst : (applyWrite p trip overwrite).1 = { p with
    finalPnl := (writePnl p.finalPnl trip overwrite).1
    pnlAttribution := if trip.attributionTag = none then p.pnlAttribution
      else trip.attributionTag
    pnlAttributionDetail := if trip.attributionTag = none then p.pnlAttributionDetail
      else trip.attributionDetail } := by
  unfold applyWrite
  by_cases htag : trip.attributionTag = none
  · simp [htag]
  · by_cases hsame : p.pnlAttribution = trip.attributionTag
        ∧ p.pnlAttributionDetail = trip.attributionDetail
    · simp [hsame.1, hsame.2]
    · rw [if_pos ⟨htag, by tauto⟩]
      simp [htag]

theorem applyWrite_idem : (applyWrite (applyWrite p trip overwrite).1 trip overwrite).1
    = (applyWrite p trip overwrite).1 := by
  simp only [applyWrite_fst, writePnl_idem]
  split_ifs <;> rfl

theorem writePnl_keeps (h : stored ≠ none) : (writePnl stored trip false).1 = stored := by
  unfold writePnl
  cases trip.writable <;> cases trip.netPnl <;> simp [h]

end Write

section Run

variable {args : ReconcileArgs} {fills : FillIndex} {p : PositionRecord}
  {strategyId : StrategyId} {d : ReconcilerDb}

theorem reconcileOne_written {q : PositionRecord} {pnl : Option ℚ} {tag : Option AttributionTag}
    {detail : Option TripDetail} (hq : q =
      { p with finalPnl := pnl, pnlAttribution := tag, pnlAttributionDetail := detail }) :
    reconcileOne args fills q
    = if !args.write || (isArchived args.archiveBefore p && !args.allowArchive) then (q, none)
      else applyWrite q
        (reconcilePosition p fills args.segment args.accountFills args.engineOrderIds)
        args.overwrite := by
  subst hq
  rfl

theorem reconcileOne_columns (args : ReconcileArgs) (fills : FillIndex) (p : PositionRecord) :
    ∃ pnl tag detail, (reconcileOne args fills p).1
      = { p with finalPnl := pnl, pnlAttribution := tag, pnlAttributionDetail := detail } := by
  unfold reconcileOne
  split_ifs
  · exact ⟨p.finalPnl, p.pnlAttribution, p.pnlAttributionDetail, rfl⟩
  · exact ⟨_, _, _, applyWrite_fst⟩

theorem reconcileOne_idem : (reconcileOne args fills (reconcileOne args fills p).1).1
    = (reconcileOne args fills p).1 := by
  by_cases hskip : !args.write || (isArchived args.archiveBefore p && !args.allowArchive)
  · have hsame : (reconcileOne args fills p).1 = p := by rw [reconcileOne, if_pos hskip]
    rw [hsame, hsame]
  · have hfst : (reconcileOne args fills p).1 = (applyWrite p (reconcilePosition p fills
        args.segment args.accountFills args.engineOrderIds) args.overwrite).1 := by
      rw [reconcileOne, if_neg hskip]
    obtain ⟨pnl, tag, detail, hcolumns⟩ := reconcileOne_columns args fills p
    have hsecond : (reconcileOne args fills (reconcileOne args fills p).1).1
        = (applyWrite (reconcileOne args fills p).1 (reconcilePosition p fills
          args.segment args.accountFills args.engineOrderIds) args.overwrite).1 := by
      rw [reconcileOne_written hcolumns, if_neg hskip]
    rw [hsecond, hfst, applyWrite_idem]

theorem isReconciled_reconcileOne :
    isReconciled strategyId (reconcileOne args fills p).1 = isReconciled strategyId p := by
  obtain ⟨pnl, tag, detail, hcolumns⟩ := reconcileOne_columns args fills p
  rw [hcolumns]
  rfl

/-- What a run makes of a row of the table. -/
def reconciledRow (args : ReconcileArgs) (strategyId : StrategyId) (d : ReconcilerDb)
    (p : PositionRecord) : PositionRecord :=
  if isReconciled strategyId p then
    (reconcileOne args (buildFillIndex (loadExecutions strategyId d)) p).1
  else p

theorem reconcileStrategy_cases (args : ReconcileArgs) (strategyId : StrategyId)
    (d : ReconcilerDb) :
    (∃ e, reconcileStrategy args strategyId d = (.error e, d))
    ∨ ∃ result, reconcileStrategy args strategyId d = (.ok result,
      { d with positions := d.positions.map (reconciledRow args strategyId d) }) := by
  unfold reconcileStrategy
  dsimp only
  split_ifs
  · exact .inl ⟨_, rfl⟩
  · split
    · exact .inl ⟨_, rfl⟩
    · exact .inr ⟨_, rfl⟩

theorem reconciledRow_idem : reconciledRow args strategyId
    { d with positions := d.positions.map (reconciledRow args strategyId d) }
      (reconciledRow args strategyId d p) = reconciledRow args strategyId d p := by
  -- The executions are the same before and after, so both runs have the same fills.
  change reconciledRow args strategyId d (reconciledRow args strategyId d p) = _
  unfold reconciledRow
  by_cases h : isReconciled strategyId p
  · rw [if_pos h, isReconciled_reconcileOne, if_pos h, reconcileOne_idem]
  · rw [if_neg h, if_neg h]

/-- The archive unless it is allowed, and a stored P&L unless it may be overwritten. -/
theorem reconciledRow_keeps (h : args.write = false
    ∨ (isArchived args.archiveBefore p = true ∧ args.allowArchive = false)) :
    reconciledRow args strategyId d p = p := by
  unfold reconciledRow
  split_ifs
  · rw [reconcileOne]
    rcases h with h | ⟨harchived, hallow⟩
    · simp [h]
    · simp [harchived, hallow]
  · rfl

theorem reconciledRow_pnl (h : args.overwrite = false) (hstored : p.finalPnl ≠ none) :
    (reconciledRow args strategyId d p).finalPnl = p.finalPnl := by
  unfold reconciledRow reconcileOne
  split_ifs
  · rfl
  · rw [applyWrite_fst, h]
    exact writePnl_keeps hstored
  · rfl

/-- A run that raises or does not write changes nothing. A row keeps its place; an archived one and
a stored P&L change only where allowed. A second run changes nothing. -/
theorem reconcile_write_discipline (args : ReconcileArgs) (strategyId : StrategyId)
    (d : ReconcilerDb) :
    (∀ e, (reconcileStrategy args strategyId d).1 = .error e →
      (reconcileStrategy args strategyId d).2 = d)
    ∧ (args.write = false → (reconcileStrategy args strategyId d).2 = d)
    ∧ (reconcileStrategy args strategyId d).2.positions.length = d.positions.length
    ∧ (∀ (i : Nat) (p p' : PositionRecord), d.positions[i]? = some p →
        (reconcileStrategy args strategyId d).2.positions[i]? = some p' →
        (isArchived args.archiveBefore p = true → p' ≠ p → args.allowArchive = true)
        ∧ (args.overwrite = false → p.finalPnl ≠ none → p'.finalPnl = p.finalPnl))
    ∧ (reconcileStrategy args strategyId (reconcileStrategy args strategyId d).2).2
      = (reconcileStrategy args strategyId d).2 := by
  rcases reconcileStrategy_cases args strategyId d with
    ⟨e, he⟩ | ⟨result, hresult⟩
  · rw [he]
    refine ⟨fun _ _ => rfl, fun _ => rfl, rfl, fun i p p' hp hp' => ?_, by rw [he]⟩
    obtain rfl := Option.some.inj (hp.symm.trans hp')
    exact ⟨fun _ hne => absurd rfl hne, fun _ _ => rfl⟩
  · rw [hresult]
    refine ⟨fun e he => (by simp at he), fun hwrite => ?_, by simp, fun i p p' hp hp' => ?_, ?_⟩
    · have hrow : ∀ p, reconciledRow args strategyId d p = p := fun p =>
        reconciledRow_keeps (.inl hwrite)
      simp [funext hrow]
    · simp only [List.getElem?_map, hp, Option.map_some, Option.some.injEq] at hp'
      subst hp'
      refine ⟨fun harchived hne => ?_, reconciledRow_pnl⟩
      by_contra hallow
      exact hne (reconciledRow_keeps (.inr ⟨harchived, by simpa using hallow⟩))
    · rcases reconcileStrategy_cases args strategyId
        { d with positions := d.positions.map (reconciledRow args strategyId d) } with
        ⟨e, he⟩ | ⟨result', hresult'⟩
      · rw [he]
      · rw [hresult']
        simp only [List.map_map, ReconcilerDb.mk.injEq, and_true]
        exact List.map_congr_left fun p _ => reconciledRow_idem

end Run

section Priced

/-- The rule never answers `account_flat`, and what it prices has a gross. -/
def Attribution.Answer (a : Attribution) : Prop :=
  a.tag ≠ .accountFlat ∧ (a.tag = .botOnly → a.grossPnl ≠ none)

theorem attributeTrip_answer {entryIds botIds : List String} {book : List AccountFill} :
    (attributeTrip entryIds book botIds).Answer := by
  rcases attributeTrip_of entryIds botIds book with ⟨tag, reason, htag, heq⟩ | ⟨_, -, -, hof⟩
  · rw [heq, Attribution.Answer]
    rcases List.mem_pair.1 htag with rfl | rfl <;> simp
  · generalize attributeTrip entryIds book botIds = a at hof
    cases hof <;> simp [Attribution.Answer]

/-- A trip the rule prices: closed by the bot alone, its legs balanced, every charge billed. -/
def RoundTrip.rulePriced (t : RoundTrip) : Bool :=
  t.attributionTag = some .botOnly && t.legsBalanced = some true && t.billedCharges.isSome

def RoundTrip.rulePrice (t : RoundTrip) : Option ℚ := if t.rulePriced then t.netPnl else none

variable (trip : RoundTrip) (p : PositionRecord) (fills : FillIndex) (book : List AccountFill)
  (engineOrderIds : List String)

theorem classifyTrip_writable {t : RoundTrip}
    (ht : classifyTrip trip p fills (some book) engineOrderIds = t) :
    t.writable = t.rulePriced ∧ (t.rulePriced = true → t.netPnl ≠ none) := by
  subst ht
  have hanswer : (attributePosition p fills book engineOrderIds).Answer := attributeTrip_answer
  obtain ⟨hflat, hgross⟩ := hanswer
  simp only [classifyTrip]
  generalize attributePosition p fills book engineOrderIds = outcome at hflat hgross ⊢
  by_cases hbot : outcome.tag = .botOnly
  · have hpriced : outcome.priced = true := by simp [Attribution.priced, hbot]
    unfold RoundTrip.writable RoundTrip.rulePriced pricedTrip
    cases outcome.billedCharges <;> simp [hgross, hpriced, hbot]
  · have hpriced : ¬ outcome.priced = true := by simp [Attribution.priced, hbot, hflat]
    rw [if_neg hpriced]
    simp [RoundTrip.writable, RoundTrip.rulePriced, hbot]

/-- An overwriting pass leaves the rule's price or none exactly when nothing was stored, the rule
prices the trip, or its tag clears what was stored. -/
theorem overwrite_leaves_rulePrice_iff :
    (applyWrite p (classifyTrip trip p fills (some book) engineOrderIds) true).1.finalPnl
      = (classifyTrip trip p fills (some book) engineOrderIds).rulePrice
    ↔ p.finalPnl = none
      ∨ (classifyTrip trip p fills (some book) engineOrderIds).rulePriced = true
      ∨ (classifyTrip trip p fills (some book) engineOrderIds).attributionTag
        = some .humanInterfered
      ∨ ((classifyTrip trip p fills (some book) engineOrderIds).attributionTag
          = some .unpriceable ∧ p.finalPnl = some 0) := by
  generalize ht : classifyTrip trip p fills (some book) engineOrderIds = t
  obtain ⟨hwritable, hnet⟩ := classifyTrip_writable trip p fills book engineOrderIds ht
  rw [applyWrite_fst]
  unfold writePnl RoundTrip.rulePrice
  rw [hwritable]
  cases hpriced : t.rulePriced with
  | true =>
    obtain ⟨net, hnet⟩ := Option.ne_none_iff_exists'.1 (hnet hpriced)
    rw [hnet]
    simp only [Bool.or_true, true_and, true_or, or_true, iff_true]
    split_ifs with hdiffers
    · rfl
    · exact not_not.1 hdiffers
  | false =>
    by_cases hclears : t.attributionTag = some .humanInterfered
        ∨ (t.attributionTag = some .unpriceable ∧ p.finalPnl = some 0)
    · by_cases hstored : p.finalPnl = none
      · simp [hstored]
      · simp [hstored, hclears]
    · simp [hclears]

end Priced

/-- A position entered by one order, with a P&L of 500 stored. -/
def pricedBefore : PositionRecord :=
  { id := 1, strategyId := 1, subscriptionId := none, status := .closed, symbol := "NIFTY",
    side := "buy", totalQuantity := 100, openedAt := 1, closedAt := none,
    actionHistory := [⟨"entry", some 100, some "entry", some (some 1)⟩],
    finalPnl := some 500, pnlAttribution := none, pnlAttributionDetail := none }

def entryFillIndex : FillIndex :=
  [(1, parseFill (.dhan (some "TRADED") (some 100) (some 100) (some "entry")
    (some "strategy-engine")))]

/-- The account bought by that order, and a fill nobody can name sold. -/
def strangerBook : List AccountFill :=
  [⟨"NIFTY", "entry", .buy, 100, 100, ⟨1, 1⟩, "", none, some 1, hundred_pos⟩,
    ⟨"NIFTY", "stranger", .sell, 100, 101, ⟨1, 2⟩, "", none, some 1, hundred_pos⟩]

/-- An overwriting pass tags the live trip as one it cannot identify and keeps the number. -/
theorem stale_pnl_under_unidentified :
    (reconcilePosition pricedBefore entryFillIndex .nfo (some strangerBook) []).live = true
    ∧ (reconcilePosition pricedBefore entryFillIndex .nfo (some strangerBook) []).rulePrice = none
    ∧ (applyWrite pricedBefore (reconcilePosition pricedBefore entryFillIndex .nfo
        (some strangerBook) []) true).1.pnlAttribution = some .unidentifiedFill
    ∧ (applyWrite pricedBefore (reconcilePosition pricedBefore entryFillIndex .nfo
        (some strangerBook) []) true).1.finalPnl = some 500 := by
  decide +kernel

end TradingBridge
