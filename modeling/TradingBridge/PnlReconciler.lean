import TradingBridge.Attribution

/-!
# The P&L reconciler

It links the fills of the stored broker answers to a position through the signal ids of its history,
and lets the exit rule price the trip where the account's trade book is given.
-/

namespace TradingBridge

inductive Segment
  | nfo
  | bfo
  | mcx
  | cds
  deriving DecidableEq

structure CostRates where
  brokeragePerOrder : ℚ
  sttSell : ℚ
  exchangeTxn : ℚ
  sebiFee : ℚ
  stampBuy : ℚ
  gst : ℚ

def segmentRates : Segment → CostRates
  | .nfo => ⟨20, 5 / 10000, 183 / 10000000, 1 / 1000000, 2 / 100000, 18 / 100⟩
  | .bfo => ⟨20, 5 / 10000, 0, 1 / 1000000, 2 / 100000, 18 / 100⟩
  | .mcx => ⟨20, 1 / 10000, 260 / 10000000, 1 / 1000000, 2 / 100000, 18 / 100⟩
  | .cds => ⟨20, 0, 9 / 10000000, 1 / 1000000, 1 / 1000000, 18 / 100⟩

/-- A money amount to the paisa, a half rounded away from zero. -/
def quantizePaise (x : ℚ) : ℚ :=
  if 0 ≤ x then ((x * 100 + 1 / 2).floor : ℚ) / 100 else -(((-x) * 100 + 1 / 2).floor : ℚ) / 100

structure CostBreakdown where
  segment : Segment
  orders : Nat
  buyTurnover : ℚ
  sellTurnover : ℚ
  brokerage : ℚ
  stt : ℚ
  exchangeTxn : ℚ
  sebiFee : ℚ
  stampDuty : ℚ
  gst : ℚ
  total : ℚ
  deriving DecidableEq

def computeCosts (buyTurnover sellTurnover : ℚ) (orders : Nat) (segment : Segment) :
    CostBreakdown :=
  let rate := segmentRates segment
  let brokerage := quantizePaise (rate.brokeragePerOrder * (orders : ℚ))
  let stt := quantizePaise (rate.sttSell * sellTurnover)
  let exchangeTxn := quantizePaise (rate.exchangeTxn * (buyTurnover + sellTurnover))
  let sebiFee := quantizePaise (rate.sebiFee * (buyTurnover + sellTurnover))
  let stampDuty := quantizePaise (rate.stampBuy * buyTurnover)
  let gst := quantizePaise (rate.gst * (brokerage + exchangeTxn + sebiFee))
  ⟨segment, orders, quantizePaise buyTurnover, quantizePaise sellTurnover, brokerage, stt,
    exchangeTxn, sebiFee, stampDuty, gst,
    brokerage + stt + exchangeTxn + sebiFee + stampDuty + gst⟩

inductive FillStatus
  | filled
  | pending
  | other
  deriving DecidableEq

inductive FillSource
  | dhan
  | paperEntry
  | paperExit
  | unknown
  deriving DecidableEq

structure FillInfo where
  status : FillStatus
  rawStatus : Option String
  price : Option ℚ
  qty : Option Int
  source : FillSource
  orderId : Option String
  correlationId : Option String

def FillInfo.isLive (f : FillInfo) : Bool := f.source = .dhan

/-- A stored broker answer, by its shape. Numbers are as the parser reads them. -/
inductive BrokerAnswer
  | dhan (orderStatus : Option String) (averageTradedPrice : Option ℚ) (filledQty : Option Int)
      (orderId correlationId : Option String)
  | paperExit (status : Option String) (fillPrice : Option ℚ) (filledQty : Option Int)
  | paperEntry (status : Option String) (avgPrice : Option ℚ) (quantity : Option Int)
  | other (status : Option String)

def normalizeStatus (raw : Option String) : FillStatus :=
  let text := (strip (raw.getD "")).toUpper
  if text ∈ ["TRADED", "COMPLETE", "COMPLETED", "FILLED", "EXECUTED"] then .filled
  else if text ∈ ["TRANSIT", "PENDING", "OPEN", "MODIFIED"] then .pending
  else .other

def parseFill : BrokerAnswer → FillInfo
  -- The fill is the average traded price; an order without one is not priced at its limit.
  | .dhan status atp qty orderId correlationId =>
    ⟨normalizeStatus status, status, atp.filter (0 < ·), qty, .dhan, orderId, correlationId⟩
  | .paperExit status price qty =>
    ⟨normalizeStatus status, status, price, qty, .paperExit, none, none⟩
  | .paperEntry status price qty =>
    ⟨normalizeStatus status, status, price, qty, .paperEntry, none, none⟩
  | .other status => ⟨normalizeStatus status, status, none, none, .unknown, none, none⟩

structure ExecutionRecord where
  signalId : SignalId
  subscriptionId : Option SubscriptionId
  placedAt : Nat
  brokerResponse : Option BrokerAnswer

abbrev FillIndex := List (SignalId × FillInfo)

def FillIndex.get (fills : FillIndex) (sid : Option SignalId) : Option FillInfo :=
  sid.bind fun id => (fills.find? (·.1 = id)).map (·.2)

def buildFillIndex (executions : List ExecutionRecord) : FillIndex :=
  executions.foldl (fun index e =>
    if index.any (·.1 = e.signalId) then index
    else match e.brokerResponse with
      | none => index
      | some answer => index ++ [(e.signalId, parseFill answer)]) []

/-- The signal id is absent on events the pages record, and may be text that is no id. -/
structure HistoryEvent where
  action : String
  qty : Option Int
  legRole : Option String
  signalId : Option (Option SignalId)

def HistoryEvent.signal (ev : HistoryEvent) : Option SignalId := ev.signalId.join

def HistoryEvent.isEntryEvent (ev : HistoryEvent) : Bool := ev.action.toLower = "entry"

inductive TripFlag
  | unknownSide (side : String)
  | noEntryLeg
  | entryNoFill (signal : Option SignalId)
  | entryNotFilled (signal : Option SignalId) (rawStatus : Option String)
  | noCloseLegs
  | exitMissing (role : String) (signal : Option SignalId)
  | exitNotFilled (role : String) (signal : Option SignalId) (rawStatus : Option String)
  | closeQty (closed position : Int)
  | attributionRequired
  | discarded (tag : AttributionTag)
  deriving DecidableEq

inductive TripDetail
  | paperTrip
  | noParsableFill (flags : List TripFlag)
  | notReconstructed (flags : List TripFlag)
  | rule (reason : AttributionReason)
  deriving DecidableEq

structure PositionRecord where
  id : PositionId
  strategyId : StrategyId
  subscriptionId : Option SubscriptionId
  status : PositionStatus
  symbol : String
  side : String
  totalQuantity : Int
  openedAt : Nat
  closedAt : Option ExchangeTime
  actionHistory : List HistoryEvent
  finalPnl : Option ℚ
  pnlAttribution : Option AttributionTag
  pnlAttributionDetail : Option TripDetail

inductive TripDirection
  | long
  | short
  | unknown
  deriving DecidableEq

inductive LegStatus
  | missing
  | fill (s : FillStatus)

inductive ExitRole
  | recorded (role : String)
  | accountFlat
  | botExit

structure TripLeg where
  legRole : ExitRole
  qty : Int
  price : Option ℚ
  status : LegStatus
  signalId : Option SignalId
  realizedPnl : Option ℚ

structure RoundTrip where
  positionId : PositionId
  symbol : String
  direction : TripDirection
  positionQty : Int
  entryLegs : Nat
  entryPrice : Option ℚ
  exits : List TripLeg
  exitQtyTotal : Int
  grossPnl : Option ℚ
  costs : Option CostBreakdown
  netPnl : Option ℚ
  complete : Bool
  flags : List TripFlag
  attribution : Option Attribution
  attributionTag : Option AttributionTag
  attributionDetail : Option TripDetail
  live : Bool
  billedCharges : Option ℚ
  legsBalanced : Option Bool

def RoundTrip.writable (t : RoundTrip) : Bool :=
  if !t.complete || t.netPnl.isNone then false
  else if t.legsBalanced = some false then false
  else if t.live then t.attribution.any (·.priced)
  else true

section Trips

structure EntryTally where
  qty : Int
  legs : Nat
  value : ℚ
  ok : Bool
  flags : List TripFlag
  orders : List (Option String)

def tallyEntry (fills : FillIndex) (t : EntryTally) (ev : HistoryEvent) : EntryTally :=
  let sid := ev.signal
  let qty := ev.qty.getD 0
  match fills.get sid with
  | none => { t with flags := t.flags ++ [.entryNoFill sid], ok := false }
  | some fill =>
    match fill.status, fill.price with
    | .filled, some price =>
      { t with
        qty := t.qty + qty
        legs := t.legs + 1
        value := t.value + price * (qty : ℚ)
        orders := t.orders ++ [fill.orderId.filter (· ≠ "")] }
    | _, _ => { t with flags := t.flags ++ [.entryNotFilled sid fill.rawStatus], ok := false }

structure ExitTally where
  exits : List TripLeg
  qty : Int
  realized : ℚ
  ok : Bool
  flags : List TripFlag
  orders : List (Option String)

def legPnl (direction : TripDirection) (entryPrice : Option ℚ) (price : ℚ) (qty : Int) : Option ℚ :=
  match direction, entryPrice with
  | .long, some entry => some ((price - entry) * (qty : ℚ))
  | .short, some entry => some ((entry - price) * (qty : ℚ))
  | _, _ => none

def tallyExit (fills : FillIndex) (direction : TripDirection) (entryPrice : Option ℚ)
    (t : ExitTally) (ev : HistoryEvent) : ExitTally :=
  let sid := ev.signal
  let qty := ev.qty.getD 0
  let role := (ev.legRole.filter (· ≠ "")).getD ev.action
  match fills.get sid with
  | none =>
    { t with
      flags := t.flags ++ [.exitMissing role sid]
      exits := t.exits ++ [⟨.recorded role, qty, none, .missing, sid, none⟩]
      ok := false }
  | some fill =>
    match fill.status, fill.price with
    | .filled, some price =>
      let pnl := legPnl direction entryPrice price qty
      { t with
        realized := t.realized + pnl.getD 0
        qty := t.qty + qty
        exits := t.exits ++ [⟨.recorded role, qty, some price, .fill .filled, sid, pnl⟩]
        orders := t.orders ++ [fill.orderId.filter (· ≠ "")] }
    | status, price =>
      { t with
        flags := t.flags ++ [.exitNotFilled role sid fill.rawStatus]
        exits := t.exits ++ [⟨.recorded role, qty, price, .fill status, sid, none⟩]
        ok := false }

def countOrders (orders : List (Option String)) : Nat :=
  (orders.filterMap id).eraseDups.length + (orders.filter Option.isNone).length

def directionOf (side : String) : TripDirection :=
  let text := (strip side).toLower
  if text = "buy" then .long else if text = "sell" then .short else .unknown

variable (position : PositionRecord) (fills : FillIndex)

def strictTrip (segment : Segment) : RoundTrip :=
  let direction := directionOf position.side
  let sideFlags := if direction = .unknown then [TripFlag.unknownSide position.side] else []
  -- Events without a signal are shown on the pages and are no legs of this pass.
  let history := position.actionHistory.filter (·.signalId.isSome)
  let entryEvents := history.filter (·.isEntryEvent)
  let exitEvents := history.filter (!·.isEntryEvent)
  let entry := entryEvents.foldl (tallyEntry fills)
    ⟨0, 0, 0, !entryEvents.isEmpty, if entryEvents.isEmpty then [.noEntryLeg] else [], []⟩
  let entryPrice := if 0 < entry.qty then some (entry.value / (entry.qty : ℚ)) else none
  let exit := exitEvents.foldl (tallyExit fills direction entryPrice)
    ⟨[], 0, 0, !exitEvents.isEmpty, if exitEvents.isEmpty then [.noCloseLegs] else [], []⟩
  let qtyMatch := decide (0 < position.totalQuantity ∧ exit.qty = position.totalQuantity)
  let qtyFlags := if !exitEvents.isEmpty && !qtyMatch then
    [TripFlag.closeQty exit.qty position.totalQuantity] else []
  let complete := entry.ok && exit.ok && qtyMatch && entryPrice.isSome && direction ≠ .unknown
  let exitTurnover := (exit.exits.map fun leg => leg.price.getD 0 * (leg.qty : ℚ)).sum
  let costs := computeCosts (if direction = .long then entry.value else exitTurnover)
    (if direction = .long then exitTurnover else entry.value)
    (countOrders (entry.orders ++ exit.orders)) segment
  { positionId := position.id, symbol := position.symbol, direction,
    positionQty := position.totalQuantity, entryLegs := entry.legs, entryPrice,
    exits := exit.exits, exitQtyTotal := exit.qty,
    grossPnl := if complete then some exit.realized else none,
    costs := if complete then some costs else none,
    netPnl := if complete then some (exit.realized - costs.total) else none,
    complete, flags := sideFlags ++ entry.flags ++ exit.flags ++ qtyFlags, attribution := none,
    attributionTag := none, attributionDetail := none, live := false, billedCharges := none,
    legsBalanced := none }

def tripFills : List FillInfo :=
  position.actionHistory.filterMap fun ev => fills.get ev.signal

def botCorrelationIds : List String := ["strategy-engine", "strategy-engine-direct-exit"]

def FillInfo.botOrder (fill : FillInfo) : Option String :=
  if fill.correlationId.any (· ∈ botCorrelationIds) then fill.orderId.filter (· ≠ "") else none

def entryOrderIds : List String :=
  (position.actionHistory.filter (·.isEntryEvent)).filterMap fun ev =>
    ((fills.get ev.signal).filter (·.status = .filled)).bind (·.botOrder)

def botOrderIds (engineOrderIds : List String) : List String :=
  fills.filterMap (fun entry => entry.2.botOrder) ++ engineOrderIds.filter (· ≠ "")

def attributePosition
    (accountFills : List AccountFill) (engineOrderIds : List String) : Attribution :=
  attributeTrip (entryOrderIds position fills) accountFills (botOrderIds fills engineOrderIds)

/-- The trip as the account's book prices it: net is what was billed, or nothing. -/
def pricedTrip (trip : RoundTrip) (outcome : Attribution) (botIds : List String) : RoundTrip :=
  let direction := match outcome.entryFills with
    | [] => TripDirection.short
    | f :: _ => if f.side = .buy then .long else .short
  let entryPrice := turnover outcome.entryFills / (outcome.entryQty : ℚ)
  let exitQty := (outcome.exitFills.map (·.qty)).sum
  { trip with
    direction
    entryPrice := some entryPrice
    entryLegs := outcome.entryFills.length
    exits := outcome.exitFills.map fun f =>
      ⟨if f.orderId ∈ botIds then .botExit else .accountFlat, f.qty, some f.price,
        .fill .filled, none, legPnl direction (some entryPrice) f.price f.qty⟩
    exitQtyTotal := exitQty
    legsBalanced := some (exitQty = trip.positionQty)
    grossPnl := outcome.grossPnl
    billedCharges := outcome.billedCharges
    costs := none
    netPnl := outcome.billedCharges.bind fun billed => outcome.grossPnl.map (· - billed)
    complete := true }

def classifyTrip (trip : RoundTrip) (position : PositionRecord) (fills : FillIndex)
    (accountFills : Option (List AccountFill)) (engineOrderIds : List String) : RoundTrip :=
  let legs := tripFills position fills
  let trip := { trip with live := legs.any (·.isLive) }
  match accountFills with
  | none =>
    if trip.live then { trip with flags := trip.flags ++ [.attributionRequired] }
    else if trip.complete then
      { trip with attributionTag := some .paperSim, attributionDetail := some .paperTrip }
    else
      { trip with
        attributionTag := some .unpriceable
        attributionDetail := some (if legs.isEmpty then .noParsableFill trip.flags
          else .notReconstructed trip.flags) }
  | some book =>
    let outcome := attributePosition position fills book engineOrderIds
    let trip := { trip with
      attribution := some outcome
      attributionTag := some outcome.tag
      attributionDetail := some (.rule outcome.reason) }
    if outcome.priced then pricedTrip trip outcome (botOrderIds fills engineOrderIds)
    else
      { trip with
        flags := if trip.complete then trip.flags ++ [.discarded outcome.tag] else trip.flags
        complete := false
        grossPnl := none
        costs := none
        netPnl := none }

def reconcilePosition (segment : Segment)
    (accountFills : Option (List AccountFill)) (engineOrderIds : List String) : RoundTrip :=
  classifyTrip (strictTrip position fills segment) position fills accountFills engineOrderIds

end Trips

def ExchangeTime.before (a b : ExchangeTime) : Bool :=
  a.day < b.day || (a.day = b.day && a.time < b.time)

inductive CoverageProblem
  | emptyBook
  | missingOrder (order : String) (position : PositionId)
  | quantityDiffers (order : String) (book executed : Int)
  | openingNet (contract : String) (first : ExchangeTime) (coversFrom : Nat)
  | bookEnds (bookEnd : ExchangeTime) (position : PositionId) (closed : ExchangeTime)
  | noBotOrder
  | notChecked

structure CoverageLine where
  contract : String
  firstOrder : String
  first : ExchangeTime
  last : ExchangeTime
  count : Nat
  net : Int

structure BookCoverage where
  problems : List CoverageProblem
  lines : List CoverageLine

def filledOrders (position : PositionRecord) (fills : FillIndex) : List (String × Option Int) :=
  position.actionHistory.filterMap fun ev =>
    ((fills.get ev.signal).filter fun f => f.isLive && f.status = .filled).bind fun f =>
      (f.orderId.filter (· ≠ "")).map fun order => (order, f.qty)

def orderProblems (accountFills : List AccountFill) (position : PositionRecord)
    (order : String × Option Int) : List CoverageProblem :=
  let rows := accountFills.filter (·.orderId = order.1)
  if rows.isEmpty then [.missingOrder order.1 position.id]
  else
    let bookQty := (rows.map (·.qty)).sum
    match order.2 with
    | some qty => if bookQty ≠ qty then [.quantityDiffers order.1 bookQty qty] else []
    | none => []

def contractsOf (accountFills : List AccountFill) (fills : FillIndex)
    (position : PositionRecord) : List String :=
  (filledOrders position fills).flatMap fun order =>
    (accountFills.filter (·.orderId = order.1)).map (·.contract)

def byTime (fills : List AccountFill) : List AccountFill :=
  fills.insertionSort fun a b => !b.ts.before a.ts

def bookEnd : List AccountFill → ExchangeTime
  | [] => ⟨0, 0⟩
  | f :: fs => fs.foldl (fun latest g => if latest.before g.ts then g.ts else latest) f.ts

def contractLine (contract : String) (fills : List AccountFill) : Option CoverageLine :=
  match fills.head?, fills.getLast? with
  | some first, some last =>
    some ⟨contract, first.orderId, first.ts, last.ts, fills.length, net fills⟩
  | _, _ => none

/-- A contract of the bot's must not have traded within a day of the attested start. -/
def checkBookCoverage (positions : List PositionRecord) (fills : FillIndex)
    (accountFills : List AccountFill) (coversFrom : Nat) : BookCoverage :=
  if accountFills.isEmpty then ⟨[.emptyBook], []⟩
  else
    let orders := positions.flatMap fun p =>
      (filledOrders p fills).flatMap (orderProblems accountFills p)
    let contracts := ((positions.flatMap (contractsOf accountFills fills)).dedup).insertionSort
      (· ≤ ·)
    let lines := contracts.filterMap fun c =>
      contractLine c (byTime (accountFills.filter (·.contract = c)))
    let opening := (lines.filter fun l => l.first.day ≤ coversFrom + 1).map fun l =>
      CoverageProblem.openingNet l.contract l.first coversFrom
    let ends := (positions.filter fun p => (contractsOf accountFills fills p) ≠ []).filterMap
      fun p => (p.closedAt.filter ((bookEnd accountFills).before ·)).map fun closed =>
        CoverageProblem.bookEnds (bookEnd accountFills) p.id closed
    ⟨orders ++ opening ++ ends ++ if contracts.isEmpty then [.noBotOrder] else [], lines⟩

section Writes

inductive WriteChange
  | pnl
  | nulled
  | tag
  deriving DecidableEq

def writePnl (finalPnl : Option ℚ) (trip : RoundTrip) (overwrite : Bool) :
    Option ℚ × Option WriteChange :=
  match trip.writable, trip.netPnl with
  | true, some net =>
    if (finalPnl.isNone || overwrite) ∧ finalPnl ≠ some net then (some net, some .pnl)
    else (finalPnl, none)
  | _, _ =>
    if overwrite ∧ finalPnl ≠ none ∧ (trip.attributionTag = some .humanInterfered
        ∨ (trip.attributionTag = some .unpriceable ∧ finalPnl = some 0)) then
      (none, some .nulled)
    else (finalPnl, none)

def applyWrite (position : PositionRecord) (trip : RoundTrip) (overwrite : Bool) :
    PositionRecord × Option WriteChange :=
  let pnl := writePnl position.finalPnl trip overwrite
  let p := { position with finalPnl := pnl.1 }
  if trip.attributionTag ≠ none ∧ (position.pnlAttribution ≠ trip.attributionTag
      ∨ position.pnlAttributionDetail ≠ trip.attributionDetail) then
    ({ p with
        pnlAttribution := trip.attributionTag
        pnlAttributionDetail := trip.attributionDetail },
      pnl.2.or (some .tag))
  else (p, pnl.2)

/-- The rows the reconciler works on. A signal is known by its strategy. -/
structure ReconcilerDb where
  positions : List PositionRecord
  executions : List ExecutionRecord
  signals : List (SignalId × StrategyId)

variable (strategyId : StrategyId)

def isReconciled (p : PositionRecord) : Bool :=
  p.strategyId = strategyId && p.status = .closed && p.subscriptionId = none

def loadClosedPositions (d : ReconcilerDb) : List PositionRecord :=
  (d.positions.filter (isReconciled strategyId)).insertionSort fun a b => a.openedAt ≤ b.openedAt

def loadExecutions (d : ReconcilerDb) : List ExecutionRecord :=
  (d.executions.filter fun e => (e.signalId, strategyId) ∈ d.signals ∧ e.subscriptionId = none)
    |>.insertionSort fun a b => a.placedAt ≤ b.placedAt

def isArchived (archiveBefore : Option Nat) (p : PositionRecord) : Bool :=
  archiveBefore.any (p.openedAt < ·)

inductive ReconcileError
  | archiveProtected (positions : List PositionId)
  | missingAttestation
  | coverageFailed (problems : List CoverageProblem)

structure ReconcileArgs where
  write : Bool
  overwrite : Bool
  allowArchive : Bool
  archiveBefore : Option Nat
  segment : Segment
  accountFills : Option (List AccountFill)
  bookCoversFrom : Option Nat
  engineOrderIds : List String

structure ReconcileResult where
  trips : List RoundTrip
  annotated : Nat
  wrote : Bool
  coverage : Option BookCoverage

def reconcileOne (args : ReconcileArgs) (fills : FillIndex) (p : PositionRecord) :
    PositionRecord × Option WriteChange :=
  -- The archive is left alone in every write mode, its tags too.
  if !args.write || (isArchived args.archiveBefore p && !args.allowArchive) then (p, none)
  else applyWrite p (reconcilePosition p fills args.segment args.accountFills
    args.engineOrderIds) args.overwrite

def bookVerdict (args : ReconcileArgs) (positions : List PositionRecord) (fills : FillIndex) :
    Except ReconcileError (Option BookCoverage) :=
  match args.accountFills with
  | none => .ok none
  | some book =>
    match args.bookCoversFrom with
    | none => if args.write then .error .missingAttestation else .ok (some ⟨[.notChecked], []⟩)
    | some coversFrom =>
      let coverage := checkBookCoverage positions fills book coversFrom
      if args.write && coverage.problems ≠ [] then .error (.coverageFailed coverage.problems)
      else .ok (some coverage)

/-- Reconcile every closed position of a strategy. Nothing is written before the book has passed. -/
def reconcileStrategy (args : ReconcileArgs) (strategyId : StrategyId) (d : ReconcilerDb) :
    Except ReconcileError ReconcileResult × ReconcilerDb :=
  let positions := loadClosedPositions strategyId d
  let archived := positions.filter (isArchived args.archiveBefore)
  if args.write && args.overwrite && !args.allowArchive && archived ≠ [] then
    (.error (.archiveProtected (archived.map (·.id))), d)
  else
    let fills := buildFillIndex (loadExecutions strategyId d)
    match bookVerdict args positions fills with
    | .error e => (.error e, d)
    | .ok coverage =>
      let trips := positions.map fun p =>
        reconcilePosition p fills args.segment args.accountFills args.engineOrderIds
      let annotated := (positions.filter fun p => (reconcileOne args fills p).2.isSome).length
      (.ok ⟨trips, annotated, args.write && annotated ≠ 0, coverage⟩,
        { d with positions := d.positions.map fun p =>
          if isReconciled strategyId p then (reconcileOne args fills p).1 else p })

end Writes

end TradingBridge
