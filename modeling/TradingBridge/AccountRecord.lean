import TradingBridge.Attribution

/-!
# The record of what the account did

The fill ingester writes down once who placed each fill. The 15:50 check asks whether the platform
recorded what the account did today.
-/

namespace TradingBridge

structure OrderProvenance where
  platform : Option String
  parentOrderId : Option String
  correlationId : Option String

def manualPlatform : String := "FAST"

/-- A claim of the ledger on an order, or on its parent, beats the platform field. -/
def classify (orderId : String) (prov : Option OrderProvenance) (ledgerOrderIds : Finset String) :
    Provenance :=
  if orderId ∈ ledgerOrderIds then .bot
  else
    match prov with
    | none => .unknown
    | some prov =>
      if prov.parentOrderId.any (· ∈ ledgerOrderIds) then .bot
      else if (prov.platform.getD "").toUpper = manualPlatform then .manual
      else .unknown

structure ProvenanceRow where
  securityId : String
  side : OrderSide
  quantity : Int
  price : ℚ
  filledAt : ExchangeTime
  orderPlatform : Option String
  provenance : Provenance
  parentOrderId : Option String
  correlationId : Option String
  billedCharges : Option ℚ

abbrev ProvenanceTable := String → Option ProvenanceRow

structure IngestRun where
  fills : List AccountFill
  tape : List (String × OrderProvenance)
  ledgerOrderIds : Finset String
  platformOrderIds : Finset String

structure IngestResult where
  seen : Nat := 0
  written : Nat := 0
  alreadyPresent : Nat := 0
  bot : Nat := 0
  manual : Nat := 0
  unknown : Nat := 0
  unknownOrderIds : List String := []
  tapeEmpty : Bool := false

def IngestResult.count (result : IngestResult) (orderId : String) : Provenance → IngestResult
  | .bot => { result with bot := result.bot + 1 }
  | .manual => { result with manual := result.manual + 1 }
  | .unknown =>
    { result with
      unknown := result.unknown + 1, unknownOrderIds := result.unknownOrderIds ++ [orderId] }

def ingestFill (run : IngestRun) (acc : ProvenanceTable × IngestResult) (fill : AccountFill) :
    ProvenanceTable × IngestResult :=
  if fill.orderId = "" then acc
  else
    let prov := run.tape.lookup fill.orderId
    let verdict := classify fill.orderId prov (run.ledgerOrderIds ∪ run.platformOrderIds)
    let result := acc.2.count fill.orderId verdict
    match acc.1 fill.orderId with
    | some _ => (acc.1, { result with alreadyPresent := result.alreadyPresent + 1 })
    | none =>
      let row : ProvenanceRow :=
        { securityId := fill.contract, side := fill.side, quantity := fill.qty,
          price := fill.price, filledAt := fill.ts, orderPlatform := prov.bind (·.platform),
          provenance := verdict, parentOrderId := prov.bind (·.parentOrderId),
          correlationId := prov.bind (·.correlationId), billedCharges := fill.charges }
      (Function.update acc.1 fill.orderId (some row), { result with written := result.written + 1 })

def IngestRun.stops (run : IngestRun) : Bool := !run.fills.isEmpty && run.tape.isEmpty

def ingestFills (table : ProvenanceTable) (run : IngestRun) : ProvenanceTable × IngestResult :=
  if run.stops then (table, { seen := run.fills.length, tapeEmpty := true })
  else
    let (table, result) := run.fills.foldl (ingestFill run) (table, {})
    (table, { result with seen := run.fills.length })

inductive TruthVerdict
  | green
  | red
  | noData
  | attention
  deriving DecidableEq

inductive CheckKind
  | sameDay
  | morning

structure TruthCheckResult where
  verdict : TruthVerdict := .green
  kind : CheckKind := .morning
  fillsChecked : Nat := 0
  unrecorded : List String := []
  tapeGap : Bool := false
  witnessesSeen : List String := []
  phantomPositions : List String := []

/-- The 15:50 check. `dayQtyMoved` is `none` where the broker could not be asked. -/
def evaluateSameDay (tapeOrders platformOrders : Finset String) (dayQtyMoved : Option Int)
    (phantomPositions : List String) (tapeLoaded : Bool) : TruthCheckResult :=
  let result : TruthCheckResult :=
    { kind := .sameDay, fillsChecked := tapeOrders.card,
      phantomPositions := phantomPositions.toFinset.sort (· ≤ ·) }
  if tapeLoaded = false then { result with verdict := .red, tapeGap := true }
  else
    let missing := (tapeOrders \ platformOrders).sort (· ≤ ·)
    match dayQtyMoved with
    | none =>
      { result with
        unrecorded := missing, verdict := .noData
        witnessesSeen := ["broker /positions unreachable"] }
    | some qty =>
      let unrecorded :=
        if 0 < qty ∧ platformOrders = ∅ ∧ missing = []
        then ["<no platform rows for a day that traded>"] else missing
      { result with
        unrecorded, witnessesSeen := ["Dhan /positions day quantity=" ++ toString qty]
        verdict := if unrecorded ≠ [] ∨ result.phantomPositions ≠ [] then .red else .green }

end TradingBridge
