import TradingBridge.Attribution
import TradingBridge.Calendar
import TradingBridge.Lib.CanonicalJson
import TradingBridge.Lib.DecimalContext

/-!
# The transparency ledger

A listing's daily snapshots, each hashed over its payload and signed over the snapshot before it.
The hash itself is a parameter.
-/

namespace TradingBridge.Ledger

open CanonicalJson DecimalContext

/-- A `NUMERIC(p, 4)` column, in ten-thousandths. -/
abbrev Numeric (p : ℕ) := { u : ℤ // |u| < 10 ^ p }

abbrev Integer := { n : ℤ // -2 ^ 31 ≤ n ∧ n < 2 ^ 31 }

abbrev BigInteger := { n : ℤ // -2 ^ 63 ≤ n ∧ n < 2 ^ 63 }

def Numeric.toDecimal {p : ℕ} (u : Numeric p) : ℚ := u.val / 10 ^ 4

structure LedgerSnapshot where
  listingId : ℕ
  snapshotDate : Date
  sequenceNumber : BigInteger
  cumulativePnlInr : Numeric 20
  maxDrawdownPct : Option (Numeric 7)
  maxDrawdownInr : Option (Numeric 20)
  totalTrades : Integer
  winRate : Numeric 5
  sharpeRatio : Option (Numeric 7)
  daysSincePublish : Integer
  paperTradesCount : Integer
  liveTradesCount : Integer
  unpricedPositions : Option Integer
  humanInterferedPositions : Option Integer
  pnlBasis : Option String
  dataHash : String
  priorHash : Option String
  chainSignature : String

inductive LedgerError
  | listingNotFound (listingId : ℕ)
  | strategyNotFound (strategyId : ℕ)
  | snapshotAlreadyExists (listingId : ℕ) (date : Date)
  | nothingToPublish (listingId : ℕ)
  | invalidOperation
  | outOfRange

def storeNumeric (p : ℕ) (u : ℤ) : Except LedgerError (Numeric p) :=
  if h : |u| < 10 ^ p then .ok ⟨u, h⟩ else .error .outOfRange

def storeInteger (n : ℤ) : Except LedgerError Integer :=
  if h : -2 ^ 31 ≤ n ∧ n < 2 ^ 31 then .ok ⟨n, h⟩ else .error .outOfRange

def storeBigInteger (n : ℤ) : Except LedgerError BigInteger :=
  if h : -2 ^ 63 ≤ n ∧ n < 2 ^ 63 then .ok ⟨n, h⟩ else .error .outOfRange

def storeOptional {α β : Type} (store : α → Except LedgerError β) :
    Option α → Except LedgerError (Option β)
  | none => .ok none
  | some a => (store a).map some

def precision : ℕ := 28

/-- A coefficient of more digits than the context has is an error, and what is below zero keeps its
sign. -/
def formatDecimal (value : ℚ) : Except LedgerError String :=
  let units := DecimalContext.roundHalfEven (value * 10 ^ 4)
  if 10 ^ precision ≤ |units| then .error .invalidOperation
  else if value < 0 ∧ units = 0 then
    .ok (String.ofList ('-' :: DecimalText.fixedText 4 0))
  else .ok (String.ofList (DecimalText.fixedText 4 units))

def formatOptionalDecimal : Option ℚ → Except LedgerError (Option String)
  | none => .ok none
  | some value => (formatDecimal value).map some

/-- `Decimal(text)`, in ten-thousandths. -/
def parseDecimal (text : String) : Except LedgerError ℤ :=
  match DecimalText.readFixed 4 text.toList with
  | some units => .ok units
  | none => .error .invalidOperation

def parseOptionalDecimal : Option String → Except LedgerError (Option ℤ)
  | none => .ok none
  | some text => (parseDecimal text).map some

section Hashing

variable (sha256Hex : String → String)

def genesisSeed : String := "GENESIS"

def dataHashFor (payload : List (String × Scalar)) : String := sha256Hex (dumps payload)

def chainSignatureFor (dataHash : String) (priorHash : Option String) : String :=
  sha256Hex (dataHash ++ "|" ++ priorHash.getD genesisSeed)

end Hashing

section Payload

@[ext]
structure SnapshotPayload where
  listingId : String
  snapshotDate : String
  sequenceNumber : ℤ
  cumulativePnlInr : String
  maxDrawdownPct : Option String
  totalTrades : ℤ
  winRate : String
  sharpeRatio : Option String
  daysSincePublish : ℤ
  paperTradesCount : ℤ
  liveTradesCount : ℤ
  unpricedPositions : Option ℤ
  pnlBasis : Option String
  maxDrawdownInr : Option String
  humanInterferedPositions : Option ℤ

def optionalText : Option String → Scalar
  | none => .null
  | some s => .text s

def optionalInt : Option ℤ → Scalar
  | none => .null
  | some z => .int z

variable (p : SnapshotPayload)

def SnapshotPayload.originalKeys : List (String × Scalar) :=
  [("listing_id", .text p.listingId), ("snapshot_date", .text p.snapshotDate),
    ("sequence_number", .int p.sequenceNumber), ("cumulative_pnl_inr", .text p.cumulativePnlInr),
    ("max_drawdown_pct", optionalText p.maxDrawdownPct), ("total_trades", .int p.totalTrades),
    ("win_rate", .text p.winRate), ("sharpe_ratio", optionalText p.sharpeRatio),
    ("days_since_publish", .int p.daysSincePublish),
    ("paper_trades_count", .int p.paperTradesCount),
    ("live_trades_count", .int p.liveTradesCount)]

def SnapshotPayload.coverageKeys : List (String × Scalar) :=
  [("unpriced_positions", optionalInt p.unpricedPositions),
    ("pnl_basis", optionalText p.pnlBasis),
    ("max_drawdown_inr", optionalText p.maxDrawdownInr),
    ("human_interfered_positions", optionalInt p.humanInterferedPositions)]

def SnapshotPayload.modelDump : List (String × Scalar) :=
  p.originalKeys ++ p.coverageKeys

def hexDigits : ℕ → ℕ → List Char
  | 0, _ => []
  | k + 1, n => hexDigits k (n / 16) ++ [Nat.digitChar (n % 16)]

def uuidText (id : ℕ) : String :=
  let h := hexDigits 32 id
  String.ofList (h.take 8 ++ '-' :: ((h.drop 8).take 4 ++ '-' :: ((h.drop 12).take 4
    ++ '-' :: ((h.drop 16).take 4 ++ '-' :: h.drop 20))))

end Payload

section Record

structure RecordedPosition where
  strategyId : ℕ
  closed : Bool
  subscriptionId : Option ℕ
  openedAt : ℤ
  closedAt : Option ℤ
  finalPnl : Option (Numeric 18)
  pnlAttribution : Option AttributionTag

structure PaperSession where
  strategyId : ℕ
  sessionDate : Date
  isComplete : Bool
  totalPnl : Numeric 20
  totalTrades : Integer

structure Listing where
  id : ℕ
  strategyId : ℕ
  publishedAt : Option Date

structure LedgerView where
  listings : List Listing
  isPaper : ℕ → Option Bool
  positions : List RecordedPosition
  paperSessions : List PaperSession
  trackingEpoch : Option ℤ

def pricedTag (tag : Option AttributionTag) : Bool :=
  tag = some .botOnly || tag = some .accountFlat

def notATrade (tag : Option AttributionTag) : Bool :=
  tag = some .unpriceable || tag = some .paperSim

def positionsInRecord (view : LedgerView) (p : RecordedPosition) : Bool :=
  match view.trackingEpoch with
  | none => true
  | some epoch => epoch ≤ p.openedAt

variable (view : LedgerView) (a b : ℚ)

def closedRows (strategyId : ℕ) : List RecordedPosition :=
  view.positions.filter fun p =>
    p.strategyId = strategyId && p.closed && p.subscriptionId.isNone && positionsInRecord view p

def decimalAdd : ℚ := round precision (a + b)

def decimalSub : ℚ := round precision (a - b)

def decimalMul : ℚ := round precision (a * b)

def decimalDiv : ℚ := round precision (a / b)

def cumulate : ℚ → List ℚ → List ℚ
  | _, [] => []
  | total, pnl :: pnls => decimalAdd total pnl :: cumulate (decimalAdd total pnl) pnls

def drawdownPctStep (acc : ℚ × ℚ) (v : ℚ) : ℚ × ℚ :=
  let peak := if acc.1 < v then v else acc.1
  if 0 < peak then
    let dd := decimalMul (decimalDiv (decimalSub peak v) peak) 100
    (peak, if acc.2 < dd then dd else acc.2)
  else (peak, acc.2)

/-- As a percentage of the peak, while that is above zero. -/
def maxDrawdownPct : List ℚ → ℚ
  | [] => 0
  | v :: vs => ((v :: vs).foldl drawdownPctStep (v, 0)).2

def drawdownInrStep (acc : ℚ × ℚ) (v : ℚ) : ℚ × ℚ :=
  let peak := if acc.1 < v then v else acc.1
  let fall := decimalSub peak v
  (peak, if acc.2 < fall then fall else acc.2)

def maxDrawdownInr (cumulative : List ℚ) : ℚ := (cumulative.foldl drawdownInrStep (0, 0)).2

/-- `_max_drawdown_inr` with any subtraction. -/
def drawdownInrBy (sub : ℚ → ℚ → ℚ) (cumulative : List ℚ) : ℚ :=
  (cumulative.foldl (fun acc v =>
    let peak := if acc.1 < v then v else acc.1
    let fall := sub peak v
    (peak, if acc.2 < fall then fall else acc.2)) (0, 0)).2

def closedBefore (p q : Option ℤ × ℚ) : Bool :=
  match p.1, q.1 with
  | none, _ => true
  | some _, none => false
  | some s, some t => s ≤ t

def pricedPnls (rows : List RecordedPosition) : List ℚ :=
  let priced := rows.filterMap fun p =>
    match p.finalPnl with
    | some pnl => if pricedTag p.pnlAttribution then some (p.closedAt, pnl.toDecimal) else none
    | none => none
  (priced.insertionSort fun p q => closedBefore p q).map Prod.snd

def unpricedTags (rows : List RecordedPosition) : List (Option AttributionTag) :=
  (rows.filter fun p => (p.finalPnl.isNone || !pricedTag p.pnlAttribution)
    && !notATrade p.pnlAttribution).map RecordedPosition.pnlAttribution

def reconciledNet : String := "reconciled_net_estimated_costs"

def paperSessionsGross : String := "paper_sessions_gross"

def livePayload (listing : Listing) (date : Date) (sequence days : ℤ) :
    Except LedgerError SnapshotPayload := do
  let rows := closedRows view listing.strategyId
  let pnls := pricedPnls rows
  let unpriced := unpricedTags rows
  if pnls = [] then throw (.nothingToPublish listing.id)
  else
    let series := cumulate 0 pnls
    let wins := (pnls.filter (0 < ·)).length
    let cumulativeText ← formatDecimal (series.getLastD 0)
    let drawdownText ← formatDecimal (maxDrawdownInr series)
    let winRateText ← formatDecimal (decimalDiv wins pnls.length)
    return {
      listingId := uuidText listing.id
      snapshotDate := date.isoformat
      sequenceNumber := sequence
      cumulativePnlInr := cumulativeText
      maxDrawdownPct := none
      totalTrades := pnls.length
      winRate := winRateText
      sharpeRatio := none
      daysSincePublish := days
      paperTradesCount := 0
      liveTradesCount := pnls.length
      unpricedPositions := some unpriced.length
      pnlBasis := some reconciledNet
      maxDrawdownInr := some drawdownText
      humanInterferedPositions :=
        some (unpriced.filter (· = some .humanInterfered)).length }

def paperPayload (listing : Listing) (date : Date) (sequence days : ℤ) :
    Except LedgerError SnapshotPayload := do
  let sessions := (view.paperSessions.filter fun s =>
    s.strategyId = listing.strategyId && s.isComplete).insertionSort
      fun s t => s.sessionDate.ordinal ≤ t.sessionDate.ordinal
  if sessions = [] then throw (.nothingToPublish listing.id)
  else
    let pnls := sessions.map fun s => s.totalPnl.toDecimal
    let series := cumulate 0 pnls
    let trades := (sessions.map fun s => s.totalTrades.val).sum
    if trades = 0 then throw (.nothingToPublish listing.id)
    else
      let wins := (pnls.filter (0 < ·)).length
      let cumulativeText ← formatDecimal (series.getLastD 0)
      let percentText ← formatDecimal (maxDrawdownPct series)
      let drawdownText ← formatDecimal (maxDrawdownInr series)
      let winRateText ← formatDecimal (decimalDiv wins sessions.length)
      return {
        listingId := uuidText listing.id
        snapshotDate := date.isoformat
        sequenceNumber := sequence
        cumulativePnlInr := cumulativeText
        maxDrawdownPct := some percentText
        totalTrades := trades
        winRate := winRateText
        sharpeRatio := none
        daysSincePublish := days
        paperTradesCount := trades
        liveTradesCount := 0
        unpricedPositions := none
        pnlBasis := some paperSessionsGross
        maxDrawdownInr := some drawdownText
        humanInterferedPositions := none }

def daysSincePublish (listing : Listing) (date : Date) : ℤ :=
  match listing.publishedAt with
  | none => 0
  | some published => max 0 (date.ordinal - published.ordinal)

def gatherPerformancePayload (view : LedgerView) (listing : Listing) (date : Date)
    (sequence : ℤ) : Except LedgerError SnapshotPayload :=
  match view.isPaper listing.strategyId with
  | none => .error (.strategyNotFound listing.strategyId)
  | some false => livePayload view listing date sequence (daysSincePublish listing date)
  | some true => paperPayload view listing date sequence (daysSincePublish listing date)

end Record

section Snapshots

def chainRows (listingId : ℕ) (rows : List LedgerSnapshot) : List LedgerSnapshot :=
  (rows.filter (·.listingId = listingId)).insertionSort
    fun r s => r.sequenceNumber.val ≤ s.sequenceNumber.val

/-- The listing, and the sequence number and prior signature of its next row. -/
def resolveChainHead (view : LedgerView) (rows : List LedgerSnapshot) (listingId : ℕ)
    (date : Date) : Except LedgerError (Listing × ℤ × Option String) :=
  match view.listings.find? (·.id = listingId) with
  | none => .error (.listingNotFound listingId)
  | some listing =>
    if rows.any fun r => r.listingId = listing.id && r.snapshotDate = date then
      .error (.snapshotAlreadyExists listing.id date)
    else
      match (chainRows listing.id rows).getLast? with
      | none => .ok (listing, 1, none)
      | some prior =>
        .ok (listing, prior.sequenceNumber.val + 1, some prior.chainSignature)

def storeSnapshot (listingId : ℕ) (date : Date) (p : SnapshotPayload)
    (dataHash : String) (priorHash : Option String) (signature : String) :
    Except LedgerError LedgerSnapshot := do
  let sequence ← storeBigInteger p.sequenceNumber
  let pnl ← storeNumeric 20 (← parseDecimal p.cumulativePnlInr)
  let percent ← storeOptional (storeNumeric 7) (← parseOptionalDecimal p.maxDrawdownPct)
  let drawdown ← storeOptional (storeNumeric 20) (← parseOptionalDecimal p.maxDrawdownInr)
  let trades ← storeInteger p.totalTrades
  let winRate ← storeNumeric 5 (← parseDecimal p.winRate)
  let days ← storeInteger p.daysSincePublish
  let paper ← storeInteger p.paperTradesCount
  let live ← storeInteger p.liveTradesCount
  let unpriced ← storeOptional storeInteger p.unpricedPositions
  let human ← storeOptional storeInteger p.humanInterferedPositions
  return {
    listingId := listingId
    snapshotDate := date
    sequenceNumber := sequence
    cumulativePnlInr := pnl
    maxDrawdownPct := percent
    maxDrawdownInr := drawdown
    totalTrades := trades
    winRate := winRate
    sharpeRatio := none
    daysSincePublish := days
    paperTradesCount := paper
    liveTradesCount := live
    unpricedPositions := unpriced
    humanInterferedPositions := human
    pnlBasis := p.pnlBasis
    dataHash := dataHash
    priorHash := priorHash
    chainSignature := signature }

variable (sha256Hex : String → String)

def createDailySnapshot (view : LedgerView) (rows : List LedgerSnapshot) (listingId : ℕ)
    (date : Date) : Except LedgerError LedgerSnapshot := do
  let (listing, sequence, priorHash) ← resolveChainHead view rows listingId date
  let payload ← gatherPerformancePayload view listing date sequence
  let dataHash := dataHashFor sha256Hex payload.modelDump
  let signature := chainSignatureFor sha256Hex dataHash priorHash
  storeSnapshot listing.id date payload dataHash priorHash signature

structure SnapshotCall where
  listingId : ℕ
  date : Date
  view : LedgerView

/-- The table after a call; a failed one is rolled back. -/
def applyCall (rows : List LedgerSnapshot) (call : SnapshotCall) : List LedgerSnapshot :=
  match createDailySnapshot sha256Hex call.view rows call.listingId call.date with
  | .ok row => rows ++ [row]
  | .error _ => rows

def applyCalls (rows : List LedgerSnapshot) (calls : List SnapshotCall) : List LedgerSnapshot :=
  calls.foldl (applyCall sha256Hex) rows

def successes (listingId : ℕ) : List LedgerSnapshot → List SnapshotCall → ℕ
  | _, [] => 0
  | rows, call :: calls =>
    let succeeded := (createDailySnapshot sha256Hex call.view rows call.listingId
      call.date).isOk
    (if succeeded && call.listingId = listingId then 1 else 0)
      + successes listingId (applyCall sha256Hex rows call) calls

end Snapshots

section Verification

inductive BreakReason
  | sequenceGap (expected got : ℤ)
  | dataHashMismatch
  | priorHashMismatch
  | chainSignatureMismatch

structure LedgerVerificationResult where
  listingId : ℕ
  isChainValid : Bool
  snapshotsVerified : ℤ
  firstBreakAtSequence : Option ℤ
  firstBreakReason : Option BreakReason

/-- A row without a basis has the original keys only. -/
def payloadFromRow (row : LedgerSnapshot) : Except LedgerError (List (String × Scalar)) := do
  let cumulativeText ← formatDecimal row.cumulativePnlInr.toDecimal
  let percentText ← formatOptionalDecimal (row.maxDrawdownPct.map Numeric.toDecimal)
  let winRateText ← formatDecimal row.winRate.toDecimal
  let sharpeText ← formatOptionalDecimal (row.sharpeRatio.map Numeric.toDecimal)
  let drawdownText ← formatOptionalDecimal (row.maxDrawdownInr.map Numeric.toDecimal)
  let payload : SnapshotPayload := {
    listingId := uuidText row.listingId
    snapshotDate := row.snapshotDate.isoformat
    sequenceNumber := row.sequenceNumber.val
    cumulativePnlInr := cumulativeText
    maxDrawdownPct := percentText
    totalTrades := row.totalTrades.val
    winRate := winRateText
    sharpeRatio := sharpeText
    daysSincePublish := row.daysSincePublish.val
    paperTradesCount := row.paperTradesCount.val
    liveTradesCount := row.liveTradesCount.val
    unpricedPositions := row.unpricedPositions.map Subtype.val
    pnlBasis := row.pnlBasis
    maxDrawdownInr := drawdownText
    humanInterferedPositions := row.humanInterferedPositions.map Subtype.val }
  return if row.pnlBasis = none then payload.originalKeys else payload.modelDump

variable (sha256Hex : String → String)

structure ChainBreak where
  verified : ℤ
  atSequence : ℤ
  reason : BreakReason

/-- From the expected signature and sequence number on. -/
def firstBreak : Option String → ℤ → List LedgerSnapshot → Except LedgerError (Option ChainBreak)
  | _, _, [] => .ok none
  | expectedPrior, expected, row :: rows =>
    if row.sequenceNumber.val ≠ expected then
      .ok (some ⟨expected - 1, row.sequenceNumber.val,
        .sequenceGap expected row.sequenceNumber.val⟩)
    else do
      let payload ← payloadFromRow row
      if dataHashFor sha256Hex payload ≠ row.dataHash then
        return some ⟨expected - 1, expected, .dataHashMismatch⟩
      else if row.priorHash ≠ expectedPrior then
        return some ⟨expected - 1, expected, .priorHashMismatch⟩
      else if chainSignatureFor sha256Hex row.dataHash row.priorHash ≠ row.chainSignature then
        return some ⟨expected - 1, expected, .chainSignatureMismatch⟩
      else firstBreak (some row.chainSignature) (expected + 1) rows

def verifyListingChain (listingId : ℕ) (rows : List LedgerSnapshot) :
    Except LedgerError LedgerVerificationResult := do
  let chain := chainRows listingId rows
  match ← firstBreak sha256Hex none 1 chain with
  | none => return ⟨listingId, true, chain.length, none, none⟩
  | some b => return ⟨listingId, false, b.verified, some b.atSequence, some b.reason⟩

end Verification

end TradingBridge.Ledger
