import TradingBridge.Lib.DecimalContext

/-!
# The tape

Prices and ratios are exact; the reporting counters of `summary` are left out. A bar series keeps
what the source keys by its bar type: the builder, the slope, the velocity and the OFI baseline.
-/

namespace TradingBridge.Orderflow.Tape

inductive InstrumentClass where
  | indexFut
  | stock
  | option
  deriving DecidableEq

inductive ClassifyMethod where
  | leeReady
  | tickRule
  deriving DecidableEq

inductive TradeSizeMode where
  | volumeDelta
  | ltq
  deriving DecidableEq

inductive BigPrintMode where
  | fixed
  | percentile
  deriving DecidableEq

def classifyInstrument (symbol : String) : InstrumentClass :=
  let s := symbol.toList.map Char.toUpper
  if "_CE_".toList <:+: s ∨ "_PE_".toList <:+: s then .option
  else if "_FUT".toList <:+ s ∨ "_FUT_".toList <:+: s then .indexFut
  else .stock

def defaultBinSize : InstrumentClass → ℚ
  | .indexFut => 1
  | .stock => 1 / 10
  | .option => 1

structure TapeConfig where
  tickBarSize : ℤ := 100
  volumeBarEnabled : Bool := true
  volumeBarThreshold : InstrumentClass → ℤ := fun _ => 0
  classifyMethod : ClassifyMethod := .leeReady
  tradeSizeMode : TradeSizeMode := .volumeDelta
  cvdSlopeWindow : ℤ := 20
  bigprintMode : BigPrintMode := .fixed
  bigprintNotional : InstrumentClass → ℚ := fun _ => 0
  bigprintPercentile : ℚ := 99
  bigprintLookback : ℕ := 2000
  bigprintMinSamples : ℤ := 500
  clusterK : ℤ := 3
  clusterWindowNs : ℤ := 10000000000
  velocityBaselineBars : ℤ := 20
  velocitySpikeRatio : ℚ := 1 / 2
  depthImbalanceLevels : ℕ := 5
  depthOfiEnabled : Bool := false
  depthOfiGapGuardNs : ℤ := 5000000000
  footprintBinSize : InstrumentClass → ℚ := defaultBinSize
  footprintImbalanceRatio : ℚ := 0
  footprintStackedMinLevels : ℤ := 3

inductive Side where
  | buy
  | sell
  deriving DecidableEq

def Side.sign : Side → ℤ
  | .buy => 1
  | .sell => -1

structure Trade where
  tsNs : ℤ
  price : ℚ
  size : ℤ
  side : Side
  notional : ℚ

def tickRule (price : ℚ) (prevPrice : Option ℚ) (prevSide : Side) : Side :=
  match prevPrice with
  | none => prevSide
  | some prev =>
    if price > prev then .buy
    else if price < prev then .sell
    else prevSide

def classifyTrade (price : ℚ) (bid ask prevPrice : Option ℚ) (prevSide : Side)
    (method : ClassifyMethod) : Side :=
  match bid, ask with
  | some bid, some ask =>
    if method = .tickRule ∨ bid ≤ 0 ∨ ask ≤ 0 then tickRule price prevPrice prevSide
    else if price ≥ ask then .buy
    else if price ≤ bid then .sell
    else if price > (bid + ask) / 2 then .buy
    else if price < (bid + ask) / 2 then .sell
    else tickRule price prevPrice prevSide
  | _, _ => tickRule price prevPrice prevSide

structure TickPacket where
  isTick : Bool := true
  securityId : Option ℤ
  tsRecvNs : ℤ
  ltp : Option ℚ
  volume : Option ℤ
  ltq : Option ℤ := none
  bidPrice1 : Option ℚ := none
  askPrice1 : Option ℚ := none

structure TradeExtractor where
  sizeMode : TradeSizeMode
  method : ClassifyMethod
  lastVolume : Option ℤ := none
  prevPrice : Option ℚ := none
  prevSide : Side := .buy

/-- `int(row.get("ltq") or dvol)` outside the volume-delta mode. -/
def TradeExtractor.tradeSize (x : TradeExtractor) (row : TickPacket) (dvol : ℤ) : ℤ :=
  match x.sizeMode with
  | .volumeDelta => dvol
  | .ltq => if row.ltq.getD 0 = 0 then dvol else row.ltq.getD 0

def TradeExtractor.onTick (x : TradeExtractor) (row : TickPacket) : TradeExtractor × Option Trade :=
  match row.volume, row.ltp with
  | some vol, some price =>
    match x.lastVolume with
    | none => ({ x with lastVolume := some vol, prevPrice := some price }, none)
    | some last =>
      let dvol := vol - last
      if dvol ≤ 0 then ({ x with lastVolume := some vol }, none)
      else
        let size := x.tradeSize row dvol
        let side := classifyTrade price row.bidPrice1 row.askPrice1 x.prevPrice x.prevSide x.method
        ({ x with lastVolume := some vol, prevPrice := some price, prevSide := side },
          some { tsNs := row.tsRecvNs, price, size, side, notional := price * size })
  | _, _ => (x, none)

inductive BarType where
  | tick
  | volume
  deriving DecidableEq

/-- Price bin and the volume bought and sold in it, in the order of the first trade. -/
abbrev Footprint := List (ℚ × ℤ × ℤ)

def Footprint.add : Footprint → ℚ → ℤ → ℤ → Footprint
  | [], b, buy, sell => [(b, buy, sell)]
  | (k, x, y) :: cells, b, buy, sell =>
    if k = b then (k, x + buy, y + sell) :: cells
    else (k, x, y) :: Footprint.add cells b buy sell

def Footprint.total (cells : Footprint) : ℤ := (cells.map fun cell => cell.2.1 + cell.2.2).sum

structure Bar where
  barType : BarType
  barIndex : ℕ
  startTsNs : ℤ
  endTsNs : ℤ
  openPrice : ℚ
  high : ℚ
  low : ℚ
  close : ℚ
  volume : ℤ
  buyVol : ℤ
  sellVol : ℤ
  tradeCount : ℕ
  footprint : Footprint

namespace Bar

def delta (bar : Bar) : ℤ := bar.buyVol - bar.sellVol

def durationS (bar : Bar) : ℚ := (bar.endTsNs - bar.startTsNs : ℤ) / 1000000000

end Bar

def round6 (x : ℚ) : ℚ := DecimalContext.roundHalfEven (x * 1000000) / 1000000

/-- Prices and timestamps are 0 before the first trade; nothing reads them there. -/
structure Accumulator where
  binSize : ℚ
  n : ℕ := 0
  openPrice : ℚ := 0
  high : ℚ := 0
  low : ℚ := 0
  close : ℚ := 0
  startTs : ℤ := 0
  endTs : ℤ := 0
  volume : ℤ := 0
  buyVol : ℤ := 0
  sellVol : ℤ := 0
  footprint : Footprint := []

namespace Accumulator

def reset (acc : Accumulator) : Accumulator := { binSize := acc.binSize }

def add (acc : Accumulator) (t : Trade) : Accumulator :=
  let first := acc.n = 0
  let buy := if t.side = .buy then t.size else 0
  let sell := if t.side = .buy then 0 else t.size
  { acc with
    openPrice := if first then t.price else acc.openPrice
    high := max (if first then t.price else acc.high) t.price
    low := min (if first then t.price else acc.low) t.price
    close := t.price
    startTs := if first then t.tsNs else acc.startTs
    endTs := t.tsNs
    volume := acc.volume + t.size
    buyVol := acc.buyVol + buy
    sellVol := acc.sellVol + sell
    footprint :=
      if 0 < acc.binSize then
        acc.footprint.add (round6 (⌊t.price / acc.binSize⌋ * acc.binSize)) buy sell
      else acc.footprint
    n := acc.n + 1 }

def emit (acc : Accumulator) (barType : BarType) (index : ℕ) : Bar :=
  { barType, barIndex := index, startTsNs := acc.startTs, endTsNs := acc.endTs,
    openPrice := acc.openPrice,
    high := acc.high, low := acc.low, close := acc.close, volume := acc.volume,
    buyVol := acc.buyVol, sellVol := acc.sellVol, tradeCount := acc.n,
    footprint := acc.footprint }

end Accumulator

structure BarBuilder where
  barType : BarType
  tickSize : ℤ := 0
  volumeThreshold : ℤ := 0
  acc : Accumulator
  index : ℕ := 0

namespace BarBuilder

def shouldClose (b : BarBuilder) : Bool :=
  match b.barType with
  | .tick => 0 < b.tickSize ∧ b.tickSize ≤ b.acc.n
  | .volume => 0 < b.volumeThreshold ∧ b.volumeThreshold ≤ b.acc.volume

def emit (b : BarBuilder) : BarBuilder × Bar :=
  ({ b with acc := b.acc.reset, index := b.index + 1 }, b.acc.emit b.barType b.index)

def onTrade (b : BarBuilder) (t : Trade) : BarBuilder × Option Bar :=
  let b := { b with acc := b.acc.add t }
  if b.shouldClose then (b.emit.1, some b.emit.2) else (b, none)

def flush (b : BarBuilder) : BarBuilder × Option Bar :=
  if b.acc.n = 0 then (b, none) else (b.emit.1, some b.emit.2)

end BarBuilder

/-- `append` to a deque of at most `maxlen` items. -/
def pushMax {α : Type} (maxlen : ℕ) (items : List α) (x : α) : List α :=
  (items ++ [x]).drop (items.length + 1 - maxlen)

def atLeastOne (n : ℤ) : ℕ := (max 1 n).toNat

structure SlopeSeries where
  window : ℕ
  hist : List ℤ := []

def SlopeSeries.sample (s : SlopeSeries) (cvd : ℤ) : SlopeSeries × ℚ :=
  let hist := pushMax (s.window + 1) s.hist cvd
  ({ s with hist },
    if hist.length < 2 then 0
    else ((hist.getLastD 0 - hist.headD 0 : ℤ) : ℚ) / ((hist.length - 1 : ℕ) : ℚ))

def median (xs : List ℚ) : ℚ :=
  let sorted := xs.insertionSort (· ≤ ·)
  let n := sorted.length
  if n % 2 = 1 then sorted.getD (n / 2) 0
  else (sorted.getD (n / 2 - 1) 0 + sorted.getD (n / 2) 0) / 2

structure Velocity where
  durationS : ℚ
  baselineS : Option ℚ
  ratio : Option ℚ
  spike : Bool

structure TapeVelocity where
  baselineBars : ℕ
  spikeRatio : ℚ
  durations : List ℚ := []

def TapeVelocity.onBarDuration (v : TapeVelocity) (duration : ℚ) : TapeVelocity × Velocity :=
  let baseline := if v.baselineBars ≤ v.durations.length then some (median v.durations) else none
  let ratio := baseline.bind fun b => if 0 < b then some (duration / b) else none
  ({ v with durations := pushMax v.baselineBars v.durations duration },
    { durationS := duration, baselineS := baseline, ratio,
      spike := ratio.any fun r => r < v.spikeRatio })

section BigPrint

structure BigPrintEvent where
  tsNs : ℤ
  side : Side
  notional : ℚ
  price : ℚ
  size : ℤ
  isCluster : Bool := false
  clusterCount : ℕ := 0
  strength : ℚ

structure BigPrintDetector where
  threshold : ℚ
  clusterK : ℤ
  clusterWindowNs : ℤ
  mode : BigPrintMode
  percentile : ℚ
  lookback : ℕ
  minSamples : ℤ
  recent : List ℤ := []
  window : List ℚ := []

/-- `_percentile`: the nearest rank, without interpolation. -/
def nearestRank (sorted : List ℚ) (p : ℚ) : ℚ :=
  let n : ℤ := sorted.length
  sorted.getD ((max 1 (min n ⌈p / 100 * n⌉)).toNat - 1) 0

namespace BigPrintDetector

variable (d : BigPrintDetector)

/-- `_strength`: the rank among the earlier trades, mapped from `[percentile, 100]`. -/
def strength (ordered : List ℚ) (notional : ℚ) : ℚ :=
  let below := (ordered.takeWhile (· < notional)).length
  let rank : ℚ := 100 * below / ordered.length
  if 100 ≤ d.percentile then 1 else max 0 (min 1 ((rank - d.percentile) / (100 - d.percentile)))

def classifyPercentile (t : Trade) : BigPrintDetector × Bool × ℚ :=
  let ordered := d.window.insertionSort (· ≤ ·)
  let cut := nearestRank ordered d.percentile
  let big := d.minSamples ≤ d.window.length ∧ 0 < cut ∧ cut ≤ t.notional
  ({ d with window := pushMax d.lookback d.window t.notional }, big,
    if big then d.strength ordered t.notional else 0)

def classify (d : BigPrintDetector) (t : Trade) : BigPrintDetector × Bool × ℚ :=
  match d.mode with
  | .percentile => d.classifyPercentile t
  | .fixed => if d.threshold ≤ 0 ∨ t.notional < d.threshold then (d, false, 0) else (d, true, 1)

def onTrade (t : Trade) : BigPrintDetector × List BigPrintEvent :=
  let (d, big, strength) := d.classify t
  if ¬ big then (d, [])
  else
    let recent := (d.recent ++ [t.tsNs]).dropWhile fun r => d.clusterWindowNs < t.tsNs - r
    let print : BigPrintEvent :=
      { tsNs := t.tsNs, side := t.side, notional := t.notional, price := t.price, size := t.size,
        strength }
    ({ d with recent },
      if d.clusterK ≤ recent.length then
        [print, { print with isCluster := true, clusterCount := recent.length }]
      else [print])

end BigPrintDetector

end BigPrint

structure StackedImbalance where
  side : Side
  levels : ℕ
  priceLow : ℚ
  priceHigh : ℚ

def Footprint.cell (cells : Footprint) (price : ℚ) : ℤ × ℤ :=
  ((cells.find? fun cell => cell.1 = price).map (·.2)).getD (0, 0)

def imbalanced (cells : Footprint) (price binSize ratio : ℚ) : Side → Bool
  | .buy =>
    let buy := (cells.cell price).1
    0 < buy ∧ ratio * (cells.cell (round6 (price - binSize))).2 ≤ buy
  | .sell =>
    let sell := (cells.cell price).2
    0 < sell ∧ ratio * (cells.cell (round6 (price + binSize))).1 ≤ sell

structure StackScan where
  found : List StackedImbalance := []
  run : List ℚ := []
  prev : Option ℚ := none

namespace StackScan

def close (s : StackScan) (side : Side) (minLevels : ℤ) : List StackedImbalance :=
  if minLevels ≤ s.run.length ∧ s.run ≠ [] then
    s.found ++ [{ side, levels := s.run.length, priceLow := s.run.headD 0,
                  priceHigh := s.run.getLastD 0 }]
  else s.found

def next (side : Side) (minLevels : ℤ) (binSize : ℚ) (flag : ℚ → Bool) (s : StackScan) (p : ℚ) :
    StackScan :=
  let contiguous := s.prev.any fun q => |p - q - binSize| < 1 / 1000000
  if flag p ∧ (s.run = [] ∨ contiguous) then { s with run := s.run ++ [p], prev := some p }
  else
    { found := s.close side minLevels, run := if flag p then [p] else [], prev := some p }

end StackScan

/-- A run of no bins is not reported: there the source would fail. -/
def detectStackedImbalance (cells : Footprint) (binSize ratio : ℚ) (minLevels : ℤ) :
    List StackedImbalance :=
  if ratio ≤ 0 ∨ cells = [] ∨ binSize ≤ 0 then []
  else
    let prices := (cells.map (·.1)).insertionSort (· ≤ ·)
    [Side.buy, Side.sell].flatMap fun side =>
      (prices.foldl (StackScan.next side minLevels binSize fun p =>
        imbalanced cells p binSize ratio side) {}).close side minLevels

section Depth

inductive BookSide where
  | bid
  | ask
  deriving DecidableEq

structure DepthPacket where
  securityId : Option ℤ
  side : Option BookSide
  price1 : Option ℚ
  qtys : List (Option ℤ)

namespace DepthPacket

variable (row : DepthPacket)

def price : ℚ := row.price1.getD 0

def qtyAt (level : ℕ) : ℤ := (row.qtys.getD level none).getD 0

def qty1 : ℤ := row.qtyAt 0

def sideQtys (levels : ℕ) : List ℤ := (List.range levels).map row.qtyAt

end DepthPacket

def queueImbalance (bid ask : DepthPacket) (levels : ℕ) : Option ℚ :=
  let b := (bid.sideQtys levels).sum
  let a := (ask.sideQtys levels).sum
  if b + a = 0 then none else some ((b - a : ℤ) / (b + a : ℤ))

def bookOk (bid ask : DepthPacket) : Bool :=
  0 < bid.qty1 ∧ 0 < ask.qty1 ∧ 0 < bid.price ∧ 0 < ask.price ∧ bid.price < ask.price

def bookOfi (prevBid prevAsk bid ask : DepthPacket) : ℚ :=
  let dBid :=
    if bid.price > prevBid.price then bid.qty1
    else if bid.price < prevBid.price then -prevBid.qty1
    else bid.qty1 - prevBid.qty1
  let dAsk :=
    if ask.price < prevAsk.price then ask.qty1
    else if ask.price > prevAsk.price then -prevAsk.qty1
    else ask.qty1 - prevAsk.qty1
  (dBid - dAsk : ℤ)

structure BookSnap where
  bid : DepthPacket
  ask : DepthPacket
  tsNs : ℤ

/-- The latest row of each side with its timestamp, and the OFI with the book it was taken
against. -/
structure Book where
  lastBid : Option (DepthPacket × ℤ) := none
  lastAsk : Option (DepthPacket × ℤ) := none
  ofiRunning : ℚ := 0
  ofiPrev : Option BookSnap := none
  ofiSnapTs : Option ℤ := none

namespace Book

/-- The OFI increment against the last valid book, if it is not across a lull. -/
def increment (book : Book) (gapGuard : ℤ) (snap : BookSnap) : ℚ :=
  match book.ofiPrev with
  | none => 0
  | some prev =>
    if snap.tsNs - prev.tsNs ≤ gapGuard then bookOfi prev.bid prev.ask snap.bid snap.ask else 0

/-- The OFI part of `on_depth`: a book is complete when both sides have one timestamp. -/
def accumulate (book : Book) (gapGuard : ℤ) : Book :=
  match book.lastBid, book.lastAsk with
  | some (bid, bidTs), some (ask, askTs) =>
    if bidTs ≠ askTs ∨ some bidTs = book.ofiSnapTs then book
    else
      let marked := { book with ofiSnapTs := some bidTs }
      if ¬ bookOk bid ask then marked
      else
        let snap : BookSnap := { bid, ask, tsNs := bidTs }
        { marked with
          ofiRunning := book.ofiRunning + book.increment gapGuard snap
          ofiPrev := some snap }
  | _, _ => book

def onDepth (book : Book) (cfg : TapeConfig) (row : DepthPacket) (ts : ℤ) : Book :=
  match row.side with
  | none => book
  | some side =>
    let book := match side with
      | .bid => { book with lastBid := some (row, ts) }
      | .ask => { book with lastAsk := some (row, ts) }
    if cfg.depthOfiEnabled then book.accumulate cfg.depthOfiGapGuardNs else book

def imbalance (book : Book) (levels : ℕ) : Option ℚ :=
  match book.lastBid, book.lastAsk with
  | some (bid, _), some (ask, _) => queueImbalance bid ask levels
  | _, _ => none

end Book

end Depth

section Engine

inductive EventKind where
  | bigPrint
  | bigPrintCluster (count : ℕ)
  | stackedImbalance (levels : ℕ) (priceLow priceHigh : ℚ)
  | velocitySpike (barType : BarType) (ratio baseline : Option ℚ)

structure EventRow where
  tsNs : ℤ
  securityId : ℤ
  symbol : String
  kind : EventKind
  side : Option Side
  notional : Option ℚ
  price : ℚ
  size : Option ℤ
  strength : Option ℚ := none

structure BarRow where
  securityId : ℤ
  symbol : String
  bar : Bar
  cvdRunning : ℤ
  cvdSlope : ℚ
  ofi : ℚ
  queueImbalance : Option ℚ
  velocity : Velocity

structure BarSeries where
  builder : BarBuilder
  slope : SlopeSeries
  velocity : TapeVelocity
  ofiBase : ℚ := 0

structure InstrumentState where
  sid : ℤ
  symbol : String
  extractor : TradeExtractor
  series : List BarSeries
  cvd : ℤ := 0
  bigprint : BigPrintDetector
  bars : ℕ := 0
  fpBin : ℚ
  book : Book := {}

variable (cfg : TapeConfig)

def newSeries (builder : BarBuilder) : BarSeries :=
  { builder, slope := { window := atLeastOne cfg.cvdSlopeWindow },
    velocity := { baselineBars := atLeastOne cfg.velocityBaselineBars,
                  spikeRatio := cfg.velocitySpikeRatio } }

def builds (symbol : String) : BarType → Bool
  | .tick => true
  | .volume => cfg.volumeBarEnabled ∧ 0 < cfg.volumeBarThreshold (classifyInstrument symbol)

def newBuilders (symbol : String) : List BarBuilder :=
  let cls := classifyInstrument symbol
  let acc : Accumulator := { binSize := cfg.footprintBinSize cls }
  let tick : BarBuilder := { barType := .tick, tickSize := cfg.tickBarSize, acc }
  if builds cfg symbol .volume then
    [tick, { barType := .volume, volumeThreshold := cfg.volumeBarThreshold cls, acc }]
  else [tick]

def newInstrument (sid : ℤ) (symbol : String) : InstrumentState :=
  let cls := classifyInstrument symbol
  { sid, symbol, fpBin := cfg.footprintBinSize cls,
    extractor := { sizeMode := cfg.tradeSizeMode, method := cfg.classifyMethod },
    series := (newBuilders cfg symbol).map (newSeries cfg),
    bigprint :=
      { threshold := cfg.bigprintNotional cls, clusterK := cfg.clusterK,
        clusterWindowNs := cfg.clusterWindowNs, mode := cfg.bigprintMode,
        percentile := cfg.bigprintPercentile, lookback := cfg.bigprintLookback,
        minSamples := cfg.bigprintMinSamples } }

namespace InstrumentState

def bigprintRow (st : InstrumentState) (ev : BigPrintEvent) : EventRow :=
  { tsNs := ev.tsNs, securityId := st.sid, symbol := st.symbol,
    kind := if ev.isCluster then .bigPrintCluster ev.clusterCount else .bigPrint,
    side := some ev.side, notional := some ev.notional, price := ev.price, size := some ev.size,
    strength := some ev.strength }

structure Closed where
  series : BarSeries
  row : Option BarRow
  events : List EventRow

def closeBar (st : InstrumentState) (s : BarSeries) (bar : Bar) : Closed :=
  let (slope, slopeValue) := s.slope.sample st.cvd
  let (velocity, vel) := s.velocity.onBarDuration bar.durationS
  let stacked := detectStackedImbalance bar.footprint st.fpBin cfg.footprintImbalanceRatio
    cfg.footprintStackedMinLevels
  let event (kind : EventKind) (side : Option Side) : EventRow :=
    { tsNs := bar.endTsNs, securityId := st.sid, symbol := st.symbol, kind, side, notional := none,
      price := bar.close, size := none }
  { series := { s with slope, velocity, ofiBase := st.book.ofiRunning },
    row := some
      { securityId := st.sid, symbol := st.symbol, bar, cvdRunning := st.cvd,
        cvdSlope := slopeValue, ofi := st.book.ofiRunning - s.ofiBase,
        queueImbalance := st.book.imbalance cfg.depthImbalanceLevels, velocity := vel },
    events :=
      stacked.map (fun si =>
        event (.stackedImbalance si.levels si.priceLow si.priceHigh) (some si.side)) ++
      if vel.spike then [event (.velocitySpike bar.barType vel.ratio vel.baselineS) none] else [] }

def settle (st : InstrumentState) (s : BarSeries) (r : BarBuilder × Option Bar) : Closed :=
  match r.2 with
  | none => { series := { s with builder := r.1 }, row := none, events := [] }
  | some bar => closeBar cfg st { s with builder := r.1 } bar

end InstrumentState

structure Update where
  st : InstrumentState
  bars : List BarRow := []
  events : List EventRow := []

namespace InstrumentState

def advance (st : InstrumentState) (answer : BarBuilder → BarBuilder × Option Bar) : Update :=
  let closed := st.series.map fun s => st.settle cfg s (answer s.builder)
  { st := { st with
      series := closed.map (·.series)
      bars := st.bars + (closed.filterMap (·.row)).length },
    bars := closed.filterMap (·.row), events := closed.flatMap (·.events) }

def onTrade (st : InstrumentState) (trade : Trade) : Update :=
  let (bigprint, prints) := st.bigprint.onTrade trade
  let st := { st with cvd := st.cvd + trade.side.sign * trade.size, bigprint }
  let u := st.advance cfg fun b => b.onTrade trade
  { u with events := prints.map st.bigprintRow ++ u.events }

def onTick (st : InstrumentState) (row : TickPacket) : Update :=
  let (extractor, trade) := st.extractor.onTick row
  let st := { st with extractor }
  match trade with
  | none => { st }
  | some trade => st.onTrade cfg trade

def onDepth (st : InstrumentState) (row : DepthPacket) (ts : ℤ) : Update :=
  { st := { st with book := st.book.onDepth cfg row ts } }

def flush (st : InstrumentState) : Update := st.advance cfg BarBuilder.flush

end InstrumentState

structure TapeEngine where
  state : List InstrumentState := []
  barRows : List BarRow := []
  eventRows : List EventRow := []

inductive Input where
  | packet (row : TickPacket)
  | depth (row : DepthPacket) (ts : ℤ)
  | event

namespace TapeEngine

variable (symOf : ℤ → String)

variable (t : TapeEngine)

def lookup (sid : ℤ) : Option InstrumentState :=
  t.state.find? fun st => st.sid = sid

def instrument (sid : ℤ) : InstrumentState :=
  (t.lookup sid).getD (newInstrument cfg sid (symOf sid))

def store : List InstrumentState → InstrumentState → List InstrumentState
  | [], st => [st]
  | x :: xs, st => if x.sid = st.sid then st :: xs else x :: store xs st

def apply (u : Update) : TapeEngine :=
  { state := store t.state u.st, barRows := t.barRows ++ u.bars,
    eventRows := t.eventRows ++ u.events }

def onPacket (t : TapeEngine) (row : TickPacket) : TapeEngine :=
  match row.isTick, row.securityId with
  | true, some sid => t.apply ((t.instrument cfg symOf sid).onTick cfg row)
  | _, _ => t

def onDepth (t : TapeEngine) (row : DepthPacket) (ts : ℤ) : TapeEngine :=
  match row.securityId with
  | none => t
  | some sid => t.apply ((t.instrument cfg symOf sid).onDepth cfg row ts)

def step (t : TapeEngine) : Input → TapeEngine
  | .packet row => t.onPacket cfg symOf row
  | .depth row ts => t.onDepth cfg symOf row ts
  | .event => t

def run (inputs : List Input) : TapeEngine := inputs.foldl (step cfg symOf) {}

def finalize : TapeEngine :=
  t.state.foldl (fun t st => t.apply (st.flush cfg)) t

end TapeEngine

end Engine

end TradingBridge.Orderflow.Tape
