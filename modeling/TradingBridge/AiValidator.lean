import TradingBridge.StrategyExecutor

/-!
# The AI validator

`validate_signal`: a weighted score over the indicators of the payload and the lots it reaches.
-/

namespace TradingBridge.AiValidator

inductive Indicator
  | priceSpd | atr | longMa | gaussL | slowMa | gaussS | fastMa | vwapDist | bullGap | squeeze
  | bodyPct | vol | deltaPwr | bearGap | rvol | ofInten | rsi | adx | mfi | stDir | oiBuild | macdh
  deriving DecidableEq

def Indicator.all : List Indicator :=
  [.priceSpd, .atr, .longMa, .gaussL, .slowMa, .gaussS, .fastMa, .vwapDist, .bullGap, .squeeze,
    .bodyPct, .vol, .deltaPwr, .bearGap, .rvol, .ofInten, .rsi, .adx, .mfi, .stDir, .oiBuild,
    .macdh]

inductive Direction
  | long
  | short
  deriving DecidableEq

/-- `LONG_W`, in tenths. -/
def longW : Indicator → ℕ
  | .priceSpd => 135 | .atr => 110 | .longMa => 80 | .gaussL => 77 | .slowMa => 76 | .gaussS => 76
  | .fastMa => 76 | .vwapDist => 57 | .bullGap => 46 | .squeeze => 36 | .bodyPct => 32 | .vol => 16
  | .deltaPwr => 14 | .bearGap => 12 | .rvol => 8 | .ofInten => 5 | .rsi => 2 | .adx => 55
  | .mfi => 35 | .stDir => 30 | .oiBuild => 35 | .macdh => 20

/-- `SHORT_W`, in tenths. -/
def shortW : Indicator → ℕ
  | .priceSpd => 93 | .atr => 87 | .gaussL => 78 | .longMa => 78 | .slowMa => 78 | .gaussS => 78
  | .fastMa => 78 | .bearGap => 46 | .vol => 39 | .squeeze => 39 | .vwapDist => 38 | .rsi => 30
  | .bullGap => 28 | .rvol => 24 | .ofInten => 20 | .deltaPwr => 11 | .bodyPct => 8 | .adx => 55
  | .mfi => 35 | .stDir => 30 | .oiBuild => 35 | .macdh => 20

def Direction.weight : Direction → Indicator → ℕ
  | .long => longW
  | .short => shortW

/-- `AVG_VALUES`, in hundredths. -/
def avgValues : Indicator → ℕ
  | .priceSpd => 472 | .atr => 500 | .longMa => 73649 | .gaussL => 74317 | .slowMa => 74379
  | .gaussS => 74382 | .fastMa => 74445 | .vwapDist => 77 | .bullGap => 17900 | .squeeze => 550
  | .bodyPct => 6420 | .vol => 33266968 | .deltaPwr => 3361 | .bearGap => 10605 | .rvol => 166
  | .ofInten => 160 | .rsi => 5482 | .adx => 2200 | .mfi => 5000 | .stDir | .oiBuild | .macdh => 0

def target (i : Indicator) : ℚ := avgValues i / 100

def longPassed (i : Indicator) (val : ℚ) : Bool :=
  match i with
  | .deltaPwr => 3 < val
  | .adx => 20 ≤ val
  | .mfi => 40 ≤ val ∧ val ≤ 80
  | .stDir | .macdh => 0 < val
  | .oiBuild => 1 ≤ val
  | .priceSpd | .atr | .rvol | .bodyPct | .squeeze | .vwapDist | .rsi => target i * (8 / 10) ≤ val
  | _ => target i * (85 / 100) ≤ |val|

def shortPassed (i : Indicator) (val : ℚ) : Bool :=
  match i with
  | .deltaPwr => val < -3
  | .adx => 20 ≤ val
  | .mfi => 20 ≤ val ∧ val ≤ 60
  | .stDir | .macdh => val < 0
  | .oiBuild => val ≤ -1
  | .rsi => val ≤ target i * (8 / 10)
  | .priceSpd | .atr | .rvol | .bodyPct | .squeeze | .vwapDist => target i * (8 / 10) ≤ |val|
  | _ => target i * (85 / 100) ≤ |val|

def Direction.passed : Direction → Indicator → ℚ → Bool
  | .long => longPassed
  | .short => shortPassed

/-- A field under `float`, which refuses `text`. -/
inductive Field
  | number (x : ℚ)
  | nan
  | text
  deriving DecidableEq

/-- The payload's fields; an absent one is `none`. -/
structure Fields where
  indicators : Indicator → Option Field
  indiaVix : Option Field
  score : Option Field

def asFloat : Option Field → Option ℚ
  | some (.number x) => some x
  | some .nan => none
  | _ => some 0

def passes (side : Direction) (fields : Indicator → Option Field) (i : Indicator) : Bool :=
  (asFloat (fields i)).any (side.passed i)

def computeScore (fields : Indicator → Option Field) (side : Direction) : ℚ :=
  quantize 2 ((Indicator.all.map fun i =>
    (side.weight i / 10 : ℚ) * (if passes side fields i then 1 else 3 / 10)).sum)

def detectRegime (useRegime : Bool) (f : Fields) : ℚ :=
  let adx := asFloat (f.indicators .adx)
  if !useRegime then 1
  else if (asFloat f.indiaVix).any (22 < ·) then 11 / 10
  else if adx.any (25 ≤ ·) then 1
  else if adx.any (· ≤ 15) then 115 / 100
  else 1

def entryQtyMax : Int := 10

def vixOutside (vix : ℚ) : Bool := vix < 115 / 10 ∨ 20 < vix

def vixAdjustQty (qty : Int) (vix : ℚ) : Int :=
  if qty ≤ 0 then 0
  else if vixOutside vix then max 1 (roundHalfEven (qty * (1 / 2)))
  else max 1 qty

def resolveTier (score : ℚ) (side : Direction) (regimeMult : ℚ) : Option Int :=
  match side with
  | .long =>
    if 85 * regimeMult ≤ score then some 4 else if 51 * regimeMult ≤ score then some 2 else none
  | .short => if 51 * regimeMult ≤ score then some 2 else none

def signalSide (signal : StrategySignal) : Option Direction :=
  let action := signal.action.toUpper
  let side := (signal.rawPayload.side.getD "").toLower
  if action = "BUY" then some .long
  else if action = "SELL" then some .short
  else if action = "ENTRY" then
    if side = "long" then some .long else if side = "short" then some .short else none
  else none

def extractPayloadScore (f : Fields) : Option ℚ :=
  match f.score with
  | some (.number x) => if 0 ≤ x ∧ x ≤ 100 then some x else none
  | _ => none

def vixFromIndicators (f : Fields) : ℚ :=
  match f.indiaVix with
  | some (.number v) => if 0 < v then v else 15
  | _ => 15

def tierOf (useRegime : Bool) (signal : StrategySignal) (f : Fields) : Option Int := do
  let side ← signalSide signal
  let score := (extractPayloadScore f).getD (computeScore f.indicators side)
  resolveTier score side (detectRegime useRegime f)

/-- The recommended lots of an approval; `none` is a rejection. -/
def validateSignal (useRegime : Bool) (signal : StrategySignal) (strategy : Strategy)
    (f : Fields) : Option Int :=
  if !strategy.aiValidationEnabled then some (max 0 (min strategy.entryLots entryQtyMax))
  else (tierOf useRegime signal f).map fun baseQty =>
    min (vixAdjustQty baseQty (vixFromIndicators f)) entryQtyMax

end TradingBridge.AiValidator
