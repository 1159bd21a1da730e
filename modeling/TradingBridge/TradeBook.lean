import TradingBridge.Attribution

/-!
# The trade book's rows

A row of today's page is known by its trade id; the rows of the history all carry the trade id `0`
and are known by their own values.
-/

namespace TradingBridge

inductive ChargeField
  | absent
  | null
  | amount (x : ℚ)
  | unreadable
  deriving DecidableEq

/-- A price is its text and what it reads as; a quantity is `none` where it does not read as a
number; an empty text counts as missing. -/
structure TradeRow where
  tradingSymbol : Option String := none
  customSymbol : Option String := none
  drvOptionType : Option String := none
  exchangeSegment : Option String := none
  tradedPrice : Option (String × ℚ)
  tradedQuantity : Option Int
  orderId : Option String
  exchangeTime : Option ExchangeTime
  transactionType : Option String
  securityId : Option String := none
  exchangeTradeId : Option String := none
  brokerageCharges : ChargeField := .absent
  stt : ChargeField := .absent
  exchangeTransactionCharges : ChargeField := .absent
  sebiTax : ChargeField := .absent
  stampDuty : ChargeField := .absent
  serviceTax : ChargeField := .absent

def textOr (x : Option String) (y : String) : String := (x.filter (· ≠ "")).getD y

namespace TradeRow

variable (row : TradeRow)

def symbol : String := strip (textOr row.tradingSymbol (textOr row.customSymbol ""))

def optionSuffixes : List String := ["CE", "PE", "CALL", "PUT"]

def lastPart (sep : Char → Bool) (text : String) : String :=
  String.ofList (text.toList.rtakeWhile fun c => !sep c)

def isFuturesRow : Bool :=
  let sym := row.symbol.toUpper
  let segment := textOr row.exchangeSegment ""
  if ¬ "FUT".toList <:+ sym.toList then false
  else if lastPart (· == '-') sym ∈ optionSuffixes ∨ lastPart Char.isWhitespace sym ∈ optionSuffixes
  then false
  else if (textOr row.drvOptionType "NA").toUpper ∈ optionSuffixes then false
  else "FNO".toList <:+: segment.toUpper.toList ∨ segment = ""

def chargeFields : List ChargeField :=
  [row.brokerageCharges, row.stt, row.exchangeTransactionCharges, row.sebiTax, row.stampDuty,
    row.serviceTax]

def sumCharges : List ChargeField → Option ℚ
  | [] => some 0
  | .absent :: fields => sumCharges fields
  | .null :: fields => sumCharges fields
  | .amount x :: fields => (sumCharges fields).map (x + ·)
  | .unreadable :: _ => none

def billedCharges : Option ℚ :=
  if row.chargeFields.all (· = .absent) then none else sumCharges row.chargeFields

def side : Option OrderSide :=
  let text := (strip (textOr row.transactionType "")).toUpper
  if text = "BUY" then some .buy else if text = "SELL" then some .sell else none

def accountFill : Option AccountFill :=
  if row.isFuturesRow then
    match row.tradedPrice, row.tradedQuantity, row.exchangeTime, row.side with
    | some (_, price), some qty, some ts, some side =>
      let orderId := strip (textOr row.orderId "")
      if h : 0 < qty then
        if 0 < price ∧ orderId ≠ "" then
          some
            { contract := strip (textOr row.securityId row.symbol), orderId, side, qty, price, ts,
              tradeId := textOr row.exchangeTradeId "", orderPlatform := none,
              charges := row.billedCharges, qty_pos := h }
        else none
      else none
    | _, _, _, _ => none
  else none

inductive Key
  | id (orderId tradeId : String)
  | row (orderId : String) (ts : ExchangeTime) (side : OrderSide) (qty : Int) (price : String)
  deriving DecidableEq

def key (fill : AccountFill) : Key :=
  if fill.tradeId ∉ ["", "0", "None"] then .id fill.orderId fill.tradeId
  else .row fill.orderId fill.ts fill.side fill.qty ((row.tradedPrice.map (·.1)).getD "")

end TradeRow

def dedupRows (seen : List TradeRow.Key) : List TradeRow → List AccountFill
  | [] => []
  | row :: rows =>
    match row.accountFill with
    | none => dedupRows seen rows
    | some fill =>
      if row.key fill ∈ seen then dedupRows seen rows
      else fill :: dedupRows (row.key fill :: seen) rows

def accountFillsFromRows (rows : List TradeRow) : List AccountFill := sortFills (dedupRows [] rows)

end TradingBridge
