import TradingBridge.StrategyExecutor

/-!
# The exit rule

`attribute`, here `attributeTrip`, prices a closed position from what the whole account did on its
contract. A book that was not flat before the entry is only priced where the bot's own exits add up
to the bot's own entry.
-/

namespace TradingBridge

/-- An exchange time, ordered as its text: the day, then the time of day. -/
structure ExchangeTime where
  day : Nat
  time : Nat
  deriving DecidableEq

/-- One fill of the account on one contract; the reader keeps only positive quantities. -/
structure AccountFill where
  contract : String
  orderId : String
  side : OrderSide
  qty : Int
  price : ℚ
  ts : ExchangeTime
  tradeId : String
  orderPlatform : Option String
  charges : Option ℚ
  qty_pos : 0 < qty
  deriving DecidableEq

inductive Provenance
  | bot
  | manual
  | unknown
  deriving DecidableEq

inductive AttributionTag
  | botOnly
  | accountFlat
  | humanInterfered
  | unpriceable
  | paperSim
  | operatorEstimate
  | unidentifiedFill
  deriving DecidableEq

inductive AttributionReason
  | noEntryFill
  | entrySpansContracts
  | selfClosed (entryQty priorNet : Int)
  | priorLots (net : Int) (entry : AccountFill) (sinceFlat : List AccountFill)
  | entryNotOneSided
  | entryInterleaved (net expected : Int)
  | exposureIncreased (fill : AccountFill) (before after : Int)
  | crossedZero (fill : AccountFill) (before after : Int)
  | neverFlat (net : Int)
  | unidentified (fills : List AccountFill)
  | manualFill (fills : List AccountFill)
  | closedByBot
  deriving DecidableEq

structure Attribution where
  tag : AttributionTag
  entryFills : List AccountFill
  exitFills : List AccountFill
  grossPnl : Option ℚ
  reason : AttributionReason

namespace AccountFill

def signedQty (f : AccountFill) : Int :=
  match f.side with
  | .buy => f.qty
  | .sell => -f.qty

/-- A ledger's claim beats the platform, and only `FAST` makes a fill manual. -/
def provenance (botOrderIds : List String) (f : AccountFill) : Provenance :=
  if f.orderId ∈ botOrderIds then .bot
  else if (strip (f.orderPlatform.getD "")).toUpper = "FAST" then .manual
  else .unknown

def key (f : AccountFill) : (Nat ×ₗ Nat) ×ₗ (String ×ₗ String) :=
  toLex (toLex (f.ts.day, f.ts.time), toLex (f.orderId, f.tradeId))

end AccountFill

namespace Attribution

variable (a : Attribution)

def priced : Bool := a.tag = .botOnly || a.tag = .accountFlat

def entryQty : Int := (a.entryFills.map (·.qty)).sum

def billedCharges : Option ℚ :=
  go [] (a.entryFills ++ a.exitFills)
where
  go (seen : List (String × String)) : List AccountFill → Option ℚ
    | [] => some 0
    | f :: fs => f.charges.bind fun c =>
      if (f.orderId, f.tradeId) ∈ seen then go seen fs
      else (go ((f.orderId, f.tradeId) :: seen) fs).map (c + ·)

end Attribution

variable (fills : List AccountFill)

def turnover : ℚ := (fills.map fun f => f.price * (f.qty : ℚ)).sum

def net : Int := (fills.map (·.signedQty)).sum

def sortFills : List AccountFill :=
  fills.insertionSort fun a b => a.key ≤ b.key

/-- The bot's own exits that close exactly its quantity; `got` is closed so far. -/
def botSelfClosingExits (botIds : List String) (sign entryQty : Int) :
    Int → List AccountFill → Option (List AccountFill)
  | _, [] => none
  | got, f :: fs =>
    if 0 < f.signedQty * sign then none
    else if f.orderId ∉ botIds then none
    else if got + f.qty = entryQty then some [f]
    else if entryQty < got + f.qty then none
    else (botSelfClosingExits botIds sign entryQty (got + f.qty) fs).map (f :: ·)

def walkToFlat (sign : Int) : Int → List AccountFill → List AccountFill × Option AttributionReason
  | before, [] => ([], some (.neverFlat before))
  | before, f :: fs =>
    let after := before + f.signedQty
    if 0 < f.signedQty * sign then ([], some (.exposureIncreased f before after))
    else if after * sign < 0 then ([], some (.crossedZero f before after))
    else if after = 0 then ([f], none)
    else (f :: (walkToFlat sign after fs).1, (walkToFlat sign after fs).2)

def sinceFlat (before : Int) (since : List AccountFill) : List AccountFill → List AccountFill
  | [] => since
  | f :: fs => sinceFlat (before + f.signedQty) (if before = 0 then [f] else since ++ [f]) fs

section Cut

variable (entryIds : List String)

def isEntry (f : AccountFill) : Bool := f.orderId ∈ entryIds

variable (fills : List AccountFill)

def beforeEntry : List AccountFill :=
  fills.takeWhile (!isEntry entryIds ·)

def entrySpan : List AccountFill :=
  (fills.dropWhile (!isEntry entryIds ·)).rdropWhile (!isEntry entryIds ·)

def afterEntry : List AccountFill :=
  (fills.dropWhile (!isEntry entryIds ·)).rtakeWhile (!isEntry entryIds ·)

end Cut

def signOf : OrderSide → Int
  | .buy => 1
  | .sell => -1

def grossOf (sign : Int) (entries exits : List AccountFill) : ℚ :=
  if 0 < sign then turnover exits - turnover entries else turnover entries - turnover exits

def attributeOverLots (entries : List AccountFill) (entry : AccountFill)
    (prior after : List AccountFill) (botIds : List String) : Attribution :=
  let sign := signOf entry.side
  let entryQty := (entries.map (·.qty)).sum
  let refused : Attribution :=
    ⟨.humanInterfered, entries, [], none, .priorLots (net prior) entry (sinceFlat 0 [] prior)⟩
  if entries.all fun f => 0 < f.signedQty * sign then
    match botSelfClosingExits botIds sign entryQty 0 after with
    | some exits =>
      ⟨.botOnly, entries, exits, some (grossOf sign entries exits),
        .selfClosed entryQty (net prior)⟩
    | none => refused
  else refused

def attributeWalk (sign : Int) (entries exits : List AccountFill) (botIds : List String) :
    Attribution :=
  let unknown := exits.filter fun f => f.provenance botIds = .unknown
  let manual := exits.filter fun f => f.provenance botIds = .manual
  -- A fill nobody can name comes before a manual one.
  if unknown ≠ [] then ⟨.unidentifiedFill, entries, exits, none, .unidentified unknown⟩
  else if manual ≠ [] then ⟨.humanInterfered, entries, exits, none, .manualFill manual⟩
  else ⟨.botOnly, entries, exits, some (grossOf sign entries exits), .closedByBot⟩

def attributeFlat (entries : List AccountFill) (entry : AccountFill)
    (span after : List AccountFill) (botIds : List String) : Attribution :=
  let sign := signOf entry.side
  let entryQty := (entries.map (·.qty)).sum
  if entries.any fun f => f.signedQty * sign ≤ 0 then
    ⟨.humanInterfered, entries, [], none, .entryNotOneSided⟩
  else if net span ≠ sign * entryQty then
    ⟨.humanInterfered, entries, [], none, .entryInterleaved (net span) (sign * entryQty)⟩
  else
    match walkToFlat sign (net span) after with
    | (exits, some reason) => ⟨.humanInterfered, entries, exits, none, reason⟩
    | (exits, none) => attributeWalk sign entries exits botIds

def attributeTrip (entryOrderIds : List String) (accountFills : List AccountFill)
    (botOrderIds : List String) : Attribution :=
  let book := sortFills accountFills
  match book.filter (isEntry entryOrderIds) with
  | [] => ⟨.unpriceable, [], [], none, .noEntryFill⟩
  | entry :: rest =>
    if rest.any (·.contract ≠ entry.contract) then
      ⟨.humanInterfered, [], [], none, .entrySpansContracts⟩
    else
      let fills := book.filter (·.contract = entry.contract)
      let prior := beforeEntry entryOrderIds fills
      let after := afterEntry entryOrderIds fills
      if net prior ≠ 0 then attributeOverLots (entry :: rest) entry prior after botOrderIds
      else attributeFlat (entry :: rest) entry (entrySpan entryOrderIds fills) after botOrderIds

/-- `attributeFlat` with its assertion that a flat walk closed what was entered; `none` fails it. -/
def attributeFlatAsserted (entries : List AccountFill) (entry : AccountFill)
    (span after : List AccountFill) (botIds : List String) : Option Attribution :=
  let sign := signOf entry.side
  let entryQty := (entries.map (·.qty)).sum
  if entries.any fun f => f.signedQty * sign ≤ 0 then
    some ⟨.humanInterfered, entries, [], none, .entryNotOneSided⟩
  else if net span ≠ sign * entryQty then
    some ⟨.humanInterfered, entries, [], none, .entryInterleaved (net span) (sign * entryQty)⟩
  else
    match walkToFlat sign (net span) after with
    | (exits, some reason) => some ⟨.humanInterfered, entries, exits, none, reason⟩
    | (exits, none) =>
      if (exits.map (·.qty)).sum = entryQty then some (attributeWalk sign entries exits botIds)
      else none

def attributeTripAsserted (entryOrderIds : List String) (accountFills : List AccountFill)
    (botOrderIds : List String) : Option Attribution :=
  let book := sortFills accountFills
  match book.filter (isEntry entryOrderIds) with
  | [] => some ⟨.unpriceable, [], [], none, .noEntryFill⟩
  | entry :: rest =>
    if rest.any (·.contract ≠ entry.contract) then
      some ⟨.humanInterfered, [], [], none, .entrySpansContracts⟩
    else
      let fills := book.filter (·.contract = entry.contract)
      let prior := beforeEntry entryOrderIds fills
      let after := afterEntry entryOrderIds fills
      if net prior ≠ 0 then
        some (attributeOverLots (entry :: rest) entry prior after botOrderIds)
      else attributeFlatAsserted (entry :: rest) entry (entrySpan entryOrderIds fills) after
        botOrderIds

end TradingBridge
