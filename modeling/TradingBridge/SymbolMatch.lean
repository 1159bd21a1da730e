import TradingBridge.StrategyExecutor

/-!
# Symbols and the contracts they spell

`normalizeSymbol` reads a symbol as a contract identity, or as nothing where it is not sure. Each
`match…` is one of the regular expressions.
-/

namespace TradingBridge.SymbolMatch

inductive Kind
  | fut
  | ce
  | pe
  | eq
  deriving DecidableEq

structure NormalizedSymbol where
  root : List Char
  kind : Kind
  year : Option ℕ
  month : Option ℕ
  day : Option ℕ
  strike : Option (List Char)
  deriving DecidableEq

def months : List (List Char) :=
  ["JAN", "FEB", "MAR", "APR", "MAY", "JUN", "JUL", "AUG", "SEP", "OCT", "NOV", "DEC"].map
    String.toList

def monthOf (mon : List Char) : Option ℕ := (months.idxOf? mon).map (· + 1)

def isRoot : List Char → Bool
  | [] => false
  | c :: cs => c.isUpper && cs.all fun c => c.isUpper || c.isDigit

def isNumber (cs : List Char) : Bool := !cs.isEmpty && cs.all Char.isDigit

def number (digits : List Char) : ℕ :=
  digits.foldl (fun n c => 10 * n + (c.toNat - '0'.toNat)) 0

def monthYear : List Char → Option (List Char × List Char)
  | [a, b, c, y₁, y₂, y₃, y₄] =>
    if [a, b, c].all Char.isUpper && [y₁, y₂, y₃, y₄].all Char.isDigit then
      some ([a, b, c], [y₁, y₂, y₃, y₄])
    else none
  | _ => none

def dayMonthYear (cs : List Char) : Option (List Char × List Char × List Char) :=
  let day := cs.takeWhile Char.isDigit
  if day.length = 1 ∨ day.length = 2 then (monthYear (cs.drop day.length)).map (day, ·)
  else none

def isStrike (cs : List Char) : Bool :=
  match cs.splitOn '.' with
  | [whole] => isNumber whole
  | [whole, fraction] => isNumber whole && isNumber fraction
  | _ => false

def normalizeStrike (cs : List Char) : List Char :=
  match cs.splitOn '.' with
  | [whole] => (number whole).repr.toList
  | [whole, fraction] => if fraction.all (· = '0') then (number whole).repr.toList else cs
  | _ => cs

def optionKind : List Char → Option Kind
  | ['C', 'E'] => some .ce
  | ['P', 'E'] => some .pe
  | _ => none

section Expressions

variable (sym : List Char)

def matchCanonicalFut : Option (List Char × List Char × List Char) :=
  match sym.splitOn '-' with
  | [root, my, ['F', 'U', 'T']] => if isRoot root then (monthYear my).map (root, ·) else none
  | _ => none

/-- `^([A-Z][A-Z0-9]*?)(\d{2})([A-Z]{3})FUT$`. What follows the root has a fixed length. -/
def matchCompactFut : Option (List Char × List Char × List Char) :=
  match sym.reverse with
  | 'T' :: 'U' :: 'F' :: c :: b :: a :: y₂ :: y₁ :: root =>
    if isRoot root.reverse && [y₁, y₂].all Char.isDigit && [a, b, c].all Char.isUpper then
      some (root.reverse, [y₁, y₂], [a, b, c])
    else none
  | _ => none

def optionParts : Option (List Char × List Char × List Char × Kind) :=
  match sym.splitOn '-' with
  | [root, expiry, strike, cp] =>
    if isRoot root && isStrike strike then (optionKind cp).map (root, expiry, strike, ·)
    else none
  | _ => none

def matchOption : Option (List Char × List Char × List Char × List Char × List Char × Kind) :=
  (optionParts sym).bind fun (root, expiry, strike, kind) =>
    (dayMonthYear expiry).map fun (day, mon, year) => (root, day, mon, year, strike, kind)

def matchOptionMonthly : Option (List Char × List Char × List Char × List Char × Kind) :=
  (optionParts sym).bind fun (root, expiry, strike, kind) =>
    (monthYear expiry).map fun (mon, year) => (root, mon, year, strike, kind)

/-- What follows a leading `X:` for one of the exchanges. -/
def dropExchange (exchanges : List String) : List Char :=
  let head := sym.takeWhile (· ≠ ':')
  match sym.drop head.length with
  | ':' :: tail => if head ∈ exchanges.map String.toList then tail else sym
  | _ => sym

def matchEquity : Option (List Char) :=
  match (dropExchange sym ["NSE", "BSE", "NFO", "BFO"]).splitOn '-' with
  | [root] => if isRoot root then some root else none
  | [root, ['E', 'Q']] => if isRoot root then some root else none
  | _ => none

def looksDerivative (root : List Char) : Bool :=
  ['F', 'U', 'T'].isSuffixOf root
    || (['C', 'E'].isSuffixOf root || ['P', 'E'].isSuffixOf root) && root.any Char.isDigit

end Expressions

/-- Trimmed, in capitals and without the exchange. -/
def clean (raw : String) : List Char :=
  let sym := (strip raw).toUpper.toList
  let tail := dropExchange sym ["NSE", "BSE", "NFO", "BFO", "MCX", "CDS"]
  if tail = [] then sym else tail

/-- The expressions in their order. A month that is none makes the answer `none` at once. -/
def parse (sym : List Char) : Option NormalizedSymbol :=
  match matchCanonicalFut sym with
  | some (root, mon, year) =>
    (monthOf mon).map fun month => ⟨root, .fut, some (number year), some month, none, none⟩
  | none =>
  match matchCompactFut sym with
  | some (root, yy, mon) =>
    (monthOf mon).map fun month => ⟨root, .fut, some (2000 + number yy), some month, none, none⟩
  | none =>
  match matchOption sym with
  | some (root, day, mon, year, strike, kind) =>
    (monthOf mon).map fun month => ⟨root, kind, some (number year), some month,
      some (number day), some (normalizeStrike strike)⟩
  | none =>
  match matchOptionMonthly sym with
  | some (root, mon, year, strike, kind) =>
    (monthOf mon).map fun month => ⟨root, kind, some (number year), some month, none,
      some (normalizeStrike strike)⟩
  | none =>
  match matchEquity sym with
  | some root => if looksDerivative root then none else some ⟨root, .eq, none, none, none, none⟩
  | none => none

def normalizeSymbol (raw : Option String) : Option NormalizedSymbol :=
  raw.bind fun raw => if clean raw = [] then none else parse (clean raw)

/-- `none` where either side is not understood. -/
def symbolsMatch (stored broker : Option String) : Option Bool :=
  match normalizeSymbol stored, normalizeSymbol broker with
  | some a, some b => some (a = b)
  | _, _ => none

section Rows

variable {R : Type} (symbolOf : R → Option String) (stored : Option String)

def scanRows (sawUnparseable : Bool) : List R → Option R × Bool
  | [] => (none, !sawUnparseable)
  | row :: rows =>
    match symbolsMatch stored (symbolOf row) with
    | some true => (some row, true)
    | some false => scanRows sawUnparseable rows
    | none => scanRows true rows

def findMatchingPosition (rows : List R) : Option R × Bool :=
  scanRows symbolOf stored (normalizeSymbol stored).isNone rows

end Rows

end TradingBridge.SymbolMatch
