import Mathlib

/-!
# Price levels

`levels/historical.py`. A date is its ordinal, an instant the minutes since midnight of day 0; the
responses and their cache are left out.
-/

namespace TradingBridge.Orderflow.Levels

def maxIntradayDays : ℕ := 90

def maxDailyDays : ℕ := 365 * 5

def minutesPerDay : ℕ := 1440

/-- The loop of `_chunks` from `cur`, at most `fuel` times. -/
def chunksFrom (maxDays upto : ℕ) : ℕ → ℕ → List (ℕ × ℕ)
  | 0, _ => []
  | fuel + 1, cur =>
    if cur ≤ upto then
      let last := min (cur + (maxDays - 1)) upto
      (cur, last) :: chunksFrom maxDays upto fuel (last + 1)
    else []

def chunks (frm upto maxDays : ℕ) : List (ℕ × ℕ) := chunksFrom maxDays upto (upto + 1 - frm) frm

/-- What `strftime` writes: a date, or with `%H:%M:%S` the date's midnight. -/
inductive Stamp where
  | date (day : ℕ)
  | instant (minute : ℕ)

def strftime (daily : Bool) (day : ℕ) : Stamp :=
  if daily then .date day else .instant (day * minutesPerDay)

structure Window where
  fromDate : Stamp
  toDate : Stamp

def maxDaysOf (timeframe : String) : ℕ :=
  if timeframe = "1d" then maxDailyDays else maxIntradayDays

/-- The windows `fetch` asks for with an empty cache. -/
def requestWindows (frm upto : ℕ) (timeframe : String) : List Window :=
  (chunks frm upto (maxDaysOf timeframe)).map fun c =>
    ⟨strftime (timeframe = "1d") c.1, strftime (timeframe = "1d") c.2⟩

end TradingBridge.Orderflow.Levels
