import Mathlib

/-!
# The research harness

`research/walkforward.py` and `research/window_builder.py`. The evaluator is any function; so is the
shuffle, which `random` draws. A builder without a process function is one that never raises.
-/

namespace TradingBridge.Orderflow.Research

structure Trade where
  day : String
  entryNs : ℤ
  exitNs : ℤ
  r : ℚ
  deriving DecidableEq

def Trade.key (t : Trade) : String × ℤ := (t.day, t.entryNs)

structure Sweep where
  days : List String
  evaluator : ℚ → List String → List Trade
  values : List ℚ

namespace Sweep

variable (s : Sweep)

def produced : List Trade := s.values.flatMap fun v => s.evaluator v s.days

def setDefault (seen : List Trade) (t : Trade) : List Trade :=
  if t.key ∈ seen.map Trade.key then seen else seen ++ [t]

def tradeUniverse : List Trade := s.produced.foldl setDefault []

def pooled : List Trade :=
  s.tradeUniverse.insertionSort fun t u => t.day < u.day ∨ t.day = u.day ∧ t.entryNs ≤ u.entryNs

def pool : List ℚ := s.pooled.map Trade.r

def rmap (perm : List ℚ) : List ((String × ℤ) × ℚ) := (s.pooled.map Trade.key).zip perm

/-- `null_eval`; a key that is not in the map raises. -/
def nullEval (perm : List ℚ) (v : ℚ) (ds : List String) : Option (List Trade) :=
  (s.evaluator v ds).mapM fun t => ((s.rmap perm).lookup t.key).map fun r => { t with r }

end Sweep

structure Raised where
  name : String
  message : String

inductive Status where
  | ok
  | emptyOk
  | degraded
  | failed
  deriving DecidableEq

def Status.ready : Status → Bool
  | .ok | .emptyOk => true
  | _ => false

inductive Source where
  | localData
  | restored

structure LocalProbe where
  present : Bool
  complete : Bool
  reason : String := ""

structure AssessResult where
  candidates : Option ℤ
  note : String := ""

structure RestoreResult where
  ok : Bool
  refused : String := ""
  reason : String := ""

structure DayEntry where
  day : String
  source : Source
  root : Option String
  status : Status
  candidates : Option ℤ
  note : String

structure Seams where
  probe : Except Raised LocalProbe
  restore : Except Raised RestoreResult
  assess : Except Raised AssessResult
  process : Except Raised Unit
  cleanup : Except Raised Unit

/-- A restore with whether it put the day on disk, a cleanup with whether it took it off. -/
inductive Call where
  | restore (day : String) (restored : Bool)
  | cleanup (day : String) (done : Bool)

/-- Python's `or` of two texts. -/
def orText (a b : String) : String := if a = "" then b else a

def AssessResult.classify (a : AssessResult) : Status × Option ℤ × String :=
  match a.candidates with
  | none => (.degraded, none, orText a.note "candidates un-assessable")
  | some n =>
    if n = 0 then (.emptyOk, some 0, orText a.note "replay ran, 0 candidates")
    else (.ok, some n, a.note)

def Seams.assessed (b : Seams) : Except Raised (Status × Option ℤ × String) := do
  let a ← b.assess
  b.process
  pure a.classify

def cleanedNote (note : String) : String :=
  (if note = "" then "" else note ++ "; ") ++
    "restored+assessed then cleaned (re-restore to evaluate)"

/-- The calls of `_build_one` that touch the disk, and its entry. -/
def buildOne (dataRoot restoreRoot day : String) (b : Seams) :
    List Call × Except Raised DayEntry :=
  match b.probe with
  | .error e => ([], .error e)
  | .ok p =>
    if p.present ∧ p.complete then
      ([], b.assessed.map fun (status, cand, note) =>
        ⟨day, .localData, some dataRoot, status, cand, orText note p.reason⟩)
    else if p.present then
      ([], .ok ⟨day, .localData, some dataRoot, .degraded, none, p.reason⟩)
    else match b.restore with
      | .error e => ([.restore day false], .ok ⟨day, .restored, none, .failed, none,
        "restore raised: " ++ e.name ++ ": " ++ e.message⟩)
      | .ok r =>
        if r.ok then
          ([.restore day true, .cleanup day b.cleanup.isOk],
            b.assessed.map fun (status, cand, note) =>
              ⟨day, .restored, some restoreRoot, status, cand, cleanedNote note⟩)
        else ([.restore day false], .ok ⟨day, .restored, none, .failed, none,
          orText r.refused (orText r.reason "restore did not complete")⟩)

def buildEntries (dataRoot restoreRoot : String) :
    List (String × Seams) → List Call × Except Raised (List DayEntry)
  | [] => ([], .ok [])
  | (day, b) :: days =>
    match buildOne dataRoot restoreRoot day b with
    | (calls, .error e) => (calls, .error e)
    | (calls, .ok entry) =>
      let (more, entries) := buildEntries dataRoot restoreRoot days
      (calls ++ more, entries.map (entry :: ·))

structure Manifest where
  days : List DayEntry
  ready : List String
  excluded : List (String × Status × String)

def manifest (entries : List DayEntry) : Manifest where
  days := entries
  ready := (entries.filter (·.status.ready)).map DayEntry.day
  excluded := (entries.filter (!·.status.ready)).map fun e => (e.day, e.status, e.note)

/-- The list is refused if it is empty or has a blank day. -/
def buildWindow (dataRoot restoreRoot : String) (days : List (String × Seams)) :
    List Call × Except Raised Manifest :=
  if days = [] ∨ ∃ d ∈ days, d.1.toList.all Char.isWhitespace then
    ([], .error ⟨"ValueError", "window_builder REFUSES to run without an explicit frozen day-list "
      ++ "(it never enumerates or guesses days)"⟩)
  else
    let (calls, entries) := buildEntries dataRoot restoreRoot days
    (calls, entries.map manifest)

end TradingBridge.Orderflow.Research
