import Mathlib

/-!
# The score gate of live orders

Edits and rollbacks replace the definition, and leave the scores. `scoredJson` is on record only:
the definition the stored scores were computed from.
-/

namespace TradingBridge.ScoreGate

section Checks

structure StrategyRow (J : Type) where
  strategyJson : Option J
  lastTrustScore : Option ℚ
  lastTruthScore : Option ℚ
  lastScoresAt : Option ℕ

def scoresTtl : ℕ := 24 * 60 * 60

structure StrategyScoresSnapshot where
  trustScore : ℚ
  truthScore : ℚ
  computedAt : ℕ
  ageHours : ℚ

inductive CachedScores
  | fresh (snapshot : StrategyScoresSnapshot)
  | missing
  | stale

variable {J : Type}

def inspectCachedScores (row : StrategyRow J) (now : ℕ) : CachedScores :=
  match row.lastTrustScore, row.lastTruthScore, row.lastScoresAt with
  | some trust, some truth, some computedAt =>
    if computedAt + scoresTtl < now then .stale
    else .fresh ⟨trust, truth, computedAt, ((now : ℚ) - computedAt) / 3600⟩
  | _, _, _ => .missing

structure SafetyCheckResult where
  checkName : String
  passed : Bool
  reason : String

/-- `int`, which cuts towards zero. -/
def truncate (q : ℚ) : ℤ := if q < 0 then ⌈q⌉ else ⌊q⌋

def scoreResult (name title : String) (score : StrategyScoresSnapshot → ℚ) (least : ℕ)
    (tooLow : String) : CachedScores → SafetyCheckResult
  | .missing => ⟨name, false, "Pehle backtest run karo - " ++ title ++ " chahiye."⟩
  | .stale => ⟨name, false, "Backtest 24h purana hai - dobara run karo."⟩
  | .fresh snap =>
    if score snap < least then
      ⟨name, false, title ++ " " ++ toString (truncate (score snap)) ++ "/100 hai, "
        ++ toString least ++ tooLow⟩
    else ⟨name, true, title ++ " " ++ toString (truncate (score snap)) ++ "/100 — passed."⟩

def minTrustScoreForLive : ℕ := 70

def minTruthScoreForLive : ℕ := 55

def checkTrustScore (row : StrategyRow J) (now : ℕ) : SafetyCheckResult :=
  scoreResult "trust_score" "Trust Score" (·.trustScore) minTrustScoreForLive
    "+ chahiye live ke liye." (inspectCachedScores row now)

def checkTruthScore (row : StrategyRow J) (now : ℕ) : SafetyCheckResult :=
  scoreResult "truth_score" "Truth Score" (·.truthScore) minTruthScoreForLive
    "+ chahiye. Strategy mein fake patterns dikh rahe hain - AI Doctor se theek karo."
    (inspectCachedScores row now)

end Checks

section Runs

/-- A strategy, its versions, the clock, what the backtests under way have read, and what the scores
are of. -/
structure Gate (J : Type) where
  row : StrategyRow J
  versions : List J
  now : ℕ
  backtests : List J
  scoredJson : Option J

variable {J : Type}

def Gate.start (strategyJson : Option J) (versions : List J) : Gate J :=
  ⟨⟨strategyJson, none, none, none⟩, versions, 0, [], none⟩

structure BacktestOutcome where
  scores : Option (ℚ × ℚ)
  dhanHistorical : Bool

inductive Label (J : Type)
  /-- The version snapshot of an edit may fail. -/
  | updateStrategy (strategyJson : J) (versionKept : Bool)
  | rollbackStrategyVersion (versionNumber : ℕ)
  | startBacktest
  | finishBacktest (backtest : ℕ) (outcome : BacktestOutcome)
  | abandonBacktest (backtest : ℕ)
  | wait (seconds : ℕ)

def Gate.setJson (g : Gate J) (strategyJson : J) : Gate J :=
  { g with row := { g.row with strategyJson := some strategyJson } }

variable (valid : J → Bool)

/-- `valid` is the schema check a backtest makes on the stored definition. -/
def next (g : Gate J) : Label J → Option (Gate J)
  | .updateStrategy strategyJson versionKept =>
    let g' := g.setJson strategyJson
    some { g' with versions := if versionKept then g.versions ++ [strategyJson] else g.versions }
  | .rollbackStrategyVersion versionNumber =>
    if versionNumber = 0 then some g
    else
      match g.versions[versionNumber - 1]? with
      | none => some g
      | some target =>
        let g' := g.setJson target
        some { g' with versions := g.versions ++ [target] }
  | .startBacktest =>
    match g.row.strategyJson with
    | none => some g
    | some strategyJson =>
      if valid strategyJson then some { g with backtests := g.backtests ++ [strategyJson] }
      else some g
  | .finishBacktest backtest outcome =>
    (g.backtests[backtest]?).map fun strategyJson =>
      let g' := { g with backtests := g.backtests.eraseIdx backtest }
      match outcome.scores with
      | some (trust, truth) =>
        if outcome.dhanHistorical then
          { g' with
            row := { g.row with
              lastTrustScore := some trust
              lastTruthScore := some truth
              lastScoresAt := some g.now }
            scoredJson := some strategyJson }
        else g'
      | none => g'
  | .abandonBacktest backtest => some { g with backtests := g.backtests.eraseIdx backtest }
  | .wait seconds => some { g with now := g.now + seconds }

end Runs

end TradingBridge.ScoreGate
