import TradingBridge.Lib.Run
import TradingBridge.ScoreGate

/-!
# Which definition the scores are of

An edit keeps the scores of the definition it replaces, and a backtest that read the old one may
write its scores after it. Where the definition changes only when the scores are too old to pass
and no backtest is under way, the gate judges the stored definition at every moment of a run.
-/

namespace TradingBridge.ScoreGate

open Effectful

variable {J : Type} {valid : J → Bool} {g g' : Gate J} {l : Label J}

/-- The scores could pass the gate's test of their age. -/
def Gate.Fresh (g : Gate J) : Prop := ∃ snap, inspectCachedScores g.row g.now = .fresh snap

theorem fresh_iff : g.Fresh ↔ g.row.lastTrustScore.isSome ∧ g.row.lastTruthScore.isSome
    ∧ ∃ t, g.row.lastScoresAt = some t ∧ g.now ≤ t + scoresTtl := by
  unfold Gate.Fresh inspectCachedScores
  cases g.row.lastTrustScore with
  | none => simp
  | some trust =>
    cases g.row.lastTruthScore with
    | none => simp
    | some truth =>
      cases g.row.lastScoresAt with
      | none => simp
      | some computedAt =>
        by_cases hold : computedAt + scoresTtl < g.now
        · simp [hold]
        · simp [hold, Nat.le_of_not_lt hold]

theorem fresh_of_passed (name title tooLow : String) (score : StrategyScoresSnapshot → ℚ)
    (least : ℕ) {cached : CachedScores}
    (h : (scoreResult name title score least tooLow cached).passed = true) :
    ∃ snap, cached = .fresh snap := by
  cases cached with
  | fresh snap => exact ⟨snap, rfl⟩
  | missing => cases h
  | stale => cases h

/-- The scores, if they are fresh, and the backtests under way are of the definition. -/
structure Judges (g : Gate J) (strategyJson : Option J) : Prop where
  scores : g.Fresh → g.scoredJson = strategyJson
  backtests : ∀ b ∈ g.backtests, strategyJson = some b

/-- The definition that a step stores. -/
def Label.edits (g : Gate J) : Label J → Option J
  | .updateStrategy strategyJson _ => some strategyJson
  | .rollbackStrategyVersion versionNumber =>
    if versionNumber = 0 then none else g.versions[versionNumber - 1]?
  | _ => none

/-- Stored only if the scores that could pass and the backtests under way are of it. -/
def EditsJudged (g : Gate J) (l : Label J) : Prop :=
  ∀ strategyJson, l.edits g = some strategyJson → Judges g (some strategyJson)

theorem judges_setJson {strategyJson : J} {versions : List J} (h : Judges g (some strategyJson)) :
    Judges { g.setJson strategyJson with versions := versions } (some strategyJson) :=
  ⟨fun hfresh => h.scores (fresh_iff.2 (fresh_iff.1 hfresh)), h.backtests⟩

theorem judges_next (h : Judges g g.row.strategyJson) (hok : EditsJudged g l)
    (hnext : next valid g l = some g') : Judges g' g'.row.strategyJson := by
  cases l with
  | updateStrategy strategyJson versionKept =>
    obtain rfl := Option.some.inj hnext
    exact judges_setJson (hok strategyJson rfl)
  | rollbackStrategyVersion versionNumber =>
    simp only [next] at hnext
    split_ifs at hnext with hzero
    · obtain rfl := Option.some.inj hnext
      exact h
    · cases htarget : g.versions[versionNumber - 1]? with
      | none =>
        rw [htarget] at hnext
        obtain rfl := Option.some.inj hnext
        exact h
      | some target =>
        rw [htarget] at hnext
        obtain rfl := Option.some.inj hnext
        exact judges_setJson (hok target (by rw [Label.edits, if_neg hzero, htarget]))
  | startBacktest =>
    simp only [next] at hnext
    cases hjson : g.row.strategyJson with
    | none =>
      rw [hjson] at hnext
      obtain rfl := Option.some.inj hnext
      exact h
    | some strategyJson =>
      rw [hjson] at hnext
      simp only [] at hnext
      split_ifs at hnext
      · obtain rfl := Option.some.inj hnext
        refine ⟨h.scores, fun b hb => ?_⟩
        rcases mem_concat.1 hb with hb | rfl
        · exact h.backtests b hb
        · exact hjson
      · obtain rfl := Option.some.inj hnext
        exact h
  | finishBacktest backtest outcome =>
    simp only [next, Option.map_eq_some_iff] at hnext
    obtain ⟨strategyJson, hmem, rfl⟩ := hnext
    have hread := h.backtests strategyJson (List.mem_of_getElem? hmem)
    have herase : ∀ b ∈ g.backtests.eraseIdx backtest, g.row.strategyJson = some b :=
      fun b hb => h.backtests b (List.mem_of_mem_eraseIdx hb)
    split
    · split_ifs
      · exact ⟨fun _ => hread.symm, herase⟩
      · exact ⟨h.scores, herase⟩
    · exact ⟨h.scores, herase⟩
  | abandonBacktest backtest =>
    obtain rfl := Option.some.inj hnext
    exact ⟨h.scores, fun b hb => h.backtests b (List.mem_of_mem_eraseIdx hb)⟩
  | wait seconds =>
    obtain rfl := Option.some.inj hnext
    refine ⟨fun hfresh => ?_, h.backtests⟩
    obtain ⟨htrust, htruth, computedAt, hat, hle⟩ := fresh_iff.1 hfresh
    have hle : g.now + seconds ≤ computedAt + scoresTtl := hle
    exact h.scores (fresh_iff.2 ⟨htrust, htruth, computedAt, hat, by omega⟩)

/-- Where definitions are stored only with no scores or backtests of another about, a passed check
means scores of the stored definition, in every state of a run. -/
theorem passed_scores_of_stored {J : Type} (valid : J → Bool) (strategyJson : Option J)
    (versions : List J) (ls : List (Label J)) (g : Gate J)
    (hrun : Run (next valid) EditsJudged (Gate.start strategyJson versions) ls g)
    (hpassed : (checkTrustScore g.row g.now).passed = true
      ∨ (checkTruthScore g.row g.now).passed = true) :
    g.scoredJson = g.row.strategyJson := by
  have hstart : Judges (Gate.start strategyJson versions) strategyJson := by
    refine ⟨?_, nofun⟩
    rintro ⟨snap, h⟩
    cases h
  have hjudges : Judges g g.row.strategyJson :=
    hrun.invariant (fun _ _ _ => judges_next) hstart
  refine hjudges.scores ?_
  rcases hpassed with h | h
  · exact fresh_of_passed _ _ _ _ _ h
  · exact fresh_of_passed _ _ _ _ _ h

/-- A backtest of the definition 1 with good scores. -/
def scoredRun : List (Label ℕ) :=
  [.startBacktest, .finishBacktest 0 ⟨some (90, 80), true⟩]

/-- An edit right after it: the new definition passes on the scores of the old one. -/
theorem edited_strategy_passes : ∃ g,
    Run (next fun _ => true) (fun _ _ => True) (Gate.start (some 1) [1])
      (scoredRun ++ [.updateStrategy 2 true]) g
    ∧ (checkTrustScore g.row g.now).passed = true ∧ (checkTruthScore g.row g.now).passed = true
    ∧ g.row.strategyJson = some 2 ∧ g.scoredJson = some 1 := by
  decide +kernel

/-- The scored definition itself passes. -/
theorem passed_scores_of_stored_unedited : ∃ g,
    Run (next fun _ => true) EditsJudged (Gate.start (some 1) [1]) scoredRun g
    ∧ (checkTrustScore g.row g.now).passed = true ∧ g.scoredJson = g.row.strategyJson := by
  have hok : ∀ (g : Gate ℕ) l, (Label.edits g l).isNone = true → EditsJudged g l := by
    intro g l hl j hj
    rw [hj] at hl
    cases hl
  have hexec : ((exec
      (fun g l => if (Label.edits g l).isNone then next (fun _ => true) g l else none)
      (Gate.start (some 1) [1]) scoredRun).any fun g =>
        (checkTrustScore g.row g.now).passed) = true := by
    decide +kernel
  obtain ⟨g, hrun, hg⟩ := exists_run_of_exec_checked _ hok hexec
  exact ⟨g, hrun, hg, passed_scores_of_stored _ _ _ _ g hrun (Or.inl hg)⟩

end TradingBridge.ScoreGate
