import TradingBridge.PaperExecutors
import TradingBridge.Proofs.Specs

/-!
# What the paper exits close

An exit writes the one row it finds. That is a row of the owner's own leg, and the only open one,
exactly if the row found is of the leg and no other open row is (`exit_closes_own_leg_iff`). The
options exit always finds a row of the leg; but entries open a row each, and the cash exit also
finds the rows of subscribers and of other instruments.
-/

namespace TradingBridge

open Effectful List

inductive PaperExecutor
  | options
  | cash
  deriving DecidableEq

namespace PaperExecutor

def exit (cfg : Settings) : PaperExecutor → StrategySignal → Strategy → ActionKind → Nat → PaperRun
  | options => executeOptionsExit cfg
  | cash => executeCashExit cfg

def find : PaperExecutor → StrategyId → Db → Option StrategyPosition
  | options => findOpenOptionPosition
  | cash => findOpenCashPosition

/-- Which symbols name an equity is not in the rows. -/
def trades (isEquity : String → Bool) : PaperExecutor → String → Bool
  | options => isOptionLeg
  | cash => isEquity

/-- A row of the owner's own leg. -/
def Own (e : PaperExecutor) (isEquity : String → Bool) (strategyId : StrategyId)
    (p : StrategyPosition) : Prop :=
  p.strategyId = strategyId ∧ p.subscriptionId = none ∧ e.trades isEquity p.symbol = true

end PaperExecutor

section Close

variable {p : StrategyPosition} {qty : Int} {price : ℚ} {ts : Nat}

theorem paperClose_id : (paperClose p qty price ts).id = p.id := by
  unfold paperClose
  dsimp only
  split_ifs <;> rfl

theorem paperClose_remaining :
    (paperClose p qty price ts).remainingQuantity = p.remainingQuantity - qty := by
  unfold paperClose
  dsimp only
  split_ifs <;> rfl

theorem paperClose_all : (paperClose p p.remainingQuantity price ts).isOpen = false := by
  unfold paperClose
  rw [if_pos (by omega)]
  rfl

theorem mirrorCloseQty_full {signal : StrategySignal} {kind : ActionKind} {remaining : Int}
    (h : kind ≠ .partly) : mirrorCloseQty signal kind remaining = remaining := by
  cases kind with
  | partly => exact absurd rfl h
  | _ => rfl

/-- A close is never lost: it takes at least one off the row, or closes it. -/
theorem paperClose_ne {signal : StrategySignal} {kind : ActionKind} (hopen : p.isOpen = true) :
    paperClose p (mirrorCloseQty signal kind p.remainingQuantity) price ts ≠ p := by
  intro heq
  by_cases hkind : kind = .partly
  · have hqty : 1 ≤ mirrorCloseQty signal kind p.remainingQuantity := by
      rw [hkind]
      exact le_max_left _ _
    have hremaining := congrArg StrategyPosition.remainingQuantity heq
    rw [paperClose_remaining] at hremaining
    omega
  · rw [mirrorCloseQty_full hkind] at heq
    have hclosed : (paperClose p p.remainingQuantity price ts).isOpen = false := paperClose_all
    rw [heq, hopen] at hclosed
    cases hclosed

end Close

section Exit

variable {cfg : Settings} {e : PaperExecutor} {isEquity : String → Bool}
  {signal : StrategySignal} {strategy : Strategy} {kind : ActionKind} {ts : Nat} {d d' : Db}
  {result : LegExecutionResult} {p : StrategyPosition}

theorem PaperExecutor.find_spec {strategyId : StrategyId} (h : e.find strategyId d = some p) :
    p ∈ d.positions ∧ p.strategyId = strategyId ∧ p.isOpen = true := by
  cases e with
  | options =>
    obtain ⟨hmem, hp⟩ := mem_filter.1 (argmax_mem h)
    obtain ⟨hstrategy, hopen, -⟩ := of_decide_eq_true hp
    exact ⟨hmem, hstrategy, hopen⟩
  | cash =>
    obtain ⟨hmem, hp⟩ := mem_filter.1 (argmax_mem h)
    obtain ⟨hstrategy, hopen⟩ := of_decide_eq_true hp
    exact ⟨hmem, hstrategy, hopen⟩

theorem options_find_own {strategyId : StrategyId}
    (h : PaperExecutor.options.find strategyId d = some p) :
    PaperExecutor.options.Own isEquity strategyId p := by
  obtain ⟨-, hp⟩ := mem_filter.1 (argmax_mem h)
  obtain ⟨hstrategy, -, howner, hleg⟩ := of_decide_eq_true hp
  exact ⟨hstrategy, howner, hleg⟩

theorem paperExit_cases {enabled : Bool} {find : StrategyId → Db → Option StrategyPosition}
    (h : paperExit enabled find signal strategy kind ts d = .ok (result, d')) :
    result.status ≠ .executed ∧ d' = d
    ∨ result.status = .executed ∧ ∃ p price, find strategy.id d = some p
      ∧ d' = d.savePosition
        (paperClose p (mirrorCloseQty signal kind p.remainingQuantity) price ts) := by
  unfold paperExit refuse at h
  rcases hgate : gate enabled strategy with _ | refused
  swap
  · rw [hgate] at h
    obtain ⟨rfl, rfl⟩ := Prod.mk.inj (Except.ok.inj h)
    refine .inl ⟨?_, rfl⟩
    unfold gate at hgate
    split_ifs at hgate <;> cases hgate <;> nofun
  rw [hgate] at h
  rcases hfind : find strategy.id d with _ | p
  · simp only [hfind] at h
    obtain ⟨rfl, rfl⟩ := Prod.mk.inj (Except.ok.inj h)
    exact .inl ⟨nofun, rfl⟩
  · simp only [hfind] at h
    obtain ⟨price, -, h⟩ := Fallible.bind_eq_ok.1 h
    obtain ⟨rfl, rfl⟩ := Prod.mk.inj (Except.ok.inj h)
    exact .inr ⟨rfl, p, price, rfl, rfl⟩

/-- It writes rows of the owner's own leg, and after a full exit none of them is open. -/
structure ClosesOwnLeg (e : PaperExecutor) (isEquity : String → Bool) (strategyId : StrategyId)
    (kind : ActionKind) (d d' : Db) : Prop where
  tables : d' = { d with positions := d'.positions }
  rows : d'.positions.map (·.id) = d.positions.map (·.id)
  others : ∀ p ∈ d.positions, ¬ e.Own isEquity strategyId p → p ∈ d'.positions
  flat : kind ≠ .partly → ∀ p ∈ d'.positions, e.Own isEquity strategyId p → p.isOpen = false

/-- The row found is of the owner's own leg, and for a full exit it is the only open one. -/
def OneOpenLeg (e : PaperExecutor) (isEquity : String → Bool) (strategyId : StrategyId)
    (kind : ActionKind) (d : Db) : Prop :=
  ∀ p, e.find strategyId d = some p → e.Own isEquity strategyId p
    ∧ (kind ≠ .partly →
      ∀ q ∈ d.positions, e.Own isEquity strategyId q → q.isOpen = true → q = p)

/-- An exit closes the owner's own leg exactly if the row it finds is of the leg and, for a full
exit, no other open row is. -/
theorem exit_closes_own_leg_iff (cfg : Settings) (e : PaperExecutor) (isEquity : String → Bool)
    (signal : StrategySignal) (strategy : Strategy) (kind : ActionKind) (ts : Nat) (d d' : Db)
    (result : LegExecutionResult) (hids : (d.positions.map (·.id)).Nodup)
    (h : e.exit cfg signal strategy kind ts d = .ok (result, d')) :
    (result.status ≠ .executed → d' = d)
    ∧ (result.status = .executed →
      (ClosesOwnLeg e isEquity strategy.id kind d d'
        ↔ OneOpenLeg e isEquity strategy.id kind d)) := by
  obtain ⟨enabled, hexit⟩ : ∃ enabled, e.exit cfg = paperExit enabled e.find := by
    cases e <;> exact ⟨_, rfl⟩
  rcases paperExit_cases (hexit ▸ h) with ⟨hstatus, rfl⟩ | ⟨hstatus, p, price, hfind, rfl⟩
  · exact ⟨fun _ => rfl, fun hexec => absurd hexec hstatus⟩
  refine ⟨fun hnot => absurd hstatus hnot, fun _ => ?_⟩
  obtain ⟨hmem, hstrategy, hopen⟩ := e.find_spec hfind
  set p' := paperClose p (mirrorCloseQty signal kind p.remainingQuantity) price ts with hp'
  have hid : p'.id = p.id := paperClose_id
  have hne : p' ≠ p := paperClose_ne hopen
  have hother : ∀ q ∈ d.positions, q ≠ p → q.id ≠ p'.id := by
    intro q hq hqp heq
    exact hqp (inj_on_of_nodup_map hids hq hmem (heq.trans hid))
  have hgone : p ∉ (d.savePosition p').positions := by
    intro hp
    rcases mem_savePosition_iff.1 hp with ⟨heq, -⟩ | ⟨-, hpid⟩
    · exact hne heq.symm
    · exact hpid hid.symm
  constructor
  · intro hcloses q hq
    obtain rfl := Option.some.inj (hfind.symm.trans hq)
    refine ⟨?_, fun hfull r hr hown hropen => ?_⟩
    · by_contra hnot
      exact hgone (hcloses.others p hmem hnot)
    · by_contra hrp
      have hkept := mem_savePosition hr (hother r hr hrp)
      rw [hcloses.flat hfull r hkept hown] at hropen
      cases hropen
  · intro hone
    obtain ⟨hown, honly⟩ := hone p hfind
    refine ⟨rfl, ids_savePosition d p', fun q hq hnot => ?_, fun hfull q hq hqown => ?_⟩
    · have hqp : q ≠ p := fun heq => hnot (heq ▸ hown)
      exact mem_savePosition hq (hother q hq hqp)
    · rcases mem_savePosition_iff.1 hq with ⟨rfl, -⟩ | ⟨hq, hqid⟩
      · rw [hp', mirrorCloseQty_full hfull]
        exact paperClose_all
      · by_contra hqopen
        rw [Bool.not_eq_false] at hqopen
        exact hqid (honly hfull q hq hqown hqopen ▸ hid.symm)

end Exit

def legSettings : Settings :=
  { sampleSettings with optionsExecutionEnabled := true, cashExecutionEnabled := true }

def paperStrategy : Strategy := { sampleStrategy with isPaper := some true }

def entrySignal : StrategySignal := sampleSignal 100 "ENTRY"

def exitSignal : StrategySignal := sampleSignal 101 "EXIT"

def sampleLeg : Option (String × Int) := some ("NIFTY-JUL2026-24000-CE", 75)

/-- The strategy's own two shares of an equity, and then a subscriber's copy of them. -/
def mirroredDb : Db :=
  { sampleDb with positions := [
      { samplePosition 200 none 10 with symbol := "RELIANCE", side := "long", openedAt := 1 },
      { samplePosition 201 (some 9) 20 with symbol := "RELIANCE", side := "buy", openedAt := 2 }] }

def leftOpen (e : PaperExecutor) (isEquity : String → Bool) (strategyId : StrategyId) (d : Db) :
    Bool :=
  d.positions.any fun p => p.strategyId = strategyId && p.subscriptionId.isNone
    && e.trades isEquity p.symbol && p.isOpen

theorem not_closesOwnLeg {e : PaperExecutor} {isEquity : String → Bool} {strategyId : StrategyId}
    {d d' : Db} (h : leftOpen e isEquity strategyId d' = true) :
    ¬ ClosesOwnLeg e isEquity strategyId .exit d d' := by
  obtain ⟨p, hp, hopen⟩ := any_eq_true.1 h
  simp only [Bool.and_eq_true, decide_eq_true_eq, Option.isNone_iff_eq_none] at hopen
  obtain ⟨⟨⟨hstrategy, howner⟩, hleg⟩, hopen⟩ := hopen
  intro hcloses
  rw [hcloses.flat nofun p hp ⟨hstrategy, howner, hleg⟩] at hopen
  cases hopen

/-- A second options entry leaves its row open, and a cash exit closes a subscriber's copy. -/
theorem exit_misses_own_leg : (∃ r₁ d₁ r₂ d₂ r₃ d₃,
      executeOptionsEntry legSettings sampleLeg entrySignal paperStrategy 1 sampleDb
        = .ok (r₁, d₁)
      ∧ executeOptionsEntry legSettings sampleLeg entrySignal paperStrategy 2 d₁ = .ok (r₂, d₂)
      ∧ PaperExecutor.options.exit legSettings exitSignal paperStrategy .exit 3 d₂ = .ok (r₃, d₃)
      ∧ r₃.status = .executed
      ∧ ¬ ClosesOwnLeg .options (fun _ => false) paperStrategy.id .exit d₂ d₃)
    ∧ ∃ r d', PaperExecutor.cash.exit legSettings exitSignal paperStrategy .exit 3 mirroredDb
        = .ok (r, d')
      ∧ r.status = .executed
      ∧ (d'.positions.filter (·.isOpen)).map (·.id) = [200]
      ∧ ¬ ClosesOwnLeg .cash (· = "RELIANCE") paperStrategy.id .exit mirroredDb d' := by
  constructor
  · obtain ⟨⟨r₁, d₁⟩, h₁, ⟨r₂, d₂⟩, h₂, ⟨r₃, d₃⟩, h₃, hstatus, hleft⟩ : ∃ a,
        executeOptionsEntry legSettings sampleLeg entrySignal paperStrategy 1 sampleDb = .ok a
        ∧ ∃ b, executeOptionsEntry legSettings sampleLeg entrySignal paperStrategy 2 a.2 = .ok b
        ∧ ∃ c, PaperExecutor.options.exit legSettings exitSignal paperStrategy .exit 3 b.2 = .ok c
        ∧ c.1.status = .executed
        ∧ leftOpen .options (fun _ => false) paperStrategy.id c.2 = true := by
      decide +kernel
    exact ⟨r₁, d₁, r₂, d₂, r₃, d₃, h₁, h₂, h₃, hstatus, not_closesOwnLeg hleft⟩
  · obtain ⟨⟨r, d'⟩, h, hstatus, hopen, hleft⟩ : ∃ a,
        PaperExecutor.cash.exit legSettings exitSignal paperStrategy .exit 3 mirroredDb = .ok a
        ∧ a.1.status = .executed ∧ (a.2.positions.filter (·.isOpen)).map (·.id) = [200]
        ∧ leftOpen .cash (· = "RELIANCE") paperStrategy.id a.2 = true := by
      decide +kernel
    exact ⟨r, d', h, hstatus, hopen, not_closesOwnLeg hleft⟩

/-- One options entry and its exit. -/
theorem exit_closes_own_leg_once : ∃ r d₁ r' d₂,
    executeOptionsEntry legSettings sampleLeg entrySignal paperStrategy 1 sampleDb = .ok (r, d₁)
    ∧ PaperExecutor.options.exit legSettings exitSignal paperStrategy .exit 3 d₁ = .ok (r', d₂)
    ∧ r'.status = .executed
    ∧ ClosesOwnLeg .options (fun _ => false) paperStrategy.id .exit d₁ d₂ := by
  obtain ⟨⟨r, d₁⟩, h₁, hids, ⟨r', d₂⟩, h₂, hstatus⟩ : ∃ a,
      executeOptionsEntry legSettings sampleLeg entrySignal paperStrategy 1 sampleDb = .ok a
      ∧ a.2.positions.map (·.id) = [200]
      ∧ ∃ c, PaperExecutor.options.exit legSettings exitSignal paperStrategy .exit 3 a.2 = .ok c
      ∧ c.1.status = .executed := by
    decide +kernel
  refine ⟨r, d₁, r', d₂, h₁, h₂, hstatus, ?_⟩
  -- there is one row, so it is the one found
  obtain ⟨row, hrow⟩ := length_eq_one_iff.1 (by simpa using congrArg List.length hids)
  refine ((exit_closes_own_leg_iff legSettings .options (fun _ => false) exitSignal paperStrategy
    .exit 3 d₁ d₂ r' (by rw [hids]; exact nodup_singleton 200) h₂).2 hstatus).2 ?_
  intro p hp
  obtain ⟨hmem, -⟩ := PaperExecutor.find_spec hp
  rw [hrow, mem_singleton] at hmem
  refine ⟨options_find_own hp, fun _ q hq _ _ => ?_⟩
  rw [hrow, mem_singleton] at hq
  exact hq.trans hmem.symm

end TradingBridge
