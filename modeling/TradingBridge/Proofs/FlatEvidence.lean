import TradingBridge.BrokerPositions
import TradingBridge.Proofs.SymbolSpellings
import TradingBridge.Proofs.Specs

/-!
# Flat is said on evidence

Whatever the schedule of the batch, an answer of a subscription is one its own fetch returned. So
flat is said only of one that came back, and, where there is a symbol to look for, only if every
symbol was understood and no row spells the contract that was asked for (`flat_on_evidence`).
-/

namespace TradingBridge

open Effectful List

namespace Batch

variable {A : Type} {c i : ℕ} {b b' : Batch A} {l : Label A} {key : SubscriptionId} {a : A}

def keys (b : Batch A) : List SubscriptionId := b.tasks.map Prod.fst

theorem move_cases {before : List CallPhase} {after : CallPhase}
    {k : SubscriptionId → Batch A → Batch A} (h : b.move i before after k = some b') :
    ∃ key, b.keys[i]? = some key
      ∧ ∃ b₁ : Batch A, b₁.keys = b.keys ∧ b₁.out = b.out ∧ b' = k key b₁ := by
  unfold move at h
  rcases htask : b.tasks[i]? with _ | ⟨key, phase⟩
  · rw [htask] at h
    cases h
  simp only [htask] at h
  split_ifs at h
  obtain rfl := Option.some.inj h
  have hkey : b.keys[i]? = some key := by rw [keys, getElem?_map, htask]; rfl
  refine ⟨key, hkey, { b with tasks := b.tasks.set i (key, after) }, ?_, rfl, rfl⟩
  obtain ⟨hlt, hget⟩ := List.getElem?_eq_some_iff.1 hkey
  rw [keys, map_set, ← hget]
  exact set_getElem_self hlt

theorem next_cases (h : next c b l = some b') : b'.keys = b.keys
    ∧ ∀ key a, b'.out key = some a → b.out key = some a
      ∨ ∃ i, l = .returned i a ∧ b.keys[i]? = some key := by
  cases l with
  | acquire i =>
    simp only [next] at h
    split_ifs at h
    obtain ⟨key, -, b₁, hkeys, hout, rfl⟩ := move_cases h
    exact ⟨hkeys, fun key a ha => .inl (hout ▸ ha)⟩
  | returned i answer =>
    simp only [next] at h
    obtain ⟨key, hkey, b₁, hkeys, hout, rfl⟩ := move_cases h
    refine ⟨hkeys, fun key' a ha => ?_⟩
    by_cases heq : key' = key
    · subst heq
      have ha : Function.update b₁.out key' (some answer) key' = some a := ha
      rw [Function.update_self] at ha
      obtain rfl := Option.some.inj ha
      exact .inr ⟨i, rfl, hkey⟩
    · have ha : Function.update b₁.out key (some answer) key' = some a := ha
      rw [Function.update_of_ne heq, hout] at ha
      exact .inl ha
  | timedOut i | raised i =>
    simp only [next] at h
    obtain ⟨key, -, b₁, hkeys, hout, rfl⟩ := move_cases h
    exact ⟨hkeys, fun key a ha => .inl (hout ▸ ha)⟩
  | budgetExpired =>
    simp only [next] at h
    split_ifs at h
    obtain rfl := Option.some.inj h
    exact ⟨rfl, fun key a ha => .inl ha⟩
  | cancelled i =>
    simp only [next] at h
    split_ifs at h
    obtain ⟨key, -, b₁, hkeys, hout, rfl⟩ := move_cases h
    exact ⟨hkeys, fun key a ha => .inl (hout ▸ ha)⟩

def Returned (keys : List SubscriptionId) (ls : List (Label A)) (key : SubscriptionId) (a : A) :
    Prop := ∃ i, .returned i a ∈ ls ∧ keys[i]? = some key

theorem returned_of_run {keys : List SubscriptionId} {ok : Batch A → Label A → Prop}
    {ls : List (Label A)} (h : Run (next c) ok (start keys) ls b) :
    b.keys = keys ∧ ∀ key a, b.out key = some a → Returned keys ls key a := by
  induction h with
  | nil =>
    refine ⟨?_, nofun⟩
    rw [Batch.keys, start, map_map]
    exact map_id keys
  | @snoc t _ ls l _ _ hl ih =>
    obtain ⟨hkeys, hreturned⟩ := ih
    obtain ⟨hkeys', hout⟩ := next_cases hl
    refine ⟨hkeys'.trans hkeys, fun key a ha => ?_⟩
    rcases hout key a ha with ha | ⟨i, rfl, hi⟩
    · obtain ⟨i, hmem, hi⟩ := hreturned key a ha
      exact ⟨i, mem_append_left _ hmem, hi⟩
    · exact ⟨i, mem_append_right _ (mem_singleton_self _), hkeys ▸ hi⟩

end Batch

namespace SymbolMatch

variable {R : Type} {symbolOf : R → Option String} {asked : Option String} {rows : List R}

theorem scanRows_flat {saw : Bool} (h : scanRows symbolOf asked saw rows = (none, true)) :
    saw = false ∧ ∀ row ∈ rows, symbolsMatch asked (symbolOf row) = some false := by
  induction rows generalizing saw with
  | nil =>
    refine ⟨?_, nofun⟩
    simpa [scanRows] using h
  | cons row rows ih =>
    simp only [scanRows] at h
    split at h
    · cases h
    · rename_i hmatch
      obtain ⟨hsaw, hrows⟩ := ih h
      refine ⟨hsaw, fun r hr => ?_⟩
      rcases mem_cons.1 hr with rfl | hr
      · exact hmatch
      · exact hrows r hr
    · cases (ih h).1

theorem symbolsMatch_false {a b : Option String} (h : symbolsMatch a b = some false) :
    ∃ x y, normalizeSymbol a = some x ∧ normalizeSymbol b = some y ∧ x ≠ y := by
  unfold symbolsMatch at h
  split at h
  · rename_i x y hx hy
    exact ⟨x, y, hx, hy, of_decide_eq_false (Option.some.inj h)⟩
  · cases h

/-- Understood, not the contract asked for, and spelling none the symbol asked for spells. -/
def Other (asked : String) (symbol : Option String) : Prop :=
  ∃ x y, normalizeSymbol (some asked) = some x ∧ normalizeSymbol symbol = some y ∧ x ≠ y
    ∧ ∀ raw, symbol = some raw → ∀ contract, Spells asked contract → ¬ Spells raw contract

theorem other_of_match {asked : String} {symbol : Option String}
    (h : symbolsMatch (some asked) symbol = some false) : Other asked symbol := by
  obtain ⟨x, y, hx, hy, hne⟩ := symbolsMatch_false h
  refine ⟨x, y, hx, hy, hne, ?_⟩
  rintro raw rfl contract ha hb
  rw [match_of_spells ha hb] at h
  cases h

end SymbolMatch

namespace PositionProvider

open SymbolMatch

variable {R : Type} {symbolOf : R → Option String} {d : Db} {strategyId : StrategyId}
  {subscriptionId : SubscriptionId} {symbol : Option String}

/-- Nothing to look for, or every symbol was understood and no row is of the contract. -/
def Evidence (symbolOf : R → Option String) (d : Db) (strategyId : StrategyId)
    (subscriptionId : SubscriptionId) (symbol : Option String) (raw : Option (List R)) : Prop :=
  verifySymbol (findOpenOf strategyId subscriptionId d) symbol = none
  ∨ ∃ asked, verifySymbol (findOpenOf strategyId subscriptionId d) symbol = some asked
    ∧ (normalizeSymbol (some asked)).isSome = true
    ∧ ∀ row ∈ raw.getD [], Other asked (symbolOf row)

theorem findOpen_flat {provider : PositionProvider R}
    (h : provider.findOpen symbolOf d strategyId subscriptionId symbol = .flat) :
    provider.prefetched = true ∧ ∃ raw, provider.cache subscriptionId = some raw
      ∧ Evidence symbolOf d strategyId subscriptionId symbol raw := by
  unfold findOpen at h
  by_cases hpre : provider.prefetched = true
  swap
  · simp only [hpre] at h
    cases h
  simp only [hpre, Bool.not_true, Bool.false_eq_true, if_false] at h
  refine ⟨hpre, ?_⟩
  rcases hcache : provider.cache subscriptionId with _ | raw
  · rw [hcache] at h
    cases h
  refine ⟨raw, rfl, ?_⟩
  rw [hcache] at h
  unfold Evidence
  rcases hverify : verifySymbol (findOpenOf strategyId subscriptionId d) symbol with _ | asked
  · exact .inl rfl
  refine .inr ⟨asked, rfl, ?_⟩
  simp only [hverify] at h
  split at h
  · cases h
  · rename_i hscan
    obtain ⟨hsaw, hrows⟩ := scanRows_flat hscan
    refine ⟨?_, fun row hrow => other_of_match (hrows row hrow)⟩
    rwa [Option.isNone_eq_false_iff] at hsaw
  · -- a match without a stored row is of the symbol of the signal
    split at h
    · cases h
    · rename_i hstored
      rw [hstored] at hverify
      cases symbol with
      | none => cases hverify
      | some s => cases h

/-- Flat is said only after a batch, of a subscription whose own fetch returned, on the evidence of
it. -/
theorem flat_on_evidence (symbolOf : R → Option String) (d : Db) (strategyId : StrategyId)
    (subscriptionId : SubscriptionId) (symbol : Option String) :
    PositionProvider.new.findOpen symbolOf d strategyId subscriptionId symbol ≠ .flat
    ∧ ∀ (concurrency : ℕ) (keys : List SubscriptionId) (ls : List (Batch.Label (Option (List R))))
      (b : Batch (Option (List R))),
      Run (Batch.next concurrency) (fun _ _ => True) (Batch.start keys) ls b →
      (prefetch b).findOpen symbolOf d strategyId subscriptionId symbol = .flat →
      ∃ raw, Batch.Returned keys ls subscriptionId raw
        ∧ Evidence symbolOf d strategyId subscriptionId symbol raw := by
  refine ⟨fun h => ?_, fun concurrency keys ls b hrun h => ?_⟩
  · obtain ⟨hpre, -⟩ := findOpen_flat h
    cases hpre
  · obtain ⟨-, raw, hcache, hevidence⟩ := findOpen_flat h
    exact ⟨raw, (Batch.returned_of_run hrun).2 subscriptionId raw hcache, hevidence⟩

/-- May be one contract: the same but for a day stamp that only one of them has. -/
def MayDenote (x y : NormalizedSymbol) : Prop :=
  x.root = y.root ∧ x.kind = y.kind ∧ x.year = y.year ∧ x.month = y.month ∧ x.strike = y.strike
    ∧ (x.day = y.day ∨ x.day = none ∨ y.day = none)

instance (x y : NormalizedSymbol) : Decidable (MayDenote x y) :=
  inferInstanceAs (Decidable (_ ∧ _))

theorem answered_flat {asked row : String} {x y : NormalizedSymbol} (hne : asked ≠ "")
    (hx : normalizeSymbol (some asked) = some x) (hy : normalizeSymbol (some row) = some y)
    (hxy : x ≠ y) : ∃ b : Batch (Option (List String)),
      Run (Batch.next 16) (fun _ _ => True) (Batch.start [9])
        [.acquire 0, .returned 0 (some [row])] b
      ∧ (prefetch b).findOpen some Db.empty 1 9 (some asked) = .flat := by
  refine ⟨_, (Run.single trivial rfl).trans (Run.single trivial rfl), ?_⟩
  have hverify : verifySymbol (findOpenOf 1 9 Db.empty) (some asked) = some asked := by
    simp [verifySymbol, hne]
  have hmatch : symbolsMatch (some asked) (some row) = some false := by
    simp [symbolsMatch, hx, hy, hxy]
  have hscan : findMatchingPosition some (some asked) [row] = (none, true) := by
    simp [findMatchingPosition, hx, scanRows, hmatch]
  simp [findOpen, prefetch, hverify, hscan]

theorem augustCall_normalized : normalizeSymbol (some "BSE-AUG2026-3200-CE")
    = some ⟨['B', 'S', 'E'], .ce, some 2026, some 8, none, some ['3', '2', '0', '0']⟩ := by
  decide +kernel

theorem dayStampedCall_normalized : normalizeSymbol (some "BSE-27AUG2026-3200-CE")
    = some ⟨['B', 'S', 'E'], .ce, some 2026, some 8, some 27, some ['3', '2', '0', '0']⟩ := by
  decide +kernel

theorem compactCall_unparsed : normalizeSymbol (some "BSE24AUG2400CE") = none := by
  decide +kernel

/-- The day-stamped spelling of the call held reads flat, and so does anything without a symbol. -/
theorem day_stamped_leg_reads_flat : (∃ b : Batch (Option (List String)),
      Run (Batch.next 16) (fun _ _ => True) (Batch.start [9])
        [.acquire 0, .returned 0 (some ["BSE-27AUG2026-3200-CE"])] b
      ∧ (prefetch b).findOpen some Db.empty 1 9 (some "BSE-AUG2026-3200-CE") = .flat
      ∧ ∃ x y, normalizeSymbol (some "BSE-AUG2026-3200-CE") = some x
        ∧ normalizeSymbol (some "BSE-27AUG2026-3200-CE") = some y ∧ MayDenote x y)
    ∧ ∃ b : Batch (Option (List String)),
      Run (Batch.next 16) (fun _ _ => True) (Batch.start [9])
        [.acquire 0, .returned 0 (some ["BSE24AUG2400CE"])] b
      ∧ (prefetch b).findOpen some Db.empty 1 9 none = .flat
      ∧ normalizeSymbol (some "BSE24AUG2400CE") = none := by
  constructor
  · have hne : "BSE-AUG2026-3200-CE" ≠ "" := by decide +kernel
    obtain ⟨b, hrun, hflat⟩ := answered_flat hne augustCall_normalized dayStampedCall_normalized
      (by decide)
    exact ⟨b, hrun, hflat, _, _, augustCall_normalized, dayStampedCall_normalized, by decide⟩
  · exact ⟨_, (Run.single trivial rfl).trans (Run.single trivial rfl), rfl, compactCall_unparsed⟩

theorem augustFuture_normalized : normalizeSymbol (some "BSE-AUG2026-FUT")
    = some ⟨['B', 'S', 'E'], .fut, some 2026, some 8, none, none⟩ := by
  decide +kernel

theorem compactSeptember_normalized : normalizeSymbol (some "BSE26SEPFUT")
    = some ⟨['B', 'S', 'E'], .fut, some 2026, some 9, none, none⟩ := by
  decide +kernel

/-- The broker holds the future of September, in its own spelling, and that of August is asked
for. -/
theorem flat_on_evidence_september : ∃ b : Batch (Option (List String)),
    Run (Batch.next 16) (fun _ _ => True) (Batch.start [9])
      [.acquire 0, .returned 0 (some ["BSE26SEPFUT"])] b
    ∧ (prefetch b).findOpen some Db.empty 1 9 (some "BSE-AUG2026-FUT") = .flat
    ∧ ∃ raw, Batch.Returned [9] [.acquire 0, .returned 0 (some ["BSE26SEPFUT"])] 9 raw
      ∧ Evidence some Db.empty 1 9 (some "BSE-AUG2026-FUT") raw := by
  have hne : "BSE-AUG2026-FUT" ≠ "" := by decide +kernel
  obtain ⟨b, hrun, hflat⟩ := answered_flat hne augustFuture_normalized
    compactSeptember_normalized (by decide)
  exact ⟨b, hrun, hflat, (flat_on_evidence some Db.empty 1 9 (some "BSE-AUG2026-FUT")).2 16 [9] _
    b hrun hflat⟩

end PositionProvider

end TradingBridge
