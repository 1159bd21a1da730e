import TradingBridge.Orderflow.Chain

/-!
# Max pain

The payout is linear between two neighbouring strikes, falls up to the lowest and rises from the
highest. So at any price it is no less than at one of the strikes.
-/

namespace TradingBridge.Orderflow.Chain

open List

/-- The open interest of a side, each row's times `g` of its strike. -/
noncomputable def weighted (right : Right) (rows : List ChainRow) (g : ℤ → ℝ) : ℝ :=
  (rows.map fun row => if row.right = some right then row.interest * g row.strike else 0).sum

noncomputable def writerPayout (rows : List ChainRow) (p : ℝ) : ℝ :=
  weighted .call rows (fun k => max 0 (p - k)) + weighted .put rows (fun k => max 0 (k - p))

def Listed (rows : List ChainRow) (k : ℤ) : Prop :=
  ∃ right, ∃ row ∈ rows, row.right = some right ∧ row.strike = k

section Loop

variable {rows : List ChainRow} {k : ℤ}

theorem sum_addOi (g : ℤ → ℝ) (k oi : ℤ) (es : List (ℤ × ℤ)) :
    ((addOi k oi es).map fun e => (e.2 : ℝ) * g e.1).sum =
      oi * g k + (es.map fun e => (e.2 : ℝ) * g e.1).sum := by
  induction es with
  | nil => simp [addOi]
  | cons e es ih =>
    unfold addOi
    split_ifs with h
    · subst h
      simp only [map_cons, sum_cons, Int.cast_add]
      ring
    · simp only [map_cons, sum_cons, ih]
      ring

theorem mem_addOi {k oi j : ℤ} {es : List (ℤ × ℤ)} :
    j ∈ (addOi k oi es).map Prod.fst ↔ k = j ∨ j ∈ es.map Prod.fst := by
  induction es with
  | nil => simp [addOi, eq_comm]
  | cons e es ih =>
    unfold addOi
    split_ifs with h
    · simp [h, eq_comm]
    · simp [ih, or_left_comm]

theorem sum_oiByStrike (right : Right) (rows : List ChainRow) (g : ℤ → ℝ) :
    ((oiByStrike right rows).map fun e => (e.2 : ℝ) * g e.1).sum = weighted right rows g := by
  unfold oiByStrike weighted
  induction rows using reverseRecOn with
  | nil => rfl
  | append_singleton rows row ih =>
    simp only [foldl_append, foldl_cons, foldl_nil, map_append,
      sum_append, map_cons, map_nil, sum_singleton]
    split_ifs
    · rw [sum_addOi, ih, add_comm]
    · rw [ih, add_zero]

theorem mem_oiByStrike (right : Right) :
    k ∈ (oiByStrike right rows).map Prod.fst ↔
      ∃ row ∈ rows, row.right = some right ∧ row.strike = k := by
  unfold oiByStrike
  induction rows using reverseRecOn with
  | nil => simp
  | append_singleton rows row ih =>
    simp only [foldl_append, foldl_cons, foldl_nil, mem_append,
      mem_singleton, or_and_right, exists_or, exists_eq_left, ← ih]
    split_ifs with h
    · simp [mem_addOi, h, or_comm]
    · simp [h]

theorem mem_candidates : k ∈ candidates rows ↔ Listed rows k := by
  simp only [candidates, mem_insertionSort, mem_dedup, map_append, mem_append,
    mem_oiByStrike]
  constructor
  · rintro (h | h)
    · exact ⟨_, h⟩
    · exact ⟨_, h⟩
  · rintro ⟨right, h⟩
    cases right
    · exact .inl h
    · exact .inr h

theorem maxPain_eq (rows : List ChainRow) :
    maxPain rows = (candidates rows).argmin (pay rows) := by
  refine congrArg (foldl · none (candidates rows)) (funext fun best => ?_)
  cases best <;> rfl

theorem cast_pay (rows : List ChainRow) (k : ℤ) : (pay rows k : ℝ) = writerPayout rows k := by
  rw [pay, writerPayout, ← sum_oiByStrike, ← sum_oiByStrike]
  push_cast [map_map, Function.comp_def]
  rfl

theorem candidates_le {j : ℤ} (hj : j ∈ candidates rows)
    (h : (candidates rows).idxOf k ≤ (candidates rows).idxOf j) : k ≤ j := by
  have hlt := idxOf_lt_length_iff.2 hj
  have hsorted : (candidates rows).Pairwise (· ≤ ·) := pairwise_insertionSort ..
  have hle := hsorted.rel_get_of_le (a := ⟨_, h.trans_lt hlt⟩) (b := ⟨_, hlt⟩) h
  simpa using hle

end Loop

section Payout

variable {rows : List ChainRow} (hoi : ∀ row ∈ rows, 0 ≤ row.interest)

include hoi

/-- A weighted sum keeps a linear inequality that holds at every strike. -/
theorem weighted_comb (right : Right) {f g w : ℤ → ℝ} {c d e : ℝ}
    (h : ∀ k, Listed rows k → c * f k + d * g k ≤ e * w k) :
    c * weighted right rows f + d * weighted right rows g ≤ e * weighted right rows w := by
  unfold weighted
  simp only [← sum_map_mul_left, ← sum_map_add]
  refine sum_le_sum fun row hrow => ?_
  split_ifs with hright
  · have hk := h _ ⟨right, row, hrow, hright, rfl⟩
    have hrow' : (0 : ℝ) ≤ row.interest := Int.cast_nonneg (hoi row hrow)
    calc c * (row.interest * f row.strike) + d * (row.interest * g row.strike)
        = row.interest * (c * f row.strike + d * g row.strike) := by ring
      _ ≤ row.interest * (e * w row.strike) := mul_le_mul_of_nonneg_left hk hrow'
      _ = e * (row.interest * w row.strike) := by ring
  · simp

theorem payout_comb {a b p c d e : ℝ} (h : ∀ k, Listed rows k →
      c * max 0 (a - k) + d * max 0 (b - k) ≤ e * max 0 (p - k) ∧
      c * max 0 (k - a) + d * max 0 (k - b) ≤ e * max 0 (k - p)) :
    c * writerPayout rows a + d * writerPayout rows b ≤ e * writerPayout rows p := by
  have hcall := weighted_comb hoi .call fun k hk => (h k hk).1
  have hput := weighted_comb hoi .put fun k hk => (h k hk).2
  unfold writerPayout
  linarith

theorem payout_le {a p : ℝ}
    (h : ∀ k, Listed rows k → (k ≤ a ∧ a ≤ p) ∨ (p ≤ a ∧ a ≤ k)) :
    writerPayout rows a ≤ writerPayout rows p := by
  have := payout_comb hoi (a := a) (b := a) (p := p) (c := 1) (d := 0) (e := 1) fun k hk => ?_
  · linarith
  rcases h k hk with ⟨hk, ha⟩ | ⟨ha, hk⟩
  · have hp := hk.trans ha
    simp only [max_eq_right, max_eq_left, sub_nonneg, sub_nonpos, hk, hp]
    constructor <;> linarith
  · have hp := ha.trans hk
    simp only [max_eq_right, max_eq_left, sub_nonneg, sub_nonpos, hk, hp]
    constructor <;> linarith

theorem payout_between {a b p : ℝ} (ha : a ≤ p) (hb : p ≤ b)
    (h : ∀ k, Listed rows k → k ≤ a ∨ b ≤ k) :
    (b - p) * writerPayout rows a + (p - a) * writerPayout rows b ≤
      (b - a) * writerPayout rows p := by
  refine payout_comb hoi fun k hk => ?_
  rcases h k hk with hk | hk
  · have hp := hk.trans ha
    simp only [max_eq_right, max_eq_left, sub_nonneg, sub_nonpos, hk, hp, hp.trans hb]
    constructor <;> linarith
  · have hp := hb.trans hk
    simp only [max_eq_right, max_eq_left, sub_nonneg, sub_nonpos, hk, hp, ha.trans hp]
    constructor <;> linarith

theorem exists_listed_le {j : ℤ} (hj : Listed rows j) (p : ℝ) :
    ∃ k : ℤ, Listed rows k ∧ writerPayout rows k ≤ writerPayout rows p := by
  by_cases hlo : ∃ k : ℤ, Listed rows k ∧ k ≤ p
  · obtain ⟨a, ⟨hla, ha⟩, hmax⟩ :=
      Int.exists_greatest_of_bdd ⟨⌊p⌋, fun k hk => Int.le_floor.2 hk.2⟩ hlo
    by_cases hhi : ∃ k : ℤ, Listed rows k ∧ p < k
    · obtain ⟨b, ⟨hlb, hb⟩, hmin⟩ :=
        Int.exists_least_of_bdd ⟨⌊p⌋, fun k hk => Int.floor_le_iff.2 (hk.2.trans (by simp))⟩ hhi
      have hcomb := payout_between hoi ha hb.le fun k hk => by
        rcases le_or_gt (k : ℝ) p with hkp | hkp
        · exact .inl (Int.cast_le.2 (hmax k ⟨hk, hkp⟩))
        · exact .inr (Int.cast_le.2 (hmin k ⟨hk, hkp⟩))
      by_contra! hno
      nlinarith [hno a hla, hno b hlb]
    · push Not at hhi
      exact ⟨a, hla, payout_le hoi fun k hk =>
        .inl ⟨Int.cast_le.2 (hmax k ⟨hk, hhi k hk⟩), ha⟩⟩
  · push Not at hlo
    obtain ⟨b, hlb, hmin⟩ := Int.exists_least_of_bdd
      ⟨⌊p⌋, fun k hk => Int.floor_le_iff.2 ((hlo k hk).trans (by simp))⟩ ⟨j, hj⟩
    exact ⟨b, hlb, payout_le hoi fun k hk => .inr ⟨(hlo b hlb).le, Int.cast_le.2 (hmin k hk)⟩⟩

end Payout

/-- Max pain is the lowest listed strike whose payout no settlement price undercuts. There is none
for an empty chain only. -/
theorem max_pain_least (chain : { rows : List ChainRow // ∀ row ∈ rows, 0 ≤ row.interest }) :
    match maxPain chain with
    | some k => IsLeast { k | Listed chain k ∧
        ∀ p : ℝ, writerPayout chain k ≤ writerPayout chain p } k
    | none => ∀ k, ¬ Listed chain k := by
  obtain ⟨rows, hoi⟩ := chain
  have hcast : ∀ i j, pay rows i ≤ pay rows j ↔ writerPayout rows i ≤ writerPayout rows j :=
    fun i j => by rw [← cast_pay, ← cast_pay, Int.cast_le]
  rw [maxPain_eq]
  cases hbest : (candidates rows).argmin (pay rows) with
  | none =>
    intro k hk
    have := mem_candidates.2 hk
    simp [argmin_eq_none.1 hbest] at this
  | some k =>
    obtain ⟨hk, hleast, hfirst⟩ := mem_argmin_iff.1 hbest
    simp only [hcast] at hleast hfirst
    refine ⟨⟨mem_candidates.1 hk, fun p => ?_⟩, fun j hj => ?_⟩
    · obtain ⟨j, hj, hle⟩ := exists_listed_le hoi (mem_candidates.1 hk) p
      exact (hleast j (mem_candidates.2 hj)).trans hle
    · have hmem := mem_candidates.2 hj.1
      exact candidates_le hmem (hfirst j hmem (hj.2 k))

end TradingBridge.Orderflow.Chain
