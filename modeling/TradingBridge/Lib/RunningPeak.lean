import Mathlib

/-!
# The worst fall from a running peak

A loop keeps the peak of the values so far and the worst fall of a value from the peak it was met
under. What it ends with is the greatest of these falls.
-/

namespace RunningPeak

open List

variable {α β : Type*} [LinearOrder α] (fall : α → α → β)

/-- The fall of each value from the greatest of the values up to it. -/
def falls (vs : List α) : Set β :=
  {d | ∃ pre v peak, pre ++ [v] <+: vs ∧ IsGreatest {u | u ∈ pre ++ [v]} peak ∧ d = fall peak v}

theorem falls_concat {vs : List α} {v peak : α} (h : IsGreatest {u | u ∈ vs ++ [v]} peak) :
    falls fall (vs ++ [v]) = insert (fall peak v) (falls fall vs) := by
  ext d
  constructor
  · rintro ⟨pre, x, top, hpre, htop, rfl⟩
    rcases prefix_concat_iff.1 hpre with heq | hpre
    · obtain ⟨rfl, rfl⟩ := append_singleton_inj.1 heq
      exact .inl (by rw [htop.unique h])
    · exact .inr ⟨pre, x, top, hpre, htop, rfl⟩
  · rintro (rfl | ⟨pre, x, top, hpre, htop, rfl⟩)
    · exact ⟨vs, v, peak, prefix_refl _, h, rfl⟩
    · exact ⟨pre, x, top, hpre.trans (prefix_append ..), htop, rfl⟩

variable [LinearOrder β]

def step (acc : α × β) (v : α) : α × β := (max acc.1 v, max acc.2 (fall (max acc.1 v) v))

/-- The peak and the worst fall of the values from the first one on. -/
def run (first : α) (rest : List α) : α × β := rest.foldl (step fall) (first, fall first first)

theorem isGreatest_run (first : α) (rest : List α) :
    IsGreatest {u | u ∈ first :: rest} (run fall first rest).1 ∧
      IsGreatest (falls fall (first :: rest)) (run fall first rest).2 := by
  unfold run
  induction rest using reverseRecOn with
  | nil =>
    have hone : IsGreatest {u | u ∈ [] ++ [first]} first := by simp
    have hfalls : falls fall [first] = {fall first first} := by
      rw [← nil_append [first], falls_concat fall hone]
      simp [falls]
    exact ⟨hone, hfalls ▸ isGreatest_singleton⟩
  | append_singleton vs v ih =>
    obtain ⟨hpeak, hworst⟩ := ih
    rw [foldl_concat]
    generalize vs.foldl (step fall) _ = acc at hpeak hworst ⊢
    have hpeak' : IsGreatest {u | u ∈ first :: vs ++ [v]} (max acc.1 v) := by
      convert hpeak.insert v using 1
      · ext u
        simp [or_comm, or_left_comm]
      · exact max_comm ..
    refine ⟨hpeak', ?_⟩
    rw [← cons_append, falls_concat fall hpeak', step, max_comm acc.2]
    exact hworst.insert _

theorem run_concat {first m : α} {rest : List α} (hm : ∀ v ∈ first :: rest, v ≤ m)
    (hle : fall m m ≤ (run fall first rest).2) :
    (run fall first (rest ++ [m])).2 = (run fall first rest).2 := by
  have hpeak := hm _ (isGreatest_run fall first rest).1.1
  rw [run, foldl_concat, step, ← run, max_eq_right hpeak, max_eq_left hle]

end RunningPeak
