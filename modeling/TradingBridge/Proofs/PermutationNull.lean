import TradingBridge.Orderflow.Research

/-!
# The outcomes of a permutation round

The universe holds one trade of each day and entry (`setDefault_spec`). Where no two of the trades
a sweep produces share both, it holds them all, and a round deals their outcomes out anew
(`null_keeps_outcomes_iff`).
-/

namespace TradingBridge.Orderflow.Research.Sweep

open scoped List

variable {s : Sweep}

theorem setDefault_spec (ts : List Trade) {seen : List Trade} (hseen : (seen.map Trade.key).Nodup) :
    ((ts.foldl setDefault seen).map Trade.key).Nodup
    ∧ (∀ t ∈ ts.foldl setDefault seen, t ∈ seen ∨ t ∈ ts)
    ∧ ∀ t, t ∈ seen ∨ t ∈ ts → t.key ∈ (ts.foldl setDefault seen).map Trade.key := by
  induction ts generalizing seen with
  | nil => exact ⟨hseen, fun t ht => .inl ht, fun t ht => List.mem_map_of_mem (by simpa using ht)⟩
  | cons u ts ih =>
    rw [List.foldl_cons, setDefault]
    split_ifs with hu
    · obtain ⟨hnodup, hsub, hall⟩ := ih hseen
      refine ⟨hnodup, fun t ht => (hsub t ht).imp_right (List.mem_cons_of_mem u), ?_⟩
      rintro t (ht | ht)
      · exact hall t (.inl ht)
      · rcases List.mem_cons.1 ht with rfl | ht
        · obtain ⟨t', ht', hkey⟩ := List.mem_map.1 hu
          exact hkey ▸ hall t' (.inl ht')
        · exact hall t (.inr ht)
    · have hseen' : ((seen ++ [u]).map Trade.key).Nodup := by
        rw [List.map_append]
        exact hseen.append (List.nodup_singleton _) (by simpa using hu)
      obtain ⟨hnodup, hsub, hall⟩ := ih hseen'
      refine ⟨hnodup, fun t ht => ?_, fun t ht => hall t ?_⟩
      · grind
      · grind

theorem tradeUniverse_spec : (s.tradeUniverse.map Trade.key).Nodup
    ∧ (∀ t ∈ s.tradeUniverse, t ∈ s.produced)
    ∧ ∀ t ∈ s.produced, ∃ u ∈ s.tradeUniverse, u.key = t.key := by
  have hnil : (([] : List Trade).map Trade.key).Nodup := List.nodup_nil
  obtain ⟨hnodup, hsub, hall⟩ := setDefault_spec s.produced hnil
  exact ⟨hnodup, fun t ht => (hsub t ht).resolve_left List.not_mem_nil,
    fun t ht => List.mem_map.1 (hall t (.inr ht))⟩

theorem map_lookup_zip {α β : Type*} [BEq α] [LawfulBEq α] {ks : List α} {rs : List β}
    (h : ks.Nodup) (hlen : ks.length = rs.length) :
    ks.map ((ks.zip rs).lookup ·) = rs.map some := by
  induction ks generalizing rs with
  | nil => simp [List.eq_nil_of_length_eq_zero hlen.symm]
  | cons k ks ih =>
    cases rs with
    | nil => simp at hlen
    | cons r rs =>
      obtain ⟨hk, h⟩ := List.nodup_cons.1 h
      rw [List.map_cons, List.zip_cons_cons, List.lookup_cons_self, List.map_cons,
        ← ih h (by simpa using hlen)]
      refine congrArg _ (List.map_congr_left fun a ha => ?_)
      have hne : a ≠ k := fun heq => hk (heq ▸ ha)
      rw [List.lookup_cons, beq_false_of_ne hne]

/-- Every trade is in the universe, and every round deals the trades their own outcomes, one to
each. -/
structure KeepsOutcomes (s : Sweep) : Prop where
  kept : ∀ t ∈ s.produced, t ∈ s.tradeUniverse
  dealt : ∀ perm : List ℚ, perm.Perm s.pool →
    (s.produced.dedup.map fun t => (s.rmap perm).lookup t.key).Perm
      (s.produced.dedup.map fun t => some t.r)

/-- The rounds keep the outcomes exactly if no two different trades have the same day and entry. -/
theorem null_keeps_outcomes_iff (s : Sweep) : s.KeepsOutcomes ↔
    ∀ t ∈ s.produced, ∀ u ∈ s.produced, t.key = u.key → t = u := by
  obtain ⟨hnodup, hsub, hall⟩ := tradeUniverse_spec
  constructor
  · intro h t ht u hu hkey
    exact List.inj_on_of_nodup_map hnodup (h.kept t ht) (h.kept u hu) hkey
  · intro hinj
    have hkept : ∀ t ∈ s.produced, t ∈ s.tradeUniverse := by
      intro t ht
      obtain ⟨u, hu, hkey⟩ := hall t ht
      exact hinj u (hsub u hu) t ht hkey ▸ hu
    have hpooled : s.pooled.Perm s.tradeUniverse := List.perm_insertionSort _ _
    have hsame : s.produced.dedup.Perm s.pooled := by
      refine ((List.perm_ext_iff_of_nodup (List.nodup_dedup _) hnodup.of_map).2 fun t => ?_).trans
        hpooled.symm
      rw [List.mem_dedup]
      exact ⟨hkept t, hsub t⟩
    refine ⟨hkept, fun perm hperm => ?_⟩
    have hlen : (s.pooled.map Trade.key).length = perm.length := by simp [hperm.length_eq, pool]
    have hdealt := map_lookup_zip ((hpooled.map _).nodup_iff.2 hnodup) hlen
    rw [List.map_map] at hdealt
    calc s.produced.dedup.map (fun t => (s.rmap perm).lookup t.key)
      _ ~ s.pooled.map (fun t => (s.rmap perm).lookup t.key) := hsame.map _
      _ ~ perm.map some := .of_eq hdealt
      _ ~ s.pool.map some := hperm.map some
      _ ~ s.pooled.map (fun t => some t.r) := .of_eq (List.map_map ..)
      _ ~ s.produced.dedup.map (fun t => some t.r) := (hsame.map _).symm

/-- One entry that wins under one parameter value and loses under the other. -/
def twoOutcomes : Sweep :=
  ⟨["2026-07-14"], fun v _ => [⟨"2026-07-14", 1, 2, if v = 1 then 1 else -1⟩], [1, 2]⟩

/-- The loss is not in the universe, and a round gives both trades the winner's outcome. -/
theorem loss_merged_into_win :
    twoOutcomes.produced = [⟨"2026-07-14", 1, 2, 1⟩, ⟨"2026-07-14", 1, 2, -1⟩]
    ∧ twoOutcomes.tradeUniverse = [⟨"2026-07-14", 1, 2, 1⟩]
    ∧ twoOutcomes.nullEval twoOutcomes.pool 2 ["2026-07-14"] = some [⟨"2026-07-14", 1, 2, 1⟩] := by
  decide +kernel

end TradingBridge.Orderflow.Research.Sweep
