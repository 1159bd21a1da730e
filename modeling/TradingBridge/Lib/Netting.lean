import Mathlib

/-!
# Netting

In a book that is `Single`, with no key twice and no amount zero, an entry is its key's net, so two
such books have the same entries exactly when they net the same (`Single.mem_iff_mem`).
-/

namespace Netting

open List

variable {κ : Type*} [DecidableEq κ] {es fs : List (κ × ℤ)} {k : κ} {a : ℤ}

def net (es : List (κ × ℤ)) (k : κ) : ℤ := ((es.filter (·.1 = k)).map Prod.snd).sum

/-- No key stands twice and no amount is zero. -/
structure Single (es : List (κ × ℤ)) : Prop where
  nodup : (es.map Prod.fst).Nodup
  nonzero : ∀ e ∈ es, e.2 ≠ 0

@[simp] theorem net_nil (k : κ) : net [] k = 0 := rfl

theorem net_cons (e : κ × ℤ) (es : List (κ × ℤ)) (k : κ) :
    net (e :: es) k = (if e.1 = k then e.2 else 0) + net es k := by
  unfold net
  by_cases h : e.1 = k
  · simp [h]
  · simp [h]

theorem net_eq_zero (h : k ∉ es.map Prod.fst) : net es k = 0 := by
  have hnone : es.filter (·.1 = k) = [] := by
    refine filter_eq_nil_iff.2 fun e he hk => h ?_
    exact mem_map.2 ⟨e, he, of_decide_eq_true hk⟩
  simp [net, hnone]

theorem net_eq_mul (h : ∀ e ∈ es, e.1 = k → e.2 = a) :
    net es k = (es.map Prod.fst).count k * a := by
  induction es with
  | nil => simp
  | cons e es ih =>
    have htail := ih fun e' he' => h e' (mem_cons_of_mem _ he')
    rw [net_cons, htail, map_cons]
    by_cases hk : e.1 = k
    · rw [if_pos hk, h e (mem_cons_self ..) hk, hk, count_cons_self]
      push_cast
      ring
    · rw [if_neg hk, count_cons_of_ne hk, zero_add]

namespace Single

theorem net_of_mem (h : Single es) (hmem : (k, a) ∈ es) : net es k = a := by
  have hsame : ∀ e ∈ es, e.1 = k → e.2 = a := by
    intro e he hk
    rw [inj_on_of_nodup_map h.nodup he hmem hk]
  have hcount := count_eq_one_of_mem h.nodup (mem_map_of_mem hmem)
  rw [net_eq_mul hsame, hcount, Nat.cast_one, one_mul]

theorem mem_iff (h : Single es) : (k, a) ∈ es ↔ net es k = a ∧ a ≠ 0 := by
  constructor
  · exact fun hmem => ⟨h.net_of_mem hmem, h.nonzero _ hmem⟩
  · rintro ⟨hnet, ha⟩
    by_cases hk : k ∈ es.map Prod.fst
    · obtain ⟨⟨k', b⟩, hmem, rfl⟩ := mem_map.1 hk
      rw [h.net_of_mem hmem] at hnet
      exact hnet ▸ hmem
    · exact absurd (hnet ▸ net_eq_zero hk) ha

theorem mem_iff_mem (he : Single es) (hf : Single fs) :
    (∀ e, e ∈ es ↔ e ∈ fs) ↔ ∀ k, net es k = net fs k := by
  constructor
  · intro h k
    by_cases hk : k ∈ es.map Prod.fst
    · obtain ⟨⟨k', b⟩, hmem, rfl⟩ := mem_map.1 hk
      rw [he.net_of_mem hmem, hf.net_of_mem ((h _).1 hmem)]
    · have hk' : k ∉ fs.map Prod.fst := by
        intro hmem
        obtain ⟨e, hfe, rfl⟩ := mem_map.1 hmem
        exact hk (mem_map_of_mem ((h e).2 hfe))
      rw [net_eq_zero hk, net_eq_zero hk']
  · rintro h ⟨k, a⟩
    rw [he.mem_iff, hf.mem_iff, h k]

end Single

/-- The book's keys, each with its net, where that is not zero. -/
def nets (es : List (κ × ℤ)) : List (κ × ℤ) :=
  ((es.map Prod.fst).dedup.map fun k => (k, net es k)).filter (·.2 ≠ 0)

theorem mem_nets {e : κ × ℤ} : e ∈ nets es ↔ net es e.1 = e.2 ∧ e.2 ≠ 0 := by
  simp only [nets, mem_filter, mem_map, decide_eq_true_eq]
  constructor
  · rintro ⟨⟨k, -, rfl⟩, hne⟩
    exact ⟨rfl, hne⟩
  · rintro ⟨hnet, hne⟩
    refine ⟨⟨e.1, ?_, by rw [hnet]⟩, hne⟩
    by_contra hk
    exact hne (hnet ▸ net_eq_zero (by simpa using hk))

theorem single_nets (es : List (κ × ℤ)) : Single (nets es) := by
  refine ⟨?_, fun e he => (mem_nets.1 he).2⟩
  refine List.Nodup.sublist (filter_sublist.map Prod.fst) ?_
  simpa [Function.comp_def] using (es.map Prod.fst).nodup_dedup

theorem net_nets (es : List (κ × ℤ)) (k : κ) : net (nets es) k = net es k := by
  by_cases hk : net es k = 0
  · rw [hk]
    refine net_eq_zero fun hmem => ?_
    obtain ⟨e, he, rfl⟩ := mem_map.1 hmem
    obtain ⟨hnet, hne⟩ := mem_nets.1 he
    exact hne (hnet ▸ hk)
  · exact (single_nets es).net_of_mem (mem_nets.2 ⟨rfl, hk⟩)

/-- A book whose entries are all its nets is single. -/
theorem single_of_mem_nets (h : ∀ e ∈ es, e ∈ nets es) : Single es := by
  refine ⟨nodup_iff_count_le_one.2 fun k => ?_, fun e he => (mem_nets.1 (h e he)).2⟩
  by_contra hcount
  have hk : k ∈ es.map Prod.fst := count_pos_iff.1 (by omega)
  obtain ⟨⟨k', b⟩, hmem, rfl⟩ := mem_map.1 hk
  obtain ⟨hnet, hne⟩ := mem_nets.1 (h _ hmem)
  have hsame : ∀ e ∈ es, e.1 = k' → e.2 = net es k' := by
    rintro e he rfl
    exact (mem_nets.1 (h e he)).1.symm
  have hmul := net_eq_mul hsame
  rw [hnet] at hmul
  have hone : ((es.map Prod.fst).count k' : ℤ) = 1 := (mul_eq_right₀ hne).1 hmul.symm
  simp only at hcount
  omega

end Netting
