import Mathlib

/-!
# Merging sorted inputs

`mergeAll` takes the smallest head again and again, at equal keys that of the earlier input. It can
be cut: where every item of one part of the inputs is below every item of the other, the merge is
that of the first part followed by that of the second.
-/

namespace SortedMerge

open List

variable {κ α : Type*} [LinearOrder κ]

def popMin : List (List (κ × α)) → Option ((κ × α) × List (List (κ × α)))
  | [] => none
  | [] :: ls => (popMin ls).map fun r => (r.1, [] :: r.2)
  | (x :: xs) :: ls =>
    match popMin ls with
    | none => some (x, xs :: ls)
    | some r => if x.1 ≤ r.1.1 then some (x, xs :: ls) else some (r.1, (x :: xs) :: r.2)

def mergeFrom : ℕ → List (List (κ × α)) → List (κ × α)
  | 0, _ => []
  | n + 1, ls =>
    match popMin ls with
    | none => []
    | some r => r.1 :: mergeFrom n r.2

def mergeAll (ls : List (List (κ × α))) : List (κ × α) := mergeFrom ls.flatten.length ls

section Pop

variable {ls ls' : List (List (κ × α))} {e : κ × α}

theorem popMin_eq_none : popMin ls = none ↔ ls.flatten = [] := by
  induction ls with
  | nil => exact ⟨fun _ => rfl, fun _ => rfl⟩
  | cons l ls ih =>
    cases l with
    | nil => rw [popMin, Option.map_eq_none_iff, ih, flatten_cons, nil_append]
    | cons x xs =>
      constructor
      · intro h
        rw [popMin] at h
        split at h
        · cases h
        · split_ifs at h
      · intro h
        cases h

/-- What is popped is the least head, and only its own input gets shorter. -/
theorem popMin_spec (h : popMin ls = some (e, ls')) :
    ∃ before l after, ls = before ++ (e :: l) :: after ∧ ls' = before ++ l :: after
      ∧ ∀ m ∈ ls, ∀ x ∈ m.head?, e.1 ≤ x.1 := by
  induction ls generalizing e ls' with
  | nil => cases h
  | cons m ls ih =>
    cases m with
    | nil =>
      rw [popMin, Option.map_eq_some_iff] at h
      obtain ⟨⟨e', rest⟩, hr, heq⟩ := h
      cases heq
      obtain ⟨before, l, after, rfl, rfl, hle⟩ := ih hr
      exact ⟨[] :: before, l, after, rfl, rfl, forall_mem_cons.2 ⟨by simp, hle⟩⟩
    | cons x xs =>
      rw [popMin] at h
      split at h
      · rename_i hnone
        cases h
        have hempty := flatten_eq_nil_iff.1 (popMin_eq_none.1 hnone)
        exact ⟨[], xs, ls, rfl, rfl,
          forall_mem_cons.2 ⟨by simp, fun m hm => by simp [hempty m hm]⟩⟩
      · rename_i r hr
        obtain ⟨before, l, after, hls, hrest, hle⟩ := ih hr
        split_ifs at h with hx
        · cases h
          exact ⟨[], xs, ls, rfl, rfl,
            forall_mem_cons.2 ⟨by simp, fun m hm y hy => hx.trans (hle m hm y hy)⟩⟩
        · cases h
          exact ⟨(x :: xs) :: before, l, after, congrArg _ hls, congrArg _ hrest,
            forall_mem_cons.2 ⟨by simpa using (lt_of_not_ge hx).le, hle⟩⟩

theorem popMin_perm (h : popMin ls = some (e, ls')) : ls.flatten.Perm (e :: ls'.flatten) := by
  obtain ⟨before, l, after, rfl, rfl, -⟩ := popMin_spec h
  simp

theorem popMin_length (h : popMin ls = some (e, ls')) : ls'.length = ls.length := by
  obtain ⟨before, l, after, rfl, rfl, -⟩ := popMin_spec h
  simp

theorem popMin_le (hsorted : ∀ l ∈ ls, l.Pairwise fun a b => a.1 ≤ b.1)
    (h : popMin ls = some (e, ls')) : ∀ x ∈ ls.flatten, e.1 ≤ x.1 := by
  obtain ⟨-, -, -, -, -, hle⟩ := popMin_spec h
  intro x hx
  obtain ⟨m, hm, hx⟩ := mem_flatten.1 hx
  obtain _ | ⟨y, ys⟩ := m
  · cases hx
  have hy := hle _ hm y rfl
  rcases mem_cons.1 hx with rfl | hx
  · exact hy
  · exact hy.trans ((pairwise_cons.1 (hsorted _ hm)).1 x hx)

theorem popMin_sorted (hsorted : ∀ l ∈ ls, l.Pairwise fun a b => a.1 ≤ b.1)
    (h : popMin ls = some (e, ls')) : ∀ l ∈ ls', l.Pairwise fun a b => a.1 ≤ b.1 := by
  obtain ⟨before, l, after, rfl, rfl, -⟩ := popMin_spec h
  simp only [mem_append, mem_cons, or_imp, forall_and, forall_eq] at hsorted ⊢
  exact ⟨hsorted.1, (pairwise_cons.1 hsorted.2.1).2, hsorted.2.2⟩

end Pop

section Merge

variable {ls : List (List (κ × α))}

theorem mergeFrom_perm : ∀ (n : ℕ) (ls : List (List (κ × α))), ls.flatten.length ≤ n →
    (mergeFrom n ls).Perm ls.flatten
  | 0, ls, h => by
    rw [length_eq_zero_iff.1 (Nat.le_zero.1 h)]
    exact List.Perm.refl _
  | n + 1, ls, h => by
    rw [mergeFrom]
    split
    · rename_i hnone
      rw [popMin_eq_none.1 hnone]
    · rename_i r hr
      have hperm := popMin_perm hr
      have hlen := hperm.length_eq
      rw [length_cons] at hlen
      exact ((mergeFrom_perm n r.2 (by omega)).cons _).trans hperm.symm

theorem mergeAll_perm (ls : List (List (κ × α))) : (mergeAll ls).Perm ls.flatten :=
  mergeFrom_perm _ ls le_rfl

theorem mergeFrom_sorted : ∀ (n : ℕ) (ls : List (List (κ × α))), ls.flatten.length ≤ n →
    (∀ l ∈ ls, l.Pairwise fun a b => a.1 ≤ b.1) →
    (mergeFrom n ls).Pairwise fun a b => a.1 ≤ b.1
  | 0, _, _, _ => List.Pairwise.nil
  | n + 1, ls, h, hsorted => by
    rw [mergeFrom]
    split
    · exact List.Pairwise.nil
    · rename_i r hr
      have hperm := popMin_perm hr
      have hlen := hperm.length_eq
      rw [length_cons] at hlen
      refine pairwise_cons.2 ⟨fun x hx => ?_,
        mergeFrom_sorted n r.2 (by omega) (popMin_sorted hsorted hr)⟩
      refine popMin_le hsorted hr x (hperm.mem_iff.2 (mem_cons_of_mem _ ?_))
      exact (mergeFrom_perm n r.2 (by omega)).mem_iff.1 hx

theorem mergeAll_sorted (hsorted : ∀ l ∈ ls, l.Pairwise fun a b => a.1 ≤ b.1) :
    (mergeAll ls).Pairwise fun a b => a.1 ≤ b.1 :=
  mergeFrom_sorted _ ls le_rfl hsorted

theorem mergeAll_pop {e : κ × α} {ls' : List (List (κ × α))} (h : popMin ls = some (e, ls')) :
    mergeAll ls = e :: mergeAll ls' := by
  have hlen := (popMin_perm h).length_eq
  rw [length_cons] at hlen
  rw [mergeAll, hlen, mergeFrom, h]
  rfl

theorem mergeAll_of_empty (h : ls.flatten = []) : mergeAll ls = [] := by
  rw [mergeAll, h]
  rfl

end Merge

section Cut

omit [LinearOrder κ] in
theorem zipWith_append_of_empty {as bs : List (List (κ × α))} (hlen : as.length = bs.length)
    (h : as.flatten = []) : List.zipWith (· ++ ·) as bs = bs := by
  induction as generalizing bs with
  | nil =>
    rw [length_eq_zero_iff.1 hlen.symm]
    rfl
  | cons a as ih =>
    obtain _ | ⟨b, bs⟩ := bs
    · cases hlen
    · obtain ⟨rfl, has⟩ := append_eq_nil_iff.1 h
      rw [zipWith_cons_cons, ih (Nat.succ.inj hlen) has, nil_append]

theorem popMin_append {as bs : List (List (κ × α))} (hlen : as.length = bs.length)
    (hlt : ∀ a ∈ as.flatten, ∀ b ∈ bs.flatten, a.1 < b.1) :
    popMin (List.zipWith (· ++ ·) as bs) =
      match popMin as with
      | none => popMin bs
      | some r => some (r.1, List.zipWith (· ++ ·) r.2 bs) := by
  induction as generalizing bs with
  | nil =>
    rw [length_eq_zero_iff.1 hlen.symm]
    rfl
  | cons a as ih =>
    obtain _ | ⟨b, bs⟩ := bs
    · cases hlen
    have ih' := ih (Nat.succ.inj hlen) fun x hx y hy =>
      hlt x (mem_append_right _ hx) y (mem_append_right _ hy)
    rw [zipWith_cons_cons]
    cases a with
    | nil =>
      rw [nil_append]
      cases b with
      | nil =>
        simp only [popMin, ih']
        cases popMin as with
        | none => rfl
        | some r => rfl
      | cons y ys =>
        simp only [popMin, ih']
        cases has : popMin as with
        | none =>
          rw [zipWith_append_of_empty (Nat.succ.inj hlen) (popMin_eq_none.1 has)]
          rfl
        | some r =>
          have hmem : r.1 ∈ as.flatten := (popMin_perm has).mem_iff.2 mem_cons_self
          have hxy : r.1.1 < y.1 :=
            hlt r.1 (mem_append_right _ hmem) y mem_cons_self
          simp only [if_neg hxy.not_ge]
          rfl
    | cons x xs =>
      rw [cons_append]
      simp only [popMin, ih']
      cases has : popMin as with
      | none =>
        cases hbs : popMin bs with
        | none => rfl
        | some r =>
          have hmem : r.1 ∈ bs.flatten := (popMin_perm hbs).mem_iff.2 mem_cons_self
          have hxy : x.1 < r.1.1 :=
            hlt x mem_cons_self r.1 (mem_append_right _ hmem)
          simp only [if_pos hxy.le]
          rfl
      | some r =>
        dsimp only
        split_ifs <;> rfl

/-- The merge of inputs that can be cut is that of the lower parts, then of the upper. -/
theorem mergeAll_append {as bs : List (List (κ × α))} (hlen : as.length = bs.length)
    (hlt : ∀ a ∈ as.flatten, ∀ b ∈ bs.flatten, a.1 < b.1) :
    mergeAll (List.zipWith (· ++ ·) as bs) = mergeAll as ++ mergeAll bs := by
  -- Induction on the number of items below the cut.
  induction hn : as.flatten.length generalizing as with
  | zero =>
    have hnil : as.flatten = [] := length_eq_zero_iff.1 hn
    rw [zipWith_append_of_empty hlen hnil, mergeAll_of_empty hnil, nil_append]
  | succ n ih =>
    have hpop := popMin_append hlen hlt
    cases has : popMin as with
    | none =>
      rw [popMin_eq_none.1 has] at hn
      cases hn
    | some r =>
      rw [has] at hpop
      have hperm := popMin_perm has
      have hcount := hperm.length_eq
      rw [length_cons] at hcount
      rw [mergeAll_pop hpop, mergeAll_pop has, cons_append,
        ih ((popMin_length has).trans hlen)
          (fun a ha b hb => hlt a (hperm.mem_iff.2 (mem_cons_of_mem _ ha)) b hb) (by omega)]

end Cut

def nonempty (ls : List (List (κ × α))) : List (List (κ × α)) := ls.filter fun l => !l.isEmpty

theorem popMin_nonempty (ls : List (List (κ × α))) :
    (popMin (nonempty ls)).map (fun r => (r.1, nonempty r.2)) =
      (popMin ls).map fun r => (r.1, nonempty r.2) := by
  induction ls with
  | nil => rfl
  | cons l ls ih =>
    cases l with
    | nil =>
      rw [popMin, Option.map_map]
      exact ih
    | cons x xs =>
      have hcons : nonempty ((x :: xs) :: ls) = (x :: xs) :: nonempty ls := rfl
      have hidem : nonempty (nonempty ls) = nonempty ls := by
        simp [nonempty]
      have hpush : ∀ l : List (κ × α), nonempty (l :: nonempty ls) = nonempty (l :: ls) := by
        intro l
        have happ : ∀ ms : List (List (κ × α)), nonempty (l :: ms) = nonempty [l] ++ nonempty ms :=
          fun ms => filter_append [l] ms
        rw [happ (nonempty ls), happ ls, hidem]
      rw [hcons, popMin, popMin]
      cases h : popMin ls with
      | none =>
        rw [h, Option.map_none, Option.map_eq_none_iff] at ih
        simp [ih, hpush]
      | some r =>
        rw [h, Option.map_some, Option.map_eq_some_iff] at ih
        obtain ⟨r', hr', heq⟩ := ih
        simp only [Prod.mk.injEq] at heq
        simp only [hr', heq.1]
        split_ifs
        · simp [hpush]
        · have hr : nonempty ((x :: xs) :: r'.2) = nonempty ((x :: xs) :: r.2) :=
            congrArg ((x :: xs) :: ·) heq.2
          simp [hr]

theorem mergeAll_nonempty (ls : List (List (κ × α))) : mergeAll (nonempty ls) = mergeAll ls := by
  induction hn : ls.flatten.length using Nat.strong_induction_on generalizing ls with
  | _ n ih =>
    have hpop := popMin_nonempty ls
    cases h : popMin ls with
    | none =>
      rw [h, Option.map_none, Option.map_eq_none_iff] at hpop
      rw [mergeAll_of_empty (popMin_eq_none.1 h), mergeAll_of_empty (popMin_eq_none.1 hpop)]
    | some r =>
      rw [h, Option.map_some, Option.map_eq_some_iff] at hpop
      obtain ⟨r', hr', heq⟩ := hpop
      simp only [Prod.mk.injEq] at heq
      have hlen := (popMin_perm h).length_eq
      have hlen' := (popMin_perm hr').length_eq
      have hfewer : (nonempty ls).flatten.length = ls.flatten.length := by
        simp [nonempty, flatten_filter_not_isEmpty]
      rw [length_cons] at hlen hlen'
      rw [mergeAll_pop h, mergeAll_pop hr', heq.1, ← ih _ (by omega) r.2 rfl,
        ← ih _ (by omega) r'.2 rfl, heq.2]

end SortedMerge
