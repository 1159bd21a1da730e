import Mathlib

/-!
# Exact fits

Items are taken off the front of a list until their sizes add up to a given amount.
-/

namespace ExactFit

open List

variable {α β : Type*} {ok : α → Bool} {size : α → ℤ}

/-- The items at the front whose sizes add up to the amount. -/
def take (ok : α → Bool) (size : α → ℤ) : ℤ → List α → Option (List α)
  | _, [] => none
  | r, a :: l =>
    if ok a = false then none
    else if size a = r then some [a]
    else if r < size a then none
    else (take ok size (r - size a) l).map (a :: ·)

theorem take_eq_some : ∀ {r : ℤ} {l e : List α}, take ok size r l = some e →
    e <+: l ∧ (∀ a ∈ e, ok a = true) ∧ (e.map size).sum = r
  | r, a :: l, e, h => by
    unfold take at h
    split_ifs at h with hok hclose hlarge
    · obtain rfl := Option.some.inj h
      exact ⟨⟨l, rfl⟩, by simpa using hok, by simpa using hclose⟩
    · obtain ⟨e, he, rfl⟩ := Option.map_eq_some_iff.1 h
      obtain ⟨hpre, hall, hsum⟩ := take_eq_some he
      refine ⟨(prefix_cons_inj a).2 hpre, by simpa using ⟨by simpa using hok, hall⟩, ?_⟩
      rw [map_cons, sum_cons]
      omega

variable (ok size) in
theorem take_cons (r : ℤ) (a : α) :
    ((ok a = false ∨ r < size a) ∧ ∀ l, take ok size r (a :: l) = none) ∨
      (ok a = true ∧ size a = r ∧ ∀ l, take ok size r (a :: l) = some [a]) ∨
      ok a = true ∧ size a < r ∧
        ∀ l, take ok size r (a :: l) = (take ok size (r - size a) l).map (a :: ·) := by
  simp only [take]
  split_ifs with hok hclose hlarge
  · exact .inl ⟨.inl hok, fun _ => rfl⟩
  · exact .inr (.inl ⟨by simpa using hok, hclose, fun _ => rfl⟩)
  · exact .inl ⟨.inr hlarge, fun _ => rfl⟩
  · exact .inr (.inr ⟨by simpa using hok, by omega, fun _ => rfl⟩)

theorem take_cons_eq_none {r : ℤ} {a : α} {l : List α} (h : ok a = false ∨ r < size a) :
    take ok size r (a :: l) = none := by
  rcases take_cons ok size r a with ⟨-, ht⟩ | ⟨hok, hclose, -⟩ | ⟨hok, hfit, -⟩
  · exact ht l
  · exact absurd h (by simp [hok, hclose])
  · exact absurd h (by simp [hok, hfit.le])

section Positive

variable (hpos : ∀ a, 0 < size a) {r : ℤ} {l q : List α} {x y : α}

include hpos

variable (ok) in
theorem take_append : ∀ (l : List α) {r : ℤ}, 0 < r →
    (((∃ a ∈ l, ok a = false) ∨ r ≤ (l.map size).sum) ∧
        ∀ t, take ok size r (l ++ t) = take ok size r l) ∨
      (∀ a ∈ l, ok a = true) ∧ (l.map size).sum < r ∧
        ∀ t, take ok size r (l ++ t) = (take ok size (r - (l.map size).sum) t).map (l ++ ·)
  | [], r, hr => .inr ⟨by simp, hr, fun t => by simp⟩
  | a :: l, r, hr => by
    simp only [List.cons_append, take, List.map_cons, List.sum_cons, List.mem_cons,
      exists_eq_or_imp, forall_eq_or_imp]
    split_ifs with hok hclose hlarge
    · exact .inl ⟨.inl (.inl hok), fun t => rfl⟩
    · have hsum : 0 ≤ (l.map size).sum := List.sum_nonneg (by simpa using fun b _ => (hpos b).le)
      exact .inl ⟨.inr (by omega), fun t => rfl⟩
    · have hsum : 0 ≤ (l.map size).sum := List.sum_nonneg (by simpa using fun b _ => (hpos b).le)
      exact .inl ⟨.inr (by omega), fun t => rfl⟩
    · rcases take_append l (show 0 < r - size a by omega) with ⟨hstop, ht⟩ | ⟨hall, hlt, ht⟩
      · refine .inl ⟨hstop.imp .inr fun h => by omega, fun t => ?_⟩
        rw [ht]
      · refine .inr ⟨⟨by simpa using hok, hall⟩, by omega, fun t => ?_⟩
        rw [ht, Option.map_map, Int.sub_sub]
        rfl

theorem take_eq_none (h : (l.map size).sum < r) : take ok size r l = none := by
  rw [Option.eq_none_iff_forall_ne_some]
  intro e he
  obtain ⟨⟨t, rfl⟩, -, hsum⟩ := take_eq_some he
  have ht : 0 ≤ (t.map size).sum := sum_nonneg (by simpa using fun b _ => (hpos b).le)
  rw [map_append, sum_append] at h
  omega

theorem take_concat (hr : 0 < r) : take ok size r (l ++ [x]) =
    if (∀ a ∈ l ++ [x], ok a = true) ∧ ((l ++ [x]).map size).sum = r then some (l ++ [x])
    else take ok size r l := by
  have hx := hpos x
  have htotal : ((l ++ [x]).map size).sum = (l.map size).sum + size x := by simp
  rcases take_append ok hpos l hr with ⟨hstop, ht⟩ | ⟨hall, hlt, ht⟩
  · rw [if_neg, ht]
    rintro ⟨hok, hsum⟩
    rcases hstop with ⟨a, ha, hbad⟩ | hle
    · simp [hok a (mem_append_left [x] ha)] at hbad
    · omega
  · rw [ht, take_eq_none hpos hlt]
    rcases take_cons ok size (r - (l.map size).sum) x with
      ⟨hbad, hnone⟩ | ⟨hok, hclose, hsome⟩ | ⟨hok, hfit, hrest⟩
    · rw [hnone, if_neg]
      · rfl
      · rintro ⟨hall', hsum⟩
        rcases hbad with hbad | hbad
        · simp [hall' x (by simp)] at hbad
        · omega
    · have hall' : ∀ a ∈ l ++ [x], ok a = true := by
        intro a ha
        rcases mem_append.1 ha with ha | ha
        · exact hall a ha
        · rw [mem_singleton.1 ha, hok]
      rw [hsome, if_pos ⟨hall', by omega⟩]
      rfl
    · rw [hrest, if_neg (by omega)]
      simp [take]

/-- Two neighbours may change places exactly if either may be the last item alike. -/
theorem take_swap_iff (hr : 0 < r) {v : List α → β} {no : β}
    (hv : ∀ e e' : List α, e.Perm e' → v e = v e') :
    (take ok size r (l ++ x :: y :: q)).elim no v = (take ok size r (l ++ y :: x :: q)).elim no v ↔
      (take ok size r (l ++ [x])).elim no v = (take ok size r (l ++ [y])).elim no v := by
  have hx := hpos x
  have hy := hpos y
  rcases take_append ok hpos l hr with ⟨-, ht⟩ | ⟨-, -, ht⟩
  · simp [ht]
  simp only [ht]
  generalize r - (l.map size).sum = s
  rcases take_cons ok size s x with ⟨hbad, hxs⟩ | ⟨-, hclose, hxs⟩ |
    ⟨hok, hfit, hxs⟩ <;>
  rcases take_cons ok size s y with ⟨hbad', hys⟩ | ⟨-, hclose', hys⟩ |
    ⟨hok', hfit', hys⟩ <;>
  simp only [hxs, hys]
  -- the one that is left over no longer fits once the other was taken
  · rw [take_cons_eq_none (hbad.imp_right fun h => by omega)]
    simp [take]
  · rw [take_cons_eq_none (.inr (by omega))]
    simp [take]
  · rw [take_cons_eq_none (hbad'.imp_right fun h => by omega)]
    simp [take]
  · rw [take_cons_eq_none (.inr (by omega))]
    simp [take]
  · have hswap : ∀ e : List α, v (l ++ x :: y :: e) = v (l ++ y :: x :: e) := fun e =>
      hv _ _ ((List.Perm.swap y x e).append_left l)
    have hclose : size x = s - size y ↔ size y = s - size x := by omega
    have hlarge : s - size y < size x ↔ s - size x < size y := by omega
    simp only [take, hok, hok', hclose, hlarge, sub_right_comm s (size y) (size x),
      Bool.true_eq_false, if_false, Option.map_none, iff_true]
    split_ifs
    · exact hswap []
    · rfl
    · cases take ok size (s - size x - size y) q with
      | none => rfl
      | some e => exact hswap e

end Positive

end ExactFit
