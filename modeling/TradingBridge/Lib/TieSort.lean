import Mathlib

/-!
# Sorted lists up to ties

A function takes the same value on two sorted lists with the same elements as soon as it does not
see two neighbours with equal keys change places (`eq_of_sorted_perm`).
-/

namespace TieSort

open List

variable {α β γ : Type*} {key : α → β}

theorem map_cons_eq_map_append {a : α} {p : List α} (h : ∀ b ∈ p, key b = key a) (q : List α) :
    (p ++ a :: q).map key = (a :: (p ++ q)).map key := by
  induction p with
  | nil => rfl
  | cons b p ih =>
    have hb := h b mem_cons_self
    have hp := ih fun c hc => h c (mem_cons_of_mem b hc)
    rw [cons_append, map_cons, hp]
    simp [hb]

variable [LinearOrder β]

def Sorted (key : α → β) (l : List α) : Prop := l.Pairwise fun a b => key a ≤ key b

theorem sorted_iff_map {l : List α} : Sorted key l ↔ (l.map key).Pairwise (· ≤ ·) :=
  pairwise_map.symm

theorem Sorted.swap {pre post : List α} {x y : α} (h : Sorted key (pre ++ x :: y :: post))
    (hkey : key x = key y) : Sorted key (pre ++ y :: x :: post) := by
  rw [sorted_iff_map] at h ⊢
  simpa [hkey] using h

variable {f : List α → γ} {l₀ : List α} (hf : ∀ pre x y post, (pre ++ x :: y :: post).Perm l₀ →
  Sorted key (pre ++ x :: y :: post) → key x = key y →
  f (pre ++ x :: y :: post) = f (pre ++ y :: x :: post))

include hf

theorem eq_bubble {a : α} {q : List α} : ∀ {p pre : List α}, (∀ b ∈ p, key b = key a) →
      (pre ++ (p ++ a :: q)).Perm l₀ → Sorted key (pre ++ (p ++ a :: q)) →
      f (pre ++ (p ++ a :: q)) = f (pre ++ a :: (p ++ q))
  | [], pre, _, _, _ => rfl
  | b :: p, pre, hkey, hperm, hsort => by
    have hb := hkey b mem_cons_self
    have hp : ∀ c ∈ p, key c = key a := fun c hc => hkey c (mem_cons_of_mem b hc)
    have hassoc : pre ++ (b :: p ++ a :: q) = (pre ++ [b]) ++ (p ++ a :: q) := by simp
    have hmoved : pre ++ b :: a :: (p ++ q) = (pre ++ [b]) ++ a :: (p ++ q) := by simp
    have hperm' : (pre ++ b :: a :: (p ++ q)).Perm l₀ := by
      refine List.Perm.trans (List.Perm.append_left pre (List.Perm.cons b ?_)) hperm
      exact perm_middle.symm
    have hsort' : Sorted key (pre ++ b :: a :: (p ++ q)) := by
      rw [sorted_iff_map] at hsort ⊢
      rw [hassoc, map_append, map_cons_eq_map_append hp, ← map_append, ← hmoved] at hsort
      exact hsort
    calc f (pre ++ (b :: p ++ a :: q)) = f (pre ++ b :: a :: (p ++ q)) := by
          rw [hassoc, hmoved]
          exact eq_bubble hp (hassoc ▸ hperm) (hassoc ▸ hsort)
      _ = f (pre ++ a :: (b :: p ++ q)) := hf pre b a (p ++ q) hperm' hsort' hb

theorem eq_of_sorted_perm_append :
    ∀ (pre : List α) {l l' : List α}, l.Perm l' → (pre ++ l).Perm l₀ → Sorted key (pre ++ l) →
      Sorted key (pre ++ l') → f (pre ++ l) = f (pre ++ l')
  | pre, [], l', hperm, _, _, _ => by rw [hperm.nil_eq]
  | pre, a :: t, l', hperm, hl, hsort, hsort' => by
    obtain ⟨p, q, rfl⟩ := append_of_mem (hperm.subset mem_cons_self)
    have htail : t.Perm (p ++ q) := (hperm.trans perm_middle).cons_inv
    have hkey : ∀ b ∈ p, key b = key a := by
      intro b hb
      refine le_antisymm ?_ ?_
      · exact (pairwise_append.1 (pairwise_append.1 hsort').2.1).2.2 b hb a
          mem_cons_self
      · have hmem : b ∈ t := htail.symm.subset (mem_append_left q hb)
        exact (pairwise_cons.1 (pairwise_append.1 hsort).2.1).1 b hmem
    have hl' : (pre ++ (p ++ a :: q)).Perm l₀ := (hperm.symm.append_left pre).trans hl
    have hfront : Sorted key (pre ++ a :: (p ++ q)) := by
      rw [sorted_iff_map] at hsort' ⊢
      rw [map_append, map_cons_eq_map_append hkey, ← map_append] at hsort'
      exact hsort'
    have hassoc : ∀ r : List α, pre ++ a :: r = (pre ++ [a]) ++ r := fun r => by simp
    rw [eq_bubble hf hkey hl' hsort', hassoc t, hassoc (p ++ q)]
    exact eq_of_sorted_perm_append (pre ++ [a]) htail (hassoc t ▸ hl) (hassoc t ▸ hsort)
      (hassoc (p ++ q) ▸ hfront)

/-- A function blind to swaps of tied neighbours is the same on two sorted lists of the same
elements. -/
theorem eq_of_sorted_perm {l l' : List α} (hl : l.Perm l₀) (hl' : l'.Perm l₀) (hsort : Sorted key l)
    (hsort' : Sorted key l') : f l = f l' :=
  eq_of_sorted_perm_append hf [] (hl.trans hl'.symm) hl hsort hsort'

end TieSort
