import Mathlib

/-!
# Computations that may raise

`bind_eq_ok` takes a sequence that returned apart into its steps.
-/

namespace Fallible

universe u v

variable {ε : Type u} {α β : Type v} {x : Except ε α} {f : α → Except ε β} {a : α} {b : β}

theorem bind_eq_ok : x >>= f = .ok b ↔ ∃ a, x = .ok a ∧ f a = .ok b := by
  constructor
  · intro h
    cases x with
    | error e => cases h
    | ok a => exact ⟨a, rfl, h⟩
  · rintro ⟨a, rfl, hf⟩
    exact hf

theorem map_eq_ok {g : α → β} : x.map g = .ok b ↔ ∃ a, x = .ok a ∧ g a = b := by
  constructor
  · intro h
    cases x with
    | error e => cases h
    | ok a => exact ⟨a, rfl, Except.ok.inj h⟩
  · rintro ⟨a, rfl, rfl⟩
    rfl

theorem ite_error_eq_ok {c : Prop} [Decidable c] {e : ε} :
    (if c then .error e else x) = .ok a ↔ ¬ c ∧ x = .ok a := by
  split_ifs with h <;> simp [h]

@[simp] theorem ok_bind : (Except.ok a : Except ε α) >>= f = f a := rfl

@[simp] theorem error_bind {e : ε} : (Except.error e : Except ε α) >>= f = .error e := rfl

@[simp] theorem pure_eq_ok : (pure a : Except ε α) = .ok a := rfl

theorem mapM_eq_ok {as : List α} {bs : List β} : as.mapM f = .ok bs ↔ as.map f = bs.map .ok := by
  induction as generalizing bs with
  | nil => cases bs <;> simp
  | cons a as ih =>
    simp only [List.mapM_cons, bind_eq_ok, ih]
    cases bs <;> simp

theorem exists_of_mem_mapM {as : List α} {bs : List β} (h : as.mapM f = .ok bs) (hb : b ∈ bs) :
    ∃ a ∈ as, f a = .ok b := by
  have hmem : .ok b ∈ as.map f := mapM_eq_ok.1 h ▸ List.mem_map_of_mem hb
  exact List.mem_map.1 hmem

theorem exists_mapM_eq_ok {as : List α} :
    (∃ bs, as.mapM f = .ok bs) ↔ ∀ a ∈ as, ∃ b, f a = .ok b := by
  induction as with
  | nil => simp
  | cons a as ih =>
    simp only [List.mapM_cons, bind_eq_ok, List.forall_mem_cons, ← ih]
    simp

instance decidableExistsOk (x : Except ε α) {P : α → Prop} [∀ a, Decidable (P a)] :
    Decidable (∃ a, x = .ok a ∧ P a) :=
  match x with
  | .ok a => decidable_of_iff (P a) (by simp)
  | .error _ => isFalse (by simp)

end Fallible
