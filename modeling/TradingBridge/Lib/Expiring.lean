import Mathlib

/-!
# A store whose entries expire

An entry may carry the time at which it lapses, and reads as absent from then on. Of two claims on
one key the second is won only once the first has lapsed (`setNX_fst`, `get_setEx`).
-/

namespace Expiring

structure Store (κ ν : Type*) where
  slot : κ → Option (ν × Option Nat)

namespace Store

variable {κ ν : Type*}

def empty : Store κ ν := ⟨fun _ => none⟩

/-- The value of an entry that has not lapsed at `now`. -/
def live (now : Nat) : Option (ν × Option Nat) → Option ν
  | none => none
  | some (v, none) => some v
  | some (v, some t) => if now < t then some v else none

def get (s : Store κ ν) (now : Nat) (k : κ) : Option ν := live now (s.slot k)

theorem get_eq_some_iff {s : Store κ ν} {now : Nat} {k : κ} {v : ν} : s.get now k = some v ↔
    ∃ lapse, s.slot k = some (v, lapse) ∧ ∀ t, lapse = some t → now < t := by
  unfold get
  rcases s.slot k with _ | ⟨u, _ | t⟩
  · simp [live]
  · simp [live, and_assoc]
  · simp [live, and_assoc, and_comm]

theorem get_of_later {s : Store κ ν} {now later : Nat} {k : κ} {v : ν} (hle : now ≤ later)
    (h : s.get later k = some v) : s.get now k = some v := by
  obtain ⟨lapse, hslot, hlt⟩ := get_eq_some_iff.1 h
  exact get_eq_some_iff.2 ⟨lapse, hslot, fun t ht => Nat.lt_of_le_of_lt hle (hlt t ht)⟩

variable [DecidableEq κ]

def set (s : Store κ ν) (k : κ) (v : ν) : Store κ ν :=
  ⟨Function.update s.slot k (some (v, none))⟩

def setEx (s : Store κ ν) (now : Nat) (k : κ) (v : ν) (ttl : Nat) : Store κ ν :=
  ⟨Function.update s.slot k (some (v, some (now + ttl)))⟩

/-- Set if absent: `true` is a claim won. -/
def setNX (s : Store κ ν) (now : Nat) (k : κ) (v : ν) (ttl : Nat) : Bool × Store κ ν :=
  match s.get now k with
  | none => (true, s.setEx now k v ttl)
  | some _ => (false, s)

def del (s : Store κ ν) (k : κ) : Store κ ν := ⟨Function.update s.slot k none⟩

variable {s : Store κ ν} {now : Nat} {k j : κ} {v : ν} {ttl : Nat}

@[simp] theorem get_setEx (later : Nat) : (s.setEx now k v ttl).get later j =
    if j = k then (if later < now + ttl then some v else none) else s.get later j := by
  unfold setEx get
  by_cases h : j = k
  · subst h
    simp [live]
  · simp [h]

@[simp] theorem get_del : (s.del k).get now j = if j = k then none else s.get now j := by
  unfold del get
  by_cases h : j = k
  · subst h
    simp [live]
  · simp [h]

@[simp] theorem setNX_fst : (s.setNX now k v ttl).1 = (s.get now k).isNone := by
  unfold setNX
  split <;> simp [*]

theorem setNX_won (h : s.get now k = none) : s.setNX now k v ttl = (true, s.setEx now k v ttl) := by
  simp [setNX, h]

theorem setNX_lost {w : ν} (h : s.get now k = some w) : s.setNX now k v ttl = (false, s) := by
  simp [setNX, h]

theorem get_setNX_of_ne (h : j ≠ k) (later : Nat) :
    (s.setNX now k v ttl).2.get later j = s.get later j := by
  unfold setNX
  split <;> simp [h]

end Store

end Expiring
