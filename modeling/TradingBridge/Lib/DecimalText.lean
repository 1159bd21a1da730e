import Mathlib

/-!
# Numbers as decimal text

Each is written by a function with a reader as its left inverse; so a text is written for one number
only.
-/

namespace DecimalText

open List

def digits (n : ℕ) : List Char := Nat.toDigits 10 n

/-- `n` with zeros in front, up to `k` digits. -/
def pad (k n : ℕ) : List Char := List.replicate (k - (digits n).length) '0' ++ digits n

def value (l : List Char) : ℕ := Nat.ofDigitChars 10 l 0

@[simp] theorem value_digits (n : ℕ) : value (digits n) = n :=
  Nat.ofDigitChars_toDigits (by decide) (by decide)

@[simp] theorem value_pad (k n : ℕ) : value (pad k n) = n := by
  unfold value pad
  rw [Nat.ofDigitChars_append, Nat.ofDigitChars_replicate_zero, Nat.mul_zero]
  exact value_digits n

theorem isDigit_digits {n : ℕ} {c : Char} (h : c ∈ digits n) : c.isDigit = true :=
  Nat.isDigit_of_mem_toDigits (by decide) (by decide) h

theorem isDigit_pad {k n : ℕ} {c : Char} (h : c ∈ pad k n) : c.isDigit = true := by
  rcases mem_append.1 h with h | h
  · rw [eq_of_mem_replicate h]
    decide
  · exact isDigit_digits h

theorem digits_ne_nil (n : ℕ) : digits n ≠ [] := Nat.toDigits_ne_nil

theorem length_pad {k n : ℕ} (hk : 0 < k) (h : n < 10 ^ k) : (pad k n).length = k := by
  have hle : (digits n).length ≤ k := (Nat.length_toDigits_le_iff (by decide) hk).2 h
  simp only [pad, length_append, length_replicate]
  omega

def intText (z : ℤ) : List Char := if z < 0 then '-' :: digits z.natAbs else digits z.natAbs

theorem digits_ne_minus (n : ℕ) (l : List Char) : digits n ≠ '-' :: l := by
  intro h
  have hdigit : ('-' : Char).isDigit = true :=
    isDigit_digits (by rw [h]; exact mem_cons_self ..)
  exact absurd hdigit (by decide)

section FixedPoint

variable {k : ℕ}

/-- `u` units of the last of `k` places. -/
def fixedText (k : ℕ) (u : ℤ) : List Char :=
  (if u < 0 then ['-'] else [])
    ++ (digits (u.natAbs / 10 ^ k) ++ '.' :: pad k (u.natAbs % 10 ^ k))

def readNatFixed (k : ℕ) (l : List Char) : Option ℕ :=
  match l.dropWhile Char.isDigit with
  | '.' :: frac =>
    if frac.length = k ∧ frac.all Char.isDigit = true then
      some (value (l.takeWhile Char.isDigit) * 10 ^ k + value frac)
    else none
  | _ => none

def readFixed (k : ℕ) : List Char → Option ℤ
  | '-' :: l => Option.map (fun n : ℕ => -(n : ℤ)) (readNatFixed k l)
  | l => Option.map (fun n : ℕ => (n : ℤ)) (readNatFixed k l)

theorem readNatFixed_text (hk : 0 < k) (n : ℕ) :
    readNatFixed k (digits (n / 10 ^ k) ++ '.' :: pad k (n % 10 ^ k)) = some n := by
  have hdot : ('.' : Char).isDigit = false := by decide
  have htake : (digits (n / 10 ^ k) ++ '.' :: pad k (n % 10 ^ k)).takeWhile Char.isDigit
      = digits (n / 10 ^ k) := by
    rw [takeWhile_append_of_pos fun c hc => isDigit_digits hc,
      takeWhile_cons_of_neg (by rw [hdot]; decide), append_nil]
  have hdrop : (digits (n / 10 ^ k) ++ '.' :: pad k (n % 10 ^ k)).dropWhile Char.isDigit
      = '.' :: pad k (n % 10 ^ k) := by
    rw [dropWhile_append_of_pos fun c hc => isDigit_digits hc,
      dropWhile_cons_of_neg (by rw [hdot]; decide)]
  have hlength : (pad k (n % 10 ^ k)).length = k :=
    length_pad hk (Nat.mod_lt _ (Nat.pow_pos (by decide)))
  have hall : (pad k (n % 10 ^ k)).all Char.isDigit = true :=
    all_eq_true.2 fun c hc => isDigit_pad hc
  unfold readNatFixed
  rw [hdrop, htake]
  simp only [hlength, hall, and_self, if_true, value_digits, value_pad]
  rw [Nat.div_add_mod']

theorem readFixed_of_digits (n : ℕ) (l : List Char) : readFixed k (digits n ++ l)
      = Option.map (fun m : ℕ => (m : ℤ)) (readNatFixed k (digits n ++ l)) := by
  unfold readFixed
  split
  · rename_i rest h
    obtain ⟨c, cs, hc⟩ := exists_cons_of_ne_nil (digits_ne_nil n)
    rw [hc] at h
    obtain ⟨rfl, -⟩ := cons.inj h
    exact absurd hc (digits_ne_minus n cs)
  · rfl

theorem readFixed_fixedText (hk : 0 < k) (u : ℤ) : readFixed k (fixedText k u) = some u := by
  unfold fixedText
  split_ifs with h
  · rw [singleton_append, readFixed, readNatFixed_text hk, Option.map_some, Option.some.injEq]
    omega
  · rw [nil_append, readFixed_of_digits, readNatFixed_text hk, Option.map_some,
      Option.some.injEq]
    omega

end FixedPoint

theorem isDigit_bounds {c : Char} (h : c.isDigit = true) : 48 ≤ c.toNat ∧ c.toNat ≤ 57 := by
  simp only [Char.isDigit, Bool.and_eq_true, decide_eq_true_eq] at h
  exact h

theorem ofDigitChars_lt {l l' : List Char} {a b : ℕ} (hlen : l.length = l'.length)
    (hl : ∀ c ∈ l, c.isDigit = true) (h : a < b) :
    Nat.ofDigitChars 10 l a < Nat.ofDigitChars 10 l' b := by
  induction l generalizing l' a b with
  | nil =>
    rw [length_eq_zero_iff.1 hlen.symm]
    exact h
  | cons c cs ih =>
    obtain _ | ⟨c', cs'⟩ := l'
    · cases hlen
    · have hc := isDigit_bounds (hl c mem_cons_self)
      rw [Nat.ofDigitChars_cons, Nat.ofDigitChars_cons]
      refine ih (Nat.succ.inj hlen) (fun d hd => hl d (mem_cons_of_mem _ hd)) ?_
      show 10 * a + (c.toNat - 48) < 10 * b + (c'.toNat - 48)
      omega

theorem ofDigitChars_lt_of_lt {l l' : List Char} (hlen : l.length = l'.length)
    (hl : ∀ c ∈ l, c.isDigit = true) (h : l < l') (a : ℕ) :
    Nat.ofDigitChars 10 l a < Nat.ofDigitChars 10 l' a := by
  induction l generalizing l' a with
  | nil =>
    rw [length_eq_zero_iff.1 hlen.symm] at h
    exact absurd h (lt_irrefl _)
  | cons c cs ih =>
    obtain _ | ⟨c', cs'⟩ := l'
    · cases hlen
    · have htail := fun d hd => hl d (mem_cons_of_mem c hd)
      rw [Nat.ofDigitChars_cons, Nat.ofDigitChars_cons]
      rcases cons_lt_cons_iff.1 h with hlt | ⟨rfl, hlt⟩
      · refine ofDigitChars_lt (Nat.succ.inj hlen) htail ?_
        have hc := isDigit_bounds (hl c mem_cons_self)
        have hcc : c.toNat < c'.toNat := hlt
        show 10 * a + (c.toNat - 48) < 10 * a + (c'.toNat - 48)
        omega
      · exact ih (Nat.succ.inj hlen) htail hlt _

theorem pad_lt_pad {k m n : ℕ} (hk : 0 < k) (hmn : m < n) (hn : n < 10 ^ k) :
    pad k m < pad k n := by
  by_contra hnot
  have hlen : (pad k n).length = (pad k m).length := by
    rw [length_pad hk hn, length_pad hk (hmn.trans hn)]
  rcases lt_or_eq_of_le (not_lt.1 hnot) with hlt | heq
  · have h : value (pad k n) < value (pad k m) :=
      ofDigitChars_lt_of_lt hlen (fun _ => isDigit_pad) hlt 0
    rw [value_pad, value_pad] at h
    omega
  · have h := congrArg value heq
    rw [value_pad, value_pad] at h
    omega

theorem pad_injective (k : ℕ) : Function.Injective (pad k) :=
  Function.LeftInverse.injective (value_pad k)

end DecimalText
