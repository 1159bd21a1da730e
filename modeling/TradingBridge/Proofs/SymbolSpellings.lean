import TradingBridge.SymbolMatch

/-!
# The spellings of a contract

The spellings a symbol is compared by, as a grammar: the two of a future, the day-stamped and the
monthly one of an option leg at a whole strike, and those of an equity. `normalizeSymbol` reads
each of them as its contract, so symbols that spell one contract match (`match_of_spells`).
-/

namespace TradingBridge.SymbolMatch

open List

/-- An option leg with a day stamp and one without count as two contracts. -/
inductive Contract
  | future (root : List Char) (year month : ℕ)
  | option (root : List Char) (year month : ℕ) (day : Option ℕ) (strike : ℕ) (call : Bool)
  | equity (root : List Char)

def legKind (call : Bool) : Kind := if call then .ce else .pe

def legText (call : Bool) : List Char := if call then ['C', 'E'] else ['P', 'E']

def Contract.identity : Contract → NormalizedSymbol
  | .future root year month => ⟨root, .fut, some year, some month, none, none⟩
  | .option root year month day strike call =>
    ⟨root, legKind call, some year, some month, day, some strike.repr.toList⟩
  | .equity root => ⟨root, .eq, none, none, none, none⟩

def IsDigits (n : ℕ) (cs : List Char) : Prop := cs.length = n ∧ cs.all Char.isDigit = true

/-- A whole strike, with or without a fraction of zeros. -/
inductive WholeStrike : List Char → ℕ → Prop
  | whole {cs : List Char} (h : isNumber cs = true) : WholeStrike cs (number cs)
  | zeros {cs : List Char} (h : isNumber cs = true) (k : ℕ) :
    WholeStrike (cs ++ '.' :: List.replicate (k + 1) '0') (number cs)

inductive Spelled : List Char → Contract → Prop
  | canonicalFut {root mon year : List Char} {month : ℕ} (hroot : isRoot root = true)
    (hmon : monthOf mon = some month) (hyear : IsDigits 4 year) :
    Spelled (['-'].intercalate [root, mon ++ year, ['F', 'U', 'T']])
      (.future root (number year) month)
  | compactFut {root yy mon : List Char} {month : ℕ} (hroot : isRoot root = true)
    (hyear : IsDigits 2 yy) (hmon : monthOf mon = some month) :
    Spelled (root ++ yy ++ mon ++ ['F', 'U', 'T']) (.future root (2000 + number yy) month)
  | option {root day mon year strike : List Char} {month n : ℕ} {call : Bool}
    (hroot : isRoot root = true) (hday : IsDigits 1 day ∨ IsDigits 2 day)
    (hmon : monthOf mon = some month) (hyear : IsDigits 4 year) (hstrike : WholeStrike strike n) :
    Spelled (['-'].intercalate [root, day ++ (mon ++ year), strike, legText call])
      (.option root (number year) month (some (number day)) n call)
  | optionMonthly {root mon year strike : List Char} {month n : ℕ} {call : Bool}
    (hroot : isRoot root = true) (hmon : monthOf mon = some month) (hyear : IsDigits 4 year)
    (hstrike : WholeStrike strike n) :
    Spelled (['-'].intercalate [root, mon ++ year, strike, legText call])
      (.option root (number year) month none n call)
  | equity {root : List Char} (hroot : isRoot root = true) (hnot : looksDerivative root = false) :
    Spelled root (.equity root)
  | equityEq {root : List Char} (hroot : isRoot root = true)
    (hnot : looksDerivative root = false) :
    Spelled (['-'].intercalate [root, ['E', 'Q']]) (.equity root)

/-- The symbol, up to blanks, case and its exchange, is a spelling of the contract. -/
def Spells (raw : String) (c : Contract) : Prop := Spelled (clean raw) c

section Shapes

variable {root mon year day cs : List Char} {month n : ℕ}

theorem notMem_of_all {p : Char → Bool} {x : Char} (h : cs.all p = true) (hx : p x = false) :
    x ∉ cs := by
  intro hmem
  rw [all_eq_true.1 h x hmem] at hx
  cases hx

theorem splitOn_fields {x : Char} {fields : List (List Char)} (h : fields.Forall (x ∉ ·))
    (hne : fields ≠ []) : ([x].intercalate fields).splitOn x = fields :=
  splitOn_intercalate x (forall_iff_forall_mem.1 h) hne

theorem isRoot_all (h : isRoot root = true) :
    root.all (fun c => c.isUpper || c.isDigit) = true := by
  cases root with
  | nil => cases h
  | cons c cs =>
    simp only [isRoot, Bool.and_eq_true] at h
    simp [h.1, h.2]

theorem isRoot_notMem {x : Char} (h : isRoot root = true)
    (hx : (x.isUpper || x.isDigit) = false) : x ∉ root := notMem_of_all (isRoot_all h) hx

theorem monthOf_letters (h : monthOf mon = some month) :
    ∃ a b c, mon = [a, b, c] ∧ [a, b, c].all Char.isUpper = true := by
  obtain ⟨i, hi, -⟩ := Option.map_eq_some_iff.1 h
  obtain ⟨hlt, hmon, -⟩ := idxOf?_eq_some_iff.1 hi
  have hmem : mon ∈ months := hmon ▸ getElem_mem hlt
  have hall : ∀ mon ∈ months, mon.length = 3 ∧ mon.all Char.isUpper = true := by decide +kernel
  obtain ⟨hlen, hupper⟩ := hall mon hmem
  obtain ⟨a, b, c, rfl⟩ := length_eq_three.1 hlen
  exact ⟨a, b, c, rfl, hupper⟩

theorem monthYear_spelled (hmon : monthOf mon = some month) (hyear : IsDigits 4 year) :
    monthYear (mon ++ year) = some (mon, year) := by
  obtain ⟨a, b, c, rfl, hupper⟩ := monthOf_letters hmon
  obtain ⟨y₁, y₂, y₃, y₄, rfl⟩ := length_eq_four.1 hyear.1
  simp [monthYear, hupper, hyear.2]

theorem isUpper_not_isDigit {c : Char} (h : c.isUpper = true) : c.isDigit = false := by
  rw [Char.isUpper, decide_eq_true_eq] at h
  have hle' := UInt32.le_iff_toNat_le.1 h.1
  rw [Char.isDigit, Bool.and_eq_false_iff]
  refine .inr (decide_eq_false fun hle => ?_)
  rw [UInt32.le_iff_toNat_le] at hle
  have hlower : ('A' : Char).val.toNat = 65 := rfl
  have hupper : ('9' : Char).val.toNat = 57 := rfl
  omega

theorem takeWhile_monthYear (hmon : monthOf mon = some month) (rest : List Char) :
    (mon ++ rest).takeWhile Char.isDigit = [] := by
  obtain ⟨a, b, c, rfl, hupper⟩ := monthOf_letters hmon
  simp only [all_cons, Bool.and_eq_true] at hupper
  simp [isUpper_not_isDigit hupper.1]

theorem dayMonthYear_spelled (hday : IsDigits 1 day ∨ IsDigits 2 day)
    (hmon : monthOf mon = some month) (hyear : IsDigits 4 year) :
    dayMonthYear (day ++ (mon ++ year)) = some (day, mon, year) := by
  have hall : ∀ c ∈ day, c.isDigit = true := by
    rcases hday with h | h <;> exact all_eq_true.1 h.2
  have hlen : day.length = 1 ∨ day.length = 2 := hday.imp And.left And.left
  have htake : (day ++ (mon ++ year)).takeWhile Char.isDigit = day := by
    rw [takeWhile_append_of_pos hall, takeWhile_monthYear hmon, append_nil]
  simp [dayMonthYear, htake, hlen, monthYear_spelled hmon hyear]

theorem dayMonthYear_monthly (hmon : monthOf mon = some month) :
    dayMonthYear (mon ++ year) = none := by
  unfold dayMonthYear
  rw [takeWhile_monthYear hmon]
  rfl

theorem WholeStrike.normalized {strike : List Char} (h : WholeStrike strike n) :
    isStrike strike = true ∧ normalizeStrike strike = n.repr.toList ∧ '-' ∉ strike := by
  have hdigits : ∀ {cs : List Char}, isNumber cs = true → cs.all Char.isDigit = true :=
    fun h => (Bool.and_eq_true_iff.1 h).2
  cases h with
  | whole h =>
    have hsplit : strike.splitOn '.' = [strike] :=
      splitOn_eq_singleton (notMem_of_all (hdigits h) rfl)
    exact ⟨by simp [isStrike, hsplit, h], by simp [normalizeStrike, hsplit],
      notMem_of_all (hdigits h) rfl⟩
  | @zeros cs h k =>
    have hnum : isNumber (List.replicate (k + 1) '0') = true := by
      simp [isNumber]
    have hsplit : (cs ++ '.' :: List.replicate (k + 1) '0').splitOn '.'
        = [cs, List.replicate (k + 1) '0'] := by
      have hfields : [cs, List.replicate (k + 1) '0'].Forall ('.' ∉ ·) :=
        ⟨notMem_of_all (hdigits h) rfl, notMem_of_all (hdigits hnum) rfl⟩
      simpa using splitOn_fields hfields (by simp)
    refine ⟨by simp [isStrike, hsplit, h, hnum], ?_, ?_⟩
    · simp [normalizeStrike, hsplit]
    · simp only [mem_append, mem_cons, not_or]
      exact ⟨notMem_of_all (hdigits h) rfl, by decide, notMem_of_all (hdigits hnum) rfl⟩

end Shapes

section Parse

variable {root expiry strike cs : List Char} {c c' : Contract} {n : ℕ}

theorem matchCompactFut_of_last {x : Char} (h : x ≠ 'T') (cs : List Char) :
    matchCompactFut (cs ++ [x]) = none := by
  unfold matchCompactFut
  rw [reverse_append]
  split
  · rename_i heq
    exact absurd (cons.inj heq).1 h
  · rfl

theorem matchCompactFut_of_looks (h : looksDerivative root = false) :
    matchCompactFut root = none := by
  unfold matchCompactFut
  split
  · rename_i heq
    have hsuffix : ['F', 'U', 'T'].isSuffixOf root = true := by
      rw [List.isSuffixOf, heq]
      rfl
    rw [looksDerivative, hsuffix] at h
    cases h
  · rfl

theorem dropExchange_of_notMem {exchanges : List String} (h : ':' ∉ cs) :
    dropExchange cs exchanges = cs := by
  have htake : cs.takeWhile (· ≠ ':') = cs := takeWhile_eq_self_iff.2 fun c hc =>
    decide_eq_true fun heq => h (heq ▸ hc)
  simp only [dropExchange, htake, drop_length]

theorem leg_matches (call : Bool) (hroot : isRoot root = true) (hexpiry : '-' ∉ expiry)
    (hstrike : WholeStrike strike n)
    (hcs : cs = ['-'].intercalate [root, expiry, strike, legText call]) :
    matchCanonicalFut cs = none ∧ matchCompactFut cs = none
      ∧ optionParts cs = some (root, expiry, strike, legKind call) := by
  obtain ⟨hnumber, -, hdash⟩ := hstrike.normalized
  have hsplit : cs.splitOn '-' = [root, expiry, strike, legText call] := hcs ▸ splitOn_fields
    ⟨isRoot_notMem hroot rfl, hexpiry, hdash, by cases call <;> decide⟩ (by simp)
  refine ⟨by simp [matchCanonicalFut, hsplit], ?_, ?_⟩
  · have hlast : cs = (root ++ '-' :: (expiry ++ '-' :: (strike ++ '-' ::
        (legText call).dropLast))) ++ ['E'] := by
      cases call <;> simp [hcs, legText]
    rw [hlast]
    exact matchCompactFut_of_last (by decide) _
  · simp only [optionParts, hsplit, hroot, hnumber]
    cases call <;> rfl

theorem notMem_monthYear {mon year : List Char} {month : ℕ} (hmon : monthOf mon = some month)
    (hyear : IsDigits 4 year) : '-' ∉ mon ++ year := by
  obtain ⟨a, b, c, rfl, hupper⟩ := monthOf_letters hmon
  rw [mem_append, not_or]
  exact ⟨notMem_of_all hupper rfl, notMem_of_all hyear.2 rfl⟩

theorem parse_spelled (h : Spelled cs c) : parse cs = some c.identity := by
  cases h with
  | @canonicalFut root mon year month hroot hmon hyear =>
    have hsplit : (['-'].intercalate [root, mon ++ year, ['F', 'U', 'T']]).splitOn '-'
        = [root, mon ++ year, ['F', 'U', 'T']] := splitOn_fields
      ⟨isRoot_notMem hroot rfl, notMem_monthYear hmon hyear, by decide⟩ (by simp)
    simp only [parse, matchCanonicalFut, hsplit, hroot, if_true, monthYear_spelled hmon hyear,
      Option.map_some, hmon, Contract.identity]
  | @compactFut root yy mon month hroot hyear hmon =>
    obtain ⟨a, b, c, rfl, hupper⟩ := monthOf_letters hmon
    obtain ⟨y₁, y₂, rfl⟩ := length_eq_two.1 hyear.1
    have hdash : '-' ∉ root ++ [y₁, y₂] ++ [a, b, c] ++ ['F', 'U', 'T'] := by
      simp only [mem_append, not_or]
      exact ⟨⟨⟨isRoot_notMem hroot rfl, notMem_of_all hyear.2 rfl⟩, notMem_of_all hupper rfl⟩,
        by decide⟩
    have hcanonical : matchCanonicalFut (root ++ [y₁, y₂] ++ [a, b, c] ++ ['F', 'U', 'T'])
        = none := by
      simp only [matchCanonicalFut, splitOn_eq_singleton hdash]
    have hcompact : matchCompactFut (root ++ [y₁, y₂] ++ [a, b, c] ++ ['F', 'U', 'T'])
        = some (root, [y₁, y₂], [a, b, c]) := by
      simp [matchCompactFut, hroot, hyear.2, hupper]
    simp only [parse, hcanonical, hcompact, hmon, Option.map_some, Contract.identity]
  | @option root day mon year strike month n call hroot hday hmon hyear hstrike =>
    have hdash : '-' ∉ day ++ (mon ++ year) := by
      rw [mem_append, not_or]
      refine ⟨?_, notMem_monthYear hmon hyear⟩
      rcases hday with h | h <;> exact notMem_of_all h.2 rfl
    obtain ⟨hcanonical, hcompact, hparts⟩ := leg_matches call hroot hdash hstrike rfl
    simp only [parse, hcanonical, hcompact, matchOption, hparts, Option.bind_some,
      dayMonthYear_spelled hday hmon hyear, Option.map_some, hmon, hstrike.normalized.2.1,
      Contract.identity]
  | @optionMonthly root mon year strike month n call hroot hmon hyear hstrike =>
    obtain ⟨hcanonical, hcompact, hparts⟩ :=
      leg_matches call hroot (notMem_monthYear hmon hyear) hstrike rfl
    simp only [parse, hcanonical, hcompact, matchOption, matchOptionMonthly, hparts,
      Option.bind_some, dayMonthYear_monthly hmon, monthYear_spelled hmon hyear,
      Option.map_none, Option.map_some, hmon, hstrike.normalized.2.1, Contract.identity]
  | equity hroot hnot =>
    have hsplit : cs.splitOn '-' = [cs] :=
      splitOn_eq_singleton (isRoot_notMem hroot rfl)
    simp [parse, matchCanonicalFut, hsplit, matchCompactFut_of_looks hnot, matchOption,
      matchOptionMonthly, optionParts, matchEquity,
      dropExchange_of_notMem (isRoot_notMem hroot rfl), hroot, hnot, Contract.identity]
  | @equityEq root hroot hnot =>
    have hsplit : (['-'].intercalate [root, ['E', 'Q']]).splitOn '-' = [root, ['E', 'Q']] :=
      splitOn_fields ⟨isRoot_notMem hroot rfl, by decide⟩ (by simp)
    have htext : ['-'].intercalate [root, ['E', 'Q']] = (root ++ ['-', 'E']) ++ ['Q'] := by
      simp
    have hcompact : matchCompactFut (['-'].intercalate [root, ['E', 'Q']]) = none := by
      rw [htext]
      exact matchCompactFut_of_last (by decide) _
    have hcolon : ':' ∉ ['-'].intercalate [root, ['E', 'Q']] := by
      rw [htext, mem_append, mem_append, not_or, not_or]
      exact ⟨⟨isRoot_notMem hroot rfl, by decide⟩, by decide⟩
    simp only [parse, matchCanonicalFut, hsplit, hcompact, matchOption, matchOptionMonthly,
      optionParts, Option.bind_none, matchEquity, dropExchange_of_notMem hcolon, hroot, if_true,
      hnot, Bool.false_eq_true, if_false, Contract.identity]

theorem normalize_of_spells {raw : String} (h : Spells raw c) :
    normalizeSymbol (some raw) = some c.identity := by
  have hparse := parse_spelled h
  have hne : clean raw ≠ [] := by
    intro hnil
    rw [hnil] at hparse
    cases hparse
  simp [normalizeSymbol, hne, hparse]

theorem match_of_spells {a b : String} (ha : Spells a c) (hb : Spells b c) :
    symbolsMatch (some a) (some b) = some true := by
  simp [symbolsMatch, normalize_of_spells ha, normalize_of_spells hb]

end Parse

end TradingBridge.SymbolMatch
