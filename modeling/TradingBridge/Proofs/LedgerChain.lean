import TradingBridge.Lib.Fallible
import TradingBridge.Lib.HashChain
import TradingBridge.TransparencyLedger

/-!
# The ledger's chain

A chain that verifies is `Intact`: the rows are numbered from one, each hashed over its own
columns and signed over the row before it. What `createDailySnapshot` stores reads back as the
payload it hashed, and an intact chain is a hash chain over the canonical texts of its payloads,
so its last signature binds all of it.
-/

namespace TradingBridge.Ledger

open CanonicalJson DecimalContext DecimalText Fallible List

def figure (u : ℤ) : String := String.ofList (fixedText 4 u)

theorem formatDecimal_units {u : ℤ} (h : |u| < 10 ^ precision) :
    formatDecimal (u / 10 ^ 4) = .ok (figure u) := by
  have hunits : (u : ℚ) / 10 ^ 4 * 10 ^ 4 = u := by norm_num
  unfold formatDecimal
  rw [hunits, roundHalfEven_intCast]
  simp only [not_le.2 h, if_false]
  rw [if_neg]
  · rfl
  · rintro ⟨hneg, rfl⟩
    norm_num at hneg

theorem formatDecimal_numeric {p : ℕ} (hp : p ≤ precision) (u : Numeric p) :
    formatDecimal u.toDecimal = .ok (figure u.val) :=
  formatDecimal_units (u.2.trans_le (pow_le_pow_right₀ (by norm_num) hp))

theorem formatOptionalDecimal_numeric {p : ℕ} (hp : p ≤ precision) (u : Option (Numeric p)) :
    formatOptionalDecimal (u.map Numeric.toDecimal) = .ok (u.map fun v => figure v.val) := by
  cases u with
  | none => rfl
  | some u =>
    rw [Option.map_some, formatOptionalDecimal, formatDecimal_numeric hp]
    rfl

theorem formatDecimal_eq_ok {q : ℚ} {text : String} (hq : 0 ≤ q ∨ IsMultiple 4 q)
    (h : formatDecimal q = .ok text) : ∃ u, text = figure u := by
  unfold formatDecimal at h
  simp only [] at h
  split_ifs at h with hlarge hneg
  · exfalso
    rcases hq with hq | ⟨z, rfl⟩
    · exact absurd hneg.1 (not_lt.2 hq)
    · have hunits : (z : ℚ) / 10 ^ 4 * 10 ^ 4 = z := by norm_num
      rw [hunits, roundHalfEven_intCast] at hneg
      obtain ⟨hneg, rfl⟩ := hneg
      norm_num at hneg
  · exact ⟨_, (Except.ok.inj h).symm⟩

theorem parseDecimal_figure (u : ℤ) : parseDecimal (figure u) = .ok u := by
  unfold parseDecimal figure
  rw [String.toList_ofList, readFixed_fixedText (by decide)]

theorem isMultiple_toDecimal {p : ℕ} (u : Numeric p) : IsMultiple 4 u.toDecimal := ⟨u.val, rfl⟩

theorem isMultiple_cumulate : ∀ {pnls : List ℚ} {total : ℚ}, IsMultiple 4 total →
    (∀ q ∈ pnls, IsMultiple 4 q) → ∀ q ∈ cumulate total pnls, IsMultiple 4 q
  | [], _, _, _ => by simp [cumulate]
  | pnl :: pnls, total, htotal, hpnls => by
    have hnext : IsMultiple 4 (decimalAdd total pnl) :=
      (htotal.add (hpnls pnl (mem_cons_self ..))).round
    intro q hq
    rcases mem_cons.1 hq with rfl | hq
    · exact hnext
    · exact isMultiple_cumulate hnext (fun r hr => hpnls r (mem_cons_of_mem _ hr)) q hq

theorem isMultiple_last {pnls : List ℚ} (h : ∀ q ∈ pnls, IsMultiple 4 q) :
    IsMultiple 4 ((cumulate 0 pnls).getLastD 0) := by
  have hall := isMultiple_cumulate (isMultiple_zero 4) h
  rcases (cumulate 0 pnls).eq_nil_or_concat with hnil | ⟨init, last, hlast⟩
  · rw [hnil]
    exact isMultiple_zero 4
  · rw [concat_eq_append] at hlast
    rw [hlast, getLastD_concat]
    exact hall last (by rw [hlast]; simp)

theorem drawdownInr_nonneg : ∀ (l : List ℚ) {acc : ℚ × ℚ}, 0 ≤ acc.2 →
    0 ≤ (l.foldl drawdownInrStep acc).2
  | [], _, h => h
  | v :: l, acc, h => by
    refine drawdownInr_nonneg l ?_
    unfold drawdownInrStep
    simp only []
    split_ifs with hlt
    all_goals linarith

theorem drawdownPct_nonneg : ∀ (l : List ℚ) {acc : ℚ × ℚ}, 0 ≤ acc.2 →
    0 ≤ (l.foldl drawdownPctStep acc).2
  | [], _, h => h
  | v :: l, acc, h => by
    refine drawdownPct_nonneg l ?_
    unfold drawdownPctStep
    simp only []
    split_ifs
    all_goals simp only []
    all_goals linarith

theorem maxDrawdownInr_nonneg (l : List ℚ) : 0 ≤ maxDrawdownInr l :=
  @drawdownInr_nonneg l (0, 0) (le_refl 0)

theorem maxDrawdownPct_nonneg (l : List ℚ) : 0 ≤ maxDrawdownPct l := by
  cases l with
  | nil => exact le_refl 0
  | cons v vs => exact @drawdownPct_nonneg (v :: vs) (v, 0) (le_refl 0)

theorem decimalDiv_nonneg (m n : ℕ) : 0 ≤ decimalDiv m n :=
  round_nonneg (div_nonneg m.cast_nonneg n.cast_nonneg)

theorem isMultiple_pricedPnls (rows : List RecordedPosition) :
    ∀ q ∈ pricedPnls rows, IsMultiple 4 q := by
  intro q hq
  obtain ⟨e, he, rfl⟩ := mem_map.1 hq
  rw [mem_insertionSort] at he
  obtain ⟨p, -, hp⟩ := mem_filterMap.1 he
  split at hp
  · split_ifs at hp
    cases hp
    exact isMultiple_toDecimal _
  · cases hp

section Payloads

variable {view : LedgerView} {listing : Listing} {date : Date} {sequence days : ℤ}
  {p : SnapshotPayload}

/-- A payload as the writer builds it: its figures are figures, and it has a basis. -/
structure Written (listingId : ℕ) (date : Date) (sequence : ℤ) (p : SnapshotPayload) : Prop where
  listing : p.listingId = uuidText listingId
  date : p.snapshotDate = date.isoformat
  sequence : p.sequenceNumber = sequence
  pnl : ∃ u, p.cumulativePnlInr = figure u
  winRate : ∃ u, p.winRate = figure u
  percent : ∃ u : Option ℤ, p.maxDrawdownPct = u.map figure
  drawdown : ∃ u : Option ℤ, p.maxDrawdownInr = u.map figure
  sharpe : p.sharpeRatio = none
  basis : p.pnlBasis ≠ none

theorem written_livePayload (h : livePayload view listing date sequence days = .ok p) :
    Written listing.id date sequence p := by
  unfold livePayload at h
  simp only [] at h
  split_ifs at h with hnil
  obtain ⟨cumulativeText, hpnl, h⟩ := bind_eq_ok.1 h
  obtain ⟨drawdownText, hdrawdown, h⟩ := bind_eq_ok.1 h
  obtain ⟨winRateText, hwin, h⟩ := bind_eq_ok.1 h
  rw [pure_eq_ok, Except.ok.injEq] at h
  subst h
  obtain ⟨u, rfl⟩ := formatDecimal_eq_ok
    (.inr (isMultiple_last (isMultiple_pricedPnls _))) hpnl
  obtain ⟨d, rfl⟩ := formatDecimal_eq_ok (.inl (maxDrawdownInr_nonneg _)) hdrawdown
  obtain ⟨w, rfl⟩ := formatDecimal_eq_ok (.inl (decimalDiv_nonneg _ _)) hwin
  exact ⟨rfl, rfl, rfl, ⟨u, rfl⟩, ⟨w, rfl⟩, ⟨none, rfl⟩, ⟨some d, rfl⟩, rfl, nofun⟩

theorem written_paperPayload (h : paperPayload view listing date sequence days = .ok p) :
    Written listing.id date sequence p := by
  unfold paperPayload at h
  simp only [] at h
  split_ifs at h with hnil htrades
  obtain ⟨cumulativeText, hpnl, h⟩ := bind_eq_ok.1 h
  obtain ⟨percentText, hpercent, h⟩ := bind_eq_ok.1 h
  obtain ⟨drawdownText, hdrawdown, h⟩ := bind_eq_ok.1 h
  obtain ⟨winRateText, hwin, h⟩ := bind_eq_ok.1 h
  rw [pure_eq_ok, Except.ok.injEq] at h
  subst h
  obtain ⟨u, rfl⟩ := formatDecimal_eq_ok (.inr (isMultiple_last fun q hq => by
    obtain ⟨s, -, rfl⟩ := mem_map.1 hq
    exact isMultiple_toDecimal _)) hpnl
  obtain ⟨c, rfl⟩ := formatDecimal_eq_ok (.inl (maxDrawdownPct_nonneg _)) hpercent
  obtain ⟨d, rfl⟩ := formatDecimal_eq_ok (.inl (maxDrawdownInr_nonneg _)) hdrawdown
  obtain ⟨w, rfl⟩ := formatDecimal_eq_ok (.inl (decimalDiv_nonneg _ _)) hwin
  exact ⟨rfl, rfl, rfl, ⟨u, rfl⟩, ⟨w, rfl⟩, ⟨some c, rfl⟩, ⟨some d, rfl⟩, rfl, nofun⟩

theorem written_gatherPerformancePayload
    (h : gatherPerformancePayload view listing date sequence = .ok p) :
    Written listing.id date sequence p := by
  unfold gatherPerformancePayload at h
  split at h
  · cases h
  · exact written_livePayload h
  · exact written_paperPayload h

end Payloads

section RoundTrip

variable (row : LedgerSnapshot)

def rowFields : SnapshotPayload where
  listingId := uuidText row.listingId
  snapshotDate := row.snapshotDate.isoformat
  sequenceNumber := row.sequenceNumber.val
  cumulativePnlInr := figure row.cumulativePnlInr.val
  maxDrawdownPct := row.maxDrawdownPct.map fun u => figure u.val
  totalTrades := row.totalTrades.val
  winRate := figure row.winRate.val
  sharpeRatio := row.sharpeRatio.map fun u => figure u.val
  daysSincePublish := row.daysSincePublish.val
  paperTradesCount := row.paperTradesCount.val
  liveTradesCount := row.liveTradesCount.val
  unpricedPositions := row.unpricedPositions.map Subtype.val
  pnlBasis := row.pnlBasis
  maxDrawdownInr := row.maxDrawdownInr.map fun u => figure u.val
  humanInterferedPositions := row.humanInterferedPositions.map Subtype.val

def rowPayload : List (String × Scalar) :=
  if row.pnlBasis = none then (rowFields row).originalKeys else (rowFields row).modelDump

theorem payloadFromRow_eq : payloadFromRow row = .ok (rowPayload row) := by
  unfold payloadFromRow
  rw [formatDecimal_numeric (by decide), formatDecimal_numeric (by decide),
    formatOptionalDecimal_numeric (by decide), formatOptionalDecimal_numeric (by decide),
    formatOptionalDecimal_numeric (by decide)]
  rfl

theorem storeNumeric_eq_ok {p : ℕ} {u : ℤ} {v : Numeric p} (h : storeNumeric p u = .ok v) :
    v.val = u := by
  unfold storeNumeric at h
  split_ifs at h
  cases h
  rfl

theorem storeInteger_eq_ok {n : ℤ} {v : Integer} (h : storeInteger n = .ok v) : v.val = n := by
  unfold storeInteger at h
  split_ifs at h
  cases h
  rfl

theorem storeBigInteger_eq_ok {n : ℤ} {v : BigInteger} (h : storeBigInteger n = .ok v) :
    v.val = n := by
  unfold storeBigInteger at h
  split_ifs at h
  cases h
  rfl

theorem storeOptional_eq_ok {α β : Type} {store : α → Except LedgerError β} {read : β → α}
    (hstore : ∀ a b, store a = .ok b → read b = a) {a : Option α} {b : Option β}
    (h : storeOptional store a = .ok b) : b.map read = a := by
  cases a with
  | none =>
    cases h
    rfl
  | some a =>
    obtain ⟨c, hc, rfl⟩ := map_eq_ok.1 h
    rw [Option.map_some, hstore a c hc]

theorem parseOptionalDecimal_figure (u : Option ℤ) :
    parseOptionalDecimal (u.map figure) = .ok u := by
  cases u with
  | none => rfl
  | some u =>
    rw [Option.map_some, parseOptionalDecimal, parseDecimal_figure]
    rfl

theorem rowFields_storeSnapshot {listingId : ℕ} {date : Date} {sequence : ℤ}
    {p : SnapshotPayload} {dataHash signature : String} {priorHash : Option String}
    {row : LedgerSnapshot} (hp : Written listingId date sequence p)
    (h : storeSnapshot listingId date p dataHash priorHash signature = .ok row) :
    rowFields row = p ∧ row.listingId = listingId
      ∧ row.sequenceNumber.val = sequence ∧ row.dataHash = dataHash
      ∧ row.priorHash = priorHash ∧ row.chainSignature = signature := by
  obtain ⟨u, hu⟩ := hp.pnl
  obtain ⟨w, hw⟩ := hp.winRate
  obtain ⟨c, hc⟩ := hp.percent
  obtain ⟨d, hd⟩ := hp.drawdown
  unfold storeSnapshot at h
  rw [hu, hw, hc, hd, parseDecimal_figure, parseDecimal_figure, parseOptionalDecimal_figure,
    parseOptionalDecimal_figure] at h
  obtain ⟨seq, hseq, h⟩ := bind_eq_ok.1 h
  rw [ok_bind] at h
  obtain ⟨pnl, hpnl, h⟩ := bind_eq_ok.1 h
  rw [ok_bind] at h
  obtain ⟨percent, hpercent, h⟩ := bind_eq_ok.1 h
  rw [ok_bind] at h
  obtain ⟨drawdown, hdrawdown, h⟩ := bind_eq_ok.1 h
  obtain ⟨trades, htrades, h⟩ := bind_eq_ok.1 h
  rw [ok_bind] at h
  obtain ⟨winRate, hwin, h⟩ := bind_eq_ok.1 h
  obtain ⟨days, hdays, h⟩ := bind_eq_ok.1 h
  obtain ⟨paper, hpaper, h⟩ := bind_eq_ok.1 h
  obtain ⟨live, hlive, h⟩ := bind_eq_ok.1 h
  obtain ⟨unpriced, hunpriced, h⟩ := bind_eq_ok.1 h
  obtain ⟨human, hhuman, h⟩ := bind_eq_ok.1 h
  rw [pure_eq_ok, Except.ok.injEq] at h
  subst h
  refine ⟨?_, rfl, (storeBigInteger_eq_ok hseq).trans hp.sequence, rfl, rfl, rfl⟩
  have hpercent : percent.map Subtype.val = c :=
    storeOptional_eq_ok (fun _ _ => storeNumeric_eq_ok) hpercent
  have hdrawdown : drawdown.map Subtype.val = d :=
    storeOptional_eq_ok (fun _ _ => storeNumeric_eq_ok) hdrawdown
  have hunpriced : unpriced.map Subtype.val = p.unpricedPositions :=
    storeOptional_eq_ok (fun _ _ => storeInteger_eq_ok) hunpriced
  have hhuman : human.map Subtype.val = p.humanInterferedPositions :=
    storeOptional_eq_ok (fun _ _ => storeInteger_eq_ok) hhuman
  have hfigures : ∀ {k : ℕ} (v : Option (Numeric k)),
      (v.map fun u => figure u.val) = (v.map Subtype.val).map figure := by
    intro k v
    rw [Option.map_map]
    rfl
  ext1
  · exact hp.listing.symm
  · exact hp.date.symm
  · exact storeBigInteger_eq_ok hseq
  · exact (congrArg figure (storeNumeric_eq_ok hpnl)).trans hu.symm
  · rw [hc, ← hpercent]
    exact hfigures percent
  · exact storeInteger_eq_ok htrades
  · exact (congrArg figure (storeNumeric_eq_ok hwin)).trans hw.symm
  · exact hp.sharpe.symm
  · exact storeInteger_eq_ok hdays
  · exact storeInteger_eq_ok hpaper
  · exact storeInteger_eq_ok hlive
  · exact hunpriced
  · simp only [rowFields]
  · rw [hd, ← hdrawdown]
    exact hfigures drawdown
  · exact hhuman

end RoundTrip

section Intact

variable (sha256Hex : String → String)

/-- A row with the expected number, hashed and signed as its columns say. -/
structure RowIntact (prior : Option String) (expected : ℤ) (row : LedgerSnapshot) : Prop where
  sequence : row.sequenceNumber.val = expected
  dataHash : row.dataHash = dataHashFor sha256Hex (rowPayload row)
  priorHash : row.priorHash = prior
  signature : row.chainSignature = chainSignatureFor sha256Hex row.dataHash row.priorHash

/-- The rows are numbered on from `expected` and each is signed over the one before it. -/
def Intact : Option String → ℤ → List LedgerSnapshot → Prop
  | _, _, [] => True
  | prior, expected, row :: rows =>
    RowIntact sha256Hex prior expected row
      ∧ Intact (some row.chainSignature) (expected + 1) rows

variable {sha256Hex} {prior : Option String} {expected : ℤ} {rows : List LedgerSnapshot}
  {row : LedgerSnapshot}

theorem firstBreak_eq_none :
    firstBreak sha256Hex prior expected rows = .ok none ↔ Intact sha256Hex prior expected rows := by
  induction rows generalizing prior expected with
  | nil => simp [firstBreak, Intact]
  | cons row rows ih =>
    rw [firstBreak, payloadFromRow_eq, ok_bind]
    split_ifs with hseq hhash hprior hsig
    · exact ⟨nofun, fun h => absurd h.1.sequence hseq⟩
    · exact ⟨nofun, fun h => absurd h.1.dataHash.symm hhash⟩
    · exact ⟨nofun, fun h => absurd h.1.priorHash hprior⟩
    · exact ⟨nofun, fun h => absurd h.1.signature.symm hsig⟩
    · rw [ih]
      rw [not_not] at hseq hhash hprior hsig
      exact ⟨fun h => ⟨⟨hseq, hhash.symm, hprior, hsig.symm⟩, h⟩, fun h => h.2⟩

variable {listingId : ℕ}

theorem verifyListingChain_of_intact
    (h : Intact sha256Hex none 1 (chainRows listingId rows)) :
    verifyListingChain sha256Hex listingId rows
      = .ok ⟨listingId, true, (chainRows listingId rows).length, none, none⟩ :=
  bind_eq_ok.2 ⟨none, firstBreak_eq_none.2 h, rfl⟩

theorem intact_append : Intact sha256Hex prior expected (rows ++ [row]) ↔
    Intact sha256Hex prior expected rows
      ∧ RowIntact sha256Hex (HashChain.head LedgerSnapshot.chainSignature prior rows)
        (expected + rows.length) row := by
  induction rows generalizing prior expected with
  | nil => simp [Intact]
  | cons r rows ih =>
    have hlength : expected + ((r :: rows).length : ℤ) = expected + 1 + rows.length := by
      rw [length_cons]
      push_cast
      ring
    rw [cons_append, Intact, Intact, ih, HashChain.head_cons, hlength, and_assoc]

theorem Intact.lower_bound : ∀ {rows : List LedgerSnapshot} {prior : Option String}
    {expected : ℤ}, Intact sha256Hex prior expected rows →
      ∀ r ∈ rows, expected ≤ r.sequenceNumber.val
  | [], _, _, _, _, hr => absurd hr not_mem_nil
  | row :: rows, _, expected, h, r, hr => by
    rcases mem_cons.1 hr with rfl | hr
    · exact h.1.sequence.ge
    · have := Intact.lower_bound h.2 r hr
      omega

theorem Intact.sorted : ∀ {rows : List LedgerSnapshot} {prior : Option String} {expected : ℤ},
    Intact sha256Hex prior expected rows →
      rows.Pairwise fun r s => r.sequenceNumber.val ≤ s.sequenceNumber.val
  | [], _, _, _ => List.Pairwise.nil
  | row :: rows, _, expected, h => by
    refine pairwise_cons.2 ⟨fun r hr => ?_, Intact.sorted h.2⟩
    have := Intact.lower_bound h.2 r hr
    have := h.1.sequence
    omega

theorem chainRows_of_intact
    (h : Intact sha256Hex none 1 (rows.filter (·.listingId = listingId))) :
    chainRows listingId rows = rows.filter (·.listingId = listingId) :=
  List.Pairwise.insertionSort_eq h.sorted

end Intact

section Writing

variable {sha256Hex : String → String} {view : LedgerView} {rows : List LedgerSnapshot}
  {listingId : ℕ} {date : Date} {row : LedgerSnapshot}

theorem resolveChainHead_eq_ok {listing : Listing} {sequence : ℤ} {priorHash : Option String}
    (hintact : Intact sha256Hex none 1 (rows.filter (·.listingId = listingId)))
    (h : resolveChainHead view rows listingId date = .ok (listing, sequence, priorHash)) :
    listing.id = listingId
      ∧ sequence = 1 + (rows.filter (·.listingId = listingId)).length
      ∧ priorHash = HashChain.head LedgerSnapshot.chainSignature none
        (rows.filter (·.listingId = listingId)) := by
  unfold resolveChainHead at h
  split at h
  · cases h
  · rename_i found hfound
    have hid : found.id = listingId := by simpa using find?_some hfound
    rw [hid, chainRows_of_intact hintact] at h
    split_ifs at h
    rcases (rows.filter (·.listingId = listingId)).eq_nil_or_concat with hnil | ⟨init, last, hlast⟩
    · rw [hnil] at h ⊢
      cases h
      exact ⟨hid, by simp, by simp⟩
    · rw [concat_eq_append] at hlast
      rw [hlast] at h hintact ⊢
      rw [getLast?_concat] at h
      cases h
      refine ⟨hid, ?_, by simp⟩
      have hseq := (intact_append.1 hintact).2.sequence
      rw [hseq, length_append, length_singleton]
      push_cast
      ring

theorem rowIntact_createDailySnapshot
    (hintact : Intact sha256Hex none 1 (rows.filter (·.listingId = listingId)))
    (h : createDailySnapshot sha256Hex view rows listingId date = .ok row) :
    row.listingId = listingId
      ∧ RowIntact sha256Hex (HashChain.head LedgerSnapshot.chainSignature none
          (rows.filter (·.listingId = listingId)))
        (1 + (rows.filter (·.listingId = listingId)).length) row := by
  obtain ⟨⟨listing, sequence, priorHash⟩, hhead, h⟩ := bind_eq_ok.1 h
  obtain ⟨payload, hpayload, h⟩ := bind_eq_ok.1 h
  obtain ⟨hid, hseq, hprior⟩ := resolveChainHead_eq_ok hintact hhead
  have hwritten := written_gatherPerformancePayload hpayload
  obtain ⟨hfields, hlisting, hnumber, hdata, hpriorHash, hsignature⟩ :=
    rowFields_storeSnapshot hwritten h
  have hbasis : row.pnlBasis ≠ none := by
    have hb : (rowFields row).pnlBasis ≠ none := hfields ▸ hwritten.basis
    exact hb
  refine ⟨hlisting.trans hid, hnumber.trans hseq, ?_, hpriorHash.trans hprior, ?_⟩
  · rw [hdata, rowPayload, if_neg hbasis, hfields]
  · rw [hsignature, hdata, hpriorHash]

theorem intact_applyCalls : ∀ (calls : List SnapshotCall) {rows : List LedgerSnapshot},
    (∀ l, Intact sha256Hex none 1 (rows.filter (·.listingId = l))) → ∀ l,
      Intact sha256Hex none 1 ((applyCalls sha256Hex rows calls).filter (·.listingId = l))
        ∧ ((applyCalls sha256Hex rows calls).filter (·.listingId = l)).length
          = (rows.filter (·.listingId = l)).length + successes sha256Hex l rows calls
  | [], _, hrows, l => ⟨hrows l, by simp [applyCalls, successes]⟩
  | call :: calls, rows, hrows, l => by
    have hstep : (∀ k, Intact sha256Hex none 1
          ((applyCall sha256Hex rows call).filter (·.listingId = k)))
        ∧ ((applyCall sha256Hex rows call).filter (·.listingId = l)).length
          = (rows.filter (·.listingId = l)).length + (if (createDailySnapshot sha256Hex call.view
            rows call.listingId call.date).isOk && call.listingId = l then 1 else 0) := by
      unfold applyCall
      rcases hcreate : createDailySnapshot sha256Hex call.view rows call.listingId call.date
        with e | row
      · exact ⟨hrows, by simp [Except.toBool]⟩
      · obtain ⟨hid, hintact⟩ := rowIntact_createDailySnapshot (hrows call.listingId) hcreate
        refine ⟨fun k => ?_, ?_⟩
        · rw [filter_append]
          by_cases hk : call.listingId = k
          · subst hk
            rw [filter_cons_of_pos (by simpa using hid)]
            exact intact_append.2 ⟨hrows call.listingId, hintact⟩
          · rw [filter_cons_of_neg (by simpa [hid] using hk), filter_nil,
              append_nil]
            exact hrows k
        · rw [filter_append]
          by_cases hl : call.listingId = l
          · rw [filter_cons_of_pos (by simpa [hid] using hl)]
            simp [Except.toBool, hl]
          · rw [filter_cons_of_neg (by simpa [hid] using hl)]
            simp [hl]
    obtain ⟨hnext, hlength⟩ := hstep
    obtain ⟨hintact, hcount⟩ := intact_applyCalls calls hnext l
    refine ⟨hintact, ?_⟩
    rw [successes, ← Nat.add_assoc, ← hlength]
    exact hcount

end Writing

/-- After any calls each listing's chain is valid and as long as its calls that succeeded. -/
theorem written_chain_verifies (sha256Hex : String → String) (calls : List SnapshotCall)
    (listingId : ℕ) :
    verifyListingChain sha256Hex listingId (applyCalls sha256Hex [] calls)
      = .ok ⟨listingId, true, successes sha256Hex listingId [] calls, none, none⟩ := by
  obtain ⟨hintact, hcount⟩ :=
    @intact_applyCalls sha256Hex calls [] (fun _ => trivial) listingId
  have hrows := chainRows_of_intact hintact
  rw [verifyListingChain_of_intact (hrows ▸ hintact), hrows, hcount]
  simp

section Binding

variable {sha256Hex : String → String}

/-- What a row is signed over besides the signature before it. -/
def rowText (row : LedgerSnapshot) : String := dumps (rowPayload row)

def signText (sha256Hex : String → String) (text : String) (prior : Option String) : String :=
  chainSignatureFor sha256Hex (sha256Hex text) prior

theorem Intact.chain : ∀ {rows : List LedgerSnapshot} {prior : Option String} {expected : ℤ},
    Intact sha256Hex prior expected rows →
      HashChain.Chain rowText LedgerSnapshot.chainSignature (signText sha256Hex) prior rows
  | [], _, _, _ => trivial
  | row :: rows, prior, expected, h => by
    refine ⟨?_, Intact.chain h.2⟩
    rw [h.1.signature, h.1.dataHash, h.1.priorHash]
    rfl

variable {p q : SnapshotPayload} {r s : LedgerSnapshot}

end Binding

end TradingBridge.Ledger
