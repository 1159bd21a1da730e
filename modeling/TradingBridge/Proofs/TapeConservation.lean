import TradingBridge.Orderflow.Tape

/-!
# What the bars of an instrument add up to

A series of bars keeps its trades: the totals of its bars and of what it still accumulates are
those of the trades (`SeriesInv`). A trade goes into the accumulator and closing a bar moves the
accumulator's totals to a row, so the running delta sampled at a close is that of the bars so
far.
-/

namespace TradingBridge.Orderflow.Tape

open List

section Totals

/-- Volume bought, volume sold and the number of trades. -/
abbrev Totals := ℤ × ℤ × ℕ

variable (t : Trade)

def Trade.totals : Totals :=
  (if t.side = .buy then t.size else 0, if t.side = .buy then 0 else t.size, 1)

def Accumulator.totals (acc : Accumulator) : Totals := (acc.buyVol, acc.sellVol, acc.n)

def Bar.totals (bar : Bar) : Totals := (bar.buyVol, bar.sellVol, bar.tradeCount)

/-- The volume delta of a total, additive. -/
def deltaHom : Totals →+ ℤ where
  toFun x := x.1 - x.2.1
  map_zero' := rfl
  map_add' x y := by simp; ring

theorem deltaHom_trade : deltaHom t.totals = t.side.sign * t.size := by
  cases h : t.side <;> simp [deltaHom, Trade.totals, Side.sign, h]

theorem deltaHom_bar (bar : Bar) : deltaHom bar.totals = bar.delta := rfl

theorem size_eq_totals : t.size = t.totals.1 + t.totals.2.1 := by
  cases h : t.side <;> simp [Trade.totals, h]

end Totals

theorem Footprint.total_add (cells : Footprint) (b : ℚ) (buy sell : ℤ) :
    Footprint.total (cells.add b buy sell) = Footprint.total cells + (buy + sell) := by
  induction cells with
  | nil => simp [Footprint.add, Footprint.total]
  | cons cell cells ih =>
    simp only [Footprint.total] at ih ⊢
    rw [Footprint.add]
    split_ifs
    · simp only [map_cons, sum_cons]
      ring
    · simp only [map_cons, sum_cons, ih]
      ring

/-- Volume is what was bought and sold, and lies in the footprint where one is kept. -/
structure Accumulator.Ok (acc : Accumulator) : Prop where
  volume : acc.volume = acc.buyVol + acc.sellVol
  footprint : 0 < acc.binSize → acc.footprint.total = acc.volume
  empty : acc.n = 0 → acc.totals = 0

namespace Accumulator

theorem add_totals (acc : Accumulator) (t : Trade) :
    (acc.add t).totals = acc.totals + t.totals := rfl

theorem Ok.reset (acc : Accumulator) : acc.reset.Ok :=
  ⟨rfl, fun _ => rfl, fun _ => rfl⟩

theorem Ok.add {acc : Accumulator} (h : acc.Ok) (t : Trade) : (acc.add t).Ok := by
  have hsize : t.size = t.totals.1 + t.totals.2.1 := size_eq_totals t
  refine ⟨?_, fun hbin => ?_, fun hn => absurd hn (Nat.succ_ne_zero acc.n)⟩
  · have hvol := h.volume
    simp only [Accumulator.add, Trade.totals] at hsize ⊢
    omega
  · have hfp := h.footprint hbin
    simp only [Accumulator.add, Trade.totals] at hsize hbin ⊢
    rw [if_pos hbin, Footprint.total_add, hfp, ← hsize]

end Accumulator

section Series

/-- Its volume is split, and lies in the footprint where one is kept. -/
def BarRow.Ok (bin : ℚ) (r : BarRow) : Prop :=
  r.bar.volume = r.bar.buyVol + r.bar.sellVol ∧
    (0 < bin → r.bar.footprint.total = r.bar.volume)

/-- Numbered, with the running delta of the rows so far. -/
def Sampled (rows : List BarRow) : Prop :=
  ∀ k r, rows[k]? = some r →
    r.bar.barIndex = k ∧ r.cvdRunning = ((rows.take (k + 1)).map fun r => r.bar.delta).sum

theorem Sampled.concat {rows : List BarRow} {row : BarRow} (h : Sampled rows)
    (hidx : row.bar.barIndex = rows.length)
    (hcvd : row.cvdRunning = (rows.map fun r => r.bar.delta).sum + row.bar.delta) :
    Sampled (rows ++ [row]) := by
  intro k r hr
  rcases lt_trichotomy k rows.length with hk | rfl | hk
  · rw [getElem?_append_left hk] at hr
    rw [take_append_of_le_length hk]
    exact h k r hr
  · rw [getElem?_concat_length] at hr
    cases hr
    refine ⟨hidx, ?_⟩
    rw [hcvd]
    simp
  · rw [getElem?_eq_none (by simp; omega)] at hr
    cases hr

/-- The rows of a series and its accumulator hold the totals of the trades. -/
structure SeriesInv (bin : ℚ) (trades : List Trade) (rows : List BarRow) (b : BarBuilder) :
    Prop where
  totals : (rows.map fun r => r.bar.totals).sum + b.acc.totals = (trades.map Trade.totals).sum
  binSize : b.acc.binSize = bin
  acc : b.acc.Ok
  index : b.index = rows.length
  rowsOk : ∀ r ∈ rows, r.Ok bin
  sampled : Sampled rows

variable {bin : ℚ} {trades : List Trade} {rows : List BarRow} {b : BarBuilder}

theorem SeriesInv.add (h : SeriesInv bin trades rows b) (t : Trade) :
    SeriesInv bin (trades ++ [t]) rows { b with acc := b.acc.add t } where
  totals := by
    rw [Accumulator.add_totals, ← add_assoc, h.totals]
    simp
  binSize := h.binSize
  acc := h.acc.add t
  index := h.index
  rowsOk := h.rowsOk
  sampled := h.sampled

theorem SeriesInv.emit (h : SeriesInv bin trades rows b) {row : BarRow} (hbar : row.bar = b.emit.2)
    (hcvd : row.cvdRunning = deltaHom (trades.map Trade.totals).sum) :
    SeriesInv bin trades (rows ++ [row]) b.emit.1 := by
  have htotals : row.bar.totals = b.acc.totals := by rw [hbar]; rfl
  refine ⟨?_, h.binSize, Accumulator.Ok.reset _, ?_, ?_, ?_⟩
  · rw [map_append, sum_append, map_singleton, sum_singleton, htotals, h.totals]
    exact add_zero _
  · rw [length_append, ← h.index]
    rfl
  · intro r hr
    rcases mem_append.1 hr with hr | hr
    · exact h.rowsOk r hr
    · rw [mem_singleton.1 hr, BarRow.Ok, hbar]
      exact ⟨h.acc.volume, fun hbin => h.acc.footprint (h.binSize.symm ▸ hbin)⟩
  · refine h.sampled.concat ?_ ?_
    · rw [hbar, ← h.index]
      rfl
    · rw [hcvd, ← h.totals, map_add, map_list_sum, map_map, ← htotals]
      rfl

end Series

section Instrument

variable (cfg : TapeConfig)

namespace InstrumentState

theorem settle_row_type (st : InstrumentState) (s : BarSeries) {r : BarBuilder × Option Bar}
    (hr : ∀ bar, r.2 = some bar → bar.barType = s.builder.barType) {row : BarRow}
    (h : (st.settle cfg s r).row = some row) :
    row.bar.barType = s.builder.barType ∧ row.securityId = st.sid := by
  obtain ⟨b, bar⟩ := r
  cases bar with
  | none => cases h
  | some bar =>
    cases h
    exact ⟨hr bar rfl, rfl⟩

@[simp] theorem settle_builder (st : InstrumentState) (s : BarSeries)
    (r : BarBuilder × Option Bar) : (st.settle cfg s r).series.builder = r.1 := by
  obtain ⟨b, bar⟩ := r
  cases bar <;> rfl

end InstrumentState

variable {trades : List Trade} {rows : List BarRow} {bin : ℚ}

theorem SeriesInv.settle
    {st : InstrumentState} {s : BarSeries} {b : BarBuilder} {r : BarBuilder × Option Bar}
    (h : SeriesInv bin trades rows b) (hcvd : st.cvd = deltaHom (trades.map Trade.totals).sum)
    (hr : r = (b, none) ∨ r = (b.emit.1, some b.emit.2)) :
    SeriesInv bin trades (rows ++ (st.settle cfg s r).row.toList)
      (st.settle cfg s r).series.builder := by
  rcases hr with rfl | rfl
  · simpa [InstrumentState.settle] using h
  · exact h.emit rfl hcvd

theorem BarBuilder.onTrade_eq (b : BarBuilder) (t : Trade) :
    b.onTrade t = ({ b with acc := b.acc.add t }, none) ∨
      b.onTrade t = (({ b with acc := b.acc.add t } : BarBuilder).emit.1,
        some ({ b with acc := b.acc.add t } : BarBuilder).emit.2) := by
  unfold BarBuilder.onTrade
  dsimp only
  split_ifs
  · exact .inr rfl
  · exact .inl rfl

theorem BarBuilder.flush_eq (b : BarBuilder) :
    b.flush = (b, none) ∧ b.acc.n = 0 ∨ b.flush = (b.emit.1, some b.emit.2) := by
  unfold BarBuilder.flush
  split_ifs with hn
  · exact .inl ⟨rfl, hn⟩
  · exact .inr rfl

/-- The running delta and every series hold the instrument's trades. -/
structure InstrumentInv (bin : ℚ) (trades : List Trade) (rows : List BarRow)
    (st : InstrumentState) : Prop where
  cvd : st.cvd = deltaHom (trades.map Trade.totals).sum
  series : ∀ s ∈ st.series, SeriesInv bin trades
    (rows.filter fun r => r.bar.barType = s.builder.barType) s.builder

def InstrumentState.types (st : InstrumentState) : List BarType :=
  st.series.map fun s => s.builder.barType

variable {st : InstrumentState} {answer : BarBuilder → BarBuilder × Option Bar}

def KeepsType (answer : BarBuilder → BarBuilder × Option Bar) : Prop :=
  ∀ b, (answer b).1.barType = b.barType ∧ ∀ bar, (answer b).2 = some bar → bar.barType = b.barType

theorem keepsType_onTrade (t : Trade) : KeepsType fun b => b.onTrade t := by
  intro b
  dsimp only
  rcases b.onTrade_eq t with h | h <;> rw [h]
  · exact ⟨rfl, nofun⟩
  · exact ⟨rfl, fun bar hbar => by cases hbar; rfl⟩

theorem keepsType_flush : KeepsType BarBuilder.flush := by
  intro b
  rcases b.flush_eq with ⟨h, -⟩ | h <;> rw [h]
  · exact ⟨rfl, nofun⟩
  · exact ⟨rfl, fun bar hbar => by cases hbar; rfl⟩

theorem advance_types (hk : KeepsType answer) : (st.advance cfg answer).st.types = st.types := by
  simp only [InstrumentState.advance, InstrumentState.types, map_map]
  exact map_congr_left fun s _ => by
    simp [(hk s.builder).1]

/-- Of items with a key each, those found under the key of one come from it. -/
theorem filter_filterMap_key {α β κ : Type} [DecidableEq κ] {k : α → κ} {key : β → κ}
    {f : α → Option β} (hf : ∀ a b, f a = some b → key b = k a) : ∀ {l : List α} {a : α},
    (l.map k).Nodup → a ∈ l → (l.filterMap f).filter (fun b => key b = k a) = (f a).toList
  | x :: l, a, hnodup, ha => by
    obtain ⟨hx, hnodup⟩ := nodup_cons.1 hnodup
    have hcons : (x :: l).filterMap f = (f x).toList ++ l.filterMap f := by
      rw [filterMap_cons]
      cases f x <;> rfl
    have hkey : ∀ y, ∀ b ∈ (f y).toList, key b = k y := fun y b hb => hf y b (by simpa using hb)
    rw [hcons, filter_append]
    rcases mem_cons.1 ha with rfl | ha
    · rw [filter_eq_self.2 fun b hb => by simpa using hkey a b hb, filter_eq_nil_iff.2,
        append_nil]
      intro b hb hsame
      obtain ⟨y, hy, hb⟩ := mem_filterMap.1 hb
      exact hx (mem_map.2 ⟨y, hy, (hf y b hb).symm.trans (by simpa using hsame)⟩)
    · rw [filter_filterMap_key hf hnodup ha, filter_eq_nil_iff.2, nil_append]
      intro b hb hsame
      exact hx (mem_map.2 ⟨a, ha, Eq.trans (by simpa [eq_comm] using hsame) (hkey x b hb)⟩)

theorem advance_rows (hk : KeepsType answer) (hnodup : st.types.Nodup) {s : BarSeries}
    (hs : s ∈ st.series) :
    (st.advance cfg answer).bars.filter (fun r => r.bar.barType = s.builder.barType) =
      (st.settle cfg s (answer s.builder)).row.toList := by
  simp only [InstrumentState.advance, filterMap_map]
  refine filter_filterMap_key (fun s' row hrow => ?_) hnodup hs
  exact (st.settle_row_type cfg s' (hk s'.builder).2 hrow).1

theorem advance_sid {row : BarRow} (hk : KeepsType answer)
    (h : row ∈ (st.advance cfg answer).bars) : row.securityId = st.sid := by
  simp only [InstrumentState.advance, filterMap_map, mem_filterMap] at h
  obtain ⟨s, -, hrow⟩ := h
  exact (st.settle_row_type cfg s (hk s.builder).2 hrow).2

theorem InstrumentInv.advance (hk : KeepsType answer) (hnodup : st.types.Nodup)
    (hcvd : st.cvd = deltaHom (trades.map Trade.totals).sum)
    (hseries : ∀ s ∈ st.series, ∃ b, SeriesInv bin trades
      (rows.filter fun r => r.bar.barType = s.builder.barType) b ∧
      (answer s.builder = (b, none) ∨ answer s.builder = (b.emit.1, some b.emit.2))) :
    InstrumentInv bin trades (rows ++ (st.advance cfg answer).bars) (st.advance cfg answer).st := by
  refine ⟨hcvd, fun s' hs' => ?_⟩
  obtain ⟨c, hc, rfl⟩ := mem_map.1 hs'
  obtain ⟨s, hs, rfl⟩ := mem_map.1 hc
  obtain ⟨b, hinv, hanswer⟩ := hseries s hs
  have htype : (st.settle cfg s (answer s.builder)).series.builder.barType = s.builder.barType := by
    rw [InstrumentState.settle_builder, (hk s.builder).1]
  rw [htype, filter_append, advance_rows cfg hk hnodup hs]
  exact hinv.settle cfg hcvd hanswer

theorem InstrumentInv.onTrade
    (h : InstrumentInv bin trades rows st) (hnodup : st.types.Nodup) (t : Trade) :
    InstrumentInv bin (trades ++ [t]) (rows ++ (st.onTrade cfg t).bars) (st.onTrade cfg t).st := by
  refine InstrumentInv.advance cfg (keepsType_onTrade t) hnodup ?_ fun s hs => ?_
  · simp [h.cvd, deltaHom_trade]
  · exact ⟨_, (h.series s hs).add t, s.builder.onTrade_eq t⟩

theorem InstrumentInv.flush (h : InstrumentInv bin trades rows st) (hnodup : st.types.Nodup) :
    InstrumentInv bin trades (rows ++ (st.flush cfg).bars) (st.flush cfg).st := by
  refine InstrumentInv.advance cfg keepsType_flush hnodup h.cvd fun s hs =>
    ⟨_, h.series s hs, ?_⟩
  rcases s.builder.flush_eq with ⟨hf, -⟩ | hf
  · exact .inl hf
  · exact .inr hf

theorem flush_empty (h : InstrumentInv bin trades rows st) :
    ∀ s ∈ (st.flush cfg).st.series, s.builder.acc.totals = 0 := by
  intro s' hs'
  obtain ⟨c, hc, rfl⟩ := mem_map.1 hs'
  obtain ⟨s, hs, rfl⟩ := mem_map.1 hc
  rcases s.builder.flush_eq with ⟨hf, hn⟩ | hf <;> rw [hf]
  · exact (h.series s hs).acc.empty hn
  · rfl

theorem newInstrument_types (sid : ℤ) (symbol : String) : (newInstrument cfg sid symbol).types =
      if builds cfg symbol .volume then [.tick, .volume] else [.tick] := by
  simp only [newInstrument, newBuilders]
  split_ifs <;> rfl

theorem new_of_mem {sid : ℤ} {symbol : String} {s : BarSeries}
    (hs : s ∈ (newInstrument cfg sid symbol).series) :
    s.builder.acc = { binSize := cfg.footprintBinSize (classifyInstrument symbol) } ∧
      s.builder.index = 0 := by
  obtain ⟨b, hb, rfl⟩ := mem_map.1 hs
  unfold newBuilders at hb
  split_ifs at hb
  · rcases mem_pair.1 hb with rfl | rfl <;> exact ⟨rfl, rfl⟩
  · rw [mem_singleton.1 hb]
    exact ⟨rfl, rfl⟩

theorem newInstrument_inv (sid : ℤ) (symbol : String) :
    InstrumentInv (cfg.footprintBinSize (classifyInstrument symbol)) [] []
      (newInstrument cfg sid symbol) := by
  refine ⟨rfl, fun s hs => ?_⟩
  obtain ⟨hacc, hindex⟩ := new_of_mem cfg hs
  refine ⟨?_, ?_, ?_, hindex, fun r hr => absurd hr not_mem_nil, fun k r hr => ?_⟩
  · rw [hacc]
    rfl
  · rw [hacc]
  · rw [hacc]
    exact ⟨rfl, fun _ => rfl, fun _ => rfl⟩
  · cases hr

end Instrument

section Engine

variable (cfg : TapeConfig) (symOf : ℤ → String)

def tickOf (sid : ℤ) : Input → Option TickPacket
  | .packet row => if row.isTick ∧ row.securityId = some sid then some row else none
  | _ => none

def extractStep (r : TradeExtractor × List Trade) (row : TickPacket) :
    TradeExtractor × List Trade :=
  ((r.1.onTick row).1, r.2 ++ (r.1.onTick row).2.toList)

/-- The extractor of an instrument after its ticks and the trades it extracted. -/
def extraction (sid : ℤ) (inputs : List Input) : TradeExtractor × List Trade :=
  (inputs.filterMap (tickOf sid)).foldl extractStep
    ({ sizeMode := cfg.tradeSizeMode, method := cfg.classifyMethod }, [])

/-- The trades extracted from an instrument's ticks. -/
def extractedTrades (sid : ℤ) (inputs : List Input) : List Trade :=
  (extraction cfg sid inputs).2

theorem extraction_concat (sid : ℤ) (inputs : List Input) (i : Input) :
    extraction cfg sid (inputs ++ [i]) =
      match tickOf sid i with
      | none => extraction cfg sid inputs
      | some row => extractStep (extraction cfg sid inputs) row := by
  simp only [extraction]
  cases h : tickOf sid i with
  | none => simp [h]
  | some row => simp [h]

namespace TapeEngine

theorem find_store (xs : List InstrumentState) (st : InstrumentState) (sid : ℤ) :
    (store xs st).find? (fun x => x.sid = sid) =
      if st.sid = sid then some st else xs.find? fun x => x.sid = sid := by
  induction xs with
  | nil =>
    simp only [store]
    split_ifs with h <;> simp [h]
  | cons x xs ih =>
    rw [store]
    split_ifs with hx h h
    · simp [h]
    · simp [h, hx.trans_ne h]
    · rw [find?_cons, ih, if_pos h]
      simp [show x.sid ≠ sid from h ▸ hx]
    · rw [find?_cons, find?_cons, ih, if_neg h]

variable (t : TapeEngine) {i : Input}

theorem instrument_apply (u : Update) (sid : ℤ) : (t.apply u).instrument cfg symOf sid =
      if u.st.sid = sid then u.st else t.instrument cfg symOf sid := by
  simp only [instrument, lookup, apply, find_store]
  split_ifs <;> rfl

def binOf (sid : ℤ) : ℚ := cfg.footprintBinSize (classifyInstrument (symOf sid))

structure HoldsTrades (sid : ℤ) (inputs : List Input) (rows : List BarRow)
    (st : InstrumentState) : Prop where
  inv : InstrumentInv (binOf cfg symOf sid) (extractedTrades cfg sid inputs) rows st
  extractor : st.extractor = (extraction cfg sid inputs).1
  types : st.types = (newInstrument cfg sid (symOf sid)).types
  isSid : st.sid = sid

variable {cfg symOf} {sid : ℤ} {inputs : List Input} {rows : List BarRow} {st : InstrumentState}

theorem HoldsTrades.nodup (h : HoldsTrades cfg symOf sid inputs rows st) : st.types.Nodup := by
  rw [h.types, newInstrument_types]
  split_ifs <;> decide

theorem HoldsTrades.onTick (h : HoldsTrades cfg symOf sid inputs rows st)
    {row : TickPacket} (hi : tickOf sid i = some row) :
    HoldsTrades cfg symOf sid (inputs ++ [i]) (rows ++ (st.onTick cfg row).bars)
      (st.onTick cfg row).st := by
  have hext : extraction cfg sid (inputs ++ [i]) = ((st.extractor.onTick row).1,
      extractedTrades cfg sid inputs ++ (st.extractor.onTick row).2.toList) := by
    rw [extraction_concat, hi, h.extractor]
    rfl
  have hinv := h.inv
  unfold InstrumentState.onTick
  rcases hx : st.extractor.onTick row with ⟨x, _ | trade⟩ <;> rw [hx] at hext <;> dsimp only
  · rw [Option.toList_none, append_nil] at hext
    rw [append_nil]
    refine ⟨?_, by rw [hext], h.types, h.isSid⟩
    rw [extractedTrades, hext]
    exact ⟨hinv.cvd, hinv.series⟩
  · have hst : InstrumentInv (binOf cfg symOf sid) (extractedTrades cfg sid inputs) rows
        { st with extractor := x } := ⟨hinv.cvd, hinv.series⟩
    have htypes : ({ st with extractor := x } : InstrumentState).types = st.types := rfl
    refine ⟨?_, ?_, ?_, h.isSid⟩
    · rw [extractedTrades, hext]
      exact hst.onTrade cfg (htypes ▸ h.nodup) trade
    · rw [hext]
      rfl
    · exact (advance_types cfg (keepsType_onTrade trade)).trans h.types

theorem HoldsTrades.other (h : HoldsTrades cfg symOf sid inputs rows st)
    (hi : tickOf sid i = none) : HoldsTrades cfg symOf sid (inputs ++ [i]) rows st := by
  have hext : extraction cfg sid (inputs ++ [i]) = extraction cfg sid inputs := by
    rw [extraction_concat, hi]
  refine ⟨?_, ?_, h.types, h.isSid⟩
  · rw [extractedTrades, hext]
    exact h.inv
  · rw [hext]
    exact h.extractor

variable (cfg st) in
theorem onTick_sid (row : TickPacket) : (st.onTick cfg row).st.sid = st.sid ∧
      ∀ r ∈ (st.onTick cfg row).bars, r.securityId = st.sid := by
  unfold InstrumentState.onTick
  rcases st.extractor.onTick row with ⟨x, _ | trade⟩ <;> dsimp only
  · exact ⟨rfl, fun r hr => absurd hr List.not_mem_nil⟩
  · refine ⟨rfl, fun r hr => ?_⟩
    have hsid := advance_sid cfg (keepsType_onTrade trade) hr
    exact hsid

def rowsOf (sid : ℤ) : List BarRow := t.barRows.filter fun r => r.securityId = sid

theorem rowsOf_apply {u : Update} {owner : ℤ} (hu : ∀ r ∈ u.bars, r.securityId = owner) (sid : ℤ) :
    (t.apply u).rowsOf sid = if owner = sid then t.rowsOf sid ++ u.bars else t.rowsOf sid := by
  simp only [rowsOf, apply, filter_append]
  split_ifs with h
  · have hall : u.bars.filter (fun r => r.securityId = sid) = u.bars :=
      filter_eq_self.2 fun r hr => by simpa using (hu r hr).trans h
    rw [hall]
  · have hnone : u.bars.filter (fun r => r.securityId = sid) = [] :=
      filter_eq_nil_iff.2 fun r hr => by simpa using (hu r hr).trans_ne h
    rw [hnone, append_nil]

structure EngineInv (cfg : TapeConfig) (symOf : ℤ → String) (inputs : List Input)
    (t : TapeEngine) : Prop where
  holds : ∀ sid, HoldsTrades cfg symOf sid inputs (t.rowsOf sid) (t.instrument cfg symOf sid)
  nodup : (t.state.map fun st => st.sid).Nodup

theorem mem_store_sid {xs : List InstrumentState} {y : ℤ}
    (h : y ∈ (store xs st).map fun x => x.sid) : y = st.sid ∨ y ∈ xs.map fun x => x.sid := by
  induction xs with
  | nil => simpa [store] using h
  | cons x xs ih =>
    rw [store] at h
    split_ifs at h with hx
    · rcases mem_cons.1 h with h | h
      · exact .inl h
      · exact .inr (mem_cons_of_mem _ h)
    · rcases mem_cons.1 h with rfl | h
      · exact .inr mem_cons_self
      · rcases ih h with h | h
        · exact .inl h
        · exact .inr (mem_cons_of_mem _ h)

theorem store_nodup {xs : List InstrumentState} (st : InstrumentState)
    (h : (xs.map fun x => x.sid).Nodup) : ((store xs st).map fun x => x.sid).Nodup := by
  induction xs with
  | nil => simp [store]
  | cons x xs ih =>
    rw [map_cons, nodup_cons] at h
    rw [store]
    split_ifs with hx
    · rw [map_cons, nodup_cons, ← hx]
      exact h
    · rw [map_cons, nodup_cons]
      refine ⟨fun hmem => ?_, ih h.2⟩
      rcases mem_store_sid hmem with heq | hmem
      · exact hx heq
      · exact h.1 hmem

theorem EngineInv.init : EngineInv cfg symOf [] {} := by
  refine ⟨fun sid => ⟨newInstrument_inv cfg sid (symOf sid), rfl, rfl, rfl⟩, nodup_nil⟩

theorem EngineInv.apply {t : TapeEngine} (h : EngineInv cfg symOf inputs t)
    {u : Update} (hsid : u.st.sid = sid) (hu : ∀ r ∈ u.bars, r.securityId = sid)
    (hown : HoldsTrades cfg symOf sid (inputs ++ [i]) (t.rowsOf sid ++ u.bars) u.st)
    (hother : ∀ s, s ≠ sid → tickOf s i = none) :
    EngineInv cfg symOf (inputs ++ [i]) (t.apply u) := by
  refine ⟨fun s => ?_, store_nodup _ h.nodup⟩
  rw [rowsOf_apply t hu, instrument_apply, hsid]
  split_ifs with hs
  · subst hs
    exact hown
  · exact (h.holds s).other (hother s (Ne.symm hs))

theorem EngineInv.step {t : TapeEngine} (h : EngineInv cfg symOf inputs t) (i : Input) :
    EngineInv cfg symOf (inputs ++ [i]) (t.step cfg symOf i) := by
  have hskip : (∀ s, tickOf s i = none) → EngineInv cfg symOf (inputs ++ [i]) t :=
    fun hi => ⟨fun s => (h.holds s).other (hi s), h.nodup⟩
  cases i with
  | event => exact hskip fun _ => rfl
  | depth row ts =>
    simp only [TapeEngine.step, onDepth]
    split
    · exact hskip fun _ => rfl
    · rename_i sid hrow
      have hst := h.holds sid
      refine h.apply hst.isSid (fun r hr => absurd hr not_mem_nil) ?_ fun _ _ => rfl
      rw [InstrumentState.onDepth, append_nil]
      have hbook : HoldsTrades cfg symOf sid inputs (t.rowsOf sid)
          { t.instrument cfg symOf sid with
            book := (t.instrument cfg symOf sid).book.onDepth cfg row ts } :=
        ⟨⟨hst.inv.cvd, hst.inv.series⟩, hst.extractor, hst.types, hst.isSid⟩
      exact hbook.other rfl
  | packet row =>
    simp only [TapeEngine.step, onPacket]
    split
    · rename_i sid htick hrow
      have hst := h.holds sid
      have hi : ∀ s, tickOf s (.packet row) = if s = sid then some row else none := by
        intro s
        simp [tickOf, htick, hrow, eq_comm]
      obtain ⟨hsid, hbars⟩ := onTick_sid cfg (t.instrument cfg symOf sid) row
      rw [hst.isSid] at hsid hbars
      exact h.apply hsid hbars (hst.onTick ((hi sid).trans (if_pos rfl)))
        fun s hs => (hi s).trans (if_neg hs)
    · rename_i hno
      refine hskip fun s => ?_
      rw [tickOf, if_neg]
      rintro ⟨htick, hrow⟩
      exact hno s htick hrow

variable (cfg symOf) in
theorem run_inv (inputs : List Input) : EngineInv cfg symOf inputs (run cfg symOf inputs) := by
  induction inputs using List.reverseRecOn with
  | nil => exact EngineInv.init
  | append_singleton inputs i ih =>
    rw [run, List.foldl_append]
    exact ih.step i

variable (cfg) in
theorem rowsOf_foldl_flush (l : List InstrumentState) (t : TapeEngine)
    (hnodup : (l.map fun st => st.sid).Nodup) (sid : ℤ) :
    (l.foldl (fun t st => t.apply (st.flush cfg)) t).rowsOf sid = t.rowsOf sid ++
      (l.find? fun st => st.sid = sid).elim [] fun st => (st.flush cfg).bars := by
  induction l generalizing t with
  | nil => simp
  | cons x l ih =>
    obtain ⟨hx, hnodup⟩ := List.nodup_cons.1 hnodup
    have hbars : ∀ r ∈ (x.flush cfg).bars, r.securityId = x.sid :=
      fun r hr => advance_sid cfg keepsType_flush hr
    rw [List.foldl_cons, ih _ hnodup, rowsOf_apply t hbars]
    by_cases h : x.sid = sid
    · have hnone : l.find? (fun st => st.sid = sid) = none :=
        List.find?_eq_none.2 fun st hst => by
          simpa using fun heq => hx (List.mem_map.2 ⟨st, hst, heq.trans h.symm⟩)
      simp [h, hnone]
    · simp [h]

variable (cfg symOf) in
theorem finalize_inv (inputs : List Input) (sid : ℤ) :
    ∃ st : InstrumentState, InstrumentInv (binOf cfg symOf sid) (extractedTrades cfg sid inputs)
        (((run cfg symOf inputs).finalize cfg).rowsOf sid) st ∧
      st.types = (newInstrument cfg sid (symOf sid)).types ∧
      ∀ s ∈ st.series, s.builder.acc.totals = 0 := by
  have hinv := run_inv cfg symOf inputs
  have hst := hinv.holds sid
  have hrows : ((run cfg symOf inputs).finalize cfg).rowsOf sid =
      (run cfg symOf inputs).rowsOf sid ++ ((run cfg symOf inputs).lookup sid).elim []
        fun st => (st.flush cfg).bars := rowsOf_foldl_flush cfg _ _ hinv.nodup sid
  rw [hrows]
  cases hfind : (run cfg symOf inputs).lookup sid with
  | some st =>
    rw [instrument, hfind] at hst
    exact ⟨(st.flush cfg).st, hst.inv.flush cfg hst.nodup,
      (advance_types cfg keepsType_flush).trans hst.types, flush_empty cfg hst.inv⟩
  | none =>
    rw [instrument, hfind] at hst
    rw [Option.elim_none, List.append_nil]
    refine ⟨newInstrument cfg sid (symOf sid), hst.inv, rfl, fun s hs => ?_⟩
    rw [(new_of_mem cfg hs).1]
    rfl

end TapeEngine

end Engine

def TapeEngine.seriesRows (t : TapeEngine) (sid : ℤ) (ty : BarType) : List BarRow :=
  t.barRows.filter fun r => r.securityId = sid ∧ r.bar.barType = ty

def buyVolume (trades : List Trade) : ℤ := ((trades.filter (·.side = .buy)).map (·.size)).sum

def sellVolume (trades : List Trade) : ℤ := ((trades.filter (·.side = .sell)).map (·.size)).sum

theorem sum_totals (trades : List Trade) : (trades.map Trade.totals).sum =
    (buyVolume trades, sellVolume trades, trades.length) := by
  induction trades with
  | nil => rfl
  | cons t trades ih =>
    rw [map_cons, sum_cons, ih]
    cases h : t.side <;>
      simp [Trade.totals, buyVolume, sellVolume, h, add_comm]

theorem sum_size (trades : List Trade) :
    (trades.map (·.size)).sum = buyVolume trades + sellVolume trades := by
  induction trades with
  | nil => rfl
  | cons t trades ih =>
    rw [map_cons, sum_cons, ih]
    cases h : t.side <;> simp [buyVolume, sellVolume, h] <;> ring

theorem sum_rows (rows : List BarRow) : (rows.map fun r => r.bar.totals).sum =
    ((rows.map fun r => r.bar.buyVol).sum, (rows.map fun r => r.bar.sellVol).sum,
      (rows.map fun r => r.bar.tradeCount).sum) := by
  induction rows with
  | nil => rfl
  | cons r rows ih =>
    simp only [map_cons, sum_cons, ih]
    rfl

/-- The bars of every type add up to the extracted trades, a bar's volume is split and lies in its
cells where kept, and its running delta is that of the bars so far. -/
theorem tape_conserves_trades (cfg : TapeConfig) (symOf : ℤ → String) (inputs : List Input)
    (sid : ℤ) (ty : BarType) (hty : builds cfg (symOf sid) ty) :
    let rows := ((TapeEngine.run cfg symOf inputs).finalize cfg).seriesRows sid ty
    let trades := extractedTrades cfg sid inputs
    ((rows.map fun r => r.bar.volume).sum = (trades.map (·.size)).sum ∧
      (rows.map fun r => r.bar.buyVol).sum = buyVolume trades ∧
      (rows.map fun r => r.bar.sellVol).sum = sellVolume trades ∧
      (rows.map fun r => r.bar.tradeCount).sum = trades.length) ∧
    (∀ r ∈ rows, r.bar.volume = r.bar.buyVol + r.bar.sellVol ∧
      (0 < cfg.footprintBinSize (classifyInstrument (symOf sid)) →
        r.bar.footprint.total = r.bar.volume)) ∧
    ∀ k r, rows[k]? = some r → r.bar.barIndex = k ∧
      r.cvdRunning = ((rows.take (k + 1)).map fun r => r.bar.delta).sum := by
  intro rows trades
  obtain ⟨st, hinv, htypes, hempty⟩ := TapeEngine.finalize_inv cfg symOf inputs sid
  have hmem : ty ∈ st.types := by
    rw [htypes, newInstrument_types]
    cases ty with
    | tick => split_ifs <;> simp
    | volume => simp [hty]
  obtain ⟨s, hs, rfl⟩ := mem_map.1 hmem
  have hseries := hinv.series s hs
  have hrows : rows = (((TapeEngine.run cfg symOf inputs).finalize cfg).rowsOf sid).filter
      fun r => r.bar.barType = s.builder.barType := by
    simp [rows, TapeEngine.seriesRows, TapeEngine.rowsOf, Bool.and_comm]
  rw [← hrows] at hseries
  have hsum := hseries.totals
  rw [hempty s hs, add_zero, sum_rows, sum_totals] at hsum
  simp only [Prod.mk.injEq] at hsum
  obtain ⟨hbuy, hsell, hcount⟩ := hsum
  refine ⟨⟨?_, hbuy, hsell, hcount⟩, hseries.rowsOk, hseries.sampled⟩
  rw [sum_size, ← hbuy, ← hsell, ← sum_map_add]
  exact congrArg List.sum (map_congr_left fun r hr => (hseries.rowsOk r hr).1)

/-- Two snapshots of a stock at one price, five shares apart. -/
def fiveShares : List Input :=
  [.packet { securityId := some 1, tsRecvNs := 1, ltp := some 10, volume := some 100 },
   .packet { securityId := some 1, tsRecvNs := 2, ltp := some 10, volume := some 105 }]

theorem fiveShares_conserved : let cfg : TapeConfig := { tickBarSize := 1 }
    builds cfg "RELIANCE" .tick ∧
      ((((TapeEngine.run cfg (fun _ => "RELIANCE") fiveShares).finalize cfg).seriesRows 1
        .tick).map fun r => r.bar.volume).sum =
        ((extractedTrades cfg 1 fiveShares).map (·.size)).sum := by
  intro cfg
  exact ⟨rfl, (tape_conserves_trades cfg (fun _ => "RELIANCE") fiveShares 1 .tick rfl).1.1⟩

/-- Without a volume threshold and a bin size the trade is in the tick bar alone. -/
theorem no_volume_bars_no_footprint :
    let cfg : TapeConfig := { tickBarSize := 1, footprintBinSize := fun _ => 0 }
    let t := (TapeEngine.run cfg (fun _ => "RELIANCE") fiveShares).finalize cfg
    ((extractedTrades cfg 1 fiveShares).map (·.size)).sum = 5 ∧
      ((t.seriesRows 1 .volume).map fun r => r.bar.volume).sum = 0 ∧
      (t.seriesRows 1 .tick).map (fun r => (r.bar.volume, r.bar.footprint.total)) = [(5, 0)] := by
  decide +kernel

end TradingBridge.Orderflow.Tape
