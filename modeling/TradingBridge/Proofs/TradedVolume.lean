import TradingBridge.Proofs.TapeConservation

/-!
# The volume of the extracted trades

A trade is what the cumulative volume rose by since the tick before, so the sizes add up to all its
rises. After a step down the rise back is extracted again: the sizes stay within what the volume
gained exactly when it never rises after a step down.
-/

namespace TradingBridge.Orderflow.Tape

open List

/-- The volume of a tick that the extractor reads. -/
def TickPacket.reading (row : TickPacket) : Option ℤ := row.ltp.bind fun _ => row.volume

/-- The trades that a fresh extractor finds in the ticks, by the change of volume. -/
def volumeTrades (method : ClassifyMethod) (rows : List TickPacket) : List Trade :=
  (rows.foldl extractStep ({ sizeMode := .volumeDelta, method }, [])).2

def totalSize (trades : List Trade) : ℤ := (trades.map (·.size)).sum

/-- All that the volumes rise by, one after another; the first has none before it. -/
def rises : Option ℤ → List ℤ → ℤ
  | _, [] => 0
  | last, v :: vs => max (v - last.getD v) 0 + rises (some v) vs

section Extracted

variable {x : TradeExtractor} {row : TickPacket}

theorem onTick_of_reading_none (h : row.reading = none) : x.onTick row = (x, none) := by
  unfold TickPacket.reading at h
  unfold TradeExtractor.onTick
  cases hltp : row.ltp <;> cases hvol : row.volume <;> simp_all

theorem onTick_of_reading {v : ℤ} (h : row.reading = some v) (hmode : x.sizeMode = .volumeDelta) :
    (x.onTick row).1.sizeMode = .volumeDelta ∧ (x.onTick row).1.lastVolume = some v
      ∧ totalSize (x.onTick row).2.toList = max (v - x.lastVolume.getD v) 0 := by
  obtain ⟨price, hltp, hvol⟩ := Option.bind_eq_some_iff.1 h
  unfold TradeExtractor.onTick
  rw [hvol, hltp]
  cases x.lastVolume with
  | none => exact ⟨hmode, rfl, by simp [totalSize]⟩
  | some last =>
    dsimp only [Option.getD_some]
    split_ifs with hrise
    · exact ⟨hmode, rfl, by simp [totalSize, hrise]⟩
    · refine ⟨hmode, rfl, ?_⟩
      simp only [totalSize, TradeExtractor.tradeSize, hmode, Option.toList_some, map_cons,
        map_nil, sum_cons, sum_nil]
      omega

theorem totalSize_extracted {trades : List Trade} (rows : List TickPacket)
    (hmode : x.sizeMode = .volumeDelta) : totalSize (rows.foldl extractStep (x, trades)).2 =
      totalSize trades + rises x.lastVolume (rows.filterMap TickPacket.reading) := by
  induction rows generalizing x trades with
  | nil => simp [rises]
  | cons row rows ih =>
    rw [foldl_cons]
    cases hrow : row.reading with
    | none =>
      rw [filterMap_cons_none hrow, extractStep, onTick_of_reading_none hrow]
      simpa using ih hmode
    | some v =>
      obtain ⟨hmode', hlast', hsize⟩ := onTick_of_reading hrow hmode
      rw [filterMap_cons_some hrow, extractStep, ih hmode', hlast', rises]
      simp only [totalSize, map_append, sum_append] at hsize ⊢
      omega

theorem totalSize_volumeTrades {method : ClassifyMethod} {rows : List TickPacket} {v : ℤ}
    {vs : List ℤ} (h : rows.filterMap TickPacket.reading = v :: vs) :
    totalSize (volumeTrades method rows) = rises (some v) vs := by
  rw [volumeTrades, totalSize_extracted rows rfl, h]
  simp [totalSize, rises]

end Extracted

section Rises

/-- Up to a point the volumes never fall, and from it on they never rise. -/
def RisesThenFalls (vols : List ℤ) : Prop :=
  ∃ up down, vols = up ++ down ∧ up.IsChain (· ≤ ·) ∧ down.IsChain (· ≥ ·)

variable {u v : ℤ} {vs : List ℤ}

theorem rises_nonneg (v : ℤ) (vs : List ℤ) : 0 ≤ rises (some v) vs := by
  induction vs generalizing v with
  | nil => exact le_rfl
  | cons w vs ih => exact add_nonneg (le_max_right _ _) (ih w)

theorem foldl_max_cons (v w : ℤ) (vs : List ℤ) :
    (w :: vs).foldl max v = max v (vs.foldl max w) := foldl_assoc

theorem le_foldl_max (v : ℤ) (vs : List ℤ) : v ≤ vs.foldl max v := by
  cases vs with
  | nil => exact le_rfl
  | cons w vs =>
    rw [foldl_max_cons]
    exact le_max_left _ _

theorem gain_le_rises (v : ℤ) (vs : List ℤ) : vs.foldl max v - v ≤ rises (some v) vs := by
  induction vs generalizing v with
  | nil => simp [rises]
  | cons w vs ih =>
    have hw := ih w
    have hnonneg := rises_nonneg w vs
    rw [foldl_max_cons, rises, Option.getD_some]
    omega

theorem rises_nonpos_iff : rises (some v) vs ≤ 0 ↔ (v :: vs).IsChain (· ≥ ·) := by
  induction vs generalizing v with
  | nil => simp [rises]
  | cons w vs ih =>
    have hnonneg := rises_nonneg w vs
    rw [isChain_cons_cons, ← ih, rises, Option.getD_some]
    omega

theorem risesThenFalls_cons_of_le (h : u ≤ v) :
    RisesThenFalls (u :: v :: vs) ↔ RisesThenFalls (v :: vs) := by
  constructor
  · rintro ⟨up, down, heq, hup, hdown⟩
    rcases cons_eq_append_iff.1 heq with ⟨rfl, rfl⟩ | ⟨up', rfl, heq'⟩
    · exact ⟨[], v :: vs, rfl, .nil, hdown.tail⟩
    · exact ⟨up', down, heq', hup.tail, hdown⟩
  · rintro ⟨up, down, heq, hup, hdown⟩
    refine ⟨u :: up, down, by rw [heq, cons_append], ?_, hdown⟩
    rcases cons_eq_append_iff.1 heq with ⟨rfl, -⟩ | ⟨up', rfl, -⟩
    · exact .singleton u
    · exact isChain_cons_cons.2 ⟨h, hup⟩

theorem risesThenFalls_cons_of_lt (h : v < u) :
    RisesThenFalls (u :: v :: vs) ↔ (u :: v :: vs).IsChain (· ≥ ·) := by
  constructor
  · rintro ⟨up, down, heq, hup, hdown⟩
    rcases cons_eq_append_iff.1 heq with ⟨rfl, rfl⟩ | ⟨up', rfl, heq'⟩
    · exact hdown
    · rcases cons_eq_append_iff.1 heq' with ⟨rfl, rfl⟩ | ⟨up'', rfl, -⟩
      · exact isChain_cons_cons.2 ⟨h.le, hdown⟩
      · exact absurd (isChain_cons_cons.1 hup).1 (not_le.2 h)
  · exact fun hfall => ⟨[], _, rfl, .nil, hfall⟩

theorem rises_le_gain_iff : rises (some v) vs ≤ vs.foldl max v - v ↔ RisesThenFalls (v :: vs) := by
  induction vs generalizing v with
  | nil =>
    have hone : RisesThenFalls [v] := ⟨[v], [], rfl, .singleton v, .nil⟩
    simp [rises, hone]
  | cons w vs ih =>
    have hgain := gain_le_rises w vs
    have hmax := le_foldl_max w vs
    rw [foldl_max_cons, rises, Option.getD_some]
    rcases le_or_gt v w with hle | hlt
    · rw [risesThenFalls_cons_of_le hle, ← ih]
      omega
    · -- Below the old volume a rise would have to count more than the gain above it.
      rw [risesThenFalls_cons_of_lt hlt, isChain_cons_cons, ← rises_nonpos_iff]
      omega

theorem rises_of_chain (h : (v :: vs).IsChain (· ≤ ·)) :
    rises (some v) vs = vs.foldl max v - v :=
  le_antisymm (rises_le_gain_iff.2 ⟨v :: vs, [], by simp, h, .nil⟩) (gain_le_rises v vs)

end Rises

/-- The trades stay within the volume's gain exactly when it never rises after a step down. -/
theorem traded_within_gain_iff (method : ClassifyMethod) (rows : List TickPacket) {v : ℤ}
    {vs : List ℤ} (h : rows.filterMap TickPacket.reading = v :: vs) :
    (totalSize (volumeTrades method rows) ≤ vs.foldl max v - v
      ∧ ((v :: vs).IsChain (· ≤ ·) →
        totalSize (volumeTrades method rows) = vs.foldl max v - v))
    ↔ RisesThenFalls (v :: vs) := by
  rw [totalSize_volumeTrades h, rises_le_gain_iff, and_iff_left rises_of_chain]

/-- A tick with the given cumulative volume. -/
def volumeTick (volume : ℤ) : TickPacket :=
  { securityId := some 1, tsRecvNs := 0, ltp := some 100, volume := some volume }

/-- A volume corrected from 100 to 60 and back makes a trade of 40 out of no gain. -/
theorem correction_counted_twice :
    totalSize (volumeTrades .leeReady ([100, 60, 100].map volumeTick)) = 40
      ∧ [60, 100].foldl max (100 : ℤ) - 100 = 0 := by
  decide +kernel

theorem steady_volume_counted_once :
    totalSize (volumeTrades .leeReady ([100, 100, 130].map volumeTick)) ≤ 30 := by
  have hup : RisesThenFalls [100, 100, 130] := ⟨[100, 100, 130], [], by simp, by simp, .nil⟩
  exact ((traded_within_gain_iff .leeReady ([100, 100, 130].map volumeTick) rfl).2 hup).1

end TradingBridge.Orderflow.Tape
