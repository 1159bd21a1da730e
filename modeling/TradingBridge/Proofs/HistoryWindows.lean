import TradingBridge.Orderflow.Levels

/-!
# The windows of a history request

The broker returns what lies between the two stamps. The days of the chunks follow one another
without a gap (`chunksFrom_spec`), so daily windows cover the range; an intraday window ends with
the first minute of its last day, and that day is lost (`history_windows_cover_iff`).
-/

namespace TradingBridge.Orderflow.Levels

open List

def Stamp.NotAfter (minute : ℕ) : Stamp → Prop
  | .date day => day ≤ minute / minutesPerDay
  | .instant m => m ≤ minute

def Stamp.NotBefore (minute : ℕ) : Stamp → Prop
  | .date day => minute / minutesPerDay ≤ day
  | .instant m => minute ≤ m

def Window.Covers (w : Window) (minute : ℕ) : Prop :=
  w.fromDate.NotAfter minute ∧ w.toDate.NotBefore minute

def Stamp.day : Stamp → ℕ
  | .date day => day
  | .instant m => m / minutesPerDay

/-- No minute in two windows, every minute of every day in one, none too long. -/
structure CoversRange (frm upto : ℕ) (maxDays : ℕ) (ws : List Window) : Prop where
  apart : ws.Pairwise fun w w' => ∀ minute, w.Covers minute → ¬ w'.Covers minute
  covered : ∀ minute, frm ≤ minute / minutesPerDay → minute / minutesPerDay ≤ upto →
    ∃ w ∈ ws, w.Covers minute
  short : ∀ w ∈ ws, w.toDate.day + 1 - w.fromDate.day ≤ maxDays

variable {maxDays frm upto fuel : ℕ}

theorem chunksFrom_spec (cur : ℕ) (hmax : 0 < maxDays) (hfuel : upto + 1 - cur ≤ fuel) :
    (∀ c ∈ chunksFrom maxDays upto fuel cur, cur ≤ c.1 ∧ c.1 ≤ c.2 ∧ c.2 ≤ upto
      ∧ c.2 + 1 - c.1 ≤ maxDays)
    ∧ (chunksFrom maxDays upto fuel cur).Pairwise (fun c c' => c.2 < c'.1)
    ∧ ∀ day, cur ≤ day → day ≤ upto →
      ∃ c ∈ chunksFrom maxDays upto fuel cur, c.1 ≤ day ∧ day ≤ c.2 := by
  induction fuel generalizing cur with
  | zero => exact ⟨by simp [chunksFrom], .nil, fun day hlow hup => by omega⟩
  | succ fuel ih =>
    unfold chunksFrom
    split_ifs with hcur
    · obtain ⟨hbounds, hapart, hcover⟩ := ih (min (cur + (maxDays - 1)) upto + 1) (by omega)
      refine ⟨forall_mem_cons.2 ⟨by dsimp only; omega, fun c hc => ?_⟩,
        pairwise_cons.2 ⟨fun c hc => ?_, hapart⟩, fun day hlow hup => ?_⟩
      · have := hbounds c hc
        omega
      · have := hbounds c hc
        omega
      · by_cases hday : day ≤ min (cur + (maxDays - 1)) upto
        · exact ⟨_, mem_cons_self, hlow, hday⟩
        · obtain ⟨c, hc, hin⟩ := hcover day (by omega) hup
          exact ⟨c, mem_cons_of_mem _ hc, hin⟩
    · exact ⟨by simp, .nil, fun day hlow hup => by omega⟩

theorem maxDaysOf_pos (timeframe : String) : 0 < maxDaysOf timeframe := by
  unfold maxDaysOf
  split_ifs <;> decide

theorem coversRange_daily (hmax : 0 < maxDays) : CoversRange frm upto maxDays
    ((chunks frm upto maxDays).map fun c => ⟨strftime true c.1, strftime true c.2⟩) := by
  obtain ⟨hbounds, hapart, hcover⟩ := chunksFrom_spec frm hmax (Nat.le_refl (upto + 1 - frm))
  refine ⟨pairwise_map.2 (hapart.imp fun h minute hw hw' => ?_), fun minute hlow hup => ?_,
    forall_mem_map.2 fun c hc => (hbounds c hc).2.2.2⟩
  · exact absurd (Nat.le_trans hw'.1 hw.2) (Nat.not_le.2 h)
  · obtain ⟨c, hc, hin⟩ := hcover _ hlow hup
    exact ⟨_, mem_map_of_mem hc, hin⟩

/-- Daily windows cover the range. An intraday window ends at the first minute of its last day, so
the rest of the last day is in none. -/
theorem history_windows_cover_iff (frm upto : ℕ) (timeframe : String) :
    CoversRange frm upto (maxDaysOf timeframe) (requestWindows frm upto timeframe)
      ↔ timeframe = "1d" ∨ upto < frm := by
  have hmax := maxDaysOf_pos timeframe
  unfold requestWindows
  by_cases hdaily : timeframe = "1d"
  · simpa [hdaily] using coversRange_daily (hdaily ▸ hmax)
  · simp only [hdaily, false_or]
    constructor
    · intro h
      by_contra hle
      obtain ⟨w, hw, hcovers⟩ := h.covered (upto * minutesPerDay + 1)
        (by simp [minutesPerDay]; omega) (by simp [minutesPerDay]; omega)
      obtain ⟨c, hc, rfl⟩ := mem_map.1 hw
      have hlast := ((chunksFrom_spec frm hmax (Nat.le_refl _)).1 c hc).2.2.1
      have hbefore : upto * minutesPerDay + 1 ≤ c.2 * minutesPerDay := hcovers.2
      have := Nat.mul_le_mul_right minutesPerDay hlast
      omega
    · intro hlt
      have hnone : chunks frm upto (maxDaysOf timeframe) = [] := by
        simp [chunks, show upto + 1 - frm = 0 by omega, chunksFrom]
      rw [hnone]
      exact ⟨.nil, fun minute hlow hup => by omega, by simp⟩

/-- One day of five-minute bars: 09:15 is not asked for. -/
theorem opening_not_requested :
    ¬ ∃ w ∈ requestWindows 20000 20000 "5m", w.Covers (20000 * minutesPerDay + 555) := by
  simp [requestWindows, chunks, chunksFrom, strftime, Window.Covers, Stamp.NotBefore]

end TradingBridge.Orderflow.Levels
