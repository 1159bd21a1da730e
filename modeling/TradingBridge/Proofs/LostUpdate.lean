import TradingBridge.PositionRow
import TradingBridge.Proofs.Specs

/-!
# An entry and an exit on one position

Alone, an entry adds its fill to the row and an exit takes its fill off, and the status follows
what remains. An entry that loads the row while an exit is at work on it writes back what it
loaded: the exit's fill is lost, and a position the exit closed is left closed with a quantity.
Where the two keep apart nothing is lost.
-/

namespace TradingBridge

open Effectful List

variable {p : StrategyPosition}

theorem flushColumns_sumEntry (signal : StrategySignal) (plan : EntryPlan) (report : BrokerReport)
    (ts : Nat) : flushColumns p (sumEntry signal plan report ts p) p
      = sumEntry signal plan report ts p := by
  simp only [flushColumns, sumEntry, recordEntryAction]
  grind

theorem flushColumns_reducePosition (leg : ExitLeg) (filled : Int) (side : String)
    (signal : SignalId) (ts : Nat) : flushColumns p (reducePosition leg p filled side signal ts) p
      = reducePosition leg p filled side signal ts := by
  simp only [flushColumns, reducePosition]
  grind

section Jobs

/-- Open while a quantity remains and closed when none does. -/
def StatusFits (p : StrategyPosition) : Prop := p.isOpen = true ↔ 0 < p.remainingQuantity

variable {closePct : ℚ}

theorem qtyFromOpenPct_le {openQty lotSize : Int} (hopen : 0 < openQty)
    (hpct : closePct ≤ 99) : qtyFromOpenPct openQty closePct lotSize ≤ openQty := by
  unfold qtyFromOpenPct
  split_ifs with h
  · exact hopen.le
  · push Not at h
    obtain ⟨-, hpos, hlot⟩ := h
    have hq : (0 : ℚ) < openQty := by exact_mod_cast hopen
    have hfloor : ((openQty : ℚ) * closePct / 100).floor ≤ openQty := by
      have hle : (openQty : ℚ) * closePct / 100 ≤ openQty := by nlinarith
      exact_mod_cast (Rat.floor_le _).trans hle
    exact (Int.ediv_mul_le _ hlot.ne').trans hfloor

variable (job : ExitJob)

theorem ExitJob.closeQty_le {openQty : Int} (hopen : 0 < openQty) :
    job.closeQty openQty ≤ openQty := by
  unfold closeQty
  split_ifs
  · split
    · rename_i closePct hpct
      exact qtyFromOpenPct_le hopen (payloadClosePct_eq_ok.1 hpct).2.2
    · exact hopen.le
  · exact le_rfl

theorem ExitJob.filled_nonneg (p : StrategyPosition) : 0 ≤ job.filled p := by
  unfold filled
  split_ifs with h
  · exact job.confirmed_nonneg _ h.2
  · exact le_rfl

theorem ExitJob.filled_le (hp : 0 < p.remainingQuantity) : job.filled p ≤ p.remainingQuantity := by
  unfold filled
  split_ifs with h
  · exact (job.confirmed_le _ h.2).trans (job.closeQty_le hp)
  · exact hp.le

def EntryJob.added (job : EntryJob) (found : Option StrategyPosition) : Int :=
  if found.isSome then job.report.filledQty else 0

/-- What the broker confirmed for the exit of the row it found. -/
def ExitJob.closed (found : Option StrategyPosition) : Int :=
  (found.map job.filled).getD 0

theorem EntryJob.apply_spec (job : EntryJob) (hp : StatusFits p) :
    (job.txn.apply p).remainingQuantity
        = p.remainingQuantity + job.added (job.txn.lookup p)
      ∧ StatusFits (job.txn.apply p) := by
  by_cases hopen : p.isOpen = true
  · have happly : job.txn.apply p = sumEntry job.signal job.plan job.report job.ts p := by
      rw [Txn.apply_of_writes hopen rfl, flushColumns_sumEntry]
    have hlookup : job.txn.lookup p = some p := Txn.lookup_eq_some.2 ⟨hopen, rfl⟩
    have hpos := job.filled_pos
    rw [happly, hlookup]
    refine ⟨rfl, ⟨fun _ => ?_, fun _ => hopen⟩⟩
    have := hp.1 hopen
    change 0 < p.remainingQuantity + job.report.filledQty
    omega
  · have hlookup : job.txn.lookup p = none := if_neg hopen
    rw [Txn.apply_of_lookup_none hlookup, hlookup]
    exact ⟨by simp [added], hp⟩

theorem ExitJob.apply_spec (hp : StatusFits p) : (job.txn.apply p).remainingQuantity
        = p.remainingQuantity - job.closed (job.txn.lookup p)
      ∧ StatusFits (job.txn.apply p) := by
  by_cases hopen : p.isOpen = true
  · have hlookup : job.txn.lookup p = some p := Txn.lookup_eq_some.2 ⟨hopen, rfl⟩
    rw [hlookup]
    change _ = p.remainingQuantity - job.filled p ∧ _
    have hnonneg := job.filled_nonneg p
    have hle := job.filled_le (hp.1 hopen)
    by_cases hnone : job.filled p ≤ 0
    · rw [Txn.apply_of_writes_none (if_pos hnone)]
      exact ⟨by omega, hp⟩
    · rw [Txn.apply_of_writes hopen (if_neg hnone), flushColumns_reducePosition]
      refine ⟨by simp [reducePosition]; omega, ?_⟩
      simp only [StatusFits, StrategyPosition.isOpen, reducePosition]
      split_ifs with hpos <;> simpa using hpos
  · have hlookup : job.txn.lookup p = none := if_neg hopen
    rw [Txn.apply_of_lookup_none hlookup, hlookup]
    exact ⟨by simp [closed], hp⟩

end Jobs

section Race

variable (entry : EntryJob) (exit : ExitJob)

/-- What a session changes the remaining quantity by. -/
def rowChange : RowSession × Option StrategyPosition → Int
  | (.entry, found) => entry.added found
  | (.exit, found) => -exit.closed found

theorem serial_remaining {q : StrategyPosition} {L : List (RowSession × Option StrategyPosition)}
    (hp : StatusFits p) (h : Sessions.Serial (rowTxn entry exit) p L q) :
    q.remainingQuantity = p.remainingQuantity + (L.map (rowChange entry exit)).sum
      ∧ StatusFits q := by
  induction h with
  | nil => exact ⟨by simp, hp⟩
  | @snoc L v h k ih =>
    obtain ⟨hsum, hfits⟩ := ih
    rw [map_append, sum_append]
    cases k with
    | entry =>
      obtain ⟨hremaining, hfits'⟩ := entry.apply_spec hfits
      refine ⟨?_, hfits'⟩
      simp only [rowTxn, rowChange, map_cons, map_nil, sum_cons, sum_nil]
      omega
    | exit =>
      obtain ⟨hremaining, hfits'⟩ := exit.apply_spec hfits
      refine ⟨?_, hfits'⟩
      simp only [rowTxn, rowChange, map_cons, map_nil, sum_cons, sum_nil]
      omega

/-- Where the two keep apart, the row ends with what it had, plus the entry's fill, less the
exit's. -/
theorem entry_and_exit_both_booked {s : Sessions RowSession StrategyPosition}
    {ks : List RowSession} {foundEntry foundExit : Option StrategyPosition} (hp : StatusFits p)
    (hrun : Run (Sessions.next (rowTxn entry exit)) (Sessions.Apart (rowTxn entry exit))
      (.start p) ks s)
    (hentry : s.stage .entry = .done foundEntry) (hexit : s.stage .exit = .done foundExit) :
    s.row.committed.remainingQuantity
        = p.remainingQuantity + entry.added foundEntry - exit.closed foundExit
      ∧ StatusFits s.row.committed := by
  have hdone : ∀ k, ∃ found, s.stage k = .done found
    | .entry => ⟨_, hentry⟩
    | .exit => ⟨_, hexit⟩
  obtain ⟨L, hserial, hnodup, hmem⟩ := Sessions.serial_of_apart hrun hdone
  obtain ⟨hremaining, hfits⟩ := serial_remaining entry exit hp hserial
  have hperm : L.Perm [(.entry, foundEntry), (.exit, foundExit)] := by
    refine (perm_ext_iff_of_nodup hnodup.of_map (by simp)).2 fun ⟨k, found⟩ => ?_
    rw [hmem]
    cases k with
    | entry => simp [hentry, eq_comm]
    | exit => simp [hexit, eq_comm]
  have hsum := (hperm.map (rowChange entry exit)).sum_eq
  refine ⟨?_, hfits⟩
  rw [hremaining, hsum]
  simp only [rowChange, map_cons, map_nil, sum_cons, sum_nil]
  omega

end Race

def sampleEntryJob : EntryJob where
  signal := sampleSignal 102 "ENTRY"
  plan := ⟨false, .buy, ⟨7, 10, .dhan, true, 0⟩, some 7, 1, 4⟩
  report := ⟨.broker 1, .complete, none, 4⟩
  ts := 20000
  filled_pos := by decide

/-- An exit whose every order is filled in full. -/
def sampleExitJob : ExitJob where
  leg := exitLeg
  signal := sampleSignal 101 "EXIT"
  side := "long"
  lotSize := 1
  confirmed := id
  ts := 20000
  confirmed_nonneg _ h := h.le
  confirmed_le _ _ := le_rfl

def keepsApart (s : Sessions RowSession StrategyPosition) (k : RowSession) : Bool :=
  match s.stage k, s.stage .entry with
  | .idle, .loaded (some _) => false
  | .idle, _ => s.row.held.isNone
  | _, _ => true

theorem apart_of_keepsApart {entry : EntryJob} {exit : ExitJob}
    {s : Sessions RowSession StrategyPosition} {k : RowSession} (h : keepsApart s k = true) :
    s.Apart (rowTxn entry exit) k := by
  intro hk
  rw [keepsApart, hk] at h
  split at h
  · cases h
  · rename_i hentry
    refine ⟨Option.isNone_iff_eq_none.1 h, fun j v hj hv => ?_⟩
    cases j with
    | entry => exact hentry v hv
    | exit => cases hj
  · rename_i hidle _
    exact (hidle rfl).elim

theorem entry_then_exit_booked : ∃ s, Run (Sessions.next (rowTxn sampleEntryJob sampleExitJob))
        (Sessions.Apart (rowTxn sampleEntryJob sampleExitJob)) (.start (samplePosition 150 none 10))
        [.entry, .entry, .entry, .exit, .exit, .exit] s
      ∧ s.row.committed.remainingQuantity = 4 + 4 - 8 ∧ StatusFits s.row.committed := by
  have hexec : (exec (fun s k => if keepsApart s k then
        Sessions.next (rowTxn sampleEntryJob sampleExitJob) s k else none)
      (.start (samplePosition 150 none 10)) [.entry, .entry, .entry, .exit, .exit, .exit]).any
      (fun s => decide (s.stage .entry = .done (some (samplePosition 150 none 10))
        ∧ s.stage .exit = .done (some (sumEntry sampleEntryJob.signal sampleEntryJob.plan
          sampleEntryJob.report sampleEntryJob.ts (samplePosition 150 none 10))))) = true := by
    decide +kernel
  obtain ⟨s, hrun, h⟩ := exists_run_of_exec_checked keepsApart
    (fun _ _ => apart_of_keepsApart) hexec
  obtain ⟨hentry, hexit⟩ := of_decide_eq_true h
  have hfits : StatusFits (samplePosition 150 none 10) := by
    unfold StatusFits
    decide
  exact ⟨s, hrun, entry_and_exit_both_booked sampleEntryJob sampleExitJob hfits hrun hentry hexit⟩

/-- The entry loads the row while the exit holds it, and writes its eight over the closed row. -/
theorem exit_fill_lost : ∃ s,
    Run (Sessions.next (rowTxn sampleEntryJob sampleExitJob)) (fun _ _ => True)
        (.start (samplePosition 150 none 10)) [.exit, .entry, .exit, .exit, .entry, .entry] s
      ∧ s.stage .entry = .done (some (samplePosition 150 none 10))
      ∧ s.stage .exit = .done (some (samplePosition 150 none 10))
      ∧ sampleEntryJob.added (some (samplePosition 150 none 10)) = 4
      ∧ sampleExitJob.closed (some (samplePosition 150 none 10)) = 4
      ∧ s.row.committed.remainingQuantity ≠ 4 + 4 - 4
      ∧ s.row.committed.remainingQuantity = 8 ∧ s.row.committed.status = .closed := by
  decide +kernel

end TradingBridge
