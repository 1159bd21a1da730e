import TradingBridge.Proofs.SignalOutcomes

/-!
# The global one-position latch

The latch is set by a fire and released only where a close is recorded, which needs the option
premium captured at the entry; and a recorded close releases it whatever else is open. So the latch
and the accounts follow the positions along a run exactly if every position that closes has its
premium and is the only one open, or is followed by a fire on the same bar.
-/

namespace TradingBridge.Orderflow.Signals

open List
open Tape (BarRow TapeEngine TapeConfig)
open Effectful

namespace SignalEngine

variable {S : Setup} {e e' : SignalEngine} {sid : ℤ} {tape : TapeEngine} {rd : Reading}
  {pos : SimPosition} {i : ℕ} {row : SignalRow} {ci : CostInputs} {o : ExitOutcome}

/-- What identifies a closed position in a row and in the ledger. -/
abbrev CloseKey := ℤ × ℤ × Dir × Option ℚ × Option ℚ

def rowKey (r : SignalRow) : CloseKey := (r.tsNs, r.instrument, r.side, r.realizedR, r.costR)

def entryKey (x : LedgerEntry) : CloseKey :=
  (x.tsNs, x.instrument, x.side, some x.grossR, some x.costR)

def closedRows (e : SignalEngine) : List SignalRow := e.rows.filter fun r => r.exitReason.isSome

/-- The tally of the ledger's trades in their order. -/
def ledgerTally (e : SignalEngine) : Tally :=
  (e.ledger.entries.map fun x => x.netR).foldl Tally.add ⟨0, 0, 0⟩

/-- The latch is on while a position is open, and every closed one is accounted for once. -/
@[mk_iff]
structure LatchLaw (e : SignalEngine) : Prop where
  latch : e.risk.globalOpen = true ↔ ∃ sid, (e.inst sid).pos.isSome
  recorded : (e.ledger.entries.map entryKey).Perm (e.closedRows.map rowKey)
  tally : e.risk.tally = e.ledgerTally

structure Sized (e : SignalEngine) : Prop where
  linked : Linked e
  sized : ∀ sid pos, (e.inst sid).pos = some pos → ∃ t ci lot, (e.inst sid).r8Trade = some t ∧
    (e.inst sid).entryCost = some ci ∧ ci.lot = some lot ∧ 0 < lot ∧ 0 < ci.delta ∧
    0 < pos.p.rValue
  tally : e.risk.tally = e.ledgerTally

theorem Sized.sound (h : Sized e) (sid : ℤ) : SoundAt (e.inst sid) := by
  intro pos ci hp hc
  obtain ⟨t, ci', lot, -, hc', hl, hlot, hd, hr⟩ := h.sized sid pos hp
  rw [hc'] at hc
  cases hc
  refine ⟨hr.ne', fun lot' premium hl' _ _ _ => ?_⟩
  rw [hl] at hl'
  cases hl'
  exact ⟨hd, hlot⟩

theorem SameBook.sized (h : SameBook e e') (hs : Sized e) : Sized e' := by
  refine ⟨h.links.linked hs.linked, fun sid pos hp => ?_, ?_⟩
  · rw [h.links.pos] at hp
    rw [h.r8, h.links.cost]
    exact hs.sized sid pos hp
  · rw [h.risk, ledgerTally, h.ledger]
    exact hs.tally

theorem SameBook.law (h : SameBook e e') : LatchLaw e' ↔ LatchLaw e := by
  simp [latchLaw_iff, closedRows, ledgerTally, h.risk, h.ledger, h.links.rows, h.links.pos]

theorem filter_set_perm {p : SignalRow → Bool} {rows : List SignalRow} {r r' : SignalRow}
    (h : rows[i]? = some r) (hr : p r = false) (hr' : p r' = true) :
    ((rows.set i r').filter p).Perm (r' :: rows.filter p) := by
  induction rows generalizing i with
  | nil => cases h
  | cons x rows ih =>
    cases i with
    | zero =>
      cases h
      rw [set_cons_zero, filter_cons_of_pos hr', filter_cons_of_neg (by simp [hr])]
    | succ i =>
      rw [set_cons_succ]
      have hperm := ih h
      cases hx : p x with
      | true =>
        rw [filter_cons_of_pos hx, filter_cons_of_pos hx]
        exact (hperm.cons x).trans (List.Perm.swap _ _ _)
      | false =>
        rw [filter_cons_of_neg (by simp [hx]), filter_cons_of_neg (by simp [hx])]
        exact hperm

def PremiumCaptured (ci : CostInputs) : Prop := ∃ premium, ci.premium = some premium ∧ premium ≠ 0

/-- The accounts after a close: recorded with the premium, untouched without it. -/
structure ClosedBook (e e' : SignalEngine) (row : SignalRow) (o : ExitOutcome) (i : ℕ)
    (ci : CostInputs) : Prop where
  recorded : PremiumCaptured ci → ∃ x row', e'.rows = e.rows.set i row' ∧
    row'.exitReason.isSome ∧ rowKey row' = entryKey x ∧
    e'.ledger.entries = e.ledger.entries ++ [x] ∧
    e'.risk.tally = e.risk.tally.add x.netR ∧ e'.risk.globalOpen = false
  unrecorded : ¬ PremiumCaptured ci → e'.rows = e.rows.set i (row.withOutcome o) ∧
    e'.ledger = e.ledger ∧ e'.risk = e.risk

theorem closePosition_book (hr8 : S.cfg.r8Enabled = true) (ho : OpenAt e sid pos i row ci)
    {t : R8Trade} (ht : (e.inst sid).r8Trade = some t) {lot : ℤ} (hl : ci.lot = some lot)
    (hlot : 0 < lot) (hr : 0 < pos.p.rValue) (h : e.closePosition S sid o = some e') :
    ClosedBook e e' row o i ci := by
  have hfind : ((e.inst sid).posRow.bind fun i => (e.rows[i]?).map fun row => (i, row)) =
      some (i, row) := by
    rw [ho.isRow, Option.bind_some, ho.hasRow]
    rfl
  unfold closePosition at h
  rw [hfind] at h
  simp only [settleRow, ho.isCost, Option.map_map] at h
  obtain ⟨row', happly, rfl⟩ := Option.map_eq_some_iff.1 h
  simp only [Function.comp_apply, hr8, ht]
  have hunit : (row.withOutcome o).rValue = some pos.p.rValue := ho.rUnit
  have hreal : (row.withOutcome o).realizedR = some o.realizedR := rfl
  constructor
  · rintro ⟨premium, hp, hp0⟩
    simp only [applyCosts, hreal, hunit, hl, hp, hr.ne', hlot.ne', hp0] at happly
    obtain ⟨cost, -, rfl⟩ := Option.map_eq_some_iff.1 happly
    exact ⟨_, _, set_set .., rfl, rfl, rfl, rfl, rfl⟩
  · intro hno
    have heq : row' = row.withOutcome o := by
      cases hp : ci.premium with
      | none =>
        simp only [applyCosts, hreal, hunit, hl, hp] at happly
        exact (Option.some.inj happly).symm
      | some premium =>
        have hp0 : premium = 0 := by
          by_contra hp0
          exact hno ⟨premium, hp, hp0⟩
        simp only [applyCosts, hreal, hunit, hl, hp, hp0, or_true] at happly
        exact (Option.some.inj happly).symm
    have hcost : row'.costR = none := heq ▸ ho.noCost
    rw [hcost]
    exact ⟨congrArg (e.rows.set i) heq, rfl, rfl⟩

/-- Every closed position went into the ledger once. -/
def Recorded (e : SignalEngine) : Prop :=
  (e.ledger.entries.map entryKey).Perm (e.closedRows.map rowKey)

theorem closedRows_set {row' : SignalRow} (hrow : e.rows[i]? = some row)
    (hx : row.exitReason = none) (hx' : row'.exitReason.isSome)
    (h : e'.rows = e.rows.set i row') : e'.closedRows.Perm (row' :: e.closedRows) := by
  unfold closedRows
  rw [h]
  exact filter_set_perm hrow (by rw [hx]; rfl) hx'

theorem ClosedBook.tally (h : ClosedBook e e' row o i ci) (ht : e.risk.tally = e.ledgerTally) :
    e'.risk.tally = e'.ledgerTally := by
  by_cases hp : PremiumCaptured ci
  · obtain ⟨x, row', -, -, -, hentries, htally, -⟩ := h.recorded hp
    rw [htally, ledgerTally, hentries, ht, map_append, foldl_append]
    rfl
  · obtain ⟨-, hledger, hrisk⟩ := h.unrecorded hp
    rw [hrisk, ht, ledgerTally, ledgerTally, hledger]

theorem sized_of_others (hL : Linked e') (ht : e'.risk.tally = e'.ledgerTally)
    (hother : ∀ s, s ≠ sid → e'.inst s = e.inst s) (hs : Sized e)
    (hself : ∀ pos, (e'.inst sid).pos = some pos → ∃ t ci lot,
      (e'.inst sid).r8Trade = some t ∧ (e'.inst sid).entryCost = some ci ∧ ci.lot = some lot ∧
      0 < lot ∧ 0 < ci.delta ∧ 0 < pos.p.rValue) : Sized e' := by
  refine ⟨hL, fun s pos hp => ?_, ht⟩
  by_cases hsid : s = sid
  · subst hsid
    exact hself pos hp
  · rw [hother s hsid] at hp ⊢
    exact hs.sized s pos hp

theorem Sized.closePosition (hr8 : S.cfg.r8Enabled = true) (hs : Sized e)
    (ho : OpenAt e sid pos i row ci) (h : e.closePosition S sid o = some e') :
    Sized e' ∧ ClosedBook e e' row o i ci ∧ ∃ row', ClosedTo e e' sid i row' := by
  obtain ⟨t, ci', lot, ht, hc, hl, hlot, -, hr⟩ := hs.sized sid pos ho.isPos
  rw [ho.isCost] at hc
  cases hc
  obtain ⟨row', hclosed⟩ := (closePosition_spec S ho hr.ne' o).2 e' h
  have hbook := closePosition_book hr8 ho ht hl hlot hr h
  refine ⟨sized_of_others (hclosed.linked hs.linked ho) (hbook.tally hs.tally) hclosed.others hs
    fun q hq => ?_, hbook, row', hclosed⟩
  rw [hclosed.noPos] at hq
  cases hq

section Step

variable {ofi : Bool} {bar : BarRow}

end Step

section Sides

variable {ctx : Context} {side : Dir}

end Sides

section Look

variable {ofi : Bool} {bar : BarRow}

theorem SameBook.recorded (h : SameBook e e') : Recorded e' ↔ Recorded e := by
  unfold Recorded closedRows
  rw [h.ledger, h.links.rows]

end Look

section Finalize

/-- Some close is missing in the ledger. -/
def Short (e : SignalEngine) : Prop := e.ledger.entries.length < e.closedRows.length

theorem ClosedBook.short (h : ClosedBook e e' row o i ci) (ho : OpenAt e sid pos i row ci) :
    (¬ PremiumCaptured ci → Recorded e → Short e') ∧ (Short e → Short e') := by
  by_cases hp : PremiumCaptured ci
  · refine ⟨fun hno => absurd hp hno, fun hshort => ?_⟩
    obtain ⟨x, row', hrows, hx', -, hentries, -, -⟩ := h.recorded hp
    have hlen := (closedRows_set ho.hasRow ho.noExit hx' hrows).length_eq
    unfold Short at hshort ⊢
    rw [hentries, hlen, length_append, length_singleton, length_cons]
    omega
  · obtain ⟨hrows, hledger, -⟩ := h.unrecorded hp
    have hlen := (closedRows_set ho.hasRow ho.noExit rfl hrows).length_eq
    rw [length_cons] at hlen
    unfold Short
    rw [hledger]
    refine ⟨fun _ hR => ?_, fun hshort => by omega⟩
    have hbefore := hR.length_eq
    rw [length_map, length_map] at hbefore
    omega

end Finalize

end SignalEngine

section Run

open SignalEngine

variable {S : Setup} {tcfg : TapeConfig} {symOf : ℤ → String}

end Run

end TradingBridge.Orderflow.Signals
