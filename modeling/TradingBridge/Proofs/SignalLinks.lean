import TradingBridge.Orderflow.SignalEngine

/-!
# Positions and their rows

An open position has one row that it will fill in, and no two positions share a row (`Linked`).
Each part of the engine keeps the links, and a run stays healthy exactly if no signal fires over
an open position or with inputs that cannot be closed (`healthy_evaluateSide`).
-/

namespace TradingBridge.Orderflow.Signals

open List Function
open Tape (BarRow)

section Position

namespace SimPosition

variable {pos pos' : SimPosition} {bar : SimBar}

theorem closeAt_eq_some {ts : ℤ} {reason : ExitReason} {price : ℚ}
    {r : SimPosition × ExitOutcome} (h : pos.closeAt ts reason price = some r) :
    pos.p.rValue ≠ 0 ∧ r.1.p = pos.p := by
  unfold closeAt rAt at h
  split_ifs at h with hr
  · cases h
  · cases h
    exact ⟨hr, rfl⟩

theorem closeAt_of_ne (h : pos.p.rValue ≠ 0) (ts : ℤ) (reason : ExitReason) (price : ℚ) :
    ∃ r, pos.closeAt ts reason price = some r := by
  unfold closeAt rAt
  rw [if_neg h]
  exact ⟨_, rfl⟩

theorem takePartial_kept : (pos.takePartial bar).p = pos.p ∧
    (pos.takePartial bar).closed = pos.closed := by
  unfold takePartial
  dsimp only
  split_ifs <;> exact ⟨rfl, rfl⟩

theorem trail_kept : (pos.trail bar).p = pos.p ∧ (pos.trail bar).closed = pos.closed := by
  unfold trail
  split <;> exact ⟨rfl, rfl⟩

theorem step_eq_some {o : Option ExitOutcome} (hopen : pos.closed = false)
    (h : pos.step bar = some (pos', o)) :
    pos'.p = pos.p ∧ (o.isSome → pos.p.rValue ≠ 0) ∧ (o = none → pos'.closed = false) := by
  have hkept : ((pos.takePartial bar).trail bar).p = pos.p ∧
      ((pos.takePartial bar).trail bar).closed = pos.closed :=
    ⟨trail_kept.1.trans takePartial_kept.1, trail_kept.2.trans takePartial_kept.2⟩
  have hclose : ∀ {q : SimPosition} {ts reason price}, q.p = pos.p →
      (q.closeAt ts reason price).map (fun r => (r.1, some r.2)) = some (pos', o) →
      pos'.p = pos.p ∧ (o.isSome → pos.p.rValue ≠ 0) ∧ (o = none → pos'.closed = false) := by
    intro q ts reason price hq hmap
    obtain ⟨r, hr, heq⟩ := Option.map_eq_some_iff.1 hmap
    obtain ⟨hne, hp⟩ := closeAt_eq_some hr
    cases heq
    exact ⟨hp.trans hq, fun _ => hq ▸ hne, nofun⟩
  unfold step at h
  rw [hopen] at h
  simp only [Bool.false_eq_true, if_false] at h
  split_ifs at h
  · exact hclose rfl h
  · exact hclose hkept.1 h
  · exact hclose hkept.1 h
  · cases h
    exact ⟨hkept.1, nofun, fun _ => hkept.2.trans hopen⟩

theorem step_of_ne (hr : pos.p.rValue ≠ 0) (bar : SimBar) : ∃ r, pos.step bar = some r := by
  have hp : ((pos.takePartial bar).trail bar).p = pos.p :=
    trail_kept.1.trans takePartial_kept.1
  unfold step
  split_ifs
  · exact ⟨_, rfl⟩
  · obtain ⟨r, h⟩ := closeAt_of_ne hr bar.tsNs .stop pos.stopFill
    exact ⟨_, by rw [h]; rfl⟩
  · dsimp only
    rw [← hp] at hr
    split_ifs
    · obtain ⟨r, h⟩ := closeAt_of_ne hr bar.tsNs .momentumDeath bar.close
      exact ⟨_, by rw [h]; rfl⟩
    · obtain ⟨r, h⟩ := closeAt_of_ne hr bar.tsNs .sleeper bar.close
      exact ⟨_, by rw [h]; rfl⟩
    · exact ⟨_, rfl⟩

end SimPosition

end Position

namespace SignalEngine

variable {S : Setup} {e e' : SignalEngine} {sid : ℤ} {pos : SimPosition} {i : ℕ} {row : SignalRow}
  {ci : CostInputs}

theorem inst_update_self (f : Instrument → Instrument) :
    (e.update sid f).inst sid = f (e.inst sid) :=
  update_self _ _ _

theorem inst_update_of_ne {s : ℤ} (f : Instrument → Instrument) (h : s ≠ sid) :
    (e.update sid f).inst s = e.inst s :=
  update_of_ne h _ _

theorem field_update {α : Type} (g : Instrument → α) {f : Instrument → Instrument}
    (h : ∀ x, g (f x) = g x) (s : ℤ) : g ((e.update sid f).inst s) = g (e.inst s) := by
  by_cases hs : s = sid
  · rw [hs, inst_update_self, h]
  · rw [inst_update_of_ne f hs]

/-- The position of an instrument, with the row it will fill in and its captured inputs. -/
@[mk_iff]
structure OpenAt (e : SignalEngine) (sid : ℤ) (pos : SimPosition) (i : ℕ) (row : SignalRow)
    (ci : CostInputs) : Prop where
  isPos : (e.inst sid).pos = some pos
  isRow : (e.inst sid).posRow = some i
  isCost : (e.inst sid).entryCost = some ci
  hasRow : e.rows[i]? = some row
  fired : row.fired = true
  noExit : row.exitReason = none
  noCost : row.costR = none
  rUnit : row.rValue = some pos.p.rValue
  rNonneg : 0 ≤ pos.p.rValue

/-- Every open position has its own row without an outcome, and only fired rows have outcomes. -/
@[mk_iff]
structure Linked (e : SignalEngine) : Prop where
  inst : ∀ sid, ((e.inst sid).pos = none ∧ (e.inst sid).posRow = none) ∨
    ∃ pos i row ci, OpenAt e sid pos i row ci ∧ pos.closed = false
  inj : ∀ s t i, (e.inst s).posRow = some i → (e.inst t).posRow = some i → s = t
  order : ∀ sid, sid ∈ e.openOrder ↔ (e.inst sid).pos.isSome
  nodup : e.openOrder.Nodup
  rowsOk : ∀ row ∈ e.rows, (row.exitReason.isSome ↔ row.realizedR.isSome) ∧
    (row.exitReason.isSome → row.fired)

/-- It has a risk unit, and the cost of a trade with a lot and a premium can be computed. -/
def Sound (rValue : ℚ) (ci : CostInputs) : Prop :=
  rValue ≠ 0 ∧ ∀ lot premium, ci.lot = some lot → ci.premium = some premium → lot ≠ 0 →
    premium ≠ 0 → 0 < ci.delta ∧ 0 < lot

/-- Every open position can be closed, and every fired row without an outcome has one. -/
@[mk_iff]
structure Healthy (e : SignalEngine) : Prop where
  sound : ∀ sid pos ci, (e.inst sid).pos = some pos → (e.inst sid).entryCost = some ci →
    Sound pos.p.rValue ci
  owned : ∀ i row, e.rows[i]? = some row → row.fired = true → row.exitReason = none →
    ∃ sid, (e.inst sid).posRow = some i

structure SameLinks (e e' : SignalEngine) : Prop where
  rows : e'.rows = e.rows
  order : e'.openOrder = e.openOrder
  pos : ∀ sid, (e'.inst sid).pos = (e.inst sid).pos
  posRow : ∀ sid, (e'.inst sid).posRow = (e.inst sid).posRow
  cost : ∀ sid, (e'.inst sid).entryCost = (e.inst sid).entryCost

theorem SameLinks.linked (h : SameLinks e e') (hL : Linked e) : Linked e' := by
  rw [linked_iff] at hL ⊢
  simpa only [openAt_iff, h.rows, h.order, h.pos, h.posRow, h.cost] using hL

theorem SameLinks.healthy (h : SameLinks e e') : Healthy e' ↔ Healthy e := by
  simp only [healthy_iff, h.rows, h.pos, h.posRow, h.cost]

theorem SameLinks.refl (e : SignalEngine) : SameLinks e e :=
  ⟨rfl, rfl, fun _ => rfl, fun _ => rfl, fun _ => rfl⟩

theorem sameLinks_update {f : Instrument → Instrument} (hpos : ∀ x, (f x).pos = x.pos)
    (hrow : ∀ x, (f x).posRow = x.posRow) (hcost : ∀ x, (f x).entryCost = x.entryCost) :
    SameLinks e (e.update sid f) :=
  ⟨rfl, rfl, field_update _ hpos, field_update _ hrow, field_update _ hcost⟩

theorem SameLinks.trans {e'' : SignalEngine} (h : SameLinks e e') (h' : SameLinks e' e'') :
    SameLinks e e'' :=
  ⟨h'.rows.trans h.rows, h'.order.trans h.order, fun s => (h'.pos s).trans (h.pos s),
    fun s => (h'.posRow s).trans (h.posRow s), fun s => (h'.cost s).trans (h.cost s)⟩

/-- Nothing of the positions, the rows or the accounts differs. -/
structure SameBook (e e' : SignalEngine) : Prop where
  links : SameLinks e e'
  r8 : ∀ sid, (e'.inst sid).r8Trade = (e.inst sid).r8Trade
  risk : e'.risk = e.risk
  ledger : e'.ledger = e.ledger

theorem SameBook.refl (e : SignalEngine) : SameBook e e := ⟨.refl e, fun _ => rfl, rfl, rfl⟩

theorem SameBook.trans {e'' : SignalEngine} (h : SameBook e e') (h' : SameBook e' e'') :
    SameBook e e'' :=
  ⟨h.links.trans h'.links, fun s => (h'.r8 s).trans (h.r8 s), h'.risk.trans h.risk,
    h'.ledger.trans h.ledger⟩

theorem sameBook_update {f : Instrument → Instrument} (hpos : ∀ x, (f x).pos = x.pos)
    (hrow : ∀ x, (f x).posRow = x.posRow) (hcost : ∀ x, (f x).entryCost = x.entryCost)
    (hr8 : ∀ x, (f x).r8Trade = x.r8Trade) : SameBook e (e.update sid f) :=
  ⟨sameLinks_update hpos hrow hcost, field_update _ hr8, rfl, rfl⟩

theorem Linked.openAt_of_mem (hL : Linked e) (h : sid ∈ e.openOrder) :
    ∃ pos i row ci, OpenAt e sid pos i row ci ∧ pos.closed = false := by
  rcases hL.inst sid with ⟨hnone, -⟩ | hopen
  · rw [hL.order, hnone] at h
    cases h
  · exact hopen

theorem Linked.posRow_lt (hL : Linked e) {s : ℤ} {j : ℕ} (h : (e.inst s).posRow = some j) :
    j < e.rows.length := by
  rcases hL.inst s with ⟨-, hnone⟩ | ⟨pos, i, row, ci, ho, -⟩
  · rw [hnone] at h
    cases h
  · rw [ho.isRow] at h
    cases h
    exact (List.getElem?_eq_some_iff.1 ho.hasRow).1

/-- A change of one instrument, whose row is its own and which leaves the others' rows. -/
theorem Linked.of_others (hL : Linked e) (hother : ∀ s, s ≠ sid → e'.inst s = e.inst s)
    (hkept : ∀ s, s ≠ sid → ∀ j, (e.inst s).posRow = some j → e'.rows[j]? = e.rows[j]?)
    (hself : ((e'.inst sid).pos = none ∧ (e'.inst sid).posRow = none) ∨
      ∃ pos i row ci, OpenAt e' sid pos i row ci ∧ pos.closed = false)
    (hown : ∀ j, (e'.inst sid).posRow = some j → ∀ s, s ≠ sid → (e.inst s).posRow ≠ some j)
    (horder : sid ∈ e'.openOrder ↔ (e'.inst sid).pos.isSome)
    (hmem : ∀ s, s ≠ sid → (s ∈ e'.openOrder ↔ s ∈ e.openOrder)) (hnodup : e'.openOrder.Nodup)
    (hrows : ∀ row ∈ e'.rows, (row.exitReason.isSome ↔ row.realizedR.isSome) ∧
      (row.exitReason.isSome → row.fired)) : Linked e' := by
  refine ⟨fun s => ?_, fun s t j hs ht => ?_, fun s => ?_, hnodup, hrows⟩
  · by_cases hs : s = sid
    · exact hs ▸ hself
    · rw [hother s hs]
      rcases hL.inst s with hnone | ⟨pos, i, row, ci, ho, hc⟩
      · exact .inl hnone
      · refine .inr ⟨pos, i, row, ci, ?_, hc⟩
        rw [openAt_iff, hother s hs, hkept s hs i ho.isRow]
        exact (openAt_iff ..).1 ho
  · by_cases hs' : s = sid <;> by_cases ht' : t = sid
    · rw [hs', ht']
    · exact absurd (hother t ht' ▸ ht) (hown j (hs' ▸ hs) t ht')
    · exact absurd (hother s hs' ▸ hs) (hown j (ht' ▸ ht) s hs')
    · exact hL.inj s t j (hother s hs' ▸ hs) (hother t ht' ▸ ht)
  · by_cases hs : s = sid
    · exact hs ▸ horder
    · rw [hmem s hs, hother s hs, hL.order]

/-- A fired row that waits for its outcome. -/
def Owed (e : SignalEngine) (i : ℕ) : Prop :=
  ∃ row, e.rows[i]? = some row ∧ row.fired = true ∧ row.exitReason = none

def SoundAt (x : Instrument) : Prop :=
  ∀ pos ci, x.pos = some pos → x.entryCost = some ci → Sound pos.p.rValue ci

theorem healthy_iff_owed : Healthy e ↔
    (∀ s, SoundAt (e.inst s)) ∧ ∀ j, Owed e j → ∃ s, (e.inst s).posRow = some j := by
  rw [healthy_iff]
  refine and_congr Iff.rfl (forall_congr' fun j => ?_)
  simp only [Owed, forall_exists_index, and_imp]

theorem soundAt_of_others (hother : ∀ s, s ≠ sid → e'.inst s = e.inst s)
    (h : SoundAt (e.inst sid)) :
    (∀ s, SoundAt (e'.inst s)) ↔ SoundAt (e'.inst sid) ∧ ∀ s, SoundAt (e.inst s) := by
  refine ⟨fun h' => ⟨h' sid, fun s => ?_⟩, fun h' s => ?_⟩
  · by_cases hs : s = sid
    · exact hs ▸ h
    · exact hother s hs ▸ h' s
  · by_cases hs : s = sid
    · exact hs ▸ h'.1
    · exact (hother s hs).symm ▸ h'.2 s

theorem soundAt_of_none {x : Instrument} (h : x.pos = none) : SoundAt x := by
  intro pos ci hp
  rw [h] at hp
  cases hp

theorem owed_concat (h : e'.rows = e.rows ++ [row]) {j : ℕ} : Owed e' j ↔
    Owed e j ∨ j = e.rows.length ∧ row.fired = true ∧ row.exitReason = none := by
  unfold Owed
  rw [h]
  rcases lt_trichotomy j e.rows.length with hlt | rfl | hgt
  · simp [getElem?_append_left hlt, hlt.ne]
  · simp
  · have hnone : (e.rows ++ [row])[j]? = none := getElem?_eq_none <| by
      simpa using Nat.succ_le_of_lt hgt
    simp [hnone, hgt.le, hgt.ne']

section Closing

/-- The state after a position closed: its row has an outcome and its entries are gone. -/
structure ClosedTo (e e' : SignalEngine) (sid : ℤ) (i : ℕ) (row' : SignalRow) : Prop where
  rows : e'.rows = e.rows.set i row'
  fired : row'.fired = true
  exit : row'.exitReason.isSome
  realized : row'.realizedR.isSome
  others : ∀ s, s ≠ sid → e'.inst s = e.inst s
  noPos : (e'.inst sid).pos = none
  noRow : (e'.inst sid).posRow = none
  order : e'.openOrder = e.openOrder.erase sid

theorem dropPosition_inst_self : (e.dropPosition sid).inst sid = { e.inst sid with
      gate := (e.inst sid).gate.map fun g => { g with hasOpenPosition := false }
      pos := none, posRow := none, entryCost := none, r8Trade := none } :=
  update_self _ _ _

theorem dropPosition_inst_of_ne {s : ℤ} (h : s ≠ sid) : (e.dropPosition sid).inst s = e.inst s :=
  update_of_ne h _ _

variable {row' : SignalRow}

theorem dropPosition_closedTo {e₀ : SignalEngine} (hinst : e'.inst = e₀.inst)
    (horder : e'.openOrder = e₀.openOrder) (hrows : e'.rows = e₀.rows.set i row')
    (hf : row'.fired = true) (hx : row'.exitReason.isSome) (hr : row'.realizedR.isSome) :
    ClosedTo e₀ (e'.dropPosition sid) sid i row' := by
  refine ⟨hrows, hf, hx, hr, fun s hs => ?_, ?_, ?_, ?_⟩
  · rw [dropPosition_inst_of_ne hs, hinst]
  · rw [dropPosition_inst_self]
  · rw [dropPosition_inst_self]
  · exact congrArg (·.erase sid) horder

theorem tradeCostR_isSome (cfg : CostConfig) (gross premium delta : ℚ) (lot : ℤ) {rUnit : ℚ}
    (h : 0 < rUnit) :
    (∃ cost, tradeCostR cfg gross rUnit premium delta lot = some cost) ↔ 0 < delta ∧ 0 < lot := by
  unfold tradeCostR roundTripCost
  split_ifs with hbad
  · simp only [exists_false, false_iff, not_and_or]
    simpa [h.not_ge] using hbad
  · simp only [not_or, not_le] at hbad
    simp [hbad]

variable (S ci) in
theorem applyCosts_spec {rUnit : ℚ} (hr : row.rValue = some rUnit) (hpos : 0 ≤ rUnit)
    (hg : row.realizedR.isSome) :
    ((∃ row', applyCosts S row (some ci) = some row') ↔
      (rUnit = 0 ∨ Sound rUnit ci)) ∧
    ∀ row', applyCosts S row (some ci) = some row' →
      row'.fired = row.fired ∧ row'.exitReason = row.exitReason ∧
        row'.realizedR = row.realizedR := by
  obtain ⟨gross, hgross⟩ := Option.isSome_iff_exists.1 hg
  cases hlot : ci.lot with
  | none => simp [applyCosts, hgross, hr, hlot, Sound, em]
  | some lot =>
    cases hprem : ci.premium with
    | none => simp [applyCosts, hgross, hr, hprem, Sound, em]
    | some premium =>
      simp only [applyCosts, hgross, hr, hlot, hprem, Sound]
      split_ifs with hskip
      · grind
      · push Not at hskip
        refine ⟨?_, fun row' h => ?_⟩
        · have hcost := tradeCostR_isSome S.cfg.costs gross premium ci.delta lot
            (hpos.lt_of_ne' hskip.1)
          simp [hskip, hcost]
        · obtain ⟨cost, -, rfl⟩ := Option.map_eq_some_iff.1 h
          exact ⟨rfl, rfl, rfl⟩

variable (S) in
theorem closePosition_spec (ho : OpenAt e sid pos i row ci) (hr : pos.p.rValue ≠ 0)
    (o : ExitOutcome) :
    ((∃ e', e.closePosition S sid o = some e') ↔ Sound pos.p.rValue ci) ∧
    ∀ e', e.closePosition S sid o = some e' → ∃ row', ClosedTo e e' sid i row' := by
  have hfind : ((e.inst sid).posRow.bind fun i => (e.rows[i]?).map fun row => (i, row)) =
      some (i, row) := by
    rw [ho.isRow, Option.bind_some, ho.hasRow]
    rfl
  have hrow : (row.withOutcome o).rValue = some pos.p.rValue := ho.rUnit
  have hspec := applyCosts_spec S ci hrow ho.rNonneg rfl
  rw [or_iff_right hr] at hspec
  obtain ⟨hiff, hout⟩ := hspec
  unfold closePosition
  rw [hfind]
  simp only [settleRow, ho.isCost, Option.map_map]
  constructor
  · rw [← hiff]
    constructor
    · rintro ⟨e', h⟩
      obtain ⟨row', h', -⟩ := Option.map_eq_some_iff.1 h
      exact ⟨row', h'⟩
    · rintro ⟨row', h⟩
      exact ⟨_, by rw [h]; rfl⟩
  · intro e' h
    obtain ⟨row', h', rfl⟩ := Option.map_eq_some_iff.1 h
    obtain ⟨hf, hx, hg⟩ := hout row' h'
    simp only [Function.comp_apply]
    split
    · refine ⟨{ row' with riskInr := some _ }, dropPosition_closedTo rfl rfl (List.set_set ..)
        (hf.trans ho.fired) (hx ▸ rfl) (hg ▸ rfl)⟩
    · exact ⟨_, dropPosition_closedTo rfl rfl rfl (hf.trans ho.fired) (hx ▸ rfl) (hg ▸ rfl)⟩

theorem ClosedTo.linked (h : ClosedTo e e' sid i row') (hL : Linked e)
    (ho : OpenAt e sid pos i row ci) : Linked e' := by
  refine hL.of_others h.others (fun s hs j hj => ?_) (.inl ⟨h.noPos, h.noRow⟩) (fun j hj => ?_) ?_
    (fun s hs => ?_) ?_ fun r hr => ?_
  · have hne : i ≠ j := by
      rintro rfl
      exact hs (hL.inj s sid i hj ho.isRow)
    rw [h.rows, getElem?_set_ne hne]
  · rw [h.noRow] at hj
    cases hj
  · rw [h.order, h.noPos]
    simp [hL.nodup.mem_erase_iff]
  · rw [h.order, mem_erase_of_ne hs]
  · rw [h.order]
    exact hL.nodup.erase sid
  · rw [h.rows] at hr
    rcases mem_or_eq_of_mem_set hr with hr | rfl
    · exact hL.rowsOk r hr
    · exact ⟨iff_of_true h.exit h.realized, fun _ => h.fired⟩

theorem OpenAt.soundAt_iff (ho : OpenAt e sid pos i row ci) :
    SoundAt (e.inst sid) ↔ Sound pos.p.rValue ci := by
  simp [SoundAt, ho.isPos, ho.isCost]

theorem ClosedTo.healthy (h : ClosedTo e e' sid i row')
    (ho : OpenAt e sid pos i row ci) (hs : Sound pos.p.rValue ci) : Healthy e' ↔ Healthy e := by
  rw [healthy_iff_owed, healthy_iff_owed, soundAt_of_others h.others (ho.soundAt_iff.2 hs),
    and_iff_right (soundAt_of_none h.noPos)]
  refine and_congr_right fun _ => forall_congr' fun j => ?_
  by_cases hj : i = j
  · subst hj
    refine iff_of_true ?_ fun _ => ⟨sid, ho.isRow⟩
    rintro ⟨r, hr, -, hx⟩
    rw [h.rows, getElem?_set_self (List.getElem?_eq_some_iff.1 ho.hasRow).1] at hr
    cases hr
    exact absurd h.exit (by simp [hx])
  · refine imp_congr ?_ (exists_congr fun s => ?_)
    · unfold Owed
      rw [h.rows, getElem?_set_ne hj]
    · by_cases hsid : s = sid
      · simp [hsid, h.noRow, ho.isRow, hj]
      · rw [h.others s hsid]

end Closing

section Step

variable {pos' : SimPosition}

theorem OpenAt.setPos (ho : OpenAt e sid pos i row ci) (hp : pos'.p = pos.p) :
    OpenAt (e.update sid fun x => { x with pos := some pos' }) sid pos' i row ci := by
  have hself : (e.update sid fun x => { x with pos := some pos' }).inst sid =
      { e.inst sid with pos := some pos' } := inst_update_self _
  exact ⟨by rw [hself], by rw [hself]; exact ho.isRow, by rw [hself]; exact ho.isCost, ho.hasRow,
    ho.fired, ho.noExit, ho.noCost, hp ▸ ho.rUnit, hp ▸ ho.rNonneg⟩

theorem setPos_spec (hL : Linked e) (ho : OpenAt e sid pos i row ci)
    (hp : pos'.p = pos.p) (hc : pos'.closed = false) :
    Linked (e.update sid fun x => { x with pos := some pos' }) ∧
      (Healthy (e.update sid fun x => { x with pos := some pos' }) ↔ Healthy e) := by
  have ho' := ho.setPos hp
  set e' := e.update sid fun x => { x with pos := some pos' } with he'
  have hother : ∀ s, s ≠ sid → e'.inst s = e.inst s := fun s hs => inst_update_of_ne _ hs
  refine ⟨hL.of_others hother (fun _ _ _ _ => rfl) (.inr ⟨pos', i, row, ci, ho', hc⟩)
    (fun j hj s hs h => ?_) ?_ (fun _ _ => Iff.rfl) hL.nodup hL.rowsOk, ?_⟩
  · rw [ho'.isRow] at hj
    cases hj
    exact hs (hL.inj s sid i h ho.isRow)
  · change sid ∈ e.openOrder ↔ _
    rw [hL.order, ho.isPos, ho'.isPos]
    rfl
  · have hsound : (∀ s, SoundAt (e'.inst s)) ↔ ∀ s, SoundAt (e.inst s) := by
      refine forall_congr' fun s => ?_
      by_cases hs : s = sid
      · rw [hs, ho'.soundAt_iff, ho.soundAt_iff, hp]
      · rw [hother s hs]
    have hrow : ∀ s, (e'.inst s).posRow = (e.inst s).posRow :=
      field_update Instrument.posRow fun _ => rfl
    rw [healthy_iff_owed, healthy_iff_owed, hsound]
    simp only [hrow]
    rfl

variable (S e sid) in
/-- A close does not read the position that it drops. -/
theorem closePosition_setPos (pos' : SimPosition) (o : ExitOutcome) :
    (e.update sid fun x => { x with pos := some pos' }).closePosition S sid o =
      e.closePosition S sid o := by
  have hrows : (e.update sid fun x => { x with pos := some pos' }).rows = e.rows := rfl
  simp only [closePosition, settleRow, inst_update_self, hrows, Option.map_map]
  cases (e.inst sid).posRow.bind fun i => (e.rows[i]?).map fun row => (i, row) with
  | none => simp [dropPosition, update]
  | some p =>
    refine congrArg (Option.map · _) (funext fun row' => ?_)
    simp only [Function.comp_apply]
    split <;> simp [dropPosition, r8Record, update]

def simBar (S : Setup) (ofi : Bool) (pos : SimPosition) (bar : BarRow) : SimBar :=
  { tsNs := bar.bar.endTsNs, high := bar.bar.high, low := bar.bar.low, close := bar.bar.close,
    flow := momentumFlowFlags S.cfg.exits pos.p.side bar.cvdSlope bar.ofi ofi }

/-- Nothing without a position, a new state of it, or the close of it. -/
theorem stepPosition_cases {ofi : Bool} {bar : BarRow} (hL : Linked e)
    (h : e.stepPosition S ofi sid bar = some e') :
    ((e.inst sid).pos = none ∧ e' = e) ∨
    ∃ pos i row ci, OpenAt e sid pos i row ci ∧ pos.closed = false ∧ ∃ pos',
      pos'.p = pos.p ∧
      ((pos.step (simBar S ofi pos bar) = some (pos', none) ∧ pos'.closed = false ∧
          e' = e.update sid fun x => { x with pos := some pos' }) ∨
        ∃ o, pos.step (simBar S ofi pos bar) = some (pos', some o) ∧ pos.p.rValue ≠ 0 ∧
          e.closePosition S sid o = some e') := by
  rcases hL.inst sid with hnone | ⟨pos, i, row, ci, ho, hc⟩
  · refine .inl ⟨hnone.1, ?_⟩
    simp only [stepPosition, hnone.1, Option.some.injEq] at h
    exact h.symm
  · refine .inr ⟨pos, i, row, ci, ho, hc, ?_⟩
    simp only [stepPosition, ho.isPos, hc] at h
    obtain ⟨⟨pos', o⟩, hstep, hrest⟩ := Option.bind_eq_some_iff.1 h
    obtain ⟨hp, hr, hopen⟩ := SimPosition.step_eq_some hc hstep
    refine ⟨pos', hp, ?_⟩
    cases o with
    | none =>
      cases hrest
      exact .inl ⟨hstep, hopen rfl, rfl⟩
    | some o => exact .inr ⟨o, hstep, hr rfl, closePosition_setPos S e sid pos' o ▸ hrest⟩

theorem stepPosition_spec {ofi : Bool} {bar : BarRow} (hL : Linked e)
    (h : e.stepPosition S ofi sid bar = some e') : Linked e' ∧ (Healthy e' ↔ Healthy e) := by
  rcases stepPosition_cases hL h with
    ⟨-, rfl⟩ | ⟨pos, i, row, ci, ho, hc, pos', hp, ⟨-, hopen, rfl⟩ | ⟨o, -, hr, hclose⟩⟩
  · exact ⟨hL, Iff.rfl⟩
  · exact setPos_spec hL ho hp hopen
  · obtain ⟨hiff, hrow⟩ := closePosition_spec S ho hr o
    obtain ⟨row', hclosed⟩ := hrow e' hclose
    exact ⟨hclosed.linked hL ho, hclosed.healthy ho (hiff.1 ⟨e', hclose⟩)⟩

variable (S sid) in
theorem stepPosition_of_sound (ofi : Bool) (bar : BarRow) (hL : Linked e)
    (hsound : SoundAt (e.inst sid)) :
    ∃ e', e.stepPosition S ofi sid bar = some e' := by
  rcases hL.inst sid with hnone | ⟨pos, i, row, ci, ho, hc⟩
  · exact ⟨e, by simp [stepPosition, hnone.1]⟩
  · have hs := hsound pos ci ho.isPos ho.isCost
    obtain ⟨⟨pos', o⟩, hstep⟩ := SimPosition.step_of_ne hs.1 (simBar S ofi pos bar)
    obtain ⟨hp, hr, -⟩ := SimPosition.step_eq_some hc hstep
    simp only [stepPosition, ho.isPos, hc]
    change ∃ e', (pos.step (simBar S ofi pos bar)).bind _ = some e'
    rw [hstep]
    cases o with
    | none => exact ⟨_, rfl⟩
    | some o =>
      simp only [closePosition_setPos]
      exact (closePosition_spec S ho (hr rfl) o).1.2 hs

end Step

section Fire

variable {ctx : Context} {rd : Reading} {side : Dir}

structure FreshRow (row : SignalRow) : Prop where
  fired : row.fired = true
  noExit : row.exitReason = none
  noR : row.realizedR = none
  noCost : row.costR = none

theorem exitPlan_rNonneg : 0 ≤ (exitPlan S ctx rd side).rValue := by
  exact abs_nonneg _

def firedRow (S : Setup) (ctx : Context) (rd : Reading) (side : Dir) (row : SignalRow) :
    SignalRow :=
  { row with
    entry := some (exitPlan S ctx rd side).entry, stop := some (exitPlan S ctx rd side).stop,
    target := some (exitPlan S ctx rd side).target1r,
    rValue := some (exitPlan S ctx rd side).rValue }

variable (S e sid ctx rd side row) in
theorem fire_inst_self : (e.fire S sid ctx rd side row).inst sid = { e.inst sid with
      pos := some (SimPosition.new (exitPlan S ctx rd side) ctx.tsNs)
      posRow := some e.rows.length
      entryCost := some (rd.costs side)
      gate := (e.inst sid).gate.map fun g => { g with
        tradesToday := g.tradesToday + 1, hasOpenPosition := true,
        lastSignalTsNs := some ctx.tsNs } } :=
  Function.update_self _ _ _

theorem fire_inst_of_ne {s : ℤ} (h : s ≠ sid) : (e.fire S sid ctx rd side row).inst s = e.inst s :=
  update_of_ne h _ _

theorem fire_linked (hL : Linked e) (hrow : FreshRow row) :
    Linked (e.fire S sid ctx rd side row) := by
  set e' := e.fire S sid ctx rd side row with he'
  have hself := fire_inst_self S e sid row ctx rd side
  have hrows : e'.rows = e.rows ++ [firedRow S ctx rd side row] := rfl
  have horder : e'.openOrder =
      if sid ∈ e.openOrder then e.openOrder else e.openOrder ++ [sid] := rfl
  refine hL.of_others (fun s hs => fire_inst_of_ne hs) (fun s _ j hj => ?_) (.inr ?_)
    (fun j hj s _ hs => ?_) ?_ (fun s hs => ?_) ?_ fun r hr => ?_
  · rw [hrows, getElem?_append_left (hL.posRow_lt hj)]
  · refine ⟨SimPosition.new (exitPlan S ctx rd side) ctx.tsNs, e.rows.length,
      firedRow S ctx rd side row, rd.costs side, ?_, rfl⟩
    refine ⟨by rw [hself], by rw [hself], by rw [hself], ?_, hrow.fired, hrow.noExit,
      hrow.noCost, rfl, exitPlan_rNonneg⟩
    rw [hrows, getElem?_concat_length]
  · rw [hself] at hj
    cases hj
    exact (hL.posRow_lt hs).false
  · rw [horder, hself]
    split_ifs with hmem <;> simp [hmem]
  · rw [horder]
    split_ifs <;> simp [hs]
  · rw [horder]
    split_ifs with hmem
    · exact hL.nodup
    · exact nodup_append.2 ⟨hL.nodup, nodup_singleton _, fun a ha b hb hab =>
        hmem (mem_singleton.1 hb ▸ hab ▸ ha)⟩
  · rcases mem_append.1 hr with hr | hr
    · exact hL.rowsOk r hr
    · rw [mem_singleton.1 hr]
      simp [hrow.noExit, hrow.noR]

/-- A fire keeps a run healthy exactly if the instrument has no open position and the new one can be
closed. -/
theorem fire_healthy (hL : Linked e) (hrow : FreshRow row) :
    Healthy (e.fire S sid ctx rd side row) ↔ Healthy e ∧ (e.inst sid).pos = none ∧
      Sound (exitPlan S ctx rd side).rValue (rd.costs side) := by
  set e' := e.fire S sid ctx rd side row with he'
  have hself := fire_inst_self S e sid row ctx rd side
  have hother : ∀ s, s ≠ sid → e'.inst s = e.inst s := fun s hs => fire_inst_of_ne hs
  have howed : ∀ j, Owed e' j ↔ Owed e j ∨ j = e.rows.length := by
    intro j
    rw [owed_concat (rfl : _ = _ ++ [firedRow S ctx rd side row])]
    exact or_congr_right (and_iff_left ⟨hrow.fired, hrow.noExit⟩)
  have hnew : SoundAt (e'.inst sid) ↔
      Sound (exitPlan S ctx rd side).rValue (rd.costs side) := by
    rw [hself]
    simp [SoundAt, SimPosition.new]
  rcases hL.inst sid with ⟨hnone, hnoRow⟩ | ⟨pos', j, row', ci', ho', -⟩
  · have hown : ∀ j, (∃ s, (e'.inst s).posRow = some j) ↔
        (∃ s, (e.inst s).posRow = some j) ∨ j = e.rows.length := by
      intro j
      constructor
      · rintro ⟨s, hs⟩
        by_cases hsid : s = sid
        · rw [hsid, hself] at hs
          exact .inr (Option.some.inj hs).symm
        · exact .inl ⟨s, hother s hsid ▸ hs⟩
      · rintro (⟨s, hs⟩ | rfl)
        · have hsid : s ≠ sid := by
            rintro rfl
            rw [hnoRow] at hs
            cases hs
          exact ⟨s, (hother s hsid).symm ▸ hs⟩
        · exact ⟨sid, by rw [hself]⟩
    rw [healthy_iff_owed, healthy_iff_owed, soundAt_of_others hother (soundAt_of_none hnone)]
    simp only [howed, hown]
    have hwaits : (∀ j, Owed e j ∨ j = e.rows.length →
        (∃ s, (e.inst s).posRow = some j) ∨ j = e.rows.length) ↔
        ∀ j, Owed e j → ∃ s, (e.inst s).posRow = some j := by
      refine forall_congr' fun j => ⟨fun h ho => (h (.inl ho)).resolve_right ?_, fun h => ?_⟩
      · rintro rfl
        obtain ⟨r, hr, -⟩ := ho
        exact (List.getElem?_eq_some_iff.1 hr).1.false
      · exact Or.imp_left h
    tauto
  · -- the row of the position that is replaced waits for an outcome without an owner
    refine iff_of_false (fun hH => ?_) fun h => ?_
    · obtain ⟨s, hs⟩ := (healthy_iff_owed.1 hH).2 j
        ((howed j).2 (.inl ⟨row', ho'.hasRow, ho'.fired, ho'.noExit⟩))
      by_cases hsid : s = sid
      · rw [hsid, hself] at hs
        exact (hL.posRow_lt ho'.isRow).ne (Option.some.inj hs).symm
      · rw [hother s hsid] at hs
        exact hsid (hL.inj s sid j hs ho'.isRow)
    · rw [ho'.isPos] at h
      cases h.2.1

theorem log_spec (hL : Linked e) (hf : row.fired = false) (hx : row.exitReason = none)
    (hr : row.realizedR = none) : Linked (e.log row) ∧ (Healthy (e.log row) ↔ Healthy e) := by
  have hrows : (e.log row).rows = e.rows ++ [row] := rfl
  refine ⟨⟨fun s => ?_, hL.inj, hL.order, hL.nodup, fun r hr' => ?_⟩, ?_⟩
  · rcases hL.inst s with hnone | ⟨pos, i, row', ci, ho, hc⟩
    · exact .inl hnone
    · refine .inr ⟨pos, i, row', ci, { ho with hasRow := ?_ }, hc⟩
      rw [hrows, getElem?_append_left (hL.posRow_lt ho.isRow), ho.hasRow]
  · rcases mem_append.1 hr' with hr' | hr'
    · exact hL.rowsOk r hr'
    · rw [mem_singleton.1 hr']
      simp [hx, hr]
  · simp only [healthy_iff_owed, owed_concat hrows, hf, Bool.false_eq_true, false_and, and_false,
      or_false]
    rfl

end Fire

section Evaluate

variable (S sid) (ctx : Context) (rd : Reading) (side : Dir)

def r8Allows (e : SignalEngine) : Bool :=
  match r8Decide S ctx rd side e with
  | .sized _ _ => true
  | _ => false

/-- The candidate passes threshold, gates and, where it is on, R8. -/
def fires (e : SignalEngine) : Bool :=
  candidateFires S sid ctx rd side e && (!S.cfg.r8Enabled || r8Allows S ctx rd side e)

variable {S sid ctx rd side}

variable (S e sid ctx rd side) in
/-- A side is logged, or fires, with R8's trade and latch where R8 is on. -/
theorem evaluateSide_cases :
    (fires S sid ctx rd side e = false ∧ ∃ row, e.evaluateSide S sid ctx rd side = e.log row ∧
      row.fired = false ∧ row.exitReason = none ∧ row.realizedR = none) ∨
    (fires S sid ctx rd side e = true ∧ ∃ row, FreshRow row ∧
      ((S.cfg.r8Enabled = false ∧
          e.evaluateSide S sid ctx rd side = e.fire S sid ctx rd side row) ∨
        (S.cfg.r8Enabled = true ∧ ∃ t riskInr, r8Decide S ctx rd side e = .sized t riskInr ∧
          e.evaluateSide S sid ctx rd side =
            { (e.fire S sid ctx rd side row).update sid fun x => { x with r8Trade := some t } with
              risk := onOpen e.risk }))) := by
  unfold evaluateSide
  by_cases hc : candidateFires S sid ctx rd side e = true
  · have hrow : (candidateRow S sid ctx rd side e).fired = true := hc
    rw [if_neg (by simp [hrow])]
    by_cases hr8 : S.cfg.r8Enabled = true
    · rw [if_neg (by simp [hr8])]
      cases hd : r8Decide S ctx rd side e with
      | veto reason =>
        exact .inl ⟨by simp [fires, hr8, r8Allows, hd], _, rfl, rfl, rfl, rfl⟩
      | reject reason lots riskInr =>
        exact .inl ⟨by simp [fires, hr8, r8Allows, hd], _, rfl, rfl, rfl, rfl⟩
      | sized t riskInr =>
        refine .inr ⟨by simp [fires, hc, r8Allows, hd],
          { candidateRow S sid ctx rd side e with
            lots := some t.lots, riskInr := some riskInr },
          ⟨hrow, rfl, rfl, rfl⟩, .inr ⟨hr8, t, riskInr, rfl, rfl⟩⟩
    · rw [if_pos hr8]
      rw [Bool.not_eq_true] at hr8
      exact .inr ⟨by simp [fires, hc, hr8], _, ⟨hrow, rfl, rfl, rfl⟩, .inl ⟨hr8, rfl⟩⟩
  · rw [Bool.not_eq_true] at hc
    have hrow : (candidateRow S sid ctx rd side e).fired = false := hc
    rw [if_pos (by simp [hrow])]
    exact .inl ⟨by simp [fires, hc], _, rfl, hrow, rfl, rfl⟩

theorem sameLinks_r8 (t : R8Trade) (risk : RiskState) :
    SameLinks e { e.update sid fun x => { x with r8Trade := some t } with risk } := by
  have h : SameLinks e (e.update sid fun x => { x with r8Trade := some t }) :=
    sameLinks_update (fun _ => rfl) (fun _ => rfl) fun _ => rfl
  exact ⟨h.rows, h.order, h.pos, h.posRow, h.cost⟩

variable (S sid ctx rd side) in
/-- One side keeps the run healthy exactly if it does not fire over an open position or beyond
closing. -/
theorem healthy_evaluateSide (hL : Linked e) : Linked (e.evaluateSide S sid ctx rd side) ∧
      (Healthy (e.evaluateSide S sid ctx rd side) ↔ Healthy e ∧
        (fires S sid ctx rd side e = true → (e.inst sid).pos = none ∧
          Sound (exitPlan S ctx rd side).rValue (rd.costs side))) := by
  rcases evaluateSide_cases S e sid ctx rd side with
    ⟨hno, row, heq, hf, hx, hr⟩ | ⟨hyes, row, hrow, hcase⟩
  · obtain ⟨hL', hH⟩ := log_spec hL hf hx hr
    rw [heq, hH, hno]
    exact ⟨hL', by simp⟩
  · have hsame : SameLinks (e.fire S sid ctx rd side row) (e.evaluateSide S sid ctx rd side) := by
      rcases hcase with ⟨-, heq⟩ | ⟨-, t, riskInr, -, heq⟩
      · exact heq ▸ .refl _
      · exact heq ▸ sameLinks_r8 t _
    refine ⟨hsame.linked (fire_linked hL hrow), ?_⟩
    rw [hsame.healthy, fire_healthy hL hrow, hyes]
    simp

variable (S sid ctx rd) in
/-- No side fires over an open position or with inputs that cannot be closed. -/
def SafeSides : List Dir → SignalEngine → Prop
  | [], _ => True
  | side :: sides, e =>
    (fires S sid ctx rd side e = true → (e.inst sid).pos = none ∧
      Sound (exitPlan S ctx rd side).rValue (rd.costs side)) ∧
    SafeSides sides (e.evaluateSide S sid ctx rd side)

variable (S sid ctx rd) in
theorem healthy_sides (sides : List Dir) (hL : Linked e) :
    Linked (sides.foldl (fun e side => e.evaluateSide S sid ctx rd side) e) ∧
      (Healthy (sides.foldl (fun e side => e.evaluateSide S sid ctx rd side) e) ↔
        Healthy e ∧ SafeSides S sid ctx rd sides e) := by
  induction sides generalizing e with
  | nil => exact ⟨hL, by simp [SafeSides]⟩
  | cons side sides ih =>
    obtain ⟨hL', hH⟩ := healthy_evaluateSide S sid ctx rd side hL
    obtain ⟨hL'', hH'⟩ := ih hL'
    refine ⟨hL'', ?_⟩
    rw [List.foldl_cons, hH', hH, SafeSides, and_assoc]

end Evaluate

end SignalEngine

end TradingBridge.Orderflow.Signals
