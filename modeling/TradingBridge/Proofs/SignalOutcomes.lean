import TradingBridge.Lib.Run
import TradingBridge.Proofs.SignalLinks

/-!
# Every fired signal gets one outcome

A fire over an open position leaves a row that nothing fills in any more, and a position without a
risk unit cannot be closed. Otherwise the final pass closes what is still open. So a run ends with
one outcome for every fired row exactly if every fire along it was safe, and a row keeps the
outcome it got.
-/

namespace TradingBridge.Orderflow.Signals

open Tape (BarRow TapeEngine TapeConfig)
open Effectful

namespace SignalEngine

variable {S : Setup} {e e' : SignalEngine} {sid : ℤ} {tape : TapeEngine} {rd : Reading}

section Bar

def beforeSides (S : Setup) (e : SignalEngine) (sid : ℤ) (bar : BarRow) : SignalEngine :=
  (e.pushWindows S sid bar).update sid fun x =>
    { x with gate := some ((e.pushWindows S sid bar).gateState S sid) }

def barContext (S : Setup) (e : SignalEngine) (sid : ℤ) (bar : BarRow) : Context :=
  (e.pushWindows S sid bar).buildContext S sid bar

theorem evaluate_pushWindows (bar : BarRow) : (e.pushWindows S sid bar).evaluate S sid bar rd =
    S.sides.foldl (fun e' side => e'.evaluateSide S sid (barContext S e sid bar) rd side)
      (beforeSides S e sid bar) := rfl

variable (S e sid) in
theorem sameBook_beforeSides (bar : BarRow) : SameBook e (beforeSides S e sid bar) := by
  have hwindows : SameBook e (e.pushWindows S sid bar) :=
    sameBook_update (fun _ => rfl) (fun _ => rfl) (fun _ => rfl) fun _ => rfl
  exact hwindows.trans
    (sameBook_update (fun _ => rfl) (fun _ => rfl) (fun _ => rfl) fun _ => rfl)

/-- No side fires unsafely on a bar, once the open position has been stepped. -/
def SafeBar (S : Setup) (ofi : Bool) (e : SignalEngine) (sid : ℤ) (bar : BarRow) (rd : Reading) :
    Prop :=
  ∀ e', e.stepPosition S ofi sid bar = some e' →
    SafeSides S sid (barContext S e' sid bar) rd S.sides (beforeSides S e' sid bar)

theorem onNewBar_spec {ofi : Bool} {bar : BarRow} (hL : Linked e)
    (h : e.onNewBar S ofi sid bar rd = some e') :
    Linked e' ∧ (Healthy e' ↔ Healthy e ∧ SafeBar S ofi e sid bar rd) := by
  obtain ⟨e₁, hstep, rfl⟩ := Option.map_eq_some_iff.1 h
  obtain ⟨hL₁, hH₁⟩ := stepPosition_spec hL hstep
  have hsame := (sameBook_beforeSides S e₁ sid bar).links
  obtain ⟨hL₂, hH₂⟩ := healthy_sides S sid (barContext S e₁ sid bar) rd S.sides (hsame.linked hL₁)
  rw [evaluate_pushWindows]
  refine ⟨hL₂, ?_⟩
  rw [hH₂, hsame.healthy, hH₁]
  simp [SafeBar, hstep]

end Bar

section Look

def seen (e : SignalEngine) (tape : TapeEngine) (sid : ℤ) : SignalEngine :=
  match tape.lookup sid with
  | none => e
  | some st => e.update sid fun x => { x with lastBars := st.bars }

variable (e tape sid) in
theorem sameBook_seen : SameBook e (e.seen tape sid) := by
  unfold seen
  split
  · exact .refl e
  · exact sameBook_update (fun _ => rfl) (fun _ => rfl) (fun _ => rfl) fun _ => rfl

theorem look_eq (ofi : Bool) : e.look S ofi tape sid rd = match e.pendingBar tape sid with
    | none => some (e.seen tape sid)
    | some bar => (e.seen tape sid).onNewBar S ofi sid bar rd := rfl

/-- A look finds nothing new, or has the bar that it hands on taken in. -/
theorem look_cases {ofi : Bool} (h : e.look S ofi tape sid rd = some e') :
    (e.pendingBar tape sid = none ∧ e' = e.seen tape sid) ∨ ∃ bar,
      e.pendingBar tape sid = some bar ∧ (e.seen tape sid).onNewBar S ofi sid bar rd = some e' := by
  rw [look_eq] at h
  cases hb : e.pendingBar tape sid with
  | none =>
    rw [hb] at h
    exact .inl ⟨rfl, (Option.some.inj h).symm⟩
  | some bar =>
    rw [hb] at h
    exact .inr ⟨bar, rfl, h⟩

/-- A look at an instrument leads to no unsafe fire. -/
def SafeLook (S : Setup) (ofi : Bool) (e : SignalEngine) (tape : TapeEngine) (sid : ℤ)
    (rd : Reading) : Prop :=
  ∀ bar, e.pendingBar tape sid = some bar → SafeBar S ofi (e.seen tape sid) sid bar rd

theorem look_spec {ofi : Bool} (hL : Linked e) (h : e.look S ofi tape sid rd = some e') :
    Linked e' ∧ (Healthy e' ↔ Healthy e ∧ SafeLook S ofi e tape sid rd) := by
  have hsame := (sameBook_seen e sid tape).links
  rcases look_cases h with ⟨hb, rfl⟩ | ⟨bar, hb, hbar⟩
  · refine ⟨hsame.linked hL, ?_⟩
    rw [hsame.healthy]
    simp [SafeLook, hb]
  · obtain ⟨hL', hH⟩ := onNewBar_spec (hsame.linked hL) hbar
    refine ⟨hL', ?_⟩
    rw [hH, hsame.healthy]
    simp [SafeLook, hb]

variable (S tape rd) in
theorem look_of_sound (ofi : Bool) (hL : Linked e) (hsound : SoundAt (e.inst sid)) :
    ∃ e', e.look S ofi tape sid rd = some e' := by
  have hsame := (sameBook_seen e sid tape).links
  rw [look_eq]
  cases e.pendingBar tape sid with
  | none => exact ⟨_, rfl⟩
  | some bar =>
    have hseen : SoundAt ((e.seen tape sid).inst sid) := by
      unfold SoundAt
      rw [hsame.pos, hsame.cost]
      exact hsound
    obtain ⟨e₁, hstep⟩ := stepPosition_of_sound S sid ofi bar (hsame.linked hL) hseen
    exact ⟨_, Option.map_eq_some_iff.2 ⟨e₁, hstep, rfl⟩⟩

end Look

section Finalize

/-- Fired rows have an outcome, other rows have none. -/
def Outcomes (e : SignalEngine) : Prop :=
  ∀ row ∈ e.rows, (row.fired = true ↔ row.exitReason.isSome) ∧
    (row.exitReason.isSome ↔ row.realizedR.isSome)

def finalizeOne (S : Setup) (tape : TapeEngine) (e : SignalEngine) (sid : ℤ) :
    Option SignalEngine :=
  match (e.inst sid).pos with
  | none => some e
  | some pos =>
    if pos.closed then some e
    else
      let px := ((lastTickBar tape sid).map fun r => r.bar.close).getD pos.p.entry
      (pos.forceClose pos.entryTs px).bind fun r => e.closePosition S sid r.2

def KeepsOutcomes (e e' : SignalEngine) : Prop :=
  ∀ (i : ℕ) (row : SignalRow), e.rows[i]? = some row → row.exitReason.isSome →
    e'.rows[i]? = some row

theorem KeepsOutcomes.trans {e'' : SignalEngine} (h : KeepsOutcomes e e')
    (h' : KeepsOutcomes e' e'') : KeepsOutcomes e e'' :=
  fun i row hr hx => h' i row (h i row hr hx) hx

theorem KeepsOutcomes.of_append {l : List SignalRow} (h : e'.rows = e.rows ++ l) :
    KeepsOutcomes e e' := by
  intro i row hr _
  rw [h, List.getElem?_append_left (List.getElem?_eq_some_iff.1 hr).1, hr]

theorem ClosedTo.keepsOutcomes {i : ℕ} {row row' : SignalRow} {pos : SimPosition}
    {ci : CostInputs} (h : ClosedTo e e' sid i row') (ho : OpenAt e sid pos i row ci) :
    KeepsOutcomes e e' := by
  intro j r hr hx
  have hne : i ≠ j := by
    rintro rfl
    rw [ho.hasRow] at hr
    cases hr
    rw [ho.noExit] at hx
    cases hx
  rw [h.rows, List.getElem?_set_ne hne, hr]

variable (S tape) in
/-- The final pass over an instrument closes its position. -/
theorem finalizeOne_spec {sids : List ℤ} (hL : Linked e) (horder : e.openOrder = sid :: sids) :
    ∃ pos i row ci, OpenAt e sid pos i row ci ∧
      (∀ e', finalizeOne S tape e sid = some e' → Sound pos.p.rValue ci ∧
        e'.openOrder = sids ∧ (∃ o, e.closePosition S sid o = some e') ∧
        ∃ row', ClosedTo e e' sid i row') ∧
      (Sound pos.p.rValue ci → ∃ e', finalizeOne S tape e sid = some e') := by
  obtain ⟨pos, i, row, ci, ho, hc⟩ := hL.openAt_of_mem (horder ▸ List.mem_cons_self)
  refine ⟨pos, i, row, ci, ho, ?_⟩
  simp only [finalizeOne, ho.isPos, hc, Bool.false_eq_true, if_false, SimPosition.forceClose]
  constructor
  · intro e' h
    obtain ⟨r, hr, hclose⟩ := Option.bind_eq_some_iff.1 h
    obtain ⟨hne, -⟩ := SimPosition.closeAt_eq_some hr
    obtain ⟨hiff, hrow⟩ := closePosition_spec S ho hne r.2
    obtain ⟨row', hclosed⟩ := hrow e' hclose
    refine ⟨hiff.1 ⟨e', hclose⟩, ?_, ⟨r.2, hclose⟩, row', hclosed⟩
    rw [hclosed.order, horder, List.erase_cons_head]
  · intro hs
    obtain ⟨r, hr⟩ := SimPosition.closeAt_of_ne hs.1 pos.entryTs .sessionEnd
      (((lastTickBar tape sid).map fun r => r.bar.close).getD pos.p.entry)
    obtain ⟨e', he'⟩ := (closePosition_spec S ho hs.1 r.2).1.2 hs
    exact ⟨e', by rw [hr, Option.bind_some, he']⟩

variable (S tape) in
theorem finalize_spec {sids : List ℤ} (hL : Linked e) (horder : e.openOrder = sids) :
    (∀ e', sids.foldlM (finalizeOne S tape) e = some e' → Linked e' ∧ (Healthy e' ↔ Healthy e) ∧
      e'.openOrder = [] ∧ KeepsOutcomes e e') ∧
    (Healthy e → ∃ e', sids.foldlM (finalizeOne S tape) e = some e') := by
  induction sids generalizing e with
  | nil =>
    refine ⟨fun e' h => ?_, fun _ => ⟨e, rfl⟩⟩
    cases h
    exact ⟨hL, Iff.rfl, horder, fun _ _ hr _ => hr⟩
  | cons sid sids ih =>
    obtain ⟨pos, i, row, ci, ho, hone, hgo⟩ := finalizeOne_spec S tape hL horder
    have hstep : ∀ e₁, finalizeOne S tape e sid = some e₁ → Linked e₁ ∧ (Healthy e₁ ↔ Healthy e) ∧
        e₁.openOrder = sids ∧ KeepsOutcomes e e₁ := by
      intro e₁ h₁
      obtain ⟨hs, ho₁, -, row', hclosed⟩ := hone e₁ h₁
      exact ⟨hclosed.linked hL ho, hclosed.healthy ho hs, ho₁, hclosed.keepsOutcomes ho⟩
    simp only [List.foldlM_cons, Option.bind_eq_bind]
    constructor
    · intro e' h
      obtain ⟨e₁, h₁, hrest⟩ := Option.bind_eq_some_iff.1 h
      obtain ⟨hL₁, hH₁, ho₁, hk₁⟩ := hstep e₁ h₁
      obtain ⟨hL', hH', ho', hk⟩ := (ih hL₁ ho₁).1 e' hrest
      exact ⟨hL', hH'.trans hH₁, ho', hk₁.trans hk⟩
    · intro hH
      obtain ⟨e₁, h₁⟩ := hgo (hH.sound sid pos ci ho.isPos ho.isCost)
      obtain ⟨hL₁, hH₁, ho₁, -⟩ := hstep e₁ h₁
      obtain ⟨e', h'⟩ := (ih hL₁ ho₁).2 (hH₁.2 hH)
      exact ⟨e', by rw [h₁, Option.bind_some, h']⟩

/-- With nothing open, a healthy state is one where exactly the fired rows have outcomes. -/
theorem outcomes_iff_healthy (hL : Linked e) (horder : e.openOrder = []) :
    Outcomes e ↔ Healthy e := by
  have hnone : ∀ s, (e.inst s).pos = none ∧ (e.inst s).posRow = none := by
    intro s
    rcases hL.inst s with h | ⟨pos, i, row, ci, ho, -⟩
    · exact h
    · have := (hL.order s).2 (by rw [ho.isPos]; rfl)
      rw [horder] at this
      cases this
  constructor
  · intro h
    refine ⟨fun s pos ci hp _ => ?_, fun i row hr hf hx => ?_⟩
    · rw [(hnone s).1] at hp
      cases hp
    · have := (h row (List.mem_of_getElem? hr)).1.1 hf
      rw [hx] at this
      cases this
  · intro hH row hmem
    obtain ⟨hxr, hxf⟩ := hL.rowsOk row hmem
    refine ⟨⟨fun hf => ?_, hxf⟩, hxr⟩
    cases hx : row.exitReason with
    | some o => rfl
    | none =>
      obtain ⟨i, hi⟩ := List.mem_iff_getElem?.1 hmem
      obtain ⟨s, hs⟩ := hH.owned i row hi hf hx
      rw [(hnone s).2] at hs
      cases hs

end Finalize

section Kept

variable {ctx : Context} {side : Dir}

variable (S e sid ctx rd side) in
theorem evaluateSide_rows : ∃ r, (e.evaluateSide S sid ctx rd side).rows = e.rows ++ [r] := by
  rcases evaluateSide_cases S e sid ctx rd side with
    ⟨-, row, heq, -⟩ | ⟨-, row, -, ⟨-, heq⟩ | ⟨-, t, riskInr, -, heq⟩⟩ <;> rw [heq]
  · exact ⟨row, rfl⟩
  · exact ⟨firedRow S ctx rd side row, rfl⟩
  · exact ⟨firedRow S ctx rd side row, rfl⟩

theorem sides_keepOutcomes (sides : List Dir) (e : SignalEngine) : KeepsOutcomes e
    (sides.foldl (fun e side => e.evaluateSide S sid ctx rd side) e) := by
  induction sides generalizing e with
  | nil => exact fun _ _ hr _ => hr
  | cons side sides ih =>
    obtain ⟨r, hr⟩ := evaluateSide_rows S e sid rd ctx side
    exact (KeepsOutcomes.of_append hr).trans (ih _)

theorem SameLinks.keepsOutcomes (h : SameLinks e e') : KeepsOutcomes e e' :=
  fun _ _ hr _ => by rw [h.rows, hr]

theorem stepPosition_keepsOutcomes {ofi : Bool} {bar : BarRow} (hL : Linked e)
    (h : e.stepPosition S ofi sid bar = some e') : KeepsOutcomes e e' := by
  rcases stepPosition_cases hL h with
    ⟨-, rfl⟩ | ⟨pos, i, row, ci, ho, hc, pos', hp, ⟨-, hopen, rfl⟩ | ⟨o, -, hr, hclose⟩⟩
  · exact fun _ _ hr _ => hr
  · exact fun _ _ hr _ => hr
  · obtain ⟨row', hclosed⟩ := (closePosition_spec S ho hr o).2 e' hclose
    exact hclosed.keepsOutcomes ho

theorem look_keepsOutcomes {ofi : Bool} (hL : Linked e)
    (h : e.look S ofi tape sid rd = some e') : KeepsOutcomes e e' := by
  have hsame := (sameBook_seen e sid tape).links
  rcases look_cases h with ⟨-, rfl⟩ | ⟨bar, -, hbar⟩
  · exact hsame.keepsOutcomes
  · obtain ⟨e₁, hstep, rfl⟩ := Option.map_eq_some_iff.1 hbar
    exact hsame.keepsOutcomes.trans ((stepPosition_keepsOutcomes (hsame.linked hL) hstep).trans
      ((sameBook_beforeSides S e₁ sid bar).links.keepsOutcomes.trans (sides_keepOutcomes _ _)))

end Kept

end SignalEngine

section Run

open SignalEngine

variable (S : Setup) (tcfg : TapeConfig) (symOf : ℤ → String)

/-- No fire over an open position, and none whose position could not be closed. -/
def SafeMove (s : System) : Move → Prop
  | .feed _ => True
  | .look sid rd => SafeLook S tcfg.depthOfiEnabled s.engine s.tape sid rd

variable {S tcfg symOf}

theorem next_cases {s t : System} {m : Move} (h : s.next S tcfg symOf m = some t) :
    (∃ i, m = .feed i ∧ SameBook s.engine t.engine) ∨
    ∃ sid rd, m = .look sid rd ∧
      s.engine.look S tcfg.depthOfiEnabled s.tape sid rd = some t.engine := by
  cases m with
  | feed i =>
    refine .inl ⟨i, rfl, ?_⟩
    cases h
    cases i with
    | packet row =>
      simp only [System.feed]
      split_ifs
      · exact ⟨⟨rfl, rfl, fun _ => rfl, fun _ => rfl, fun _ => rfl⟩, fun _ => rfl, rfl, rfl⟩
      · exact .refl _
    | depth row ts => exact .refl _
    | event => exact .refl _
  | look sid rd =>
    obtain ⟨e', he', rfl⟩ := Option.map_eq_some_iff.1 h
    exact .inr ⟨sid, rd, rfl, he'⟩

theorem next_links {s t : System} {m : Move} (hL : Linked s.engine)
    (h : s.next S tcfg symOf m = some t) :
    Linked t.engine ∧ (Healthy t.engine ↔ Healthy s.engine ∧ SafeMove S tcfg s m) := by
  rcases next_cases h with ⟨i, rfl, hsame⟩ | ⟨sid, rd, rfl, hlook⟩
  · exact ⟨hsame.links.linked hL, by rw [hsame.links.healthy]; simp [SafeMove]⟩
  · exact look_spec hL hlook

variable (S tcfg symOf) in
theorem next_of_sound {s : System} (m : Move) (hL : Linked s.engine)
    (hsound : ∀ sid, SoundAt (s.engine.inst sid)) : ∃ t, s.next S tcfg symOf m = some t := by
  cases m with
  | feed i => exact ⟨_, rfl⟩
  | look sid rd =>
    obtain ⟨e', he'⟩ := look_of_sound S s.tape rd tcfg.depthOfiEnabled hL (hsound sid)
    exact ⟨_, by rw [System.next, he']; rfl⟩

theorem next_keepsOutcomes {s t : System} {m : Move} (hL : Linked s.engine)
    (h : s.next S tcfg symOf m = some t) : KeepsOutcomes s.engine t.engine := by
  rcases next_cases h with ⟨i, rfl, hsame⟩ | ⟨sid, rd, rfl, hlook⟩
  · exact hsame.links.keepsOutcomes
  · exact look_keepsOutcomes hL hlook

theorem exec_keepsOutcomes {ms : List Move} {s t : System} (hL : Linked s.engine)
    (h : exec (System.next S tcfg symOf) s ms = some t) : KeepsOutcomes s.engine t.engine := by
  refine (exec_invariant (I := fun u => Linked u.engine ∧ KeepsOutcomes s.engine u.engine)
    (fun u m v hu hv => ?_) ⟨hL, fun _ _ hr _ => hr⟩ h).2
  exact ⟨(next_links hu.1 hv).1, hu.2.trans (next_keepsOutcomes hu.1 hv)⟩

theorem new_linked : Linked (SignalEngine.new S) := by
  refine ⟨fun _ => .inl ⟨rfl, rfl⟩, fun _ _ _ h => ?_, fun _ => ?_, List.nodup_nil,
    fun _ h => absurd h List.not_mem_nil⟩
  · cases h
  · simp [SignalEngine.new]

theorem new_healthy : Healthy (SignalEngine.new S) := by
  refine ⟨fun _ _ _ h => ?_, fun _ _ h => ?_⟩
  · cases h
  · cases h

/-- A run ends with one outcome for every fired row, none written twice, exactly if every fire was
safe. -/
theorem fired_rows_get_one_outcome (S : Setup) (tcfg : TapeConfig) (symOf : ℤ → String)
    (turns : List Turn) :
    (∃ s e, exec (System.next S tcfg symOf) (System.new S) (turns.flatMap (Turn.moves S)) = some s ∧
      s.engine.finalize S s.tape = some e ∧ Outcomes e ∧
      ∀ pre post, turns.flatMap (Turn.moves S) = pre ++ post → ∀ u,
        exec (System.next S tcfg symOf) (System.new S) pre = some u →
          KeepsOutcomes u.engine e) ↔
    Always (System.next S tcfg symOf) (SafeMove S tcfg) (System.new S)
      (turns.flatMap (Turn.moves S)) := by
  have hstep : ∀ (s : System) (m : Move) (t : System), Linked s.engine →
      s.next S tcfg symOf m = some t →
      Linked t.engine ∧ (Healthy t.engine ↔ Healthy s.engine ∧ SafeMove S tcfg s m) :=
    fun s m t hL h => next_links hL h
  have hgo : ∀ (s : System) (m : Move), Linked s.engine → Healthy s.engine →
      ∃ t, s.next S tcfg symOf m = some t :=
    fun s m hL hH => next_of_sound S tcfg symOf m hL hH.sound
  rw [← exec_healthy_iff (I := fun s => Linked s.engine) (H := fun s => Healthy s.engine) hstep
    hgo new_linked new_healthy]
  have hlinked : ∀ {ms s}, exec (System.next S tcfg symOf) (System.new S) ms = some s →
      Linked s.engine := fun h =>
    exec_invariant (fun s m t hL ht => (next_links hL ht).1) new_linked h
  constructor
  · rintro ⟨s, e, hs, hfin, hout, -⟩
    obtain ⟨hL', hH', hnil, -⟩ := (finalize_spec S s.tape (hlinked hs) rfl).1 e hfin
    exact ⟨s, hs, hH'.1 ((outcomes_iff_healthy hL' hnil).1 hout)⟩
  · rintro ⟨s, hs, hH⟩
    obtain ⟨hspec, hgo⟩ := finalize_spec S s.tape (hlinked hs) rfl
    obtain ⟨e, hfin⟩ := hgo hH
    obtain ⟨hL', hH', hnil, hk⟩ := hspec e hfin
    refine ⟨s, e, hs, hfin, (outcomes_iff_healthy hL' hnil).2 (hH'.2 hH), ?_⟩
    intro pre post hsplit u hu
    rw [hsplit, exec_append, hu] at hs
    exact (exec_keepsOutcomes (hlinked hu) hs).trans hk

/-- One future, fired on any score, without the gate on a second position. -/
def ungatedSetup : Setup :=
  { cfg :=
      { fireThreshold := fun _ => 0,
        gates := { firstMinutesNoEntry := 0, sessionCutoff := none, maxTradesPerDay := 0,
                   oneOpenPosition := false, cooldownS := 0 } },
    tradeable := [1], nodup := by decide }

/-- A score of zero, no levels and no chain. -/
def blankReading : Reading :=
  { score := fun _ => 0, levels := [],
    costs := fun _ => { delta := 1 / 2, premium := none, lot := none } }

def futureTick (ts : ℤ) (price : ℚ) (volume : ℤ) : Turn :=
  { input := .packet
      { securityId := some 1, tsRecvNs := ts, ltp := some price, volume := some volume },
    readings := fun _ => blankReading }

/-- Both sides fire on the first bar; the long signal's row is left without an outcome. -/
theorem second_fire_drops_outcome :
    let next := System.next ungatedSetup { tickBarSize := 1 } fun _ => "NIFTY_FUT"
    let moves := [futureTick 1 100 1000, futureTick 2 100 1050].flatMap (Turn.moves ungatedSetup)
    ((exec next (System.new ungatedSetup) moves).bind fun s =>
        s.engine.finalize ungatedSetup s.tape).map
        (fun e => e.rows.map fun r => (r.side, r.fired, r.exitReason, r.realizedR)) =
      some [(.long, true, none, none), (.short, true, some .sessionEnd, some 0)] := by
  decide +kernel

end Run

end TradingBridge.Orderflow.Signals
