import TradingBridge.Proofs.ConfirmedFills

/-!
# The exits of a position, tick after tick

Along a run of ticks the booked exits and what remains add up to the position, and a position of
which nothing remains says when and why it was closed, exactly if no tick reaches the stop or the
breaker of a closed position and no target takes all of an open one (`exits_lawful_iff`).
-/

namespace TradingBridge

open Effectful

/-- A position, and the exits booked for it. -/
structure ExitBook where
  position : StrategyPosition
  exits : List Booking

/-- A price, and the rows and the clock at the time. -/
structure PriceTick where
  db : Db
  ltp : ℚ
  ts : Nat

/-- `apply_tick` on the position; a side that cannot be read raises. -/
def ExitBook.next (s : ExitBook) (t : PriceTick) : Option ExitBook :=
  (orderSideOf s.position.side).map fun side =>
    let result := tick (strategyPartialContracts s.position t.db) side t.ltp t.ts s.position
    ⟨result.1, s.exits ++ result.2⟩

/-- What the code writes is what the step says. -/
theorem applyTick_next {w : World} {s s' : ExitBook} {ltp : ℚ}
    (h : s.next ⟨w.db, ltp, w.clock⟩ = some s') :
    ∃ side exits, s'.exits = s.exits ++ exits ∧ ((applyTick s.position ltp).exec w).2.db =
      (w.db.addExecutions (exits.map (bookExit s.position side ltp))).savePosition s'.position := by
  obtain ⟨side, hside, rfl⟩ := Option.map_eq_some_iff.1 h
  refine ⟨side, _, rfl, ?_⟩
  unfold applyTick
  rw [hside]
  rfl

structure ClosedOut (p : StrategyPosition) : Prop where
  remaining : p.remainingQuantity = 0
  status : p.status = .closed
  closedAt : p.closedAt.isSome
  exitReason : p.exitReason.isSome

def Booking.IsTarget (b : Booking) : Bool := b.1 = .partialTarget

/-- The exits account for what does not remain, and closed is when nothing remains. -/
structure ExitBook.Sound (s : ExitBook) : Prop where
  balance : (s.exits.map Prod.snd).sum + s.position.remainingQuantity = s.position.totalQuantity
  once : s.exits.countP Booking.IsTarget ≤ 1
  target : 0 < s.exits.countP Booking.IsTarget →
    s.position.remainingQuantity < s.position.totalQuantity
  nonneg : 0 ≤ s.position.remainingQuantity
  le_total : s.position.remainingQuantity ≤ s.position.totalQuantity
  closedOut : s.position.remainingQuantity = 0 ∨ s.position.status = .closed → ClosedOut s.position
  opened : s.position.status ≠ .closed → s.position.closedAt = none

/-- The second price is at least as good for the side as the first. -/
def Favours (side : OrderSide) : Option ℚ → Option ℚ → Prop
  | none, _ => True
  | some _, none => False
  | some before, some after => match side with
    | .buy => before ≤ after
    | .sell => after ≤ before

/-- What a tick has to keep. -/
structure TickLaw (s t : ExitBook) : Prop where
  balance : (t.exits.map Prod.snd).sum + t.position.remainingQuantity = t.position.totalQuantity
  once : t.exits.countP Booking.IsTarget ≤ 1
  favours : ∀ side, orderSideOf s.position.side = some side →
    Favours side s.position.highestPriceSeen t.position.highestPriceSeen
  notLate : s.position.status = .closed → t.exits = s.exits
  closedOut : t.position.remainingQuantity = 0 → ClosedOut t.position

/-- The price hits the target, and the target is for all of the position. -/
def TakesAll (contracts : Int) (side : OrderSide) (ltp : ℚ) (p : StrategyPosition) : Prop :=
  p.targetPrice.any (hitsTarget ltp · side) = true ∧ 0 < p.remainingQuantity ∧
    p.totalQuantity ≤ p.remainingQuantity ∧ p.remainingQuantity ≤ contracts

/-- A closed position is not halted again, and no target takes all of one that goes on. -/
def ExitBook.Allows (s : ExitBook) (t : PriceTick) : Prop :=
  ∀ side, orderSideOf s.position.side = some side →
    (s.position.status = .closed → ¬ Halts side t.ltp s.position) ∧
      (TakesAll (strategyPartialContracts s.position t.db) side t.ltp s.position →
        Halts side t.ltp s.position)

section Tick

variable {contracts : Int} {side : OrderSide} {ltp : ℚ} {ts : Nat} {p : StrategyPosition}
  {exits : List Booking}

theorem favours_bestSeen (side : OrderSide) (ltp : ℚ) (high : Option ℚ) :
    Favours side high (some (bestSeen side ltp high)) := by
  cases high with
  | none => trivial
  | some h =>
    cases side <;> simp only [bestSeen] <;> split_ifs with hlt
    · exact Rat.le_of_lt hlt
    · exact Rat.le_refl
    · exact Rat.le_of_lt hlt
    · exact Rat.le_refl

theorem ExitBook.Sound.close {role : LegRole} {q : StrategyPosition}
    (h : ExitBook.Sound ⟨p, exits⟩) (hrole : role ≠ .partialTarget) (hq : ClosedOut q)
    (htotal : q.totalQuantity = p.totalQuantity) :
    ExitBook.Sound ⟨q, exits ++ [(role, p.remainingQuantity)]⟩ := by
  have hcount : (exits ++ [(role, p.remainingQuantity)]).countP Booking.IsTarget =
      exits.countP Booking.IsTarget := by
    simp [Booking.IsTarget, hrole]
  refine ⟨?_, hcount ▸ h.once, fun hpos => ?_, hq.remaining.ge, ?_, fun _ => hq,
    fun hopen => absurd hq.status hopen⟩ <;> dsimp only <;> rw [hq.remaining, htotal]
  · rw [← h.balance]
    simp
  · exact h.nonneg.trans_lt (h.target (hcount ▸ hpos))
  · exact h.nonneg.trans h.le_total

theorem bookTarget_of_takesAll (h : TakesAll contracts side ltp p) :
    bookTarget contracts side ltp p = ({ p with remainingQuantity := 0, status := .closed },
      [(.partialTarget, p.remainingQuantity)]) := by
  obtain ⟨htarget, hpos, hfirst, hcontracts⟩ := h
  unfold bookTarget
  rw [if_pos ⟨htarget, hfirst.not_gt, lt_min hpos (hpos.trans_le hcontracts)⟩,
    min_eq_left hcontracts, Int.sub_self, if_neg (lt_irrefl _)]

theorem sound_bookTarget (h : ExitBook.Sound ⟨p, exits⟩)
    (hall : ¬ TakesAll contracts side ltp p) :
    ExitBook.Sound ⟨(bookTarget contracts side ltp p).1,
      exits ++ (bookTarget contracts side ltp p).2⟩ := by
  unfold bookTarget
  dsimp only
  split_ifs with hhit hrest
  · obtain ⟨htarget, hfirst, hqty⟩ := hhit
    have hnone : exits.countP Booking.IsTarget = 0 :=
      Nat.eq_zero_of_not_pos fun hpos => hfirst (h.target hpos)
    have hopen : p.status ≠ .closed := fun hclosed => by
      have := (h.closedOut (.inr hclosed)).remaining
      dsimp only at this
      omega
    have hbalance := h.balance
    have hle := h.le_total
    dsimp only at hbalance hle
    refine ⟨?_, ?_, fun _ => ?_, hrest.le, ?_, fun hzero => ?_, fun _ => h.opened hopen⟩
    · simp only [List.map_append, List.sum_append, List.map_singleton, List.sum_singleton]
      omega
    · simp [hnone, Booking.IsTarget]
    · dsimp only
      omega
    · dsimp only
      omega
    · rcases hzero with hzero | hclosed
      · exact absurd hzero hrest.ne'
      · cases hclosed
  · refine absurd ⟨hhit.1, ?_, not_lt.1 hhit.2.1, ?_⟩ hall
    · omega
    · omega
  · rw [List.append_nil]
    exact h

theorem sound_bookTrail (h : ExitBook.Sound ⟨p, exits⟩) :
    ExitBook.Sound ⟨(bookTrail side ltp ts p).1, exits ++ (bookTrail side ltp ts p).2⟩ := by
  unfold bookTrail
  split
  · split_ifs
    · exact h.close nofun ⟨rfl, rfl, rfl, rfl⟩ rfl
    · simpa using h
  · simpa using h

theorem tick_highest : (tick contracts side ltp ts p).1.highestPriceSeen =
    some (bestSeen side ltp p.highestPriceSeen) := by
  rcases tick_cases contracts side ltp ts p with ⟨-, reason, role, breaker, -, heq⟩ | ⟨-, heq⟩
  · rw [heq]
    rfl
  · rw [heq]
    unfold bookTrail bookTarget
    dsimp only
    split_ifs <;> split <;> (try split_ifs) <;> rfl

end Tick

section Step

variable {s s' : ExitBook} {t : PriceTick}

theorem sound_next (h : s.Sound) (hok : s.Allows t) (hnext : s.next t = some s') : s'.Sound := by
  obtain ⟨side, hside, rfl⟩ := Option.map_eq_some_iff.1 hnext
  obtain ⟨hlate, hall⟩ := hok side hside
  obtain ⟨p, exits⟩ := s
  dsimp only at *
  rcases tick_cases (strategyPartialContracts p t.db) side t.ltp t.ts p with
    ⟨-, reason, role, breaker, hrole, heq⟩ | ⟨hhalts, heq⟩
  · rw [heq]
    exact h.close hrole ⟨rfl, rfl, rfl, rfl⟩ rfl
  · rw [heq]
    have hseen : ExitBook.Sound ⟨observe side t.ltp p, exits⟩ :=
      ⟨h.balance, h.once, h.target, h.nonneg, h.le_total, fun hzero => by
        obtain ⟨h₁, h₂, h₃, h₄⟩ := h.closedOut hzero
        exact ⟨h₁, h₂, h₃, h₄⟩, h.opened⟩
    rw [← List.append_assoc]
    exact sound_bookTrail (sound_bookTarget hseen fun h => hhalts (hall h))

theorem tickLaw_iff (h : s.Sound) :
    (∀ s', s.next t = some s' → TickLaw s s') ↔ s.Allows t := by
  constructor
  · intro hlaw side hside
    have hlaw := hlaw _ (by rw [ExitBook.next, hside]; rfl)
    dsimp only at hlaw
    rcases tick_cases (strategyPartialContracts s.position t.db) side t.ltp t.ts s.position with
      ⟨hhalts, reason, role, breaker, -, heq⟩ | ⟨hhalts, heq⟩
    · refine ⟨fun hclosed => ?_, fun _ => hhalts⟩
      have hexits := hlaw.notLate hclosed
      rw [heq] at hexits
      simp at hexits
    · refine ⟨fun _ => hhalts, fun hall => ?_⟩
      have hopen : s.position.status ≠ .closed := fun hclosed =>
        hall.2.1.ne' (h.closedOut (.inr hclosed)).remaining
      have hclosedOut := hlaw.closedOut
      rw [heq] at hclosedOut
      dsimp only at hclosedOut
      rw [bookTarget_of_takesAll (p := observe side t.ltp s.position) hall] at hclosedOut
      rw [bookTrail_of_not_pos (by simp)] at hclosedOut
      have hnone := (hclosedOut rfl).closedAt
      rw [show (observe side t.ltp s.position).closedAt = none from h.opened hopen] at hnone
      cases hnone
  · rintro hok s' hnext
    have hsound := sound_next h hok hnext
    obtain ⟨side, hside, rfl⟩ := Option.map_eq_some_iff.1 hnext
    refine ⟨hsound.balance, hsound.once, fun side' hside' => ?_, fun hclosed => ?_,
      fun hzero => hsound.closedOut (.inl hzero)⟩
    · obtain rfl := Option.some.inj (hside.symm.trans hside')
      rw [tick_highest]
      exact favours_bestSeen side t.ltp _
    · have hzero := (h.closedOut (.inr hclosed)).remaining
      rcases tick_cases (strategyPartialContracts s.position t.db) side t.ltp t.ts s.position with
        ⟨hhalts, -⟩ | ⟨-, heq⟩
      · exact absurd hhalts ((hok side hside).1 hclosed)
      · have hnot : ¬ 0 < (observe side t.ltp s.position).remainingQuantity := hzero.not_gt
        rw [heq]
        dsimp only
        rw [bookTarget_of_not_pos hnot, bookTrail_of_not_pos hnot]
        simp

/-- From any sound position a run keeps the law exactly if every tick is allowed where it comes. -/
theorem exits_lawful_iff (h : s.Sound) (ticks : List PriceTick) :
    Always ExitBook.next (fun s t => ∀ s', s.next t = some s' → TickLaw s s') s ticks ↔
      Always ExitBook.next ExitBook.Allows s ticks :=
  always_congr (fun _ _ _ hs hok => sound_next hs hok) (fun _ _ => tickLaw_iff) h

end Step

/-- Four contracts with a stop at 90 and a target at 110. -/
def targetBook : ExitBook :=
  ⟨{ samplePosition 150 none 10 with stopLossPrice := some 90, targetPrice := some 110 }, []⟩

/-- The entry was filled in four legs of one contract, and the target is for `lots` of them. -/
def targetDb (lots : Int) : Db :=
  { sampleDb with
    strategies := [{ sampleStrategy with partialProfitLots := lots }]
    executions := (List.range 4).map fun leg => ⟨100, 7, none, leg + 1, .entry, "NIFTY", "buy", 1,
      some 100, .paper, some .complete⟩ }

theorem targetBook_sound : targetBook.Sound where
  balance := rfl
  once := by decide
  target := by decide
  nonneg := by decide
  le_total := by decide
  closedOut h := absurd h (by decide)
  opened _ := rfl

/-- The target closes without time or reason, and the stop then books an exit of nothing. -/
theorem target_takes_all : targetBook.Sound ∧
    ∃ s, targetBook.next ⟨targetDb 4, 120, 1⟩ = some s ∧
      (s.position.remainingQuantity = 0 ∧ s.position.status = .closed ∧
        s.position.closedAt = none ∧ s.position.exitReason = none ∧
        ∃ s', s.next ⟨targetDb 4, 80, 2⟩ = some s' ∧
          s'.exits = [(.partialTarget, 4), (.hardSl, 0)]) :=
  ⟨targetBook_sound, by decide +kernel⟩

instance {side : OrderSide} {ltp : ℚ} {p : StrategyPosition} : Decidable (Halts side ltp p) :=
  inferInstanceAs (Decidable (_ ∨ _))

instance {contracts : Int} {side : OrderSide} {ltp : ℚ} {p : StrategyPosition} :
    Decidable (TakesAll contracts side ltp p) := inferInstanceAs (Decidable (_ ∧ _))

theorem stopped_after_target : targetBook.Sound ∧
    Always ExitBook.next (fun s t => ∀ s', s.next t = some s' → TickLaw s s') targetBook
      [⟨targetDb 2, 120, 1⟩, ⟨targetDb 2, 80, 2⟩] := by
  refine ⟨targetBook_sound, (exits_lawful_iff targetBook_sound _).2 ⟨fun side => ?_, ?_⟩⟩
  · cases side <;> decide +kernel
  · rintro s hs
    cases hs
    refine ⟨fun side => ?_, fun _ _ => trivial⟩
    cases side <;> decide +kernel

end TradingBridge
