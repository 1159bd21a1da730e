import TradingBridge.PositionManager
import TradingBridge.Proofs.BookLaw

/-!
# A live close and the fill the broker confirms

What a close takes off a position is to be what the broker confirms of its order. The direct exits
ask for the fill and book it. The kill switch books the whole remainder on any acknowledgement, and
the position manager books without an order, so these two keep the law only where the acknowledged
order is filled in full and where no price level is hit.
-/

namespace TradingBridge

open Effectful Prog

variable {α β : Type}

/-- What the broker confirms of an order placed as the `n`-th question, if it is asked next. -/
def Environment.confirmedFill (env : Environment) (n : Nat) (c : OrderCall) : Int :=
  match env.place n c with
  | .error _ => 0
  | .ok response =>
    match env.answer (n + 1) (.confirmFill response.brokerOrderId c.order.quantity) with
    | .ok fill => fill.filledQty
    | .error _ => 0

def orderFill (w : World) : Request → Int
  | .placeOrder c => w.env.confirmedFill w.asked c
  | _ => 0

/-- Answer a request and count what is confirmed of the orders. -/
def countFills (v : World × Int) (r : Request) : Response r × (World × Int) :=
  ((handle v.1 r).1, ((handle v.1 r).2, v.2 + orderFill v.1 r))

def confirmedBy (c : Code α) (w : World) : Int := (c.run countFills (w, 0)).2.2

theorem run_countFills : ∀ (c : Code α) (v : World × Int),
    (c.run countFills v).1 = (c.exec v.1).1 ∧ (c.run countFills v).2.1 = (c.exec v.1).2
  | .ret _, _ => ⟨rfl, rfl⟩
  | .fail _, _ => ⟨rfl, rfl⟩
  | .op r k, v => run_countFills (k (handle v.1 r).1) (countFills v r).2

/-- The row of the position has lost what was confirmed, and is closed only if that covers it. -/
def BooksFills (p : StrategyPosition) (d : Db) (confirmed : Int) : Prop :=
  ∀ q ∈ d.positions, q.id = p.id →
    p.remainingQuantity - q.remainingQuantity = min confirmed p.remainingQuantity
      ∧ (q.status = .closed → p.status ≠ .closed → p.remainingQuantity ≤ confirmed)

theorem booksFills_of_wp {c : Code α} {w : World} {p : StrategyPosition}
    (h : c.wp (serving countFills) (fun _ v => BooksFills p v.1.db v.2) (w, 0)) :
    BooksFills p (c.exec w).2.db (confirmedBy c w) := by
  have hrun := wp_serving.1 h
  rwa [(run_countFills c (w, 0)).2] at hrun

section Unbooked

variable {w : World} {v : World × Int} {n : Int}

/-- Requests that leave the database alone and place no order. -/
def Unbooked : Request → Prop
  | .db f => ∀ d, (f d).2 = d
  | .setSignalStatus _ _ | .placeOrder _ => False
  | _ => True

/-- The database and the answers from outside are those of `w`, and `n` is confirmed. -/
structure Settled (w : World) (n : Int) (v : World × Int) : Prop where
  db : v.1.db = w.db
  env : v.1.env = w.env
  fills : v.2 = n

theorem Reads.unbooked {r : Request} (h : Reads r) : Unbooked r := by
  cases r with
  | db | redisGet | clock | ask => first | exact h | trivial
  | _ => exact h.elim

theorem unbooked_of_reads {c : Code α} (h : c.AsksIn Reads) : c.AsksIn Unbooked :=
  asksIn_mono (fun _ hr => hr.unbooked) h

theorem Settled.step {r : Request} (h : Settled w n v) (hr : Unbooked r) :
    Settled w n (countFills v r).2 := by
  refine ⟨?_, (handle_env v.1 r).trans h.env, ?_⟩
  · cases r with
    | db f => exact (hr v.1.db).trans h.db
    | setSignalStatus | placeOrder => exact hr.elim
    | _ => exact h.db
  · cases r with
    | setSignalStatus | placeOrder => exact hr.elim
    | _ => exact (Int.add_zero v.2).trans h.fills

variable {Q : Except AppError β → World × Int → Prop}

theorem bind_settled {c : Code α} {f : α → Code β}
    {P : α → Prop} (hc : c.Yields Unbooked (fun _ _ => True) P) (hv : Settled w n v)
    (hok : ∀ a u, P a → Settled w n u → (f a).wp (serving countFills) Q u)
    (herr : ∀ e u, Settled w n u → Q (.error e) u) : (c >>= f).wp (serving countFills) Q v := by
  refine wp_bind.2 ?_
  refine hc.wp (fun _ _ _ _ => trivial) ?_ (fun a u ha hu => hok a u ha hu) herr hv
  rintro u r _ _ hu hr ⟨rfl, rfl⟩
  exact ⟨hu.step hr, trivial⟩

theorem settled_readDb {f : Db → α} {k : α → Code β}
    (hv : Settled w n v)
    (hok : ∀ u, Settled w n u → (k (f w.db)).wp (serving countFills) Q u) :
    (readDb f >>= k).wp (serving countFills) Q v := by
  refine ⟨trivial, ?_⟩
  rintro _ _ ⟨rfl, rfl⟩
  change (k (f v.1.db)).wp (serving countFills) Q _
  rw [hv.db]
  exact hok _ (hv.step fun _ => rfl)

end Unbooked

section DirectExits

variable {w : World} {v : World × Int} {p : StrategyPosition} {signal : StrategySignal}
  {strategy : Strategy} {cfg : Settings} {leg : ExitLeg} {side : String}

variable {b : CredentialId} {d : Db}

theorem booksFills_untouched (hids : (d.positions.map (·.id)).Nodup)
    (hp : p ∈ d.positions) (hremaining : 0 ≤ p.remainingQuantity) : BooksFills p d 0 := by
  intro q hq hid
  obtain rfl := List.inj_on_of_nodup_map hids hq hp hid
  exact ⟨by omega, fun hclosed hopen => absurd hclosed hopen⟩

theorem placeCloseOrder_confirmed {exitSide : OrderSide} {qty : Int}
    {product : ProductType} {origin : Origin} {Q : Except AppError CloseFill → World × Int → Prop}
    (hv : Settled w 0 v)
    (hok : ∀ fill u n c, fill.filledQty = w.env.confirmedFill n c →
      Settled w fill.filledQty u → Q (.ok fill) u)
    (herr : ∀ e u, Settled w 0 u → Q (.error e) u) :
    (placeCloseOrder (some b) signal exitSide qty product origin).wp (serving countFills) Q v := by
  have hclaim : (claimClose signal.id).AsksIn Unbooked := by
    refine asksIn_bind ((asksIn_perform _).2 trivial) fun first => ?_
    split <;> trivial
  refine bind_settled (unbooked_of_reads (closeChecks_reads _ _)).yields hv
    (fun _ u _ hu => ?_) herr
  refine bind_settled hclaim.yields hu (fun _ u _ hu => ?_) herr
  set call : OrderCall := ⟨b, ⟨signal.symbol, .nfo, exitSide, qty, .market, product, none,
    "strategy-engine-direct-exit"⟩, origin⟩
  refine wp_bind.2 (wp_bind.2 ⟨trivial, ?_⟩)
  rintro _ _ ⟨rfl, rfl⟩
  -- the order is placed as question `u.1.asked`, and its fill asked for as the next
  have hfills : u.2 + orderFill u.1 (.placeOrder call)
      = u.1.env.confirmedFill u.1.asked call := by
    rw [hu.fills, Int.zero_add, orderFill]
  dsimp only [countFills, handle]
  rw [hfills]
  rcases hplace : u.1.env.place u.1.asked call with e | response
  · exact herr e _ ⟨hu.db, hu.env, by simp [Environment.confirmedFill, hplace]⟩
  refine wp_bind.2 (wp_bind.2 ⟨trivial, ?_⟩)
  rintro _ _ ⟨rfl, rfl⟩
  dsimp only [countFills, handle, orderFill]
  rcases hfill : u.1.env.answer (u.1.asked + 1) (.confirmFill response.brokerOrderId qty)
    with e | fill
  · exact herr e _ ⟨hu.db, hu.env, by simp [Environment.confirmedFill, hplace, hfill, call]⟩
  · have hconfirmed : u.1.env.confirmedFill u.1.asked call = fill.filledQty := by
      simp [Environment.confirmedFill, hplace, hfill, call]
    exact hok _ _ u.1.asked call (hu.env ▸ hconfirmed.symm)
      ⟨hu.db, hu.env, (Int.add_zero _).trans hconfirmed⟩

/-- While the fan-out runs: the one row with the position's id is the reduced one. -/
def RowIs (p : StrategyPosition) (d : Db) : Prop :=
  p.id < d.nextId ∧ ∀ q ∈ d.positions, q.id = p.id → q = p

theorem rowIs_savePosition {q : StrategyPosition} (hid : q.id < d.nextId) :
    RowIs q (d.savePosition q) := by
  refine ⟨hid, fun r hr hrid => ?_⟩
  obtain ⟨r', hr', rfl⟩ := List.mem_map.1 hr
  split_ifs at hrid ⊢ with h
  · rfl
  · exact absurd hrid h

theorem rowIs_mirror (howner : p.subscriptionId = none) : MirrorLaw (RowIs p) where
  status _ _ h := h
  executions _ h := h
  add _ h := by
    refine ⟨h.1.trans (Nat.lt_succ_self _), fun q hq hid => ?_⟩
    rcases mem_concat.1 hq with hq | rfl
    · exact h.2 q hq hid
    · exact absurd hid.symm h.1.ne
  close qty price ts h₀ hp hsub h := by
    refine ⟨h.1, fun q hq hid => ?_⟩
    obtain ⟨r, hr, rfl⟩ := List.mem_map.1 hq
    split_ifs at hid ⊢ with hsame
    · rw [mirrorClose_scope.1] at hid
      rw [h₀.2 _ hp hid] at hsub
      exact absurd howner hsub
    · exact h.2 r hr hid

theorem Mirrors.no_orders {r : Request} (h : Mirrors r) (v : World) : orderFill v r = 0 := by
  cases r with
  | placeOrder => exact h.elim
  | _ => rfl

/-- The fan-out of an exit places no order and leaves the owner's row alone. -/
theorem maybeFanOutExit_rowIs {n : Int} {kind : ActionKind} {f : Unit → Code β}
    {Q : Except AppError β → World × Int → Prop} (howner : p.subscriptionId = none)
    (hv : RowIs p v.1.db ∧ v.2 = n)
    (hok : ∀ u, RowIs p u.1.db ∧ u.2 = n → (f ()).wp (serving countFills) Q u)
    (herr : ∀ e u, RowIs p u.1.db ∧ u.2 = n → Q (.error e) u) :
    (maybeFanOutExit cfg signal strategy kind >>= f).wp (serving countFills) Q v := by
  have hstays : Stays (RowIs p) (fun _ _ => True) (fun _ => True)
      (maybeFanOutExit cfg signal strategy kind) := maybeFanOutExit_stays (rowIs_mirror howner) ..
  have hboth := hstays.and (maybeFanOutExit_mirrors cfg signal strategy kind)
  refine wp_bind.2 ?_
  refine hboth.wp (fun _ _ _ _ => trivial) ?_ (fun (_ : Unit) u _ hu => hok u hu) herr hv
  rintro u r _ _ ⟨hrow, hn⟩ ⟨hr, hmirror⟩ ⟨rfl, rfl⟩
  refine ⟨⟨hr u.1 hrow, ?_⟩, ?_⟩
  · exact (congrArg (u.2 + ·) (hmirror.no_orders u.1)).trans ((Int.add_zero u.2).trans hn)
  · cases r with
    | db g => exact ⟨u.1.db, hrow, rfl⟩
    | _ => trivial

theorem reducePosition_books {filled : Int} {ts : Nat}
    (h : RowIs (reducePosition leg p filled side signal.id ts) d) : BooksFills p d filled := by
  intro q hq hid
  obtain rfl := h.2 q hq hid
  simp only [reducePosition]
  refine ⟨by omega, fun hclosed _ => ?_⟩
  split_ifs at hclosed with hpos
  omega

/-- The position is a row with an id of its own, and no quantity is negative. -/
structure LiveRow (w : World) (p : StrategyPosition) : Prop where
  ids : (w.db.positions.map (·.id)).Nodup
  mem : p ∈ w.db.positions
  below : p.id < w.db.nextId
  remaining : 0 ≤ p.remainingQuantity
  confirmed : ∀ n c, 0 ≤ w.env.confirmedFill n c

theorem LiveRow.untouched {u : World × Int} (h : LiveRow w p) (hu : Settled w 0 u) :
    BooksFills p u.1.db u.2 := by
  rw [hu.db, hu.fills]
  exact booksFills_untouched h.ids h.mem h.remaining

theorem closeAndBook_books {qty : Int} {f : Option StrategyPosition → Code β}
    (h : LiveRow w p) (howner : p.subscriptionId = none) (hv : Settled w 0 v)
    (hf : ∀ x, ∃ y, f x = pure y) :
    (closeAndBook cfg leg signal strategy (some b) p side qty >>= f).wp (serving countFills)
      (fun _ u => BooksFills p u.1.db u.2) v := by
  have hrest : ∀ x u, BooksFills p u.1.db u.2 →
      (f x).wp (serving countFills) (fun _ u => BooksFills p u.1.db u.2) u := by
    intro x u hu
    obtain ⟨y, hy⟩ := hf x
    rw [hy]
    exact hu
  refine wp_bind.2 ?_
  refine bind_settled (ofExcept_asksIn _).yields hv (fun exitSide u _ hu => ?_)
    (fun _ _ hu => h.untouched hu)
  refine bind_settled (ofExcept_asksIn _).yields hu (fun product u _ hu => ?_)
    (fun _ _ hu => h.untouched hu)
  refine wp_bind.2 (placeCloseOrder_confirmed hu (fun fill u₁ n c hc hu₁ => ?_)
    (fun _ _ hu => h.untouched hu))
  simp only [cont_ok]
  split_ifs with hfill htimed
  · have hzero : fill.filledQty = 0 := le_antisymm hfill (hc ▸ h.confirmed n c)
    rw [hzero] at hu₁
    exact bind_settled ((asksIn_perform _).2 trivial).yields hu₁
      (fun _ u _ hu => hrest none u (h.untouched hu)) (fun _ _ hu => h.untouched hu)
  · have hzero : fill.filledQty = 0 := le_antisymm hfill (hc ▸ h.confirmed n c)
    rw [hzero] at hu₁
    exact hrest none u₁ (h.untouched hu₁)
  · refine ⟨trivial, ?_⟩
    rintro _ _ ⟨rfl, rfl⟩
    refine ⟨trivial, ?_⟩
    rintro _ _ ⟨rfl, rfl⟩
    set p' := reducePosition leg p fill.filledQty side signal.id u₁.1.clock
    have howner' : p'.subscriptionId = none := howner
    have hbelow : p'.id < u₁.1.db.nextId := by
      rw [hu₁.db]
      exact h.below
    have hbooks : ∀ {u : World × Int},
        RowIs p' u.1.db ∧ u.2 = fill.filledQty → BooksFills p u.1.db u.2 := by
      rintro u ⟨hrow, hn⟩
      rw [hn]
      exact reducePosition_books hrow
    exact maybeFanOutExit_rowIs howner' ⟨rowIs_savePosition hbelow,
      (Int.add_zero _).trans ((Int.add_zero _).trans hu₁.fills)⟩
      (fun u hu => hrest _ u (hbooks hu)) (fun _ u hu => hbooks hu)

theorem found_books {f : Option CredentialId → Code β} (h : LiveRow w p) (hv : Settled w 0 v)
    (hlive : resolvePaperMode cfg (some strategy) = false)
    (hf : ∀ b u, Settled w 0 u →
      (f (some b)).wp (serving countFills) (fun _ u => BooksFills p u.1.db u.2) u) :
    (closeBroker cfg signal strategy p >>= f).wp (serving countFills)
      (fun _ u => BooksFills p u.1.db u.2) v := by
  have hbroker : (closeBroker cfg signal strategy p).Yields Unbooked (fun _ _ => True)
      (fun b => b.isNone = false) :=
    (closeBroker_yields cfg signal strategy p).mono (fun _ => Reads.unbooked)
      fun _ hb => hb.trans hlive
  refine bind_settled hbroker hv (fun broker u hb hu => ?_) (fun _ _ hu => h.untouched hu)
  cases broker with
  | none => cases hb
  | some b => exact hf b u hu

theorem executePartial_books (h : LiveRow w p)
    (hlive : resolvePaperMode cfg (some strategy) = false) (hside : payloadSide signal = .ok side)
    (hp : getOpenPosition strategy.id signal.symbol side w.db = some p) :
    (executePartial cfg signal strategy).wp (serving countFills)
      (fun _ u => BooksFills p u.1.db u.2) (w, 0) := by
  unfold executePartial
  rw [hside]
  change (ofExcept (payloadClosePct signal) >>= _).wp _ _ _
  refine bind_settled (ofExcept_asksIn _).yields ⟨rfl, rfl, rfl⟩ (fun pct u _ hu => ?_)
    (fun _ _ hu => h.untouched hu)
  refine settled_readDb hu fun u hu => ?_
  rw [hp]
  by_cases hpos : 0 < p.remainingQuantity
  · rw [Option.filter_some, if_pos (by simpa using hpos)]
    refine found_books h hu hlive fun b u hu => ?_
    refine bind_settled (unbooked_of_reads (resolveLotSize_reads _ _ _ _)).yields hu
      (fun lotSize u _ hu => ?_) (fun _ _ hu => h.untouched hu)
    dsimp only
    split_ifs
    · exact h.untouched hu
    · exact closeAndBook_books h (getOpenPosition_spec hp).2.owner hu fun x => by
        cases x <;> exact ⟨_, rfl⟩
  · rw [Option.filter_some, if_neg (by simpa using hpos)]
    exact h.untouched hu

theorem executeExit_books (h : LiveRow w p)
    (hlive : resolvePaperMode cfg (some strategy) = false) (hside : payloadSide signal = .ok side)
    (hp : getOpenPosition strategy.id signal.symbol side w.db = some p) :
    (executeExit cfg leg signal strategy).wp (serving countFills)
      (fun _ u => BooksFills p u.1.db u.2) (w, 0) := by
  unfold executeExit
  rw [hside]
  refine settled_readDb ⟨rfl, rfl, rfl⟩ fun u hu => ?_
  rw [hp]
  by_cases hpos : 0 < p.remainingQuantity
  · rw [Option.filter_some, if_pos (by simpa using hpos)]
    exact found_books h hu hlive fun b u hu =>
      closeAndBook_books h (getOpenPosition_spec hp).2.owner hu fun x => by
        cases x <;> exact ⟨_, rfl⟩
  · rw [Option.filter_some, if_neg (by simpa using hpos)]
    exact h.untouched hu

end DirectExits

section Booked

variable {w : World} {p q : StrategyPosition} {d : Db}

theorem booksFills_savePosition {n : Int} (hp : p ∈ d.positions) (hid : q.id = p.id) :
    BooksFills p (d.savePosition q) n ↔
      p.remainingQuantity - q.remainingQuantity = min n p.remainingQuantity
        ∧ (q.status = .closed → p.status ≠ .closed → p.remainingQuantity ≤ n) := by
  constructor
  · intro h
    exact h q (List.mem_map.2 ⟨p, hp, if_pos hid.symm⟩) hid
  · rintro h r hr hrid
    obtain ⟨r', hr', rfl⟩ := List.mem_map.1 hr
    split_ifs at hrid ⊢ with hsame
    · exact h
    · exact absurd (hrid.trans hid.symm) hsame

variable (user : UserId) (broker : CredentialId)

def killSwitchOrder (p : StrategyPosition) (side : OrderSide) : OrderCall :=
  ⟨broker, ⟨p.symbol, .nfo, side, p.remainingQuantity, .market, .margin, none, "kill-switch"⟩,
    .killSwitch user p.id⟩

/-- Every acknowledged order of the kill switch is filled in full. -/
def SquareOffFilled (w : World) (p : StrategyPosition) : Prop :=
  ∀ side response, oppositeSide p.side = .ok side →
    w.env.place w.asked (killSwitchOrder user broker p side) = .ok response →
    p.remainingQuantity ≤ w.env.confirmedFill w.asked (killSwitchOrder user broker p side)

/-- A kill-switch close writes the position off on any acknowledgement. -/
theorem closePositionViaBroker_spec (w : World)
    {side : OrderSide} (hside : oppositeSide p.side = .ok side) :
    (closePositionViaBroker user broker p).wp (serving countFills) (fun _ v =>
      v.2 = w.env.confirmedFill w.asked (killSwitchOrder user broker p side)
        ∧ v.1.db = match w.env.place w.asked (killSwitchOrder user broker p side) with
          | .error _ => w.db
          | .ok response =>
            w.db.savePosition (killSwitchClose p side response.brokerOrderId false w.clock))
      (w, 0) := by
  unfold closePositionViaBroker
  rw [hside]
  refine (wp_bind (p := placeOrder (killSwitchOrder user broker p side))).2
    (wp_bind.2 ⟨trivial, ?_⟩)
  rintro _ _ ⟨rfl, rfl⟩
  dsimp only [countFills, handle]
  rcases w.env.place w.asked (killSwitchOrder user broker p side) with e | response
  · exact ⟨Int.zero_add _, rfl⟩
  · refine ⟨trivial, ?_⟩
    rintro _ _ ⟨rfl, rfl⟩
    refine ⟨trivial, ?_⟩
    rintro _ _ ⟨rfl, rfl⟩
    exact ⟨(Int.add_zero _).trans ((Int.add_zero _).trans (Int.zero_add _)), rfl⟩

theorem closePositionViaBroker_books_iff (h : LiveRow w p) (user : UserId) (broker : CredentialId) :
    BooksFills p ((closePositionViaBroker user broker p).exec w).2.db
        (confirmedBy (closePositionViaBroker user broker p) w)
      ↔ SquareOffFilled user broker w p := by
  have huntouched := booksFills_untouched h.ids h.mem h.remaining
  unfold SquareOffFilled
  rcases hside : oppositeSide p.side with e | side
  · refine ⟨fun _ => nofun, fun _ => ?_⟩
    unfold confirmedBy closePositionViaBroker
    rw [hside]
    exact huntouched
  obtain ⟨hconfirmed, hdb⟩ := wp_serving.1 (closePositionViaBroker_spec user broker w hside)
  rw [confirmedBy, hconfirmed, ← (run_countFills _ (w, 0)).2, hdb]
  rcases hplace : w.env.place w.asked (killSwitchOrder user broker p side) with e | response
  · have hnone : w.env.confirmedFill w.asked (killSwitchOrder user broker p side) = 0 := by
      simp [Environment.confirmedFill, hplace]
    rw [hnone]
    refine ⟨fun _ side' response hside' hplace' => ?_, fun _ => huntouched⟩
    cases hside'
    rw [hplace] at hplace'
    cases hplace'
  · have hbooks := booksFills_savePosition
      (q := killSwitchClose p side response.brokerOrderId false w.clock)
      (n := w.env.confirmedFill w.asked (killSwitchOrder user broker p side)) h.mem rfl
    rw [hbooks]
    constructor
    · rintro ⟨hmin, -⟩ side' response' hside' -
      cases hside'
      simp only [killSwitchClose] at hmin
      omega
    · intro hfilled
      have hle := hfilled side response rfl hplace
      exact ⟨by simp [killSwitchClose]; omega, fun _ _ => hle⟩

end Booked

section Ticks

variable {w : World} {p : StrategyPosition} {contracts : Int} {side : OrderSide} {ltp : ℚ}
  {ts : Nat}

/-- Its stop, the breaker, its target while unbooked, or its trail. -/
def HitsLevel (contracts : Int) (side : OrderSide) (ltp : ℚ) (p : StrategyPosition) : Prop :=
  p.stopLossPrice.any (hitsStop ltp · side) = true
    ∨ breakerTriggered (observe side ltp p) ltp side = true
    ∨ (p.targetPrice.any (hitsTarget ltp · side) = true
      ∧ p.totalQuantity ≤ p.remainingQuantity ∧ 0 < contracts)
    ∨ p.trailOffset.any (trailTriggered ltp (bestSeen side ltp p.highestPriceSeen) · side) = true

/-- The price hits the stop or trips the breaker. -/
def Halts (side : OrderSide) (ltp : ℚ) (p : StrategyPosition) : Prop :=
  p.stopLossPrice.any (hitsStop ltp · side) = true ∨
    breakerTriggered (observe side ltp p) ltp side = true

theorem bookTarget_cases (contracts : Int) (side : OrderSide) (ltp : ℚ) (p : StrategyPosition) :
    ((p.targetPrice.any (hitsTarget ltp · side) = true ∧ p.totalQuantity ≤ p.remainingQuantity
        ∧ 0 < min p.remainingQuantity contracts)
      ∧ (bookTarget contracts side ltp p).1.remainingQuantity < p.remainingQuantity)
    ∨ (¬ (p.targetPrice.any (hitsTarget ltp · side) = true
        ∧ p.totalQuantity ≤ p.remainingQuantity ∧ 0 < min p.remainingQuantity contracts)
      ∧ bookTarget contracts side ltp p = (p, [])) := by
  unfold bookTarget
  simp only [not_lt]
  by_cases h : p.targetPrice.any (hitsTarget ltp · side) = true
      ∧ p.totalQuantity ≤ p.remainingQuantity ∧ 0 < min p.remainingQuantity contracts
  · rw [if_pos h]
    refine .inl ⟨h, ?_⟩
    dsimp only
    omega
  · rw [if_neg h]
    exact .inr ⟨h, rfl⟩

theorem bookTrail_cases (side : OrderSide) (ltp : ℚ) (ts : Nat) (p : StrategyPosition) :
    (∃ offset high, p.trailOffset = some offset ∧ p.highestPriceSeen = some high
        ∧ trailTriggered ltp high offset side = true ∧ 0 < p.remainingQuantity
        ∧ (bookTrail side ltp ts p).1.remainingQuantity = 0)
    ∨ ((∀ offset high, p.trailOffset = some offset → p.highestPriceSeen = some high →
        0 < p.remainingQuantity → trailTriggered ltp high offset side = false)
      ∧ bookTrail side ltp ts p = (p, [])) := by
  unfold bookTrail
  split
  · rename_i offset high hoffset hhigh
    split_ifs with h
    · exact .inl ⟨offset, high, hoffset, hhigh, h.2, h.1, rfl⟩
    · refine .inr ⟨fun offset' high' ho hh hpos => ?_, rfl⟩
      rw [hoffset] at ho
      rw [hhigh] at hh
      cases ho
      cases hh
      simpa [hpos] using h
  · rename_i hnone
    exact .inr ⟨fun offset high ho hh => (hnone offset high ho hh).elim, rfl⟩

theorem bookTarget_of_not_pos (h : ¬ 0 < p.remainingQuantity) :
    bookTarget contracts side ltp p = (p, []) := by
  unfold bookTarget
  rw [if_neg fun hhit => h (hhit.2.2.trans_le (min_le_left _ _))]

theorem bookTrail_of_not_pos (h : ¬ 0 < p.remainingQuantity) :
    bookTrail side ltp ts p = (p, []) := by
  unfold bookTrail
  split
  · rw [if_neg fun hhit => h hhit.1]
  · rfl

/-- A tick that halts closes the position; another books the target and then the trail. -/
theorem tick_cases (contracts : Int) (side : OrderSide) (ltp : ℚ) (ts : Nat)
    (p : StrategyPosition) :
    (Halts side ltp p ∧ ∃ reason role breaker, role ≠ .partialTarget ∧
      tick contracts side ltp ts p = ({ closeAll reason ts (observe side ltp p) with
        circuitBreakerTriggered := breaker }, [(role, p.remainingQuantity)])) ∨
    (¬ Halts side ltp p ∧ tick contracts side ltp ts p =
      let target := bookTarget contracts side ltp (observe side ltp p)
      let trail := bookTrail side ltp ts target.1
      (trail.1, target.2 ++ trail.2)) := by
  unfold tick Halts
  by_cases hstop : p.stopLossPrice.any (hitsStop ltp · side) = true
  · have hstop' : (observe side ltp p).stopLossPrice.any (hitsStop ltp · side) = true := hstop
    rw [if_pos hstop']
    exact .inl ⟨.inl hstop, _, .hardSl, _, nofun, rfl⟩
  have hstop' : ¬ (observe side ltp p).stopLossPrice.any (hitsStop ltp · side) = true := hstop
  rw [if_neg hstop']
  by_cases hbreaker : breakerTriggered (observe side ltp p) ltp side = true
  · rw [if_pos hbreaker]
    exact .inl ⟨.inr hbreaker, _, .circuitBreaker, _, nofun, rfl⟩
  · rw [if_neg hbreaker]
    exact .inr ⟨not_or.2 ⟨hstop, hbreaker⟩, rfl⟩

theorem trail_any_iff {offset : Option ℚ} {high : ℚ} :
    offset.any (trailTriggered ltp high · side) = true
      ↔ ∃ o, offset = some o ∧ trailTriggered ltp high o side = true := by
  cases offset <;> simp

theorem tick_of_not_hitsLevel (h : ¬ HitsLevel contracts side ltp p) :
    (tick contracts side ltp ts p).1 = observe side ltp p := by
  unfold HitsLevel at h
  rw [not_or, not_or, not_or] at h
  obtain ⟨hstop, hbreaker, htarget, htrail⟩ := h
  rcases tick_cases contracts side ltp ts p with ⟨hhalts, -⟩ | ⟨-, heq⟩
  · exact absurd hhalts (not_or.2 ⟨hstop, hbreaker⟩)
  rw [heq]
  dsimp only
  rcases bookTarget_cases contracts side ltp (observe side ltp p)
    with ⟨⟨hhit, hfirst, hqty⟩, -⟩ | ⟨-, heq⟩
  · exact absurd ⟨hhit, hfirst, by omega⟩ htarget
  rw [heq]
  rcases bookTrail_cases side ltp ts (observe side ltp p)
    with ⟨offset, high, hoffset, hhigh, hhit, -⟩ | ⟨-, heq⟩
  · refine absurd (trail_any_iff.2 ⟨offset, hoffset, ?_⟩) htrail
    rw [← Option.some.inj hhigh] at hhit
    exact hhit
  · rw [heq]

theorem tick_of_hitsLevel (hremaining : 0 < p.remainingQuantity)
    (h : HitsLevel contracts side ltp p) :
    (tick contracts side ltp ts p).1.remainingQuantity < p.remainingQuantity := by
  rcases tick_cases contracts side ltp ts p with ⟨-, _, _, _, -, heq⟩ | ⟨hhalts, heq⟩
  · rw [heq]
    exact hremaining
  rw [heq]
  have hle : ∀ q : StrategyPosition, q.remainingQuantity ≤ p.remainingQuantity →
      (bookTrail side ltp ts q).1.remainingQuantity ≤ q.remainingQuantity := by
    intro q hq
    rcases bookTrail_cases side ltp ts q
      with ⟨-, -, -, -, -, hpos, hzero⟩ | ⟨-, heq⟩
    · omega
    · rw [heq]
  rcases bookTarget_cases contracts side ltp (observe side ltp p) with ⟨-, hless⟩ | ⟨hmiss, heq⟩
  · exact (hle _ hless.le).trans_lt hless
  -- nothing but the trail is left to have been hit
  rw [heq]
  obtain ⟨offset, hoffset, hhit⟩ : ∃ o, p.trailOffset = some o
      ∧ trailTriggered ltp (bestSeen side ltp p.highestPriceSeen) o side = true := by
    rcases h with h | h | ⟨hhit, hfirst, hcontracts⟩ | h
    · exact absurd (.inl h) hhalts
    · exact absurd (.inr h) hhalts
    · exact absurd ⟨hhit, hfirst, lt_min hremaining hcontracts⟩ hmiss
    · exact trail_any_iff.1 h
  rcases bookTrail_cases side ltp ts (observe side ltp p)
    with ⟨-, -, -, -, -, -, hzero⟩ | ⟨hmiss, -⟩
  · rw [hzero]
    exact hremaining
  · have hnot := hmiss offset _ hoffset rfl hremaining
    rw [hhit] at hnot
    cases hnot

theorem tick_of_empty (hempty : p.remainingQuantity = 0) :
    (tick contracts side ltp ts p).1.remainingQuantity = 0 := by
  have hnot : ¬ 0 < (observe side ltp p).remainingQuantity := hempty.not_gt
  rcases tick_cases contracts side ltp ts p with ⟨-, _, _, _, -, heq⟩ | ⟨-, heq⟩
  · rw [heq]
    rfl
  · rw [heq]
    dsimp only
    rw [bookTarget_of_not_pos hnot, bookTrail_of_not_pos hnot]
    exact hempty

theorem bookTarget_id (p : StrategyPosition) : (bookTarget contracts side ltp p).1.id = p.id := by
  unfold bookTarget
  dsimp only
  split <;> rfl

theorem bookTrail_id (p : StrategyPosition) : (bookTrail side ltp ts p).1.id = p.id := by
  unfold bookTrail
  split
  · split <;> rfl
  · rfl

theorem tick_id : (tick contracts side ltp ts p).1.id = p.id := by
  unfold tick
  dsimp only
  split_ifs
  · rfl
  · rfl
  · exact (bookTrail_id _).trans (bookTarget_id _)

/-- No level of the position is hit, as far as its side can be read. -/
def NoLevelHit (ltp : ℚ) (w : World) (p : StrategyPosition) : Prop :=
  0 < p.remainingQuantity → ∀ side, orderSideOf p.side = some side →
    ¬ HitsLevel (strategyPartialContracts p w.db) side ltp p

theorem applyTick_books_iff (h : LiveRow w p) (ltp : ℚ) :
    BooksFills p ((applyTick p ltp).exec w).2.db (confirmedBy (applyTick p ltp) w)
      ↔ NoLevelHit ltp w p := by
  unfold NoLevelHit
  rcases hside : orderSideOf p.side with _ | side
  · have huntouched := booksFills_untouched h.ids h.mem h.remaining
    refine ⟨fun _ _ => nofun, fun _ => ?_⟩
    unfold confirmedBy applyTick
    rw [hside]
    exact huntouched
  have hnone : confirmedBy (applyTick p ltp) w = 0 := by
    unfold confirmedBy applyTick
    rw [hside]
    rfl
  have hdb : ∃ es, ((applyTick p ltp).exec w).2.db = (w.db.addExecutions es).savePosition
      (tick (strategyPartialContracts p w.db) side ltp w.clock p).1 := by
    refine ⟨(tick (strategyPartialContracts p w.db) side ltp w.clock p).2.map
      (bookExit p side ltp), ?_⟩
    unfold applyTick
    rw [hside]
    rfl
  obtain ⟨es, hdb⟩ := hdb
  have hremaining := h.remaining
  have hmem : p ∈ (w.db.addExecutions es).positions := h.mem
  rw [hdb, booksFills_savePosition hmem tick_id]
  constructor
  · rintro ⟨hmin, -⟩ hpos side' hside' hhit
    cases hside'
    have hless : (tick _ _ _ w.clock p).1.remainingQuantity < _ := tick_of_hitsLevel hpos hhit
    omega
  · intro hlevel
    by_cases hpos : 0 < p.remainingQuantity
    · rw [tick_of_not_hitsLevel (hlevel hpos side rfl)]
      exact ⟨by simp [observe]; omega, fun hclosed hopen => absurd hclosed hopen⟩
    · rw [tick_of_empty (by omega)]
      exact ⟨by omega, fun _ _ => by omega⟩

end Ticks

section Paths

/-- The ways a live position is closed. -/
inductive ClosePath
  | partly (signal : StrategySignal) (strategy : Strategy)
  | exit (leg : ExitLeg) (signal : StrategySignal) (strategy : Strategy)
  | killSwitch (user : UserId) (broker : CredentialId)
  | tick (ltp : ℚ)

namespace ClosePath

def code (cfg : Settings) (p : StrategyPosition) : ClosePath → Code Unit
  | partly signal strategy => do
    let _ ← executePartial cfg signal strategy
  | exit leg signal strategy => do
    let _ ← executeExit cfg leg signal strategy
  | killSwitch user broker => closePositionViaBroker user broker p
  | tick ltp => do
    let _ ← applyTick p ltp

/-- The position is the one the path closes, and a direct exit is in live mode. -/
def Closes (cfg : Settings) (d : Db) (p : StrategyPosition) : ClosePath → Prop
  | partly signal strategy | exit _ signal strategy =>
    resolvePaperMode cfg (some strategy) = false ∧ ∃ side, payloadSide signal = .ok side
      ∧ getOpenPosition strategy.id signal.symbol side d = some p
  | killSwitch _ _ | tick _ => True

/-- What a path needs to book no more and no less than is confirmed. -/
def Confirms (w : World) (p : StrategyPosition) : ClosePath → Prop
  | partly _ _ | exit _ _ _ => True
  | killSwitch user broker => SquareOffFilled user broker w p
  | tick ltp => NoLevelHit ltp w p

end ClosePath

variable {cfg : Settings} {w : World} {p : StrategyPosition}

theorem confirmedBy_bind_pure {c : Code α} {f : α → β} :
    confirmedBy (c >>= fun a => pure (f a)) w = confirmedBy c w := by
  unfold confirmedBy
  rw [run_bind]
  rcases c.run countFills (w, 0) with ⟨_ | a, v⟩ <;> rfl

/-- A live close takes off what the broker confirms: always on the direct exits, on the kill switch
where its order is filled in full, on a tick where no level is hit. -/
theorem live_close_books_fills_iff (path : ClosePath) (h : LiveRow w p)
    (hcloses : path.Closes cfg w.db p) :
    BooksFills p ((path.code cfg p).exec w).2.db (confirmedBy (path.code cfg p) w)
      ↔ path.Confirms w p := by
  cases path with
  | partly signal strategy =>
    obtain ⟨hlive, side, hside, hp⟩ := hcloses
    refine iff_of_true ?_ trivial
    unfold ClosePath.code
    rw [exec_bind_pure, confirmedBy_bind_pure]
    exact booksFills_of_wp (executePartial_books h hlive hside hp)
  | exit leg signal strategy =>
    obtain ⟨hlive, side, hside, hp⟩ := hcloses
    refine iff_of_true ?_ trivial
    unfold ClosePath.code
    rw [exec_bind_pure, confirmedBy_bind_pure]
    exact booksFills_of_wp (executeExit_books h hlive hside hp)
  | killSwitch user broker => exact closePositionViaBroker_books_iff h user broker
  | tick ltp =>
    unfold ClosePath.code
    rw [exec_bind_pure, confirmedBy_bind_pure]
    exact applyTick_books_iff h ltp

end Paths

/-- The sample position with a stop at 90, and a broker that fills an order as `fill` says. -/
def stoppedPosition : StrategyPosition :=
  { samplePosition 150 none 10 with stopLossPrice := some 90 }

def stoppedWorld (fill : Int → OrderFill) : World :=
  { sampleWorld (.willing fill) with db := { sampleDb with positions := [stoppedPosition] } }

def unfilled (_ : Int) : OrderFill := ⟨.pending, 0, none, true⟩

theorem stoppedWorld_row {fill : Int → OrderFill} (hfill : ∀ qty, 0 ≤ (fill qty).filledQty) :
    LiveRow (stoppedWorld fill) stoppedPosition where
  ids := List.nodup_singleton _
  mem := List.mem_singleton_self _
  below := show 150 < 200 by decide
  remaining := by decide
  confirmed _ c := hfill c.order.quantity

instance (p : StrategyPosition) (d : Db) (n : Int) : Decidable (BooksFills p d n) :=
  inferInstanceAs (Decidable (∀ q ∈ d.positions, _))

/-- An exit for four of which two are filled. -/
theorem live_exit_books_two : ∃ path : ClosePath,
    LiveRow (stoppedWorld fun _ => filled 2) stoppedPosition
      ∧ path.Closes sampleSettings (stoppedWorld fun _ => filled 2).db stoppedPosition
      ∧ confirmedBy (path.code sampleSettings stoppedPosition) (stoppedWorld fun _ => filled 2) = 2
      ∧ BooksFills stoppedPosition ((path.code sampleSettings stoppedPosition).exec
          (stoppedWorld fun _ => filled 2)).2.db
        (confirmedBy (path.code sampleSettings stoppedPosition)
          (stoppedWorld fun _ => filled 2)) := by
  have hcloses : (ClosePath.exit exitLeg (sampleSignal 101 "EXIT") sampleStrategy).Closes
      sampleSettings (stoppedWorld fun _ => filled 2).db stoppedPosition :=
    ⟨rfl, "long", by decide +kernel, by decide +kernel⟩
  have hrow : LiveRow (stoppedWorld fun _ => filled 2) stoppedPosition :=
    stoppedWorld_row fun _ => by decide
  exact ⟨_, hrow, hcloses, by decide +kernel,
    (live_close_books_fills_iff (.exit exitLeg (sampleSignal 101 "EXIT") sampleStrategy) hrow
      hcloses).2 trivial⟩

/-- Four contracts are closed of which none is filled, or without an order. -/
theorem live_close_books_unfilled : LiveRow (stoppedWorld unfilled) stoppedPosition
    ∧ ¬ BooksFills stoppedPosition
      ((ClosePath.code sampleSettings stoppedPosition (.killSwitch 10 7)).exec
        (stoppedWorld unfilled)).2.db
      (confirmedBy (ClosePath.code sampleSettings stoppedPosition (.killSwitch 10 7))
        (stoppedWorld unfilled))
    ∧ ¬ BooksFills stoppedPosition
      ((ClosePath.code sampleSettings stoppedPosition (.tick 80)).exec (stoppedWorld unfilled)).2.db
      (confirmedBy (ClosePath.code sampleSettings stoppedPosition (.tick 80))
        (stoppedWorld unfilled)) :=
  ⟨stoppedWorld_row fun _ => le_rfl, by decide +kernel, by decide +kernel⟩

end TradingBridge
