import TradingBridge.Proofs.WebhookIdempotency

/-!
# Which side and share a mirrored exit closes

The owner's position is looked up by strategy, symbol and side; the subscriber's by strategy and
subscription only. So positions of the other side stay as they are exactly when every position a
mirrored exit finds is of the exit's side. A mirrored partial reads the percentage under one of the
two names the owner's partial accepts, and does not round its share to lots.
-/

namespace TradingBridge

open Effectful Prog List

theorem subscriberIdempotencyKey_inj {sub sub' : SubscriptionId} {token : String}
    (h : subscriberIdempotencyKey sub token = subscriberIdempotencyKey sub' token) :
    sub = sub' := by
  have htext : subscriptionText sub ++ ":" ++ token = subscriptionText sub' ++ ":" ++ token :=
    RedisKey.idem.inj h
  have hlist := congrArg String.toList htext
  simp only [String.toList_append, toList_subscriptionText] at hlist
  have hrepr := append_cancel_left
    (append_cancel_right (append_cancel_right hlist))
  exact repr_injective (String.toList_inj.1 hrepr)

section Rows

variable {d : Db} {p p' : StrategyPosition} {strategyId : StrategyId} {sub : SubscriptionId}

def saved (p' q : StrategyPosition) : StrategyPosition := if q.id = p'.id then p' else q

theorem positions_savePosition : (d.savePosition p').positions = d.positions.map (saved p') := rfl

theorem filter_map_saved {ps : List StrategyPosition} {P : StrategyPosition → Bool}
    (hrow : ∀ q ∈ ps, q.id = p'.id → P q = false) (hp' : P p' = false) :
    (ps.map (saved p')).filter P = ps.filter P := by
  induction ps with
  | nil => rfl
  | cons q ps ih =>
    have ih := ih fun r hr => hrow r (mem_cons_of_mem q hr)
    rw [map_cons]
    by_cases hq : q.id = p'.id
    · have hsaved : saved p' q = p' := if_pos hq
      rw [hsaved, filter_cons_of_neg (by simp [hp']),
        filter_cons_of_neg (by simp [hrow q mem_cons_self hq]), ih]
    · have hsaved : saved p' q = q := if_neg hq
      rw [hsaved, filter_cons, filter_cons, ih]

theorem findOpenOf_savePosition (hids : (d.positions.map (·.id)).Nodup) (hp : p ∈ d.positions)
    (hid : p'.id = p.id) (hscope : p'.subscriptionId = p.subscriptionId)
    (hother : p.subscriptionId ≠ some sub) :
    findOpenOf strategyId sub (d.savePosition p') = findOpenOf strategyId sub d := by
  unfold findOpenOf
  rw [positions_savePosition, filter_map_saved]
  · intro q hq hqid
    rw [inj_on_of_nodup_map hids hq hp (hqid.trans hid)]
    simp [hother]
  · simp [hscope, hother]

end Rows

section Close

variable {signal : StrategySignal} {kind : ActionKind} {p : StrategyPosition} {qty : Int}
  {ts : Nat}

theorem mirrorCloseQty_pos {remaining : Int} (h : 0 < remaining) :
    0 < mirrorCloseQty signal kind remaining := by
  unfold mirrorCloseQty
  split
  · exact lt_of_lt_of_le Int.zero_lt_one (le_max_left _ _)
  · exact h

theorem mirrorClose_remaining {price : ℚ} :
    (mirrorClose p qty price ts).remainingQuantity = p.remainingQuantity - qty := by
  simp only [mirrorClose]
  split_ifs <;> rfl

theorem mirrorClose_ne {price : ℚ} (h : 0 < qty) : mirrorClose p qty price ts ≠ p := by
  intro heq
  have hremaining : (mirrorClose p qty price ts).remainingQuantity = p.remainingQuantity - qty :=
    mirrorClose_remaining
  rw [heq] at hremaining
  omega

end Close

section Round

variable {signal : StrategySignal} {strategy : Strategy} {kind : ActionKind} {price : ℚ}
  {sub : MarketplaceSubscription} {w : World} {p : StrategyPosition}

/-- Its slot is free, the position is found and has something left, the copy is automatic, and the
close can be booked. -/
structure MirrorCloses (signal : StrategySignal) (strategy : Strategy) (w : World)
    (sub : MarketplaceSubscription) (p : StrategyPosition) : Prop where
  slot : w.redis.get w.clock (subscriberIdempotencyKey sub.id s!"{signal.id}") = none
  found : findOpenOf strategy.id sub.id w.db = some p
  remaining : 0 < p.remainingQuantity
  auto : isAuto sub = true
  credential : strategy.brokerCredentialId ≠ none
  price : signal.rawPayload.price ≠ some .text

def exitRound (signal : StrategySignal) (strategy : Strategy) (kind : ActionKind) (price : ℚ)
    (sub : MarketplaceSubscription) : Code PaperExecutionResult :=
  tryCatch (fanOutExitOne signal strategy kind price s!"{signal.id}" sub)
    fun _ => pure ⟨sub.id, .failed, 0, none⟩

theorem exec_tryCatch_pure {α : Type} (c : Code α) (x : α) (w : World) :
    ((tryCatch c fun _ => pure x : Code α).exec w).2 = (c.exec w).2 := by
  unfold Code.exec
  rw [run_tryCatch]
  rcases c.run handle w with ⟨_ | a, w'⟩ <;> rfl

/-- What a round does: it claims its slot, and writes the position it closes and no other row. -/
structure Rounded (signal : StrategySignal) (strategy : Strategy) (kind : ActionKind) (price : ℚ)
    (sub : MarketplaceSubscription) (w w' : World) : Prop where
  clock : w'.clock = w.clock
  redis : w'.redis = (w.redis.setNX w.clock (subscriberIdempotencyKey sub.id s!"{signal.id}") .one
    subscriberIdempotencyTtlSeconds).2
  rows : (∃ p, MirrorCloses signal strategy w sub p ∧ w'.db.positions
      = (w.db.savePosition (mirrorClose p (mirrorCloseQty signal kind p.remainingQuantity) price
        w.clock)).positions)
    ∨ (∀ p, ¬ MirrorCloses signal strategy w sub p) ∧ w'.db.positions = w.db.positions

theorem exitRound_rounded (strategy : Strategy) (kind : ActionKind) (price : ℚ)
    (sub : MarketplaceSubscription) (w : World) (hprice : signal.rawPayload.price ≠ some .text) :
    Rounded signal strategy kind price sub w
      ((exitRound signal strategy kind price sub).exec w).2 := by
  have hsim : ∀ qty, ∃ report, simulateFill signal qty = .ok report := by
    intro qty
    unfold simulateFill
    split
    · exact ⟨_, rfl⟩
    · exact ⟨_, rfl⟩
    · rename_i htext
      exact absurd htext hprice
  unfold exitRound
  rw [exec_tryCatch_pure]
  unfold fanOutExitOne claimSubscriberIdempotency
  rw [exec_readDb, exec_perform]
  have hslot : (handle w (.redisSetNX (subscriberIdempotencyKey sub.id s!"{signal.id}") .one
      subscriberIdempotencyTtlSeconds)).1
      = (w.redis.get w.clock (subscriberIdempotencyKey sub.id s!"{signal.id}")).isNone :=
    Expiring.Store.setNX_fst
  have hdb : (handle w (.redisSetNX (subscriberIdempotencyKey sub.id s!"{signal.id}") .one
      subscriberIdempotencyTtlSeconds)).2.db = w.db := rfl
  rw [hslot]
  cases hget : w.redis.get w.clock (subscriberIdempotencyKey sub.id s!"{signal.id}") with
  | some v =>
    refine ⟨rfl, rfl, .inr ⟨fun p h => ?_, rfl⟩⟩
    rw [h.slot] at hget
    cases hget
  | none =>
    simp only [Option.isNone_none, Bool.not_true, Bool.false_eq_true, if_false, exec_readDb, hdb]
    cases hfound : findOpenOf strategy.id sub.id w.db with
    | none =>
      refine ⟨rfl, rfl, .inr ⟨fun p h => ?_, rfl⟩⟩
      rw [h.found] at hfound
      cases hfound
    | some p =>
      dsimp only
      split_ifs with hremaining hauto
      · refine ⟨rfl, rfl, .inr ⟨fun q h => ?_, rfl⟩⟩
        obtain rfl := Option.some.inj (hfound.symm.trans h.found)
        exact absurd h.remaining (not_lt.2 hremaining)
      · refine ⟨rfl, rfl, .inr ⟨fun q h => ?_, rfl⟩⟩
        simp [h.auto] at hauto
      · obtain ⟨report, hreport⟩ := hsim (mirrorCloseQty signal kind p.remainingQuantity)
        rw [hreport]
        cases hcred : strategy.brokerCredentialId with
        | none => exact ⟨rfl, rfl, .inr ⟨fun q h => h.credential hcred, rfl⟩⟩
        | some credential =>
          have hcloses : MirrorCloses signal strategy w sub p :=
            ⟨hget, hfound, not_le.1 hremaining, by simpa using hauto, by simp [hcred], hprice⟩
          exact ⟨rfl, rfl, .inl ⟨p, hcloses, rfl⟩⟩

end Round

section Loop

variable {signal : StrategySignal} {strategy : Strategy} {kind : ActionKind} {price : ℚ}

/-- The loop changes the positions the subscriptions close, and no ids or subscriptions. -/
structure LoopSpec (signal : StrategySignal) (strategy : Strategy)
    (subs : List MarketplaceSubscription) (w w' : World)
    (g : StrategyPosition → StrategyPosition) : Prop where
  rows : w'.db.positions = w.db.positions.map g
  scope : ∀ q ∈ w.db.positions, (g q).id = q.id ∧ (g q).subscriptionId = q.subscriptionId
  changed : ∀ q ∈ w.db.positions, g q ≠ q ↔ ∃ sub ∈ subs, MirrorCloses signal strategy w sub q

variable {sub sub' : MarketplaceSubscription} {w w' : World}

theorem Rounded.mirrorCloses_iff (h : Rounded signal strategy kind price sub w w')
    (hids : (w.db.positions.map (·.id)).Nodup) (hsub : sub'.id ≠ sub.id) (p : StrategyPosition) :
    MirrorCloses signal strategy w' sub' p ↔ MirrorCloses signal strategy w sub' p := by
  have hslot : w'.redis.get w'.clock (subscriberIdempotencyKey sub'.id s!"{signal.id}")
      = w.redis.get w.clock (subscriberIdempotencyKey sub'.id s!"{signal.id}") := by
    rw [h.clock, h.redis]
    exact Expiring.Store.get_setNX_of_ne (fun h => hsub (subscriberIdempotencyKey_inj h)) _
  have hfound : findOpenOf strategy.id sub'.id w'.db = findOpenOf strategy.id sub'.id w.db := by
    rcases h.rows with ⟨q, hq, hrows⟩ | ⟨-, hrows⟩
    · obtain ⟨hmem, hscope, -⟩ := findOpenOf_spec hq.found
      rw [← findOpenOf_savePosition hids hmem mirrorClose_scope.1 mirrorClose_scope.2.1
        (by rw [hscope]; exact fun h => hsub (Option.some.inj h).symm)]
      unfold findOpenOf
      rw [hrows]
    · unfold findOpenOf
      rw [hrows]
  constructor
  · rintro ⟨h₁, h₂, h₃, h₄, h₅, h₆⟩
    exact ⟨hslot ▸ h₁, hfound ▸ h₂, h₃, h₄, h₅, h₆⟩
  · rintro ⟨h₁, h₂, h₃, h₄, h₅, h₆⟩
    exact ⟨hslot.trans h₁, hfound.trans h₂, h₃, h₄, h₅, h₆⟩

theorem Rounded.spec (h : Rounded signal strategy kind price sub w w')
    (hids : (w.db.positions.map (·.id)).Nodup) : ∃ g, LoopSpec signal strategy [sub] w w' g := by
  rcases h.rows with ⟨p, hp, hrows⟩ | ⟨hnone, hrows⟩
  · have hmem := (findOpenOf_spec hp.found).1
    set p' := mirrorClose p (mirrorCloseQty signal kind p.remainingQuantity) price w.clock
    have hkeep : p'.id = p.id ∧ p'.subscriptionId = p.subscriptionId ∧ p'.side = p.side :=
      mirrorClose_scope
    have hsame : ∀ q ∈ w.db.positions, q.id = p'.id → q = p := fun q hq hid =>
      inj_on_of_nodup_map hids hq hmem (hid.trans hkeep.1)
    refine ⟨saved p', hrows, fun q hq => ?_, fun q hq => ?_⟩
    · unfold saved
      split_ifs with hid
      · rw [hsame q hq hid]
        exact ⟨hkeep.1, hkeep.2.1⟩
      · exact ⟨rfl, rfl⟩
    · simp only [mem_singleton, exists_eq_left, saved]
      split_ifs with hid
      · rw [hsame q hq hid]
        exact iff_of_true (mirrorClose_ne (mirrorCloseQty_pos hp.remaining)) hp
      · refine iff_of_false (fun h => h rfl) fun hq => hid ?_
        rw [Option.some.inj (hq.found.symm.trans hp.found), hkeep.1]
  · exact ⟨id, by simpa using hrows, fun q _ => ⟨rfl, rfl⟩, fun q _ => by simp [hnone]⟩

theorem LoopSpec.cons {subs : List MarketplaceSubscription} {w₁ w₂ : World}
    {g g' : StrategyPosition → StrategyPosition} (h : LoopSpec signal strategy [sub] w w₁ g)
    (h' : LoopSpec signal strategy subs w₁ w₂ g') (hsub : ∀ sub' ∈ subs, sub'.id ≠ sub.id)
    (hiff : ∀ sub' ∈ subs, ∀ p, MirrorCloses signal strategy w₁ sub' p
      ↔ MirrorCloses signal strategy w sub' p) :
    LoopSpec signal strategy (sub :: subs) w w₂ (g' ∘ g) := by
  have hmem : ∀ q ∈ w.db.positions, g q ∈ w₁.db.positions := fun q hq =>
    h.rows ▸ mem_map_of_mem hq
  refine ⟨by rw [h'.rows, h.rows, map_map], fun q hq => ?_, fun q hq => ?_⟩
  · obtain ⟨hid, hscope⟩ := h.scope q hq
    obtain ⟨hid', hscope'⟩ := h'.scope (g q) (hmem q hq)
    exact ⟨hid'.trans hid, hscope'.trans hscope⟩
  · have hfirst := h.changed q hq
    have hrest := h'.changed (g q) (hmem q hq)
    rw [exists_mem_cons_iff, Function.comp_apply]
    simp only [mem_singleton, exists_eq_left] at hfirst
    by_cases hcloses : MirrorCloses signal strategy w sub q
    · -- a row of `sub` is out of reach for the rest
      have hlater : g' (g q) = g q := by
        by_contra hne
        obtain ⟨s, hs, hlater⟩ := hrest.1 hne
        have hscope := (findOpenOf_spec hlater.found).2.1
        rw [(h.scope q hq).2, (findOpenOf_spec hcloses.found).2.1] at hscope
        exact hsub s hs (Option.some.inj hscope).symm
      rw [hlater]
      exact iff_of_true (hfirst.2 hcloses) (.inl hcloses)
    · have hsame : g q = q := not_not.1 fun hne => hcloses (hfirst.1 hne)
      rw [hsame] at hrest ⊢
      rw [hrest, or_iff_right hcloses]
      exact exists_congr fun s => and_congr_right fun hs => hiff s hs q

theorem exec_mapEach_cons {α β : Type} {f : α → Code β} {a : α} (as : List α) (h : (f a).Total)
    (w : World) :
    (Code.exec (mapEach f (a :: as)) w).2 = (Code.exec (mapEach f as) ((f a).exec w).2).2 := by
  obtain ⟨b, hrun⟩ := exec_total h w
  change ((f a >>= fun b => mapEach f as >>= fun bs => pure (b :: bs)).exec w).2 = _
  rw [exec_bind_ok hrun, exec_bind_pure]

theorem exitRounds_spec (hprice : signal.rawPayload.price ≠ some .text) :
    ∀ {subs : List MarketplaceSubscription} {w : World}, (subs.map (·.id)).Nodup →
      (w.db.positions.map (·.id)).Nodup →
      ∃ g, LoopSpec signal strategy subs w
        (Code.exec (mapEach (exitRound signal strategy kind price) subs) w).2 g
  | [], w, _, _ => ⟨id, by simp; rfl, fun _ _ => ⟨rfl, rfl⟩, by simp⟩
  | sub :: subs, w, hsubs, hids => by
    rw [map_cons, nodup_cons] at hsubs
    have hsub : ∀ sub' ∈ subs, sub'.id ≠ sub.id := fun sub' hs heq =>
      hsubs.1 (heq ▸ mem_map_of_mem hs)
    have hround := exitRound_rounded strategy kind price sub w hprice
    obtain ⟨g, hg⟩ := hround.spec hids
    have hids' : (((exitRound signal strategy kind price sub).exec w).2.db.positions.map
        (·.id)).Nodup := by
      rw [hg.rows, map_map]
      have hsame : w.db.positions.map ((·.id) ∘ g) = w.db.positions.map (·.id) :=
        map_congr_left fun q hq => (hg.scope q hq).1
      rwa [hsame]
    obtain ⟨g', hg'⟩ := exitRounds_spec hprice hsubs.2 hids'
    refine ⟨g' ∘ g, ?_⟩
    rw [exec_mapEach_cons subs (total_tryCatch _ fun _ => total_pure _)]
    exact hg.cons hg' hsub fun sub' hs p => hround.mirrorCloses_iff hids (hsub sub' hs) p

end Loop

def exitSide (signal : StrategySignal) : String :=
  let side := (signal.rawPayload.side.getD "").toLower
  if side = "long" ∨ side = "buy" then "buy" else "sell"

/-- A mirrored exit leaves the other side alone exactly when each position it closes is of its own
side. -/
theorem fan_out_exit_side_iff {signal : StrategySignal} {strategy : Strategy}
    {subs : List MarketplaceSubscription} {kind : ActionKind} {w : World}
    (hsubs : (subs.map (·.id)).Nodup) (hids : (w.db.positions.map (·.id)).Nodup) :
    List.Forall₂ (fun p p' => p.side ≠ exitSide signal → p' = p) w.db.positions
      ((fanOutExit signal strategy subs kind).exec w).2.db.positions
    ↔ ∀ sub ∈ subs, ∀ p, MirrorCloses signal strategy w sub p → p.side = exitSide signal := by
  unfold fanOutExit
  split
  · rename_i htext
    refine iff_of_true ?_ fun sub _ p h => absurd htext h.price
    exact forall₂_same.2 fun p _ _ => rfl
  · rename_i price htext
    obtain ⟨g, hg⟩ := exitRounds_spec htext hsubs hids
    change List.Forall₂ _ _
      (Code.exec (mapEach (exitRound signal strategy kind _) subs) w).2.db.positions ↔ _
    rw [hg.rows, forall₂_map_right_iff, forall₂_same]
    constructor
    · intro hkept sub hsub p hp
      have hmem := (findOpenOf_spec hp.found).1
      by_contra hside
      exact (hg.changed p hmem).2 ⟨sub, hsub, hp⟩ (hkept p hmem hside)
    · intro hcloses q hq hside
      by_contra hne
      obtain ⟨sub, hsub, hq'⟩ := (hg.changed q hq).1 hne
      exact hside (hcloses sub hsub q hq')

/-- A subscriber who copies the sample strategy automatically, two contracts at a time. -/
def sampleCopy : MarketplaceSubscription :=
  ⟨1, 1, 20, true, some 2, "auto", true, "both", none⟩

def copiedWorld : World :=
  { sampleWorld (.willing filled) with db := { sampleDb with
    subscriptions := [sampleCopy], signals := [] } }

def sidedRequest (action side : String) : SignalRequest :=
  ⟨5, action ++ side, some (some { sampleBody action with side := some side }), true⟩

/-- The owner goes long, then short as well, and asks for the short to be closed. -/
def overlappingTrades : List Turn :=
  [.run (.webhook (sidedRequest "ENTRY" "long")), .run (.worker ⟨200, .entry⟩),
    .run (.webhook (sidedRequest "ENTRY" "short")), .run (.worker ⟨203, .entry⟩),
    .run (.webhook (sidedRequest "EXIT" "short"))]

/-- The exit of the short closes the subscriber's long copy. -/
theorem short_exit_closes_long_copy : ∃ w w',
    Run (Turn.take sampleSettings id) (fun _ _ => True) copiedWorld overlappingTrades w
    ∧ Turn.take sampleSettings id w (.run (.worker ⟨205, .exit⟩)) = some w'
    ∧ (w.db.signal 205).map exitSide = some "sell"
    ∧ ((w.db.position 201).map fun p => (p.subscriptionId, p.side, p.remainingQuantity))
      = some (some 1, "buy", 2)
    ∧ ((w'.db.position 201).map fun p => (p.subscriptionId, p.side, p.remainingQuantity))
      = some (some 1, "buy", 0) := by
  simp only [exists_and_left]
  decide +kernel

def longCopyWorld : World :=
  { copiedWorld with db := { copiedWorld.db with positions := [samplePosition 1 (some 1) 20] } }

/-- An exit of the long closes the copy and nothing of the other side. -/
theorem long_exit_closes_long_copy :
    List.Forall₂ (fun p p' => p.side ≠ exitSide (sampleSignal 101 "EXIT") → p' = p)
      longCopyWorld.db.positions
      ((fanOutExit (sampleSignal 101 "EXIT") sampleStrategy [sampleCopy] .exit).exec
        longCopyWorld).2.db.positions := by
  have hsubs : ([sampleCopy].map (·.id)).Nodup := by decide
  have hids : (longCopyWorld.db.positions.map (·.id)).Nodup := by decide
  refine (fan_out_exit_side_iff hsubs hids).2 fun sub hsub p h => ?_
  obtain rfl := mem_singleton.1 hsub
  have hfound : findOpenOf sampleStrategy.id sampleCopy.id longCopyWorld.db
      = some (samplePosition 1 (some 1) 20) := by decide +kernel
  obtain rfl := Option.some.inj (hfound.symm.trans h.found)
  decide +kernel

section Shares

/-- The percentage `fan_out_exit` reads off the payload. -/
def mirrorPct (signal : StrategySignal) : ℚ :=
  (signal.rawPayload.closePct.filter (· ≠ 0)).getD 50

variable {signal : StrategySignal} {pct x : ℚ} {r lot : ℤ}

theorem mirrorPct_eq_iff (h : payloadClosePct signal = .ok pct) :
    mirrorPct signal = pct ↔ signal.rawPayload.closePct = some pct ∨ pct = 50 := by
  obtain ⟨hread, hpos, -⟩ := payloadClosePct_eq_ok.1 h
  unfold mirrorPct
  rcases hgiven : signal.rawPayload.closePct with _ | q
  · simp [eq_comm]
  · rw [hgiven, Option.filter_some] at hread
    rw [Option.filter_some]
    by_cases hq : q = 0
    · simp [hq, hpos.ne', eq_comm]
    · simp only [hq, ne_eq] at hread ⊢
      simp [Option.some.inj hread]

theorem dvd_max_one_floor_iff (hlot : 0 < lot) : lot ∣ max 1 x.floor ↔
    lot = 1 ∨ ∃ n : ℤ, 1 ≤ n ∧ (n * lot : ℚ) ≤ x ∧ x < n * lot + 1 := by
  have hfloor : ∀ n : ℤ, x.floor = n * lot ↔ (n * lot : ℚ) ≤ x ∧ x < n * lot + 1 := by
    intro n
    have h := Int.floor_eq_iff (a := x) (z := n * lot)
    push_cast at h
    exact h
  constructor
  · intro hdvd
    rcases le_or_gt 1 x.floor with hx | hx
    · rw [max_eq_right hx] at hdvd
      obtain ⟨n, hn⟩ := hdvd
      have hmul : x.floor = n * lot := hn.trans (mul_comm _ _)
      refine .inr ⟨n, ?_, (hfloor n).1 hmul⟩
      by_contra hlt
      nlinarith
    · rw [max_eq_left hx.le] at hdvd
      exact .inl (Int.eq_one_of_dvd_one hlot.le hdvd)
  · rintro (rfl | ⟨n, hn, hx⟩)
    · exact one_dvd _
    · rw [(hfloor n).2 hx, max_eq_right (by nlinarith)]
      exact dvd_mul_left lot n

theorem mirrorCloseQty_partly (hr : 0 < r) (h : mirrorPct signal ≤ 99) :
    mirrorCloseQty signal .partly r = max 1 ((r : ℚ) * mirrorPct signal / 100).floor := by
  have hq : (0 : ℚ) < r := by exact_mod_cast hr
  have hle : ((r : ℚ) * mirrorPct signal / 100).floor ≤ r := by
    have hle : (r : ℚ) * mirrorPct signal / 100 ≤ r := by nlinarith
    exact_mod_cast (Rat.floor_le _).trans hle
  change max 1 (min ((r : ℚ) * mirrorPct signal / 100).floor r) = _
  rw [min_eq_left hle]

/-- Where the owner's partial applies a percentage, the mirror applies the same one and leaves
whole lots exactly when it is spelled `closePct` or is the default, and its share of the
subscriber's remainder is whole lots but for less than a unit. -/
theorem partial_mirrored_iff {p : StrategyPosition} (price : ℚ) (ts : ℕ) (hlot : 0 < lot)
    (hopen : 0 < p.remainingQuantity) (hwhole : lot ∣ p.remainingQuantity) :
    (∀ pct, payloadClosePct signal = .ok pct → mirrorPct signal = pct
      ∧ lot ∣ (mirrorClose p (mirrorCloseQty signal .partly p.remainingQuantity) price
        ts).remainingQuantity)
    ↔ ∀ pct, payloadClosePct signal = .ok pct →
      (signal.rawPayload.closePct = some pct ∨ pct = 50)
        ∧ (lot = 1 ∨ ∃ n : ℤ, 1 ≤ n ∧ (n * lot : ℚ) ≤ p.remainingQuantity * pct / 100
          ∧ p.remainingQuantity * pct / 100 < n * lot + 1) := by
  refine forall₂_congr fun pct h => ?_
  rw [← mirrorPct_eq_iff h]
  refine and_congr_right fun hpct => ?_
  rw [mirrorClose_remaining, mirrorCloseQty_partly hopen (hpct ▸ (payloadClosePct_eq_ok.1 h).2.2),
    hpct, dvd_sub_right hwhole, dvd_max_one_floor_iff hlot]

def partialSignal (closePct close_pct : Option ℚ) : StrategySignal :=
  { sampleSignal 101 "PARTIAL" with rawPayload :=
    { (sampleSignal 101 "PARTIAL").rawPayload with closePct, close_pct } }

/-- A quarter of two lots of 75 asked for: under the other name the mirror closes half, and under
its own name it leaves 113. -/
theorem quarter_mirrored_as_half :
    payloadClosePct (partialSignal none (some 25)) = .ok 25
      ∧ mirrorPct (partialSignal none (some 25)) = 50
      ∧ mirrorCloseQty (partialSignal none (some 25)) .partly 150 = 75
      ∧ payloadClosePct (partialSignal (some 25) none) = .ok 25
      ∧ 150 - mirrorCloseQty (partialSignal (some 25) none) .partly 150 = 113
      ∧ qtyFromOpenPct 150 25 75 = 0 := by
  decide +kernel

/-- Half of two lots leaves one. -/
theorem half_mirrored : mirrorPct (partialSignal (some 50) none) = 50
    ∧ (75 : ℤ) ∣ (mirrorClose { samplePosition 1 (some 1) 20 with remainingQuantity := 150 }
      (mirrorCloseQty (partialSignal (some 50) none) .partly 150) 100 0).remainingQuantity := by
  refine (partial_mirrored_iff
    100 0 (by decide) (by decide) (by decide)).2 ?_ 50 (by decide +kernel)
  intro pct hpct
  obtain rfl : 50 = pct := Except.ok.inj hpct
  exact ⟨.inl rfl, .inr ⟨1, le_rfl, by norm_num, by norm_num⟩⟩

end Shares

end TradingBridge
