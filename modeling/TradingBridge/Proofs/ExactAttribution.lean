import TradingBridge.Proofs.BotOnly

/-!
# A priced trip is exact

Both ways of pricing a trip collect exits until what was entered is closed. The quantities of the
exits add up to the entry's by the walk, so the assertion on them always holds; and as entries and
exits lie on opposite sides, the gross is what the fills of both brought in.
-/

namespace TradingBridge

variable {entryIds botIds : List String} {fills : List AccountFill}

section Signs

variable {side : OrderSide}

theorem signedQty_of_increases {f : AccountFill} (h : 0 < f.signedQty * signOf side) :
    f.signedQty = signOf side * f.qty := by
  rw [increases_iff] at h
  subst h
  cases hf : f.side <;> simp [AccountFill.signedQty, signOf, hf]

/-- What a list of fills cost: bought counts up, sold counts down. -/
def signedTurnover (fills : List AccountFill) : ℚ :=
  (fills.map fun f => (f.signedQty : ℚ) * f.price).sum

theorem signedTurnover_append (l l' : List AccountFill) :
    signedTurnover (l ++ l') = signedTurnover l + signedTurnover l' := by
  simp [signedTurnover]

theorem signedTurnover_of_sided {s : ℤ} {l : List AccountFill}
    (h : ∀ f ∈ l, f.signedQty = s * f.qty) : signedTurnover l = s * turnover l := by
  induction l with
  | nil => simp [signedTurnover, turnover]
  | cons f l ih =>
    have hf := h f List.mem_cons_self
    have hl := ih fun g hg => h g (List.mem_cons_of_mem f hg)
    simp only [signedTurnover, turnover, List.map_cons, List.sum_cons] at hl ⊢
    rw [hl, hf]
    push_cast
    ring

theorem grossOf_eq {entries exits : List AccountFill}
    (hentries : ∀ f ∈ entries, f.signedQty = signOf side * f.qty)
    (hexits : ∀ f ∈ exits, f.signedQty = -(signOf side * f.qty)) :
    grossOf (signOf side) entries exits = -signedTurnover (entries ++ exits) := by
  have hexits' : ∀ f ∈ exits, f.signedQty = -signOf side * f.qty := fun f hf => by
    rw [hexits f hf, Int.neg_mul]
  rw [signedTurnover_append, signedTurnover_of_sided hentries, signedTurnover_of_sided hexits',
    grossOf]
  cases side
  · simp only [signOf]
    push_cast
    ring
  · simp only [signOf]
    push_cast
    ring

end Signs

variable {entries span after : List AccountFill} {side : OrderSide}

theorem walkToFlat_exact {entryQty : Int} {after exits : List AccountFill}
    (h : walkToFlat (signOf side) (signOf side * entryQty) after = (exits, none)) :
    (exits.map (·.qty)).sum = entryQty := (ExactFit.take_eq_some (walkToFlat_eq_none_iff.1 h)).2.2

/-- What was entered was closed, and the gross is what its fills brought in. -/
structure Attribution.Exact (a : Attribution) : Prop where
  qty : (a.exitFills.map (·.qty)).sum = (a.entryFills.map (·.qty)).sum
  gross : a.grossPnl = some (-signedTurnover (a.entryFills ++ a.exitFills))

theorem attributeTrip_exact (h : (attributeTrip entryIds fills botIds).tag = .botOnly) :
    (attributeTrip entryIds fills botIds).Exact := by
  have hof := (attributeTrip_botOnly h).1
  generalize attributeTrip entryIds fills botIds = a at h hof
  cases hof with
  | refused => cases h
  | unidentified => cases h
  | closed _ hqty hentries hexits =>
    exact ⟨hqty, congrArg some (grossOf_eq
      (fun f hf => signedQty_of_increases (increases_iff.2 (hentries f hf)))
      fun f hf => signedQty_of_side_ne (hexits f hf).1)⟩

variable {entry : AccountFill}

theorem attributeFlatAsserted_eq :
    attributeFlatAsserted entries entry span after botIds =
      some (attributeFlat entries entry span after botIds) := by
  unfold attributeFlatAsserted attributeFlat
  dsimp only
  split_ifs with hside hnet
  · rfl
  · rfl
  · rw [not_not] at hnet
    split
    · rfl
    · rename_i exits hwalk
      rw [hnet] at hwalk
      rw [if_pos (walkToFlat_exact hwalk)]

/-- The assertion never fails, and a priced trip closed exactly what it entered, with fills of the
bot's. -/
theorem priced_attribution_exact (entryIds : List String) (fills : List AccountFill)
    (botIds : List String) :
    attributeTripAsserted entryIds fills botIds = some (attributeTrip entryIds fills botIds) ∧
    ∀ gross, (attributeTrip entryIds fills botIds).tag = .botOnly →
      (attributeTrip entryIds fills botIds).grossPnl = some gross →
      ((attributeTrip entryIds fills botIds).exitFills.map (·.qty)).sum =
          ((attributeTrip entryIds fills botIds).entryFills.map (·.qty)).sum ∧
        gross = -signedTurnover ((attributeTrip entryIds fills botIds).entryFills ++
          (attributeTrip entryIds fills botIds).exitFills) ∧
        (∀ f ∈ (attributeTrip entryIds fills botIds).entryFills, f.orderId ∈ entryIds) ∧
        ∀ f ∈ (attributeTrip entryIds fills botIds).exitFills, f.orderId ∈ botIds := by
  constructor
  · unfold attributeTripAsserted attributeTrip
    dsimp only
    split
    · rfl
    · split_ifs
      · rfl
      · rfl
      · exact attributeFlatAsserted_eq
  · intro gross htag hgross
    have hexact := attributeTrip_exact htag
    obtain ⟨hof, hbot⟩ := attributeTrip_botOnly htag
    refine ⟨hexact.qty, ?_, fun f hf => ?_, hbot⟩
    · rw [hexact.gross] at hgross
      exact (Option.some.inj hgross).symm
    · rw [hof.used.1] at hf
      exact of_decide_eq_true (List.mem_filter.1 hf).2

/-- An entry at 100, closed in two parts at 110. -/
def soldAt110 : List AccountFill :=
  [sampleFill "entry" .buy 200 1 (some "API") two_hundred_pos,
    { sampleFill "exit" .sell 50 2 (some "API") fifty_pos with price := 110 },
    { sampleFill "exit" .sell 150 3 (some "API") (by decide) with price := 110 }]

theorem soldAt110_exact :
    ((attributeTrip ["entry"] soldAt110 ["entry", "exit"]).exitFills.map (·.qty)).sum =
        ((attributeTrip ["entry"] soldAt110 ["entry", "exit"]).entryFills.map (·.qty)).sum ∧
      2000 = -signedTurnover ((attributeTrip ["entry"] soldAt110 ["entry", "exit"]).entryFills ++
        (attributeTrip ["entry"] soldAt110 ["entry", "exit"]).exitFills) ∧
      (∀ f ∈ (attributeTrip ["entry"] soldAt110 ["entry", "exit"]).entryFills,
        f.orderId ∈ ["entry"]) ∧
      ∀ f ∈ (attributeTrip ["entry"] soldAt110 ["entry", "exit"]).exitFills,
        f.orderId ∈ ["entry", "exit"] :=
  (priced_attribution_exact ["entry"] soldAt110 ["entry", "exit"]).2 2000 (by decide +kernel)
    (by decide +kernel)

end TradingBridge
