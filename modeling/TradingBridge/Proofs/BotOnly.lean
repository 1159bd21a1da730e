import TradingBridge.Attribution
import TradingBridge.Lib.ExactFit

/-!
# What `bot_only` says of the fills

Both ways of pricing a trip take their exits from the fills right after the last entry and refuse
any that is not the bot's. Neither looks at the fills between two entry fills, beyond what they add
up to. So between the first entry and the last exit every fill is the bot's exactly when every fill
between the entries is.
-/

namespace TradingBridge

open List

variable {entryIds botIds : List String} {fills book : List AccountFill}

def entryBook (entryIds : List String) (fills : List AccountFill) : List AccountFill :=
  match (sortFills fills).filter (isEntry entryIds) with
  | [] => []
  | entry :: _ => (sortFills fills).filter (·.contract = entry.contract)

def OwnFill (entryIds botIds : List String) (f : AccountFill) : Prop :=
  f.orderId ∈ entryIds ∨ f.orderId ∈ botIds

instance (entryIds botIds : List String) (f : AccountFill) :
    Decidable (OwnFill entryIds botIds f) := inferInstanceAs (Decidable (_ ∨ _))

theorem entry_cut (entryIds : List String) (book : List AccountFill) :
    book = beforeEntry entryIds book ++ (entrySpan entryIds book ++ afterEntry entryIds book) := by
  unfold beforeEntry entrySpan afterEntry
  rw [rdropWhile_append_rtakeWhile, takeWhile_append_dropWhile]

section Exits

variable {side : OrderSide}

variable {after exits : List AccountFill} {entry : AccountFill} {f : AccountFill}

theorem increases_iff : 0 < f.signedQty * signOf side ↔ f.side = side := by
  have hpos := f.qty_pos
  cases side <;> cases hf : f.side <;> simp [AccountFill.signedQty, signOf, hf] <;> omega

theorem signedQty_of_side_ne (h : f.side ≠ side) :
    f.signedQty = -(signOf side * f.qty) := by
  cases side <;> cases hf : f.side <;> simp_all [AccountFill.signedQty, signOf]

/-- The self-closing exits are the bot's fills on the other side that close what was left. -/
theorem selfClosing_eq {side : OrderSide} {entryQty : Int} :
    ∀ (got : Int) (after : List AccountFill),
    botSelfClosingExits botIds (signOf side) entryQty got after =
      ExactFit.take (fun f => f.side ≠ side && f.orderId ∈ botIds) (·.qty) (entryQty - got) after
  | got, [] => rfl
  | got, f :: fs => by
    have hclose : f.qty = entryQty - got ↔ got + f.qty = entryQty := by omega
    have hlarge : entryQty - got < f.qty ↔ entryQty < got + f.qty := by omega
    simp only [botSelfClosingExits, ExactFit.take, selfClosing_eq (got + f.qty) fs, increases_iff,
      hclose, hlarge, Int.sub_sub]
    by_cases hside : f.side = side <;> by_cases hbot : f.orderId ∈ botIds <;> simp [hside]

theorem walkToFlat_eq_none_iff {side : OrderSide} : ∀ {r : Int} {after exits : List AccountFill},
    walkToFlat (signOf side) (signOf side * r) after = (exits, none) ↔
      ExactFit.take (·.side ≠ side) (·.qty) r after = some exits
  | r, [], exits => by simp [walkToFlat, ExactFit.take]
  | r, f :: fs, exits => by
    simp only [walkToFlat, ExactFit.take, increases_iff]
    by_cases hside : f.side = side
    · simp [hside]
    have hafter : signOf side * r + f.signedQty = signOf side * (r - f.qty) := by
      rw [signedQty_of_side_ne hside, Int.mul_sub]
      omega
    have hleft : signOf side * (r - f.qty) * signOf side = r - f.qty := by
      cases side <;> simp [signOf]
    have hflat : signOf side * (r - f.qty) = 0 ↔ f.qty = r := by
      cases side <;> simp [signOf] <;> omega
    rw [hafter]
    simp only [hside, ne_eq, not_false_eq_true, decide_true, Bool.true_eq_false, if_false]
    rcases lt_trichotomy f.qty r with hfit | hclose | hlarge
    · rw [if_neg (by omega), if_neg (by omega), if_neg (by omega), if_neg (by omega),
      Option.map_eq_some_iff]
      simp only [← walkToFlat_eq_none_iff, Prod.ext_iff]
      constructor
      · rintro ⟨hexits, hnone⟩
        exact ⟨_, ⟨rfl, hnone⟩, hexits⟩
      · rintro ⟨rest, ⟨rfl, hnone⟩, hexits⟩
        exact ⟨hexits, hnone⟩
    · simp [hclose]
    · rw [if_pos (by omega), if_neg (by omega), if_pos hlarge]
      simp

theorem selfClosing_spec {entryQty got : Int}
    (h : botSelfClosingExits botIds (signOf side) entryQty got after = some exits) :
    exits <+: after ∧ (∀ f ∈ exits, f.side ≠ side ∧ f.orderId ∈ botIds) ∧
      got + (exits.map (·.qty)).sum = entryQty := by
  rw [selfClosing_eq] at h
  obtain ⟨hpre, hall, hsum⟩ := ExactFit.take_eq_some h
  exact ⟨hpre, fun f hf => by simpa using hall f hf, by omega⟩

/-- What the rule makes of a trip's entries and the fills after them: it refuses the trip, or it
finds the exits that closed it. -/
inductive Attribution.Of (botIds : List String) (entries after : List AccountFill)
    (flat : Prop) : Attribution → Prop
  | refused {exits : List AccountFill} {reason : AttributionReason} (hpre : exits <+: after) :
    Of botIds entries after flat ⟨.humanInterfered, entries, exits, none, reason⟩
  | unidentified {exits : List AccountFill} {reason : AttributionReason} (hflat : flat)
    (hpre : exits <+: after) (hqty : (exits.map (·.qty)).sum = (entries.map (·.qty)).sum) :
    Of botIds entries after flat ⟨.unidentifiedFill, entries, exits, none, reason⟩
  | closed {side : OrderSide} {exits : List AccountFill} {reason : AttributionReason}
    (hpre : exits <+: after) (hqty : (exits.map (·.qty)).sum = (entries.map (·.qty)).sum)
    (hentries : ∀ f ∈ entries, f.side = side)
    (hexits : ∀ f ∈ exits, f.side ≠ side ∧ f.orderId ∈ botIds) :
    Of botIds entries after flat
      ⟨.botOnly, entries, exits, some (grossOf (signOf side) entries exits), reason⟩

theorem Attribution.Of.used {a : Attribution} {entries : List AccountFill} {flat : Prop}
    (h : a.Of botIds entries after flat) : a.entryFills = entries ∧ a.exitFills <+: after := by
  cases h with
  | refused hpre => exact ⟨rfl, hpre⟩
  | unidentified _ hpre _ => exact ⟨rfl, hpre⟩
  | closed hpre _ _ _ => exact ⟨rfl, hpre⟩

theorem mem_botIds_of_provenance (hunknown : f.provenance botIds ≠ .unknown)
    (hmanual : f.provenance botIds ≠ .manual) : f.orderId ∈ botIds := by
  by_contra hforeign
  unfold AccountFill.provenance at hmanual hunknown
  split_ifs at hmanual hunknown <;> simp_all

theorem walkToFlat_exits (sign : Int) : ∀ (before : Int) (after : List AccountFill),
    (walkToFlat sign before after).1 <+: after
  | before, [] => prefix_rfl
  | before, f :: fs => by
    simp only [walkToFlat]
    split_ifs
    · exact nil_prefix
    · exact nil_prefix
    · exact ⟨fs, rfl⟩
    · exact (prefix_cons_inj f).2 (walkToFlat_exits sign _ fs)

theorem attributeOverLots_of {entries prior : List AccountFill} {flat : Prop} :
    (attributeOverLots entries entry prior after botIds).Of botIds entries after flat := by
  unfold attributeOverLots
  dsimp only
  split_ifs with hside
  · split
    · rename_i hclose
      obtain ⟨hpre, hexits, hqty⟩ := selfClosing_spec hclose
      exact .closed hpre (by simpa using hqty) (by simpa [increases_iff] using hside) hexits
    · exact .refused nil_prefix
  · exact .refused nil_prefix

theorem attributeFlat_of {entries span : List AccountFill} {flat : Prop} (hflat : flat) :
    (attributeFlat entries entry span after botIds).Of botIds entries after flat := by
  have hpre := walkToFlat_exits (signOf entry.side) (net span) after
  unfold attributeFlat
  dsimp only
  split_ifs with hside hnet
  · exact .refused nil_prefix
  · exact .refused nil_prefix
  split
  · rename_i hwalk
    rw [hwalk] at hpre
    exact .refused hpre
  · rename_i exits hwalk
    rw [not_not.1 hnet] at hwalk
    obtain ⟨hpre, hexits, hqty⟩ := ExactFit.take_eq_some (walkToFlat_eq_none_iff.1 hwalk)
    unfold attributeWalk
    dsimp only
    split_ifs with hunknown hmanual
    · exact .unidentified hflat hpre hqty
    · exact .refused hpre
    · refine .closed hpre hqty (by simpa [← increases_iff] using hside) fun f hf =>
        ⟨by simpa using hexits f hf, mem_botIds_of_provenance ?_ ?_⟩
      · simpa using filter_eq_nil_iff.1 (not_not.1 hunknown) f hf
      · simpa using filter_eq_nil_iff.1 (not_not.1 hmanual) f hf

variable (entryIds botIds fills) in
/-- A trip without an entry, or with entries on several contracts, has no fills; any other is
decided on its contract's book. -/
theorem attributeTrip_of : (∃ tag reason, tag ∈ [.unpriceable, .humanInterfered]
      ∧ attributeTrip entryIds fills botIds = ⟨tag, [], [], none, reason⟩)
    ∨ ∃ c : String, (∀ f ∈ (sortFills fills).filter (isEntry entryIds), f.contract = c)
      ∧ entryBook entryIds fills = (sortFills fills).filter (·.contract = c)
      ∧ (attributeTrip entryIds fills botIds).Of botIds
        ((sortFills fills).filter (isEntry entryIds))
        (afterEntry entryIds (entryBook entryIds fills))
        (net (beforeEntry entryIds (entryBook entryIds fills)) = 0) := by
  unfold attributeTrip entryBook
  cases hentries : (sortFills fills).filter (isEntry entryIds) with
  | nil => exact .inl ⟨.unpriceable, .noEntryFill, by simp, by simp [hentries]⟩
  | cons entry rest =>
    simp only [hentries]
    split_ifs with hspan hprior
    · exact .inl ⟨.humanInterfered, .entrySpansContracts, by simp, rfl⟩
    · exact .inr ⟨entry.contract, by simpa using hspan, rfl, attributeOverLots_of⟩
    · exact .inr ⟨entry.contract, by simpa using hspan, rfl, attributeFlat_of (not_not.1 hprior)⟩

theorem attributeTrip_botOnly (h : (attributeTrip entryIds fills botIds).tag = .botOnly) :
    (attributeTrip entryIds fills botIds).Of botIds
        ((sortFills fills).filter (isEntry entryIds))
        (afterEntry entryIds (entryBook entryIds fills))
        (net (beforeEntry entryIds (entryBook entryIds fills)) = 0)
      ∧ ∀ f ∈ (attributeTrip entryIds fills botIds).exitFills, f.orderId ∈ botIds := by
  rcases attributeTrip_of entryIds botIds fills with ⟨tag, reason, htag, heq⟩ | ⟨c, -, -, hof⟩
  · simp_all
  · refine ⟨hof, ?_⟩
    generalize attributeTrip entryIds fills botIds = a at h hof
    cases hof with
    | refused => cases h
    | unidentified => cases h
    | closed _ _ _ hexits => exact fun f hf => (hexits f hf).2

end Exits

/-- Within a `bot_only` trip every fill is the bot's own exactly when every fill between its entries
is. -/
theorem bot_only_own_iff (h : (attributeTrip entryIds fills botIds).tag = .botOnly) :
    (∃ later, entryBook entryIds fills = beforeEntry entryIds (entryBook entryIds fills)
      ++ (entrySpan entryIds (entryBook entryIds fills)
        ++ (attributeTrip entryIds fills botIds).exitFills) ++ later)
    ∧ ((∀ f ∈ entrySpan entryIds (entryBook entryIds fills)
          ++ (attributeTrip entryIds fills botIds).exitFills, OwnFill entryIds botIds f)
      ↔ ∀ f ∈ entrySpan entryIds (entryBook entryIds fills), OwnFill entryIds botIds f) := by
  obtain ⟨hof, hbot⟩ := attributeTrip_botOnly h
  obtain ⟨later, hlater⟩ := hof.used.2
  constructor
  · refine ⟨later, ?_⟩
    conv_lhs => rw [entry_cut entryIds (entryBook entryIds fills)]
    rw [← hlater]
    simp
  · constructor
    · intro hown f hf
      exact hown f (mem_append_left _ hf)
    · intro hown f hf
      rcases mem_append.1 hf with hf | hf
      · exact hown f hf
      · exact .inr (hbot f hf)

/-- A fill of the sample contract at 100, on the first day. -/
def sampleFill (order : String) (side : OrderSide) (qty : Int) (time : Nat)
    (platform : Option String) (h : 0 < qty) : AccountFill :=
  ⟨"NIFTY", order, side, qty, 100, ⟨1, time⟩, "", platform, some 1, h⟩

theorem fifty_pos : (0 : ℤ) < 50 := by decide

theorem hundred_pos : (0 : ℤ) < 100 := by decide

theorem two_hundred_pos : (0 : ℤ) < 200 := by decide

/-- An entry filled in two parts, with a manual purchase and its sale in between. -/
def interleavedBook : List AccountFill :=
  [sampleFill "entry" .buy 100 1 (some "API") hundred_pos,
    sampleFill "hand" .buy 50 2 (some "FAST") fifty_pos,
    sampleFill "hand" .sell 50 3 (some "FAST") fifty_pos,
    sampleFill "entry" .buy 100 4 (some "API") hundred_pos,
    sampleFill "exit" .sell 200 5 (some "API") two_hundred_pos]

/-- Two manual fills between the entry and the close cancel out in the net. -/
theorem bot_only_with_manual_fills :
    (attributeTrip ["entry"] interleavedBook ["entry", "exit"]).tag = .botOnly
    ∧ ∃ f ∈ entrySpan ["entry"] (entryBook ["entry"] interleavedBook),
      f.provenance ["entry", "exit"] = .manual ∧ ¬ OwnFill ["entry"] ["entry", "exit"] f := by
  decide +kernel

/-- Without them, all of it is the bot's. -/
theorem bot_only_own_without_hand :
    (attributeTrip ["entry"] (interleavedBook.filter (·.orderId ≠ "hand"))
        ["entry", "exit"]).tag = .botOnly
      ∧ ∀ f ∈ entrySpan ["entry"] (entryBook ["entry"]
          (interleavedBook.filter (·.orderId ≠ "hand")))
        ++ (attributeTrip ["entry"] (interleavedBook.filter (·.orderId ≠ "hand"))
          ["entry", "exit"]).exitFills, OwnFill ["entry"] ["entry", "exit"] f :=
  ⟨by decide +kernel, (bot_only_own_iff (by decide +kernel)).2.2 (by decide +kernel)⟩

end TradingBridge
