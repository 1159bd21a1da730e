import TradingBridge.Lib.TieSort
import TradingBridge.Proofs.BilledCharges
import TradingBridge.Proofs.BookCoverage

/-!
# The order of the book

The book is sorted by time, order id and trade id, and the partial fills of one order in the history
agree in all three. Before the last entry only sums are taken. After it the book is walked fill by
fill until the trip is closed: two tied fills may change places unless the trip closes at one of
them with the other still to come. So the outcome is the same for every order of the book exactly
if either of two such fills closes the trip alike.
-/

namespace TradingBridge

open List
open TieSort (Sorted)

variable {entryIds botIds : List String} {fills book : List AccountFill}

def Attribution.verdict (a : Attribution) : AttributionTag × Option ℚ := (a.tag, a.grossPnl)

/-- The rule over a book that is in order. -/
def attributeBook (entryIds : List String) (book : List AccountFill) (botIds : List String) :
    Attribution :=
  match book.filter (isEntry entryIds) with
  | [] => ⟨.unpriceable, [], [], none, .noEntryFill⟩
  | entry :: rest =>
    if rest.any (·.contract ≠ entry.contract) then
      ⟨.humanInterfered, [], [], none, .entrySpansContracts⟩
    else
      let fills := book.filter (·.contract = entry.contract)
      let prior := beforeEntry entryIds fills
      let after := afterEntry entryIds fills
      if net prior ≠ 0 then attributeOverLots (entry :: rest) entry prior after botIds
      else attributeFlat (entry :: rest) entry (entrySpan entryIds fills) after botIds

theorem attributeTrip_eq : attributeTrip entryIds fills botIds =
    attributeBook entryIds (sortFills fills) botIds := rfl

theorem sorted_sortFills (fills : List AccountFill) : Sorted AccountFill.key (sortFills fills) :=
  pairwise_insertionSort _ fills

theorem sortFills_of_sorted (h : Sorted AccountFill.key fills) : sortFills fills = fills :=
  List.Pairwise.insertionSort_eq h

section Settle

variable {entries entries' exits exits' : List AccountFill} {entry : AccountFill}

/-- The tag of a closed trip, by whose fills closed it. -/
def exitTag (botIds : List String) (exits : List AccountFill) : AttributionTag :=
  if ∃ f ∈ exits, f.provenance botIds = .unknown then .unidentifiedFill
  else if ∃ f ∈ exits, f.provenance botIds = .manual then .humanInterfered
  else .botOnly

theorem attributeWalk_eq (sign : Int) (entries exits : List AccountFill) :
    (attributeWalk sign entries exits botIds).verdict = (exitTag botIds exits,
      if exitTag botIds exits = .botOnly then some (grossOf sign entries exits) else none) := by
  have hne : ∀ p : Provenance, (exits.filter fun f => f.provenance botIds = p) ≠ [] ↔
      ∃ f ∈ exits, f.provenance botIds = p := fun p => by simp
  unfold attributeWalk exitTag
  simp only [hne]
  split_ifs <;> first | rfl | contradiction

theorem attributeWalk_verdict {sign : Int} (he : entries.Perm entries') (hx : exits.Perm exits') :
    (attributeWalk sign entries exits botIds).verdict =
      (attributeWalk sign entries' exits' botIds).verdict := by
  have htag : exitTag botIds exits = exitTag botIds exits' := by simp [exitTag, hx.mem_iff]
  have hgross : grossOf sign entries exits = grossOf sign entries' exits' := by
    simp [grossOf, turnover, (he.map _).sum_eq, (hx.map _).sum_eq]
  rw [attributeWalk_eq, attributeWalk_eq, htag, hgross]

/-- The outcome of a trip that closes with fills that may close it. -/
def settle (botIds : List String) (ok : AccountFill → Bool) (side : OrderSide)
    (entries after : List AccountFill) : AttributionTag × Option ℚ :=
  (ExactFit.take ok (·.qty) (entries.map (·.qty)).sum after).elim (.humanInterfered, none)
    fun exits => (attributeWalk (signOf side) entries exits botIds).verdict

theorem settle_perm (ok : AccountFill → Bool) (side : OrderSide) (h : entries.Perm entries')
    (after : List AccountFill) :
    settle botIds ok side entries after = settle botIds ok side entries' after := by
  unfold settle
  rw [(h.map _).sum_eq]
  exact congrArg _ (funext fun exits => attributeWalk_verdict h (List.Perm.refl exits))

theorem attributeOverLots_eq (entries prior after : List AccountFill) :
    (attributeOverLots entries entry prior after botIds).verdict =
      if ∀ f ∈ entries, f.side = entry.side then
        settle botIds (fun f => f.side ≠ entry.side && f.orderId ∈ botIds) entry.side entries after
      else (.humanInterfered, none) := by
  unfold attributeOverLots settle
  simp only [increases_iff, all_eq_true, decide_eq_true_eq, selfClosing_eq, Int.sub_zero]
  split_ifs with hside
  · cases htake : ExactFit.take (fun f => f.side ≠ entry.side && f.orderId ∈ botIds) (·.qty)
      (entries.map (·.qty)).sum after with
    | none => rfl
    | some exits =>
      have hbot : ∀ f ∈ exits, f.provenance botIds = .bot := fun f hf => by
        have hf := (ExactFit.take_eq_some htake).2.1 f hf
        simp only [Bool.and_eq_true, decide_eq_true_eq] at hf
        simp [AccountFill.provenance, hf.2]
      have htag : exitTag botIds exits = .botOnly := by
        unfold exitTag
        rw [if_neg, if_neg] <;> rintro ⟨f, hf, hp⟩ <;> rw [hbot f hf] at hp <;> cases hp
      simp only [Option.elim_some, attributeWalk_eq, htag]
      rfl
  · rfl

theorem attributeFlat_eq (entries span after : List AccountFill) :
    (attributeFlat entries entry span after botIds).verdict =
      if (∀ f ∈ entries, f.side = entry.side) ∧
          net span = signOf entry.side * (entries.map (·.qty)).sum then
        settle botIds (·.side ≠ entry.side) entry.side entries after
      else (.humanInterfered, none) := by
  have hany : (entries.any fun f => f.signedQty * signOf entry.side ≤ 0) = true ↔
      ¬ ∀ f ∈ entries, f.side = entry.side := by
    simp [← increases_iff]
  unfold attributeFlat
  by_cases hside : ∀ f ∈ entries, f.side = entry.side
  · rw [if_neg (hany.not.2 (not_not.2 hside))]
    by_cases hspan : net span = signOf entry.side * (entries.map (·.qty)).sum
    · rw [if_neg (not_not.2 hspan), if_pos ⟨hside, hspan⟩, hspan, settle]
      cases htake : ExactFit.take (·.side ≠ entry.side) (·.qty) (entries.map (·.qty)).sum after with
      | none =>
        split
        · rfl
        · rename_i exits hwalk
          rw [walkToFlat_eq_none_iff.1 hwalk] at htake
          cases htake
      | some exits => rw [walkToFlat_eq_none_iff.2 htake, Option.elim_some]
    · rw [if_pos hspan, if_neg fun h => hspan h.2]
      rfl
  · rw [if_pos (hany.2 hside), if_neg fun h => hside h.1]
    rfl

end Settle

section Entered

variable {book' : List AccountFill} {c : String} {side : OrderSide}

def tripBook (book : List AccountFill) (c : String) : List AccountFill :=
  book.filter (·.contract = c)

/-- Entered on one contract and side, with nothing between the entries unless lots were open. -/
structure Entered (entryIds : List String) (book : List AccountFill) (c : String)
    (side : OrderSide) : Prop where
  some : book.filter (isEntry entryIds) ≠ []
  alike : ∀ f ∈ book.filter (isEntry entryIds), f.contract = c ∧ f.side = side
  clean : net (beforeEntry entryIds (tripBook book c)) = 0 →
    net (entrySpan entryIds (tripBook book c)) =
      signOf side * ((book.filter (isEntry entryIds)).map (·.qty)).sum

/-- On the other side, and the bot's own where lots were open before the entry. -/
def mayClose (entryIds botIds : List String) (book : List AccountFill) (c : String)
    (side : OrderSide) (f : AccountFill) : Bool :=
  f.side ≠ side && (net (beforeEntry entryIds (tripBook book c)) = 0 || f.orderId ∈ botIds)

theorem attributeBook_entered (h : Entered entryIds book c side) :
    (attributeBook entryIds book botIds).verdict =
      settle botIds (mayClose entryIds botIds book c side) side (book.filter (isEntry entryIds))
        (afterEntry entryIds (tripBook book c)) := by
  obtain ⟨hsome, halike, hclean⟩ := h
  unfold attributeBook
  cases hb : book.filter (isEntry entryIds) with
  | nil => exact absurd hb hsome
  | cons entry rest =>
    rw [hb] at halike hclean
    obtain ⟨rfl, rfl⟩ := halike entry mem_cons_self
    have hside : ∀ f ∈ entry :: rest, f.side = entry.side := fun f hf => (halike f hf).2
    have hspan : ¬ (rest.any fun f => f.contract ≠ entry.contract) = true := by
      simpa using fun f hf => (halike f (mem_cons_of_mem entry hf)).1
    have htrip : book.filter (·.contract = entry.contract) = tripBook book entry.contract := rfl
    dsimp only
    rw [if_neg hspan, htrip]
    by_cases hprior : net (beforeEntry entryIds (tripBook book entry.contract)) = 0
    · have hok : mayClose entryIds botIds book entry.contract entry.side =
          fun f : AccountFill => f.side ≠ entry.side := funext fun f => by simp [mayClose, hprior]
      rw [hok, if_neg (not_not.2 hprior), attributeFlat_eq, if_pos ⟨hside, hclean hprior⟩]
    · have hok : mayClose entryIds botIds book entry.contract entry.side =
          fun f => f.side ≠ entry.side && f.orderId ∈ botIds :=
        funext fun f => by simp [mayClose, hprior]
      rw [hok, if_pos hprior, attributeOverLots_eq, if_pos hside]

theorem attributeBook_not_entered (h : ∀ c side, ¬ Entered entryIds book c side) :
    (attributeBook entryIds book botIds).verdict =
      (if book.filter (isEntry entryIds) = [] then .unpriceable else .humanInterfered, none) := by
  unfold attributeBook
  cases hb : book.filter (isEntry entryIds) with
  | nil => rfl
  | cons entry rest =>
    rw [if_neg (cons_ne_nil entry rest)]
    dsimp only
    split_ifs with hspan hprior
    · rfl
    all_goals
      have hcontract : ∀ f ∈ entry :: rest, f.contract = entry.contract := by simpa using hspan
    · rw [attributeOverLots_eq, if_neg]
      intro hside
      refine h entry.contract entry.side ⟨by simp [hb], fun f hf => ?_, fun h0 => absurd h0 hprior⟩
      rw [hb] at hf
      exact ⟨hcontract f hf, hside f hf⟩
    · rw [attributeFlat_eq, if_neg]
      rintro ⟨hside, hnet⟩
      refine h entry.contract entry.side ⟨by simp [hb], fun f hf => ?_, fun _ => hb ▸ hnet⟩
      rw [hb] at hf
      exact ⟨hcontract f hf, hside f hf⟩

theorem Entered.of_perm (h : Entered entryIds book c side)
    (he : (book.filter (isEntry entryIds)).Perm (book'.filter (isEntry entryIds)))
    (hbefore : net (beforeEntry entryIds (tripBook book c)) =
      net (beforeEntry entryIds (tripBook book' c)))
    (hspan : net (entrySpan entryIds (tripBook book c)) =
      net (entrySpan entryIds (tripBook book' c))) : Entered entryIds book' c side := by
  obtain ⟨hsome, halike, hclean⟩ := h
  refine ⟨fun h => hsome (perm_nil.1 (h ▸ he)), fun f hf => halike f (he.mem_iff.2 hf), ?_⟩
  rwa [← hbefore, ← hspan, ← (he.map _).sum_eq]

/-- The entries, the sums before and between them and the fills after them decide the outcome. -/
theorem attributeBook_congr
    (he : (book.filter (isEntry entryIds)).Perm (book'.filter (isEntry entryIds)))
    (hcut : ∀ c, (∀ f ∈ book.filter (isEntry entryIds), f.contract = c) →
      net (beforeEntry entryIds (tripBook book c)) =
          net (beforeEntry entryIds (tripBook book' c)) ∧
        net (entrySpan entryIds (tripBook book c)) = net (entrySpan entryIds (tripBook book' c)) ∧
        afterEntry entryIds (tripBook book c) = afterEntry entryIds (tripBook book' c)) :
    (attributeBook entryIds book botIds).verdict =
      (attributeBook entryIds book' botIds).verdict := by
  have hiff : ∀ c side, Entered entryIds book c side ↔ Entered entryIds book' c side := by
    intro c side
    constructor
    · intro h
      obtain ⟨hbefore, hspan, -⟩ := hcut c fun f hf => (h.alike f hf).1
      exact h.of_perm he hbefore hspan
    · intro h
      obtain ⟨hbefore, hspan, -⟩ := hcut c fun f hf => (h.alike f (he.mem_iff.1 hf)).1
      exact h.of_perm he.symm hbefore.symm hspan.symm
  by_cases h : ∃ c side, Entered entryIds book c side
  · obtain ⟨c, side, h⟩ := h
    obtain ⟨hbefore, -, hafter⟩ := hcut c fun f hf => (h.alike f hf).1
    rw [attributeBook_entered h, attributeBook_entered ((hiff c side).1 h), settle_perm _ _ he,
      hafter]
    unfold mayClose
    rw [hbefore]
  · simp only [not_exists] at h
    have hnil : book.filter (isEntry entryIds) = [] ↔ book'.filter (isEntry entryIds) = [] := by
      rw [← length_eq_zero_iff, he.length_eq, length_eq_zero_iff]
    rw [attributeBook_not_entered h,
      attributeBook_not_entered fun c side => (hiff c side).not.1 (h c side)]
    simp [hnil]

end Entered

section Cut

variable {early late p q : List AccountFill} {x y : AccountFill}

variable (late) in
theorem cut_append_of_entry (h : ∃ e ∈ early, isEntry entryIds e = true) :
    (early ++ late).takeWhile (!isEntry entryIds ·) = early.takeWhile (!isEntry entryIds ·) ∧
      (early ++ late).dropWhile (!isEntry entryIds ·) =
        early.dropWhile (!isEntry entryIds ·) ++ late := by
  have hne : early.dropWhile (!isEntry entryIds ·) ≠ [] := by simpa using h
  constructor
  · rw [List.takeWhile_append, if_neg]
    intro hlen
    have hall := congrArg List.length
      (early.takeWhile_append_dropWhile (p := (!isEntry entryIds ·)))
    rw [List.length_append, hlen, Nat.add_eq_left, List.length_eq_zero_iff] at hall
    exact hne hall
  · rw [List.dropWhile_append, if_neg (by simpa using hne)]

variable (early) in
theorem rcut_append_of_entry (h : ∃ e ∈ late, isEntry entryIds e = true) :
    (early ++ late).rtakeWhile (!isEntry entryIds ·) = late.rtakeWhile (!isEntry entryIds ·) ∧
      (early ++ late).rdropWhile (!isEntry entryIds ·) =
        early ++ late.rdropWhile (!isEntry entryIds ·) := by
  have hreverse : ∃ e ∈ late.reverse, isEntry entryIds e = true := by simpa using h
  obtain ⟨htake, hdrop⟩ := cut_append_of_entry early.reverse hreverse
  simp [List.rtakeWhile, List.rdropWhile, htake, hdrop]

variable (early) in
theorem rcut_append (h : ∀ f ∈ late, isEntry entryIds f = false) :
    (early ++ late).rtakeWhile (!isEntry entryIds ·) =
        early.rtakeWhile (!isEntry entryIds ·) ++ late ∧
      (early ++ late).rdropWhile (!isEntry entryIds ·) =
        early.rdropWhile (!isEntry entryIds ·) := by
  have hfree : ∀ f ∈ late.reverse, (!isEntry entryIds f) = true := by simpa using h
  simp [List.rtakeWhile, List.rdropWhile, List.takeWhile_append_of_pos hfree,
    List.dropWhile_append_of_pos hfree]

theorem cut_append (h : ∃ e ∈ early, isEntry entryIds e = true)
    (hlate : ∀ f ∈ late, isEntry entryIds f = false) :
    beforeEntry entryIds (early ++ late) = beforeEntry entryIds early ∧
      entrySpan entryIds (early ++ late) = entrySpan entryIds early ∧
      afterEntry entryIds (early ++ late) = afterEntry entryIds early ++ late := by
  obtain ⟨htake, hdrop⟩ := cut_append_of_entry late h
  unfold beforeEntry entrySpan afterEntry
  rw [htake, hdrop]
  exact ⟨rfl, (rcut_append _ hlate).2, (rcut_append _ hlate).1⟩

/-- Two neighbours that are entries or before the last one change only an order that is not read. -/
theorem cut_swap (hxy : isEntry entryIds x = isEntry entryIds y)
    (h : isEntry entryIds x = true ∨ ∃ e ∈ q, isEntry entryIds e = true) :
    net (beforeEntry entryIds (p ++ x :: y :: q)) = net (beforeEntry entryIds (p ++ y :: x :: q)) ∧
      net (entrySpan entryIds (p ++ x :: y :: q)) = net (entrySpan entryIds (p ++ y :: x :: q)) ∧
      afterEntry entryIds (p ++ x :: y :: q) = afterEntry entryIds (p ++ y :: x :: q) := by
  -- what is left once the fills before the first entry are dropped
  have htail : ∀ d : List AccountFill,
      net ((d ++ x :: y :: q).rdropWhile (!isEntry entryIds ·)) =
          net ((d ++ y :: x :: q).rdropWhile (!isEntry entryIds ·)) ∧
        (d ++ x :: y :: q).rtakeWhile (!isEntry entryIds ·) =
          (d ++ y :: x :: q).rtakeWhile (!isEntry entryIds ·) := by
    intro d
    have hsplit : ∀ u v : AccountFill, d ++ u :: v :: q = (d ++ [u, v]) ++ q := fun u v => by simp
    rw [hsplit x y, hsplit y x]
    by_cases hq : ∃ e ∈ q, isEntry entryIds e = true
    · obtain ⟨htake, hdrop⟩ := rcut_append_of_entry (d ++ [x, y]) hq
      obtain ⟨htake', hdrop'⟩ := rcut_append_of_entry (d ++ [y, x]) hq
      rw [htake, htake', hdrop, hdrop']
      refine ⟨net_perm ?_, rfl⟩
      exact ((List.Perm.swap y x []).append_left d).append_right _
    · have hfree : ∀ f ∈ q, isEntry entryIds f = false := fun f hf => by
        by_contra hne
        exact hq ⟨f, hf, by simpa using hne⟩
      have hx : isEntry entryIds x = true := h.resolve_right hq
      obtain ⟨htake, hdrop⟩ := rcut_append (d ++ [x, y]) hfree
      obtain ⟨htake', hdrop'⟩ := rcut_append (d ++ [y, x]) hfree
      have hlast : ∀ u v : AccountFill, d ++ [u, v] = (d ++ [u]) ++ [v] := fun u v => by simp
      rw [htake, htake', hdrop, hdrop', hlast x y, hlast y x]
      simp only [rtakeWhile_concat, rdropWhile_concat, hx, ← hxy, Bool.not_true,
        Bool.false_eq_true, if_false, and_true]
      refine net_perm ?_
      rw [← hlast, ← hlast]
      exact (List.Perm.swap y x []).append_left d
  unfold beforeEntry entrySpan afterEntry
  by_cases hp : ∃ e ∈ p, isEntry entryIds e = true
  · obtain ⟨htake, hdrop⟩ := cut_append_of_entry (x :: y :: q) hp
    obtain ⟨htake', hdrop'⟩ := cut_append_of_entry (y :: x :: q) hp
    rw [htake, htake', hdrop, hdrop']
    exact ⟨rfl, htail _⟩
  · have hfree : ∀ f ∈ p, (!isEntry entryIds f) = true := fun f hf => by
      by_contra hne
      exact hp ⟨f, hf, by simpa using hne⟩
    rw [takeWhile_append_of_pos hfree, takeWhile_append_of_pos hfree,
      dropWhile_append_of_pos hfree, dropWhile_append_of_pos hfree]
    cases hx : isEntry entryIds x with
    | true =>
      have hy := hxy ▸ hx
      simp only [takeWhile_cons, dropWhile_cons, hx, hy, Bool.not_true,
        Bool.false_eq_true, if_false]
      exact ⟨trivial, htail []⟩
    | false =>
      have hy := hxy ▸ hx
      simp only [takeWhile_cons, dropWhile_cons, hx, hy, Bool.not_false, if_true,
        and_true]
      exact net_perm ((List.Perm.swap y x _).append_left p)

end Cut

section Ties

variable {pre post late : List AccountFill} {x y : AccountFill} {c : String} {side : OrderSide}

structure ClosedBy (entryIds botIds : List String) (book : List AccountFill) (c : String)
    (side : OrderSide) (x : AccountFill) : Prop where
  entered : Entered entryIds book c side
  contract : x.contract = c
  exits : ∀ f ∈ afterEntry entryIds (tripBook book c) ++ [x],
    mayClose entryIds botIds book c side f = true
  qty : ((afterEntry entryIds (tripBook book c) ++ [x]).map (·.qty)).sum =
    ((book.filter (isEntry entryIds)).map (·.qty)).sum

/-- Where the first closes the trip so does the second, with the same tag and price; or both are
refused. -/
def CloseAlike (entryIds botIds : List String) (book : List AccountFill) (x y : AccountFill) :
    Prop :=
  ∀ c side, ClosedBy entryIds botIds book c side x →
    (ClosedBy entryIds botIds book c side y →
      exitTag botIds (afterEntry entryIds (tripBook book c) ++ [x]) =
          exitTag botIds (afterEntry entryIds (tripBook book c) ++ [y]) ∧
        (exitTag botIds (afterEntry entryIds (tripBook book c) ++ [x]) = .botOnly →
          x.price = y.price)) ∧
    (¬ ClosedBy entryIds botIds book c side y →
      exitTag botIds (afterEntry entryIds (tripBook book c) ++ [x]) = .humanInterfered)

/-- Either of two tied fills of a contract, with no entry left to come, closes the trip alike. -/
def TiesAlike (entryIds botIds : List String) (fills : List AccountFill) : Prop :=
  ∀ pre x y post, (pre ++ x :: y :: post).Perm fills →
    Sorted AccountFill.key (pre ++ x :: y :: post) → x.key = y.key → x.contract = y.contract →
    (∀ f ∈ x :: y :: post, isEntry entryIds f = false) → CloseAlike entryIds botIds pre x y

theorem isEntry_eq_of_key (h : x.key = y.key) : isEntry entryIds x = isEntry entryIds y := by
  have horder : x.orderId = y.orderId := congrArg (fun k => (ofLex (ofLex k).2).1) h
  simp [isEntry, horder]

theorem tripBook_append : tripBook (pre ++ late) c = tripBook pre c ++ tripBook late c :=
  filter_append _ _

theorem Entered.unique {c' : String} {side' : OrderSide} (h : Entered entryIds book c side)
    (h' : Entered entryIds book c' side') : c' = c ∧ side' = side := by
  obtain ⟨f, hf⟩ := exists_mem_of_ne_nil _ h.some
  obtain ⟨rfl, rfl⟩ := h.alike f hf
  obtain ⟨hc, hside⟩ := h'.alike f hf
  exact ⟨hc.symm, hside.symm⟩

theorem filter_isEntry_append (hlate : ∀ f ∈ late, isEntry entryIds f = false) :
    (pre ++ late).filter (isEntry entryIds) = pre.filter (isEntry entryIds) := by
  rw [filter_append, filter_isEntry_eq_nil hlate, append_nil]

theorem tripBook_cut (hsome : pre.filter (isEntry entryIds) ≠ [])
    (halike : ∀ f ∈ pre.filter (isEntry entryIds), f.contract = c ∧ f.side = side)
    (hlate : ∀ f ∈ late, isEntry entryIds f = false) :
    beforeEntry entryIds (tripBook (pre ++ late) c) = beforeEntry entryIds (tripBook pre c) ∧
      entrySpan entryIds (tripBook (pre ++ late) c) = entrySpan entryIds (tripBook pre c) ∧
      afterEntry entryIds (tripBook (pre ++ late) c) =
        afterEntry entryIds (tripBook pre c) ++ tripBook late c := by
  obtain ⟨e, he⟩ := exists_mem_of_ne_nil _ hsome
  obtain ⟨hmem, hentry⟩ := mem_filter.1 he
  rw [tripBook_append]
  refine cut_append ⟨e, mem_filter.2 ⟨hmem, ?_⟩, hentry⟩ fun f hf => ?_
  · simpa using (halike e he).1
  · exact hlate f (mem_filter.1 hf).1

theorem entered_append (hlate : ∀ f ∈ late, isEntry entryIds f = false) :
    Entered entryIds (pre ++ late) c side ↔ Entered entryIds pre c side := by
  have hfilter : (pre ++ late).filter (isEntry entryIds) = pre.filter (isEntry entryIds) :=
    filter_isEntry_append hlate
  constructor
  · intro h
    obtain ⟨hbefore, hspan, -⟩ := tripBook_cut (hfilter ▸ h.some) (hfilter ▸ h.alike) hlate
    exact h.of_perm (.of_eq hfilter) (by rw [hbefore]) (by rw [hspan])
  · intro h
    obtain ⟨hbefore, hspan, -⟩ := tripBook_cut h.some h.alike hlate
    exact h.of_perm (.of_eq hfilter.symm) (by rw [hbefore]) (by rw [hspan])

/-- What a book that was entered comes to, with fills of the contract behind it. -/
def closing (entryIds botIds : List String) (book : List AccountFill) (c : String)
    (side : OrderSide) (late : List AccountFill) : AttributionTag × Option ℚ :=
  settle botIds (mayClose entryIds botIds book c side) side (book.filter (isEntry entryIds))
    (afterEntry entryIds (tripBook book c) ++ late)

theorem attributeBook_append (h : Entered entryIds pre c side)
    (hlate : ∀ f ∈ late, isEntry entryIds f = false) :
    (attributeBook entryIds (pre ++ late) botIds).verdict =
      closing entryIds botIds pre c side (tripBook late c) := by
  obtain ⟨hbefore, -, hafter⟩ := tripBook_cut h.some h.alike hlate
  rw [attributeBook_entered ((entered_append hlate).2 h), filter_isEntry_append hlate, hafter]
  unfold closing mayClose
  rw [hbefore]

variable {entries exits : List AccountFill}

theorem attributeWalk_concat {sign : Int}
    (hqty : x.qty = y.qty) : (attributeWalk sign entries (exits ++ [x]) botIds).verdict =
        (attributeWalk sign entries (exits ++ [y]) botIds).verdict ↔
      exitTag botIds (exits ++ [x]) = exitTag botIds (exits ++ [y]) ∧
        (exitTag botIds (exits ++ [x]) = .botOnly → x.price = y.price) := by
  have hne : (y.qty : ℚ) ≠ 0 := by exact_mod_cast y.qty_pos.ne'
  have hgross : grossOf sign entries (exits ++ [x]) = grossOf sign entries (exits ++ [y]) ↔
      x.price = y.price := by
    unfold grossOf turnover
    split_ifs <;> simp [hqty, hne]
  rw [attributeWalk_eq, attributeWalk_eq, Prod.mk.injEq]
  refine and_congr_right fun htag => ?_
  rw [htag]
  split_ifs with hbot
  · simp [hgross, hbot]
  · simp [hbot]

theorem attributeWalk_refused {sign : Int} :
    (attributeWalk sign entries exits botIds).verdict = (.humanInterfered, none) ↔
      exitTag botIds exits = .humanInterfered := by
  rw [attributeWalk_eq, Prod.mk.injEq]
  constructor
  · exact And.left
  · intro h
    simp [h]

theorem Entered.qty_pos (h : Entered entryIds book c side) :
    0 < ((book.filter (isEntry entryIds)).map (·.qty)).sum := by
  refine sum_pos _ ?_ (by simpa using h.some)
  intro q hq
  obtain ⟨f, -, rfl⟩ := mem_map.1 hq
  exact f.qty_pos

theorem closedBy_imp_iff {P : String → OrderSide → Prop} (h : Entered entryIds book c side) :
    (∀ c side, ClosedBy entryIds botIds book c side x → P c side) ↔
      (ClosedBy entryIds botIds book c side x → P c side) := by
  constructor
  · exact fun hall => hall c side
  · intro hone c' side' hx
    obtain ⟨rfl, rfl⟩ := h.unique hx.entered
    exact hone hx

theorem closing_concat (h : Entered entryIds pre c side) (hx : x.contract = c)
    (hy : y.contract = c) :
    closing entryIds botIds pre c side [x] = closing entryIds botIds pre c side [y] ↔
      CloseAlike entryIds botIds pre x y ∧ CloseAlike entryIds botIds pre y x := by
  classical
  have hclosed : ∀ z : AccountFill, z.contract = c → closing entryIds botIds pre c side [z] =
      if ClosedBy entryIds botIds pre c side z then
        (attributeWalk (signOf side) (pre.filter (isEntry entryIds))
          (afterEntry entryIds (tripBook pre c) ++ [z]) botIds).verdict
      else closing entryIds botIds pre c side [] := by
    intro z hz
    unfold closing settle
    rw [ExactFit.take_concat AccountFill.qty_pos h.qty_pos, append_nil]
    split_ifs with hfit hc hc
    · rfl
    · exact absurd ⟨h, hz, hfit.1, hfit.2⟩ hc
    · exact absurd ⟨hc.exits, hc.qty⟩ hfit
    · rfl
  -- a fill that closes the trip finds it open
  have hopen : ∀ z : AccountFill, ClosedBy entryIds botIds pre c side z →
      closing entryIds botIds pre c side [] = (.humanInterfered, none) := by
    intro z hz
    have hqty := hz.qty
    have hpos := z.qty_pos
    simp only [map_append, sum_append, map_cons, map_nil, sum_cons,
      sum_nil] at hqty
    have hlt : ((afterEntry entryIds (tripBook pre c)).map (·.qty)).sum <
        ((pre.filter (isEntry entryIds)).map (·.qty)).sum := by omega
    rw [closing, append_nil, settle, ExactFit.take_eq_none AccountFill.qty_pos hlt,
      Option.elim_none]
  unfold CloseAlike
  rw [hclosed x hx, hclosed y hy, closedBy_imp_iff h, closedBy_imp_iff h]
  by_cases hcx : ClosedBy entryIds botIds pre c side x <;>
    by_cases hcy : ClosedBy entryIds botIds pre c side y <;>
    simp [hcx, hcy]
  · have hqty : x.qty = y.qty := by
      have hx := hcx.qty
      have hy := hcy.qty
      simp only [map_append, sum_append, map_cons, sum_cons] at hx hy
      omega
    rw [attributeWalk_concat hqty]
    constructor
    · rintro ⟨htag, hprice⟩
      exact ⟨⟨htag, hprice⟩, htag.symm, fun hbot => (hprice (htag.trans hbot)).symm⟩
    · exact And.left
  · rw [hopen x hcx, attributeWalk_refused]
  · rw [hopen y hcy, eq_comm, attributeWalk_refused]

/-- Two neighbours on one contract behind the entries may change places exactly if they close
alike. -/
theorem swap_verdict_iff (hc : x.contract = y.contract)
    (hlate : ∀ f ∈ x :: y :: post, isEntry entryIds f = false) :
    (attributeBook entryIds (pre ++ x :: y :: post) botIds).verdict =
        (attributeBook entryIds (pre ++ y :: x :: post) botIds).verdict ↔
      CloseAlike entryIds botIds pre x y ∧ CloseAlike entryIds botIds pre y x := by
  have hlate' : ∀ f ∈ y :: x :: post, isEntry entryIds f = false := fun f hf =>
    hlate f ((List.Perm.swap x y post).mem_iff.1 hf)
  by_cases h : ∃ c side, Entered entryIds pre c side
  · obtain ⟨c, side, h⟩ := h
    rw [attributeBook_append h hlate, attributeBook_append h hlate']
    by_cases hx : x.contract = c
    · have hy : y.contract = c := hc ▸ hx
      rw [← closing_concat h hx hy]
      simp only [tripBook, filter_cons, hx, hy]
      exact ExactFit.take_swap_iff AccountFill.qty_pos h.qty_pos fun e e' he =>
        attributeWalk_verdict (List.Perm.refl _) he
    · have hy : y.contract ≠ c := hc ▸ hx
      refine iff_of_true (by simp [tripBook, hx, hy]) ⟨?_, ?_⟩
      · exact (closedBy_imp_iff h).2 fun hclosed => absurd hclosed.contract hx
      · exact (closedBy_imp_iff h).2 fun hclosed => absurd hclosed.contract hy
  · refine iff_of_true ?_ ⟨fun c side hx => absurd ⟨c, side, hx.entered⟩ h,
      fun c side hy => absurd ⟨c, side, hy.entered⟩ h⟩
    simp only [not_exists] at h
    rw [attributeBook_not_entered fun c side => (entered_append hlate).not.2 (h c side),
      attributeBook_not_entered fun c side => (entered_append hlate').not.2 (h c side),
      filter_isEntry_append hlate, filter_isEntry_append hlate']

/-- Neighbours on different contracts, entries, or before an entry, may change places. -/
theorem swap_verdict (hxy : isEntry entryIds x = isEntry entryIds y)
    (h : x.contract ≠ y.contract ∨ ∃ f ∈ x :: y :: post, isEntry entryIds f = true) :
    (attributeBook entryIds (pre ++ x :: y :: post) botIds).verdict =
      (attributeBook entryIds (pre ++ y :: x :: post) botIds).verdict := by
  have hperm : (pre ++ x :: y :: post).Perm (pre ++ y :: x :: post) :=
    (List.Perm.swap y x post).append_left pre
  refine attributeBook_congr (hperm.filter _) fun c hall => ?_
  by_cases hc : x.contract = c ∧ y.contract = c
  · obtain ⟨hx, hy⟩ := hc
    have htrip : ∀ u v : AccountFill, u.contract = c → v.contract = c →
        tripBook (pre ++ u :: v :: post) c = tripBook pre c ++ u :: v :: tripBook post c :=
      fun u v hu hv => by simp [tripBook, hu, hv]
    rw [htrip x y hx hy, htrip y x hy hx]
    refine cut_swap hxy ?_
    rcases h with h | ⟨f, hf, hentry⟩
    · exact absurd (hx.trans hy.symm) h
    · rcases mem_cons.1 hf with rfl | hf'
      · exact .inl hentry
      rcases mem_cons.1 hf' with rfl | hf'
      · exact .inl (hxy.trans hentry)
      · have hfc := hall f (mem_filter.2 ⟨mem_append_right pre hf, hentry⟩)
        exact .inr ⟨f, mem_filter.2 ⟨hf', by simpa using hfc⟩, hentry⟩
  · have htrip : tripBook (pre ++ x :: y :: post) c = tripBook (pre ++ y :: x :: post) c := by
      unfold tripBook
      by_cases hx : x.contract = c <;> by_cases hy : y.contract = c <;> simp_all
    rw [htrip]
    exact ⟨rfl, rfl, rfl⟩

end Ties

/-- The outcome is the same in every order of supply exactly if tied fills close the trip alike. -/
theorem attribution_perm_iff (entryIds : List String) (fills : List AccountFill)
    (botIds : List String) :
    (∀ fills', fills'.Perm fills → (attributeTrip entryIds fills' botIds).verdict =
      (attributeTrip entryIds fills botIds).verdict) ↔ TiesAlike entryIds botIds fills := by
  constructor
  · intro h pre x y post hperm hsort hkey hc hlate
    have hswap := h _ (((List.Perm.swap x y post).append_left pre).trans hperm)
    rw [← h _ hperm, attributeTrip_eq, attributeTrip_eq, sortFills_of_sorted hsort,
      sortFills_of_sorted (hsort.swap hkey)] at hswap
    exact ((swap_verdict_iff hc hlate).1 hswap.symm).1
  · intro h fills' hperm
    have hperm' : (sortFills fills').Perm fills := (perm_insertionSort _ fills').trans hperm
    refine TieSort.eq_of_sorted_perm
      (f := fun book => (attributeBook entryIds book botIds).verdict) ?_ hperm'
      (perm_insertionSort _ fills) (sorted_sortFills fills') (sorted_sortFills fills)
    intro pre x y post hp hsort hkey
    by_cases hfree : x.contract = y.contract ∧ ∀ f ∈ x :: y :: post, isEntry entryIds f = false
    · obtain ⟨hc, hlate⟩ := hfree
      have hp' := ((List.Perm.swap x y post).append_left pre).trans hp
      refine (swap_verdict_iff hc hlate).2 ⟨h pre x y post hp hsort hkey hc hlate, ?_⟩
      exact h pre y x post hp' (hsort.swap hkey) hkey.symm hc.symm fun f hf =>
        hlate f ((List.Perm.swap x y post).mem_iff.1 hf)
    · refine swap_verdict (isEntry_eq_of_key hkey) ?_
      by_cases hc : x.contract = y.contract
      · right
        by_contra hno
        refine hfree ⟨hc, fun f hf => ?_⟩
        by_contra hentry
        exact hno ⟨f, hf, by simpa using hentry⟩
      · exact .inl hc

/-- A part of the order that squared the account off, as the history reports it. -/
def soldPart (qty : Int) (h : 0 < qty) : AccountFill :=
  { sampleFill "exit" .sell qty 3 none h with tradeId := "0" }

/-- The bot held 600, entered another 200, and sold the 800 with one order. -/
def squaredOff (parts : List AccountFill) : List AccountFill :=
  [sampleFill "earlier" .buy 600 1 none (by decide),
    sampleFill "entry" .buy 200 2 none two_hundred_pos] ++ parts

/-- With the smaller part first the trip is priced; with the larger first it is refused. -/
theorem tied_parts_change_outcome :
    (squaredOff [soldPart 600 (by decide), soldPart 200 (by decide)]).Perm
        (squaredOff [soldPart 200 (by decide), soldPart 600 (by decide)]) ∧
      (attributeTrip ["entry"] (squaredOff [soldPart 200 (by decide), soldPart 600 (by decide)])
        ["earlier", "entry", "exit"]).verdict = (.botOnly, some 0) ∧
      (attributeTrip ["entry"] (squaredOff [soldPart 600 (by decide), soldPart 200 (by decide)])
        ["earlier", "entry", "exit"]).verdict = (.humanInterfered, none) :=
  ⟨(List.Perm.swap _ _ []).append_left _, by decide +kernel, by decide +kernel⟩

end TradingBridge
