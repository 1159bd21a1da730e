import TradingBridge.Proofs.ReconcilerWrites

/-!
# What the coverage check covers

The check of the trade book makes sure that the bot's orders are in it, but says nothing of what
was traded before the day the book starts from, and the rule counts the account flat there. So a
checked book prices a position as the whole history does when that history was flat on every
contract at the cut, and for any other history there is a book that passes and prices differently.
-/

namespace TradingBridge

open List

section Sorting

variable {α : Type*} {r : α → α → Prop} [DecidableRel r] {a : α}

theorem orderedInsert_append_left : ∀ {l₁ l₂ : List α}, (∀ b ∈ l₂, r a b) →
    (l₁ ++ l₂).orderedInsert r a = l₁.orderedInsert r a ++ l₂
  | [], [], _ => rfl
  | [], b :: l₂, h => by
    rw [nil_append, orderedInsert_cons, if_pos (h b mem_cons_self)]
    rfl
  | c :: l₁, l₂, h => by
    simp only [cons_append, orderedInsert_cons]
    split_ifs
    · rfl
    · rw [orderedInsert_append_left h, cons_append]

theorem orderedInsert_append_right : ∀ {l₁ l₂ : List α}, (∀ b ∈ l₁, ¬ r a b) →
    (l₁ ++ l₂).orderedInsert r a = l₁ ++ l₂.orderedInsert r a
  | [], l₂, _ => rfl
  | c :: l₁, l₂, h => by
    have htail : ∀ b ∈ l₁, ¬ r a b := fun b hb => h b (mem_cons_of_mem c hb)
    rw [cons_append, orderedInsert_cons, if_neg (h c mem_cons_self),
      orderedInsert_append_right htail, cons_append]

theorem insertionSort_filter {p : α → Bool} : ∀ {l : List α},
    (∀ a ∈ l, ∀ b ∈ l, p a = true → p b = false → r a b ∧ ¬ r b a) →
    l.insertionSort r = (l.filter p).insertionSort r ++ (l.filter (!p ·)).insertionSort r
  | [], _ => rfl
  | c :: l, h => by
    have htail : ∀ a ∈ l, ∀ b ∈ l, p a = true → p b = false → r a b ∧ ¬ r b a :=
      fun a ha b hb => h a (mem_cons_of_mem c ha) b (mem_cons_of_mem c hb)
    have hc := h c mem_cons_self
    rw [insertionSort_cons, insertionSort_filter htail]
    cases hp : p c with
    | true =>
      have hle : ∀ b ∈ (l.filter (!p ·)).insertionSort r, r c b := by
        intro b hb
        obtain ⟨hmem, hb⟩ := mem_filter.1 ((mem_insertionSort r).1 hb)
        exact (hc b (mem_cons_of_mem c hmem) hp (by simpa using hb)).1
      simp only [filter_cons, hp]
      exact orderedInsert_append_left hle
    | false =>
      have hlt : ∀ b ∈ (l.filter p).insertionSort r, ¬ r c b := by
        intro b hb
        obtain ⟨hmem, hb⟩ := mem_filter.1 ((mem_insertionSort r).1 hb)
        exact (h b (mem_cons_of_mem c hmem) c mem_cons_self hb hp).2
      simp only [filter_cons, hp]
      exact orderedInsert_append_right hlt

end Sorting

section Cut

variable {day : Nat} {book early late : List AccountFill} {entryIds botIds : List String}

def beforeDay (day : Nat) (book : List AccountFill) : List AccountFill :=
  book.filter (·.ts.day < day)

def fromDay (day : Nat) (book : List AccountFill) : List AccountFill :=
  book.filter (day ≤ ·.ts.day)

theorem key_lt_of_day_lt {f g : AccountFill} (h : f.ts.day < g.ts.day) : f.key < g.key :=
  Prod.Lex.left _ _ (Prod.Lex.left _ _ h)

theorem sortFills_cut (day : Nat) (book : List AccountFill) :
    sortFills book = sortFills (beforeDay day book) ++ sortFills (fromDay day book) := by
  have hlate : book.filter (fun f => !decide (f.ts.day < day)) = fromDay day book := by
    refine filter_congr fun f _ => ?_
    by_cases h : f.ts.day < day
    · simp [h]
    · simp [Nat.le_of_not_lt h]
  rw [← hlate]
  refine insertionSort_filter fun f _ g _ hf hg => ?_
  have hlt : f.key < g.key := key_lt_of_day_lt (by simp at hf hg; omega)
  exact ⟨hlt.le, not_le.2 hlt⟩

theorem net_append : net (early ++ late) = net early + net late := by
  simp [net]

theorem net_perm (h : early.Perm late) : net early = net late :=
  (h.map _).sum_eq

theorem net_sortFills_filter (p : AccountFill → Bool) (fills : List AccountFill) :
    net ((sortFills fills).filter p) = net (fills.filter p) :=
  net_perm ((perm_insertionSort _ fills).filter p)

theorem beforeEntry_append (h : ∀ f ∈ early, isEntry entryIds f = false) :
    beforeEntry entryIds (early ++ late) = early ++ beforeEntry entryIds late :=
  takeWhile_append_of_pos fun f hf => by simp [h f hf]

theorem entrySpan_append (h : ∀ f ∈ early, isEntry entryIds f = false) :
    entrySpan entryIds (early ++ late) = entrySpan entryIds late := by
  unfold entrySpan
  rw [dropWhile_append_of_pos fun f hf => by simp [h f hf]]

theorem afterEntry_append (h : ∀ f ∈ early, isEntry entryIds f = false) :
    afterEntry entryIds (early ++ late) = afterEntry entryIds late := by
  unfold afterEntry
  rw [dropWhile_append_of_pos fun f hf => by simp [h f hf]]

def Attribution.Alike (a b : Attribution) : Prop := a.tag = b.tag ∧ a.grossPnl = b.grossPnl

instance (a b : Attribution) : Decidable (a.Alike b) := inferInstanceAs (Decidable (_ ∧ _))

/-- Which lots were open before the entry shows in the reason alone. -/
theorem attributeOverLots_alike {entries after prior prior' : List AccountFill}
    {entry : AccountFill} : (attributeOverLots entries entry prior after botIds).Alike
      (attributeOverLots entries entry prior' after botIds) := by
  unfold attributeOverLots Attribution.Alike
  dsimp only
  split_ifs
  · split <;> exact ⟨rfl, rfl⟩
  · exact ⟨rfl, rfl⟩

/-- Earlier fills that are flat on every contract, without an entry, change neither tag nor
gross. -/
theorem attributeTrip_alike (hsort : sortFills book = early ++ sortFills late)
    (hentry : ∀ f ∈ early, isEntry entryIds f = false)
    (hflat : ∀ c : String, net (early.filter (·.contract = c)) = 0) :
    (attributeTrip entryIds late botIds).Alike (attributeTrip entryIds book botIds) := by
  have hnone : early.filter (isEntry entryIds) = [] :=
    filter_eq_nil_iff.2 fun f hf => by simp [hentry f hf]
  unfold attributeTrip
  dsimp only
  rw [hsort, filter_append, hnone, nil_append]
  split
  · exact ⟨rfl, rfl⟩
  · rename_i entry rest _
    by_cases hspan : rest.any (·.contract ≠ entry.contract)
    · simp only [hspan]
      exact ⟨rfl, rfl⟩
    · have hentry' : ∀ f ∈ early.filter (·.contract = entry.contract),
          isEntry entryIds f = false := fun f hf => hentry f (mem_filter.1 hf).1
      simp only [filter_append, beforeEntry_append hentry', entrySpan_append hentry',
        afterEntry_append hentry', net_append, hflat, zero_add]
      split_ifs
      · exact attributeOverLots_alike
      · exact ⟨rfl, rfl⟩

end Cut

section Covered

variable {executions : List ExecutionRecord} {positions : List PositionRecord}
  {p : PositionRecord} {fills : FillIndex} {book : List AccountFill} {coversFrom : Nat}
  {order : String}

theorem parseFill_isLive {answer : BrokerAnswer} (h : (parseFill answer).orderId = some order) :
    (parseFill answer).isLive = true := by
  cases answer with
  | dhan status price qty orderId correlationId => rfl
  | paperExit status price qty => simp [parseFill] at h
  | paperEntry status price qty => simp [parseFill] at h
  | other status => simp [parseFill] at h

theorem mem_buildFillIndex : ∀ entry ∈ buildFillIndex executions,
    ∃ answer, entry.2 = parseFill answer := by
  -- The index only ever grows by a parsed answer.
  refine List.foldlRecOn (motive := fun index : FillIndex => ∀ entry ∈ index,
    ∃ answer, entry.2 = parseFill answer) executions _ (by simp) fun index h e _ => ?_
  split_ifs
  · exact h
  · cases e.brokerResponse with
    | none => exact h
    | some answer =>
      intro entry hentry
      rcases mem_append.1 hentry with hentry | hentry
      · exact h entry hentry
      · rw [mem_singleton.1 hentry]
        exact ⟨answer, rfl⟩

theorem mem_of_get {sid : Option SignalId} {fill : FillInfo} (h : fills.get sid = some fill) :
    ∃ id, (id, fill) ∈ fills := by
  obtain ⟨id, -, h⟩ := Option.bind_eq_some_iff.1 h
  obtain ⟨entry, hfind, rfl⟩ := Option.map_eq_some_iff.1 h
  exact ⟨entry.1, mem_of_find?_eq_some hfind⟩

theorem entryOrder_filled (h : order ∈ entryOrderIds p (buildFillIndex executions)) :
    ∃ qty, (order, qty) ∈ filledOrders p (buildFillIndex executions) := by
  obtain ⟨ev, hev, h⟩ := mem_filterMap.1 h
  obtain ⟨fill, hfill, hbot⟩ := Option.bind_eq_some_iff.1 h
  obtain ⟨hget, hstatus⟩ := Option.filter_eq_some_iff.1 hfill
  unfold FillInfo.botOrder at hbot
  split_ifs at hbot
  obtain ⟨id, hmem⟩ := mem_of_get hget
  obtain ⟨answer, rfl⟩ := mem_buildFillIndex _ hmem
  have hlive := parseFill_isLive (Option.filter_eq_some_iff.1 hbot).1
  refine ⟨(parseFill answer).qty, mem_filterMap.2 ⟨ev, (mem_filter.1 hev).1, ?_⟩⟩
  rw [hget]
  simp [Option.filter, hlive, hstatus]
  simpa [Option.filter] using hbot

theorem entryOrder_ne_empty (h : order ∈ entryOrderIds p fills) : order ≠ "" := by
  obtain ⟨ev, -, h⟩ := mem_filterMap.1 h
  obtain ⟨fill, -, hbot⟩ := Option.bind_eq_some_iff.1 h
  unfold FillInfo.botOrder at hbot
  split_ifs at hbot
  simpa using (Option.filter_eq_some_iff.1 hbot).2

theorem filledOrder_in_book
    (hpass : (checkBookCoverage positions fills book coversFrom).problems = [])
    (hp : p ∈ positions) {qty : Option Int} (h : (order, qty) ∈ filledOrders p fills) :
    ∃ f ∈ book, f.orderId = order := by
  unfold checkBookCoverage at hpass
  split_ifs at hpass
  simp only [append_eq_nil_iff] at hpass
  by_contra hnone
  push Not at hnone
  have hrows : book.filter (·.orderId = order) = [] :=
    filter_eq_nil_iff.2 fun f hf => by simpa using hnone f hf
  have hproblem : CoverageProblem.missingOrder order p.id
      ∈ positions.flatMap fun p => (filledOrders p fills).flatMap (orderProblems book p) := by
    refine mem_flatMap.2 ⟨p, hp, mem_flatMap.2 ⟨_, h, ?_⟩⟩
    simp [orderProblems, hrows]
  rw [hpass.1.1.1] at hproblem
  simp at hproblem

theorem covered_alike (engineOrderIds : List String)
    (hflat : ∀ c : String, net ((beforeDay coversFrom book).filter (·.contract = c)) = 0)
    (hentry : ∀ f ∈ beforeDay coversFrom book,
      f.orderId ∉ entryOrderIds p (buildFillIndex executions)) :
    (attributePosition p (buildFillIndex executions) (fromDay coversFrom book)
      engineOrderIds).Alike
    (attributePosition p (buildFillIndex executions) book engineOrderIds) := by
  refine attributeTrip_alike (sortFills_cut coversFrom book) (fun f hf => ?_) (fun c => ?_)
  · have hf : f ∈ beforeDay coversFrom book := (mem_insertionSort _).1 hf
    simpa [isEntry] using hentry f hf
  · rw [net_sortFills_filter]
    exact hflat c

end Covered

section Unidentified

variable {entryIds botIds : List String} {book early : List AccountFill} {contract : String}

/-- A trip is unidentified only where its book was flat before and its exits close all of it. -/
theorem attributeTrip_unidentified
    (h : (attributeTrip entryIds book botIds).tag = .unidentifiedFill) :
    ∃ contract : String,
      (∀ f ∈ (sortFills book).filter (isEntry entryIds), f.contract = contract)
      ∧ net (beforeEntry entryIds ((sortFills book).filter (·.contract = contract))) = 0
      ∧ ∃ exits, exits <+: afterEntry entryIds ((sortFills book).filter (·.contract = contract))
        ∧ (exits.map (·.qty)).sum
          = (((sortFills book).filter (isEntry entryIds)).map (·.qty)).sum := by
  rcases attributeTrip_of entryIds botIds book with ⟨tag, reason, htag, heq⟩ | ⟨c, hc, hbook, hof⟩
  · simp_all
  · rw [hbook] at hof
    refine ⟨c, hc, ?_⟩
    generalize attributeTrip entryIds book botIds = a at h hof
    cases hof with
    | refused => cases h
    | unidentified hflat hpre hqty => exact ⟨hflat, _, hpre, hqty⟩
    | closed => cases h

variable {f g : AccountFill}

theorem afterEntry_pair (hf : isEntry entryIds f = true)
    (hg : isEntry entryIds g = false) (l : List AccountFill) :
    afterEntry entryIds (l ++ [f, g]) = [g] := by
  have hdrop : ∃ l', (l ++ [f, g]).dropWhile (!isEntry entryIds ·) = l' ++ [f] ++ [g] := by
    induction l with
    | nil => exact ⟨[], by simp [hf]⟩
    | cons c l ih =>
      rw [cons_append, dropWhile_cons]
      split_ifs
      · exact ih
      · exact ⟨c :: l, by simp⟩
  obtain ⟨l', hdrop⟩ := hdrop
  unfold afterEntry
  rw [hdrop, rtakeWhile_concat_pos _ _ _ (by simp [hg]),
    rtakeWhile_concat_neg _ _ _ (by simp [hf])]
  rfl

theorem entrySpan_pair (hf : isEntry entryIds f = true)
    (hg : isEntry entryIds g = false) : entrySpan entryIds [f, g] = [f] := by
  unfold entrySpan
  rw [dropWhile_cons_of_neg (by simp [hf]), ← singleton_append,
    rdropWhile_concat_pos _ _ _ (by simp [hg]), rdropWhile_singleton,
    if_neg (by simp [hf])]

theorem beforeEntry_cons {f : AccountFill} (hf : isEntry entryIds f = true)
    (l : List AccountFill) : beforeEntry entryIds (f :: l) = [] :=
  takeWhile_cons_of_neg (by simp [hf])

@[simps]
def oneBought (contract order : String) (day : Nat) : AccountFill :=
  ⟨contract, order, .buy, 1, 100, ⟨day, 0⟩, "", none, none, by decide⟩

@[simps]
def oneSold (contract order : String) (day : Nat) : AccountFill :=
  ⟨contract, order, .sell, 1, 101, ⟨day, 1⟩, "", none, none, by decide⟩

/-- A lot bought and sold on one day, by two orders. -/
abbrev boughtSold (contract order stranger : String) (day : Nat) : List AccountFill :=
  [oneBought contract order day, oneSold contract stranger day]

variable {order stranger : String} {day : Nat}

theorem sortFills_pair : sortFills (boughtSold contract order stranger day)
    = boughtSold contract order stranger day := by
  refine List.Pairwise.insertionSort_eq ?_
  have hlt : (oneBought contract order day).key < (oneSold contract stranger day).key :=
    Prod.Lex.left _ _ (Prod.Lex.right _ Nat.zero_lt_one)
  simpa using hlt.le

theorem pair_unidentified (h : stranger ≠ order) (hbot : stranger ∉ botIds) :
    (attributeTrip [order] (boughtSold contract order stranger day) botIds).tag
      = .unidentifiedFill := by
  have hbought : isEntry [order] (oneBought contract order day) = true := by
    simp [isEntry]
  have hsold : isEntry [order] (oneSold contract stranger day) = false := by
    simp [isEntry, h]
  have hafter := afterEntry_pair hbought hsold []
  have hunknown : (oneSold contract stranger day).provenance botIds = .unknown := by
    have hplatform : ¬ (strip ((none : Option String).getD "")).toUpper = "FAST" := by
      decide +kernel
    unfold AccountFill.provenance oneSold
    rw [if_neg hbot, if_neg hplatform]
  unfold attributeTrip
  dsimp only
  rw [sortFills_pair, filter_cons_of_pos hbought, filter_cons_of_neg (by simp [hsold])]
  have hcontract : (boughtSold contract order stranger day).filter
      (·.contract = (oneBought contract order day).contract)
      = boughtSold contract order stranger day := by
    simp
  simp only [hcontract, beforeEntry_cons hbought, entrySpan_pair hbought hsold]
  rw [nil_append] at hafter
  rw [hafter]
  simp [net, attributeFlat, signOf, AccountFill.signedQty, walkToFlat, attributeWalk, hunknown]

end Unidentified

section Blind

variable {coversFrom : Nat} {order stranger contract : String} {book history : List AccountFill}

def PricesAlike (coversFrom : Nat) (book : List AccountFill) : Prop :=
  ∀ (positions : List PositionRecord) (executions : List ExecutionRecord)
    (engineOrderIds : List String),
    (checkBookCoverage positions (buildFillIndex executions) (fromDay coversFrom book)
      coversFrom).problems = [] →
    ∀ p ∈ positions,
      (attributePosition p (buildFillIndex executions) (fromDay coversFrom book)
        engineOrderIds).Alike
      (attributePosition p (buildFillIndex executions) book engineOrderIds)

/-- No order was filled on both sides of the cut. -/
def OrdersApart (coversFrom : Nat) (book : List AccountFill) : Prop :=
  ∀ f ∈ beforeDay coversFrom book, ∀ g ∈ fromDay coversFrom book, f.orderId ≠ g.orderId

/-- The fill of one entry order, whose quantity the answer does not give. -/
def enteringExecution (order : String) : ExecutionRecord :=
  ⟨1, none, 0, some (.dhan (some "TRADED") (some 100) none (some order) (some "strategy-engine"))⟩

theorem enteringExecution_index : buildFillIndex [enteringExecution order]
    = [(1, ⟨.filled, some "TRADED", some 100, none, .dhan, some order,
      some "strategy-engine"⟩)] := by
  have hstatus : normalizeStatus (some "TRADED") = .filled := by decide +kernel
  have hprice : (some (100 : ℚ)).filter (0 < ·) = some 100 := by decide +kernel
  simp [buildFillIndex, enteringExecution, List.foldl, parseFill, hstatus, hprice]

theorem entering_orders (h : order ≠ "") :
    entryOrderIds pricedBefore (buildFillIndex [enteringExecution order]) = [order]
    ∧ botOrderIds (buildFillIndex [enteringExecution order]) [] = [order]
    ∧ filledOrders pricedBefore (buildFillIndex [enteringExecution order]) = [(order, none)] := by
  have hentry : HistoryEvent.isEntryEvent ⟨"entry", some 100, some "entry", some (some 1)⟩ = true :=
    by decide +kernel
  rw [enteringExecution_index]
  simp [entryOrderIds, botOrderIds, filledOrders, pricedBefore, hentry, FillIndex.get,
    HistoryEvent.signal, FillInfo.botOrder, botCorrelationIds, FillInfo.isLive, Option.filter, h]

theorem pair_passes (h : order ≠ "") (hstranger : stranger ≠ order) :
    (checkBookCoverage [pricedBefore] (buildFillIndex [enteringExecution order])
      (boughtSold contract order stranger (coversFrom + 2)) coversFrom).problems = [] := by
  have hfilled := (entering_orders h).2.2
  have hcontracts : contractsOf (boughtSold contract order stranger (coversFrom + 2))
      (buildFillIndex [enteringExecution order]) pricedBefore = [contract] := by
    simp [contractsOf, hfilled, hstranger]
  have hclosed : pricedBefore.closedAt = none := rfl
  simp [checkBookCoverage, hfilled, orderProblems, hcontracts, hclosed, contractLine, byTime,
    ExchangeTime.before]

theorem beforeDay_append_pair (h : ∀ f ∈ history, f.ts.day < coversFrom) :
    beforeDay coversFrom (history ++ boughtSold contract order stranger (coversFrom + 2))
    = history := by
  have hall : history.filter (·.ts.day < coversFrom) = history :=
    filter_eq_self.2 fun f hf => by simpa using h f hf
  simp [beforeDay, hall]

theorem fromDay_append_pair (h : ∀ f ∈ history, f.ts.day < coversFrom) :
    fromDay coversFrom (history ++ boughtSold contract order stranger (coversFrom + 2))
    = boughtSold contract order stranger (coversFrom + 2) := by
  have hnone : history.filter (coversFrom ≤ ·.ts.day) = [] :=
    filter_eq_nil_iff.2 fun f hf => by simpa using h f hf
  simp [fromDay, hnone]

theorem sortFills_append_pair (h : ∀ f ∈ history, f.ts.day < coversFrom) :
    sortFills (history ++ boughtSold contract order stranger (coversFrom + 2))
    = sortFills history ++ boughtSold contract order stranger (coversFrom + 2) := by
  rw [sortFills_cut coversFrom, beforeDay_append_pair h, fromDay_append_pair h, sortFills_pair]

theorem PricesAlike.unidentified (hdays : ∀ f ∈ history, f.ts.day < coversFrom)
    (horder : order ≠ "") (hstranger : stranger ≠ order)
    (halike : PricesAlike coversFrom
      (history ++ boughtSold contract order stranger (coversFrom + 2))) :
    (attributeTrip [order] (history ++ boughtSold contract order stranger (coversFrom + 2))
      [order]).tag = .unidentifiedFill := by
  obtain ⟨hentry, hbot, -⟩ := entering_orders horder
  have hsame := halike [pricedBefore] [enteringExecution order] []
    (by rw [fromDay_append_pair hdays]; exact pair_passes horder hstranger) pricedBefore
    mem_cons_self
  unfold attributePosition at hsame
  rw [hentry, hbot, fromDay_append_pair hdays] at hsame
  rw [← hsame.1]
  exact pair_unidentified hstranger (by simpa using hstranger)

theorem flat_of_pricesAlike (hdays : ∀ f ∈ history, f.ts.day < coversFrom)
    (halike : ∀ book, beforeDay coversFrom book = history → OrdersApart coversFrom book →
      PricesAlike coversFrom book) (c : String) : net (history.filter (·.contract = c)) = 0 := by
  obtain ⟨order, horder⟩ := Infinite.exists_notMem_finset ("" :: history.map (·.orderId)).toFinset
  obtain ⟨stranger, hstranger⟩ :=
    Infinite.exists_notMem_finset (order :: history.map (·.orderId)).toFinset
  simp only [mem_toFinset, mem_cons, mem_map, not_or, not_exists, not_and]
    at horder hstranger
  have hapart : OrdersApart coversFrom
      (history ++ boughtSold c order stranger (coversFrom + 2)) := by
    unfold OrdersApart
    rw [beforeDay_append_pair hdays, fromDay_append_pair hdays]
    intro f hf g hg
    rcases mem_pair.1 hg with rfl | rfl
    · exact horder.2 f hf
    · exact hstranger.2 f hf
  obtain ⟨contract, hcontract, hprior, -⟩ := attributeTrip_unidentified
    ((halike _ (beforeDay_append_pair hdays) hapart).unidentified hdays horder.1 hstranger.1)
  have hbought : isEntry [order] (oneBought c order (coversFrom + 2)) = true := by simp [isEntry]
  have hold : ∀ f ∈ (sortFills history).filter (·.contract = c), isEntry [order] f = false := by
    intro f hf
    have hf : f ∈ history := (mem_insertionSort _).1 (mem_filter.1 hf).1
    simpa [isEntry] using horder.2 f hf
  rw [sortFills_append_pair hdays] at hcontract hprior
  obtain rfl : c = contract := hcontract (oneBought c order (coversFrom + 2))
    (mem_filter.2 ⟨by simp, hbought⟩)
  rw [filter_append, beforeEntry_append hold, filter_cons_of_pos (by simp),
    beforeEntry_cons hbought, append_nil, net_sortFills_filter] at hprior
  exact hprior

theorem unnamed_of_pricesAlike (hdays : ∀ f ∈ history, f.ts.day < coversFrom)
    (halike : ∀ book, beforeDay coversFrom book = history → PricesAlike coversFrom book)
    {f : AccountFill} (hf : f ∈ history) : f.orderId = "" := by
  by_contra horder
  obtain ⟨stranger, hstranger⟩ := Infinite.exists_notMem_finset {f.orderId}
  have hstranger : stranger ≠ f.orderId := by simpa using hstranger
  have halike := halike (history ++ boughtSold f.contract f.orderId stranger (coversFrom + 2))
    (beforeDay_append_pair hdays)
  obtain ⟨contract, hcontract, -, exits, hexits, hqty⟩ :=
    attributeTrip_unidentified (halike.unidentified hdays horder hstranger)
  have hbought : isEntry [f.orderId] (oneBought f.contract f.orderId (coversFrom + 2)) = true := by
    simp [isEntry]
  have hsold : isEntry [f.orderId] (oneSold f.contract stranger (coversFrom + 2)) = false := by
    simp [isEntry, hstranger]
  rw [sortFills_append_pair hdays] at hcontract hexits hqty
  obtain rfl : f.contract = contract := hcontract
    (oneBought f.contract f.orderId (coversFrom + 2)) (mem_filter.2 ⟨by simp, hbought⟩)
  -- The order's earlier fill makes the entry more than the one lot that was sold.
  have hmem : f ∈ (sortFills history).filter (isEntry [f.orderId]) :=
    mem_filter.2 ⟨(mem_insertionSort _).2 hf, by simp [isEntry]⟩
  have hold : 0 < (((sortFills history).filter (isEntry [f.orderId])).map (·.qty)).sum := by
    refine sum_pos _ (fun q hq => ?_) (by simpa using ne_nil_of_mem hmem)
    obtain ⟨g, -, rfl⟩ := mem_map.1 hq
    exact g.qty_pos
  rw [filter_append, filter_cons_of_pos hbought,
    filter_cons_of_neg (by simp [hsold])] at hqty
  rw [filter_append, filter_cons_of_pos (by simp), filter_cons_of_pos (by simp),
    filter_nil, afterEntry_pair hbought hsold] at hexits
  rcases prefix_cons_iff.1 hexits with rfl | ⟨rest, rfl, hrest⟩
  · simp at hqty
    omega
  · rw [prefix_nil.1 hrest] at hqty
    simp at hqty
    omega

/-- Whatever was traded earlier, a book that passes the check prices every position as the whole
book does exactly when the earlier fills are flat on every contract; for books with an order filled
on both sides, no earlier order may be filled again, either. -/
theorem covered_book_prices_alike_iff (coversFrom : Nat) (history : List AccountFill) :
    ((∀ book, beforeDay coversFrom book = beforeDay coversFrom history →
        OrdersApart coversFrom book → PricesAlike coversFrom book)
      ↔ ∀ c : String, net ((beforeDay coversFrom history).filter (·.contract = c)) = 0)
    ∧ ((∀ book, beforeDay coversFrom book = beforeDay coversFrom history →
        PricesAlike coversFrom book)
      ↔ (∀ c : String, net ((beforeDay coversFrom history).filter (·.contract = c)) = 0)
        ∧ ∀ f ∈ beforeDay coversFrom history, f.orderId = "") := by
  have hdays : ∀ f ∈ beforeDay coversFrom history, f.ts.day < coversFrom := fun f hf => by
    simpa using (mem_filter.1 hf).2
  refine ⟨⟨flat_of_pricesAlike hdays, fun hflat book hbook hapart => ?_⟩,
    ⟨fun halike => ⟨flat_of_pricesAlike hdays fun book hbook _ => halike book hbook,
      fun f hf => unnamed_of_pricesAlike hdays halike hf⟩, fun ⟨hflat, hunnamed⟩ book hbook => ?_⟩⟩
  · intro positions executions engineOrderIds hpass p hp
    refine covered_alike engineOrderIds (by rwa [hbook]) fun f hf hentry => ?_
    obtain ⟨qty, hfilled⟩ := entryOrder_filled hentry
    obtain ⟨g, hg, hsame⟩ := filledOrder_in_book hpass hp hfilled
    exact hapart f hf g hg hsame.symm
  · intro positions executions engineOrderIds hpass p hp
    refine covered_alike engineOrderIds (by rwa [hbook]) fun f hf hentry => ?_
    rw [hbook] at hf
    exact entryOrder_ne_empty hentry (hunnamed f hf)

/-- Fifty lots sold by hand before the attested day are bought back after it, and ten more between
two fills of the entry: a bot's trip on the supplied book, a human's on the whole. -/
theorem covered_book_prices_apart : ∃ book : List AccountFill, OrdersApart 10 book
      ∧ (checkBookCoverage [pricedBefore] (buildFillIndex [enteringExecution "entry"])
        (fromDay 10 book) 10).problems = []
      ∧ (attributePosition pricedBefore (buildFillIndex [enteringExecution "entry"])
        (fromDay 10 book) ["exit"]).tag = .botOnly
      ∧ (attributePosition pricedBefore (buildFillIndex [enteringExecution "entry"])
        (fromDay 10 book) ["exit"]).grossPnl = some 200
      ∧ (attributePosition pricedBefore (buildFillIndex [enteringExecution "entry"])
        book ["exit"]).tag = .humanInterfered := by
  refine ⟨[⟨"NIFTY", "hand1", .sell, 50, 90, ⟨5, 0⟩, "", some "FAST", some 1, by decide⟩,
    ⟨"NIFTY", "hand2", .buy, 50, 90, ⟨12, 0⟩, "", some "FAST", some 1, by decide⟩,
    ⟨"NIFTY", "entry", .buy, 100, 100, ⟨12, 1⟩, "", none, some 1, by decide⟩,
    ⟨"NIFTY", "hand3", .buy, 10, 100, ⟨12, 2⟩, "", some "FAST", some 1, by decide⟩,
    ⟨"NIFTY", "entry", .buy, 100, 100, ⟨12, 3⟩, "", none, some 1, by decide⟩,
    ⟨"NIFTY", "exit", .sell, 200, 101, ⟨12, 4⟩, "", none, some 1, by decide⟩], ?_⟩
  unfold OrdersApart
  decide +kernel

end Blind

end TradingBridge
