import TradingBridge.Orderflow.Replayer

/-!
# Sliced replay

A slice of a file, read through the row groups that span it, is the part of the sorted file with
its timestamps in the slice (`sliceEvents_eq`). The bounds rise from the smallest timestamp to one
past the largest, so the slices cut every file, and the merges of the slices one after the other
are the merge of the whole files.
-/

namespace TradingBridge.Orderflow.Replayer

open SortedMerge List

variable {ρ : Type}

section Ends

variable {α : Type} [Preorder α] {l : List α} {x y : α}

theorem head_le (hl : l.Pairwise (· ≤ ·)) (hx : l.head? = some x) (hy : y ∈ l) : x ≤ y := by
  rw [head?_eq_some_head (ne_nil_of_mem hy), Option.some.injEq] at hx
  exact hx ▸ hl.rel_head hy

theorem le_last (hl : l.Pairwise (· ≤ ·)) (hx : l.getLast? = some x) (hy : y ∈ l) : y ≤ x := by
  rw [getLast?_eq_some_getLast (ne_nil_of_mem hy), Option.some.injEq] at hx
  exact hx ▸ hl.rel_getLast hy

end Ends

theorem cumsum_get (acc : ℕ) (ns : List ℕ) (k : ℕ) (hk : k < ns.length) :
    (cumsum acc ns)[k]? = some (acc + (ns.take (k + 1)).sum) := by
  induction ns generalizing acc k with
  | nil => simp at hk
  | cons n ns ih =>
    cases k with
    | zero => simp [cumsum]
    | succ k =>
      simp only [cumsum, getElem?_cons_succ, take_succ_cons, sum_cons]
      rw [ih _ _ (by simpa using hk), Nat.add_assoc]

theorem searchsorted_spec (acc : ℕ) (ns : List ℕ) (i : ℕ) (hlo : acc ≤ i) (hhi : i < acc + ns.sum) :
    searchsorted (cumsum acc ns) i < ns.length ∧
      acc + (ns.take (searchsorted (cumsum acc ns) i)).sum ≤ i ∧
      i < acc + (ns.take (searchsorted (cumsum acc ns) i + 1)).sum := by
  induction ns generalizing acc with
  | nil => simp at hhi; omega
  | cons n ns ih =>
    by_cases hn : acc + n ≤ i
    · have hstep : searchsorted (cumsum acc (n :: ns)) i =
          searchsorted (cumsum (acc + n) ns) i + 1 := by
        simp [searchsorted, cumsum, hn]
      obtain ⟨hk, hle, hlt⟩ := ih (acc + n) hn (by simp at hhi; omega)
      rw [hstep]
      simp only [length_cons, take_succ_cons, sum_cons]
      omega
    · have hstep : searchsorted (cumsum acc (n :: ns)) i = 0 := by
        simp [searchsorted, cumsum, hn]
      rw [hstep]
      simp
      omega

theorem mapM_getElem_range' {α : Type} (l : List α) (n a : ℕ) (h : a + n ≤ l.length) :
    (List.range' a n).mapM (fun i => l[i]?) = some ((l.drop a).take n) := by
  induction n generalizing a with
  | zero => simp
  | succ n ih =>
    have ha : a < l.length := by omega
    rw [range'_succ, mapM_cons, ih (a + 1) (by omega), drop_eq_getElem_cons ha,
      getElem?_eq_getElem ha]
    rfl

theorem length_flatten_take {α : Type} (groups : List (List α)) (k : ℕ) :
    (groups.take k).flatten.length = ((groups.map List.length).take k).sum := by
  rw [length_flatten, ← map_take]

section Mask

variable {α : Type}

variable {mask : List Bool} (p : α → Bool)

theorem mem_nonzero {i : ℕ} : i ∈ nonzero mask ↔ mask[i]? = some true := by
  simp [nonzero, mem_zipIdx_iff_getElem?]

theorem nonzero_sorted (mask : List Bool) : (nonzero mask).Pairwise (· ≤ ·) := by
  have hidx : (mask.zipIdx.map (·.2)).Pairwise (· ≤ ·) := by
    rw [zipIdx_map_snd]
    exact List.Pairwise.imp le_of_lt pairwise_lt_range'
  exact hidx.sublist (filter_sublist.map _)

theorem nonzero_map (rows : List α) :
    nonzero (rows.map p) = (rows.zipIdx.filter fun r => p r.1).map (·.2) := by
  simp only [nonzero, zipIdx_map, filter_map, map_map]
  rfl

theorem filter_eq_map_zipIdx (rows : List α) :
    rows.filter p = (rows.zipIdx.filter fun r => p r.1).map (·.1) := by
  conv_lhs => rw [← zipIdx_map_fst 0 rows, filter_map]
  rfl

theorem filter_span {pre tbl post : List α} {i j : ℕ}
    (hi : (nonzero ((pre ++ tbl ++ post).map p)).head? = some i)
    (hj : (nonzero ((pre ++ tbl ++ post).map p)).getLast? = some j)
    (hpre : pre.length ≤ i) (hpost : j < (pre ++ tbl).length) :
    (pre ++ tbl ++ post).filter p = tbl.filter p := by
  set mask := (pre ++ tbl ++ post).map p
  have hnopre : pre.filter p = [] := by
    refine filter_eq_nil_iff.2 fun x hx hp => ?_
    obtain ⟨k, hk, rfl⟩ := getElem_of_mem hx
    have hmem : k ∈ nonzero mask :=
      mem_nonzero.2 (by simp [mask, getElem?_append_left, hk, hp])
    have := head_le (nonzero_sorted mask) hi hmem
    omega
  have hnopost : post.filter p = [] := by
    refine filter_eq_nil_iff.2 fun x hx hp => ?_
    obtain ⟨k, hk, rfl⟩ := getElem_of_mem hx
    have hmem : (pre ++ tbl).length + k ∈ nonzero mask := mem_nonzero.2 (by
      simp only [mask, getElem?_map, getElem?_append_right (Nat.le_add_right _ k),
        Nat.add_sub_cancel_left, getElem?_eq_getElem hk, Option.map_some, hp])
    have := le_last (nonzero_sorted mask) hj hmem
    omega
  rw [filter_append, filter_append, hnopre, hnopost, nil_append, append_nil]

theorem maskRows_map (p : Row ρ → Bool) (rows : List (Row ρ)) :
    maskRows rows (rows.map p) = some (rows.filter p) := by
  rw [maskRows, if_pos (length_map p)]
  congr 1
  induction rows with
  | nil => rfl
  | cons r rows ih =>
    rw [map_cons, zip_cons_cons, filter_cons, filter_cons]
    split_ifs with hp
    · rw [map_cons, ih]
    · exact ih

end Mask

theorem mapM_eq_some {α β : Type} {f : α → Option β} {g : α → β} (h : ∀ a, f a = some (g a))
    (l : List α) : l.mapM f = some (l.map g) := by
  rw [funext h]
  exact mapM_pure

theorem rowsToEvents_whole (rows : List (Row ρ)) (stream : Stream) : rowsToEvents rows stream none =
      some (sortByKey (rows.zipIdx.map fun r => keyed (emit stream r.2 r.1))) := by
  simp only [rowsToEvents, Option.bind_eq_bind, Option.bind_some]
  rw [mapM_eq_some fun _ => rfl, Option.bind_some]

theorem mapM_index {α β : Type} (f : α → ℕ → β) (rows : List α) (g : List ℕ) (n : ℕ)
    (h : rows.length + n = g.length) :
    (rows.zipIdx n).mapM (fun r => (g[r.2]?).bind fun i => some (f r.1 i)) =
      some (List.zipWith f rows (g.drop n)) := by
  induction rows generalizing n with
  | nil => rfl
  | cons r rows ih =>
    rw [length_cons] at h
    have hn : n < g.length := by omega
    rw [zipIdx_cons, mapM_cons, ih (n + 1) (by omega), drop_eq_getElem_cons hn,
      getElem?_eq_getElem hn]
    rfl

theorem rowsToEvents_masked (p : Row ρ → Bool) (rows : List (Row ρ)) (stream : Stream) :
    rowsToEvents (rows.filter p) stream (some (nonzero (rows.map p))) =
      some (sortByKey ((rows.zipIdx.filter fun r => p r.1).map fun r =>
        keyed (emit stream r.2 r.1))) := by
  have hlen : (rows.filter p).length + 0 = (nonzero (rows.map p)).length := by
    rw [nonzero_map, filter_eq_map_zipIdx, length_map, length_map, Nat.add_zero]
  have hmap := mapM_index (fun (row : Row ρ) i => keyed (emit stream i row)) _ _ 0 hlen
  have hzip : List.zipWith (fun (row : Row ρ) i => keyed (emit stream i row)) (rows.filter p)
      (nonzero (rows.map p)) =
      (rows.zipIdx.filter fun r => p r.1).map fun r => keyed (emit stream r.2 r.1) := by
    rw [nonzero_map, filter_eq_map_zipIdx p rows, zipWith_map, zipWith_self]
  rw [drop_zero, hzip] at hmap
  simp only [rowsToEvents, Option.bind_eq_bind]
  rw [hmap]
  rfl

section Slices

def keyTs (e : Key × EmittedEvent ρ) : ℤ := (ofLex e.1).1

def inSlice (lo hi : ℤ) (e : Key × EmittedEvent ρ) : Bool :=
  decide (lo ≤ keyTs e) && decide (keyTs e < hi)

theorem keyTs_emit (stream : Stream) (i : ℕ) (row : Row ρ) :
    keyTs (keyed (emit stream i row)) = row.tsValue := by
  cases stream <;> rfl

theorem emit_index {stream : Stream} {i j : ℕ} {row row' : Row ρ}
    (h : (emit stream i row).key = (emit stream j row').key) : i = j := by
  cases stream <;> simp only [emit, Key.of, EmbeddingLike.apply_eq_iff_eq, Prod.mk.injEq] at h <;>
    exact h.2.2.2.2

variable {a b : Key × EmittedEvent ρ}

theorem key_lt_of_keyTs_lt (h : keyTs a < keyTs b) : a.1 < b.1 :=
  Prod.Lex.lt_iff.2 (.inl h)

theorem keyTs_le_of_key_le (h : a.1 ≤ b.1) : keyTs a ≤ keyTs b := by
  by_contra hlt
  exact (key_lt_of_keyTs_lt (lt_of_not_ge hlt)).not_ge h

theorem sortByKey_perm (l : List (Key × EmittedEvent ρ)) : (sortByKey l).Perm l :=
  perm_insertionSort _ l

theorem sortByKey_sorted (l : List (Key × EmittedEvent ρ)) :
    (sortByKey l).Pairwise fun a b => a.1 ≤ b.1 :=
  pairwise_insertionSort _ l

/-- With distinct keys, sorting a part of the rows is taking that part of the sorted rows. -/
theorem sortByKey_filter {l : List (Key × EmittedEvent ρ)}
    (hkeys : ∀ a ∈ l, ∀ b ∈ l, a.1 = b.1 → a = b) (q : Key × EmittedEvent ρ → Bool) :
    sortByKey (l.filter q) = (sortByKey l).filter q := by
  have hperm : (sortByKey (l.filter q)).Perm ((sortByKey l).filter q) :=
    (sortByKey_perm _).trans ((sortByKey_perm l).symm.filter q)
  refine hperm.eq_of_pairwise ?_ (sortByKey_sorted _) ((sortByKey_sorted l).filter q)
  intro a b ha hb hab hba
  have ha' := mem_of_mem_filter ((sortByKey_perm _).mem_iff.1 ha)
  have hb' := (sortByKey_perm _).mem_iff.1 (mem_of_mem_filter hb)
  exact hkeys a ha' b hb' (le_antisymm hab hba)

namespace FileStream

variable (fs : FileStream ρ)

def emitted : List (EmittedEvent ρ) :=
  fs.rows.zipIdx.map fun r => emit fs.stream r.2 r.1

def sorted : List (Key × EmittedEvent ρ) := sortByKey (fs.emitted.map keyed)

theorem emitted_keys : ∀ a ∈ fs.emitted.map keyed,
    ∀ b ∈ fs.emitted.map keyed, a.1 = b.1 → a = b := by
  simp only [emitted, map_map, mem_map]
  rintro _ ⟨⟨row, i⟩, hi, rfl⟩ _ ⟨⟨row', j⟩, hj, rfl⟩ h
  rw [mem_zipIdx_iff_getElem?] at hi hj
  obtain rfl : i = j := emit_index h
  rw [hi] at hj
  cases hj
  rfl

theorem readRowGroups_span {i j : ℕ} (hij : i ≤ j) (hj : j < fs.rows.length) :
    ∃ pre tbl post, fs.rows = pre ++ tbl ++ post ∧ pre.length ≤ i ∧ j < (pre ++ tbl).length ∧
      fs.groupStart (searchsorted fs.rgEnds i) = some pre.length ∧
      fs.readRowGroups (List.range' (searchsorted fs.rgEnds i)
        (searchsorted fs.rgEnds j + 1 - searchsorted fs.rgEnds i)) = some tbl := by
  have htotal : fs.rows.length = (fs.groups.map List.length).sum := length_flatten
  obtain ⟨hlo, hlo_le, hlo_lt⟩ := searchsorted_spec 0 (fs.groups.map List.length) i
    (Nat.zero_le i) (by omega)
  obtain ⟨hhi, hhi_le, hhi_lt⟩ := searchsorted_spec 0 (fs.groups.map List.length) j
    (Nat.zero_le j) (by omega)
  change _ + (List.take (searchsorted fs.rgEnds i) _).sum ≤ i at hlo_le
  change searchsorted fs.rgEnds j < _ at hhi
  change j < _ + (List.take (searchsorted fs.rgEnds j + 1) _).sum at hhi_lt
  have hends : ∀ k < (fs.groups.map List.length).length, fs.rgEnds[k]? =
      some (0 + ((fs.groups.map List.length).take (k + 1)).sum) := cumsum_get 0 _
  set a := searchsorted fs.rgEnds i
  set b := searchsorted fs.rgEnds j
  rw [length_map] at hlo hhi
  rw [← length_flatten_take, Nat.zero_add] at hlo_le hhi_lt
  have hab : a ≤ b := by
    by_contra hlt
    have hsub : (fs.groups.take (b + 1)).flatten.length ≤ (fs.groups.take a).flatten.length := by
      conv_rhs => rw [show a = b + 1 + (a - (b + 1)) by omega, take_add,
        flatten_append, length_append]
      exact Nat.le_add_right _ _
    omega
  have hsplit : fs.groups.take (b + 1) =
      fs.groups.take a ++ (fs.groups.drop a).take (b + 1 - a) := by
    rw [← take_add, Nat.add_sub_cancel' (by omega : a ≤ b + 1)]
  refine ⟨(fs.groups.take a).flatten, ((fs.groups.drop a).take (b + 1 - a)).flatten,
    (fs.groups.drop (b + 1)).flatten, ?_, hlo_le, ?_, ?_, ?_⟩
  · rw [← flatten_append, ← hsplit, ← flatten_append, take_append_drop]
    rfl
  · rwa [← flatten_append, ← hsplit]
  · rw [groupStart]
    split_ifs with ha
    · rw [ha]
      rfl
    · rw [hends _ (by rw [length_map]; omega), length_flatten_take,
        Nat.sub_add_cancel (by omega), Nat.zero_add]
  · rw [readRowGroups, mapM_getElem_range' fs.groups _ a (by omega)]
    rfl

theorem sliceEvents_eq (lo hi : ℤ) :
    fs.sliceEvents lo hi = some (fs.sorted.filter (inSlice lo hi)) := by
  set p : Row ρ → Bool := fun row => decide (lo ≤ row.tsValue) && decide (row.tsValue < hi) with hp
  have hmask : (fs.ts.map fun t => decide (lo ≤ t) && decide (t < hi)) = fs.rows.map p := by
    simp only [ts, map_map]
    rfl
  have hslice : (fs.emitted.map keyed).filter (inSlice lo hi) =
      (fs.rows.zipIdx.filter fun r => p r.1).map fun r => keyed (emit fs.stream r.2 r.1) := by
    simp only [emitted, map_map, filter_map]
    congr 1
    refine filter_congr fun r _ => ?_
    simp [inSlice, keyTs_emit, hp]
  have hsorted : fs.sorted.filter (inSlice lo hi) =
      sortByKey ((fs.rows.zipIdx.filter fun r => p r.1).map fun r =>
        keyed (emit fs.stream r.2 r.1)) := by
    rw [← hslice, sortByKey_filter fs.emitted_keys]
    rfl
  simp only [sliceEvents, hmask]
  split_ifs with hany
  · rw [any_map, any_eq_true] at hany
    obtain ⟨row, hrow, hprow⟩ := hany
    obtain ⟨k, hk, rfl⟩ := getElem_of_mem hrow
    have hmem : k ∈ nonzero (fs.rows.map p) := mem_nonzero.2 (by simpa [hk] using hprow)
    obtain ⟨i, hi'⟩ := Option.isSome_iff_exists.1
      (isSome_head?.2 (ne_nil_of_mem hmem))
    obtain ⟨j, hj'⟩ := Option.isSome_iff_exists.1
      (getLast?_isSome.2 (ne_nil_of_mem hmem))
    have hij : i ≤ j := head_le (nonzero_sorted _) hi' (mem_of_getLast? hj')
    have hjlt : j < fs.rows.length := by
      obtain ⟨hlt, -⟩ :=
        List.getElem?_eq_some_iff.1 (mem_nonzero.1 (mem_of_getLast? hj'))
      simpa using hlt
    obtain ⟨pre, tbl, post, hrows, hpre, hpost, hstart, hread⟩ := fs.readRowGroups_span hij hjlt
    have hlocal : ((fs.rows.map p).drop pre.length).take tbl.length = tbl.map p := by
      rw [hrows]
      simp
    have hfilter : tbl.filter p = fs.rows.filter p := by
      rw [hrows] at hi' hj' ⊢
      exact (filter_span p hi' hj' hpre hpost).symm
    simp [hi', hj', hstart, hread, hlocal, maskRows_map, hfilter, rowsToEvents_masked, hsorted]
  · have hnone : (fs.rows.zipIdx.filter fun r => p r.1) = [] := by
      refine filter_eq_nil_iff.2 fun r hr hpr => hany ?_
      rw [any_map, any_eq_true]
      exact ⟨r.1, fst_mem_of_mem_zipIdx hr, hpr⟩
    rw [hsorted, hnone]
    rfl

end FileStream

end Slices

theorem filter_inSlice_append {l : List (Key × EmittedEvent ρ)}
    (hl : l.Pairwise fun a b => a.1 ≤ b.1) {lo mid hi : ℤ} (hlo : lo ≤ mid) (hhi : mid ≤ hi) :
    l.filter (inSlice lo hi) = l.filter (inSlice lo mid) ++ l.filter (inSlice mid hi) := by
  induction l with
  | nil => rfl
  | cons x l ih =>
    obtain ⟨hx, hl'⟩ := pairwise_cons.1 hl
    simp only [filter_cons, ih hl']
    by_cases hmid : keyTs x < mid
    · have hfirst : inSlice lo hi x = inSlice lo mid x := by
        simp [inSlice, hmid, hmid.trans_le hhi]
      have hsecond : inSlice mid hi x = false := by
        simp [inSlice, not_le.2 hmid]
      rw [hfirst, hsecond, if_neg Bool.false_ne_true]
      split_ifs <;> rfl
    · -- Every later row is past the cut too.
      have hnone : l.filter (inSlice lo mid) = [] := by
        refine filter_eq_nil_iff.2 fun y hy hin => hmid ?_
        simp only [inSlice, Bool.and_eq_true, decide_eq_true_eq] at hin
        exact (keyTs_le_of_key_le (hx y hy)).trans_lt hin.2
      have hfirst : inSlice lo mid x = false := by
        simp [inSlice, hmid]
      have hsecond : inSlice lo hi x = inSlice mid hi x := by
        simp [inSlice, not_lt.1 hmid, hlo.trans (not_lt.1 hmid)]
      rw [hfirst, hsecond, hnone, if_neg Bool.false_ne_true]
      split_ifs <;> rfl

/-- The merges of the slices, one after the other, are the merge of what the slices hold. -/
theorem merge_slices {ls : List (List (Key × EmittedEvent ρ))}
    (hls : ∀ l ∈ ls, l.Pairwise fun a b => a.1 ≤ b.1) (lo hi : ℤ) (rest : List ℤ)
    (hsorted : (lo :: rest).Pairwise (· ≤ ·)) (hlast : (lo :: rest).getLast? = some hi) :
    mergeAll (ls.map fun l => l.filter (inSlice lo hi)) =
      (((lo :: rest).dropLast.zip rest).map fun b =>
        mergeAll (ls.map fun l => l.filter (inSlice b.1 b.2))).flatten := by
  induction rest generalizing lo with
  | nil =>
    obtain rfl : lo = hi := by simpa using hlast
    refine mergeAll_of_empty (flatten_eq_nil_iff.2 fun l hl => ?_)
    obtain ⟨l', -, rfl⟩ := mem_map.1 hl
    refine filter_eq_nil_iff.2 fun e _ hin => ?_
    simp only [inSlice, Bool.and_eq_true, decide_eq_true_eq] at hin
    omega
  | cons mid rest ih =>
    obtain ⟨hlo, hrest⟩ := pairwise_cons.1 hsorted
    have hlast' : (mid :: rest).getLast? = some hi := by simpa using hlast
    have hhi : mid ≤ hi := le_last hrest hlast' mem_cons_self
    have hcut : (ls.map fun l => l.filter (inSlice lo hi)) = List.zipWith (· ++ ·)
        (ls.map fun l => l.filter (inSlice lo mid))
        (ls.map fun l => l.filter (inSlice mid hi)) := by
      rw [zipWith_map, zipWith_self]
      exact map_congr_left fun l hl =>
        filter_inSlice_append (hls l hl) (hlo mid mem_cons_self) hhi
    rw [dropLast_cons_cons, zip_cons_cons, map_cons, flatten_cons,
      ← ih mid hrest hlast', hcut]
    refine mergeAll_append (by simp) fun a ha b hb => ?_
    obtain ⟨_, hl, ha⟩ := mem_flatten.1 ha
    obtain ⟨_, hl', hb⟩ := mem_flatten.1 hb
    obtain ⟨l, -, rfl⟩ := mem_map.1 hl
    obtain ⟨l', -, rfl⟩ := mem_map.1 hl'
    have ha' := (mem_filter.1 ha).2
    have hb' := (mem_filter.1 hb).2
    simp only [inSlice, Bool.and_eq_true, decide_eq_true_eq] at ha' hb'
    exact key_lt_of_keyTs_lt (by omega)

theorem everyNth_eq {target : ℕ} (htarget : 1 ≤ target) (x : ℤ) (xs : List ℤ) :
    ∃ rest, everyNth target (x :: xs) = some (x :: rest) ∧ (x :: rest).Sublist (x :: xs) := by
  have hsub : (((x :: xs).zipIdx.filter fun p => p.2 % target = 0).map (·.1)).Sublist
      (x :: xs) := by
    conv_rhs => rw [← zipIdx_map_fst 0 (x :: xs)]
    exact filter_sublist.map _
  refine ⟨((xs.zipIdx 1).filter fun p => p.2 % target = 0).map (·.1), ?_, ?_⟩
  · rw [everyNth, if_neg (by omega)]
    simp
  · simpa using hsub

theorem unique_sorted (xs : List ℤ) : (unique xs).Pairwise (· ≤ ·) :=
  (pairwise_insertionSort _ xs).sublist (dedup_sublist _)

theorem mem_unique {xs : List ℤ} {x : ℤ} : x ∈ unique xs ↔ x ∈ xs := by
  rw [unique, mem_dedup, mem_insertionSort]

theorem sliceBounds_spec {target : ℕ} (htarget : 1 ≤ target) {streams : List (FileStream ρ)}
    (hne : streams.flatMap FileStream.ts ≠ []) :
    ∃ lo hi rest, sliceBounds target streams = some (lo :: rest) ∧
      (lo :: rest).Pairwise (· ≤ ·) ∧ (lo :: rest).getLast? = some hi ∧
      ∀ t ∈ streams.flatMap FileStream.ts, lo ≤ t ∧ t < hi := by
  have hsorted := pairwise_insertionSort (· ≤ ·) (streams.flatMap FileStream.ts)
  have hmem : ∀ t, t ∈ (streams.flatMap FileStream.ts).insertionSort (· ≤ ·) ↔
      t ∈ streams.flatMap FileStream.ts := fun t => mem_insertionSort (r := (· ≤ ·))
  have hne' : (streams.flatMap FileStream.ts).insertionSort (· ≤ ·) ≠ [] := by
    intro hnil
    refine hne (eq_nil_iff_forall_not_mem.2 fun t ht => ?_)
    rw [← hmem, hnil] at ht
    cases ht
  simp only [sliceBounds]
  generalize (streams.flatMap FileStream.ts).insertionSort (· ≤ ·) = allTs at *
  obtain ⟨x, xs, rfl⟩ := exists_cons_of_ne_nil hne'
  obtain ⟨rest, hevery, hsub⟩ := everyNth_eq htarget x xs
  obtain ⟨top, htop⟩ := Option.isSome_iff_exists.1 (getLast?_isSome.2 hne')
  have hle_top : ∀ t ∈ x :: xs, t ≤ top := fun t ht => le_last hsorted htop ht
  have hx : x ∈ unique (x :: rest) := mem_unique.2 mem_cons_self
  obtain ⟨lo, us, hus⟩ := exists_cons_of_ne_nil (ne_nil_of_mem hx)
  have huniq := unique_sorted (x :: rest)
  refine ⟨lo, top + 1, us ++ [top + 1], ?_, ?_, by rw [← cons_append, getLast?_concat],
    fun t ht => ⟨?_, ?_⟩⟩
  · simp [hevery, htop, hus]
  · rw [← cons_append, ← hus]
    refine pairwise_append.2 ⟨huniq, pairwise_singleton _ _, fun a ha b hb => ?_⟩
    have := hle_top a (hsub.subset (mem_unique.1 ha))
    rw [mem_singleton.1 hb]
    omega
  · exact (head_le huniq (by rw [hus]; rfl) hx).trans (head_le hsorted rfl ((hmem t).2 ht))
  · have := hle_top t ((hmem t).2 ht)
    omega

section Day

variable (src : ReplaySource ρ)

/-- The merge of the whole files, each sorted as `_sorted_rows` does. -/
def wholeDayMerge : Option (List (EmittedEvent ρ)) := do
  let files ← src.fileStreams.mapM fun fs => rowsToEvents fs.rows fs.stream none
  some ((mergeAll files).map (·.2))

/-- Every row of every readable file, as an event. -/
def recordedRows : List (EmittedEvent ρ) :=
  src.specs.flatMap fun spec =>
    (spec.2.getD []).flatten.zipIdx.map fun r => emit spec.1 r.2 r.1

theorem sortedFiles_pairwise :
    ∀ l ∈ src.fileStreams.map FileStream.sorted, l.Pairwise fun a b => a.1 ≤ b.1 := by
  intro l hl
  obtain ⟨fs, -, rfl⟩ := mem_map.1 hl
  exact sortByKey_sorted _

theorem wholeDayMerge_eq : wholeDayMerge src =
    some ((mergeAll (src.fileStreams.map FileStream.sorted)).map (·.2)) := by
  have hwhole : ∀ fs : FileStream ρ, rowsToEvents fs.rows fs.stream none = some fs.sorted := by
    intro fs
    rw [rowsToEvents_whole, FileStream.sorted, FileStream.emitted, map_map]
    rfl
  rw [wholeDayMerge, mapM_eq_some hwhole]
  rfl

theorem mergeSlice_eq (streams : List (FileStream ρ)) (lo hi : ℤ) :
    mergeSlice streams lo hi = some ((mergeAll
      ((streams.map FileStream.sorted).map fun l => l.filter (inSlice lo hi))).map (·.2)) := by
  rw [mergeSlice, mapM_eq_some fun fs : FileStream ρ => fs.sliceEvents_eq lo hi, map_map]
  exact congrArg (fun l => some (l.map Prod.snd)) (mergeAll_nonempty
    (streams.map fun fs => fs.sorted.filter (inSlice lo hi)))

theorem FileStream.keyTs_mem {fs : FileStream ρ} {e : Key × EmittedEvent ρ} (he : e ∈ fs.sorted) :
    keyTs e ∈ fs.ts := by
  have hmem := (sortByKey_perm _).mem_iff.1 he
  simp only [FileStream.emitted, map_map, mem_map] at hmem
  obtain ⟨r, hr, rfl⟩ := hmem
  exact mem_map.2 ⟨r.1, fst_mem_of_mem_zipIdx hr, (keyTs_emit _ _ _).symm⟩

theorem iterEvents_eq {target : ℕ} (htarget : 1 ≤ target) (src : ReplaySource ρ) :
    iterEvents target src =
      some ((mergeAll (src.fileStreams.map FileStream.sorted)).map (·.2)) := by
  rw [iterEvents]
  split_ifs with hempty
  · rw [List.isEmpty_iff.1 hempty]
    rfl
  obtain ⟨fs, hfs⟩ := exists_mem_of_ne_nil _ (fun h => hempty (List.isEmpty_iff.2 h))
  have hrows : fs.ts ≠ [] := by
    have hpos := (mem_filter.1 hfs).2
    rw [decide_eq_true_eq] at hpos
    exact length_pos_iff.1 hpos
  obtain ⟨t, ht⟩ := exists_mem_of_ne_nil _ hrows
  obtain ⟨lo, hi, rest, hbounds, hsorted, hlast, hrange⟩ :=
    sliceBounds_spec htarget (ne_nil_of_mem (mem_flatMap.2 ⟨fs, hfs, ht⟩))
  have hall : (src.fileStreams.map FileStream.sorted).map (fun l => l.filter (inSlice lo hi)) =
      src.fileStreams.map FileStream.sorted := by
    rw [map_map]
    refine map_congr_left fun f hf => filter_eq_self.2 fun e he => ?_
    have := hrange _ (mem_flatMap.2 ⟨f, hf, FileStream.keyTs_mem he⟩)
    simp only [inSlice, Bool.and_eq_true, decide_eq_true_eq]
    exact this
  rw [hbounds]
  simp only [Option.bind_eq_bind, Option.bind_some]
  have hmerge := merge_slices (sortedFiles_pairwise src) lo hi rest hsorted hlast
  rw [hall] at hmerge
  rw [mapM_eq_some fun b : ℤ × ℤ => mergeSlice_eq src.fileStreams b.1 b.2, hmerge, map_flatten,
    map_map]
  rfl

theorem emitted_eq_recordedRows (src : ReplaySource ρ) :
    src.fileStreams.flatMap FileStream.emitted = recordedRows src := by
  rw [ReplaySource.fileStreams, recordedRows]
  induction src.specs with
  | nil => rfl
  | cons spec specs ih =>
    obtain ⟨stream, file⟩ := spec
    rw [flatMap_cons, ← ih]
    cases file with
    | none => rfl
    | some groups =>
      rw [filterMap_cons, Option.map_some]
      rw [filter_cons]
      split_ifs with hpos
      · rfl
      · have hnil : groups.flatten = [] := by
          rw [decide_eq_true_eq, FileStream.numRows, FileStream.ts, length_map,
            length_pos_iff, not_not] at hpos
          exact hpos
        simp only [Option.getD_some, hnil]
        rfl

/-- Sliced replay is the merge of the whole files: every row once, in the order of the keys. -/
theorem iterEvents_wholeDay (src : ReplaySource ρ) :
    ∃ day, wholeDayMerge src = some day ∧ day.Perm (recordedRows src) ∧
      day.Pairwise (fun a b => a.key ≤ b.key) ∧
      ∀ target, 1 ≤ target → iterEvents target src = some day := by
  have hkeyed : ∀ e ∈ mergeAll (src.fileStreams.map FileStream.sorted), e.1 = e.2.key := by
    intro e he
    obtain ⟨l, hl, hel⟩ := mem_flatten.1 ((mergeAll_perm _).mem_iff.1 he)
    obtain ⟨fs, -, rfl⟩ := mem_map.1 hl
    obtain ⟨ev, -, rfl⟩ := mem_map.1 ((sortByKey_perm _).mem_iff.1 hel)
    rfl
  refine ⟨_, wholeDayMerge_eq src, ?_, ?_, fun target htarget => iterEvents_eq htarget src⟩
  · rw [← emitted_eq_recordedRows]
    refine ((mergeAll_perm _).map _).trans ?_
    induction src.fileStreams with
    | nil => exact List.Perm.refl _
    | cons fs streams ih =>
      rw [map_cons, flatten_cons, map_append]
      refine List.Perm.append ?_ ih
      have hperm := (sortByKey_perm (fs.emitted.map keyed)).map Prod.snd
      rwa [map_map, show Prod.snd ∘ keyed = (id : EmittedEvent ρ → _) from rfl,
        map_id] at hperm
  · have hsorted := mergeAll_sorted (sortedFiles_pairwise src)
    rw [pairwise_map]
    refine hsorted.imp_of_mem fun ha hb hab => ?_
    rwa [← hkeyed _ ha, ← hkeyed _ hb]

end Day

end TradingBridge.Orderflow.Replayer
