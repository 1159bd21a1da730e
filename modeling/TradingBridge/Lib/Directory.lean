import Mathlib

/-!
# Directories

A directory holds one content under each name and lists its names in order. `put` overwrites;
a name above all the others is listed last.
-/

structure Directory (κ : Type*) [LinearOrder κ] (α : Type*) where
  entries : List (κ × α)
  sorted : entries.Pairwise fun a b => a.1 < b.1

namespace Directory

open List

variable {κ α β : Type*} [LinearOrder κ]

theorem ext {d d' : Directory κ α} (h : d.entries = d'.entries) : d = d' := by
  cases d
  cases d'
  cases h
  rfl

instance [DecidableEq α] : DecidableEq (Directory κ α) := fun d d' =>
  decidable_of_iff (d.entries = d'.entries) ⟨ext, fun h => h ▸ rfl⟩

def empty : Directory κ α := ⟨[], .nil⟩

section Put

def insertEntry (k : κ) (a : α) : List (κ × α) → List (κ × α)
  | [] => [(k, a)]
  | e :: es =>
    if k < e.1 then (k, a) :: e :: es
    else if e.1 < k then e :: insertEntry k a es
    else (k, a) :: es

theorem mem_insertEntry {k : κ} {a : α} {es : List (κ × α)}
    (hs : es.Pairwise fun a b => a.1 < b.1) {e : κ × α} :
    e ∈ insertEntry k a es ↔ e = (k, a) ∨ e ∈ es ∧ e.1 ≠ k := by
  induction es with
  | nil => simp [insertEntry]
  | cons x xs ih =>
    obtain ⟨hx, hxs⟩ := pairwise_cons.1 hs
    unfold insertEntry
    split_ifs with hlt hgt
    · have hne : ∀ y ∈ x :: xs, y.1 ≠ k := by
        intro y hy
        rcases mem_cons.1 hy with rfl | hy
        · exact hlt.ne'
        · exact (hlt.trans (hx y hy)).ne'
      constructor
      · intro h
        rcases mem_cons.1 h with rfl | h
        · exact .inl rfl
        · exact .inr ⟨h, hne e h⟩
      · rintro (rfl | ⟨h, -⟩)
        · exact mem_cons_self
        · exact mem_cons_of_mem _ h
    · simp only [mem_cons, ih hxs]
      constructor
      · rintro (rfl | rfl | ⟨h, hk⟩)
        · exact .inr ⟨.inl rfl, hgt.ne⟩
        · exact .inl rfl
        · exact .inr ⟨.inr h, hk⟩
      · rintro (rfl | ⟨rfl | h, hk⟩)
        · exact .inr (.inl rfl)
        · exact .inl rfl
        · exact .inr (.inr ⟨h, hk⟩)
    · have hk : x.1 = k := le_antisymm (not_lt.1 hlt) (not_lt.1 hgt)
      simp only [mem_cons]
      constructor
      · rintro (rfl | h)
        · exact .inl rfl
        · exact .inr ⟨.inr h, (hk ▸ hx e h).ne'⟩
      · rintro (rfl | ⟨rfl | h, hne⟩)
        · exact .inl rfl
        · exact absurd hk hne
        · exact .inr h

theorem sorted_insertEntry {k : κ} {a : α} {es : List (κ × α)}
    (hs : es.Pairwise fun a b => a.1 < b.1) :
    (insertEntry k a es).Pairwise fun a b => a.1 < b.1 := by
  induction es with
  | nil => exact pairwise_singleton _ _
  | cons x xs ih =>
    obtain ⟨hx, hxs⟩ := pairwise_cons.1 hs
    unfold insertEntry
    split_ifs with hlt hgt
    · refine pairwise_cons.2 ⟨?_, hs⟩
      intro y hy
      rcases mem_cons.1 hy with rfl | hy
      · exact hlt
      · exact hlt.trans (hx y hy)
    · refine pairwise_cons.2 ⟨?_, ih hxs⟩
      intro y hy
      rcases (mem_insertEntry hxs).1 hy with rfl | ⟨hy, -⟩
      · exact hgt
      · exact hx y hy
    · have hk : x.1 = k := le_antisymm (not_lt.1 hlt) (not_lt.1 hgt)
      exact pairwise_cons.2 ⟨fun y hy => hk ▸ hx y hy, hxs⟩

theorem insertEntry_of_lt {k : κ} {a : α} {es : List (κ × α)} (h : ∀ e ∈ es, e.1 < k) :
    insertEntry k a es = es ++ [(k, a)] := by
  induction es with
  | nil => rfl
  | cons x xs ih =>
    have hx : x.1 < k := h x mem_cons_self
    unfold insertEntry
    rw [if_neg hx.asymm, if_pos hx, ih fun e he => h e (mem_cons_of_mem _ he)]
    rfl

def put (d : Directory κ α) (k : κ) (a : α) : Directory κ α :=
  ⟨insertEntry k a d.entries, sorted_insertEntry d.sorted⟩

variable {d : Directory κ α} {k : κ} {a : α}

theorem mem_put {e : κ × α} : e ∈ (d.put k a).entries ↔ e = (k, a) ∨ e ∈ d.entries ∧ e.1 ≠ k :=
  mem_insertEntry d.sorted

theorem entries_put_of_lt (h : ∀ e ∈ d.entries, e.1 < k) :
    (d.put k a).entries = d.entries ++ [(k, a)] :=
  insertEntry_of_lt h

end Put

section Total

def total (weight : κ × α → ℕ) (d : Directory κ α) : ℕ := (d.entries.map weight).sum

variable (weight : κ × α → ℕ) {d : Directory κ α} {k : κ} {a b : α}

theorem sum_insertEntry_le (es : List (κ × α)) :
    ((insertEntry k a es).map weight).sum ≤ (es.map weight).sum + weight (k, a) := by
  induction es with
  | nil => simp [insertEntry]
  | cons x xs ih =>
    unfold insertEntry
    split_ifs <;> simp only [map_cons, sum_cons] <;> omega

theorem total_put_le : (d.put k a).total weight ≤ d.total weight + weight (k, a) :=
  sum_insertEntry_le weight d.entries

theorem total_put_lt (hb : (k, b) ∈ d.entries) (hpos : 0 < weight (k, b)) :
    (d.put k a).total weight < d.total weight + weight (k, a) := by
  show ((insertEntry k a d.entries).map weight).sum < (d.entries.map weight).sum + _
  obtain ⟨es, hs⟩ := d
  dsimp only at hb ⊢
  induction es with
  | nil => cases hb
  | cons x xs ih =>
    obtain ⟨hx, hxs⟩ := pairwise_cons.1 hs
    unfold insertEntry
    rcases mem_cons.1 hb with rfl | hmem
    · rw [if_neg (lt_irrefl _), if_neg (lt_irrefl _)]
      simp only [map_cons, sum_cons]
      omega
    · have hlt : x.1 < k := hx _ hmem
      rw [if_neg hlt.asymm, if_pos hlt]
      have := ih hxs hmem
      simp only [map_cons, sum_cons]
      omega

end Total

/-- The entries whose name and content pass `p`, as those of `glob`. -/
def restrict (d : Directory κ α) (p : κ × α → Bool) : Directory κ α :=
  ⟨d.entries.filter p, d.sorted.filter p⟩

theorem mem_restrict {d : Directory κ α} {p : κ × α → Bool} {e : κ × α} :
    e ∈ (d.restrict p).entries ↔ e ∈ d.entries ∧ p e = true :=
  mem_filter

section Order

variable {d : Directory κ α} {e e' : κ × α}

omit [LinearOrder κ] in
theorem pair_sublist_of_pairwise [Preorder κ] {f : β → κ} {l : List β}
    (hl : l.Pairwise fun a b => f a < f b) {a b : β} (ha : a ∈ l) (hb : b ∈ l) (hlt : f a < f b) :
    [a, b].Sublist l := by
  have hne : a ≠ b := fun h => lt_irrefl _ (h ▸ hlt)
  exact sublist_of_subperm_of_pairwise
    (subperm_of_subset (by simp [hne]) (by simp [ha, hb])) (by simpa using hlt) hl

theorem pair_sublist (he : e ∈ d.entries) (he' : e' ∈ d.entries) (hlt : e.1 < e'.1) :
    [e, e'].Sublist d.entries :=
  pair_sublist_of_pairwise d.sorted he he' hlt

theorem eq_of_mem (he : e ∈ d.entries) (he' : e' ∈ d.entries) (hk : e.1 = e'.1) : e = e' :=
  inj_on_of_nodup_map (pairwise_map.2 (d.sorted.imp fun h => h.ne)) he he' hk

end Order

section Lookup

variable {d d' : Directory κ α} {k k' : κ} {a : α}

def get? (d : Directory κ α) (k : κ) : Option α :=
  (d.entries.find? fun e => e.1 = k).map Prod.snd

theorem get?_eq_some : d.get? k = some a ↔ (k, a) ∈ d.entries := by
  unfold get?
  constructor
  · intro h
    obtain ⟨e, he, rfl⟩ := Option.map_eq_some_iff.1 h
    have hk : e.1 = k := by simpa using find?_some he
    rw [← hk]
    exact mem_of_find?_eq_some he
  · intro h
    have hsome : (d.entries.find? fun e => e.1 = k).isSome := by
      rw [find?_isSome]
      exact ⟨(k, a), h, by simp⟩
    obtain ⟨e, he⟩ := Option.isSome_iff_exists.1 hsome
    have hk : e.1 = k := by simpa using find?_some he
    rw [he, Option.map_some, eq_of_mem (mem_of_find?_eq_some he) h hk]

theorem get?_eq_none : d.get? k = none ↔ ∀ a, (k, a) ∉ d.entries := by
  rw [Option.eq_none_iff_forall_not_mem]
  exact forall_congr' fun a => not_congr get?_eq_some

theorem ext_get? (h : ∀ k, d.get? k = d'.get? k) : d = d' := by
  have hnodup : ∀ d : Directory κ α, d.entries.Nodup := fun d =>
    d.sorted.imp fun hlt heq => absurd (heq ▸ hlt) (lt_irrefl _)
  refine ext (List.Perm.eq_of_pairwise (fun a b _ _ hab hba => absurd hab hba.asymm) d.sorted
    d'.sorted ((perm_ext_iff_of_nodup (hnodup d) (hnodup d')).2 fun e => ?_))
  rw [← get?_eq_some, ← get?_eq_some, h]

theorem get?_put : (d.put k a).get? k' = if k' = k then some a else d.get? k' := by
  refine Option.ext fun b => ?_
  rw [get?_eq_some, mem_put]
  split_ifs with hk
  · simp [hk, eq_comm]
  · rw [get?_eq_some]
    simp [hk]

def erase (d : Directory κ α) (k : κ) : Directory κ α := d.restrict fun e => e.1 ≠ k

theorem get?_restrict {p : κ × α → Bool} :
    (d.restrict p).get? k = (d.get? k).filter fun a => p (k, a) := by
  refine Option.ext fun b => ?_
  rw [get?_eq_some, mem_restrict, Option.filter_eq_some_iff, get?_eq_some]

theorem get?_erase : (d.erase k).get? k' = if k' = k then none else d.get? k' := by
  refine Option.ext fun b => ?_
  rw [erase, get?_eq_some, mem_restrict]
  split_ifs with hk
  · simp [hk]
  · rw [get?_eq_some]
    simp [hk]

end Lookup

end Directory
