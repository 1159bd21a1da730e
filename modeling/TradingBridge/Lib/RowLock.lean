import TradingBridge.Lib.Run

/-!
# Transactions on one row

A row under read committed. In a run in which no transaction looks the row up while another holds it
or has an unlocked lookup it has yet to write from, the row is what the transactions give one after
the other.
-/

namespace Effectful

open List

variable {κ α : Type*}

/-- A row: its committed version, and the transaction that holds it with its own version. -/
structure LockedRow (κ α : Type*) where
  committed : α
  held : Option (κ × α)

structure Txn (α : Type*) where
  locks : Bool
  finds : α → Bool
  writes : α → Option (α → α)

namespace Txn

def lookup (t : Txn α) (v : α) : Option α := if t.finds v then some v else none

/-- What the transaction makes of a version when it is alone. -/
def apply (t : Txn α) (v : α) : α :=
  match (t.lookup v).bind t.writes with
  | some f => f v
  | none => v

variable {t : Txn α}

theorem lookup_eq_some {u v : α} : t.lookup u = some v ↔ t.finds v = true ∧ u = v := by
  unfold lookup
  split_ifs with h
  · refine ⟨fun hv => ?_, fun hv => congrArg some hv.2⟩
    cases hv
    exact ⟨h, rfl⟩
  · refine ⟨nofun, fun hv => absurd ?_ h⟩
    rw [hv.2]
    exact hv.1

variable {v : α}

theorem apply_of_lookup_none (h : t.lookup v = none) : t.apply v = v := by
  simp [apply, h]

theorem apply_of_writes_none (h : t.writes v = none) : t.apply v = v := by
  unfold apply lookup
  split_ifs <;> simp [h]

theorem apply_of_writes {f : α → α} (hv : t.finds v = true)
    (h : t.writes v = some f) : t.apply v = f v := by
  simp [apply, lookup, hv, h]

end Txn

/-- How far a transaction is, with the version its lookup found. -/
inductive Stage (α : Type*)
  | idle
  | loaded (found : Option α)
  | flushed (found : Option α)
  | done (found : Option α)
  deriving DecidableEq

namespace Stage

/-- What the lookup found, once nothing is left to be written from it. -/
def outcome : Stage α → Option (Option α)
  | idle => none
  | loaded none => some none
  | loaded (some _) => none
  | flushed found => some found
  | done found => some found

end Stage

namespace LockedRow

variable [DecidableEq κ]

/-- The version a transaction sees. -/
def view (r : LockedRow κ α) (k : κ) : α :=
  match r.held with
  | some (j, v) => if j = k then v else r.committed
  | none => r.committed

def current (r : LockedRow κ α) : α :=
  match r.held with
  | some (_, v) => v
  | none => r.committed

/-- Take the lock; a transaction that does not get it waits. -/
def lock (r : LockedRow κ α) (k : κ) : Option (LockedRow κ α) :=
  match r.held with
  | some (j, _) => if j = k then some r else none
  | none => some ⟨r.committed, some (k, r.committed)⟩

def update (r : LockedRow κ α) (k : κ) (f : α → α) : Option (LockedRow κ α) :=
  (r.lock k).map fun r' => ⟨r'.committed, r'.held.map fun h => (h.1, f h.2)⟩

def commit (r : LockedRow κ α) (k : κ) : LockedRow κ α :=
  match r.held with
  | some (j, v) => if j = k then ⟨v, none⟩ else r
  | none => r

variable {r r' : LockedRow κ α} {k : κ}

omit [DecidableEq κ] in
theorem current_of_free (h : r.held = none) : r.current = r.committed := by simp [current, h]

theorem view_of_free (h : r.held = none) : r.view k = r.current := by simp [view, current, h]

theorem lock_of_free (h : r.held = none) :
    r.lock k = some ⟨r.committed, some (k, r.committed)⟩ := by simp [lock, h]

theorem update_spec {f : α → α} (hmine : ∀ j v, r.held = some (j, v) → j = k)
    (h : r.update k f = some r') :
    r'.held = some (k, f r.current) ∧ r'.current = f r.current := by
  unfold update lock at h
  rcases hr : r.held with _ | ⟨j, v⟩ <;> rw [hr] at h
  · cases h
    simp [current, hr]
  · obtain rfl := hmine j v hr
    simp only [if_pos] at h
    cases h
    simp [current, hr]

theorem commit_current : (r.commit k).current = r.current := by
  unfold commit
  rcases hr : r.held with _ | ⟨j, v⟩
  · rfl
  · dsimp only
    split_ifs
    · simp [current, hr]
    · rfl

theorem commit_held {j : κ} {v : α} (h : (r.commit k).held = some (j, v)) :
    r.held = some (j, v) ∧ j ≠ k := by
  unfold commit at h
  rcases hr : r.held with _ | ⟨i, u⟩ <;> rw [hr] at h
  · simp [hr] at h
  · dsimp only at h
    split_ifs at h with hi
    rw [hr] at h
    cases h
    exact ⟨rfl, hi⟩

end LockedRow

structure Sessions (κ α : Type*) where
  row : LockedRow κ α
  stage : κ → Stage α

namespace Sessions

variable [DecidableEq κ]

def start (v : α) : Sessions κ α := ⟨⟨v, none⟩, fun _ => .idle⟩

def goto (s : Sessions κ α) (k : κ) (r : LockedRow κ α) (g : Stage α) : Sessions κ α :=
  ⟨r, Function.update s.stage k g⟩

/-- The next statement of transaction `k`. A lookup that finds nothing takes no lock. -/
def next (T : κ → Txn α) (s : Sessions κ α) (k : κ) : Option (Sessions κ α) :=
  match s.stage k with
  | .idle =>
    match (T k).lookup (s.row.view k) with
    | none => some (s.goto k s.row (.loaded none))
    | some v =>
      if (T k).locks then (s.row.lock k).map fun r => s.goto k r (.loaded (some v))
      else some (s.goto k s.row (.loaded (some v)))
  | .loaded found =>
    match found.bind (T k).writes with
    | none => some (s.goto k s.row (.flushed found))
    | some f => (s.row.update k f).map fun r => s.goto k r (.flushed found)
  | .flushed found => some (s.goto k (s.row.commit k) (.done found))
  | .done _ => none

/-- A transaction looks the row up only while no other holds it or has yet to write. -/
def Apart (T : κ → Txn α) (s : Sessions κ α) (k : κ) : Prop :=
  s.stage k = .idle → s.row.held = none
    ∧ ∀ j v, (T j).locks = false → s.stage j ≠ .loaded (some v)

/-- The transactions one after the other take the one version to the other. -/
inductive Serial (T : κ → Txn α) (v₀ : α) : List (κ × Option α) → α → Prop
  | nil : Serial T v₀ [] v₀
  | snoc {L : List (κ × Option α)} {v : α} (h : Serial T v₀ L v) (k : κ) :
      Serial T v₀ (L ++ [(k, (T k).lookup v)]) ((T k).apply v)

/-- The newest version is what the transactions past their write give in some order; the one that
has yet to write found it and is alone with the row. -/
structure InOrder (T : κ → Txn α) (v₀ : α) (s : Sessions κ α) (L : List (κ × Option α)) : Prop where
  serial : Serial T v₀ L s.row.current
  nodup : (L.map Prod.fst).Nodup
  mem : ∀ k found, (k, found) ∈ L ↔ (s.stage k).outcome = some found
  loaded : ∀ k v, s.stage k = .loaded (some v) → (T k).lookup s.row.current = some v
  alone : ∀ j k u v, s.stage j = .loaded (some u) → s.stage k = .loaded (some v) → j = k
  mine : ∀ j k u v, s.row.held = some (j, u) → s.stage k = .loaded (some v) → j = k
  holder : ∀ k u, s.row.held = some (k, u) →
    (∃ v, s.stage k = .loaded (some v)) ∨ ∃ found, s.stage k = .flushed found
  locked : ∀ k v, (T k).locks = true → s.stage k = .loaded (some v) → s.row.held ≠ none

variable {T : κ → Txn α} {v₀ : α} {s s' : Sessions κ α} {k : κ} {L : List (κ × Option α)}
  {r : LockedRow κ α} {g : Stage α}

@[simp] theorem goto_row : (s.goto k r g).row = r := rfl

theorem goto_stage (j : κ) : (s.goto k r g).stage j = if j = k then g else s.stage j := by
  simp [goto, Function.update_apply]

@[simp] theorem goto_stage_self : (s.goto k r g).stage k = g := by simp [goto_stage]

theorem goto_stage_ne {j : κ} (h : j ≠ k) : (s.goto k r g).stage j = s.stage j := by
  simp [goto_stage, h]

theorem next_cases (h : s.next T k = some s') :
    (s.stage k = .idle ∧ (T k).lookup (s.row.view k) = none ∧ s' = s.goto k s.row (.loaded none))
    ∨ (∃ v r, s.stage k = .idle ∧ (T k).lookup (s.row.view k) = some v
      ∧ ((T k).locks = true ∧ s.row.lock k = some r ∨ (T k).locks = false ∧ r = s.row)
      ∧ s' = s.goto k r (.loaded (some v)))
    ∨ (∃ found, s.stage k = .loaded found ∧ found.bind (T k).writes = none
      ∧ s' = s.goto k s.row (.flushed found))
    ∨ (∃ v f r, s.stage k = .loaded (some v) ∧ (T k).writes v = some f
      ∧ s.row.update k f = some r ∧ s' = s.goto k r (.flushed (some v)))
    ∨ (∃ found, s.stage k = .flushed found ∧ s' = s.goto k (s.row.commit k) (.done found)) := by
  unfold next at h
  rcases hk : s.stage k with _ | found | found | found <;> rw [hk] at h
  · rcases hv : (T k).lookup (s.row.view k) with _ | v <;> rw [hv] at h
    · exact .inl ⟨rfl, rfl, (Option.some.inj h).symm⟩
    · split_ifs at h with hl
      · obtain ⟨r, hr, rfl⟩ := Option.map_eq_some_iff.1 h
        exact .inr (.inl ⟨v, r, rfl, rfl, .inl ⟨hl, hr⟩, rfl⟩)
      · exact .inr (.inl ⟨v, _, rfl, rfl, .inr ⟨by simpa using hl, rfl⟩, (Option.some.inj h).symm⟩)
  · dsimp only at h
    rcases hf : found.bind (T k).writes with _ | f <;> rw [hf] at h
    · exact .inr (.inr (.inl ⟨found, rfl, hf, (Option.some.inj h).symm⟩))
    · obtain ⟨r, hr, rfl⟩ := Option.map_eq_some_iff.1 h
      obtain ⟨v, rfl, hv⟩ := Option.bind_eq_some_iff.1 hf
      exact .inr (.inr (.inr (.inl ⟨v, f, r, rfl, hv, hr, rfl⟩)))
  · exact .inr (.inr (.inr (.inr ⟨found, rfl, (Option.some.inj h).symm⟩)))
  · cases h

section Step

variable (h : InOrder T v₀ s L)
include h

theorem InOrder.mem_goto (hg : g.outcome = (s.stage k).outcome) (j : κ)
    (found : Option α) : (j, found) ∈ L ↔ ((s.goto k r g).stage j).outcome = some found := by
  rw [h.mem, goto_stage]
  split_ifs with hj
  · rw [hj, hg]
  · exact Iff.rfl

omit [DecidableEq κ] in
theorem InOrder.not_mem (hk : (s.stage k).outcome = none) : k ∉ L.map Prod.fst := by
  intro hmem
  obtain ⟨⟨j, found⟩, hj, rfl⟩ := mem_map.1 hmem
  rw [h.mem, hk] at hj
  cases hj

variable {found : Option α}

theorem InOrder.mem_goto_snoc (hk : (s.stage k).outcome = none) (hg : g.outcome = some found)
    (j : κ) (found' : Option α) :
    (j, found') ∈ L ++ [(k, found)] ↔ ((s.goto k r g).stage j).outcome = some found' := by
  rw [mem_append, mem_singleton, h.mem, goto_stage]
  split_ifs with hj
  · rw [hj, hk, hg, Prod.mk.injEq, Option.some.injEq]
    exact ⟨fun hf => hf.elim nofun fun hf => hf.2.symm, fun hf => .inr ⟨rfl, hf.symm⟩⟩
  · rw [Prod.mk.injEq]
    exact ⟨fun hf => hf.elim id fun hf => absurd hf.1 hj, .inl⟩

omit [DecidableEq κ] in
theorem InOrder.nodup_snoc (hk : (s.stage k).outcome = none) :
    ((L ++ [(k, found)]).map Prod.fst).Nodup := by
  rw [map_append, map_singleton, nodup_append]
  refine ⟨h.nodup, nodup_singleton k, fun j hj i hi hji => ?_⟩
  obtain rfl := mem_singleton.1 hi
  exact h.not_mem hk (hji ▸ hj)

theorem InOrder.past {L' : List (κ × Option α)}
    (hserial : Serial T v₀ L' r.current) (hnodup : (L'.map Prod.fst).Nodup)
    (hmem : ∀ j found, (j, found) ∈ L' ↔ ((s.goto k r g).stage j).outcome = some found)
    (hg : ∀ v, g ≠ .loaded (some v))
    (hcurrent : r.current = s.row.current ∨ ∃ v, s.stage k = .loaded (some v))
    (hheld : ∀ j u, r.held = some (j, u) → s.row.held = some (j, u) ∨
      j = k ∧ ∃ v, s.stage k = .loaded (some v))
    (hflushed : ∀ u, r.held = some (k, u) → ∃ found, g = .flushed found)
    (hkept : ∀ j u, s.row.held = some (j, u) → j ≠ k → r.held ≠ none) :
    InOrder T v₀ (s.goto k r g) L' := by
  have hother : ∀ {j v}, (s.goto k r g).stage j = .loaded (some v) →
      j ≠ k ∧ s.stage j = .loaded (some v) := by
    intro j v hj
    rw [goto_stage] at hj
    split_ifs at hj with hjk
    · exact absurd hj (hg v)
    · exact ⟨hjk, hj⟩
  refine ⟨hserial, hnodup, hmem, fun j v hj => ?_, fun i j u v hi hj => ?_,
    fun i j u v hi hj => ?_, fun j u hj => ?_, fun j v hl hj => ?_⟩
  · obtain ⟨hjk, hj⟩ := hother hj
    rcases hcurrent with hc | ⟨u, hk⟩
    · rw [goto_row, hc]
      exact h.loaded j v hj
    · exact absurd (h.alone j k v u hj hk) hjk
  · exact h.alone i j u v (hother hi).2 (hother hj).2
  · obtain ⟨hjk, hj'⟩ := hother hj
    rcases hheld i u hi with hi' | ⟨rfl, w, hk⟩
    · exact h.mine i j u v hi' hj'
    · exact absurd (h.alone j i v w hj' hk) hjk
  · by_cases hjk : j = k
    · obtain ⟨found, rfl⟩ := hflushed u (hjk ▸ hj)
      exact .inr ⟨found, by rw [hjk, goto_stage_self]⟩
    · rw [goto_stage_ne hjk]
      exact h.holder j u ((hheld j u hj).resolve_right fun hk => hjk hk.1)
  · obtain ⟨hjk, hj⟩ := hother hj
    obtain ⟨⟨i, u⟩, hi⟩ := Option.ne_none_iff_exists'.1 (h.locked j v hl hj)
    exact hkept i u hi (h.mine i j u v hi hj ▸ hjk)

theorem InOrder.miss (hk : s.stage k = .idle) (hfree : s.row.held = none)
    (hmiss : (T k).lookup (s.row.view k) = none) :
    InOrder T v₀ (s.goto k s.row (.loaded none)) (L ++ [(k, none)]) := by
  rw [LockedRow.view_of_free hfree] at hmiss
  have hserial := h.serial.snoc k
  rw [hmiss, Txn.apply_of_lookup_none hmiss] at hserial
  have houtcome : (s.stage k).outcome = none := by rw [hk]; rfl
  exact h.past hserial (h.nodup_snoc houtcome) (h.mem_goto_snoc houtcome rfl) nofun (.inl rfl)
    (fun _ _ => .inl) (fun u hu => by simp [hfree] at hu) (fun j u hj => by simp [hfree] at hj)

theorem InOrder.load {v : α} (hk : s.stage k = .idle)
    (hfree : s.row.held = none) (hnone : ∀ j u, s.stage j ≠ .loaded (some u))
    (hfound : (T k).lookup (s.row.view k) = some v)
    (hr : (T k).locks = true ∧ s.row.lock k = some r ∨ (T k).locks = false ∧ r = s.row) :
    InOrder T v₀ (s.goto k r (.loaded (some v))) L := by
  rw [LockedRow.view_of_free hfree] at hfound
  rw [LockedRow.lock_of_free hfree, Option.some.injEq] at hr
  have hcurrent : r.current = s.row.current := by
    rcases hr with ⟨-, rfl⟩ | ⟨-, rfl⟩
    · exact (LockedRow.current_of_free hfree).symm
    · rfl
  have hheld : ∀ j u, r.held = some (j, u) → j = k := by
    intro j u hj
    rcases hr with ⟨-, rfl⟩ | ⟨-, rfl⟩
    · simp only [Option.some.injEq, Prod.mk.injEq] at hj
      exact hj.1.symm
    · simp [hfree] at hj
  have honly : ∀ {j u}, (s.goto k r (.loaded (some v))).stage j = .loaded (some u) → j = k := by
    intro j u hj
    by_contra hjk
    rw [goto_stage_ne hjk] at hj
    exact hnone j u hj
  refine ⟨hcurrent ▸ h.serial, h.nodup, h.mem_goto (by rw [hk]; rfl), fun j u hj => ?_,
    fun i j _ _ hi hj => (honly hi).trans (honly hj).symm,
    fun i j _ _ hi hj => (hheld i _ hi).trans (honly hj).symm, fun j u hj => ?_,
    fun j u hl hj => ?_⟩
  · obtain rfl := honly hj
    rw [goto_stage_self, Stage.loaded.injEq] at hj
    rw [goto_row, hcurrent, ← hj]
    exact hfound
  · obtain rfl := hheld j u hj
    exact .inl ⟨v, goto_stage_self⟩
  · obtain rfl := honly hj
    rcases hr with ⟨-, rfl⟩ | ⟨hl', -⟩
    · exact nofun
    · rw [hl] at hl'
      cases hl'

theorem InOrder.skip (hk : s.stage k = .loaded found)
    (hnone : found.bind (T k).writes = none) :
    ∃ L', InOrder T v₀ (s.goto k s.row (.flushed found)) L' := by
  have hpast := fun (L' : List (κ × Option α)) hserial hnodup hmem => h.past
    (g := .flushed found) (k := k) hserial (hnodup : (L'.map Prod.fst).Nodup) hmem nofun (.inl rfl)
    (fun _ _ => .inl) (fun _ _ => ⟨found, rfl⟩) (fun _ _ hj _ => by simp [hj])
  rcases found with _ | v
  · exact ⟨L, hpast L h.serial h.nodup (h.mem_goto (by rw [hk]; rfl))⟩
  · have houtcome : (s.stage k).outcome = none := by rw [hk]; rfl
    have hfound := h.loaded k v hk
    have hserial := h.serial.snoc k
    obtain ⟨-, hv⟩ := Txn.lookup_eq_some.1 hfound
    rw [hfound, Txn.apply_of_writes_none (by rw [hv]; exact hnone)] at hserial
    exact ⟨_, hpast _ hserial (h.nodup_snoc houtcome) (h.mem_goto_snoc houtcome rfl)⟩

theorem InOrder.write {v : α} {f : α → α} (hk : s.stage k = .loaded (some v))
    (hf : (T k).writes v = some f) (hr : s.row.update k f = some r) :
    InOrder T v₀ (s.goto k r (.flushed (some v))) (L ++ [(k, some v)]) := by
  have houtcome : (s.stage k).outcome = none := by rw [hk]; rfl
  have hfound := h.loaded k v hk
  obtain ⟨hfinds, hv⟩ := Txn.lookup_eq_some.1 hfound
  obtain ⟨hheld, hcurrent⟩ :=
    LockedRow.update_spec (fun j u hj => h.mine j k u v hj hk) hr
  have hserial := h.serial.snoc k
  rw [hv] at hcurrent
  rw [hfound, hv, Txn.apply_of_writes hfinds hf, ← hcurrent] at hserial
  refine h.past hserial (h.nodup_snoc houtcome) (h.mem_goto_snoc houtcome rfl) nofun
    (.inr ⟨v, hk⟩) (fun j u hj => ?_) (fun _ _ => ⟨_, rfl⟩) (fun _ _ _ _ => by simp [hheld])
  rw [hheld, Option.some.injEq, Prod.mk.injEq] at hj
  exact .inr ⟨hj.1.symm, v, hk⟩

theorem InOrder.commit (hk : s.stage k = .flushed found) :
    InOrder T v₀ (s.goto k (s.row.commit k) (.done found)) L := by
  have hserial := h.serial
  rw [← LockedRow.commit_current] at hserial
  refine h.past hserial h.nodup (h.mem_goto (by rw [hk]; rfl)) nofun
    (.inl LockedRow.commit_current) (fun j u hj => .inl (LockedRow.commit_held hj).1)
    (fun u hu => absurd rfl (LockedRow.commit_held hu).2) (fun j u hj hjk => ?_)
  simp [LockedRow.commit, hj, hjk]

end Step

omit [DecidableEq κ] in
theorem inOrder_start : InOrder T v₀ (start v₀) [] where
  serial := .nil
  nodup := nodup_nil
  mem _ _ := by simp [start, Stage.outcome]
  loaded := nofun
  alone := nofun
  mine := nofun
  holder := nofun
  locked := nofun

theorem InOrder.next (h : InOrder T v₀ s L) (hok : s.Apart T k) (ht : s.next T k = some s') :
    ∃ L', InOrder T v₀ s' L' := by
  obtain ⟨hk, hmiss, rfl⟩ | ⟨v, r, hk, hfound, hr, rfl⟩ | ⟨found, hk, hnone, rfl⟩
    | ⟨v, f, r, hk, hf, hr, rfl⟩ | ⟨found, hk, rfl⟩ := next_cases ht
  · exact ⟨_, h.miss hk (hok hk).1 hmiss⟩
  · obtain ⟨hfree, hunlocked⟩ := hok hk
    refine ⟨L, h.load hk hfree (fun j u hj => ?_) hfound hr⟩
    rcases hl : (T j).locks with _ | _
    · exact hunlocked j u hl hj
    · exact h.locked j u hl hj hfree
  · exact h.skip hk hnone
  · exact ⟨_, h.write hk hf hr⟩
  · exact ⟨L, h.commit hk⟩

/-- No update is lost where transactions keep apart: the committed version is what they give one
after the other. -/
theorem serial_of_apart {ks : List κ} (h : Run (next T) (Apart T) (start v₀) ks s)
    (hdone : ∀ k, ∃ found, s.stage k = .done found) :
    ∃ L, Serial T v₀ L s.row.committed ∧ (L.map Prod.fst).Nodup
      ∧ ∀ k found, (k, found) ∈ L ↔ s.stage k = .done found := by
  obtain ⟨L, hL⟩ := h.invariant (I := fun s => ∃ L, InOrder T v₀ s L)
    (fun _ _ _ ⟨_, hI⟩ hok ht => hI.next hok ht) ⟨[], inOrder_start⟩
  have hfree : s.row.held = none := by
    rcases hheld : s.row.held with _ | ⟨k, u⟩
    · rfl
    · obtain ⟨found, hk⟩ := hdone k
      rcases hL.holder k u hheld with ⟨v, hk'⟩ | ⟨v, hk'⟩ <;> cases hk.symm.trans hk'
  refine ⟨L, LockedRow.current_of_free hfree ▸ hL.serial, hL.nodup, fun k found => ?_⟩
  obtain ⟨found', hk⟩ := hdone k
  rw [hL.mem, hk]
  simp [Stage.outcome]

end Sessions

end Effectful
