import Mathlib

/-!
# Rows that are edited in place, and events that are delivered again

`firsts` are the events that a handler which records keys lets through: the first delivery of each
key that was not recorded before. `lastThat` is what a field holds after events that overwrite it.
-/

namespace Delivery

open List

section Rows

variable {R K : Type*} [DecidableEq K] (key : R → K) (k : K) (f : R → R)

def editRow (r : R) : R := if key r = k then f r else r

def edit (rows : List R) : List R := rows.map (editRow key k f)

variable {key k f} {p : R → Bool}

theorem editRow_of_ne {r : R} (h : key r ≠ k) : editRow key k f r = r := if_neg h

theorem editRow_of_eq {r : R} (h : key r = k) : editRow key k f r = f r := if_pos h

theorem editRow_congr {β : Type*} {g : R → β} (h : ∀ r, key r = k → g (f r) = g r) (r : R) :
    g (editRow key k f r) = g r := by
  unfold editRow
  split_ifs with hr
  · exact h r hr
  · rfl

theorem find?_edit (h : ∀ r, key r = k → p (f r) = p r) (rows : List R) :
    (edit key k f rows).find? p = (rows.find? p).map (editRow key k f) := by
  have hp : p ∘ editRow key k f = p := funext (editRow_congr h)
  rw [edit, find?_map, hp]

theorem any_edit (h : ∀ r, key r = k → p (f r) = p r) (rows : List R) :
    (edit key k f rows).any p = rows.any p := by
  have hp : p ∘ editRow key k f = p := funext (editRow_congr h)
  rw [edit, any_map, hp]

end Rows

section Firsts

variable {E K : Type*} [DecidableEq K] (key : E → K)

/-- The first deliveries of the keys that are not recorded yet. -/
def firsts : List K → List E → List E
  | _, [] => []
  | seen, e :: es => if key e ∈ seen then firsts seen es else e :: firsts (key e :: seen) es

variable {key} {seen : List K} {e : E} {es : List E}

theorem firsts_cons_of_mem (h : key e ∈ seen) : firsts key seen (e :: es) = firsts key seen es :=
  if_pos h

theorem firsts_cons_of_not_mem (h : key e ∉ seen) :
    firsts key seen (e :: es) = e :: firsts key (key e :: seen) es := if_neg h

theorem firsts_congr_seen {seen' : List K} (h : ∀ x, x ∈ seen ↔ x ∈ seen') :
    firsts key seen es = firsts key seen' es := by
  induction es generalizing seen seen' with
  | nil => rfl
  | cons e es ih =>
    unfold firsts
    by_cases hmem : key e ∈ seen
    · rw [if_pos hmem, if_pos ((h _).1 hmem), ih h]
    · rw [if_neg hmem, if_neg (fun hm => hmem ((h _).2 hm))]
      congr 1
      refine ih fun x => ?_
      simp [h]

theorem firsts_seen {k : K} (h : ∀ e ∈ es, key e ≠ k) :
    firsts key (k :: seen) es = firsts key seen es := by
  induction es generalizing seen with
  | nil => rfl
  | cons e es ih =>
    obtain ⟨he, hes⟩ := forall_mem_cons.1 h
    by_cases hmem : key e ∈ seen
    · rw [firsts_cons_of_mem hmem, firsts_cons_of_mem (mem_cons_of_mem k hmem), ih hes]
    · have hmem' : key e ∉ k :: seen := by
        rintro (_ | ⟨_, hm⟩)
        · exact he rfl
        · exact hmem hm
      rw [firsts_cons_of_not_mem hmem, firsts_cons_of_not_mem hmem']
      congr 1
      have hswap : firsts key (key e :: k :: seen) es = firsts key (k :: key e :: seen) es := by
        refine firsts_congr_seen ?_
        intro x
        simp only [mem_cons]
        tauto
      rw [hswap, ih hes]

theorem mem_firsts : e ∈ firsts key seen es → e ∈ es ∧ key e ∉ seen := by
  induction es generalizing seen with
  | nil => exact fun h => absurd h not_mem_nil
  | cons d es ih =>
    intro h
    by_cases hmem : key d ∈ seen
    · rw [firsts_cons_of_mem hmem] at h
      obtain ⟨he, hnot⟩ := ih h
      exact ⟨mem_cons_of_mem d he, hnot⟩
    · rw [firsts_cons_of_not_mem hmem] at h
      rcases mem_cons.1 h with rfl | h
      · exact ⟨mem_cons_self .., hmem⟩
      · obtain ⟨he, hnot⟩ := ih h
        exact ⟨mem_cons_of_mem d he, fun hm => hnot (mem_cons_of_mem _ hm)⟩

theorem exists_mem_firsts (he : e ∈ es) (hnot : key e ∉ seen) :
    ∃ d ∈ firsts key seen es, key d = key e := by
  induction es generalizing seen with
  | nil => exact absurd he not_mem_nil
  | cons d es ih =>
    by_cases hmem : key d ∈ seen
    · rw [firsts_cons_of_mem hmem]
      rcases mem_cons.1 he with rfl | he
      · exact absurd hmem hnot
      · exact ih he hnot
    · rw [firsts_cons_of_not_mem hmem]
      by_cases hkey : key d = key e
      · exact ⟨d, mem_cons_self .., hkey⟩
      · rcases mem_cons.1 he with rfl | he
        · exact absurd rfl hkey
        · have hnot' : key e ∉ key d :: seen := by
            simp only [mem_cons, not_or]
            exact ⟨fun h => hkey h.symm, hnot⟩
          obtain ⟨x, hx, hxe⟩ := ih he hnot'
          exact ⟨x, mem_cons_of_mem d hx, hxe⟩

/-- Where a key belongs to one event, the events that get through are those not recorded yet. -/
theorem mem_firsts_iff (hkey : ∀ d ∈ es, ∀ e ∈ es, key d = key e → d = e) :
    e ∈ firsts key seen es ↔ e ∈ es ∧ key e ∉ seen := by
  refine ⟨mem_firsts, fun ⟨he, hnot⟩ => ?_⟩
  obtain ⟨d, hd, hde⟩ := exists_mem_firsts he hnot
  rwa [← hkey d (mem_firsts hd).1 e he hde]

end Firsts

section LastThat

variable {E V : Type*} (value : E → Option V)

/-- What the last event that has a value leaves. -/
def lastThat (es : List E) : Option V := (es.filterMap value).getLast?

def overwrite (v : V) (e : E) : V := (value e).getD v

variable {value} {v : V} {es fs : List E}

theorem foldl_overwrite : es.foldl (overwrite value) v = (lastThat value es).getD v := by
  induction es generalizing v with
  | nil => rfl
  | cons e es ih =>
    rw [foldl_cons, ih]
    unfold lastThat overwrite
    cases he : value e with
    | none => rw [filterMap_cons_none he, Option.getD_none]
    | some w =>
      rw [filterMap_cons_some he, getLast?_cons]
      rfl

theorem lastThat_isSome : (lastThat value es).isSome ↔ ∃ e ∈ es, (value e).isSome := by
  unfold lastThat
  rw [getLast?_isSome, Ne, filterMap_eq_nil_iff]
  push Not
  simp [Option.isSome_iff_ne_none]

/-- Two lists of the same events leave the same value exactly if their last ones do. -/
theorem foldl_overwrite_eq_iff (h : ∀ e, e ∈ es ↔ e ∈ fs) :
    es.foldl (overwrite value) v = fs.foldl (overwrite value) v
      ↔ lastThat value es = lastThat value fs := by
  rw [foldl_overwrite, foldl_overwrite]
  refine ⟨fun heq => ?_, fun heq => by rw [heq]⟩
  have hsome : (lastThat value es).isSome ↔ (lastThat value fs).isSome := by
    simp [lastThat_isSome, h]
  cases hes : lastThat value es with
  | none =>
    cases hfs : lastThat value fs with
    | none => rfl
    | some w => simp [hes, hfs] at hsome
  | some u =>
    cases hfs : lastThat value fs with
    | none => simp [hes, hfs] at hsome
    | some w =>
      rw [hes, hfs] at heq
      exact congrArg some heq

end LastThat

end Delivery
