import Mathlib

/-!
# Runs of a partial step function

A label names the move and all that is left open about it, and a move that is not enabled has no
next state. `Run next ok` are the runs whose every move meets `ok` in the state it leaves.
-/

namespace Effectful

variable {S L : Type*}

theorem mem_concat {α : Type*} {x a : α} {l : List α} : x ∈ l ++ [a] ↔ x ∈ l ∨ x = a := by
  rw [List.mem_append, List.mem_singleton]

/-- What no step of a loop changes is as before the loop. -/
theorem foldl_kept {α γ : Type*} {f : S → α → S} {l : List α} {s : S} (g : S → γ)
    (h : ∀ s, ∀ x ∈ l, g (f s x) = g s) : g (l.foldl f s) = g s :=
  List.foldlRecOn l f (motive := fun t => g t = g s) rfl fun t ht x hx => (h t x hx).trans ht

/-- The runs whose every move meets `ok` in the state it leaves. -/
inductive Run (next : S → L → Option S) (ok : S → L → Prop) : S → List L → S → Prop
  | nil (s : S) : Run next ok s [] s
  | snoc {s t u : S} {ls : List L} {l : L} (h : Run next ok s ls t) (hok : ok t l)
      (hl : next t l = some u) : Run next ok s (ls ++ [l]) u

def exec (next : S → L → Option S) : S → List L → Option S
  | s, [] => some s
  | s, l :: ls => (next s l).bind fun t => exec next t ls

variable {next : S → L → Option S} {ok : S → L → Prop}

namespace Run

/-- What the first state satisfies and every allowed move keeps holds all along a run. -/
theorem invariant {I : S → Prop} (hI : ∀ s l t, I s → ok s l → next s l = some t → I t)
    {s t : S} {ls : List L} (h : Run next ok s ls t) (h0 : I s) : I t := by
  induction h with
  | nil => exact h0
  | snoc _ hok hl ih => exact hI _ _ _ ih hok hl

theorem trans {s t u : S} {ls ms : List L} (h : Run next ok s ls t) (h' : Run next ok t ms u) :
    Run next ok s (ls ++ ms) u := by
  induction h' with
  | nil => simpa using h
  | snoc _ hok hl ih =>
    rw [← List.append_assoc]
    exact snoc ih hok hl

theorem single {s t : S} {l : L} (hok : ok s l) (hl : next s l = some t) :
    Run next ok s [l] t := snoc (nil s) hok hl

/-- Under an invariant that allows every move, any run is one of allowed moves. -/
theorem allowed {ok' : S → L → Prop} {I : S → Prop} {s t : S} {ls : List L}
    (hI : ∀ s l t, I s → next s l = some t → I t) (hok : ∀ s l, I s → ok' s l)
    (h : Run next ok s ls t) (h0 : I s) : Run next ok' s ls t ∧ I t := by
  induction h with
  | nil => exact ⟨nil s, h0⟩
  | snoc _ _ hl ih => exact ⟨snoc ih.1 (hok _ _ ih.2) hl, hI _ _ _ ih.2 hl⟩

end Run

theorem exists_run_of_exec_checked {ok : S → L → Prop} (okb : S → L → Bool)
    (hok : ∀ s l, okb s l = true → ok s l) {s : S} {ls : List L} {p : S → Bool}
    (h : (exec (fun s l => if okb s l then next s l else none) s ls).any p = true) :
    ∃ t, Run next ok s ls t ∧ p t = true := by
  induction ls generalizing s with
  | nil => exact ⟨s, .nil s, h⟩
  | cons l ls ih =>
    simp only [exec] at h
    split_ifs at h with hl
    · cases hu : next s l with
      | none => simp [hu] at h
      | some u =>
        rw [hu] at h
        obtain ⟨t, hrun, hp⟩ := ih h
        exact ⟨t, (Run.single (hok s l hl) hu).trans hrun, hp⟩
    · cases h

theorem exec_append (s : S) (ls ms : List L) :
    exec next s (ls ++ ms) = (exec next s ls).bind fun t => exec next t ms := by
  induction ls generalizing s with
  | nil => rfl
  | cons l ls ih =>
    rw [List.cons_append, exec, exec, Option.bind_assoc]
    exact congrArg _ (funext ih)

section Decidable

variable [∀ s l, Decidable (ok s l)] {s t : S} {ls : List L}

theorem Run.exec (h : Run next ok s ls t) :
    exec (fun s l => if ok s l then next s l else none) s ls = some t := by
  induction h with
  | nil => rfl
  | snoc _ hok hl ih =>
    rw [exec_append, ih, Option.bind_some, Effectful.exec, if_pos hok, hl]
    rfl

/-- A run of decidable moves to a state with a decidable property is evaluated. -/
instance {p : S → Prop} [DecidablePred p] : Decidable (∃ t, Run next ok s ls t ∧ p t) :=
  decidable_of_iff ((Effectful.exec (fun s l => if ok s l then next s l else none) s ls).any
      (fun t => decide (p t)) = true) <| by
    refine ⟨fun h => ?_, fun ⟨t, hrun, hp⟩ =>
      (Option.any_eq_true _ _).2 ⟨t, hrun.exec, decide_eq_true hp⟩⟩
    obtain ⟨t, hrun, hp⟩ := exists_run_of_exec_checked (fun s l => decide (ok s l))
      (fun _ _ => of_decide_eq_true) (by simpa using h)
    exact ⟨t, hrun, of_decide_eq_true hp⟩

end Decidable

instance decidableExistsSome {o : Option S} {p : S → Prop} [DecidablePred p] :
    Decidable (∃ t, o = some t ∧ p t) :=
  match o with
  | none => isFalse nofun
  | some s => decidable_of_iff (p s) (by simp)

section Always

/-- Every move of a list is allowed in the state it leaves, as far as the list runs. -/
def Always (next : S → L → Option S) (ok : S → L → Prop) : S → List L → Prop
  | _, [] => True
  | s, l :: ls => ok s l ∧ ∀ t, next s l = some t → Always next ok t ls

theorem exec_invariant {I : S → Prop} (hI : ∀ s l t, I s → next s l = some t → I t) :
    ∀ {ls : List L} {s t : S}, I s → exec next s ls = some t → I t
  | [], s, t, hs, h => by
    cases h
    exact hs
  | l :: ls, s, t, hs, h => by
    obtain ⟨u, hu, ht⟩ := Option.bind_eq_some_iff.1 h
    exact exec_invariant hI (hI s l u hs hu) ht

variable {I H : S → Prop}

/-- Where an invariant lets every move go, a list of moves runs to its end. -/
theorem exec_total (hI : ∀ s l t, I s → next s l = some t → I t)
    (hgo : ∀ s l, I s → ∃ t, next s l = some t) :
    ∀ {s : S}, I s → ∀ ls : List L, ∃ t, exec next s ls = some t
  | s, _, [] => ⟨s, rfl⟩
  | s, hs, l :: ls => by
    obtain ⟨u, hu⟩ := hgo s l hs
    obtain ⟨t, ht⟩ := exec_total hI hgo (hI s l u hs hu) ls
    exact ⟨t, by rw [exec, hu, Option.bind_some, ht]⟩

/-- Where a move keeps a state healthy exactly if it is allowed, a run ends healthy exactly if all
its moves are. -/
theorem exec_healthy_iff (hI : ∀ s l t, I s → next s l = some t → I t ∧ (H t ↔ H s ∧ ok s l))
    (hgo : ∀ s l, I s → H s → ∃ t, next s l = some t) :
    ∀ {ls : List L} {s : S}, I s → H s →
      ((∃ t, exec next s ls = some t ∧ H t) ↔ Always next ok s ls)
  | [], s, _, hH => ⟨fun _ => trivial, fun _ => ⟨s, rfl, hH⟩⟩
  | l :: ls, s, hs, hH => by
    obtain ⟨u, hu⟩ := hgo s l hs hH
    obtain ⟨hIu, hiff⟩ := hI s l u hs hu
    rw [exec, hu, Option.bind_some, Always, hu]
    by_cases hok : ok s l
    · rw [exec_healthy_iff hI hgo hIu (hiff.2 ⟨hH, hok⟩)]
      simp [hok]
    · refine ⟨fun ⟨t, ht, hHt⟩ => ?_, fun h => absurd h.1 hok⟩
      have hsick : ∀ s l t, I s ∧ ¬ H s → next s l = some t → I t ∧ ¬ H t := fun s l t hs ht =>
        (hI s l t hs.1 ht).imp_right fun h hH => hs.2 (h.1 hH).1
      exact absurd hHt (exec_invariant hsick ⟨hIu, fun hH => hok (hiff.1 hH).2⟩ ht).2

/-- Where a law says the same of a move as being allowed, it holds along a run exactly if all moves
are allowed. -/
theorem always_congr {law : S → L → Prop} (hI : ∀ s l t, I s → ok s l → next s l = some t → I t)
    (hlaw : ∀ s l, I s → (law s l ↔ ok s l)) :
    ∀ {ls : List L} {s : S}, I s → (Always next law s ls ↔ Always next ok s ls)
  | [], _, _ => Iff.rfl
  | l :: ls, s, hs => by
    rw [Always, Always, hlaw s l hs]
    exact and_congr_right fun hok => forall₂_congr fun t ht =>
      always_congr hI hlaw (hI s l t hs hok ht)

end Always

end Effectful
