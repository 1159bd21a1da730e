import TradingBridge.Lib.Prog
import TradingBridge.Lib.Run

/-!
# Programs run side by side

`Monitored.next` is the rule for what holds in every interleaving: each running program follows a
monitor, and a relation between the shared state and the monitors is kept.
-/

namespace Effectful

open List

universe u

/-- Tasks that run programs over one shared state. -/
structure System (Req : Type u) (Resp : Req → Type) (ε : Type) (σ τ η : Type*) where
  handle : σ → (r : Req) → Resp r × σ
  code : τ → Prog Req Resp ε Unit
  start : σ → τ → Bool
  env : σ → η → Option σ

structure Thread (Req : Type u) (Resp : Req → Type) (ε : Type) (τ : Type*) where
  task : τ
  prog : Prog Req Resp ε Unit

structure Pool (Req : Type u) (Resp : Req → Type) (ε : Type) (σ τ : Type*) where
  shared : σ
  threads : List (Thread Req Resp ε τ)

/-- A move of the pool. A crash drops the thread where it stands. -/
inductive Move (τ η : Type*)
  | spawn (t : τ)
  | step (i : Nat)
  | crash (i : Nat)
  | env (e : η)

variable {Req : Type u} {Resp : Req → Type} {ε : Type} {σ τ η : Type*}

namespace System

variable (S : System Req Resp ε σ τ η)

/-- A thread that has returned has no move. -/
def stepThread (P : Pool Req Resp ε σ τ) (i : Nat) : Option (Pool Req Resp ε σ τ) :=
  match P.threads[i]? with
  | some ⟨t, .op r k⟩ =>
    some ⟨(S.handle P.shared r).2, P.threads.set i ⟨t, k (S.handle P.shared r).1⟩⟩
  | _ => none

def next (P : Pool Req Resp ε σ τ) : Move τ η → Option (Pool Req Resp ε σ τ)
  | .spawn t =>
    if S.start P.shared t then some ⟨P.shared, P.threads ++ [⟨t, S.code t⟩]⟩ else none
  | .step i => S.stepThread P i
  | .crash i => some ⟨P.shared, P.threads.eraseIdx i⟩
  | .env e => (S.env P.shared e).map fun s => ⟨s, P.threads⟩

variable {S}

theorem next_cases {P P' : Pool Req Resp ε σ τ} {m : Move τ η} (h : S.next P m = some P') :
    (∃ t, m = .spawn t ∧ S.start P.shared t = true
      ∧ P' = ⟨P.shared, P.threads ++ [⟨t, S.code t⟩]⟩)
    ∨ (∃ i t r k, m = .step i ∧ P.threads[i]? = some ⟨t, .op r k⟩
      ∧ P' = ⟨(S.handle P.shared r).2, P.threads.set i ⟨t, k (S.handle P.shared r).1⟩⟩)
    ∨ (∃ i, m = .crash i ∧ P' = ⟨P.shared, P.threads.eraseIdx i⟩)
    ∨ (∃ e s, m = .env e ∧ S.env P.shared e = some s ∧ P' = ⟨s, P.threads⟩) := by
  cases m with
  | spawn t =>
    simp only [next] at h
    split_ifs at h with hs
    exact .inl ⟨t, rfl, hs, (Option.some.inj h).symm⟩
  | step i =>
    simp only [next, stepThread] at h
    split at h
    · rename_i t r k hi
      exact .inr (.inl ⟨i, t, r, k, rfl, hi, (Option.some.inj h).symm⟩)
    · cases h
  | crash i => exact .inr (.inr (.inl ⟨i, rfl, (Option.some.inj h).symm⟩))
  | env e =>
    obtain ⟨s, hs, rfl⟩ := Option.map_eq_some_iff.1 h
    exact .inr (.inr (.inr ⟨e, s, rfl, hs, rfl⟩))

end System

section Monitored

variable {μ : Type*} {S : System Req Resp ε σ τ η} {M : Machine Req Resp μ} {T : τ → μ → Prop}
  {G : σ → List (Thread Req Resp ε τ × μ) → Prop} {P P' : Pool Req Resp ε σ τ}

/-- A thread follows the monitor from a state that fits its task. -/
def Thread.Follows (M : Machine Req Resp μ) (T : τ → μ → Prop) (th : Thread Req Resp ε τ)
    (m : μ) : Prop :=
  T th.task m ∧ th.prog.wp M (fun _ _ => True) m

/-- Each thread follows the monitor from a state of its own, and the threads with these states are
in the relation `G` with the shared state. -/
def Monitored (M : Machine Req Resp μ) (T : τ → μ → Prop)
    (G : σ → List (Thread Req Resp ε τ × μ) → Prop) (P : Pool Req Resp ε σ τ) : Prop :=
  ∃ gs : List (Thread Req Resp ε τ × μ), gs.map Prod.fst = P.threads
    ∧ (∀ g ∈ gs, g.1.Follows M T g.2) ∧ G P.shared gs

theorem Monitored.rel (h : Monitored M T G P) : ∃ gs, G P.shared gs := by
  obtain ⟨gs, -, -, hG⟩ := h
  exact ⟨_, hG⟩

theorem Monitored.may {i : Nat} {t : τ} {r : Req} {k : Resp r → Prog Req Resp ε Unit}
    (h : Monitored M T G P) (hi : P.threads[i]? = some ⟨t, .op r k⟩) : ∃ a, T t a ∧ M.may a r := by
  obtain ⟨gs, hgs, hwp, -⟩ := h
  rw [← hgs, getElem?_map, Option.map_eq_some_iff] at hi
  obtain ⟨⟨t', a⟩, hi, rfl⟩ := hi
  obtain ⟨hT, ha⟩ := hwp _ (mem_of_getElem? hi)
  exact ⟨a, hT, ha.1⟩

theorem monitored_of_no_threads (h : P.threads = []) (hG : G P.shared []) : Monitored M T G P :=
  ⟨[], h.symm, by simp, hG⟩

variable {m : Move τ η}

/-- One move of a monitored pool: only the thread that makes a request moves its monitor. -/
theorem Monitored.next (h : Monitored M T G P) (hm : S.next P m = some P')
    (hspawn : ∀ t gs, m = .spawn t → S.start P.shared t = true → G P.shared gs →
      ∃ m₀, T t m₀ ∧ (S.code t).wp M (fun _ _ => True) m₀
        ∧ G P.shared (gs ++ [(⟨t, S.code t⟩, m₀)]))
    (hstep : ∀ i t r k gs a, m = .step i → gs.map Prod.fst = P.threads →
      (∀ g ∈ gs, g.1.Follows M T g.2) → gs[i]? = some (⟨t, .op r k⟩, a) → G P.shared gs →
      ∃ a', T t a' ∧ M.next a r (S.handle P.shared r).1 a'
        ∧ G (S.handle P.shared r).2 (gs.set i (⟨t, k (S.handle P.shared r).1⟩, a')))
    (hcrash : ∀ i gs, m = .crash i → G P.shared gs → G P.shared (gs.eraseIdx i))
    (henv : ∀ e s gs, m = .env e → S.env P.shared e = some s → G P.shared gs → G s gs) :
    Monitored M T G P' := by
  obtain ⟨gs, hgs, hwp, hG⟩ := h
  obtain ⟨t, rfl, hs, rfl⟩ | ⟨i, t, r, k, rfl, hi, rfl⟩ | ⟨i, rfl, rfl⟩ | ⟨e, s, rfl, he, rfl⟩ :=
    System.next_cases hm
  · obtain ⟨m₀, hT₀, hwp₀, hG₀⟩ := hspawn t _ rfl hs hG
    refine ⟨gs ++ [(⟨t, S.code t⟩, m₀)], by simp [hgs], fun g hg => ?_, hG₀⟩
    rcases mem_append.1 hg with hg | hg
    · exact hwp g hg
    · rw [mem_singleton.1 hg]
      exact ⟨hT₀, hwp₀⟩
  · have hi' := hi
    rw [← hgs, getElem?_map, Option.map_eq_some_iff] at hi'
    obtain ⟨⟨t', a⟩, hi', rfl⟩ := hi'
    obtain ⟨a', hT', hn, hG'⟩ := hstep i t r k gs a rfl hgs hwp hi' hG
    refine ⟨gs.set i (⟨t, k (S.handle P.shared r).1⟩, a'), by simp [hgs],
      fun g hg => ?_, hG'⟩
    rcases mem_or_eq_of_mem_set hg with hg | rfl
    · exact hwp g hg
    · exact ⟨hT', (hwp _ (mem_of_getElem? hi')).2.2 _ a' hn⟩
  · exact ⟨gs.eraseIdx i, by simp [← eraseIdx_map, hgs], fun g hg =>
      hwp g (mem_of_mem_eraseIdx hg), hcrash i _ rfl hG⟩
  · exact ⟨gs, hgs, hwp, henv e s _ rfl he hG⟩

/-- A relation that looks at the monitors' states alone. -/
def onStates (G : σ → List μ → Prop) (s : σ) (gs : List (Thread Req Resp ε τ × μ)) : Prop :=
  G s (gs.map Prod.snd)

theorem Monitored.rel_states {G : σ → List μ → Prop} (h : Monitored M T (onStates G) P) :
    ∃ ms, G P.shared ms := by
  obtain ⟨gs, hG⟩ := h.rel
  exact ⟨_, hG⟩

theorem Monitored.next_states {G : σ → List μ → Prop}
    (h : Monitored M T (onStates G) P) (hm : S.next P m = some P')
    (hspawn : ∀ t ms, m = .spawn t → S.start P.shared t = true → G P.shared ms →
      ∃ m₀, T t m₀ ∧ (S.code t).wp M (fun _ _ => True) m₀ ∧ G P.shared (ms ++ [m₀]))
    (hstep : ∀ i t r k ms a, m = .step i → P.threads[i]? = some ⟨t, .op r k⟩ → ms[i]? = some a →
      T t a → G P.shared ms → M.may a r →
      ∃ a', T t a' ∧ M.next a r (S.handle P.shared r).1 a'
        ∧ G (S.handle P.shared r).2 (ms.set i a'))
    (hcrash : ∀ i ms, m = .crash i → G P.shared ms → G P.shared (ms.eraseIdx i))
    (henv : ∀ e s ms, m = .env e → S.env P.shared e = some s → G P.shared ms → G s ms) :
    Monitored M T (onStates G) P' := by
  refine h.next hm (fun t gs hm' hs hG => ?_) (fun i t r k gs a hm' hgs hwp hi hG => ?_)
    (fun i gs hm' hG => ?_) (fun e s gs hm' he hG => henv e s _ hm' he hG)
  · obtain ⟨m₀, hT, hwp, hG'⟩ := hspawn t _ hm' hs hG
    exact ⟨m₀, hT, hwp, by simpa [onStates] using hG'⟩
  · obtain ⟨hT, hmay, -⟩ := hwp _ (mem_of_getElem? hi)
    obtain ⟨a', hT', hn, hG'⟩ := hstep i t r k _ a hm' (by simp [← hgs, hi]) (by simp [hi]) hT hG
      hmay
    exact ⟨a', hT', hn, by simpa [onStates] using hG'⟩
  · have hG' := hcrash i _ hm' hG
    rw [eraseIdx_map] at hG'
    exact hG'

end Monitored

end Effectful
