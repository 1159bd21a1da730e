import Mathlib

/-!
# Effectful programs

A program over a signature of requests is a tree. `run` answers every request from a state; `wp`
follows a `Machine`, which says in each of its states which requests are allowed and which answers
may come, so that a property of all the requests a program can make is one property of the tree.
-/

namespace Effectful

universe u

/-- A program that makes requests in `Req` and returns an `α` or fails with an `ε`. -/
inductive Prog (Req : Type u) (Resp : Req → Type) (ε α : Type) : Type u
  | ret (a : α) : Prog Req Resp ε α
  | fail (e : ε) : Prog Req Resp ε α
  | op (r : Req) (k : Resp r → Prog Req Resp ε α) : Prog Req Resp ε α

/-- A monitor of programs: the requests it allows, and the answers and next states of each. -/
structure Machine (Req : Type u) (Resp : Req → Type) (μ : Type*) where
  may : μ → Req → Prop
  next : μ → (r : Req) → Resp r → μ → Prop

variable {Req : Type u} {Resp : Req → Type} {ε α β : Type}

namespace Prog

protected def bind : Prog Req Resp ε α → (α → Prog Req Resp ε β) → Prog Req Resp ε β
  | ret a, f => f a
  | fail e, _ => fail e
  | op r k, f => op r fun a => (k a).bind f

/-- Go on with `f e` where the program fails with `e`. -/
protected def tryCatch : Prog Req Resp ε α → (ε → Prog Req Resp ε α) → Prog Req Resp ε α
  | ret a, _ => ret a
  | fail e, f => f e
  | op r k, f => op r fun a => (k a).tryCatch f

instance : Monad (Prog Req Resp ε) where
  pure := ret
  bind := Prog.bind

instance : MonadExceptOf ε (Prog Req Resp ε) where
  throw := fail
  tryCatch := Prog.tryCatch

def perform (r : Req) : Prog Req Resp ε (Resp r) := op r ret

def mapEach (f : α → Prog Req Resp ε β) : List α → Prog Req Resp ε (List β)
  | [] => ret []
  | a :: as => (f a).bind fun b => (mapEach f as).bind fun bs => ret (b :: bs)

/-- Run a program, answering each request from the state. -/
def run {σ : Type*} (handle : σ → (r : Req) → Resp r × σ) : Prog Req Resp ε α → σ → Except ε α × σ
  | ret a, s => (.ok a, s)
  | fail e, s => (.error e, s)
  | op r k, s => (k (handle s r).1).run handle (handle s r).2

/-- Every request along the program is allowed, and every end it can come to meets `Q`. -/
def wp {μ : Type*} (M : Machine Req Resp μ) : Prog Req Resp ε α → (Except ε α → μ → Prop) → μ → Prop
  | ret a, Q, m => Q (.ok a) m
  | fail e, Q, m => Q (.error e) m
  | op r k, Q, m => M.may m r ∧ ∀ a m', M.next m r a m' → (k a).wp M Q m'

section Rules

variable {μ σ : Type*} {M : Machine Req Resp μ} {handle : σ → (r : Req) → Resp r × σ}

/-- After `p`, what `f` goes on with; a failure of `p` is the end. -/
def Cont (M : Machine Req Resp μ) (f : α → Prog Req Resp ε β) (Q : Except ε β → μ → Prop) :
    Except ε α → μ → Prop
  | .ok a, m => (f a).wp M Q m
  | .error e, m => Q (.error e) m

variable {Q : Except ε β → μ → Prop} {f : α → Prog Req Resp ε β}

@[simp] theorem cont_ok {a : α} {m : μ} : Cont M f Q (.ok a) m ↔ (f a).wp M Q m := Iff.rfl

theorem wp_bind : ∀ {p : Prog Req Resp ε α} {m : μ}, (p >>= f).wp M Q m ↔ p.wp M (Cont M f Q) m
  | ret _, _ => Iff.rfl
  | fail _, _ => Iff.rfl
  | op r k, m => by
    refine and_congr Iff.rfl (forall_congr' fun a => forall_congr' fun m' => ?_)
    exact imp_congr_right fun _ => wp_bind

/-- What a handler goes on with after a failure of `p`; a return of `p` is the end. -/
def Handler (M : Machine Req Resp μ) (f : ε → Prog Req Resp ε α) (Q : Except ε α → μ → Prop) :
    Except ε α → μ → Prop
  | .ok a, m => Q (.ok a) m
  | .error e, m => (f e).wp M Q m

theorem wp_tryCatch {f : ε → Prog Req Resp ε α} {Q : Except ε α → μ → Prop} :
    ∀ {p : Prog Req Resp ε α} {m : μ}, (tryCatch p f).wp M Q m ↔ p.wp M (Handler M f Q) m
  | ret _, _ => Iff.rfl
  | fail _, _ => Iff.rfl
  | op r k, m => by
    refine and_congr Iff.rfl (forall_congr' fun a => forall_congr' fun m' => ?_)
    exact imp_congr_right fun _ => wp_tryCatch

theorem wp_mono {Q Q' : Except ε α → μ → Prop} (hQ : ∀ x m, Q x m → Q' x m) :
    ∀ {p : Prog Req Resp ε α} {m : μ}, p.wp M Q m → p.wp M Q' m
  | ret _, _, h => hQ _ _ h
  | fail _, _, h => hQ _ _ h
  | op _ _, _, h => ⟨h.1, fun a m' hm => wp_mono hQ (h.2 a m' hm)⟩

theorem wp_bind_of {R : Except ε α → μ → Prop} {p : Prog Req Resp ε α} {m : μ} (hp : p.wp M R m)
    (hok : ∀ a m', R (.ok a) m' → (f a).wp M Q m')
    (herr : ∀ e m', R (.error e) m' → Q (.error e) m') : (p >>= f).wp M Q m := by
  refine wp_bind.2 (wp_mono (fun x m' hx => ?_) hp)
  cases x with
  | ok a => exact hok a m' hx
  | error e => exact herr e m' hx

theorem wp_mapEach {I : μ → Prop} {Q : Except ε (List β) → μ → Prop}
    (hok : ∀ bs m, I m → Q (.ok bs) m) : ∀ (as : List α),
    (∀ a ∈ as, ∀ m, I m → (f a).wp M (fun x m' => match x with
      | .ok _ => I m'
      | .error e => Q (.error e) m') m) →
    ∀ m, I m → (mapEach f as).wp M Q m
  | [], _, m, hm => hok [] m hm
  | a :: as, hf, m, hm => by
    have hrest : ∀ b m', I m' →
        ((mapEach f as).bind fun bs => ret (b :: bs)).wp M Q m' := fun b m' hm' =>
      wp_bind.2 (wp_mapEach (Q := Cont M (fun bs => ret (b :: bs)) Q)
        (fun bs m'' h => hok (b :: bs) m'' h) as
        (fun a' ha' => hf a' (List.mem_cons_of_mem _ ha')) m' hm')
    exact wp_bind_of (hf a List.mem_cons_self m hm) hrest fun _ _ hx => hx

@[simp] theorem run_pure (a : α) (s : σ) :
    (pure a : Prog Req Resp ε α).run handle s = (.ok a, s) := rfl

@[simp] theorem run_throw (e : ε) (s : σ) :
    (throw e : Prog Req Resp ε α).run handle s = (.error e, s) := rfl

@[simp] theorem run_perform (r : Req) (s : σ) :
    (perform r : Prog Req Resp ε (Resp r)).run handle s = (.ok (handle s r).1, (handle s r).2) :=
  rfl

theorem run_bind (f : α → Prog Req Resp ε β) : ∀ (p : Prog Req Resp ε α) (s : σ),
    (p >>= f).run handle s = match p.run handle s with
      | (.ok a, s') => (f a).run handle s'
      | (.error e, s') => (.error e, s')
  | ret _, _ => rfl
  | fail _, _ => rfl
  | op r k, s => run_bind f (k (handle s r).1) (handle s r).2

theorem run_tryCatch (f : ε → Prog Req Resp ε α) : ∀ (p : Prog Req Resp ε α) (s : σ),
    (tryCatch p f).run handle s = match p.run handle s with
      | (.ok a, s') => (.ok a, s')
      | (.error e, s') => (f e).run handle s'
  | ret _, _ => rfl
  | fail _, _ => rfl
  | op r k, s => run_tryCatch f (k (handle s r).1) (handle s r).2

/-- The machine whose states are the handler's, with just the answers it gives. -/
def serving (handle : σ → (r : Req) → Resp r × σ) : Machine Req Resp σ :=
  ⟨fun _ _ => True, fun s r a s' => a = (handle s r).1 ∧ s' = (handle s r).2⟩

theorem wp_serving {Q : Except ε α → σ → Prop} : ∀ {p : Prog Req Resp ε α} {s : σ},
    p.wp (serving handle) Q s ↔ Q (p.run handle s).1 (p.run handle s).2
  | ret _, _ => Iff.rfl
  | fail _, _ => Iff.rfl
  | op r k, s => by
    refine Iff.trans ?_ (wp_serving (p := k (handle s r).1))
    exact ⟨fun h => h.2 _ _ ⟨rfl, rfl⟩, fun h => ⟨trivial, fun a s' ⟨ha, hs⟩ => ha ▸ hs ▸ h⟩⟩

end Rules

section Follows

variable {μ : Type*} {M : Machine Req Resp μ} {p : Prog Req Resp ε α}
  {f : α → Prog Req Resp ε β} {g : ε → Prog Req Resp ε α}

/-- The program keeps to the machine from every state, whatever end it comes to. -/
def Follows (M : Machine Req Resp μ) (p : Prog Req Resp ε α) : Prop :=
  ∀ m, p.wp M (fun _ _ => True) m

theorem follows_pure (a : α) : (pure a : Prog Req Resp ε α).Follows M := fun _ => trivial

theorem follows_throw (e : ε) : (throw e : Prog Req Resp ε α).Follows M := fun _ => trivial

theorem follows_perform {r : Req} (h : ∀ m, M.may m r) :
    (perform r : Prog Req Resp ε (Resp r)).Follows M := fun m => ⟨h m, fun _ _ _ => trivial⟩

theorem follows_request {r : Req} {f : Resp r → Prog Req Resp ε β} (hmay : ∀ m, M.may m r)
    (hf : ∀ m a m', M.next m r a m' → (f a).Follows M) : (perform r >>= f).Follows M :=
  fun m => ⟨hmay m, fun a m' hn => hf m a m' hn m'⟩

theorem follows_bind (hp : p.Follows M) (hf : ∀ a, (f a).Follows M) : (p >>= f).Follows M :=
  fun m => wp_bind_of (hp m) (fun a m' _ => hf a m') fun _ _ _ => trivial

theorem follows_tryCatch (hp : p.Follows M) (hg : ∀ e, (g e).Follows M) :
    (tryCatch p g).Follows M := by
  refine fun m => wp_tryCatch.2 (wp_mono (fun x m' _ => ?_) (hp m))
  cases x with
  | ok a => trivial
  | error e => exact hg e m'

theorem follows_mapEach {as : List α} (hf : ∀ a ∈ as, (f a).Follows M) :
    (mapEach f as).Follows M := fun m =>
  wp_mapEach (I := fun _ => True) (fun _ _ _ => trivial) as (fun a ha m _ =>
    wp_mono (fun x _ _ => by cases x <;> trivial) (hf a ha m)) m trivial

end Follows

section Asks

/-- The machine that looks at the requests only, with the answers that meet `A`. -/
def asking (S : Req → Prop) (A : (r : Req) → Resp r → Prop) : Machine Req Resp Unit :=
  ⟨fun _ r => S r, fun _ r a _ => A r a⟩

/-- Every request the program can make is in `S`. -/
def AsksIn (S : Req → Prop) (p : Prog Req Resp ε α) : Prop :=
  p.wp (asking S fun _ _ => True) (fun _ _ => True) ()

/-- As long as the answers meet `A`, every request is in `S` and what is returned meets `P`. -/
def Yields (S : Req → Prop) (A : (r : Req) → Resp r → Prop) (P : α → Prop)
    (p : Prog Req Resp ε α) : Prop :=
  p.wp (asking S A) (fun x _ => ∀ a, x = .ok a → P a) ()

variable {S S' : Req → Prop} {A : (r : Req) → Resp r → Prop} {P P' : α → Prop} {μ σ : Type*}

@[simp] theorem asksIn_pure (a : α) : (pure a : Prog Req Resp ε α).AsksIn S := trivial

@[simp] theorem asksIn_throw (e : ε) : (throw e : Prog Req Resp ε α).AsksIn S := trivial

@[simp] theorem asksIn_perform (r : Req) : (perform r : Prog Req Resp ε (Resp r)).AsksIn S ↔ S r :=
  ⟨fun h => h.1, fun h => ⟨h, fun _ _ _ => trivial⟩⟩

variable {p : Prog Req Resp ε α} {f : α → Prog Req Resp ε β} {g : ε → Prog Req Resp ε α}
  {M : Machine Req Resp μ} {as : List α} {handle : σ → (r : Req) → Resp r × σ} {E : ε → Prop}

theorem asksIn_bind (hp : p.AsksIn S) (hf : ∀ a, (f a).AsksIn S) : (p >>= f).AsksIn S :=
  follows_bind (fun _ => hp) (fun a _ => hf a) ()

theorem asksIn_map (f : α → β) (hp : p.AsksIn S) : (f <$> p).AsksIn S :=
  asksIn_bind hp fun _ => asksIn_pure _

theorem asksIn_tryCatch (hp : p.AsksIn S) (hg : ∀ e, (g e).AsksIn S) : (tryCatch p g).AsksIn S :=
  follows_tryCatch (fun _ => hp) (fun e _ => hg e) ()

theorem asksIn_mapEach (hf : ∀ a ∈ as, (f a).AsksIn S) : (mapEach f as).AsksIn S :=
  follows_mapEach (fun a ha _ => hf a ha) ()

theorem asksIn_mono (hS : ∀ r, S r → S' r) : ∀ {p : Prog Req Resp ε α}, p.AsksIn S → p.AsksIn S'
  | ret _, _ => trivial
  | fail _, _ => trivial
  | op r _, h => ⟨hS r h.1, fun a _ _ => asksIn_mono hS (h.2 a () trivial)⟩

theorem AsksIn.yields : ∀ {p : Prog Req Resp ε α}, p.AsksIn S → p.Yields S A fun _ => True
  | ret _, _ => fun _ _ => trivial
  | fail _, _ => fun _ _ => trivial
  | op _ _, h => ⟨h.1, fun a _ _ => AsksIn.yields (h.2 a () trivial)⟩

theorem Follows.yields (h : p.Follows (asking S A)) : p.Yields S A fun _ => True :=
  wp_mono (fun _ _ _ _ _ => trivial) (h ())

theorem Yields.follows_asking (h : p.Yields S A P) : p.Follows (asking S A) :=
  fun _ => wp_mono (fun _ _ _ => trivial) h

theorem yields_pure {a : α} (h : P a) : (pure a : Prog Req Resp ε α).Yields S A P :=
  fun _ hb => Except.ok.inj hb ▸ h

theorem yields_throw (e : ε) : (throw e : Prog Req Resp ε α).Yields S A P :=
  fun _ hb => nomatch hb

theorem yields_perform {r : Req} (hr : S r) :
    (perform r : Prog Req Resp ε (Resp r)).Yields S A (A r) :=
  ⟨hr, fun _ _ ha _ hb => Except.ok.inj hb ▸ ha⟩

theorem yields_bind {P' : β → Prop} (hp : p.Yields S A P)
    (hf : ∀ a, P a → (f a).Yields S A P') : (p >>= f).Yields S A P' :=
  wp_bind_of hp (fun a _ hx => hf a (hx a rfl)) fun _ _ _ _ hb => nomatch hb

theorem Yields.asksIn_bind (hp : p.Yields S (fun _ _ => True) P)
    (hf : ∀ a, P a → (f a).AsksIn S) : (p >>= f).AsksIn S :=
  wp_bind_of hp (fun a _ hx => hf a (hx a rfl)) fun _ _ _ => trivial

theorem yields_tryCatch (hp : p.Yields S A P) (hg : ∀ e, (g e).Yields S A P) :
    (tryCatch p g).Yields S A P := by
  refine wp_tryCatch.2 (wp_mono (fun x _ hx => ?_) hp)
  cases x with
  | ok a => exact hx
  | error e => exact hg e

theorem Yields.mono (hS : ∀ r, S r → S' r) (hP : ∀ a, P a → P' a) :
    ∀ {p : Prog Req Resp ε α}, p.Yields S A P → p.Yields S' A P'
  | ret _, h => fun a ha => hP a (h a ha)
  | fail _, h => fun a ha => hP a (h a ha)
  | op r _, h => ⟨hS r h.1, fun a _ ha => Yields.mono hS hP (h.2 a () ha)⟩

/-- A machine that allows the requests in `S` and stays in `I` follows a program in `S`. -/
theorem Yields.wp {I : μ → Prop} (hmay : ∀ m r, I m → S r → M.may m r)
    (hkeep : ∀ m r a m', I m → S r → M.next m r a m' → I m' ∧ A r a)
    {Q : Except ε α → μ → Prop} (hok : ∀ a m, P a → I m → Q (.ok a) m)
    (herr : ∀ e m, I m → Q (.error e) m) :
    ∀ {p : Prog Req Resp ε α} {m : μ}, p.Yields S A P → I m → p.wp M Q m
  | ret a, m, h, hm => hok a m (h a rfl) hm
  | fail e, m, _, hm => herr e m hm
  | op r _, m, h, hm => ⟨hmay m r hm h.1, fun a m' hn => by
      obtain ⟨hm', ha⟩ := hkeep m r a m' hm h.1 hn
      exact Yields.wp hmay hkeep hok herr (h.2 a () ha) hm'⟩

theorem Yields.follows (hmay : ∀ m r, S r → M.may m r)
    (hans : ∀ m r a m', S r → M.next m r a m' → A r a)
    (hp : p.Yields S A P) : p.Follows M := fun _ =>
  hp.wp (fun m r _ hr => hmay m r hr)
    (fun m r a m' _ hr hn => ⟨trivial, hans m r a m' hr hn⟩) (fun _ _ _ _ => trivial)
    (fun _ _ _ => trivial) trivial

theorem AsksIn.follows (hmay : ∀ m r, S r → M.may m r) (hp : p.AsksIn S) : p.Follows M :=
  (hp.yields).follows hmay fun _ _ _ _ _ _ => trivial

theorem Yields.and {S₂ : Req → Prop} : ∀ {p : Prog Req Resp ε α}, p.Yields S A P → p.AsksIn S₂ →
    p.Yields (fun r => S r ∧ S₂ r) A P
  | ret _, h, _ => h
  | fail _, h, _ => h
  | op _ _, h, h₂ => ⟨⟨h.1, h₂.1⟩, fun a _ ha => Yields.and (h.2 a () ha) (h₂.2 a () trivial)⟩

/-- What every request in `S` leaves alone, a program that stays in `S` leaves alone. -/
theorem run_frame {φ : Type*} {f : σ → φ} (hf : ∀ s r, S r → f (handle s r).2 = f s) :
    ∀ {p : Prog Req Resp ε α} {s : σ}, p.AsksIn S → f (p.run handle s).2 = f s
  | ret _, _, _ => rfl
  | fail _, _, _ => rfl
  | op r _, s, h => (run_frame hf (h.2 _ () trivial)).trans (hf s r h.1)

theorem asksIn_all (hS : ∀ r, S r) : ∀ p : Prog Req Resp ε α, p.AsksIn S
  | ret _ => trivial
  | fail _ => trivial
  | op r k => ⟨hS r, fun a _ _ => asksIn_all hS (k a)⟩

theorem run_keeps {I : σ → Prop} (hI : ∀ s r, S r → I s → I (handle s r).2) :
    ∀ {p : Prog Req Resp ε α} {s : σ}, p.AsksIn S → I s → I (p.run handle s).2
  | ret _, _, _, hs => hs
  | fail _, _, _, hs => hs
  | op r k, s, h, hs =>
    run_keeps (p := k (handle s r).1) hI (h.2 _ () trivial) (hI s r h.1 hs)

def Total (p : Prog Req Resp ε α) : Prop :=
  p.wp (asking (fun _ => True) fun _ _ => True) (fun x _ => ∃ a, x = .ok a) ()

theorem total_pure (a : α) : (pure a : Prog Req Resp ε α).Total := ⟨a, rfl⟩

theorem total_bind (hp : p.Total) (hf : ∀ a, (f a).Total) : (p >>= f).Total := by
  refine wp_bind.2 (wp_mono (fun x _ hx => ?_) hp)
  obtain ⟨a, rfl⟩ := hx
  exact hf a

theorem total_tryCatch (p : Prog Req Resp ε α) (hg : ∀ e, (g e).Total) :
    (tryCatch p g).Total := by
  refine wp_tryCatch.2 (wp_mono (fun x _ _ => ?_) (asksIn_all (fun _ => trivial) p))
  cases x with
  | ok a => exact ⟨a, rfl⟩
  | error e => exact hg e

theorem total_mapEach (hf : ∀ a ∈ as, (f a).Total) : (mapEach f as).Total :=
  wp_mapEach (I := fun _ => True) (fun bs _ _ => ⟨bs, rfl⟩) as (fun a ha _ _ =>
    wp_mono (fun x _ hx => by
      obtain ⟨b, rfl⟩ := hx
      trivial) (hf a ha)) () trivial

theorem Total.run : ∀ {p : Prog Req Resp ε α}, p.Total → ∀ s, ∃ a, (p.run handle s).1 = .ok a
  | ret a, _, _ => ⟨a, rfl⟩
  | fail _, h, _ => by
    obtain ⟨a, ha⟩ := h
    cases ha
  | op r k, h, s => Total.run (h.2 _ () trivial) _

def Raises (P : ε → Prop) (p : Prog Req Resp ε α) : Prop :=
  p.wp (asking (fun _ => True) fun _ _ => True) (fun x _ => ∀ e, x = .error e → P e) ()

theorem raises_pure (a : α) : (pure a : Prog Req Resp ε α).Raises E := fun _ h => nomatch h

theorem raises_throw {e : ε} (h : E e) : (throw e : Prog Req Resp ε α).Raises E :=
  fun _ he => Except.error.inj he ▸ h

theorem raises_perform (r : Req) : (perform r : Prog Req Resp ε (Resp r)).Raises E :=
  ⟨trivial, fun _ _ _ _ h => nomatch h⟩

theorem raises_bind (hp : p.Raises E) (hf : ∀ a, (f a).Raises E) : (p >>= f).Raises E :=
  wp_bind_of hp (fun a _ _ => hf a) fun _ _ hx e' he => hx e' (by rw [Except.error.inj he])

theorem Raises.run :
    ∀ {p : Prog Req Resp ε α}, p.Raises E → ∀ s e, (p.run handle s).1 = .error e → E e
  | ret _, _, _, _, h => nomatch h
  | fail _, hp, _, e, h => hp e h
  | op r k, hp, s, e, h => Raises.run (p := k (handle s r).1) (hp.2 _ () trivial) _ e h

/-- What one round brings about and every request keeps holds after a loop without failures. -/
theorem run_mapEach_of_mem {I J : σ → Prop} (hI : ∀ s r, I s → I (handle s r).2)
    (hJ : ∀ s r, J s → J (handle s r).2) {a : α} (hround : ∀ s, I s → J ((f a).run handle s).2) :
    ∀ {as : List α} {s : σ}, (∀ b ∈ as, (f b).Total) → a ∈ as → I s →
      J ((mapEach f as).run handle s).2
  | b :: as, s, hok, ha, hs => by
    have hkeepI := run_keeps (p := f b) (fun s r _ => hI s r) (asksIn_all (fun _ => trivial) _) hs
    obtain ⟨x, hx⟩ := (hok b List.mem_cons_self).run s
    have hrun : (f b).run handle s = (.ok x, ((f b).run handle s).2) := Prod.ext hx rfl
    have hloop : ((mapEach f (b :: as)).run handle s).2
        = ((mapEach f as >>= fun xs => pure (x :: xs)).run handle
          ((f b).run handle s).2).2 := by
      change ((f b >>= fun x => mapEach f as >>= fun xs => pure (x :: xs)).run handle s).2 = _
      rw [run_bind, hrun]
    rw [hloop]
    rcases List.mem_cons.1 ha with rfl | ha
    · exact run_keeps (fun s r _ => hJ s r) (asksIn_all (fun _ => trivial) _) (hround s hs)
    · rw [run_bind]
      have hrest := run_mapEach_of_mem hI hJ hround
        (fun b' hb' => hok b' (List.mem_cons_of_mem _ hb')) ha hkeepI
      split <;> rename_i h <;> rw [h] at hrest <;> exact hrest

end Asks

end Prog

end Effectful
