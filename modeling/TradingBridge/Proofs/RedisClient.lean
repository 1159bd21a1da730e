import TradingBridge.RedisClient

/-!
# What the counters and flags add up to

The limiter's counter lives on as long as requests keep coming, so what it counts is a streak
(`rate_limit_fair_iff`). A call that adds to the day's total loses what is written between its read
and its write (`no_fill_lost_iff`). The record of a trip outlives both resets
(`reset_clears_trip_iff`).
-/

namespace TradingBridge.Redis

open Expiring List Function

section RateLimit

variable (limit : RateLimit) (key : String)

variable (requests : List (ℕ × String))

/-- The counters after requests, each a time and a key. -/
def counters : Store String ℕ :=
  requests.foldl (fun redis r => (rateLimitCheck limit redis r.1 r.2).2) .empty

/-- No request of the key is refused. -/
def NoneRefused : Prop :=
  ∀ before r, before ++ [r] <+: requests → r.2 = key →
    (rateLimitCheck limit (counters limit before) r.1 r.2).1 = true

def timesOf : List ℕ :=
  (requests.filter (·.2 = key)).map (·.1)

/-- No window has more requests of the key than the limit allows. -/
def InRate : Prop :=
  ∀ t, ((timesOf key requests).filter fun x =>
    t ≤ x ∧ x < t + limit.windowSeconds * 1000).length ≤ limit.maxRequests

/-- How many of the times, the last one first, follow each other within less than a window. -/
def streak (window : ℕ) : List ℕ → ℕ
  | [] => 0
  | [_] => 1
  | t :: s :: times => if t < s + window then streak window (s :: times) + 1 else 1

variable {limit key}

theorem timesOf_concat (r : ℕ × String) :
    timesOf key (requests ++ [r]) = timesOf key requests ++ if r.2 = key then [r.1] else [] := by
  unfold timesOf
  split_ifs with h <;> simp [h]

/-- The counter of a key is the streak of its requests, and lapses a window after the last. -/
theorem counters_slot (requests : List (ℕ × String)) : (counters limit requests).slot key =
    match (timesOf key requests).reverse with
    | [] => none
    | t :: times => some (streak (limit.windowSeconds * 1000) (t :: times),
        some (t + limit.windowSeconds * 1000)) := by
  induction requests using reverseRecOn with
  | nil => rfl
  | append_singleton requests r ih =>
    rw [counters, foldl_append, foldl_cons, foldl_nil, ← counters, timesOf_concat]
    by_cases hr : r.2 = key
    · subst hr
      simp only [rateLimitCheck, Store.setEx, update_self, Store.get, ih,
        if_true, reverse_append, reverse_singleton, singleton_append]
      rcases (timesOf r.2 requests).reverse with - | ⟨t, times⟩
      · rfl
      · simp only [Store.live, streak]
        split_ifs <;> rfl
    · rw [if_neg hr, append_nil, ← ih]
      exact update_of_ne (Ne.symm hr) _ _

theorem allowed_iff (now : ℕ) : (rateLimitCheck limit (counters limit requests) now key).1 = true ↔
      streak (limit.windowSeconds * 1000) (now :: (timesOf key requests).reverse) ≤
        limit.maxRequests := by
  unfold rateLimitCheck Store.get
  rw [counters_slot]
  rcases (timesOf key requests).reverse with - | ⟨t, times⟩
  · simp [Store.live, streak]
  · simp only [Store.live, streak]
    split_ifs <;> simp

theorem noneRefused_iff (requests : List (ℕ × String)) : NoneRefused limit key requests ↔
    ∀ times, times <+: timesOf key requests →
      streak (limit.windowSeconds * 1000) times.reverse ≤ limit.maxRequests := by
  induction requests using reverseRecOn with
  | nil => simp [NoneRefused, timesOf, streak]
  | append_singleton requests r ih =>
    have hlast : NoneRefused limit key (requests ++ [r]) ↔ NoneRefused limit key requests ∧
        (r.2 = key → (rateLimitCheck limit (counters limit requests) r.1 r.2).1 = true) := by
      constructor
      · intro h
        exact ⟨fun before q hq => h before q (hq.trans (prefix_append _ _)),
          h requests r (prefix_refl _)⟩
      · rintro ⟨h, hr⟩ before q hq
        rcases prefix_concat_iff.1 hq with heq | hq
        · obtain ⟨rfl, hlast⟩ := append_inj' heq rfl
          obtain rfl := singleton_inj.1 hlast
          exact hr
        · exact h before q hq
    rw [hlast, ih, timesOf_concat]
    by_cases hr : r.2 = key
    · subst hr
      rw [if_pos rfl, allowed_iff]
      simp only [prefix_concat_iff, or_imp, forall_and, forall_eq, reverse_append,
        true_implies]
      exact and_comm
    · simp [hr]

/-- A key that keeps to its rate is never refused exactly if no streak is longer than the limit. -/
theorem rate_limit_fair_iff (limit : RateLimit) (key : String) (requests : List (ℕ × String)) :
    (InRate limit key requests → NoneRefused limit key requests) ↔
      (InRate limit key requests → ∀ times, times <+: timesOf key requests →
        streak (limit.windowSeconds * 1000) times.reverse ≤ limit.maxRequests) :=
  imp_congr_right fun _ => noneRefused_iff requests

/-- Two requests a minute are allowed, and three come forty seconds apart. -/
theorem steady_client_refused :
    InRate ⟨2, 60, by decide, by decide⟩ "hook" [(0, "hook"), (40000, "hook"), (80000, "hook")] ∧
      ¬ NoneRefused ⟨2, 60, by decide, by decide⟩ "hook"
        [(0, "hook"), (40000, "hook"), (80000, "hook")] := by
  constructor
  · intro t
    have htimes : timesOf "hook" [(0, "hook"), (40000, "hook"), (80000, "hook")] =
        [0, 40000, 80000] := by decide
    rw [htimes]
    simp only [filter_cons]
    split_ifs <;> simp_all
  · intro h
    exact absurd (h [(0, "hook"), (40000, "hook")] (80000, "hook") (prefix_refl _) rfl)
      (by decide)

end RateLimit

section DailyPnl

variable {ι : Type*} [DecidableEq ι]

/-- The calls after a schedule of their commands, from a stored total. -/
def afterCalls (delta : ι → ℚ) (previous : Option ℚ) (schedule : List ι) : PnlState ι :=
  schedule.foldl (incrementDailyPnl delta) ⟨previous, fun _ => .start⟩

def PnlCall.written : PnlCall → ℚ → ℚ
  | .done, amount => amount
  | _, _ => 0

/-- The amounts of the calls that have written. -/
def PnlState.booked [Fintype ι] (delta : ι → ℚ) (s : PnlState ι) : ℚ :=
  ∑ i, (s.call i).written (delta i)

/-- Every write is by a call that has read since the write before it. -/
def Unbroken (seen fresh : List ι) : List ι → Prop
  | [] => True
  | i :: schedule =>
    match seen.count i with
    | 0 => Unbroken (i :: seen) (i :: fresh) schedule
    | 1 => i ∈ fresh ∧ Unbroken (i :: seen) [] schedule
    | _ => Unbroken (i :: seen) fresh schedule

/-- How many commands of a call have run. -/
def PnlCall.Ran : PnlCall → ℕ → Prop
  | .start, n => n = 0
  | .read _, n => n = 1
  | .done, n => 2 ≤ n

variable {delta : ι → ℚ} {s : PnlState ι} {seen fresh schedule : List ι} {c : ℚ}

variable {call : PnlCall}

theorem ran_update (h : ∀ j, (s.call j).Ran (seen.count j)) {i : ι}
    (hcall : call.Ran (seen.count i + 1)) (j : ι) :
    (Function.update s.call i call j).Ran ((i :: seen).count j) := by
  by_cases hij : j = i
  · subst hij
    rwa [update_self, count_cons_self]
  · rw [update_of_ne hij, count_cons_of_ne (Ne.symm hij)]
    exact h j

theorem reads_update {P : ι → ℚ → Prop} {stored : Option ℚ} {i : ι}
    (h : ∀ j v, s.call j = .read v → j ≠ i → P j v) (hi : ∀ v, call = .read v → P i v) (j : ι)
    (v : ℚ) (hj : (⟨stored, Function.update s.call i call⟩ : PnlState ι).call j = .read v) :
    P j v := by
  by_cases hij : j = i
  · subst hij
    exact hi v ((update_self ..).symm.trans hj)
  · exact h j v ((update_of_ne hij ..).symm.trans hj) hij

variable [Fintype ι]

theorem booked_update (stored : Option ℚ) (s : PnlState ι) (i : ι) (call : PnlCall) :
    (⟨stored, Function.update s.call i call⟩ : PnlState ι).booked delta =
      s.booked delta - (s.call i).written (delta i) + call.written (delta i) := by
  unfold PnlState.booked
  dsimp only
  rw [← Finset.add_sum_erase _ _ (Finset.mem_univ i),
    ← Finset.add_sum_erase _ (fun j => (s.call j).written (delta j)) (Finset.mem_univ i),
    update_self, Finset.sum_congr rfl fun j hj => by
      rw [update_of_ne (Finset.ne_of_mem_erase hj)]]
  ring

variable (delta fresh schedule) in
theorem turn_cases (hran : ∀ j, (s.call j).Ran (seen.count j)) (i : ι) :
    let s' := incrementDailyPnl delta s i
    (∀ j, (s'.call j).Ran ((i :: seen).count j)) ∧
      ((s' = ⟨s.stored, Function.update s.call i (.read (s.dailyPnl + delta i))⟩ ∧
          s'.booked delta = s.booked delta ∧
          (Unbroken seen fresh (i :: schedule) ↔ Unbroken (i :: seen) (i :: fresh) schedule)) ∨
        (∃ newTotal, s.call i = .read newTotal ∧
          s' = ⟨some newTotal, Function.update s.call i .done⟩ ∧
          s'.booked delta = s.booked delta + delta i ∧
          (Unbroken seen fresh (i :: schedule) ↔
            i ∈ fresh ∧ Unbroken (i :: seen) [] schedule)) ∨
        (s' = s ∧
          (Unbroken seen fresh (i :: schedule) ↔ Unbroken (i :: seen) fresh schedule))) := by
  have hi := hran i
  rw [Unbroken]
  unfold incrementDailyPnl
  cases hcall : s.call i with
  | start =>
    rw [hcall] at hi
    rw [show seen.count i = 0 from hi]
    refine ⟨ran_update hran (by rw [hi]; rfl), .inl ⟨rfl, ?_, Iff.rfl⟩⟩
    simp [booked_update, hcall, PnlCall.written]
  | read newTotal =>
    rw [hcall] at hi
    rw [show seen.count i = 1 from hi]
    refine ⟨ran_update hran (by rw [hi]; exact le_rfl),
      .inr (.inl ⟨newTotal, rfl, rfl, ?_, Iff.rfl⟩)⟩
    simp [booked_update, hcall, PnlCall.written]
  | done =>
    rw [hcall] at hi
    obtain ⟨n, hn⟩ := Nat.exists_eq_add_of_le' (show 2 ≤ seen.count i from hi)
    have hdone : ∀ j, (Function.update s.call i .done j).Ran _ :=
      ran_update hran (Nat.le_succ_of_le hi)
    rw [← hcall, Function.update_eq_self] at hdone
    rw [hn]
    exact ⟨hdone, .inr (.inr ⟨rfl, Iff.rfl⟩)⟩

/-- Where every write follows its read, no amount is lost. -/
theorem total_of_unbroken (hran : ∀ i, (s.call i).Ran (seen.count i))
    (hfresh : ∀ i ∈ fresh, s.call i = .read (s.dailyPnl + delta i))
    (htotal : s.dailyPnl = c + s.booked delta) (h : Unbroken seen fresh schedule) :
    (schedule.foldl (incrementDailyPnl delta) s).dailyPnl =
      c + (schedule.foldl (incrementDailyPnl delta) s).booked delta := by
  induction schedule generalizing s seen fresh with
  | nil => exact htotal
  | cons i schedule ih =>
    obtain ⟨hran', hcases⟩ := turn_cases delta fresh schedule hran i
    rw [foldl_cons]
    rcases hcases with ⟨heq, hbooked, hiff⟩ | ⟨newTotal, hcall, heq, hbooked, hiff⟩ | ⟨heq, hiff⟩
    · refine ih hran' (fun j hj => ?_) (by rw [hbooked, heq]; exact htotal) (hiff.1 h)
      rw [heq]
      by_cases hij : j = i
      · rw [hij]
        exact update_self _ _ _
      · exact (update_of_ne hij _ _).trans
          (hfresh j ((mem_cons.1 hj).resolve_left hij))
    · obtain ⟨hi, hrest⟩ := hiff.1 h
      refine ih hran' (by simp) ?_ hrest
      rw [hbooked, heq, ← add_assoc, ← htotal]
      exact PnlCall.read.inj (hcall.symm.trans (hfresh i hi))
    · rw [heq] at hran' ⊢
      exact ih hran' hfresh htotal (hiff.1 h)

variable (schedule c) in
/-- Where every call adds one, a total that is behind stays behind. -/
theorem behind_foldl (hran : ∀ i, (s.call i).Ran (seen.count i))
    (hbehind : s.dailyPnl + 1 ≤ c + s.booked 1)
    (hreads : ∀ i v, s.call i = .read v → v ≤ c + s.booked 1) :
    (schedule.foldl (incrementDailyPnl 1) s).dailyPnl + 1 ≤
      c + (schedule.foldl (incrementDailyPnl 1) s).booked 1 := by
  induction schedule generalizing s seen with
  | nil => exact hbehind
  | cons i schedule ih =>
    obtain ⟨hran', hcases⟩ := turn_cases 1 [] schedule hran i
    rw [List.foldl_cons]
    rcases hcases with ⟨heq, hbooked, -⟩ | ⟨newTotal, hcall, heq, hbooked, -⟩ | ⟨heq, -⟩
    · refine ih hran' ?_ ?_ <;> rw [hbooked, heq]
      · exact hbehind
      · exact reads_update (fun j v hj _ => hreads j v hj) fun v hv => PnlCall.read.inj hv ▸ hbehind
    · have hnew := hreads i newTotal hcall
      refine ih hran' ?_ ?_ <;> rw [hbooked, heq, Pi.one_apply, ← add_assoc]
      · exact add_le_add_left hnew 1
      · exact reads_update (fun j v hj _ => (hreads j v hj).trans (by linarith)) nofun
    · rw [heq] at hran' ⊢
      exact ih hran' hbehind hreads

theorem unbroken_of_total (hran : ∀ i, (s.call i).Ran (seen.count i))
    (htotal : s.dailyPnl = c + s.booked 1)
    (hfresh : ∀ i v, s.call i = .read v →
      v ≤ c + s.booked 1 ∨ i ∈ fresh ∧ v = c + s.booked 1 + 1)
    (h : (schedule.foldl (incrementDailyPnl 1) s).dailyPnl =
      c + (schedule.foldl (incrementDailyPnl 1) s).booked 1) : Unbroken seen fresh schedule := by
  induction schedule generalizing s seen fresh with
  | nil => trivial
  | cons i schedule ih =>
    obtain ⟨hran', hcases⟩ := turn_cases 1 fresh schedule hran i
    rw [foldl_cons] at h
    rcases hcases with ⟨heq, hbooked, hiff⟩ | ⟨newTotal, hcall, heq, hbooked, hiff⟩ | ⟨heq, hiff⟩
    · refine hiff.2 (ih hran' ?_ ?_ h) <;> rw [hbooked, heq]
      · exact htotal
      · refine reads_update (fun j v hj _ => ?_) fun v hv => .inr ⟨mem_cons_self, ?_⟩
        · exact (hfresh j v hj).imp_right fun hj => ⟨mem_cons_of_mem i hj.1, hj.2⟩
        · rw [← PnlCall.read.inj hv, htotal]
          rfl
    · have hreads : ∀ j v, s.call j = .read v → v ≤ c + (s.booked 1 + 1) := by
        intro j v hj
        rcases hfresh j v hj with hv | ⟨-, hv⟩ <;> linarith
      rcases hfresh i newTotal hcall with hv | ⟨hi, hv⟩
      · have hlost := behind_foldl schedule c hran'
          (by rw [hbooked, heq, ← add_assoc]; exact add_le_add_left hv 1)
          (by rw [hbooked, heq]; exact reads_update (fun j v hj _ => hreads j v hj) nofun)
        linarith
      · refine hiff.2 ⟨hi, ih hran' ?_ ?_ h⟩ <;> rw [hbooked, heq]
        · exact hv.trans (add_assoc _ _ _)
        · exact reads_update (fun j v hj _ => .inl (hreads j v hj)) nofun
    · rw [heq] at hran' h
      exact hiff.2 (ih hran' htotal hfresh h)

/-- A schedule keeps every amount exactly if no call writes over a total written after it read. -/
theorem no_fill_lost_iff (schedule : List ι) :
    (∀ previous delta, (afterCalls delta previous schedule).dailyPnl =
      previous.getD 0 + (afterCalls delta previous schedule).booked delta) ↔
      Unbroken [] [] schedule := by
  have hstart : ∀ (delta : ι → ℚ) previous,
      (⟨previous, fun _ => .start⟩ : PnlState ι).booked delta = 0 := fun delta previous =>
    Finset.sum_eq_zero fun i _ => rfl
  have hran : ∀ i : ι, PnlCall.start.Ran (List.count i []) := fun _ => count_nil
  constructor
  · intro h
    refine unbroken_of_total hran ?_ (fun _ _ hread => ?_) (h none 1)
    · rw [hstart, add_zero]
      rfl
    · cases hread
  · intro h previous delta
    exact total_of_unbroken hran (by simp) (by rw [hstart, add_zero]; rfl) h

/-- Both calls read before either writes: a profit of 500 is lost to a loss of 300. -/
theorem concurrent_fill_lost :
    let s := afterCalls (fun loss : Bool => if loss then -300 else 500) none
      [false, true, false, true]
    s.dailyPnl = -300 ∧ s.booked (fun loss => if loss then -300 else 500) = 200 := by
  decide +kernel

end DailyPnl

section Trips

variable {s s' : State} {user : String}

/-- What the store keeps of a user's trips: nothing, or the record of the last one. -/
structure Recorded (s : State) (user : String) : Prop where
  past : ∀ e ∈ s.events, e.2 ≤ s.now
  last : (s.redis.slot (cacheKey (tripMetaKey user)) = none ∧ ∀ t, (user, t) ∉ s.events) ∨
    ∃ t reason, s.redis.slot (cacheKey (tripMetaKey user)) =
        some (.tripMeta t reason, some (t + daySeconds)) ∧
      (user, t) ∈ s.events ∧ ∀ t', (user, t') ∈ s.events → t' ≤ t

theorem Recorded.of_eq (h : Recorded s user) (hevents : s'.events = s.events)
    (hnow : s.now ≤ s'.now) (hslot : s'.redis.slot (cacheKey (tripMetaKey user)) =
      s.redis.slot (cacheKey (tripMetaKey user))) : Recorded s' user := by
  obtain ⟨hpast, hlast⟩ := h
  refine ⟨?_, ?_⟩
  · rw [hevents]
    exact fun e he => (hpast e he).trans hnow
  · rw [hslot, hevents]
    exact hlast

theorem recorded_start : Recorded .start user :=
  ⟨nofun, .inl ⟨rfl, nofun⟩⟩

theorem manualReset_slot {token : String} (h : s.manualReset user token = some s') :
    s'.events = s.events ∧ s'.now = s.now ∧ s'.redis.slot (killKey user) = none ∧
      ∀ v, s'.redis.slot (cacheKey (tripMetaKey v)) = s.redis.slot (cacheKey (tripMetaKey v)) ∧
        (v ≠ user → s'.redis.slot (killKey v) = s.redis.slot (killKey v)) := by
  unfold State.manualReset at h
  split at h
  · split_ifs at h
    cases h
    refine ⟨rfl, rfl, ?_, fun v => ⟨?_, fun hv => ?_⟩⟩
    all_goals simp_all [State.delete, State.setEx, Store.del, Store.setEx,
      cacheKey, tripMetaKey, killKey, resetTokenKey, pnlKey, tradesKey]
  · cases h

theorem recorded_apply (op : Op) (h : Recorded s user) : Recorded (op.apply s) user := by
  cases op with
  | trip v reason =>
    have hpast : ∀ e ∈ s.events ++ [(v, s.now)], e.2 ≤ s.now := fun e he =>
      (mem_append.1 he).elim (h.past e) fun he => mem_singleton.1 he ▸ le_rfl
    by_cases hv : user = v
    · subst hv
      refine ⟨hpast, .inr ⟨s.now, reason, update_self .., ?_, fun t ht => hpast _ ht⟩⟩
      exact mem_append_right _ (mem_singleton_self _)
    · refine ⟨hpast, ?_⟩
      simpa [Op.apply, State.trip, State.set, State.setEx, Store.set, Store.setEx,
        cacheKey, tripMetaKey, killKey, hv] using h.last
  | manualReset v token =>
    change Recorded ((s.manualReset v token).getD s) user
    rcases hreset : s.manualReset v token with - | s'
    · exact h
    · obtain ⟨hevents, hnow, -, hslot⟩ := manualReset_slot hreset
      exact h.of_eq hevents hnow.ge (hslot user).1
  | tick seconds => exact h.of_eq rfl (Nat.le_add_right _ _) rfl
  | _ =>
    refine h.of_eq rfl le_rfl ?_
    simp [Op.apply, State.setEx, State.delete, State.incrementDailyTrades, State.dailyResetAll,
      Store.setEx, Store.del, cacheKey, tripMetaKey, configCacheKey, pnlKey,
      tradesKey, resetTokenKey]

theorem recorded_run (ops : List Op) (user : String) :
    Recorded (ops.foldl Op.apply .start) user := by
  induction ops using reverseRecOn with
  | nil => exact recorded_start
  | append_singleton ops op ih =>
    rw [foldl_append]
    exact recorded_apply op ih

def State.Clear (s : State) (user : String) : Prop := s.getStatus user = ⟨.active, none, none⟩

theorem clear_iff (h : Recorded s user) (hnow : s'.now = s.now)
    (hkill : s'.redis.slot (killKey user) = none)
    (hslot : s'.redis.slot (cacheKey (tripMetaKey user)) =
      s.redis.slot (cacheKey (tripMetaKey user))) :
    s'.Clear user ↔ ∀ t, (user, t) ∈ s.events → t + daySeconds ≤ s.now := by
  unfold State.Clear State.getStatus Store.get
  rw [hkill, hslot, hnow]
  rcases h.last with ⟨hnone, hno⟩ | ⟨t, reason, hsome, ht, hlast⟩
  · rw [hnone]
    exact iff_of_true rfl fun t ht => absurd ht (hno t)
  · rw [hsome]
    by_cases hlive : s.now < t + daySeconds
    · simp only [Store.live, if_pos hlive]
      exact iff_of_false (by simp) fun hall => absurd (hall t ht) (not_le.2 hlive)
    · simp only [Store.live, if_neg hlive, true_iff]
      intro t' ht'
      have hle := hlast t' ht'
      omega

theorem reset_clears_trip_iff (ops : List Op) (user : String) : let s := ops.foldl Op.apply .start
    ((∀ token s', s.manualReset user token = some s' →
        s'.Clear user ∧ ∀ v ≠ user, s'.getStatus v = s.getStatus v) ∧
      s.dailyResetAll.Clear user) ↔ ∀ t, (user, t) ∈ s.events → t + daySeconds ≤ s.now := by
  intro s
  have h : Recorded s user := recorded_run ops user
  have hdaily : s.dailyResetAll.Clear user ↔ _ := clear_iff h rfl
    (by simp [State.dailyResetAll, killKey]) (by simp [State.dailyResetAll, cacheKey])
  rw [hdaily]
  refine and_iff_right_of_imp fun hpast token s' hreset => ?_
  obtain ⟨hevents, hnow, hkill, hslot⟩ := manualReset_slot hreset
  refine ⟨(clear_iff h hnow hkill (hslot user).1).2 hpast, fun v hv => ?_⟩
  unfold State.getStatus Store.get
  rw [(hslot v).1, (hslot v).2 hv, hnow]

theorem trip_reason_outlives_reset :
    let s := [Op.trip "u" .manual, .createResetToken "u" "ok"].foldl Op.apply .start
    ((s.manualReset "u" "ok").map (·.getStatus "u")) = some ⟨.active, some 0, some .manual⟩ ∧
      s.dailyResetAll.getStatus "u" = ⟨.active, some 0, some .manual⟩ := by
  decide +kernel

end Trips

end TradingBridge.Redis
