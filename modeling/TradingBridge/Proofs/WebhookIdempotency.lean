import TradingBridge.Lib.CanonicalJson
import TradingBridge.Proofs.Conduct

/-!
# The webhook's idempotency keys

A request's key is the user's id and what follows it: the `signal_id` of the body or the digest of
the raw bytes, whatever strategies the tokens are bound to. A request is answered as a duplicate
only after it has lost the claim on its key, and a claim is lost only within a TTL of one that a
request with the same key has won.
-/

namespace TradingBridge

open Effectful Prog Expiring List

section Keys

/-- What follows the user in a request's key. -/
def keyTail (sha256 : String → String) (payload : Body) (rawBody : String) : String :=
  payload.signalId.getD (sha256 rawBody)

theorem computeStrategySignalHash_eq (sha256 : String → String) (u : UserId) (payload : Body)
    (rawBody : String) : computeStrategySignalHash sha256 u payload rawBody
      = userText u ++ ":" ++ keyTail sha256 payload rawBody := by
  unfold computeStrategySignalHash keyTail
  cases payload.signalId <;> rfl

theorem not_colon_mem_repr (n : Nat) : ':' ∉ (Nat.repr n).toList := by
  rw [Nat.repr_eq_ofList_toDigits, String.toList_ofList]
  intro h
  have := Nat.isDigit_of_mem_toDigits (by decide) (by decide) h
  exact absurd this (by decide)

theorem repr_injective {m n : Nat} (h : Nat.repr m = Nat.repr n) : m = n := Nat.repr_inj.1 h

variable (u : UserId)

theorem toList_userText : (userText u).toList = "user-".toList ++ (Nat.repr u).toList := by
  rw [← String.toList_append]
  rfl

theorem toList_subscriptionText (s : SubscriptionId) :
    (subscriptionText s).toList = "subscription-".toList ++ (Nat.repr s).toList := by
  rw [← String.toList_append]
  rfl

theorem not_colon_mem_userText : ':' ∉ (userText u).toList := by
  rw [toList_userText, mem_append, not_or]
  exact ⟨by decide, not_colon_mem_repr u⟩

/-- Two lists split at the first of a separator split alike. -/
theorem key_inj {u u' : UserId} {x x' : String} :
    userText u ++ ":" ++ x = userText u' ++ ":" ++ x' ↔ u = u' ∧ x = x' := by
  refine ⟨fun h => ?_, fun ⟨hu, hx⟩ => by rw [hu, hx]⟩
  have hlist := congrArg String.toList h
  rw [String.append_assoc, String.append_assoc, String.toList_append, String.toList_append,
    String.toList_append, String.toList_append] at hlist
  obtain ⟨htext, -, htail⟩ := CanonicalJson.append_cons_inj (p := (· = ':'))
    (fun _ hc heq => not_colon_mem_userText u (heq ▸ hc))
    (fun _ hc heq => not_colon_mem_userText u' (heq ▸ hc)) rfl rfl hlist
  rw [toList_userText, toList_userText] at htext
  exact ⟨repr_injective (String.toList_inj.1 (append_cancel_left htext)),
    String.toList_inj.1 htail⟩

theorem key_ne_subscriber (x : String) (sub : SubscriptionId) (token : String) :
    RedisKey.idem (userText u ++ ":" ++ x) ≠ subscriberIdempotencyKey sub token := by
  intro h
  have htext : userText u ++ ":" ++ x = subscriptionText sub ++ ":" ++ token :=
    RedisKey.idem.inj h
  have hlist := congrArg String.toList htext
  simp only [String.toList_append, toList_userText, toList_subscriptionText] at hlist
  exact absurd (cons.inj hlist).1 (by decide)

end Keys

section Monitor

/-- What a thread runs, and the key whose lost claim it has yet to answer for. -/
structure Watch where
  task : Task
  lost : Option String

variable {D : Db → Prop} {sha256 : String → String}

/-- The answer `duplicate` needs a claim lost. -/
def idemMonitor (D : Db → Prop) (sha256 : String → String) : Machine Request Response Watch where
  may m r := Conduct D sha256 m.task r ∧ ∀ h, r = .mark (.duplicate h) → m.lost = some h
  next m r a m' := FromDb D r a ∧ match r, a with
    | .redisSetNX (.idem h) _ _, won => m' = if won then m else { m with lost := some h }
    | .mark (.duplicate _), _ => m' = { m with lost := none }
    | _, _ => m' = m

variable {r : Request}

theorem idemMonitor_task {m m' : Watch} {a : Response r}
    (h : (idemMonitor D sha256).next m r a m') : m'.task = m.task := by
  obtain ⟨-, h⟩ := h
  split at h
  · rw [h]
    split_ifs <;> rfl
  · rw [h]
  · rw [h]

/-- A request that neither answers `duplicate` nor writes a webhook request's key. -/
def LeavesKeys (r : Request) : Prop :=
  (∀ h, r ≠ .mark (.duplicate h)) ∧ ∀ u x, r.writes ≠ some (.idem (userText u ++ ":" ++ x))

theorem Mirrors.leavesKeys (h : Mirrors r) : LeavesKeys r := by
  refine ⟨?_, fun u x hw => ?_⟩
  · rintro hash rfl
    exact h
  · cases r with
    | redisSetNX k v ttl =>
      obtain ⟨sub, token, rfl⟩ := h
      exact key_ne_subscriber u x sub token (Option.some.inj hw).symm
    | redisSetEx k v ttl =>
      cases hw
      exact h
    | redisSet | redisDel | redisIncr => exact h
    | _ => cases hw

theorem Shields.leavesKeys {strategy : StrategyId} (h : Shields strategy r) : LeavesKeys r := by
  rcases h.cases with h | ⟨record, rfl⟩ | rfl
  · exact h.books.mirrors.leavesKeys
  · simp [LeavesKeys, Request.writes]
  · simp [LeavesKeys, Request.writes]

theorem processSignal_leavesKeys (cfg : Settings) (t : WebhookToken) (body : Body)
    (hash : String) : (processSignal cfg t body hash).AsksIn LeavesKeys := by
  have hmirrors : ∀ {α : Type} {c : Code α}, c.AsksIn Mirrors → c.AsksIn LeavesKeys :=
    asksIn_mono fun _ hr => hr.leavesKeys
  have hreads : ∀ {α : Type} {c : Code α}, c.AsksIn Reads → c.AsksIn LeavesKeys :=
    fun h => hmirrors (mirrors_of_reads h)
  refine asksIn_bind (killSwitchGate_asksIn (by simp [LeavesKeys, Request.writes])) fun _ =>
    asksIn_bind (hreads (signalGates_reads _ _)) fun strategy => asksIn_bind
    (hreads (preparePayload_reads _ _)) fun (payload, valid) => asksIn_bind (hreads now_reads)
    fun ts => asksIn_bind ((asksIn_perform _).2 (by simp [LeavesKeys, Request.writes]))
    fun signal => asksIn_bind ?_ fun queued => asksIn_bind
    (hmirrors (fanOutSignal_mirrors _ _ _ _)) fun _ => asksIn_bind
    ((asksIn_perform _).2 (by simp [LeavesKeys, Request.writes])) fun _ => asksIn_pure _
  exact dispatchStored_asksIn cfg (fun _ hr => hr.leavesKeys)
    (fun _ => by simp [LeavesKeys, Request.writes]) (by simp [LeavesKeys, Request.writes])
    fun _ => by simp [LeavesKeys, Request.writes]

theorem wp_idemMonitor {α : Type} {t : Task} {c : Code α} (h : Conducts D sha256 t c)
    (hmark : c.AsksIn LeavesKeys) {m : Watch} (hm : m.task = t) :
    c.wp (idemMonitor D sha256) (fun _ _ => True) m :=
  (h.and hmark).wp (M := idemMonitor D sha256) (I := fun m => m.task = t)
    (fun _ _ hm hr => ⟨hm ▸ hr.1, fun h hr' => absurd hr' (hr.2.1 h)⟩)
    (fun _ _ _ _ hm _ hn => ⟨(idemMonitor_task hn).trans hm, hn.1⟩) (fun _ _ _ _ => trivial)
    (fun _ _ _ => trivial) hm

theorem receiveStrategySignal_wp (cfg : Settings) (request : SignalRequest) :
    (receiveStrategySignal cfg sha256 request).wp (idemMonitor D sha256) (fun _ _ => True)
      ⟨.webhook request, none⟩ := by
  refine wp_bind.2 ((authenticate_yields (D := D) cfg request).wp
   
    (I := fun m => m = ⟨.webhook request, none⟩) ?_ ?_ ?_ (fun _ _ _ => trivial) rfl)
  · rintro _ r rfl hr
    exact ⟨hr.books.conduct, fun h hr' => absurd hr' (hr.books.mirrors.leavesKeys.1 h)⟩
  · rintro _ r a m' rfl hr hn
    refine ⟨?_, hn.1⟩
    cases r with
    | db | redisGet | clock | ask => exact hn.2
    | _ => exact hr.elim
  · rintro ⟨t, body⟩ _ ⟨hbody, d, hD, htoken⟩ rfl
    obtain ⟨hmem, hid, hactive⟩ := SignalRequest.tokenIn_spec htoken
    have hkey : request.HasKey D sha256
        (computeStrategySignalHash sha256 t.userId body request.rawBody) :=
      ⟨body, hbody, d, hD, t, hmem, hid, hactive, rfl⟩
    refine wp_bind.2 ⟨⟨.inr (.inr ⟨request, _, rfl, hkey, rfl, rfl⟩),
      fun _ h => nomatch h⟩, ?_⟩
    rintro claimed m' ⟨-, hm'⟩
    cases claimed with
    | true =>
      refine wp_idemMonitor (processSignal_conducts cfg hkey)
        (processSignal_leavesKeys _ _ _ _) ?_
      rw [hm']
      rfl
    | false =>
      refine wp_bind.2 ⟨⟨?_, ?_⟩, fun _ _ _ => trivial⟩
      · rw [hm']
        exact ⟨request, rfl, hkey⟩
      · rintro h ⟨⟩
        rw [hm']
        rfl

theorem task_wp (cfg : Settings) (sha256 : String → String) (t : Task) :
    (t.code cfg sha256).wp (idemMonitor D sha256) (fun _ _ => True) ⟨t, none⟩ := by
  have hother : (∀ request, t ≠ .webhook request) →
      (t.code cfg sha256).wp (idemMonitor D sha256) (fun _ _ => True) ⟨t, none⟩ := fun ht =>
    (task_conducts cfg sha256 t).wp (M := idemMonitor D sha256) (I := fun m => m.task = t)
      (fun _ r hm hr => ⟨hm ▸ hr, fun h hr' => by
        subst hr'
        obtain ⟨request, rfl, -⟩ := hr
        exact absurd rfl (ht request)⟩)
      (fun _ _ _ _ hm _ hn => ⟨(idemMonitor_task hn).trans hm, hn.1⟩) (fun _ _ _ _ => trivial)
      (fun _ _ _ => trivial) rfl
  cases t with
  | webhook request =>
    exact wp_bind_of (receiveStrategySignal_wp cfg request) (fun _ _ _ => trivial)
      fun _ _ _ => trivial
  | worker m => exact hother fun _ h => nomatch h
  | trip user reason => exact hother fun _ h => nomatch h
  | reset user => exact hother fun _ h => nomatch h

end Monitor

section Runs

/-- The attempts to claim a request's key, in their order. -/
def attempts (w : World) (hash : String) : List Claim :=
  w.claims.filter fun c => c.key = .idem hash

def Claim.HeldBy (c c' : Claim) : Prop :=
  c'.won = true ∧ c'.time ≤ c.time ∧ c.time < c'.time + idempotencyTtlSeconds

/-- Every attempt lost is within the TTL of one won before it. -/
def Explained (cs : List Claim) : Prop :=
  ∀ before c after, cs = before ++ c :: after → c.won = false → ∃ c' ∈ before, c.HeldBy c'

theorem Explained.append {cs : List Claim} {c : Claim} (h : Explained cs)
    (hc : c.won = false → ∃ c' ∈ cs, c.HeldBy c') : Explained (cs ++ [c]) := by
  intro before x after heq hx
  rcases eq_nil_or_concat after with rfl | ⟨after, y, rfl⟩
  · obtain ⟨rfl, hsingle⟩ := append_inj' heq rfl
    obtain rfl := singleton_inj.1 hsingle
    exact hc hx
  · have heq' : cs ++ [c] = (before ++ x :: after) ++ [y] := by simpa using heq
    obtain ⟨rfl, -⟩ := append_inj' heq' rfl
    exact h before x after rfl hx

/-- The duplicates and the claims yet to be answered for are no more than the claims lost, each
explained by one won, whose slot it is. -/
structure IdemInv (tokens : List WebhookToken) (hash : String) (w : World) (ms : List Watch) :
    Prop where
  tokens_eq : w.db.tokens = tokens
  answered : w.marks.count (.duplicate hash) + ms.countP (·.lost = some hash)
    ≤ (attempts w hash).countP (!·.won)
  explained : Explained (attempts w hash)
  past : ∀ c ∈ attempts w hash, c.time ≤ w.clock
  slot : ∀ v lapse, w.redis.slot (.idem hash) = some (v, lapse) →
    ∃ c ∈ attempts w hash, c.won = true ∧ lapse = some (c.time + idempotencyTtlSeconds)

variable {tokens : List WebhookToken} {hash : String} {w : World} {ms : List Watch}

theorem IdemInv.congr {w' : World} {ms' : List Watch} (h : IdemInv tokens hash w ms)
    (htokens : w'.db.tokens = w.db.tokens) (hmarks : w'.marks.count (.duplicate hash)
      = w.marks.count (.duplicate hash))
    (hattempts : attempts w' hash = attempts w hash)
    (hslot : w'.redis.slot (.idem hash) = w.redis.slot (.idem hash)) (hclock : w.clock ≤ w'.clock)
    (hms : ms'.countP (·.lost = some hash) ≤ ms.countP (·.lost = some hash)) :
    IdemInv tokens hash w' ms' := by
  refine ⟨htokens.trans h.tokens_eq, ?_, ?_, ?_, ?_⟩
  · rw [hmarks, hattempts]
    exact (Nat.add_le_add_left hms _).trans h.answered
  · rw [hattempts]
    exact h.explained
  · rw [hattempts]
    exact fun c hc => (h.past c hc).trans hclock
  · rw [hattempts, hslot]
    exact h.slot

theorem IdemInv.setNX {i : Nat} {m : Watch} {v : RedisValue} (h : IdemInv tokens hash w ms)
    (hi : ms[i]? = some m) :
    IdemInv tokens hash (handle w (.redisSetNX (.idem hash) v idempotencyTtlSeconds)).2
      (ms.set i (if (w.redis.get w.clock (.idem hash)).isNone then m
        else { m with lost := some hash })) := by
  obtain ⟨hlt, rfl⟩ := List.getElem?_eq_some_iff.1 hi
  have hattempts : attempts (handle w (.redisSetNX (.idem hash) v idempotencyTtlSeconds)).2 hash
      = attempts w hash ++ [⟨.idem hash, w.clock, (w.redis.get w.clock (.idem hash)).isNone⟩] := by
    cases hget : w.redis.get w.clock (.idem hash) with
    | none => simp [handle, attempts, Store.setNX_won hget]
    | some u => simp [handle, attempts, Store.setNX_lost hget]
  refine ⟨h.tokens_eq, ?_, ?_, ?_, ?_⟩ <;> rw [hattempts]
  · have hanswered := h.answered
    cases w.redis.get w.clock (.idem hash) with
    | none => simpa [handle] using hanswered
    | some u =>
      have hcount : (ms.set i ⟨ms[i].task, some hash⟩).countP (·.lost = some hash)
          ≤ ms.countP (·.lost = some hash) + 1 := by
        rw [countP_set hlt]
        simp only [decide_true, if_true]
        omega
      simp only [handle, Option.isNone_some, Bool.false_eq_true, if_false, countP_append,
        countP_singleton, Bool.not_false, if_true]
      omega
  · -- the answer that lost the claim found it held
    refine h.explained.append fun hlost => ?_
    obtain ⟨u, hget⟩ : ∃ u, w.redis.get w.clock (.idem hash) = some u :=
      Option.isSome_iff_exists.1 (by simpa using hlost)
    obtain ⟨lapse, hslot, hlive⟩ := Store.get_eq_some_iff.1 hget
    obtain ⟨c, hc, hwon, hlapse⟩ := h.slot u lapse hslot
    exact ⟨c, hc, hwon, h.past c hc, hlive _ hlapse⟩
  · exact forall_mem_append.2 ⟨h.past, forall_mem_singleton.2 le_rfl⟩
  · intro v' lapse hslot
    cases hget : w.redis.get w.clock (.idem hash) with
    | none =>
      refine ⟨_, mem_append_right _ (mem_singleton_self _), rfl, ?_⟩
      simp only [handle, Store.setNX_won hget, Store.setEx,
        Function.update_self, Option.some.injEq, Prod.mk.injEq] at hslot
      exact hslot.2.symm
    | some u =>
      simp only [handle, Store.setNX_lost hget] at hslot
      obtain ⟨c, hc, hwon, hlapse⟩ := h.slot v' lapse hslot
      exact ⟨c, mem_append_left _ hc, hwon, hlapse⟩

theorem IdemInv.mark {i : Nat} {m : Watch} {h' : String} (h : IdemInv tokens hash w ms)
    (hi : ms[i]? = some m) (hlost : m.lost = some h') :
    IdemInv tokens hash (handle w (.mark (.duplicate h'))).2
      (ms.set i ⟨m.task, none⟩) := by
  obtain ⟨hlt, rfl⟩ := List.getElem?_eq_some_iff.1 hi
  refine ⟨h.tokens_eq, ?_, h.explained, h.past, h.slot⟩
  have hanswered := h.answered
  change (w.marks ++ [Mark.duplicate h']).count (.duplicate hash) + _
    ≤ (attempts w hash).countP (!·.won)
  rw [count_append, countP_set hlt, hlost]
  by_cases hh : h' = hash
  · subst hh
    have hpos : 0 < ms.countP (·.lost = some h') :=
      countP_pos_iff.2 ⟨ms[i], getElem_mem hlt, by simp [hlost]⟩
    simp only [count_singleton_self, decide_true, if_true, reduceCtorEq, decide_false,
      if_false]
    omega
  · simp [hh]
    omega

theorem idemInv_handle {sha256 : String → String} {i : Nat} {m : Watch} {r : Request}
    (hkey : ∀ sub token, RedisKey.idem hash ≠ subscriberIdempotencyKey sub token)
    (h : IdemInv tokens hash w ms) (hi : ms[i]? = some m)
    (hmay : (idemMonitor (fun d => d.tokens = tokens) sha256).may m r) :
    ∃ m', (idemMonitor (fun d => d.tokens = tokens) sha256).next m r (handle w r).1 m'
      ∧ IdemInv tokens hash (handle w r).2 (ms.set i m') := by
  have hdb := fromDb_handle (D := fun d => d.tokens = tokens) h.tokens_eq r
  have hself : (ms.set i m).countP (·.lost = some hash) ≤ ms.countP (·.lost = some hash) := by
    obtain ⟨hlt, rfl⟩ := List.getElem?_eq_some_iff.1 hi
    rw [set_getElem_self hlt]
  obtain ⟨hconduct, hdup⟩ := hmay
  cases r with
  | mark mk =>
    cases mk with
    | duplicate h' => exact ⟨_, ⟨hdb, rfl⟩, h.mark hi (hdup h' rfl)⟩
    | placeStrategyOrders id =>
      exact ⟨m, ⟨hdb, rfl⟩, h.congr rfl (by simp [handle]) rfl rfl le_rfl hself⟩
    | accepted h' id =>
      exact ⟨m, ⟨hdb, rfl⟩, h.congr rfl (by simp [handle]) rfl rfl le_rfl hself⟩
    | liveOrderAttempt => exact hconduct.elim
  | redisSetNX k v ttl =>
    by_cases hk : k = .idem hash
    · subst hk
      obtain ⟨sub, token, hsub⟩ | ⟨id, kind, hid, -⟩ | ⟨request, h', -, -, -, rfl⟩ := hconduct
      · exact absurd hsub (hkey sub token)
      · cases hid
      · refine ⟨_, ⟨hdb, rfl⟩, ?_⟩
        simpa [handle] using h.setNX hi
    · have hattempts : attempts (handle w (.redisSetNX k v ttl)).2 hash = attempts w hash := by
        simp [handle, attempts, hk]
      have hslot := handle_slot (w := w) (r := .redisSetNX k v ttl)
        (by simpa [Request.writes] using hk)
      cases k with
      | idem h' =>
        have hne : some h' ≠ some hash := fun he => hk (by rw [Option.some.inj he])
        refine ⟨_, ⟨hdb, rfl⟩, h.congr rfl rfl hattempts hslot le_rfl ?_⟩
        obtain ⟨hlt, rfl⟩ := List.getElem?_eq_some_iff.1 hi
        split_ifs
        · exact hself
        · rw [countP_set hlt]
          simp [hne]
      | _ => exact ⟨m, ⟨hdb, rfl⟩, h.congr rfl rfl hattempts hslot le_rfl hself⟩
  | db f => exact ⟨m, ⟨hdb, rfl⟩, h.congr (hconduct w.db).tokens rfl rfl rfl le_rfl hself⟩
  | redisSet | redisSetEx | redisDel | redisIncr =>
    refine ⟨m, ⟨hdb, rfl⟩, h.congr rfl rfl rfl (handle_slot fun hw => ?_) le_rfl hself⟩
    obtain ⟨_, _, hset⟩ := hconduct.writes hw
    cases hset
  | _ => exact ⟨m, ⟨hdb, rfl⟩, h.congr rfl rfl rfl rfl le_rfl hself⟩

variable {cfg : Settings} {sha256 : String → String} {P P' : Pool}
  {moves : List (Move Task EnvMove)}

/-- The pool before any request: nothing runs, nothing has been claimed or answered. -/
structure Fresh (P : Pool) : Prop where
  threads : P.threads = []
  claims : P.shared.claims = []
  marks : P.shared.marks = []
  slots : ∀ hash, P.shared.redis.slot (.idem hash) = none

/-- A request with the key, as a thread of its own, claims the free slot at `time`. -/
def ClaimedBy (cfg : Settings) (sha256 : String → String) (P : Pool)
    (moves : List (Move Task EnvMove)) (hash : String) (time : Nat) : Prop :=
  ∃ (before after : List (Move Task EnvMove)) (Q : Pool) (i : Nat) (request : SignalRequest)
    (v : RedisValue) (rest : Bool → Code Unit),
    moves = before ++ .step i :: after
    ∧ Run (system cfg sha256).next (fun _ _ => True) P before Q
    ∧ Q.threads[i]? = some ⟨.webhook request,
        .op (.redisSetNX (.idem hash) v idempotencyTtlSeconds) rest⟩
    ∧ request.HasKey (fun d => d.tokens = P.shared.db.tokens) sha256 hash
    ∧ Q.shared.clock = time ∧ Q.shared.redis.get time (.idem hash) = none

variable {m : Move Task EnvMove}

theorem ClaimedBy.snoc {time : Nat}
    (h : ClaimedBy cfg sha256 P moves hash time) :
    ClaimedBy cfg sha256 P (moves ++ [m]) hash time := by
  obtain ⟨before, after, Q, i, request, v, rest, rfl, h⟩ := h
  exact ⟨before, after ++ [m], Q, i, request, v, rest, by simp, h⟩

abbrev IdemMonitored (tokens : List WebhookToken) (hash : String) (sha256 : String → String) :
    Pool → Prop :=
  Monitored (idemMonitor (fun d => d.tokens = tokens) sha256) (fun t m => m.task = t)
    (onStates (IdemInv tokens hash))

theorem Fresh.idemMonitored (h : Fresh P) : IdemMonitored P.shared.db.tokens hash sha256 P := by
  have hattempts : attempts P.shared hash = [] := by simp [attempts, h.claims]
  refine monitored_of_no_threads h.threads ⟨rfl, ?_, ?_, ?_, ?_⟩
  · simp [h.marks]
  · intro before c after hcs
    rw [hattempts] at hcs
    simp at hcs
  · simp [hattempts]
  · simp [h.slots]

theorem idemMonitored_next
    (hkey : ∀ sub token, RedisKey.idem hash ≠ subscriberIdempotencyKey sub token)
    (h : IdemMonitored tokens hash sha256 P) (hm : (system cfg sha256).next P m = some P') :
    IdemMonitored tokens hash sha256 P' := by
  refine h.next_states hm ?_ ?_ ?_ ?_
  · intro t ms _ _ hG
    exact ⟨⟨t, none⟩, rfl, task_wp cfg sha256 t, hG.congr rfl rfl rfl rfl le_rfl (by simp)⟩
  · intro i t r k ms a _ _ hi hT hG hmay
    obtain ⟨a', hn, hG'⟩ := idemInv_handle hkey hG hi hmay
    exact ⟨a', (idemMonitor_task hn).trans hT, hn, hG'⟩
  · intro i ms _ hG
    exact hG.congr rfl rfl rfl rfl le_rfl ((eraseIdx_sublist ms i).countP_le)
  · intro e s ms _ he hG
    cases e <;> cases he
    · exact hG.congr rfl rfl rfl rfl (Nat.le_add_right _ _) le_rfl
    · exact hG.congr rfl rfl rfl rfl le_rfl le_rfl

theorem IdemMonitored.run (h : Fresh P)
    (hkey : ∀ sub token, RedisKey.idem hash ≠ subscriberIdempotencyKey sub token)
    (hrun : Run (system cfg sha256).next (fun _ _ => True) P moves P') :
    IdemMonitored P.shared.db.tokens hash sha256 P' :=
  hrun.invariant (fun _ _ _ hQ _ hm => idemMonitored_next hkey hQ hm) h.idemMonitored

theorem attempts_handle (w : World) (r : Request) (hash : String) :
    attempts (handle w r).2 hash = attempts w hash
    ∨ ∃ v ttl, r = .redisSetNX (.idem hash) v ttl ∧ attempts (handle w r).2 hash
      = attempts w hash ++ [⟨.idem hash, w.clock, (w.redis.get w.clock (.idem hash)).isNone⟩] := by
  cases r with
  | redisSetNX k v ttl =>
    by_cases hk : k = .idem hash
    · subst hk
      exact .inr ⟨v, ttl, rfl, by simp [attempts, handle]⟩
    · exact .inl (by simp [attempts, handle, hk])
  | _ => exact .inl rfl

/-- Every claim won on a request's key was won by a request with that key. -/
theorem claimedBy_of_won (h : Fresh P)
    (hkey : ∀ sub token, RedisKey.idem hash ≠ subscriberIdempotencyKey sub token)
    (hrun : Run (system cfg sha256).next (fun _ _ => True) P moves P') :
    ∀ c ∈ attempts P'.shared hash, c.won = true → ClaimedBy cfg sha256 P moves hash c.time := by
  induction hrun with
  | nil => simp [attempts, h.claims]
  | @snoc P' _ ls l hrun _ hm ih =>
    intro c hc hwon
    have hsame : c ∈ attempts P'.shared hash →
        ClaimedBy cfg sha256 P (ls ++ [l]) hash c.time := fun hc => (ih c hc hwon).snoc
    obtain ⟨t, rfl, hs, rfl⟩ | ⟨i, t, r, k, rfl, hi, rfl⟩ | ⟨i, rfl, rfl⟩ |
      ⟨e, s, rfl, he, rfl⟩ := System.next_cases hm
    · exact hsame hc
    · rcases attempts_handle P'.shared r hash with heq | ⟨v, ttl, rfl, heq⟩
      · exact hsame (heq ▸ hc)
      · change c ∈ attempts (handle P'.shared _).2 hash at hc
        rw [heq] at hc
        rcases mem_concat.1 hc with hc | rfl
        · exact hsame hc
        · obtain ⟨⟨t', lost⟩, rfl, hmay⟩ := (IdemMonitored.run h hkey hrun).may hi
          obtain ⟨sub, token, hsub⟩ | ⟨id, kind, hid, -⟩ | ⟨request, h', rfl, hhas, hk, rfl⟩ :=
            hmay.1
          · exact absurd hsub (hkey sub token)
          · cases hid
          · cases hk
            exact ⟨_, [], P', i, request, v, k, rfl, hrun, hi, hhas, rfl,
              Option.isNone_iff_eq_none.1 hwon⟩
    · exact hsame hc
    · cases e <;> cases he <;> exact hsame hc

end Runs

section Requests

variable {cfg : Settings} {sha256 : String → String} {request : SignalRequest} {w : World}
  {t : WebhookToken} {body : Body}

def claimedWorld (cfg : Settings) (request : SignalRequest) (hash : String) (w : World) : World :=
  (handle { w with asked := ((authenticate cfg request).exec w).2.asked }
    (.redisSetNX (.idem hash) .one idempotencyTtlSeconds)).2

theorem receiveStrategySignal_claims {hash : String}
    (h : ((authenticate cfg request).exec w).1 = .ok (t, body))
    (hhash : computeStrategySignalHash sha256 t.userId body request.rawBody = hash) :
    (receiveStrategySignal cfg sha256 request).exec w
      = (if (w.redis.get w.clock (.idem hash)).isNone then processSignal cfg t body hash
        else do
          mark (.duplicate hash)
          return .duplicate : Code SignalAnswer).exec (claimedWorld cfg request hash w) := by
  subst hhash
  unfold receiveStrategySignal
  rw [exec_bind_ok (Prod.ext h (exec_reads (authenticate_reads cfg request) w))]
  exact exec_bind_ok (Prod.ext (by simp [setIdempotencyKey, Code.exec, handle]) rfl)

theorem processSignal_ne_duplicate (cfg : Settings) (t : WebhookToken) (body : Body)
    (hash : String) (w : World) : ((processSignal cfg t body hash).exec w).1 ≠ .ok .duplicate := by
  intro h
  obtain ⟨-, w₀, -, h⟩ := exec_bind_eq_ok h
  obtain ⟨strategy, w₁, -, h⟩ := exec_bind_eq_ok h
  obtain ⟨⟨payload, valid⟩, w₂, -, h⟩ := exec_bind_eq_ok h
  obtain ⟨ts, w₃, -, h⟩ := exec_bind_eq_ok h
  obtain ⟨signal, w₄, -, h⟩ := exec_bind_eq_ok h
  obtain ⟨queued, w₅, -, h⟩ := exec_bind_eq_ok h
  obtain ⟨-, w₆, -, h⟩ := exec_bind_eq_ok h
  cases h

theorem receiveStrategySignal_duplicate_iff {hash : String}
    (h : ((authenticate cfg request).exec w).1 = .ok (t, body))
    (hhash : computeStrategySignalHash sha256 t.userId body request.rawBody = hash) :
    ((receiveStrategySignal cfg sha256 request).exec w).1 = .ok .duplicate
      ↔ w.redis.get w.clock (.idem hash) ≠ none := by
  rw [receiveStrategySignal_claims h hhash]
  cases w.redis.get w.clock (.idem hash) with
  | none => exact iff_of_false (processSignal_ne_duplicate _ _ _ _ _) (by simp)
  | some v => exact iff_of_true rfl (by simp)

/-- A request takes no time, leaves the keys of others alone, and holds its own unless it was
held. -/
theorem receiveStrategySignal_slot {u : UserId} {x hash : String}
    (h : ((authenticate cfg request).exec w).1 = .ok (t, body))
    (hhash : computeStrategySignalHash sha256 t.userId body request.rawBody = hash) :
    ((receiveStrategySignal cfg sha256 request).exec w).2.clock = w.clock
    ∧ ((receiveStrategySignal cfg sha256 request).exec w).2.redis.slot
        (.idem (userText u ++ ":" ++ x))
      = (w.redis.setNX w.clock (.idem hash) .one idempotencyTtlSeconds).2.slot
        (.idem (userText u ++ ":" ++ x)) := by
  rw [receiveStrategySignal_claims h hhash]
  cases w.redis.get w.clock (.idem hash) with
  | none =>
    exact Prod.ext_iff.1 (run_frame
      (f := fun w : World => (w.clock, w.redis.slot (.idem (userText u ++ ":" ++ x))))
     
      (fun w r hr => Prod.ext (handle_clock w r) (handle_slot (hr.2 u x)))
      (processSignal_leavesKeys cfg t body _))
  | some v => exact ⟨rfl, rfl⟩

end Requests

/-- However requests, workers, trips and crashes interleave, the duplicates answered for a key are
no more than the claims lost on it, each within the TTL of one that a request with the key won,
stored or not. A request that fails before its claim changes nothing, and one that finds its key
free is processed. -/
theorem duplicate_only_after_claim (cfg : Settings) (sha256 : String → String) :
    (∀ (P P' : Pool) (moves : List (Move Task EnvMove)) (u : UserId) (payload : Body)
        (rawBody : String), Fresh P →
      Run (system cfg sha256).next (fun _ _ => True) P moves P' →
      P'.shared.marks.count (.duplicate (computeStrategySignalHash sha256 u payload rawBody))
          ≤ (attempts P'.shared (computeStrategySignalHash sha256 u payload rawBody)).countP
            (!·.won)
        ∧ ∀ before c after, attempts P'.shared (computeStrategySignalHash sha256 u payload rawBody)
            = before ++ c :: after → c.won = false →
          ∃ c' ∈ before, c.HeldBy c' ∧ ClaimedBy cfg sha256 P moves
            (computeStrategySignalHash sha256 u payload rawBody) c'.time)
    ∧ (∀ (w : World) (request : SignalRequest) (e : AppError),
      ((authenticate cfg request).exec w).1 = .error e →
      (receiveStrategySignal cfg sha256 request).exec w
        = (.error e, { w with asked := ((authenticate cfg request).exec w).2.asked }))
    ∧ ∀ (w : World) (request : SignalRequest) (t : WebhookToken) (body : Body),
      ((authenticate cfg request).exec w).1 = .ok (t, body) →
      w.redis.get w.clock
        (.idem (computeStrategySignalHash sha256 t.userId body request.rawBody)) = none →
      (receiveStrategySignal cfg sha256 request).exec w
        = (processSignal cfg t body
            (computeStrategySignalHash sha256 t.userId body request.rawBody)).exec
          (claimedWorld cfg request
            (computeStrategySignalHash sha256 t.userId body request.rawBody) w) := by
  refine ⟨fun P P' moves u payload rawBody hfresh hrun => ?_,
    fun w request e h =>
      exec_bind_error (Prod.ext h (exec_reads (authenticate_reads cfg request) w)),
    fun w request t body h hfree => by rw [receiveStrategySignal_claims h rfl, hfree]; rfl⟩
  rw [computeStrategySignalHash_eq]
  have hkey := key_ne_subscriber u (keyTail sha256 payload rawBody)
  obtain ⟨ms, hinv⟩ := (IdemMonitored.run hfresh hkey hrun).rel_states
  refine ⟨(Nat.le_add_right _ _).trans hinv.answered, fun before c after hcs hlost => ?_⟩
  obtain ⟨c', hc', hheld⟩ := hinv.explained before c after hcs hlost
  refine ⟨c', hc', hheld, claimedBy_of_won hfresh hkey hrun c' ?_ hheld.1⟩
  rw [hcs]
  exact mem_append_left _ hc'

/-- The sample account with its kill switch tripped. -/
def trippedPool : Pool :=
  ⟨{ sampleWorld (.willing filled) with
    redis := Store.empty.set (.kill 10) (.status .tripped) }, []⟩

theorem fresh_trippedPool : Fresh trippedPool := by
  refine ⟨rfl, rfl, rfl, fun hash => ?_⟩
  simp [trippedPool, Store.set, Store.empty]

/-- Refused while the switch is tripped, and made again five seconds after its reset. -/
def refusedThenRetried : List (Move Task EnvMove) :=
  .spawn (.webhook (sampleRequest 5 "EXIT")) :: List.replicate 5 (.step 0)
    ++ [.spawn (.reset 10), .step 1, .env (.tick 5), .spawn (.webhook (sampleRequest 5 "EXIT"))]
    ++ List.replicate 5 (.step 2)

/-- The retry of a refused request is answered as a duplicate, with no signal stored. -/
theorem duplicate_of_refused_request : ∃ P' : Pool, Fresh trippedPool
    ∧ Run (system sampleSettings id).next (fun _ _ => True) trippedPool refusedThenRetried P'
    ∧ P'.shared.marks = [.duplicate "user-10:EXIT"]
    ∧ P'.shared.db.signals = trippedPool.shared.db.signals := by
  simp only [exists_and_left]
  exact ⟨fresh_trippedPool, by decide +kernel⟩

/-- The retry loses to the refused request's claim. An unknown token fails before the claim. -/
theorem duplicate_only_after_claim_retry :
    (∃ P' : Pool, Run (system sampleSettings id).next (fun _ _ => True) trippedPool
        refusedThenRetried P'
      ∧ P'.shared.marks.count
          (.duplicate (computeStrategySignalHash id 10 (sampleBody "EXIT") "EXIT")) = 1
      ∧ ∃ c c' : Claim,
        attempts P'.shared (computeStrategySignalHash id 10 (sampleBody "EXIT") "EXIT")
          = [c', c] ∧ c.won = false ∧ c.HeldBy c'
        ∧ ClaimedBy sampleSettings id trippedPool refusedThenRetried
          (computeStrategySignalHash id 10 (sampleBody "EXIT") "EXIT") c'.time)
    ∧ (receiveStrategySignal sampleSettings id (sampleRequest 99 "EXIT")).exec
        (sampleWorld (.willing filled))
      = (.error (.http 404 "Unknown webhook token."),
        { sampleWorld (.willing filled) with asked := ((authenticate sampleSettings
          (sampleRequest 99 "EXIT")).exec (sampleWorld (.willing filled))).2.asked })
    ∧ (receiveStrategySignal sampleSettings id (sampleRequest 5 "EXIT")).exec
        (sampleWorld (.willing filled))
      = (processSignal sampleSettings ⟨5, 10, true, false⟩ (sampleBody "EXIT")
          (computeStrategySignalHash id 10 (sampleBody "EXIT") "EXIT")).exec
        (claimedWorld sampleSettings (sampleRequest 5 "EXIT")
          (computeStrategySignalHash id 10 (sampleBody "EXIT") "EXIT")
          (sampleWorld (.willing filled))) := by
  obtain ⟨hruns, hfails, hprocessed⟩ := duplicate_only_after_claim sampleSettings id
  refine ⟨?_, hfails _ (sampleRequest 99 "EXIT") _ (by decide +kernel),
    hprocessed _ (sampleRequest 5 "EXIT") ⟨5, 10, true, false⟩ (sampleBody "EXIT")
      (by decide +kernel) rfl⟩
  obtain ⟨P', hrun, hmarks, hattempts⟩ : ∃ P' : Pool,
      Run (system sampleSettings id).next (fun _ _ => True) trippedPool refusedThenRetried P'
      ∧ P'.shared.marks.count
          (.duplicate (computeStrategySignalHash id 10 (sampleBody "EXIT") "EXIT")) = 1
      ∧ attempts P'.shared (computeStrategySignalHash id 10 (sampleBody "EXIT") "EXIT")
        = [⟨.idem "user-10:EXIT", 20000, true⟩, ⟨.idem "user-10:EXIT", 20005, false⟩] := by
    decide +kernel
  obtain ⟨-, hexplained⟩ := hruns _ P' _ 10 (sampleBody "EXIT") "EXIT" fresh_trippedPool hrun
  obtain ⟨c', hc', hheld, hclaimed⟩ := hexplained [_] _ [] hattempts rfl
  obtain rfl := mem_singleton.1 hc'
  exact ⟨P', hrun, hmarks, _, _, hattempts, rfl, hheld, hclaimed⟩

/-- A second request within the TTL is a duplicate of the first just when both are one user's with
the same `signal_id` or digest, whatever strategies their tokens are bound to. -/
theorem duplicate_across_tokens_iff (cfg : Settings) (sha256 : String → String) (w : World)
    (request request' : SignalRequest) (t t' : WebhookToken) (body body' : Body) (wait : Nat)
    (hfirst : ((authenticate cfg request).exec w).1 = .ok (t, body))
    (hsecond : ((authenticate cfg request').exec
      { ((receiveStrategySignal cfg sha256 request).exec w).2 with clock := w.clock + wait }).1
        = .ok (t', body'))
    (hwait : wait < idempotencyTtlSeconds)
    (hfree : w.redis.slot
      (.idem (computeStrategySignalHash sha256 t'.userId body' request'.rawBody)) = none) :
    ((receiveStrategySignal cfg sha256 request').exec
      { ((receiveStrategySignal cfg sha256 request).exec w).2 with clock := w.clock + wait }).1
        = .ok .duplicate
      ↔ t'.userId = t.userId
        ∧ keyTail sha256 body' request'.rawBody = keyTail sha256 body request.rawBody := by
  rw [receiveStrategySignal_duplicate_iff hsecond rfl, ← key_inj,
    ← computeStrategySignalHash_eq sha256 t.userId]
  rw [computeStrategySignalHash_eq] at hfree ⊢
  set hash := computeStrategySignalHash sha256 t.userId body request.rawBody with hhash
  obtain ⟨-, hslot⟩ := receiveStrategySignal_slot
    hfirst hhash.symm
  set hash' := userText t'.userId ++ ":" ++ keyTail sha256 body' request'.rawBody
  simp only [Store.get, hslot]
  by_cases hsame : hash' = hash
  · rw [hsame] at hfree ⊢
    have hget : w.redis.get w.clock (.idem hash) = none := by
      rw [Store.get, hfree]
      rfl
    simp only [Store.setNX_won hget, Store.setEx, Function.update_self,
      Store.live]
    rw [if_pos (by omega)]
    simp
  · have hne : RedisKey.idem hash' ≠ .idem hash := fun hk => hsame (RedisKey.idem.inj hk)
    have hother : (w.redis.setNX w.clock (.idem hash) .one idempotencyTtlSeconds).2.slot
        (.idem hash') = none := by
      have := handle_slot (w := w) (r := .redisSetNX (.idem hash) .one idempotencyTtlSeconds)
        (k := .idem hash') (by simpa [Request.writes] using hne.symm)
      exact this.trans hfree
    rw [hother]
    simp [Store.live, hsame]

/-- User 10 with a second live strategy, bound to a token of its own. -/
def twoStrategies : World :=
  { sampleWorld (.willing filled) with
    db := { sampleDb with
      strategies := [sampleStrategy, { sampleStrategy with id := 2, webhookTokenId := some 6 }]
      tokens := [⟨5, 10, true, false⟩, ⟨6, 10, true, false⟩] } }

/-- The sample exit has been sent to one strategy's token five seconds ago. -/
def otherStrategyAsked : World :=
  { ((receiveStrategySignal sampleSettings id (sampleRequest 5 "EXIT")).exec twoStrategies).2 with
    clock := twoStrategies.clock + 5 }

/-- The exit of one strategy is answered as a duplicate of the other's, and not stored. -/
theorem duplicate_of_other_strategy : (resolveStrategy 10 5 twoStrategies.db).map (·.id) = some 1
    ∧ (resolveStrategy 10 6 twoStrategies.db).map (·.id) = some 2
    ∧ ((receiveStrategySignal sampleSettings id (sampleRequest 6 "EXIT")).exec otherStrategyAsked).1
      = .ok .duplicate
    ∧ ((receiveStrategySignal sampleSettings id (sampleRequest 6 "EXIT")).exec
      otherStrategyAsked).2.db.signals.all (·.strategyId = 1) = true := by
  decide +kernel

/-- The other strategy's exit is a duplicate where its bytes are the same. -/
theorem duplicate_across_tokens_exits :
    ((receiveStrategySignal sampleSettings id (sampleRequest 6 "EXIT")).exec otherStrategyAsked).1
      = .ok .duplicate
    ∧ ((receiveStrategySignal sampleSettings id
        { sampleRequest 6 "EXIT" with rawBody := "EXIT 2" }).exec
      otherStrategyAsked).1 ≠ .ok .duplicate := by
  have hsame := duplicate_across_tokens_iff sampleSettings id twoStrategies (sampleRequest 5 "EXIT")
    (sampleRequest 6 "EXIT") ⟨5, 10, true, false⟩ ⟨6, 10, true, false⟩ (sampleBody "EXIT")
    (sampleBody "EXIT") 5
    (by decide +kernel) (by decide +kernel) (by decide) rfl
  have hother := duplicate_across_tokens_iff sampleSettings id twoStrategies
    (sampleRequest 5 "EXIT") { sampleRequest 6 "EXIT" with rawBody := "EXIT 2" }
    ⟨5, 10, true, false⟩ ⟨6, 10, true, false⟩
    (sampleBody "EXIT") (sampleBody "EXIT") 5 (by decide +kernel) (by decide +kernel)
    (by decide) rfl
  refine ⟨hsame.2 ⟨rfl, rfl⟩, fun h => ?_⟩
  exact absurd (hother.1 h).2 (by decide)

end TradingBridge
