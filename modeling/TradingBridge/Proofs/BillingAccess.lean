import TradingBridge.Lib.Run
import TradingBridge.Proofs.BillingOrder

/-!
# Paid and locked out

The handle of a user moves to a new subscription before that one is paid, and the charges of the
old one are then ignored. A change of plan cancels the old subscription first; a second
subscription does not. Where users subscribe anew only when their handle was cancelled, the
subscriptions that were not cancelled are the handles of their users.
-/

namespace TradingBridge.Billing

open Delivery Effectful List

/-- The tables, and the subscriptions whose cancellation the gateway was asked for or told. -/
structure Billed where
  db : Database
  cancelled : List String

/-- The subscription that an action has cancelled at the gateway, or that it reports cancelled. -/
def cancels (db : Database) : Action → Option String
  | .subscribe _ _ _ => none
  | .changePlan userId planId g => do
    let user ← db.user userId
    let plan ← db.plan planId
    let handle ← truthy user.razorpaySubscriptionId
    let _ ← (syncPlanToRazorpay db plan g.planId).2
    let _ ← g.subscription
    if g.cancelled then some handle else none
  | .cancel userId _ g => do
    let user ← db.user userId
    let handle ← truthy user.razorpaySubscriptionId
    if g.cancelled then some handle else none
  | .event e => if e.type = .cancelled then e.subId else none

def freshAnswer (db : Database) : Action → Bool
  | .subscribe _ _ g | .changePlan _ _ g => g.subscription.all fun sub =>
      sub.id ≠ "" ∧ db.payments.all (·.razorpaySubscriptionId ≠ some sub.id)
  | .cancel _ _ _ | .event _ => true

def next (s : Billed) (a : Action) : Option Billed :=
  if freshAnswer s.db a then
    some ⟨step s.db a, (cancels s.db a).toList ++ s.cancelled⟩
  else none

def SubscribesOnce (s : Billed) : Action → Prop
  | .subscribe userId _ _ => ∀ user, s.db.user userId = some user →
      ∀ handle ∈ user.razorpaySubscriptionId, handle ∈ s.cancelled
  | _ => True

section Handles

/-- A payment is for a plan, and a subscription that was not cancelled is its user's handle. -/
structure HandleOf (db : Database) (cancelled : List String) (row : RazorpayPayment)
    (subId : String) : Prop where
  nonempty : subId ≠ ""
  kind : row.kind = .platformPlan
  handle : subId ∉ cancelled → ∀ user, db.user row.userId = some user →
    user.razorpaySubscriptionId = some subId

def Handles (s : Billed) : Prop :=
  ∀ row ∈ s.db.payments, ∀ subId, row.razorpaySubscriptionId = some subId →
    HandleOf s.db s.cancelled row subId

structure Keeps (db db' : Database) : Prop where
  payment : ∀ row' ∈ db'.payments, ∃ row ∈ db.payments,
    row'.razorpaySubscriptionId = row.razorpaySubscriptionId ∧ row'.userId = row.userId
      ∧ row'.kind = row.kind
  user : ∀ id user', db'.user id = some user' → ∃ user, db.user id = some user
    ∧ user'.razorpaySubscriptionId = user.razorpaySubscriptionId

variable {db db' : Database} {cancelled : List String}

theorem Keeps.refl (db : Database) : Keeps db db :=
  ⟨fun row h => ⟨row, h, rfl, rfl, rfl⟩, fun _ user h => ⟨user, h, rfl⟩⟩

variable {cancelled' : List String}

theorem Keeps.handles (h : Keeps db db')
    (hmore : ∀ x ∈ cancelled, x ∈ cancelled') (hs : Handles ⟨db, cancelled⟩) :
    Handles ⟨db', cancelled'⟩ := by
  intro row' hrow' subId hsub
  obtain ⟨row, hrow, hid, huser, hkind⟩ := h.payment row' hrow'
  have hof := hs row hrow subId (hid ▸ hsub)
  refine ⟨hof.nonempty, hkind.trans hof.kind, fun hlive user' huser' => ?_⟩
  obtain ⟨user, hfind, hhandle⟩ := h.user _ _ huser'
  rw [hhandle]
  exact hof.handle (fun hmem => hlive (hmore _ hmem)) user (huser ▸ hfind)

theorem user_of_edit {f : User → User} {k : ℕ} (hid : ∀ u, (f u).id = u.id)
    (hhandle : ∀ u, (f u).razorpaySubscriptionId = u.razorpaySubscriptionId) {id : ℕ}
    {user' : User} (h : (edit (·.id) k f db.users).find? (·.id = id) = some user') :
    ∃ user, db.user id = some user
      ∧ user'.razorpaySubscriptionId = user.razorpaySubscriptionId := by
  rw [find?_edit (fun u _ => by rw [hid])] at h
  obtain ⟨user, hfind, rfl⟩ := Option.map_eq_some_iff.1 h
  exact ⟨user, hfind, editRow_congr (fun u _ => hhandle u) user⟩

theorem keeps_recordPayment (e : WebhookEvent) (subId : String) :
    ∀ row' ∈ (recordPayment e subId db).payments, ∃ row ∈ db.payments,
      row'.razorpaySubscriptionId = row.razorpaySubscriptionId ∧ row'.userId = row.userId
        ∧ row'.kind = row.kind := by
  intro row' hrow'
  obtain ⟨row, hrow, rfl⟩ := mem_map.1 hrow'
  refine ⟨row, hrow, ?_⟩
  unfold editRow
  split_ifs <;> exact ⟨rfl, rfl, rfl⟩

theorem keeps_handleWebhookEvent (db : Database) (e : WebhookEvent) :
    Keeps db (handleWebhookEvent db e).1 := by
  unfold handleWebhookEvent
  split_ifs
  · exact Keeps.refl db
  · split
    · rename_i newStatus subId _ _
      have hrecord : Keeps db (recordPayment e subId db) :=
        ⟨keeps_recordPayment e subId, fun _ user h => ⟨user, h, rfl⟩⟩
      split
      · exact ⟨(Keeps.refl db).payment, (Keeps.refl db).user⟩
      · split
        · split
          · exact hrecord
          · split_ifs
            · exact Keeps.refl db
            · exact ⟨hrecord.payment, hrecord.user⟩
        · split
          · exact hrecord
          · split_ifs
            · exact hrecord
            · exact ⟨hrecord.payment, fun _ _ h => user_of_edit
                (fun u => (frame_applyEntitlement u).1) (fun u => (frame_applyEntitlement u).2) h⟩
    · exact ⟨(Keeps.refl db).payment, (Keeps.refl db).user⟩

theorem keeps_cancel (user : User) (atCycleEnd : Bool) (g : GatewayAnswers) :
    Keeps db (cancelSubscriptionForUser db user atCycleEnd g) := by
  unfold cancelSubscriptionForUser
  split
  · exact Keeps.refl db
  · split_ifs
    · exact ⟨fun row h => ⟨row, h, rfl, rfl, rfl⟩, fun _ _ h => user_of_edit
        (fun u => (frame_applyEntitlement u).1) (fun u => (frame_applyEntitlement u).2) h⟩
    · exact Keeps.refl db

theorem keeps_syncPlan (plan : SubscriptionPlan) (answer : Option String) :
    Keeps db (syncPlanToRazorpay db plan answer).1
      ∧ (syncPlanToRazorpay db plan answer).1.payments = db.payments
      ∧ (syncPlanToRazorpay db plan answer).1.users = db.users := by
  unfold syncPlanToRazorpay
  split
  · exact ⟨Keeps.refl db, rfl, rfl⟩
  · split
    · exact ⟨Keeps.refl db, rfl, rfl⟩
    · exact ⟨⟨fun row h => ⟨row, h, rfl, rfl, rfl⟩, fun _ user h => ⟨user, h, rfl⟩⟩, rfl, rfl⟩

/-- A new subscription becomes the handle; what was the handle has to be cancelled by then. -/
theorem handles_addSubscription {user : User}
    {plan : SubscriptionPlan} {sub : GatewaySubscription} (hs : Handles ⟨db, cancelled⟩)
    (huser : db.user user.id = some user) (hne : sub.id ≠ "")
    (hmore : ∀ x ∈ cancelled, x ∈ cancelled')
    (hold : ∀ handle ∈ user.razorpaySubscriptionId, handle ≠ "" → handle ∈ cancelled') :
    Handles ⟨addSubscription db user plan sub, cancelled'⟩ := by
  have hfind : ∀ id, (addSubscription db user plan sub).user id
      = (db.user id).map (editRow (·.id) user.id
        fun u => { u with razorpaySubscriptionId := some sub.id }) := fun id =>
    find?_edit (f := fun u : User => { u with razorpaySubscriptionId := some sub.id })
      (fun _ _ => rfl) _
  have huserId : ∀ id u, db.user id = some u → u.id = id := by
    intro id u h
    simpa using find?_some h
  intro row hrow subId hsub
  rcases mem_append.1 hrow with hrow | hrow
  · have hof := hs row hrow subId hsub
    refine ⟨hof.nonempty, hof.kind, fun hlive user' huser' => ?_⟩
    rw [hfind] at huser'
    obtain ⟨u, hu, rfl⟩ := Option.map_eq_some_iff.1 huser'
    have hhandle := hof.handle (fun hmem => hlive (hmore _ hmem)) u hu
    by_cases hid : u.id = user.id
    · -- the same user: the old subscription was the handle, so it is cancelled by now
      have heq : u = user := by
        rw [← huserId _ _ hu, hid, huser] at hu
        exact (Option.some.inj hu).symm
      subst heq
      exact absurd (hold subId hhandle hof.nonempty) hlive
    · rw [editRow_of_ne hid]
      exact hhandle
  · rw [mem_singleton] at hrow
    subst hrow
    obtain rfl := Option.some.inj hsub
    refine ⟨hne, rfl, fun _ user' huser' => ?_⟩
    rw [hfind, huser] at huser'
    obtain rfl := Option.some.inj huser'
    exact congrArg User.razorpaySubscriptionId (@editRow_of_eq _ _ _ User.id _ _ _ rfl)

theorem handles_createSubscription {cancelled' : List String} {user : User}
    {plan : SubscriptionPlan} {g : GatewayAnswers} (hs : Handles ⟨db, cancelled⟩)
    (huser : db.user user.id = some user) (hne : ∀ sub ∈ g.subscription, sub.id ≠ "")
    (hmore : ∀ x ∈ cancelled, x ∈ cancelled')
    (hold : ∀ handle ∈ user.razorpaySubscriptionId, handle ≠ "" → handle ∈ cancelled') :
    Handles ⟨createSubscriptionForUser db user plan g, cancelled'⟩ := by
  unfold createSubscriptionForUser
  obtain ⟨hkeeps, -, husers⟩ := @keeps_syncPlan db plan g.planId
  cases hsync : syncPlanToRazorpay db plan g.planId with
  | mk db' planId =>
    rw [hsync] at hkeeps husers
    have hs' := hkeeps.handles hmore hs
    cases planId with
    | none => exact hs'
    | some planId =>
      cases hsub : g.subscription with
      | none => exact hs'
      | some sub =>
        refine handles_addSubscription hs' ?_ (hne sub hsub) (fun _ h => h) hold
        rw [Database.user, show db'.users = db.users from husers]
        exact huser

theorem handles_changePlan {user : User} {plan : SubscriptionPlan} {g : GatewayAnswers}
    {userId planId : ℕ} (hs : Handles ⟨db, cancelled⟩) (huser : db.user userId = some user)
    (hplan : db.plan planId = some plan) (hne : ∀ sub ∈ g.subscription, sub.id ≠ "") :
    Handles ⟨changePlanForUser db user plan g,
      (cancels db (.changePlan userId planId g)).toList ++ cancelled⟩ := by
  have huserId : user.id = userId := by simpa using find?_some huser
  have hmore : ∀ x ∈ cancelled,
      x ∈ (cancels db (.changePlan userId planId g)).toList ++ cancelled :=
    fun x h => mem_append_right _ h
  unfold changePlanForUser
  cases hhandle : truthy user.razorpaySubscriptionId with
  | none =>
    refine handles_createSubscription hs (huserId ▸ huser) hne hmore fun handle hmem hne' => ?_
    rw [hmem] at hhandle
    simp [truthy, hne'] at hhandle
  | some handle =>
    obtain ⟨hkeeps, -, husers⟩ := @keeps_syncPlan db plan g.planId
    cases hsync : syncPlanToRazorpay db plan g.planId with
    | mk db' rzpPlanId =>
      rw [hsync] at hkeeps husers
      have hs' := hkeeps.handles hmore hs
      cases rzpPlanId with
      | none => exact hs'
      | some rzpPlanId =>
        cases hsub : g.subscription with
        | none => exact hs'
        | some sub =>
          split_ifs with hcancelled
          · refine handles_addSubscription hs' ?_ (hne sub hsub) (fun _ h => h)
              fun old hold hne' => ?_
            · rw [Database.user, show db'.users = db.users from husers]
              exact huserId ▸ huser
            · have hcancels : cancels db (.changePlan userId planId g) = some handle := by
                simp [cancels, huser, hplan, hhandle, hsync, hsub, hcancelled]
              rw [hold] at hhandle
              have heq : old = handle ∧ handle ≠ "" := by simpa [truthy] using hhandle
              rw [hcancels, heq.1]
              exact mem_cons_self ..
          · exact hs'

theorem nonempty_of_fresh {answer : Option GatewaySubscription}
    (h : answer.all (fun sub => sub.id ≠ ""
      ∧ db.payments.all (·.razorpaySubscriptionId ≠ some sub.id)) = true) :
    ∀ sub ∈ answer, sub.id ≠ "" := by
  intro sub hsub
  have hfresh := (Option.all_eq_true _ _).1 h sub hsub
  rw [decide_eq_true_eq] at hfresh
  exact hfresh.1

/-- Every action keeps the handles, if who subscribes has no other subscription. -/
theorem handles_next {s t : Billed} {a : Action} (hs : Handles s) (hok : SubscribesOnce s a)
    (h : next s a = some t) : Handles t := by
  obtain ⟨db, cancelled⟩ := s
  unfold next at h
  split_ifs at h with hfresh
  obtain rfl := Option.some.inj h
  have hmore : ∀ x ∈ cancelled, x ∈ (cancels db a).toList ++ cancelled :=
    fun x h => mem_append_right _ h
  cases a with
  | subscribe userId planId g =>
    simp only [step]
    cases huser : db.user userId with
    | none => exact (Keeps.refl db).handles hmore hs
    | some user =>
      cases hplan : db.plan planId with
      | none => exact (Keeps.refl db).handles hmore hs
      | some plan =>
        have huserId : user.id = userId := by simpa using find?_some huser
        exact handles_createSubscription hs (huserId ▸ huser) (nonempty_of_fresh hfresh) hmore
          fun handle hmem _ => hmore _ (hok user huser handle hmem)
  | changePlan userId planId g =>
    simp only [step]
    cases huser : db.user userId with
    | none => exact (Keeps.refl db).handles hmore hs
    | some user =>
      cases hplan : db.plan planId with
      | none => exact (Keeps.refl db).handles hmore hs
      | some plan => exact handles_changePlan hs huser hplan (nonempty_of_fresh hfresh)
  | cancel userId atCycleEnd g =>
    simp only [step]
    cases huser : db.user userId with
    | none => exact (Keeps.refl db).handles hmore hs
    | some user => exact (keeps_cancel user atCycleEnd g).handles hmore hs
  | event e => exact (keeps_handleWebhookEvent db e).handles hmore hs

end Handles

/-- The user may use the plan, at least for as long as the charge pays. -/
def Served (user : User) (e : WebhookEvent) : Prop :=
  user.planStatus = .active ∧ ∀ t ∈ e.currentEnd, ∀ x ∈ user.planExpiresAt, t.val ≤ x

theorem served_of_handle {db : Database} {e : WebhookEvent} {subId : String}
    {row : RazorpayPayment} {user : User} (htype : e.type = .charged)
    (hsub : e.subId = some subId) (hne : subId ≠ "") (hnew : e.id ∉ db.eventIds)
    (hrow : db.paymentBySub subId = some row) (hkind : row.kind = .platformPlan)
    (huser : db.user row.userId = some user)
    (hhandle : user.razorpaySubscriptionId = some subId) :
    ∃ user', (step db (.event e)).user row.userId = some user' ∧ Served user' e := by
  have htruthy : truthy (some subId) = some subId := by simp [truthy, hne]
  have hcurrent : user.superseded subId = false := by simp [User.superseded, hhandle]
  have hstatus : e.type.status = some .active := by rw [htype]; rfl
  refine ⟨applyEntitlement row.planId .active (expiresAt e.currentEnd) user, ?_, rfl, ?_⟩
  · simp only [step, handleWebhookEvent, if_neg hnew, hsub, htruthy, hstatus, hrow, hkind, huser,
      hcurrent]
    have hedit := find?_edit (f := applyEntitlement row.planId .active (expiresAt e.currentEnd))
      (p := fun u => decide (u.id = row.userId))
      (fun u (_ : u.id = user.id) => by rw [(frame_applyEntitlement u).1]) db.users
    have hfind : db.users.find? (fun u => decide (u.id = row.userId)) = some user := huser
    rw [hfind] at hedit
    exact hedit.trans (congrArg some (editRow_of_eq rfl))
  · intro t ht x hx
    have hx : expiresAt e.currentEnd = some x := hx
    rw [ht, expiresAt, Option.filter_eq_some_iff] at hx
    exact le_of_eq (Option.some.inj hx.1)

/-- Where users subscribe anew only after a cancellation, a charge reaches its user's plan. -/
theorem charged_user_served (db₀ : Database) (hpayments : db₀.payments = [])
    (actions : List Action) (s : Billed)
    (hrun : Run next SubscribesOnce ⟨db₀, []⟩ actions s) (e : WebhookEvent) (subId : String)
    (row : RazorpayPayment) (user : User) (htype : e.type = .charged)
    (hsub : e.subId = some subId) (hnew : e.id ∉ s.db.eventIds)
    (hrow : s.db.paymentBySub subId = some row) (huser : s.db.user row.userId = some user)
    (hlive : subId ∉ s.cancelled) :
    ∃ user', (step s.db (.event e)).user row.userId = some user' ∧ Served user' e := by
  have hhandles : Handles s := hrun.invariant (fun _ _ _ => handles_next) fun row h => by
    rw [hpayments] at h
    cases h
  have hkey : row.razorpaySubscriptionId = some subId := by simpa using find?_some hrow
  have hof := hhandles row (mem_of_find?_eq_some hrow) subId hkey
  exact served_of_handle htype hsub hof.nonempty hnew hrow hof.kind huser
    (hof.handle hlive user huser)

def newcomer : Database where
  users := [⟨1, .none, none, none, none⟩]
  plans := [⟨4, some 999, some "plan_A"⟩]
  payments := []
  subscriptions := []
  listings := []
  eventIds := []

def answering (subId : String) : GatewayAnswers := ⟨none, some ⟨subId, some "created"⟩, true⟩

def firstCharge : WebhookEvent :=
  ⟨"evt_1", .charged, some "sub_A", some ⟨1700000000, by decide⟩, none⟩

def secondCharge : WebhookEvent := { renewal with id := "evt_2" }

/-- `sub_A` is paid, a checkout for `sub_B` is left open, and the renewal of `sub_A` is lost. -/
theorem charged_user_locked_out : ∃ s,
    Run next (fun _ _ => True) ⟨newcomer, []⟩ [.subscribe 1 4 (answering "sub_A"),
      .event firstCharge, .subscribe 1 4 (answering "sub_B")] s
    ∧ "sub_A" ∉ s.cancelled ∧ secondCharge.id ∉ s.db.eventIds
    ∧ ((s.db.paymentBySub "sub_A").map (·.userId)) = some 1
    ∧ (step s.db (.event secondCharge)).user 1
      = some ⟨1, .active, some 4, some 1700000000, some "sub_B"⟩
    ∧ ¬ Served ⟨1, .active, some 4, some 1700000000, some "sub_B"⟩ secondCharge := by
  have hexec : ∃ s, Run next (fun _ _ => True) ⟨newcomer, []⟩
      [.subscribe 1 4 (answering "sub_A"), .event firstCharge,
        .subscribe 1 4 (answering "sub_B")] s
      ∧ "sub_A" ∉ s.cancelled ∧ secondCharge.id ∉ s.db.eventIds
      ∧ ((s.db.paymentBySub "sub_A").map (·.userId)) = some 1
      ∧ (step s.db (.event secondCharge)).user 1
        = some ⟨1, .active, some 4, some 1700000000, some "sub_B"⟩ := by
    decide +kernel
  obtain ⟨s, hrun, hlive, hnew, hrow, huser⟩ := hexec
  refine ⟨s, hrun, hlive, hnew, hrow, huser, fun hserved => ?_⟩
  have hle := hserved.2 ⟨1702592000, by decide⟩ rfl 1700000000 rfl
  exact absurd hle (by decide)

/-- A first subscription and its charge. -/
theorem charged_user_served_newcomer :
    ∃ s, Run next SubscribesOnce ⟨newcomer, []⟩ [.subscribe 1 4 (answering "sub_A")] s
      ∧ ∃ user', (step s.db (.event firstCharge)).user 1 = some user'
        ∧ Served user' firstCharge := by
  have hnext : next ⟨newcomer, []⟩ (.subscribe 1 4 (answering "sub_A"))
      = some ⟨addSubscription newcomer ⟨1, .none, none, none, none⟩ ⟨4, some 999, some "plan_A"⟩
        ⟨"sub_A", some "created"⟩, []⟩ := by
    rfl
  have hok : SubscribesOnce ⟨newcomer, []⟩ (.subscribe 1 4 (answering "sub_A")) := by
    intro user huser handle hhandle
    have heq : user = ⟨1, .none, none, none, none⟩ := (Option.some.inj huser).symm
    subst heq
    cases hhandle
  exact ⟨_, .single hok hnext, charged_user_served newcomer rfl _ _ (.single hok hnext)
    firstCharge "sub_A" _ _ rfl rfl (by decide) rfl rfl (by decide)⟩

end TradingBridge.Billing
