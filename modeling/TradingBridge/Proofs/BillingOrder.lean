import TradingBridge.Billing

/-!
# Events out of order

Each event overwrites the status, so a status is that of the event that came last, not of the
latest one. A run of deliveries is the overwriting of the account by the first deliveries that
reach it, and two orders of the same events agree exactly if they end in the same status and the
same access.
-/

namespace TradingBridge.Billing

open Delivery List

/-- To a user's plan, or to a marketplace seat, which may be taken by another subscription. -/
inductive Route
  | nowhere
  | plan (user : ℕ)
  | seat (sub : ℕ) (taken : Bool)
  deriving DecidableEq

def Database.routeOf (db : Database) (subId : String) (row : RazorpayPayment) : Route :=
  match row.kind with
  | .marketplace =>
    match db.subscriptionOf row with
    | none => .nowhere
    | some sub => .seat sub.id (db.seatTaken sub)
  | .platformPlan =>
    match db.user row.userId with
    | none => .nowhere
    | some user => if user.superseded subId then .nowhere else .plan user.id

def Database.route (db : Database) (subId : String) : Route :=
  match db.paymentBySub subId with
  | none => .nowhere
  | some row => db.routeOf subId row

def Route.takes : Route → PlanStatus → Bool
  | .nowhere, _ => false
  | .plan _, _ => true
  | .seat _ taken, newStatus => !(newStatus = .active ∧ taken = true)

/-- The event gets as far as the account. -/
def Database.reaches (db : Database) (subId : String) (e : WebhookEvent) : Bool :=
  match e.type.status with
  | none => false
  | some newStatus => subId ≠ "" ∧ (db.route subId).takes newStatus = true

/-- A plan's status, or a marketplace subscription's status and access window. -/
inductive Account
  | plan (status : PlanStatus)
  | marketplace (status : PlanStatus) (accessUntil : Option ℤ)
  deriving DecidableEq

def Database.accountOf (db : Database) (row : RazorpayPayment) : Option Account :=
  match row.kind with
  | .marketplace => (db.subscriptionOf row).map fun s => .marketplace s.status s.accessUntil
  | .platformPlan => (db.user row.userId).map fun u => .plan u.planStatus

def Database.account (db : Database) (subId : String) : Option Account :=
  (db.paymentBySub subId).bind db.accountOf

/-- The access window an event sets, if it sets one. -/
def WebhookEvent.window (e : WebhookEvent) : Option (Option ℤ) :=
  if e.type.status = some .active then some (expiresAt e.currentEnd) else none

def Account.write : Account → WebhookEvent → Account
  | .plan status, e => .plan (overwrite (·.type.status) status e)
  | .marketplace status window, e =>
    .marketplace (overwrite (·.type.status) status e) (overwrite WebhookEvent.window window e)

section Frames

variable {db : Database} {e : WebhookEvent} {subId : String} {row : RazorpayPayment}

theorem paymentBySub_recordPayment : (recordPayment e subId db).paymentBySub subId
    = (db.paymentBySub subId).map (markPayment e) := by
  have hfind : (recordPayment e subId db).paymentBySub subId
      = (db.paymentBySub subId).map
        (editRow (·.razorpaySubscriptionId) (some subId) (markPayment e)) :=
    find?_edit (f := markPayment e) (fun _ _ => rfl) _
  rw [hfind]
  unfold Database.paymentBySub
  cases hrow : db.payments.find? (·.razorpaySubscriptionId = some subId) with
  | none => rfl
  | some row =>
    have hkey : row.razorpaySubscriptionId = some subId := by
      simpa using find?_some hrow
    exact congrArg some (editRow_of_eq hkey)

theorem route_recordPayment : (recordPayment e subId db).route subId = db.route subId := by
  unfold Database.route
  rw [paymentBySub_recordPayment]
  cases db.paymentBySub subId <;> rfl

theorem account_recordPayment : (recordPayment e subId db).account subId = db.account subId := by
  unfold Database.account
  rw [paymentBySub_recordPayment]
  cases db.paymentBySub subId <;> rfl

theorem subscriptionOf_edit {f : MarketplaceSubscription → MarketplaceSubscription} {k : ℕ}
    {listings : List MarketplaceListing} (hf : ∀ s, (f s).id = s.id)
    (hf' : ∀ s, (f s).razorpaySubscriptionId = s.razorpaySubscriptionId) :
    ({ db with subscriptions := edit (·.id) k f db.subscriptions
               listings := listings } : Database).subscriptionOf row
      = (db.subscriptionOf row).map (editRow (·.id) k f) := by
  have hid : ∀ id, (edit (·.id) k f db.subscriptions).find? (·.id = id)
      = (db.subscriptions.find? (·.id = id)).map (editRow (·.id) k f) :=
    fun id => find?_edit (fun s _ => by rw [hf]) _
  have hsub : ∀ sub, (edit (·.id) k f db.subscriptions).find? (·.razorpaySubscriptionId = some sub)
      = (db.subscriptions.find? (·.razorpaySubscriptionId = some sub)).map
        (editRow (·.id) k f) :=
    fun sub => find?_edit (fun s _ => by rw [hf']) _
  unfold Database.subscriptionOf
  simp only [hid, hsub]
  cases row.marketplaceSubscriptionId with
  | none => cases truthy row.razorpaySubscriptionId <;> rfl
  | some id =>
    cases hfind : db.subscriptions.find? (·.id = id) with
    | none => cases truthy row.razorpaySubscriptionId <;> simp [hfind]
    | some s => simp [hfind]

variable {listing : Option MarketplaceListing} {newStatus : PlanStatus} {upTo : Option ℤ}
  (s : MarketplaceSubscription)

theorem id_applyStatus : (applyStatus listing newStatus upTo s).id = s.id := by
  unfold applyStatus
  split_ifs <;> rfl

theorem razorpaySubscriptionId_applyStatus :
    (applyStatus listing newStatus upTo s).razorpaySubscriptionId
      = s.razorpaySubscriptionId := by
  unfold applyStatus
  split_ifs <;> rfl

theorem seat_applyStatus : (applyStatus listing newStatus upTo s).listingId = s.listingId
      ∧ (applyStatus listing newStatus upTo s).subscriberId = s.subscriberId := by
  unfold applyStatus
  split_ifs <;> exact ⟨rfl, rfl⟩

theorem frame_applyEntitlement {planId : Option ℕ}
    (u : User) : (applyEntitlement planId newStatus upTo u).id = u.id
      ∧ (applyEntitlement planId newStatus upTo u).razorpaySubscriptionId
        = u.razorpaySubscriptionId := by
  unfold applyEntitlement
  split_ifs <;> exact ⟨rfl, rfl⟩

end Frames

section Step

variable {db : Database} {e : WebhookEvent} {subId : String} {row : RazorpayPayment}

/-- What an event that was not processed before does to its subscription. -/
structure Effect (db db' : Database) (subId : String) (e : WebhookEvent) : Prop where
  route : db'.route subId = db.route subId
  account : db'.account subId = if db.reaches subId e then
    (db.account subId).map (·.write e) else db.account subId
  eventIds : db'.eventIds = e.id :: db.eventIds
    ∨ db.reaches subId e = false ∧ db'.eventIds = db.eventIds

variable {sub : MarketplaceSubscription} {newStatus : PlanStatus} {db' : Database}

theorem effect_recorded (hroute : db'.route subId = db.route subId)
    (haccount : db'.account subId = db.account subId) (hids : db'.eventIds = e.id :: db.eventIds)
    (hreach : db.reaches subId e = false) : Effect db db' subId e :=
  ⟨hroute, by rw [hreach, haccount]; rfl, Or.inl hids⟩

theorem reaches_of_nowhere (h : db.route subId = .nowhere) : db.reaches subId e = false := by
  unfold Database.reaches
  cases e.type.status with
  | none => rfl
  | some newStatus => simp [h, Route.takes]

theorem route_of_seat (hrow : db.paymentBySub subId = some row)
    (hkind : row.kind = .marketplace) (hfind : db.subscriptionOf row = some sub) :
    db.route subId = .seat sub.id (db.seatTaken sub)
      ∧ db.account subId = some (.marketplace sub.status sub.accessUntil) := by
  constructor
  · simp [Database.route, hrow, Database.routeOf, hkind, hfind]
  · simp [Database.account, hrow, Database.accountOf, hkind, hfind]

theorem route_of_plan {user : User} (hrow : db.paymentBySub subId = some row)
    (hkind : row.kind = .platformPlan) (hfind : db.user row.userId = some user)
    (hcurrent : user.superseded subId = false) :
    db.route subId = .plan user.id ∧ db.account subId = some (.plan user.planStatus) := by
  constructor
  · simp only [Database.route, hrow, Database.routeOf, hkind, hfind, hcurrent]
    rfl
  · simp [Database.account, hrow, Database.accountOf, hkind, hfind]

theorem effect_seat
    (hstatus : e.type.status = some newStatus) (hsub : subId ≠ "")
    (hrow : db.paymentBySub subId = some row) (hkind : row.kind = .marketplace)
    (hfind : db.subscriptionOf row = some sub)
    (hfree : ¬ (newStatus = .active ∧ db.seatTaken sub = true)) :
    Effect db (applyMarketplaceSubscription (recordPayment e subId db) sub newStatus
      (expiresAt e.currentEnd)) subId e := by
  set f := applyStatus (db.listing sub.listingId) newStatus (expiresAt e.currentEnd) with hf
  set db' := applyMarketplaceSubscription (recordPayment e subId db) sub newStatus
    (expiresAt e.currentEnd) with hdb'
  have hrow' : db'.paymentBySub subId = some (markPayment e row) := by
    have hrecord := @paymentBySub_recordPayment db e subId
    rw [hrow] at hrecord
    exact hrecord
  have hfind' : db'.subscriptionOf (markPayment e row) = some (f sub) := by
    have hedit : db'.subscriptionOf (markPayment e row)
        = (db.subscriptionOf row).map (editRow (·.id) sub.id f) :=
      subscriptionOf_edit id_applyStatus razorpaySubscriptionId_applyStatus
    rw [hedit, hfind]
    exact congrArg some (editRow_of_eq rfl)
  have htaken : db'.seatTaken (f sub) = db.seatTaken sub := by
    obtain ⟨hlisting, hsubscriber⟩ := @seat_applyStatus (db.listing sub.listingId) newStatus
      (expiresAt e.currentEnd) sub
    unfold Database.seatTaken
    rw [hlisting, hsubscriber, id_applyStatus]
    refine any_edit (fun s hs => ?_) _
    simp [id_applyStatus, show s.id = sub.id from hs]
  obtain ⟨hroute, haccount⟩ := route_of_seat hrow hkind hfind
  obtain ⟨hroute', haccount'⟩ := route_of_seat hrow' hkind hfind'
  have hreach : db.reaches subId e = true := by
    simp only [Database.reaches, hstatus, hroute, Route.takes]
    simp [hsub, hfree]
  refine ⟨?_, ?_, Or.inl rfl⟩
  · rw [hroute, hroute', htaken, id_applyStatus]
  · rw [if_pos hreach, haccount, haccount']
    simp only [Option.map_some, Account.write, overwrite, WebhookEvent.window, hstatus, hf,
      applyStatus]
    by_cases hactive : newStatus = .active
    · simp [hactive]
    · simp [hactive]

theorem effect_plan {user : User}
    (hstatus : e.type.status = some newStatus) (hsub : subId ≠ "")
    (hrow : db.paymentBySub subId = some row) (hkind : row.kind = .platformPlan)
    (hfind : db.user row.userId = some user) (hcurrent : user.superseded subId = false)
    (hdb' : db' = { recordPayment e subId db with
      users := edit (·.id) user.id
        (applyEntitlement row.planId newStatus (expiresAt e.currentEnd)) db.users }) :
    Effect db db' subId e := by
  set f := applyEntitlement row.planId newStatus (expiresAt e.currentEnd) with hf
  have hrow' : db'.paymentBySub subId = some (markPayment e row) := by
    have hrecord := @paymentBySub_recordPayment db e subId
    rw [hrow] at hrecord
    rw [hdb']
    exact hrecord
  have hfind' : db'.user row.userId = some (f user) := by
    have hedit : db'.user row.userId = (db.user row.userId).map (editRow (·.id) user.id f) := by
      rw [hdb']
      exact find?_edit (fun u _ => by rw [(frame_applyEntitlement _).1]) _
    rw [hedit, hfind]
    exact congrArg some (editRow_of_eq rfl)
  have hcurrent' : (f user).superseded subId = false := by
    rw [User.superseded, (frame_applyEntitlement _).2]
    exact hcurrent
  obtain ⟨hroute, haccount⟩ := route_of_plan hrow hkind hfind hcurrent
  obtain ⟨hroute', haccount'⟩ := route_of_plan hrow' hkind hfind' hcurrent'
  have hreach : db.reaches subId e = true := by
    simp [Database.reaches, hstatus, hroute, Route.takes, hsub]
  refine ⟨?_, ?_, Or.inl (by rw [hdb']; rfl)⟩
  · rw [hroute, hroute', (frame_applyEntitlement _).1]
  · rw [haccount, haccount']
    simp only [Option.map_some, Account.write, overwrite, hstatus, hf, applyEntitlement]
    split_ifs <;> rfl

theorem handleWebhookEvent_spec (hsub : e.subId = some subId) (hnew : e.id ∉ db.eventIds) :
    Effect db (handleWebhookEvent db e).1 subId e := by
  unfold handleWebhookEvent
  rw [if_neg hnew, hsub]
  cases hstatus : e.type.status with
  | none =>
    exact effect_recorded rfl rfl rfl (by simp [Database.reaches, hstatus])
  | some newStatus =>
    by_cases hempty : subId = ""
    · have htruthy : truthy (some subId) = none := by simp [truthy, hempty]
      rw [htruthy]
      exact effect_recorded rfl rfl rfl (by simp [Database.reaches, hstatus, hempty])
    · have htruthy : truthy (some subId) = some subId := by simp [truthy, hempty]
      rw [htruthy]
      simp only []
      cases hrow : db.paymentBySub subId with
      | none =>
        exact effect_recorded rfl rfl rfl (reaches_of_nowhere (by simp [Database.route, hrow]))
      | some row =>
        have hnowhere : db.routeOf subId row = .nowhere →
            Effect db (recordPayment e subId db) subId e := fun h =>
          effect_recorded route_recordPayment account_recordPayment rfl
            (reaches_of_nowhere (by simp [Database.route, hrow, h]))
        simp only []
        cases hkind : row.kind with
        | marketplace =>
          cases hfind : db.subscriptionOf row with
          | none => exact hnowhere (by simp [Database.routeOf, hkind, hfind])
          | some sub =>
            simp only []
            by_cases htaken : newStatus = .active ∧ db.seatTaken sub = true
            · rw [if_pos htaken]
              have hreach : db.reaches subId e = false := by
                simp [Database.reaches, hstatus, Database.route, hrow, Database.routeOf, hkind,
                  hfind, Route.takes, htaken]
              exact ⟨rfl, by rw [hreach]; rfl, Or.inr ⟨hreach, rfl⟩⟩
            · rw [if_neg htaken]
              exact effect_seat hstatus hempty hrow hkind hfind htaken
        | platformPlan =>
          cases hfind : db.user row.userId with
          | none => exact hnowhere (by simp [Database.routeOf, hkind, hfind])
          | some user =>
            simp only []
            cases hcurrent : user.superseded subId with
            | true =>
              exact hnowhere (by simp [Database.routeOf, hkind, hfind, hcurrent])
            | false => exact effect_plan hstatus hempty hrow hkind hfind hcurrent rfl

end Step

section Deliveries

variable {db : Database} {subId : String} {es fs : List WebhookEvent}

theorem reaches_congr {db' : Database} (h : db'.route subId = db.route subId) :
    db'.reaches subId = db.reaches subId := by
  funext e
  unfold Database.reaches
  rw [h]

theorem account_deliver (hsub : ∀ e ∈ es, e.subId = some subId)
    (hkey : ∀ d ∈ es, ∀ e ∈ es, d.id = e.id → d = e) :
    (deliver db es).account subId = (db.account subId).map
      ((firsts (·.id) db.eventIds (es.filter (db.reaches subId))).foldl Account.write) := by
  induction es generalizing db with
  | nil =>
    exact (Option.map_id' ..).symm
  | cons e es ih =>
    obtain ⟨he, hes⟩ := forall_mem_cons.1 hsub
    have hkey' : ∀ d ∈ es, ∀ e ∈ es, d.id = e.id → d = e := fun d hd e he =>
      hkey d (mem_cons_of_mem _ hd) e (mem_cons_of_mem _ he)
    rw [deliver, foldl_cons, ← deliver, ih hes hkey']
    by_cases hold : e.id ∈ db.eventIds
    · have hsame : (handleWebhookEvent db e).1 = db := by rw [handleWebhookEvent, if_pos hold]
      rw [hsame]
      by_cases hreach : db.reaches subId e = true
      · rw [filter_cons_of_pos hreach, firsts_cons_of_mem hold]
      · rw [filter_cons_of_neg hreach]
    · have heffect := handleWebhookEvent_spec he hold
      rw [reaches_congr heffect.route, heffect.account]
      by_cases hreach : db.reaches subId e = true
      · rcases heffect.eventIds with hids | ⟨hnot, -⟩
        · rw [if_pos hreach, filter_cons_of_pos hreach, firsts_cons_of_not_mem hold, hids,
            Option.map_map]
          rfl
        · rw [hnot] at hreach
          cases hreach
      · -- an event that does not get that far may be recorded, but shares its id with no other
        have hother : ∀ d ∈ es.filter (db.reaches subId), d.id ≠ e.id := by
          intro d hd hid
          obtain ⟨hmem, hd⟩ := mem_filter.1 hd
          have hde := hkey d (mem_cons_of_mem _ hmem) e (mem_cons_self ..) hid
          exact hreach (hde ▸ hd)
        rw [if_neg hreach, filter_cons_of_neg hreach]
        rcases heffect.eventIds with hids | ⟨-, hids⟩
        · rw [hids, firsts_seen hother]
        · rw [hids]

theorem foldl_write_plan (status : PlanStatus) : es.foldl Account.write (.plan status)
      = .plan (es.foldl (overwrite (·.type.status)) status) := by
  induction es generalizing status with
  | nil => rfl
  | cons e es ih => exact ih _

theorem foldl_write_marketplace (status : PlanStatus) (window : Option ℤ) :
    es.foldl Account.write (.marketplace status window)
      = .marketplace (es.foldl (overwrite (·.type.status)) status)
        (es.foldl (overwrite WebhookEvent.window) window) := by
  induction es generalizing status window with
  | nil => rfl
  | cons e es ih => exact ih _ _

theorem account_cases (db : Database) (subId : String) : (∀ e, db.reaches subId e = false)
      ∨ (∃ u s, db.route subId = .plan u ∧ db.account subId = some (.plan s))
      ∨ ∃ i t s w, db.route subId = .seat i t ∧ db.account subId = some (.marketplace s w) := by
  have hroute : db.route subId = .nowhere
      ∨ (∃ u s, db.route subId = .plan u ∧ db.account subId = some (.plan s))
      ∨ ∃ i t s w, db.route subId = .seat i t
        ∧ db.account subId = some (.marketplace s w) := by
    unfold Database.route Database.account
    cases db.paymentBySub subId with
    | none => exact .inl rfl
    | some row =>
      simp only [Option.bind_some, Database.routeOf, Database.accountOf]
      cases row.kind with
      | marketplace => cases db.subscriptionOf row <;> simp
      | platformPlan =>
        cases db.user row.userId with
        | none => exact .inl rfl
        | some user => cases hcurrent : user.superseded subId <;> simp [hcurrent]
  exact hroute.imp_left fun h _ => reaches_of_nowhere h

/-- The events that reach the account, in the order of a list. -/
def Database.reaching (db : Database) (subId : String) (es : List WebhookEvent) :
    List WebhookEvent :=
  es.filter (db.reaches subId)

/-- In the gateway's order, the latest event decides the status, and the latest that grants access
the window. -/
def Database.determined (db : Database) (subId : String) (gatewayOrder : List WebhookEvent) :
    Option Account :=
  (db.account subId).map ((db.reaching subId gatewayOrder).foldl Account.write)

/-- The last first delivery leads to the status of the gateway's latest event, and likewise for the
access window. -/
structure Database.EndsAsGateway (db : Database) (subId : String)
    (delivered gatewayOrder : List WebhookEvent) : Prop where
  status : lastThat (·.type.status) (firsts (·.id) db.eventIds (db.reaching subId delivered))
    = lastThat (·.type.status) (db.reaching subId gatewayOrder)
  window : ∀ i t, db.route subId = .seat i t →
    lastThat WebhookEvent.window (firsts (·.id) db.eventIds (db.reaching subId delivered))
      = lastThat WebhookEvent.window (db.reaching subId gatewayOrder)

end Deliveries

/-- In any order and repetition, events leave what they determine exactly if the last first delivery
says what the latest event says. -/
theorem delivery_order_iff (db : Database) (subId : String)
    (gatewayOrder delivered : List WebhookEvent)
    (hids : (gatewayOrder.map (·.id)).Nodup)
    (hnew : ∀ e ∈ gatewayOrder, e.id ∉ db.eventIds)
    (hsub : ∀ e ∈ gatewayOrder, e.subId = some subId)
    (hdelivered : ∀ e, e ∈ delivered ↔ e ∈ gatewayOrder) :
    (deliver db delivered).account subId = db.determined subId gatewayOrder
      ↔ db.EndsAsGateway subId delivered gatewayOrder := by
  have hkey : ∀ d ∈ delivered, ∀ e ∈ delivered, d.id = e.id → d = e := by
    intro d hd e he
    exact inj_on_of_nodup_map hids ((hdelivered d).1 hd) ((hdelivered e).1 he)
  have hfirsts : ∀ e, e ∈ firsts (·.id) db.eventIds (db.reaching subId delivered)
      ↔ e ∈ db.reaching subId gatewayOrder := by
    intro e
    have hkey' : ∀ d ∈ db.reaching subId delivered, ∀ e ∈ db.reaching subId delivered,
        d.id = e.id → d = e := fun d hd e he =>
      hkey d (mem_filter.1 hd).1 e (mem_filter.1 he).1
    rw [mem_firsts_iff hkey', Database.reaching, Database.reaching, mem_filter,
      mem_filter, hdelivered]
    exact ⟨fun h => h.1, fun h => ⟨h, hnew e h.1⟩⟩
  rw [account_deliver (fun e he => hsub e ((hdelivered e).1 he)) hkey, Database.determined,
    ← Database.reaching]
  rcases account_cases db subId with
    hnone | ⟨u, s, hroute, haccount⟩ | ⟨i, t, s, w, hroute, haccount⟩
  · have hempty : ∀ es, db.reaching subId es = [] := fun es =>
      filter_eq_nil_iff.2 fun e _ => by simp [hnone]
    refine iff_of_true ?_ ⟨?_, fun _ _ _ => ?_⟩ <;> simp [hempty, firsts]
  · rw [haccount]
    simp only [Option.map_some, Option.some.injEq, foldl_write_plan, Account.plan.injEq]
    rw [foldl_overwrite_eq_iff hfirsts]
    exact ⟨fun h => ⟨h, fun i t hi => by rw [hroute] at hi; cases hi⟩, fun h => h.status⟩
  · rw [haccount]
    simp only [Option.map_some, Option.some.injEq, foldl_write_marketplace,
      Account.marketplace.injEq]
    rw [foldl_overwrite_eq_iff hfirsts, foldl_overwrite_eq_iff hfirsts]
    exact ⟨fun h => ⟨h.1, fun _ _ _ => h.2⟩, fun h => ⟨h.status, h.window i t hroute⟩⟩

/-- A user with a paid subscription. -/
def subscribed : Database where
  users := [⟨1, .active, some 4, some 1700000000, some "sub_A"⟩]
  plans := []
  payments := [⟨1, .platformPlan, some 4, none, some "sub_A", none, "charged", none⟩]
  subscriptions := []
  listings := []
  eventIds := []

def renewal : WebhookEvent := ⟨"evt_1", .charged, some "sub_A", some ⟨1702592000, by decide⟩, none⟩

def cancellation : WebhookEvent := ⟨"evt_2", .cancelled, some "sub_A", none, none⟩

/-- The renewal comes after the cancellation that followed it, and revives the plan. -/
theorem delayed_renewal_revives :
    (deliver subscribed [cancellation, renewal]).account "sub_A" = some (.plan .active)
      ∧ subscribed.determined "sub_A" [renewal, cancellation] = some (.plan .cancelled) := by
  decide +kernel

/-- In the order of the gateway, with a repetition, the plan ends cancelled. -/
theorem delivery_order_iff_repeated :
    (deliver subscribed [renewal, cancellation, renewal]).account "sub_A"
      = subscribed.determined "sub_A" [renewal, cancellation] := by
  refine (delivery_order_iff subscribed "sub_A" [renewal, cancellation]
    [renewal, cancellation, renewal] (by decide +kernel) (by decide +kernel) (by decide +kernel)
    (by simp; tauto)).2 ⟨by decide +kernel, ?_⟩
  intro i t hroute
  exact absurd hroute (by
    nofun)

end TradingBridge.Billing
