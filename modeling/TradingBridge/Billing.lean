import TradingBridge.Lib.Delivery

/-!
# Recurring billing

A payment row links a subscription of the gateway to the user's plan or to a marketplace
subscription, whose status an event overwrites. A user row keeps one handle, the subscription that
was created last.
-/

namespace TradingBridge.Billing

open Delivery

section Rows

inductive PlanStatus
  | none
  | pending
  | active
  | pastDue
  | expired
  | cancelled
  deriving DecidableEq

inductive PaymentKind
  | platformPlan
  | marketplace
  deriving DecidableEq

structure User where
  id : ℕ
  planStatus : PlanStatus
  activePlanId : Option ℕ
  planExpiresAt : Option ℤ
  razorpaySubscriptionId : Option String
  deriving DecidableEq

structure SubscriptionPlan where
  id : ℕ
  priceMonthlyInr : Option ℚ
  razorpayPlanId : Option String

structure RazorpayPayment where
  userId : ℕ
  kind : PaymentKind
  planId : Option ℕ
  marketplaceSubscriptionId : Option ℕ
  razorpaySubscriptionId : Option String
  razorpayPaymentId : Option String
  status : String
  amountInr : Option ℚ

structure MarketplaceSubscription where
  id : ℕ
  listingId : ℕ
  subscriberId : ℕ
  status : PlanStatus
  accessUntil : Option ℤ
  amountPaidInr : ℚ
  razorpaySubscriptionId : Option String

structure MarketplaceListing where
  id : ℕ
  priceInr : ℚ
  subscriberCount : ℤ

structure Database where
  users : List User
  plans : List SubscriptionPlan
  payments : List RazorpayPayment
  subscriptions : List MarketplaceSubscription
  listings : List MarketplaceListing
  eventIds : List String

/-- An optional text as a condition: the empty one counts as none. -/
def truthy (text : Option String) : Option String := text.filter (· ≠ "")

variable (db : Database) (id : ℕ)

def Database.user : Option User := db.users.find? (·.id = id)

def Database.plan : Option SubscriptionPlan := db.plans.find? (·.id = id)

def Database.listing : Option MarketplaceListing :=
  db.listings.find? (·.id = id)

def Database.paymentBySub (subId : String) : Option RazorpayPayment :=
  db.payments.find? (·.razorpaySubscriptionId = some subId)

end Rows

inductive EventType
  | activated
  | charged
  | pending
  | halted
  | cancelled
  | completed
  | other (name : String)
  deriving DecidableEq

def EventType.status : EventType → Option PlanStatus
  | .activated => some .active
  | .charged => some .active
  | .pending => some .pastDue
  | .halted => some .expired
  | .cancelled => some .cancelled
  | .completed => some .expired
  | .other _ => none

def EventType.lastWord : EventType → String
  | .activated => "activated"
  | .charged => "charged"
  | .pending => "pending"
  | .halted => "halted"
  | .cancelled => "cancelled"
  | .completed => "completed"
  | .other name => (name.splitOn ".").getLastD name

abbrev EpochSeconds := { t : ℤ // -2 ^ 63 ≤ t ∧ t < 2 ^ 63 }

structure WebhookEvent where
  id : String
  type : EventType
  subId : Option String
  currentEnd : Option EpochSeconds
  payId : Option String

/-- The end of the period, if a `datetime` can hold it; zero counts as none. -/
def expiresAt (currentEnd : Option EpochSeconds) : Option ℤ :=
  (currentEnd.map Subtype.val).filter fun t =>
    t ≠ 0 ∧ -62135596800 ≤ t ∧ t ≤ 253402300799

inductive WebhookResult
  | applied
  | duplicate
  | ignored
  deriving DecidableEq

section Webhook

def applyEntitlement (planId : Option ℕ) (planStatus : PlanStatus) (planExpiresAt : Option ℤ)
    (user : User) : User :=
  if planStatus = .active then
    { user with
      planStatus := planStatus
      activePlanId := planId <|> user.activePlanId
      planExpiresAt := planExpiresAt }
  else { user with planStatus := planStatus }

variable (db : Database) (e : WebhookEvent)

def Database.subscriptionOf (row : RazorpayPayment) : Option MarketplaceSubscription :=
  (row.marketplaceSubscriptionId.bind fun id => db.subscriptions.find? (·.id = id)) <|>
    (truthy row.razorpaySubscriptionId).bind fun subId =>
      db.subscriptions.find? (·.razorpaySubscriptionId = some subId)

def applyStatus (listing : Option MarketplaceListing) (newStatus : PlanStatus)
    (accessUntil : Option ℤ) (sub : MarketplaceSubscription) : MarketplaceSubscription :=
  if newStatus = .active then
    { sub with
      status := newStatus
      accessUntil := accessUntil
      amountPaidInr := (listing.map (·.priceInr)).getD sub.amountPaidInr }
  else { sub with status := newStatus }

def countSeat (wasActive nowActive : Bool) (listing : MarketplaceListing) : MarketplaceListing :=
  if nowActive then
    if wasActive then listing
    else { listing with subscriberCount := listing.subscriberCount + 1 }
  else if wasActive then
    { listing with subscriberCount := max 0 (listing.subscriberCount - 1) }
  else listing

def applyMarketplaceSubscription (sub : MarketplaceSubscription)
    (newStatus : PlanStatus) (accessUntil : Option ℤ) : Database :=
  { db with
    subscriptions := edit (·.id) sub.id
      (applyStatus (db.listing sub.listingId) newStatus accessUntil) db.subscriptions
    listings := edit (·.id) sub.listingId
      (countSeat (sub.status = .active) (newStatus = .active)) db.listings }

/-- Another active subscription of the user to the listing: the index allows one. -/
def Database.seatTaken (sub : MarketplaceSubscription) : Bool :=
  db.subscriptions.any fun s => s.id ≠ sub.id ∧ s.listingId = sub.listingId
    ∧ s.subscriberId = sub.subscriberId ∧ s.status = .active

def User.superseded (user : User) (subId : String) : Bool :=
  user.razorpaySubscriptionId.any (· ≠ subId)

def markPayment (row : RazorpayPayment) : RazorpayPayment :=
  { row with
    status := e.type.lastWord
    razorpayPaymentId := truthy e.payId <|> row.razorpayPaymentId }

def recordPayment (subId : String) (db : Database) : Database :=
  { db with
    payments := edit (·.razorpaySubscriptionId) (some subId) (markPayment e) db.payments
    eventIds := e.id :: db.eventIds }

/-- The event is recorded and, if listed, applied to what the payment funds. A commit that the index
refuses is rolled back whole. -/
def handleWebhookEvent : Database × WebhookResult :=
  if e.id ∈ db.eventIds then (db, .duplicate)
  else
    let recorded : Database := { db with eventIds := e.id :: db.eventIds }
    match e.type.status, truthy e.subId with
    | some newStatus, some subId =>
      match db.paymentBySub subId with
      | none => (recorded, .ignored)
      | some row =>
        let db' := recordPayment e subId db
        match row.kind with
        | .marketplace =>
          match db.subscriptionOf row with
          | none => (db', .ignored)
          | some sub =>
            if newStatus = .active ∧ db.seatTaken sub = true then (db, .duplicate)
            else (applyMarketplaceSubscription db' sub newStatus (expiresAt e.currentEnd),
              .applied)
        | .platformPlan =>
          match db.user row.userId with
          | none => (db', .ignored)
          | some user =>
            if user.superseded subId then (db', .ignored)
            else
              let apply := applyEntitlement row.planId newStatus (expiresAt e.currentEnd)
              ({ db' with users := edit (·.id) user.id apply db'.users }, .applied)
    | _, _ => (recorded, .ignored)

def deliver (events : List WebhookEvent) : Database :=
  events.foldl (fun db e => (handleWebhookEvent db e).1) db

end Webhook

structure GatewaySubscription where
  id : String
  status : Option String

structure GatewayAnswers where
  planId : Option String
  subscription : Option GatewaySubscription
  cancelled : Bool

def syncPlanToRazorpay (db : Database) (plan : SubscriptionPlan) (answer : Option String) :
    Database × Option String :=
  match truthy plan.razorpayPlanId with
  | some id => (db, some id)
  | none =>
    match answer with
    | none => (db, none)
    | some id =>
      let apply := fun p : SubscriptionPlan => { p with razorpayPlanId := some id }
      ({ db with plans := edit (·.id) plan.id apply db.plans }, some id)

/-- A new subscription becomes the user's handle, before it is paid. -/
def addSubscription (db : Database) (user : User) (plan : SubscriptionPlan)
    (sub : GatewaySubscription) : Database :=
  { db with
    payments := db.payments ++ [{
      userId := user.id, kind := .platformPlan, planId := some plan.id
      marketplaceSubscriptionId := none, razorpaySubscriptionId := some sub.id
      razorpayPaymentId := none, status := (truthy sub.status).getD "created"
      amountInr := plan.priceMonthlyInr }]
    users := edit (·.id) user.id (fun u => { u with razorpaySubscriptionId := some sub.id })
      db.users }

def createSubscriptionForUser (db : Database) (user : User) (plan : SubscriptionPlan)
    (g : GatewayAnswers) : Database :=
  match syncPlanToRazorpay db plan g.planId with
  | (db, none) => db
  | (db, some _) =>
    match g.subscription with
    | none => db
    | some sub => addSubscription db user plan sub

def changePlanForUser (db : Database) (user : User) (plan : SubscriptionPlan)
    (g : GatewayAnswers) : Database :=
  match truthy user.razorpaySubscriptionId with
  | none => createSubscriptionForUser db user plan g
  | some _ =>
    match syncPlanToRazorpay db plan g.planId with
    | (db, none) => db
    | (db, some _) =>
      match g.subscription with
      | none => db
      | some sub => if g.cancelled then addSubscription db user plan sub else db

def cancelSubscriptionForUser (db : Database) (user : User) (atCycleEnd : Bool)
    (g : GatewayAnswers) : Database :=
  match truthy user.razorpaySubscriptionId with
  | none => db
  | some _ =>
    if g.cancelled && !atCycleEnd then
      let apply := applyEntitlement user.activePlanId .cancelled user.planExpiresAt
      { db with users := edit (·.id) user.id apply db.users }
    else db

inductive Action
  | subscribe (userId planId : ℕ) (answers : GatewayAnswers)
  | changePlan (userId planId : ℕ) (answers : GatewayAnswers)
  | cancel (userId : ℕ) (atCycleEnd : Bool) (answers : GatewayAnswers)
  | event (e : WebhookEvent)

def step (db : Database) : Action → Database
  | .subscribe userId planId g =>
    match db.user userId, db.plan planId with
    | some user, some plan => createSubscriptionForUser db user plan g
    | _, _ => db
  | .changePlan userId planId g =>
    match db.user userId, db.plan planId with
    | some user, some plan => changePlanForUser db user plan g
    | _, _ => db
  | .cancel userId atCycleEnd g =>
    match db.user userId with
    | some user => cancelSubscriptionForUser db user atCycleEnd g
    | none => db
  | .event e => (handleWebhookEvent db e).1

def run (db : Database) (actions : List Action) : Database := actions.foldl step db

end TradingBridge.Billing
