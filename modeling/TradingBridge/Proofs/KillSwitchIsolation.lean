import TradingBridge.Proofs.Specs

/-!
# Whose account a square-off trades in

A trip takes on every open position of the user, owner's and subscriber's alike, by the mode of
the strategy and on the credential the position carries. So a trip stays in the user's own account,
and off paper subscriptions, exactly when each live position with a side and a credential does.
-/

namespace TradingBridge

open Effectful Prog List

section SquareOff

variable {cfg : Settings} {U : UserId} {d : Db} {p : StrategyPosition}

def StrategyPosition.HasSide (p : StrategyPosition) : Prop :=
  (strip p.side).toLower ∈ ["buy", "long", "sell", "short"]

instance (p : StrategyPosition) : Decidable p.HasSide := inferInstanceAs (Decidable (_ ∈ _))

theorem oppositeSide_ok_iff : (∃ side, oppositeSide p.side = .ok side) ↔ p.HasSide := by
  simp only [StrategyPosition.HasSide, mem_cons, oppositeSide]
  split_ifs with hbuy hsell
  · exact iff_of_true ⟨_, rfl⟩ (by tauto)
  · exact iff_of_true ⟨_, rfl⟩ (by tauto)
  · exact iff_of_false (by simp) (by tauto)

def bookIn (cfg : Settings) (U : UserId) (d : Db) (paper : Bool) : List StrategyPosition :=
  (squareOffPositions U d).filter (strategyPaperMode cfg d · = paper)

theorem mem_bookIn {paper : Bool} : p ∈ bookIn cfg U d paper ↔
    p ∈ squareOffPositions U d ∧ strategyPaperMode cfg d p = paper := by
  simp [bookIn]

theorem closed_in_paper_iff {paper : List StrategyPosition} {ts : Nat} :
    (∃ closed, paper.mapM (closePositionInPaper ts) = .ok closed) ↔ ∀ q ∈ paper, q.HasSide := by
  refine Fallible.exists_mapM_eq_ok.trans (forall₂_congr fun q _ => ?_)
  rw [← oppositeSide_ok_iff]
  simp only [closePositionInPaper_eq_ok]
  constructor
  · rintro ⟨-, side, hside, -⟩
    exact ⟨side, hside⟩
  · rintro ⟨side, hside⟩
    exact ⟨_, side, hside, rfl⟩

/-- The credential groups of the live positions, each with its row. -/
def liveGroups (cfg : Settings) (U : UserId) (d : Db) :
    List (CredentialId × Option BrokerCredential) :=
  (credentialsOf (bookIn cfg U d false)).map fun c => (c, d.credential c)

def closeLive (cfg : Settings) (U : UserId) (d : Db) : Code (List KillSwitchActionLog) :=
  mapEach (fun (c, row) => closeGroup U c row
    ((bookIn cfg U d false).filter (·.brokerCredentialId = c))) (liveGroups cfg U d)

theorem executeEmergencySquareOff_exec (w : World) : ((executeEmergencySquareOff cfg U).exec w).2
      = match (bookIn cfg U w.db true).mapM (closePositionInPaper w.clock) with
        | .ok closed =>
          ((closeLive cfg U w.db).exec { w with db := closed.foldl Db.savePosition w.db }).2
        | .error _ => w := by
  have hbook : ∀ paper, bookIn cfg U w.db paper = (((squareOffPositions U w.db).map
      fun p => (p, strategyPaperMode cfg w.db p)).filter (·.2 = paper)).map (·.1) := fun paper => by
    simp [bookIn, filter_map, Function.comp_def]
  have hpaper := hbook true
  have hlive := hbook false
  simp only [Bool.decide_eq_true, Bool.decide_eq_false] at hpaper hlive
  unfold executeEmergencySquareOff
  simp only [exec_readDb, exec_now, ← hpaper, ← hlive]
  cases (bookIn cfg U w.db true).mapM (closePositionInPaper w.clock) with
  | error e => rfl
  | ok closed =>
    exact exec_bind_pure _ _ _

end SquareOff

section Orders

variable {cfg : Settings} {U : UserId} {d : Db} {p : StrategyPosition} {row : BrokerCredential}

/-- The strategy is live, the credential the one it carries, and the side can be closed. -/
structure GoesOut (cfg : Settings) (U : UserId) (d : Db) (p : StrategyPosition)
    (row : BrokerCredential) : Prop where
  taken : p ∈ squareOffPositions U d
  live : strategyPaperMode cfg d p = false
  credential : d.credential p.brokerCredentialId = some row
  side : p.HasSide

def SentFor (U : UserId) (p : StrategyPosition) (row : BrokerCredential) (o : OrderCall) : Prop :=
  o.credential = row.id ∧ o.origin = .killSwitch U p.id

theorem killSwitchBroker_yields {S : Request → Prop} {A : (r : Request) → Response r → Prop}
    (hS : ∀ r, Reads r → S r) (row : BrokerCredential) :
    (killSwitchBroker row).Yields S A fun session => ∀ b, session = .ok b → b = row.id := by
  refine Yields.mono hS (fun _ h => h) (yields_tryCatch (yields_bind (buildBroker_yields row)
    fun b hb => yields_bind (ensureSession_reads b).yields fun _ _ => yields_pure ?_)
    fun e => yields_pure ?_)
  · intro b' hb'
    rw [← Except.ok.inj hb', hb]
  · intro b' hb'
    cases hb'

theorem reads_ordersIn {O : OrderCall → Prop} {r : Request} (h : Reads r) : OrdersIn O r := by
  cases r with
  | placeOrder => exact h.elim
  | _ => trivial

theorem closePositionViaBroker_ordersIn {O : OrderCall → Prop} (b : CredentialId)
    (hO : p.HasSide → ∀ o : OrderCall, o.credential = b → o.origin = .killSwitch U p.id → O o) :
    (closePositionViaBroker U b p).AsksIn (OrdersIn O) := by
  unfold closePositionViaBroker
  cases hside : oppositeSide p.side with
  | error e => exact asksIn_throw e
  | ok side =>
    refine asksIn_bind (ofExcept_asksIn _) fun side => asksIn_bind ?_ fun _ =>
      asksIn_bind (asksIn_mono (fun _ => reads_ordersIn) now_reads) fun _ =>
        (asksIn_perform _).2 trivial
    have hhas := oppositeSide_ok_iff.1 ⟨_, hside⟩
    exact asksIn_bind ((asksIn_perform _).2 (hO hhas _ rfl rfl)) fun _ => ofExcept_asksIn _

theorem closeLive_ordersIn : (closeLive cfg U d).AsksIn
    (OrdersIn fun o => ∃ p row, GoesOut cfg U d p row ∧ SentFor U p row o) := by
  refine asksIn_mapEach fun group hgroup => ?_
  obtain ⟨c, -, rfl⟩ := mem_map.1 hgroup
  cases hrow : d.credential c with
  | none => exact asksIn_pure _
  | some row =>
    refine (killSwitchBroker_yields (fun _ => reads_ordersIn) row).asksIn_bind
      fun session hsession => ?_
    cases session with
    | error e => exact asksIn_pure _
    | ok b =>
      obtain rfl := hsession b rfl
      refine asksIn_bind (asksIn_mapEach fun p hp => asksIn_tryCatch (asksIn_bind
        (closePositionViaBroker_ordersIn _ fun hside o hcred horigin => ?_)
        fun _ => asksIn_pure _) fun _ => asksIn_pure _) fun _ => asksIn_pure _
      obtain ⟨hbook, hc⟩ := mem_filter.1 hp
      obtain ⟨htaken, hlive⟩ := mem_bookIn.1 hbook
      have hcredential : d.credential p.brokerCredentialId = some row := by
        rw [of_decide_eq_true hc, hrow]
      exact ⟨p, row, ⟨htaken, hlive, hcredential, hside⟩, hcred, horigin⟩

/-- An order that goes out is of an environment in which the brokers can be reached. -/
def Environment.Connects (env : Environment) : Prop :=
  ∀ n c, env.answer n (.buildBroker c) = .ok () ∧ env.answer n (.isSessionValid c) = .ok true

variable {w : World}

variable {n : Nat}

theorem closePositionViaBroker_sends (hside : p.HasSide) (hn : n ≤ w.orders.length) :
    Sent n (SentFor U p row) ((closePositionViaBroker U row.id p).exec w).2 := by
  obtain ⟨side, hs⟩ := oppositeSide_ok_iff.2 hside
  unfold closePositionViaBroker
  rw [hs, exec_ofExcept_ok]
  exact sent_bind _ (sent_placeOrder ⟨rfl, rfl⟩ hn)

theorem killSwitchBroker_exec (h : w.env.Connects) (row : BrokerCredential) :
    (killSwitchBroker row).exec w = (.ok (.ok row.id), { w with asked := w.asked + 2 }) := by
  have hbuild := (h w.asked row.id).1
  have hvalid := (h (w.asked + 1) row.id).2
  simp [killSwitchBroker, buildBroker, ensureSession, Code.exec, run_tryCatch, run_bind, handle,
    hbuild, hvalid, ofExcept]

theorem closeGroup_total (c : CredentialId) (row : Option BrokerCredential)
    (group : List StrategyPosition) : (closeGroup U c row group).Total := by
  unfold closeGroup
  split
  · exact total_pure _
  · refine total_bind (total_tryCatch _ fun _ => total_pure _) fun session => ?_
    split
    · exact total_pure _
    · exact total_bind (total_mapEach fun _ _ => total_tryCatch _ fun _ => total_pure _)
        fun _ => total_pure _

theorem closeGroup_sends {c : CredentialId} {group : List StrategyPosition}
    (hw : w.env.Connects) (hn : n ≤ w.orders.length) (hp : p ∈ group) (hside : p.HasSide) :
    Sent n (SentFor U p row) ((closeGroup U c (some row) group).exec w).2 := by
  unfold closeGroup
  rw [exec_bind_ok (killSwitchBroker_exec hw row)]
  exact sent_bind _ (run_mapEach_of_mem length_handle
    sent_handle (fun w hn => sent_tryCatch _ (sent_bind _ (closePositionViaBroker_sends hside hn)))
    (fun _ _ => total_tryCatch _ fun _ => total_pure _) hp hn)

theorem closeLive_sends (hw : w.env.Connects) (hn : n ≤ w.orders.length)
    (h : GoesOut cfg U d p row) : Sent n (SentFor U p row) ((closeLive cfg U d).exec w).2 := by
  have hbook : p ∈ bookIn cfg U d false := mem_bookIn.2 ⟨h.taken, h.live⟩
  have hgroup : (p.brokerCredentialId, some row) ∈ liveGroups cfg U d := by
    refine mem_map.2 ⟨p.brokerCredentialId, ?_, by rw [h.credential]⟩
    exact mem_eraseDups.2 (mem_map.2 ⟨p, hbook, rfl⟩)
  refine run_mapEach_of_mem (I := fun w : World => w.env.Connects ∧ n ≤ w.orders.length)
    (fun w r hw => ⟨?_, length_handle w r hw.2⟩) sent_handle (fun w hw => ?_)
    (fun _ _ => closeGroup_total _ _ _) hgroup ⟨hw, hn⟩
  · rw [handle_env]
    exact hw.1
  · exact closeGroup_sends hw.1 hw.2 (mem_filter.2 ⟨hbook, decide_eq_true rfl⟩) h.side

theorem squareOff_sentFor {w : World} {o : OrderCall}
    (ho : o ∈ sentBy (executeEmergencySquareOff cfg U) w) :
    (∀ q ∈ bookIn cfg U w.db true, q.HasSide)
      ∧ ∃ p row, GoesOut cfg U w.db p row ∧ SentFor U p row o := by
  rw [sentBy, executeEmergencySquareOff_exec] at ho
  cases hclosed : (bookIn cfg U w.db true).mapM (closePositionInPaper w.clock) with
  | error e =>
    rw [hclosed] at ho
    simp at ho
  | ok closed =>
    rw [hclosed] at ho
    exact ⟨closed_in_paper_iff.1 ⟨closed, hclosed⟩, sentBy_of_asksIn closeLive_ordersIn
      { w with db := closed.foldl Db.savePosition w.db } o ho⟩

theorem squareOff_sends (hw : w.env.Connects)
    (hpaper : ∀ q ∈ bookIn cfg U w.db true, q.HasSide) (h : GoesOut cfg U w.db p row) :
    ∃ o ∈ sentBy (executeEmergencySquareOff cfg U) w, SentFor U p row o := by
  obtain ⟨closed, hclosed⟩ := closed_in_paper_iff.2 hpaper
  rw [sentBy, executeEmergencySquareOff_exec, hclosed]
  exact closeLive_sends hw le_rfl h

end Orders

section Trip

variable {cfg : Settings} {U : UserId} {force : Option TripReason} {pnl : ℚ} {w : World}

/-- The trip's reason at a day's P&L: the caller's, or the first limit breached. -/
def breachAt (U : UserId) (force : Option TripReason) (pnl : ℚ) (w : World) : Option TripReason :=
  match force with
  | some reason => some reason
  | none => ((w.db.config U).filter (·.enabled)).bind fun c =>
    evaluateBreach pnl c.maxDailyLossInr (countOf (w.redis.get w.clock (.trades U)))
      c.maxDailyTrades

def ReachesSquareOff (U : UserId) (force : Option TripReason) (pnl : ℚ) (w : World) : Prop :=
  (breachAt U force pnl w).isSome ∧ (w.db.config U).all (·.autoSquareOff)

instance (U : UserId) (force : Option TripReason) (pnl : ℚ) (w : World) :
    Decidable (ReachesSquareOff U force pnl w) := inferInstanceAs (Decidable (_ ∧ _))

theorem tripReason_exec (U : UserId) (force : Option TripReason) (pnl : ℚ) (w : World) :
    (tripReason U (w.db.config U) pnl force).exec w = (.ok (breachAt U force pnl w), w) := by
  cases force with
  | some reason => rfl
  | none =>
    unfold tripReason breachAt
    cases (w.db.config U).filter (·.enabled) <;> rfl

theorem checkAndTrigger_exec (hpnl : w.env.answer w.asked (.dailyPnl U) = .ok pnl)
    (h : ReachesSquareOff U force pnl w) : ((checkAndTrigger cfg U force).exec w).2
      = ((executeEmergencySquareOff cfg U).exec { w with
          asked := w.asked + 1, redis := w.redis.set (.kill U) (.status .tripped) }).2 := by
  obtain ⟨hreason, hauto⟩ := h
  obtain ⟨reason, hreason⟩ := Option.isSome_iff_exists.1 hreason
  have hopted : (w.db.config U).any (!·.autoSquareOff) = false := by
    cases hconfig : w.db.config U <;> simp_all
  have htrip := tripReason_exec U force pnl { w with asked := w.asked + 1 }
  have hask : handle w (.ask (.dailyPnl U)) = (.ok pnl, { w with asked := w.asked + 1 }) := by
    rw [handle, hpnl]
  rw [checkAndTrigger, exec_readDb, exec_perform, hask]
  simp only [exec_ofExcept_ok]
  rw [exec_bind_ok htrip]
  have hreason' : breachAt U force pnl { w with asked := w.asked + 1 } = some reason := hreason
  rw [hreason']
  simp only [hopted]
  exact exec_bind_pure _ _ _

end Trip

section Isolation

variable {cfg : Settings} {U : UserId} {force : Option TripReason} {pnl : ℚ} {w : World}

def Db.ofPaperSubscription (d : Db) (p : StrategyPosition) : Bool :=
  (p.subscriptionId.bind d.subscription).any (·.isPaper)

def Isolated (U : UserId) (d : Db) (o : OrderCall) : Prop :=
  (d.credential o.credential).any (·.userId = U) = true
    ∧ ∀ p ∈ d.positions, o.origin = .killSwitch U p.id → d.ofPaperSubscription p = false

instance (U : UserId) (d : Db) (o : OrderCall) : Decidable (Isolated U d o) :=
  inferInstanceAs (Decidable (_ ∧ _))

/-- Every position an order goes out for is on a credential of the user's and not of a paper
subscription. An unreadable paper side stops the square-off first. -/
def OwnBook (cfg : Settings) (U : UserId) (d : Db) : Prop :=
  (∀ q ∈ squareOffPositions U d, strategyPaperMode cfg d q = true → q.HasSide) →
    ∀ p row, GoesOut cfg U d p row → row.userId = U ∧ d.ofPaperSubscription p = false

variable {row : BrokerCredential}

theorem credential_id {d : Db} {c : CredentialId}
    (h : d.credential c = some row) : row.id = c := by
  simpa using find?_some h

theorem isolated_iff {d : Db} (hids : (d.positions.map (·.id)).Nodup) {p : StrategyPosition}
    {o : OrderCall} (hp : GoesOut cfg U d p row) (ho : SentFor U p row o) :
    Isolated U d o ↔ row.userId = U ∧ d.ofPaperSubscription p = false := by
  have hmem : p ∈ d.positions := (mem_filter.1 hp.taken).1
  have hrow : d.credential o.credential = some row := by
    rw [ho.1, credential_id hp.credential, hp.credential]
  refine and_congr (by simp [hrow]) ⟨fun h => h p hmem ho.2, fun h q hq horigin => ?_⟩
  have hid : q.id = p.id := by
    rw [ho.2] at horigin
    exact (Origin.killSwitch.inj horigin).2.symm
  rwa [inj_on_of_nodup_map hids hq hmem hid]

/-- A world outside that agrees to everything and reports a day's P&L. -/
def Environment.reporting (pnl : ℚ) : Environment where
  answer n
    | .dailyPnl _ => .ok pnl
    | q => (Environment.willing filled).answer n q
  place := (Environment.willing filled).place

theorem reporting_connects (pnl : ℚ) : (Environment.reporting pnl).Connects :=
  fun _ _ => ⟨rfl, rfl⟩

theorem sentBy_checkAndTrigger {env : Environment}
    (hpnl : env.answer w.asked (.dailyPnl U) = .ok pnl)
    (hreach : ReachesSquareOff U force pnl w) :
    sentBy (checkAndTrigger cfg U force) { w with env := env }
      = sentBy (executeEmergencySquareOff cfg U) { w with
          env := env, asked := w.asked + 1,
          redis := w.redis.set (.kill U) (.status .tripped) } :=
  sentBy_congr rfl (congrArg World.orders
    (checkAndTrigger_exec hpnl hreach))

/-- A trip stays in the user's own account and off paper subscriptions exactly when every position
an order goes out for does. -/
theorem trip_isolated_iff (hids : (w.db.positions.map (·.id)).Nodup)
    (hreach : ReachesSquareOff U force pnl w) :
    (∀ env : Environment, env.answer w.asked (.dailyPnl U) = .ok pnl →
      ∀ o ∈ sentBy (checkAndTrigger cfg U force) { w with env := env }, Isolated U w.db o)
    ↔ OwnBook cfg U w.db := by
  constructor
  · intro h hpaper p row hgo
    have hside : ∀ q ∈ bookIn cfg U w.db true, q.HasSide := fun q hq =>
      hpaper q (mem_bookIn.1 hq).1 (mem_bookIn.1 hq).2
    obtain ⟨o, ho, hfor⟩ := squareOff_sends (w := { w with
      env := .reporting pnl, asked := w.asked + 1,
      redis := w.redis.set (.kill U) (.status .tripped) }) (reporting_connects pnl) hside hgo
    refine (isolated_iff hids hgo hfor).1 (h (.reporting pnl) rfl o ?_)
    rwa [sentBy_checkAndTrigger rfl hreach]
  · intro h env hpnl o ho
    rw [sentBy_checkAndTrigger hpnl hreach] at ho
    obtain ⟨hside, p, row, hgo, hfor⟩ := squareOff_sentFor ho
    refine (isolated_iff hids hgo hfor).2 (h (fun q hq hmode => ?_) p row hgo)
    exact hside q (mem_bookIn.2 ⟨hq, hmode⟩)

end Isolation

/-- The sample account, with user 20 subscribed on paper to the strategy of user 10. -/
def subscribedDb : Db :=
  { sampleDb with
    users := [⟨10, true, true⟩, ⟨20, true, true⟩]
    credentials := [⟨7, 10, .dhan, true, 0⟩, ⟨8, 20, .dhan, true, 0⟩]
    subscriptions := [⟨3, 1, 20, true, none, "auto", true, "all", some 8⟩] }

def subscribedPool : Pool := ⟨{ sampleWorld (.willing filled) with db := subscribedDb }, []⟩

def ownersWorld : World :=
  { sampleWorld (.willing filled) with
    db := { subscribedDb with positions := [samplePosition 300 none 10,
      samplePosition 301 (some 3) 20] } }

theorem trip_isolated_owner :
    sentBy (checkAndTrigger sampleSettings 10 (some .manual)) ownersWorld ≠ []
    ∧ ∀ env : Environment, env.answer 0 (.dailyPnl 10) = .ok 0 →
      ∀ o ∈ sentBy (checkAndTrigger sampleSettings 10 (some .manual))
        { ownersWorld with env := env }, Isolated 10 ownersWorld.db o := by
  refine ⟨by decide +kernel, (trip_isolated_iff (w := ownersWorld) (by decide) (by decide)).2 ?_⟩
  intro _ p row h
  have hp : p = samplePosition 300 none 10 := by
    have htaken : squareOffPositions 10 ownersWorld.db = [samplePosition 300 none 10] := by
      decide +kernel
    simpa [htaken] using h.taken
  subst hp
  have hrow : ownersWorld.db.credential 7 = some ⟨7, 10, .dhan, true, 0⟩ := by decide
  obtain rfl := Option.some.inj (hrow.symm.trans h.credential)
  decide

/-- The subscriber's trip sends an order for the mirrored paper position to the owner's account. -/
theorem subscriber_trip_orders_at_owner : ∃ Q : Pool,
    Run (system sampleSettings id).next (fun _ _ => True) subscribedPool
      (.spawn (.webhook (sampleRequest 5 "ENTRY")) :: List.replicate 22 (.step 0)) Q
    ∧ ReachesSquareOff 20 (some .manual) 0 Q.shared
    ∧ ∃ o ∈ sentBy (checkAndTrigger sampleSettings 20 (some .manual)) Q.shared,
      (Q.shared.db.credential o.credential).map (·.userId) = some 10
      ∧ ∃ p ∈ Q.shared.db.positions, o.origin = .killSwitch 20 p.id
        ∧ Q.shared.db.ofPaperSubscription p = true := by
  decide +kernel

end TradingBridge
