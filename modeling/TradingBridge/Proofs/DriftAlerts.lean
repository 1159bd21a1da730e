import TradingBridge.Proofs.BooksAgree

/-!
# Which onsets of drift are alerted

The alert slot of a user and broker keeps the drift it last spoke of, and a clean reconciliation
leaves it as it is. So the slot holds the drift of the last reconciliation that had any
(`lastAlert_runReadings`), and an onset of drift is passed over in silence exactly when, after
clean reconciliations, the same drift comes back within six hours of its alert.
-/

namespace TradingBridge

open List

def Reading.key (r : Reading) : UserId × BrokerName := (r.cred.userId, r.cred.brokerName)

def Reading.drift (r : Reading) : Finset Leg := r.staleLegs.toFinset

theorem Reading.drift_eq_empty {r : Reading} : r.drift = ∅ ↔ r.staleLegs = [] :=
  toFinset_eq_empty_iff _

/-- The credentials a pass reconciles: those whose broker answers. -/
def Pass.readings (p : Pass) : List Reading :=
  (listCredentialsBackingLiveStrategies p.db).filterMap fun cred =>
    (p.read cred.id).map fun read => ⟨p.db, p.telegramEnabled, cred, read⟩

def runReadings (rs : List Reading) : DriftWatch :=
  rs.foldl (fun w r => (reconcileCredential r w).2) .start

theorem reconcileOnce_eq (p : Pass) (w : DriftWatch) :
    (reconcileOnce p w).2 = p.readings.foldl (fun w r => (reconcileCredential r w).2) w := by
  unfold reconcileOnce Pass.readings
  generalize (0 : Nat) = n
  induction listCredentialsBackingLiveStrategies p.db generalizing n w with
  | nil => rfl
  | cons cred creds ih =>
    rw [foldl_cons]
    rcases hread : p.read cred.id with _ | read
    · rw [filterMap_cons_none (by rw [hread]; rfl)]
      exact ih w n
    · rw [filterMap_cons_some (by rw [hread]; rfl)]
      exact ih _ _

theorem runPasses_eq (ps : List Pass) : runPasses ps = runReadings (ps.flatMap Pass.readings) := by
  unfold runPasses runReadings
  generalize DriftWatch.start = w
  induction ps generalizing w with
  | nil => rfl
  | cons p ps ih => rw [foldl_cons, ih, reconcileOnce_eq, flatMap_cons, foldl_append]

theorem runReadings_snoc (rs : List Reading) (r : Reading) :
    runReadings (rs ++ [r]) = (reconcileCredential r (runReadings rs)).2 := by
  simp [runReadings]

section History

/-- The drift of the reconciliation of `k` before this one; none is clean. -/
def previousDrift (k : UserId × BrokerName) (past : List Reading) : Finset Leg :=
  ((past.filter (·.key = k)).getLast?).elim ∅ Reading.drift

def lastDrift (k : UserId × BrokerName) (past : List Reading) : Option (Finset Leg) :=
  ((past.filter fun r => r.key = k ∧ r.drift ≠ ∅).getLast?).map Reading.drift

variable (past : List Reading) (r : Reading)

def alertsOn : List ReconcileAlert :=
  (runReadings (past ++ [r])).sent.drop (runReadings past).sent.length

def Alerted : Prop :=
  .stalePositionRow (sortedLegs r.staleLegs) ∈ alertsOn past r

def Onset : Prop :=
  r.drift ≠ ∅ ∧ previousDrift r.key past ≠ r.drift

/-- The last alert of the reconciliation's slot is less than six hours old. -/
def AlertedLately : Prop :=
  ∃ said time, (runReadings past).lastAlert r.slot = some (said, time)
    ∧ r.read.staleClock - time < alertRepeatSeconds

/-- After a clean pass the drift before it comes back, within six hours of the last alert. -/
def ComesBack : Prop :=
  previousDrift r.key past = ∅ ∧ lastDrift r.key past = some r.drift ∧ AlertedLately past r

end History

section Alerts

variable {key : AlertKey} {legs : List Leg} {now : ℚ} {alert : List Leg → ReconcileAlert}
  {last : LastAlert} {r : Reading}

theorem alertOnce_speaks (h : legs ≠ [] ∧ shouldSpeak (last key) legs.toFinset now = true) :
    alertOnce key legs now alert last
      = ([alert (sortedLegs legs)], Function.update last key (some (legs.toFinset, now))) :=
  if_pos h

theorem alertOnce_silent (h : ¬ (legs ≠ [] ∧ shouldSpeak (last key) legs.toFinset now = true)) :
    alertOnce key legs now alert last = ([], last) := if_neg h

theorem mem_alertOnce {a : ReconcileAlert} (h : a ∈ (alertOnce key legs now alert last).1) :
    a = alert (sortedLegs legs) := by
  by_cases hs : legs ≠ [] ∧ shouldSpeak (last key) legs.toFinset now = true
  · rw [alertOnce_speaks hs] at h
    exact mem_singleton.1 h
  · rw [alertOnce_silent hs] at h
    cases h

theorem alertOnce_other {other : AlertKey} (hne : other ≠ key) :
    (alertOnce key legs now alert last).2 other = last other := by
  by_cases hs : legs ≠ [] ∧ shouldSpeak (last key) legs.toFinset now = true
  · rw [alertOnce_speaks hs]
    exact Function.update_of_ne hne _ _
  · rw [alertOnce_silent hs]

theorem mem_reversePhantoms {cred : CredentialId} :
    ∀ {legs : List Leg} {flagged : String → Option BrokerOrderId} {a : ReconcileAlert},
      a ∈ (reversePhantoms cred legs flagged).1 → ∃ leg order, a = .reversePhantom cred leg order
  | [], _, _, h => by cases h
  | leg :: legs, flagged, a, h => by
    unfold reversePhantoms at h
    split at h
    · exact mem_reversePhantoms h
    · rcases mem_cons.1 h with rfl | h
      · exact ⟨_, _, rfl⟩
      · exact mem_reversePhantoms h

def Speaks (r : Reading) (last : LastAlert) : Prop :=
  r.staleLegs ≠ [] ∧ shouldSpeak (last r.slot) r.drift r.read.staleClock = true

theorem staleAlert_speaks (h : Speaks r last) :
    r.staleAlert last = ([.stalePositionRow (sortedLegs r.staleLegs)],
      Function.update last r.slot (some (r.drift, r.read.staleClock))) := alertOnce_speaks h

theorem staleAlert_silent (h : ¬ Speaks r last) : r.staleAlert last = ([], last) :=
  alertOnce_silent h

theorem mismatches_ne_zero (h : r.staleLegs ≠ []) : mismatches r.rows r.read.positions ≠ 0 := by
  have hpos : 0 < r.staleLegs.length := length_pos_iff.2 h
  unfold mismatches
  unfold Reading.staleLegs at hpos
  omega

theorem stale_mem_credentialAlerts :
    .stalePositionRow (sortedLegs r.staleLegs) ∈ (credentialAlerts r last).1 ↔ Speaks r last := by
  constructor
  · intro h
    unfold credentialAlerts at h
    split at h
    · cases h
    · simp only [mem_append] at h
      rcases h with ((h | h) | h) | h
      · obtain ⟨leg, order, h⟩ := mem_reversePhantoms h
        cases h
      · by_contra hs
        rw [staleAlert_silent hs] at h
        cases h
      · cases mem_alertOnce h
      · split at h
        · cases mem_singleton.1 h
        · cases h
  · intro h
    unfold credentialAlerts
    rw [if_neg (mismatches_ne_zero h.1), staleAlert_speaks h]
    simp

theorem credentialAlerts_stale (u : UserId) (b : BrokerName) :
    (Speaks r last ∧ AlertKey.stale u b = r.slot
        ∧ (credentialAlerts r last).2.1 (.stale u b) = some (r.drift, r.read.staleClock))
      ∨ (¬ (Speaks r last ∧ AlertKey.stale u b = r.slot)
        ∧ (credentialAlerts r last).2.1 (.stale u b) = last (.stale u b)) := by
  unfold credentialAlerts
  by_cases hs : Speaks r last
  · rw [if_neg (mismatches_ne_zero hs.1)]
    simp only []
    rw [alertOnce_other (by simp), staleAlert_speaks hs]
    by_cases hslot : AlertKey.stale u b = r.slot
    · exact .inl ⟨hs, hslot, by rw [hslot]; exact Function.update_self _ _ _⟩
    · exact .inr ⟨fun h => hslot h.2, Function.update_of_ne hslot _ _⟩
  · refine .inr ⟨fun h => hs h.1, ?_⟩
    split
    · rfl
    · simp only []
      rw [alertOnce_other (by simp), staleAlert_silent hs]

end Alerts

section Runs

variable {past : List Reading} {r : Reading} {k : UserId × BrokerName}

theorem alertsOn_eq (past : List Reading) (r : Reading) :
    alertsOn past r = (credentialAlerts r (runReadings past).lastAlert).1 := by
  rw [alertsOn, runReadings_snoc]
  exact drop_left

theorem alerted_iff : Alerted past r ↔ Speaks r (runReadings past).lastAlert := by
  rw [Alerted, alertsOn_eq, stale_mem_credentialAlerts]

theorem getLast?_filter_concat {α : Type} (p : α → Bool) (l : List α) (a : α) :
    ((l ++ [a]).filter p).getLast? = if p a then some a else (l.filter p).getLast? := by
  simp only [filter_append, filter_cons]
  split_ifs <;> simp

theorem lastDrift_snoc : lastDrift k (past ++ [r])
      = if r.key = k ∧ r.drift ≠ ∅ then some r.drift else lastDrift k past := by
  simp only [lastDrift, getLast?_filter_concat, decide_eq_true_eq]
  split_ifs <;> rfl

theorem previousDrift_snoc :
    previousDrift k (past ++ [r]) = if r.key = k then r.drift else previousDrift k past := by
  simp only [previousDrift, getLast?_filter_concat, decide_eq_true_eq]
  split_ifs <;> rfl

theorem slot_eq_iff : AlertKey.stale k.1 k.2 = r.slot ↔ r.key = k := by
  obtain ⟨u, b⟩ := k
  simp only [Reading.slot, Reading.key, AlertKey.stale.injEq, Prod.mk.injEq]
  exact ⟨fun h => ⟨h.1.symm, h.2.symm⟩, fun h => ⟨h.1.symm, h.2.symm⟩⟩

theorem said_of_not_speaks {last : LastAlert} (hdrift : r.drift ≠ ∅) (h : ¬ Speaks r last) :
    ∃ time, last r.slot = some (r.drift, time)
      ∧ r.read.staleClock - time < alertRepeatSeconds := by
  have hquiet : shouldSpeak (last r.slot) r.drift r.read.staleClock ≠ true :=
    fun hs => h ⟨fun hnil => hdrift (Reading.drift_eq_empty.2 hnil), hs⟩
  rcases hlast : last r.slot with _ | ⟨said, time⟩ <;> rw [hlast] at hquiet
  · exact absurd rfl hquiet
  · simp only [shouldSpeak, ne_eq, Bool.or_eq_true, decide_eq_true_eq, not_or, not_not,
      not_le] at hquiet
    exact ⟨time, by rw [hquiet.1], hquiet.2⟩

/-- The slot of a user and broker holds the drift of their last reconciliation that had any. -/
theorem lastAlert_runReadings (k : UserId × BrokerName) (past : List Reading) :
    ((runReadings past).lastAlert (.stale k.1 k.2)).map Prod.fst = lastDrift k past := by
  induction past using reverseRecOn with
  | nil => rfl
  | append_singleton past r ih =>
    rw [lastDrift_snoc, runReadings_snoc]
    show ((credentialAlerts r (runReadings past).lastAlert).2.1 _).map Prod.fst = _
    rcases credentialAlerts_stale k.1 k.2 with ⟨hs, hslot, hnew⟩ | ⟨hs, hold⟩
    · have hdrift : r.drift ≠ ∅ := fun h => hs.1 (Reading.drift_eq_empty.1 h)
      rw [hnew, if_pos ⟨slot_eq_iff.1 hslot, hdrift⟩, Option.map_some]
    · rw [hold, ih]
      split_ifs with hk
      · -- a drift that is not spoken of is the one in the slot
        have hslot := slot_eq_iff.2 hk.1
        obtain ⟨time, hsaid, -⟩ := said_of_not_speaks hk.2 fun h => hs ⟨h, hslot⟩
        rw [← ih, hslot, hsaid, Option.map_some]
      · rfl

theorem lastDrift_of_previousDrift (h : previousDrift k past ≠ ∅) :
    lastDrift k past = some (previousDrift k past) := by
  induction past using reverseRecOn with
  | nil => exact absurd rfl h
  | append_singleton past r ih =>
    rw [previousDrift_snoc] at h ⊢
    rw [lastDrift_snoc]
    by_cases hk : r.key = k
    · rw [if_pos hk] at h
      rw [if_pos hk, if_pos ⟨hk, h⟩]
    · rw [if_neg hk] at h
      rw [if_neg hk, if_neg fun hc => hk hc.1, ih h]

theorem lastDrift_of_not_alerted (hdrift : r.drift ≠ ∅) (h : ¬ Alerted past r) :
    lastDrift r.key past = some r.drift ∧ AlertedLately past r := by
  obtain ⟨time, hsaid, htime⟩ := said_of_not_speaks hdrift fun hs => h (alerted_iff.2 hs)
  refine ⟨?_, r.drift, time, hsaid, htime⟩
  rw [← lastAlert_runReadings, show AlertKey.stale r.key.1 r.key.2 = r.slot from rfl, hsaid]
  rfl

theorem not_alerted_of_comesBack (h : ComesBack past r) : ¬ Alerted past r := by
  obtain ⟨-, hlast, said, time, hslot, htime⟩ := h
  rw [← lastAlert_runReadings, show AlertKey.stale r.key.1 r.key.2 = r.slot from rfl, hslot,
    Option.map_some, Option.some.injEq] at hlast
  rw [alerted_iff]
  rintro ⟨-, hspeaks⟩
  rw [hslot, shouldSpeak, Bool.or_eq_true, decide_eq_true_eq, decide_eq_true_eq] at hspeaks
  rcases hspeaks with hsaid | hold
  · exact hsaid hlast
  · exact absurd htime (not_lt.2 hold)

theorem onset_alerted_iff (h : Onset past r) : Alerted past r ↔ ¬ ComesBack past r := by
  refine ⟨fun hal hback => not_alerted_of_comesBack hback hal, fun hback => ?_⟩
  by_contra hal
  obtain ⟨hlast, hlately⟩ := lastDrift_of_not_alerted h.1 hal
  refine hback ⟨?_, hlast, hlately⟩
  by_contra hprev
  rw [lastDrift_of_previousDrift hprev, Option.some.injEq] at hlast
  exact h.2 hlast

end Runs

/-- Every onset is alerted exactly when no drift comes back unchanged within six hours of the last
alert. -/
theorem onsets_alerted_iff (ps : List Pass) :
    (∀ past r later, ps.flatMap Pass.readings = past ++ r :: later →
        Onset past r → Alerted past r)
      ↔ ∀ past r later, ps.flatMap Pass.readings = past ++ r :: later →
        Onset past r → ¬ ComesBack past r := by
  refine forall_congr' fun past => forall_congr' fun r => forall_congr' fun later => ?_
  exact forall_congr' fun _ => forall_congr' onset_alerted_iff

section SameDriftAgain

variable (status : PositionStatus)

/-- A live strategy with one row, in the given status. -/
def staleRowDb : Db :=
  { Db.empty with
    credentials := [⟨5, 1, .dhan, true, 0⟩]
    strategies := [⟨2, 1, none, some 5, [], true, 1, 0, none, none, none, false, true, none,
      some false⟩]
    positions := [{ openRow "N" "buy" 50 with
      userId := 1, strategyId := 2, brokerCredentialId := 5, status := status }] }

/-- A pass that finds the row in the given status and nothing at the broker. -/
def nothingHeld (clock : ℚ) : Pass :=
  ⟨staleRowDb status, false, fun _ => some ⟨[], fun _ => none, clock, clock⟩⟩

def nothingHeldReading (clock : ℚ) : Reading :=
  ⟨staleRowDb status, false, ⟨5, 1, .dhan, true, 0⟩, ⟨[], fun _ => none, clock, clock⟩⟩

/-- A stale row is alerted and corrected; a minute later its like is not alerted. -/
theorem onsets_alerted_same_drift_again : ∃ (ps : List Pass) (past : List Reading) (r : Reading),
      ps.flatMap Pass.readings = past ++ r :: [] ∧ Onset past r ∧ alertsOn past r = [] := by
  refine ⟨[nothingHeld .opened 0, nothingHeld .closed 60, nothingHeld .opened 120],
    [nothingHeldReading .opened 0, nothingHeldReading .closed 60],
    nothingHeldReading .opened 120, rfl, ?_, ?_⟩
  · exact ⟨by decide +kernel, by decide +kernel⟩
  · decide +kernel

end SameDriftAgain

end TradingBridge
