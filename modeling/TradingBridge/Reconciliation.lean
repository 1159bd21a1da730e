import TradingBridge.StrategyExecutor

/-!
# The reconciliation loop

Both sides become sets of legs, a symbol in upper case with a side and a quantity, and the two
differences are the drift. An alert is repeated when its set of legs has changed, or after six
hours.
-/

namespace TradingBridge

def normSymbol (symbol : String) : String := (strip symbol).toUpper

abbrev Leg := String × String × Int

def StrategyPosition.leg (p : StrategyPosition) : Leg :=
  (normSymbol p.symbol, p.side.toLower, p.remainingQuantity)

def BrokerPosition.leg (bp : BrokerPosition) : Leg :=
  (normSymbol bp.symbol, if 0 < bp.quantity then "buy" else "sell", bp.quantity.natAbs)

/-- The sets are lists without repetition. -/
def dbSet (rows : List StrategyPosition) : List Leg := (rows.map StrategyPosition.leg).dedup

/-- A quantity of zero is a closed leg. -/
def brokerSet (positions : List BrokerPosition) : List Leg :=
  ((positions.filter (·.quantity ≠ 0)).map BrokerPosition.leg).dedup

def dbOnly (rows : List StrategyPosition) (positions : List BrokerPosition) : List Leg :=
  (dbSet rows).filter (· ∉ brokerSet positions)

def brokerOnly (rows : List StrategyPosition) (positions : List BrokerPosition) : List Leg :=
  (brokerSet positions).filter (· ∉ dbSet rows)

def mismatches (rows : List StrategyPosition) (positions : List BrokerPosition) : Nat :=
  (dbOnly rows positions).length + (brokerOnly rows positions).length

def Leg.le (a b : Leg) : Prop :=
  a.1 < b.1 ∨ a.1 = b.1 ∧ (a.2.1 < b.2.1 ∨ a.2.1 = b.2.1 ∧ a.2.2 ≤ b.2.2)

instance : DecidableRel Leg.le := fun _ _ => inferInstanceAs (Decidable (_ ∨ _))

def sortedLegs (legs : List Leg) : List Leg := legs.insertionSort Leg.le

def Strategy.isLive (s : Strategy) : Bool := s.isPaper = some false

def StrategyPosition.ofLiveStrategy (d : Db) (p : StrategyPosition) : Bool :=
  (d.strategy p.strategyId).any Strategy.isLive

/-- The owner's open rows on live strategies. Credentials rotate, so a row is found through its user
and the name of its broker. -/
def dbPositions (d : Db) (cred : BrokerCredential) : List StrategyPosition :=
  d.positions.filter fun p => p.userId = cred.userId
    ∧ (d.credential p.brokerCredentialId).any (·.brokerName = cred.brokerName)
    ∧ p.isOpen ∧ p.ofLiveStrategy d ∧ p.subscriptionId = none

def tradedSymbols (d : Db) (user : UserId) : List String :=
  (d.positions.filter fun p => p.userId = user ∧ p.ofLiveStrategy d ∧ p.subscriptionId = none).map
    fun p => normSymbol p.symbol

def liveStrategyCredentials (d : Db) : List (UserId × CredentialId) :=
  (d.strategies.filter fun s => s.isActive ∧ s.isLive).filterMap fun s =>
    s.brokerCredentialId.map fun c => (s.userId, c)

def addFallback (d : Db) (creds : List BrokerCredential) (pointed : UserId × CredentialId) :
    List BrokerCredential :=
  if creds.any (·.id = pointed.2) then creds
  else
    match d.credential pointed.2 with
    | none => creds
    | some row =>
      match Db.newest BrokerCredential.createdAt (d.credentials.filter fun c =>
          c.userId = pointed.1 ∧ c.brokerName = row.brokerName ∧ c.isActive) with
      | none => creds
      | some fallback =>
        if creds.any (·.id = fallback.id) then creds else creds ++ [fallback]

def listCredentialsBackingLiveStrategies (d : Db) : List BrokerCredential :=
  let pointed := liveStrategyCredentials d
  let direct := d.credentials.filter fun c => c.isActive ∧ pointed.any (·.2 = c.id)
  pointed.foldl (addFallback d) direct

/-- The dedupe slots of a user and broker: `broker` and `broker:broker_only`. -/
inductive AlertKey
  | stale (user : UserId) (broker : BrokerName)
  | brokerOnly (user : UserId) (broker : BrokerName)
  deriving DecidableEq

inductive ReconcileAlert
  | reversePhantom (cred : CredentialId) (leg : Leg) (order : BrokerOrderId)
  | stalePositionRow (legs : List Leg)
  | untrackedPosition (legs : List Leg)
  | brokerOnlyPositions (user : UserId) (legs : List Leg)

def alertRepeatSeconds : ℚ := 6 * 60 * 60

/-- The set the last alert of each slot spoke of, and when. It lives in the process. -/
abbrev LastAlert := AlertKey → Option (Finset Leg × ℚ)

def shouldSpeak (previous : Option (Finset Leg × ℚ)) (signature : Finset Leg) (now : ℚ) : Bool :=
  match previous with
  | none => true
  | some (said, time) => said ≠ signature || alertRepeatSeconds ≤ now - time

/-- They repeat only on a changed set, or after six hours. -/
def alertOnce (key : AlertKey) (legs : List Leg) (now : ℚ) (alert : List Leg → ReconcileAlert)
    (last : LastAlert) : List ReconcileAlert × LastAlert :=
  if legs ≠ [] ∧ shouldSpeak (last key) legs.toFinset now then
    ([alert (sortedLegs legs)], Function.update last key (some (legs.toFinset, now)))
  else ([], last)

/-- The legs of timed-out orders that filled after all; each flag is cleared with its alert. -/
def reversePhantoms (cred : CredentialId) :
    List Leg → (String → Option BrokerOrderId) → List ReconcileAlert × List String
  | [], _ => ([], [])
  | leg :: legs, flagged =>
    match flagged leg.1.toUpper with
    | none => reversePhantoms cred legs flagged
    | some order =>
      let rest := reversePhantoms cred legs (Function.update flagged leg.1.toUpper none)
      (.reversePhantom cred leg order :: rest.1, leg.1.toUpper :: rest.2)

structure BrokerRead where
  positions : List BrokerPosition
  flagged : String → Option BrokerOrderId
  staleClock : ℚ
  untrackedClock : ℚ

structure Reading where
  db : Db
  telegramEnabled : Bool
  cred : BrokerCredential
  read : BrokerRead

namespace Reading

def rows (r : Reading) : List StrategyPosition := dbPositions r.db r.cred

def staleLegs (r : Reading) : List Leg := TradingBridge.dbOnly r.rows r.read.positions

def untrackedLegs (r : Reading) : List Leg := TradingBridge.brokerOnly r.rows r.read.positions

def slot (r : Reading) : AlertKey := .stale r.cred.userId r.cred.brokerName

def staleAlert (r : Reading) (last : LastAlert) : List ReconcileAlert × LastAlert :=
  alertOnce r.slot r.staleLegs r.read.staleClock .stalePositionRow last

end Reading

structure DriftWatch where
  lastAlert : LastAlert
  sent : List ReconcileAlert
  cleared : List String

def DriftWatch.start : DriftWatch := ⟨fun _ => none, [], []⟩

def credentialAlerts (r : Reading) (last : LastAlert) :
    List ReconcileAlert × LastAlert × List String :=
  if mismatches r.rows r.read.positions = 0 then ([], last, [])
  else
    let phantoms := reversePhantoms r.cred.id (sortedLegs r.untrackedLegs) r.read.flagged
    let stale := r.staleAlert last
    let traded := tradedSymbols r.db r.cred.userId
    let ours := r.untrackedLegs.filter (·.1 ∈ traded)
    let theirs := r.untrackedLegs.filter (·.1 ∉ traded)
    let untracked := alertOnce (.brokerOnly r.cred.userId r.cred.brokerName) ours
      r.read.untrackedClock .untrackedPosition stale.2
    let manual := if theirs ≠ [] ∧ r.telegramEnabled then
      [.brokerOnlyPositions r.cred.userId (sortedLegs theirs)] else []
    (phantoms.1 ++ stale.1 ++ untracked.1 ++ manual, untracked.2, phantoms.2)

def reconcileCredential (r : Reading) (w : DriftWatch) : Nat × DriftWatch :=
  let done := credentialAlerts r w.lastAlert
  (mismatches r.rows r.read.positions,
    { lastAlert := done.2.1, sent := w.sent ++ done.1, cleared := w.cleared ++ done.2.2 })

structure Pass where
  db : Db
  telegramEnabled : Bool
  read : CredentialId → Option BrokerRead

def reconcileOnce (p : Pass) (w : DriftWatch) : Nat × DriftWatch :=
  (listCredentialsBackingLiveStrategies p.db).foldl (fun acc cred =>
    match p.read cred.id with
    | none => acc
    | some read =>
      let done := reconcileCredential ⟨p.db, p.telegramEnabled, cred, read⟩ acc.2
      (acc.1 + done.1, done.2)) (0, w)

def runPasses (ps : List Pass) : DriftWatch := ps.foldl (fun w p => (reconcileOnce p w).2) .start

end TradingBridge
