import TradingBridge.KillSwitch

/-!
# The counters and flags in Redis

A key is the list of the parts its text has between colons; the text of a user id has none.
-/

namespace TradingBridge.Redis

structure RateLimit where
  maxRequests : ℕ
  windowSeconds : ℕ
  maxRequests_pos : 0 < maxRequests
  windowSeconds_pos : 0 < windowSeconds

/-- INCR and EXPIRE in one round trip, at a time in milliseconds. -/
def rateLimitCheck (limit : RateLimit) (redis : Expiring.Store String ℕ) (now : ℕ) (key : String) :
    Bool × Expiring.Store String ℕ :=
  let count := (redis.get now key).getD 0 + 1
  (count ≤ limit.maxRequests, redis.setEx now key count (limit.windowSeconds * 1000))

section DailyPnl

variable {ι : Type*} [DecidableEq ι]

inductive PnlCall
  | start
  | read (newTotal : ℚ)
  | done

structure PnlState (ι : Type*) where
  stored : Option ℚ
  call : ι → PnlCall

def PnlState.dailyPnl (s : PnlState ι) : ℚ := s.stored.getD 0

def incrementDailyPnl (delta : ι → ℚ) (s : PnlState ι) (i : ι) : PnlState ι :=
  match s.call i with
  | .start => { s with call := Function.update s.call i (.read (s.dailyPnl + delta i)) }
  | .read newTotal => ⟨some newTotal, Function.update s.call i .done⟩
  | .done => s

end DailyPnl

section Trips

inductive Value
  | status (s : KillSwitchStatus)
  | number (n : ℕ)
  | pnl (total : ℚ)
  | token (text : String)
  | config
  | tripMeta (trippedAt : ℕ) (reason : TripReason)

abbrev Key := List String

def cacheKey (key : Key) : Key := "cache" :: key

variable (user : String)

def killKey : Key := ["kill", user]

def pnlKey : Key := ["pnl", user]

def tradesKey : Key := ["daily_trades", user]

def tripMetaKey : Key := ["kill_meta", user]

def resetTokenKey : Key := ["kill_reset_token", user]

def configCacheKey : Key := ["kill_config", user]

def daySeconds : ℕ := 86400

/-- Redis, the clock, and the users and times of the rows of `kill_switch_events`. -/
structure State where
  redis : Expiring.Store Key Value
  now : ℕ
  events : List (String × ℕ)

namespace State

def start : State := ⟨.empty, 0, []⟩

variable (s : State)

def set (key : Key) (v : Value) : State := { s with redis := s.redis.set key v }

def setEx (key : Key) (v : Value) (ttl : ℕ) : State :=
  { s with redis := s.redis.setEx s.now key v ttl }

def delete (key : Key) : State := { s with redis := s.redis.del key }

def trip (user : String) (reason : TripReason) : State :=
  { s.set (killKey user) (.status .tripped) with events := s.events ++ [(user, s.now)] }.setEx
    (cacheKey (tripMetaKey user)) (.tripMeta s.now reason) daySeconds

def incrementDailyTrades (user : String) : State :=
  let count := match s.redis.get s.now (tradesKey user) with
    | some (.number n) => n
    | _ => 0
  s.setEx (tradesKey user) (.number (count + 1)) daySeconds

/-- `none` where the token is missing or another one. The trip's record is deleted under the user's
part of its key, and under its key outside the cache. -/
def manualReset (user token : String) : Option State :=
  match s.redis.get s.now (resetTokenKey user) with
  | some (.token expected) =>
    if expected = token ∧ expected ≠ "" then
      some (((((s.delete (resetTokenKey user)).delete (killKey user)).setEx (pnlKey user) (.pnl 0)
        daySeconds).delete (tradesKey user)).delete (cacheKey (tripMetaKey user).tail)
          |>.delete (tripMetaKey user))
    else none
  | _ => none

/-- Every key of a pattern `part:*` is deleted. -/
def dailyResetAll : State :=
  { s with redis := ⟨fun key =>
      if key.head? ∈ [some "pnl", some "daily_trades", some "kill", some "kill_meta"] ∧
        2 ≤ key.length then none else s.redis.slot key⟩ }

structure TripStatus where
  state : KillSwitchStatus
  trippedAt : Option ℕ
  tripReason : Option TripReason
  deriving DecidableEq

def getStatus (user : String) : TripStatus :=
  let state := match s.redis.get s.now (killKey user) with
    | some (.status .tripped) => .tripped
    | _ => .active
  match s.redis.get s.now (cacheKey (tripMetaKey user)) with
  | some (.tripMeta trippedAt reason) => ⟨state, some trippedAt, some reason⟩
  | _ => ⟨state, none, none⟩

end State

inductive Op
  | trip (user : String) (reason : TripReason)
  | readConfig (user : String)
  | updateConfig (user : String)
  | setDailyPnl (user : String) (total : ℚ)
  | incrementDailyTrades (user : String)
  | createResetToken (user token : String)
  | manualReset (user token : String)
  | dailyResetAll
  | tick (seconds : ℕ)

def Op.apply (s : State) : Op → State
  | .trip user reason => s.trip user reason
  | .readConfig user => s.setEx (cacheKey (configCacheKey user)) .config 300
  | .updateConfig user => s.delete (cacheKey (configCacheKey user))
  | .setDailyPnl user total => s.setEx (pnlKey user) (.pnl total) daySeconds
  | .incrementDailyTrades user => s.incrementDailyTrades user
  | .createResetToken user token => s.setEx (resetTokenKey user) (.token token) 300
  | .manualReset user token => (s.manualReset user token).getD s
  | .dailyResetAll => s.dailyResetAll
  | .tick seconds => { s with now := s.now + seconds }

end Trips

end TradingBridge.Redis
