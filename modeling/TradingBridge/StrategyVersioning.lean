import Mathlib

/-!
# Versions of a strategy

A version in the cache holds a reference to its payload, a dict on the heap, which is shared with
the callers. Each function that takes the store's lock is one step; `createVersion` copies the
payload before it takes the lock, and a rollback looks its target up before that.
-/

namespace TradingBridge.Versioning

section Store

/-- A version; `J` is the payload: a dict's address, the text of a file or the value. -/
structure StrategyVersion (J : Type) where
  versionId : ℕ
  strategyId : ℕ
  versionNumber : ℕ
  strategyJson : J
  changeSummary : String
  createdBy : ℕ
  createdAt : ℕ
  parentVersionId : Option ℕ

def StrategyVersion.withJson {J K : Type} (v : StrategyVersion J) (j : K) : StrategyVersion K :=
  { v with strategyJson := j }

/-- `model_dump_json` and `model_validate_json`. -/
structure Codec (P T : Type) where
  dump : P → Option T
  parse : T → Option P

/-- The dicts, the cached versions, the strategies whose files were read, and the files. -/
structure Store (P T : Type) where
  heap : List P
  cache : ℕ → List (StrategyVersion ℕ)
  hydrated : ℕ → Bool
  files : ℕ → List (StrategyVersion T)

def put {J : Type} (v : StrategyVersion J) (bucket : List (StrategyVersion J)) :
    List (StrategyVersion J) :=
  if bucket.any (·.versionNumber = v.versionNumber) then
    bucket.map fun w => if w.versionNumber = v.versionNumber then v else w
  else bucket ++ [v]

variable {P T : Type} (codec : Codec P T)

/-- Each payload a dict of its own; a file that cannot be read ends it. -/
def readFiles : List (StrategyVersion T) → List P × List (StrategyVersion ℕ) →
    (List P × List (StrategyVersion ℕ)) × Bool
  | [], acc => (acc, true)
  | f :: fs, (heap, bucket) =>
    match codec.parse f.strategyJson with
    | none => ((heap, bucket), false)
    | some p => readFiles fs (heap ++ [p], put (f.withJson heap.length) bucket)

variable (s : Store P T) (strategyId : ℕ)

def hydrateLocked : Store P T × Bool :=
  if s.hydrated strategyId then (s, true)
  else
    let read := readFiles codec (s.files strategyId) (s.heap, s.cache strategyId)
    ({ s with
      heap := read.1.1
      cache := Function.update s.cache strategyId read.1.2
      hydrated := if read.2 then Function.update s.hydrated strategyId true else s.hydrated },
      read.2)

def sortedBucket : List (StrategyVersion ℕ) :=
  (s.cache strategyId).insertionSort fun v w => v.versionNumber ≤ w.versionNumber

def loadAllVersions : Store P T × Option (List (StrategyVersion ℕ)) :=
  let (s', ok) := hydrateLocked codec s strategyId
  (s', if ok then some (sortedBucket s' strategyId) else none)

def loadVersion (strategyId versionNumber : ℕ) : Store P T × Option (Option (StrategyVersion ℕ)) :=
  let (s', ok) := hydrateLocked codec s strategyId
  (s', if ok then some ((s'.cache strategyId).find? (·.versionNumber = versionNumber)) else none)

def nextVersionNumber (s : Store P T) (strategyId : ℕ) : ℕ :=
  match s.cache strategyId with
  | [] => 1
  | bucket => (bucket.map (·.versionNumber)).foldl max 0 + 1

def saveFile (version : StrategyVersion ℕ) (text : T) : Store P T :=
  let files := put (version.withJson text) (s.files version.strategyId)
  { s with files := Function.update s.files version.strategyId files }

def saveVersion (version : StrategyVersion ℕ) (text : T) : Store P T :=
  let s' := saveFile s version text
  { s' with
    cache := Function.update s'.cache version.strategyId
      (put version (s'.cache version.strategyId))
    hydrated := Function.update s'.hydrated version.strategyId true }

structure Creation (P T : Type) where
  strategyId : ℕ
  payload : P
  text : T
  userId : ℕ
  changeSummary : String

/-- The version with its dict on the heap; `none` if the files cannot be read or the summary is too
long. -/
def newVersion (s : Store P T) (c : Creation P T) (versionId now : ℕ) :
    Store P T × Option (StrategyVersion ℕ) :=
  match loadAllVersions codec s c.strategyId with
  | (s', none) => (s', none)
  | (s', some history) =>
    if 2048 < c.changeSummary.length then (s', none)
    else
      ({ s' with heap := s'.heap ++ [c.payload] }, some {
        versionId := versionId
        strategyId := c.strategyId
        versionNumber := nextVersionNumber s' c.strategyId
        strategyJson := s'.heap.length
        changeSummary := c.changeSummary
        createdBy := c.userId
        createdAt := now
        parentVersionId := history.getLast?.map (·.versionId) })

end Store

section Process

variable {P T : Type}

/-- Where a payload comes from: the caller's dict as it was copied, or a version. -/
inductive Origin (P : Type)
  | given (payload : P)
  | rollback (target : ℕ)

/-- A rollback before the lookup of its target; a creation before it copies the dict (`target` is
where a rollback found it); a creation before it takes the lock. -/
inductive Task (P T : Type)
  | lookup (strategyId target userId : ℕ)
  | copy (strategyId ref userId : ℕ) (changeSummary : String) (target : Option ℕ)
  | append (creation : Creation P T) (origin : Origin P)

/-- The process with its callers: their dicts, those they were handed, the calls in progress, and on
record every version with its payload at its creation and its origin. -/
structure World (P T : Type) where
  store : Store P T
  own : List ℕ
  received : List ℕ
  tasks : List (Task P T)
  log : ℕ → List (StrategyVersion P × Origin P)

def World.start : World P T where
  store := ⟨[], fun _ => [], fun _ => false, fun _ => []⟩
  own := []
  received := []
  tasks := []
  log := fun _ => []

inductive Label (P : Type)
  | newDict (payload : P)
  | mutate (ref : ℕ) (payload : P)
  | create (strategyId ref userId : ℕ) (changeSummary : String)
  | rollback (strategyId target userId : ℕ)
  | listVersions (strategyId : ℕ)
  | getVersion (strategyId versionNumber : ℕ)
  /-- A call goes on; the disk may refuse to write. -/
  | run (task versionId now : ℕ) (diskOk : Bool)
  | timeout (task : ℕ)
  | restart
  /-- The process dies after a creation has written its file. -/
  | crash (task versionId now : ℕ)

variable (codec : Codec P T)

variable (w : World P T)

def World.restarted : World P T :=
  { World.start with
    store := { heap := [], cache := fun _ => [], hydrated := fun _ => false,
               files := w.store.files }
    log := w.log }

def World.record (version : StrategyVersion ℕ) (payload : P) (origin : Origin P) : World P T :=
  let versions := w.log version.strategyId ++ [(version.withJson payload, origin)]
  { w with log := Function.update w.log version.strategyId versions }

def World.proceed (w : World P T) (versionId now : ℕ) (diskOk : Bool) : Task P T → World P T
  | .lookup strategyId target userId =>
    match loadVersion codec w.store strategyId target with
    | (s, some (some v)) => { w with
        store := s
        tasks := w.tasks ++ [.copy strategyId v.strategyJson userId
          s!"Rolled back to v{target}" (some target)] }
    | (s, _) => { w with store := s }
  | .copy strategyId ref userId changeSummary target =>
    match w.store.heap[ref]? with
    | none => w
    | some payload =>
      match codec.dump payload with
      | none => w
      | some text => { w with
          tasks := w.tasks ++ [.append ⟨strategyId, payload, text, userId, changeSummary⟩
            (target.elim (.given payload) .rollback)] }
  | .append c origin =>
    match newVersion codec w.store c versionId now with
    | (s, none) => { w with store := s }
    | (s, some version) =>
      if diskOk then
        World.record { w with
          store := saveVersion s version c.text
          received := version.strategyJson :: w.received } version c.payload origin
      else { w with store := s }

def World.crashed (w : World P T) (versionId now : ℕ) : Task P T → World P T
  | .append c origin =>
    match newVersion codec w.store c versionId now with
    | (_, none) => w.restarted
    | (s, some version) =>
      World.record (World.restarted { w with store := saveFile s version c.text }) version
        c.payload origin
  | _ => w.restarted

def World.holds (ref : ℕ) : Bool := ref ∈ w.own ∨ ref ∈ w.received

def next (w : World P T) : Label P → Option (World P T)
  | .newDict payload => some { w with
      store := { w.store with heap := w.store.heap ++ [payload] }
      own := w.store.heap.length :: w.own }
  | .mutate ref payload =>
    if w.holds ref then
      some { w with store := { w.store with heap := w.store.heap.set ref payload } }
    else none
  | .create strategyId ref userId changeSummary =>
    if w.holds ref then
      some { w with tasks := w.tasks ++ [.copy strategyId ref userId changeSummary none] }
    else none
  | .rollback strategyId target userId =>
    some { w with tasks := w.tasks ++ [.lookup strategyId target userId] }
  | .listVersions strategyId =>
    match loadAllVersions codec w.store strategyId with
    | (s, none) => some { w with store := s }
    | (s, some versions) => some { w with
        store := s
        received := versions.map (·.strategyJson) ++ w.received }
  | .getVersion strategyId versionNumber =>
    match loadVersion codec w.store strategyId versionNumber with
    | (s, some (some v)) => some { w with
        store := s
        received := v.strategyJson :: w.received }
    | (s, _) => some { w with store := s }
  | .run task versionId now diskOk =>
    (w.tasks[task]?).map fun t =>
      World.proceed codec { w with tasks := w.tasks.eraseIdx task } versionId now diskOk t
  | .timeout task => some { w with tasks := w.tasks.eraseIdx task }
  | .restart => some w.restarted
  | .crash task versionId now =>
    (w.tasks[task]?).map fun t => World.crashed codec w versionId now t

/-- What a caller of `list_versions` reads now; `none` if it raises. -/
def World.listVersions (w : World P T) (strategyId : ℕ) : Option (List (StrategyVersion P)) :=
  match loadAllVersions codec w.store strategyId with
  | (_, none) => none
  | (s, some versions) =>
    versions.mapM fun v => (s.heap[v.strategyJson]?).map v.withJson

end Process

end TradingBridge.Versioning
