import TradingBridge.Lib.SortedMerge

/-!
# Replay of a recorded day

`replayer/engine.py`. A file is what its row groups hold, or is unreadable. A step that raises in
the source (an index out of range, a mask of the wrong length, a slice step of zero) is `none`.
-/

namespace TradingBridge.Orderflow.Replayer

inductive Stream where
  | tick
  | depth
  | event
  deriving DecidableEq

structure Row (ρ : Type) where
  ts : Option ℤ
  securityId : Option ℤ
  ltt : Option ℤ
  kind : Option String
  detail : Option String
  valueNum : Option ℚ
  rest : ρ

inductive Payload (ρ : Type) where
  | tick (row : Row ρ)
  | depth (row : Row ρ)
  | event (kind : Option String) (detail : String) (valueNum : Option ℚ)

/-- `(ts, ltt, class, security_id, row index)`, compared like a tuple. -/
abbrev Key := ℤ ×ₗ ℤ ×ₗ ℕ ×ₗ ℤ ×ₗ ℕ

def Key.of (ts ltt : ℤ) (cls : ℕ) (sid : ℤ) (i : ℕ) : Key :=
  toLex (ts, toLex (ltt, toLex (cls, toLex (sid, i))))

structure EmittedEvent (ρ : Type) where
  key : Key
  stream : Stream
  tsNs : ℤ
  securityId : Option ℤ
  payload : Payload ρ

def classTick : ℕ := 0
def classDepth : ℕ := 1
def classEvent : ℕ := 2
def depthLttSentinel : ℤ := 2 ^ 40
def eventLttSentinel : ℤ := 2 ^ 62

variable {ρ : Type}

def Row.tsValue (row : Row ρ) : ℤ := row.ts.getD 0

def emit (stream : Stream) (i : ℕ) (row : Row ρ) : EmittedEvent ρ :=
  let ts := row.tsValue
  let sid := row.securityId.getD (-1)
  match stream with
  | .tick =>
    { key := Key.of ts (row.ltt.getD (-1)) classTick sid i, stream := .tick, tsNs := ts,
      securityId := some sid, payload := .tick row }
  | .depth =>
    { key := Key.of ts depthLttSentinel classDepth sid i, stream := .depth, tsNs := ts,
      securityId := if sid < 0 then none else some sid, payload := .depth row }
  | .event =>
    { key := Key.of ts eventLttSentinel classEvent sid i, stream := .event, tsNs := ts,
      securityId := if sid < 0 then none else some sid,
      payload := .event row.kind (row.detail.getD "") row.valueNum }

def keyed (ev : EmittedEvent ρ) : Key × EmittedEvent ρ := (ev.key, ev)

def sortByKey (events : List (Key × EmittedEvent ρ)) : List (Key × EmittedEvent ρ) :=
  events.insertionSort fun a b => a.1 ≤ b.1

/-- `_rows_to_events`: without `globalIdx` the rows are the whole file. -/
def rowsToEvents (rows : List (Row ρ)) (stream : Stream) (globalIdx : Option (List ℕ)) :
    Option (List (Key × EmittedEvent ρ)) := do
  let out ← rows.zipIdx.mapM fun r => do
    let i ← match globalIdx with
      | none => some r.2
      | some g => g[r.2]?
    some (keyed (emit stream i r.1))
  some (sortByKey out)

def cumsum (acc : ℕ) : List ℕ → List ℕ
  | [] => []
  | n :: ns => (acc + n) :: cumsum (acc + n) ns

/-- `np.searchsorted(ends, i, side="right")`. -/
def searchsorted (ends : List ℕ) (i : ℕ) : ℕ := (ends.takeWhile (· ≤ i)).length

def nonzero (mask : List Bool) : List ℕ := (mask.zipIdx.filter (·.1)).map (·.2)

def maskRows (rows : List (Row ρ)) (mask : List Bool) : Option (List (Row ρ)) :=
  if mask.length = rows.length then some (((rows.zip mask).filter (·.2)).map (·.1)) else none

structure FileStream (ρ : Type) where
  stream : Stream
  groups : List (List (Row ρ))

namespace FileStream

variable (fs : FileStream ρ)

def rows : List (Row ρ) := fs.groups.flatten

def ts : List ℤ := fs.rows.map Row.tsValue

def rgEnds : List ℕ := cumsum 0 (fs.groups.map List.length)

def numRows : ℕ := fs.ts.length

def readRowGroups (idxs : List ℕ) : Option (List (Row ρ)) :=
  (idxs.mapM fun i => fs.groups[i]?).map List.flatten

def groupStart (rg : ℕ) : Option ℕ :=
  if rg = 0 then some 0 else fs.rgEnds[rg - 1]?

def sliceEvents (lo hi : ℤ) : Option (List (Key × EmittedEvent ρ)) := do
  let mask := fs.ts.map fun t => decide (lo ≤ t) && decide (t < hi)
  if ¬ mask.any id then
    some []
  else
    let gidx := nonzero mask
    let rgLo := searchsorted fs.rgEnds (← gidx.head?)
    let rgHi := searchsorted fs.rgEnds (← gidx.getLast?)
    let start ← fs.groupStart rgLo
    let tbl ← fs.readRowGroups (List.range' rgLo (rgHi + 1 - rgLo))
    let sub ← maskRows tbl ((mask.drop start).take tbl.length)
    rowsToEvents sub fs.stream (some gidx)

end FileStream

structure ReplaySource (ρ : Type) where
  instrumentFiles : List (Option (List (List (Row ρ))))
  depthFiles : List (Option (List (List (Row ρ))))
  eventFile : Option (Option (List (List (Row ρ))))

namespace ReplaySource

def specs (src : ReplaySource ρ) : List (Stream × Option (List (List (Row ρ)))) :=
  src.instrumentFiles.map (Prod.mk .tick) ++ src.depthFiles.map (Prod.mk .depth) ++
    src.eventFile.toList.map (Prod.mk .event)

/-- `_file_streams`: an unreadable file and one without rows are skipped. -/
def fileStreams (src : ReplaySource ρ) : List (FileStream ρ) :=
  (src.specs.filterMap fun spec => spec.2.map (FileStream.mk spec.1)).filter (0 < ·.numRows)

end ReplaySource

def everyNth (step : ℕ) (xs : List ℤ) : Option (List ℤ) :=
  if step = 0 then none else some ((xs.zipIdx.filter fun p => p.2 % step = 0).map (·.1))

def unique (xs : List ℤ) : List ℤ := (xs.insertionSort (· ≤ ·)).dedup

def sliceBounds (target : ℕ) (streams : List (FileStream ρ)) : Option (List ℤ) := do
  let allTs := (streams.flatMap FileStream.ts).insertionSort (· ≤ ·)
  let sampled ← everyNth target allTs
  some (unique sampled ++ [(← allTs.getLast?) + 1])

def mergeSlice (streams : List (FileStream ρ)) (lo hi : ℤ) : Option (List (EmittedEvent ρ)) := do
  let slices ← streams.mapM fun fs => fs.sliceEvents lo hi
  some ((SortedMerge.mergeAll (slices.filter fun s => !s.isEmpty)).map (·.2))

/-- `ReplayEngine.iter_events` with `SLICE_TARGET_ROWS = target`. -/
def iterEvents (target : ℕ) (src : ReplaySource ρ) : Option (List (EmittedEvent ρ)) := do
  let streams := src.fileStreams
  if streams.isEmpty then
    some []
  else
    let bounds ← sliceBounds target streams
    let slices ← (bounds.dropLast.zip bounds.tail).mapM fun b => mergeSlice streams b.1 b.2
    some slices.flatten

end TradingBridge.Orderflow.Replayer
