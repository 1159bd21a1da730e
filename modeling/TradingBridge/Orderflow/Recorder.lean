import TradingBridge.Lib.Directory
import TradingBridge.Lib.DecimalText
import TradingBridge.Lib.Fallible

/-!
# The recorder's writers

`recorder/writer.py` and `recorder/depth_writer.py`, each writer on the files of its own base name.
Every I/O call of a flush is a `Site` that may raise; what was done before it raises stays done.
-/

namespace TradingBridge.Orderflow

abbrev Name := List Char

/-- A parquet file. One without its footer cannot be read. -/
inductive File (ρ : Type) where
  | table (rows : List ρ)
  | broken
  deriving DecidableEq

namespace File

variable {ρ : Type}

/-- What a reader that skips unreadable files gets. -/
def rows : File ρ → List ρ
  | .table rows => rows
  | .broken => []

def readable : File ρ → Bool
  | .table _ => true
  | .broken => false

end File

structure Files (ρ : Type) where
  final : Option (File ρ)
  tmp : Option (File ρ)
  parts : Option (Directory Name (File ρ))

namespace Recorder

variable {ρ : Type}

def partName (idx : ℕ) : Name :=
  "part-".toList ++ (DecimalText.pad 4 idx ++ ".parquet".toList)

def isPartName (name : Name) : Bool :=
  "part-".toList.isPrefixOf name && ".parquet".toList.isSuffixOf name

/-- `sorted(parts_dir.glob("part-*.parquet"))`. -/
def globParts (parts : Option (Directory Name (File ρ))) : List (File ρ) :=
  match parts with
  | none => []
  | some dir => (dir.restrict fun e => isPartName e.1).entries.map Prod.snd

def consolidateBatchRows : ℕ := 65536

def batchesFrom (n : ℕ) : ℕ → List ρ → List (List ρ)
  | 0, _ => []
  | _ + 1, [] => []
  | fuel + 1, rows => rows.take n :: batchesFrom n fuel (rows.drop n)

def iterBatches (n : ℕ) (rows : List ρ) : List (List ρ) := batchesFrom n rows.length rows

structure Merging (ρ : Type) where
  buf : List (List ρ)
  buffered : ℕ
  written : List ρ

namespace Merging

def flushBuf (m : Merging ρ) : Merging ρ :=
  if m.buf = [] then m else ⟨[], 0, m.written ++ m.buf.flatten⟩

def addBatch (m : Merging ρ) (batch : List ρ) : Merging ρ :=
  if batch = [] then m
  else
    let m := { m with buf := m.buf ++ [batch], buffered := m.buffered + batch.length }
    if consolidateBatchRows ≤ m.buffered then m.flushBuf else m

def addPart (m : Merging ρ) : File ρ → Merging ρ
  | .broken => m
  | .table rows => (iterBatches consolidateBatchRows rows).foldl addBatch m

end Merging

def streamConsolidate (parts : List (File ρ)) : List ρ :=
  (parts.foldl Merging.addPart ⟨[], 0, []⟩).flushBuf.written

inductive PartSite where
  | write
  | sync
  | replace
  | syncDir
  deriving DecidableEq

inductive Attempt where
  | first
  | fallback
  deriving DecidableEq

inductive Site where
  | openTmp
  | newWriter
  | writeTable
  | syncTmp
  | rotateMkdir
  | rotateClose
  | rotateSync
  | rotateCloseHandle
  | rotateSyncPath
  | rotateReplace
  | rotateSyncDir
  | enterMkdir
  | promoteClose
  | promoteSync
  | promoteCloseHandle
  | promoteReplace
  | part (attempt : Attempt) (site : PartSite)
  deriving DecidableEq

/-- What goes wrong in one flush: the calls that raise, and whether a raising `close` loses the
footer for good. -/
structure Faults where
  raises : Site → Bool
  footerLost : Bool

def noFaults : Faults := ⟨fun _ => false, false⟩

def check {σ : Type} (raises : Bool) (s : σ) : Except σ Unit := if raises then throw s else pure ()

def mkdirParts (files : Files ρ) : Files ρ :=
  { files with parts := some (files.parts.getD .empty) }

def sealTmp (files : Files ρ) (idx : ℕ) : Files ρ :=
  match files.tmp, files.parts with
  | some file, some dir => ⟨files.final, none, some (dir.put (partName idx) file)⟩
  | _, _ => files

/-- `_atomic_write_table` to a part; its own temporary file, which nothing reads, is left out. -/
def atomicWritePart (raises : PartSite → Bool) (rows : List ρ) (idx : ℕ) (files : Files ρ) :
    Except (Files ρ) (Files ρ) := do
  match files.parts with
  | none => throw files
  | some dir =>
    check (raises .write) files
    check (raises .sync) files
    check (raises .replace) files
    let files := { files with parts := some (dir.put (partName idx) (.table rows)) }
    check (raises .syncDir) files
    return files

/-- `_atomic_write_table` to the daily file; its temporary file is the primary writer's. -/
def atomicWriteFinal (rows : List ρ) (files : Files ρ) : Files ρ :=
  ⟨some (.table rows), none, files.parts⟩

/-- `_stream_consolidate` of the parts there are, or an empty daily file. -/
def consolidateParts (files : Files ρ) : Files ρ :=
  match globParts files.parts with
  | [] => atomicWriteFinal [] files
  | parts => { files with final := some (.table (streamConsolidate parts)) }

def after {σ : Type} : Except σ σ → σ
  | .ok s => s
  | .error s => s

inductive Call (ρ : Type) where
  | add (row : ρ)
  | flush

def added : List (Call ρ) → List ρ
  | [] => []
  | .add row :: calls => row :: added calls
  | .flush :: calls => added calls

def noFiles : Files ρ := ⟨none, none, none⟩

/-- The open `ParquetWriter`: its rows, its handle, and whether a raising `close` lost the
footer. -/
structure ParquetWriter (ρ : Type) where
  rows : List ρ
  handle : Bool
  torn : Bool

structure InstrumentWriter (ρ : Type) where
  maxBuffer : ℤ
  rotateAfterRowgroups : ℤ
  files : Files ρ
  buffer : List ρ
  writer : Option (ParquetWriter ρ)
  rowsWritten : ℕ
  partMode : Bool
  partIdx : ℕ
  closed : Bool
  rowgroups : ℕ
  rotated : Bool
  /-- The rows that a log line of `flush` reports as dropped. -/
  dropped : List ρ

namespace InstrumentWriter

/-- `__init__` on the files an earlier session may have left. -/
def init (maxBuffer rotateAfterRowgroups : ℤ) (files : Files ρ) : InstrumentWriter ρ where
  maxBuffer := maxBuffer
  rotateAfterRowgroups := rotateAfterRowgroups
  files := files
  buffer := []
  writer := none
  rowsWritten := 0
  partMode := false
  partIdx := 0
  closed := false
  rowgroups := 0
  rotated := false
  dropped := []

variable (f : Faults) (table : List ρ) (w : InstrumentWriter ρ)

def openPrimary : Except (InstrumentWriter ρ) (InstrumentWriter ρ) := do
  check (f.raises .openTmp) w
  let w := { w with files := { w.files with tmp := some .broken } }
  check (f.raises .newWriter) w
  return { w with writer := some ⟨[], true, false⟩, rowgroups := 0 }

def rotatePrimary (p : ParquetWriter ρ) : Except (InstrumentWriter ρ) (InstrumentWriter ρ) := do
  check (f.raises .rotateMkdir) w
  let w := { w with files := mkdirParts w.files }
  check (f.raises .rotateClose) { w with writer := some { p with torn := f.footerLost } }
  let w := { w with files := { w.files with tmp := some (.table p.rows) } }
  check (f.raises .rotateSync) w
  -- A file object is closed also when its `close` raises.
  check (f.raises .rotateCloseHandle) { w with writer := some { p with handle := false } }
  let w := { w with writer := none, rowgroups := 0 }
  check (f.raises .rotateSyncPath) w
  let w := { w with partIdx := w.partIdx + 1 }
  check (f.raises .rotateReplace) w
  let w := { w with files := sealTmp w.files w.partIdx }
  check (f.raises .rotateSyncDir) w
  return { w with rotated := true }

def flushPrimary : Except (InstrumentWriter ρ) (InstrumentWriter ρ) := do
  let w ← if w.writer.isNone then openPrimary f w else pure w
  check (f.raises .writeTable) w
  match w.writer with
  | none => return w
  | some p =>
    let p := { p with rows := p.rows ++ table }
    let w := { w with writer := some p }
    check (f.raises .syncTmp) w
    let w := { w with rowgroups := w.rowgroups + 1 }
    if w.rotateAfterRowgroups ≠ 0 ∧ w.rotateAfterRowgroups ≤ w.rowgroups then
      rotatePrimary f w p
    else return w

/-- The `try` block of `_enter_part_mode`. -/
def promotePrimary (p : ParquetWriter ρ) : Except (InstrumentWriter ρ) (InstrumentWriter ρ) := do
  check (f.raises .promoteClose) w
  let file := if p.torn then .broken else .table p.rows
  let w := { w with files := { w.files with tmp := some file } }
  -- `flush` on a closed file raises.
  check (!p.handle) w
  check (f.raises .promoteSync) w
  check (f.raises .promoteCloseHandle) w
  let w := { w with partIdx := w.partIdx + 1 }
  check (f.raises .promoteReplace) w
  return { w with files := sealTmp w.files w.partIdx }

def enterPartMode : Except (InstrumentWriter ρ) (InstrumentWriter ρ) := do
  let w := { w with partMode := true }
  check (f.raises .enterMkdir) w
  let w := { w with files := mkdirParts w.files }
  match w.writer with
  | none => return w
  | some p =>
    match promotePrimary f w p with
    | .ok w => return { w with writer := none }
    | .error w => return { w with writer := none }

def flushPart (attempt : Attempt) : Except (InstrumentWriter ρ) (InstrumentWriter ρ) :=
  let w := { w with partIdx := w.partIdx + 1 }
  match atomicWritePart (fun site => f.raises (.part attempt site)) table w.partIdx w.files with
  | .ok files => .ok { w with files := files }
  | .error files => .error { w with files := files }

def clearBuffer : InstrumentWriter ρ :=
  { w with rowsWritten := w.rowsWritten + w.buffer.length, buffer := [] }

def flush : Except (InstrumentWriter ρ) (InstrumentWriter ρ) :=
  if w.buffer = [] then .ok w
  else
    let table := w.buffer
    match if w.partMode then flushPart f table w .first else flushPrimary f table w with
    | .ok w => .ok w.clearBuffer
    | .error w => do
      let w ← if w.partMode then pure w else enterPartMode f w
      match flushPart f table w .fallback with
      | .ok w => return w.clearBuffer
      | .error w => return { w with dropped := w.dropped ++ table }.clearBuffer

/-- `add`, of a row already normalised. -/
def add (row : ρ) : Except (InstrumentWriter ρ) (InstrumentWriter ρ) :=
  let w := { w with buffer := w.buffer ++ [row] }
  if w.maxBuffer ≤ w.buffer.length then flush f w else .ok w

def finalizePrimary : InstrumentWriter ρ :=
  match w.writer with
  | none =>
    match w.files.final with
    | some (.table (_ :: _)) => w
    | _ => { w with files := atomicWriteFinal [] w.files }
  | some p =>
    { w with
      writer := none
      files := ⟨some (if p.torn then .broken else .table p.rows), none, w.files.parts⟩ }

def close : Except (InstrumentWriter ρ) (InstrumentWriter ρ) := do
  if w.closed then return w
  else
    let w ← flush f w
    if w.partMode then
      return { w with files := consolidateParts w.files, closed := true }
    else if w.rotated then
      let w ← match w.writer with
        | none => pure w
        | some p => rotatePrimary noFaults w p
      return { w with files := consolidateParts w.files, closed := true }
    else return { finalizePrimary w with closed := true }

def call : Call ρ → InstrumentWriter ρ
  | .add row => after (add f w row)
  | .flush => after (flush f w)

def session (maxBuffer rotateAfterRowgroups : ℤ) (calls : List (Call ρ)) (files : Files ρ) :
    InstrumentWriter ρ :=
  after (close noFaults (calls.foldl (call noFaults) (init maxBuffer rotateAfterRowgroups files)))

end InstrumentWriter

structure DepthWriter (ρ : Type) where
  maxBuffer : ℤ
  files : Files ρ
  buffer : List ρ
  partIdx : ℕ
  rowsWritten : ℕ
  dropped : ℕ
  partsSealed : ℕ
  closed : Bool

namespace DepthWriter

def init (maxBuffer : ℤ) (files : Files ρ) : DepthWriter ρ :=
  ⟨maxBuffer, files, [], 0, 0, 0, 0, false⟩

structure Faults where
  mkdir : Bool
  part : PartSite → Bool

def noFaults : Faults := ⟨false, fun _ => false⟩

variable (f : Faults) (w : DepthWriter ρ)

/-- The `try` block of `flush`. -/
def sealBuffer : Except (DepthWriter ρ) (DepthWriter ρ) := do
  check f.mkdir w
  let w := { w with files := mkdirParts w.files, partIdx := w.partIdx + 1 }
  match atomicWritePart f.part w.buffer w.partIdx w.files with
  | .error files => throw { w with files := files }
  | .ok files =>
    return { w with
      files := files
      rowsWritten := w.rowsWritten + w.buffer.length
      partsSealed := w.partsSealed + 1 }

def flush : DepthWriter ρ :=
  if w.buffer = [] then w
  else
    match sealBuffer f w with
    | .ok w => { w with buffer := [] }
    | .error w => { w with dropped := w.dropped + w.buffer.length, buffer := [] }

def add (row : ρ) : DepthWriter ρ :=
  let w := { w with buffer := w.buffer ++ [row] }
  if w.maxBuffer ≤ w.buffer.length then flush f w else w

def close : DepthWriter ρ :=
  if w.closed then w
  else
    let w := flush f w
    { w with files := consolidateParts w.files, closed := true }

def call : Call ρ → DepthWriter ρ
  | .add row => add f w row
  | .flush => flush f w

def session (maxBuffer : ℤ) (calls : List (Call ρ)) (files : Files ρ) : DepthWriter ρ :=
  close noFaults (calls.foldl (call noFaults) (init maxBuffer files))

end DepthWriter

structure EventWriter (ε : Type) where
  files : Files ε
  buffer : List ε
  idx : ℕ
  closed : Bool

namespace EventWriter

variable {ε : Type}

def init (files : Files ε) : EventWriter ε := ⟨files, [], 0, false⟩

variable (f : DepthWriter.Faults) (w : EventWriter ε)

def flush : Except (EventWriter ε) (EventWriter ε) :=
  if w.buffer = [] then .ok w
  else do
    check f.mkdir w
    let w := { w with files := mkdirParts w.files, idx := w.idx + 1 }
    match atomicWritePart f.part w.buffer w.idx w.files with
    | .error files => throw { w with files := files }
    | .ok files => return { w with files := files, buffer := [] }

/-- `add`, of an event row already normalised. -/
def add (row : ε) : Except (EventWriter ε) (EventWriter ε) :=
  flush f { w with buffer := w.buffer ++ [row] }

def close : Except (EventWriter ε) (EventWriter ε) := do
  if w.closed then return w
  else
    let w ← flush f w
    return { w with files := consolidateParts w.files, closed := true }

def call : Call ε → EventWriter ε
  | .add row => after (add f w row)
  | .flush => after (flush f w)

def session (calls : List (Call ε)) (files : Files ε) : EventWriter ε :=
  after (close DepthWriter.noFaults (calls.foldl (call DepthWriter.noFaults) (init files)))

end EventWriter

structure Session (ρ ε : Type) where
  maxBuffer : ℤ
  rotateAfterRowgroups : ℤ
  calls : List (Call ρ)
  events : List (Call ε)

structure DayDir (ρ ε : Type) where
  instrument : Files ρ
  events : Files ε

namespace DayDir

variable {ε : Type}

def record (day : DayDir ρ ε) (s : Session ρ ε) : DayDir ρ ε where
  instrument :=
    (InstrumentWriter.session s.maxBuffer s.rotateAfterRowgroups s.calls day.instrument).files
  events := (EventWriter.session s.events day.events).files

def recordAll (sessions : List (Session ρ ε)) : DayDir ρ ε :=
  sessions.foldl record ⟨noFiles, noFiles⟩

end DayDir

end Recorder

end TradingBridge.Orderflow
