import TradingBridge.Orderflow.Recorder

/-!
# Salvage of a crashed day

`recorder/salvage.py`. The files under `corrupt/` are known by their relative path. The contents of
files stay abstract; a `Codec` says which of them a parquet reader reads.
-/

namespace TradingBridge.Orderflow.Salvage

open Recorder (isPartName)

/-- `pq.read_table`, which raises on an unreadable file, and `pq.write_table`. -/
structure Codec (β ρ : Type) where
  read : β → Option (List ρ)
  write : List ρ → β
  read_write : ∀ rows, read (write rows) = some rows

structure DayFiles (β : Type) where
  top : Directory Name β
  parts : Directory Name (Directory Name β)
  corrupt : Directory (List Name) β

/-- `<name>.parquet`; `events` is a name like the others. -/
def finalName (name : Name) : Name := name ++ ".parquet".toList

/-- `<name>.parquet.tmp`, of the primary writer and of `_atomic_write_table`. -/
def tmpName (name : Name) : Name := name ++ ".parquet.tmp".toList

def isTmpName (file : Name) : Bool := ".parquet.tmp".toList.isSuffixOf file

def partPath (name part : Name) : List Name := ["parts".toList, name, part]

structure Consolidated where
  instrument : Name
  rows : ℕ
  readableParts : ℕ
  corruptParts : ℕ

structure Summary where
  consolidated : List Consolidated
  corruptParts : List (List Name)
  strayTmp : List Name

namespace Summary

def instrumentsConsolidated (s : Summary) : ℕ := s.consolidated.length

def corruptCount (s : Summary) : ℕ := s.corruptParts.length + s.strayTmp.length

end Summary

structure Salvaging (β : Type) where
  day : DayFiles β
  summary : Summary

variable {β ρ : Type}

/-- `_atomic_write_table` to `<name>.parquet`. -/
def atomicWrite (codec : Codec β ρ) (top : Directory Name β) (name : Name) (rows : List ρ) :
    Directory Name β :=
  ((top.put (tmpName name) (codec.write rows)).erase (tmpName name)).put (finalName name)
    (codec.write rows)

def quarantinePart (name : Name) (st : Salvaging β) (part : Name × β) : Salvaging β where
  day :=
    { st.day with
      parts := st.day.parts.put name (((st.day.parts.get? name).getD .empty).erase part.1)
      corrupt := st.day.corrupt.put (partPath name part.1) part.2 }
  summary :=
    { st.summary with corruptParts := st.summary.corruptParts ++ [partPath name part.1] }

/-- `sorted(inst_dir.glob("part-*.parquet"))`. -/
def foundParts (dir : Directory Name β) : List (Name × β) :=
  (dir.restrict fun e => isPartName e.1).entries

def readableParts (codec : Codec β ρ) (dir : Directory Name β) : List (List ρ) :=
  (foundParts dir).filterMap fun e => codec.read e.2

def unreadableParts (codec : Codec β ρ) (dir : Directory Name β) : List (Name × β) :=
  (foundParts dir).filter fun e => (codec.read e.2).isNone

def consolidateInstrument (codec : Codec β ρ) (st : Salvaging β)
    (inst : Name × Directory Name β) : Salvaging β :=
  let readable := readableParts codec inst.2
  let corrupt := unreadableParts codec inst.2
  let st := corrupt.foldl (quarantinePart inst.1) st
  if readable = [] ∧ corrupt = [] then st
  else
    -- With every part corrupt the table is empty.
    let merged := readable.flatten
    { day := { st.day with top := atomicWrite codec st.day.top inst.1 merged }
      summary := { st.summary with
        consolidated := st.summary.consolidated ++
          [⟨inst.1, merged.length, readable.length, corrupt.length⟩] } }

def quarantineTmp (codec : Codec β ρ) (st : Salvaging β) (file : Name × β) : Salvaging β :=
  match codec.read file.2 with
  | some _ => st
  | none =>
    { day := { st.day with
        top := st.day.top.erase file.1
        corrupt := st.day.corrupt.put [file.1] file.2 }
      summary := { st.summary with strayTmp := st.summary.strayTmp ++ [file.1] } }

def consolidateAll (codec : Codec β ρ) (day : DayFiles β) : Salvaging β :=
  day.parts.entries.foldl (consolidateInstrument codec) ⟨day, ⟨[], [], []⟩⟩

/-- `salvage_day` on the data files; what follows them writes none. -/
def salvageDay (codec : Codec β ρ) (day : DayFiles β) : Salvaging β :=
  let st := consolidateAll codec day
  (st.day.top.restrict fun e => isTmpName e.1).entries.foldl (quarantineTmp codec) st

end TradingBridge.Orderflow.Salvage
