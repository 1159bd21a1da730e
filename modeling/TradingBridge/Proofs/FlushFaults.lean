import TradingBridge.Proofs.PartOrder

/-!
# Flushes that fail

What each failing call of a flush leaves on disk, and when the daily file still accounts for every
row: each added row stands in it at most once and in order, and a missing row was logged as
dropped. Two things break that. A row group that is already in a file that gets sealed is written
again; and a primary file that fails to be sealed takes its earlier row groups with it.
-/

namespace TradingBridge.Orderflow.Recorder.InstrumentWriter

open List

variable {ρ : Type}

section Conditions

def rotateSites : List Site :=
  [.rotateMkdir, .rotateClose, .rotateSync, .rotateCloseHandle, .rotateSyncPath, .rotateReplace,
    .rotateSyncDir]

variable (f : Faults) (w : InstrumentWriter ρ)

/-- The I/O calls of `_flush_primary` in this state, in their order. -/
def primarySites : List Site :=
  (if w.writer.isNone then [.openTmp, .newWriter] else [])
    ++ [.writeTable, .syncTmp]
    ++ if (w.wrote w.buffer).rotates then rotateSites else []

def primaryRaise : Option Site :=
  w.primarySites.find? f.raises

/-- The fallback seals the open primary file as a part. -/
def promotes : Bool :=
  !(f.raises .enterMkdir || f.raises .promoteClose || f.raises .promoteSync
    || f.raises .promoteCloseHandle || f.raises .promoteReplace)

/-- What of the primary file ends in a readable part when the flush fails. -/
inductive Kept where
  | nothing
  | earlier
  | withTable
  deriving DecidableEq

def keeps (f : Faults) : Site → Kept
  | .writeTable => if promotes f then .earlier else .nothing
  | .syncTmp | .rotateMkdir | .rotateSync => if promotes f then .withTable else .nothing
  | .rotateClose => if promotes f && !f.footerLost then .withTable else .nothing
  | .rotateSyncDir => .withTable
  | _ => .nothing

/-- The part of this attempt is renamed to its place. -/
def places (attempt : Attempt) : Bool :=
  !(f.raises (.part attempt .write) || f.raises (.part attempt .sync)
    || f.raises (.part attempt .replace))

def succeeds (attempt : Attempt) : Bool :=
  places f attempt && !f.raises (.part attempt .syncDir)

/-- A flush neither doubles a row nor loses one silently. In primary mode a failure seals the
earlier row groups, and not the buffer with them; in part mode the two attempts do not both leave
their part, nor one of rows already in a part. -/
def Harmless : Prop :=
  if w.partMode then
    w.files.parts = none ∨
      (¬ (places f .first ∧ ¬ succeeds f .first ∧ places f .fallback)) ∧
        ((places f .first ∨ places f .fallback) → ∀ row ∈ w.buffer, row ∉ partRows w.files.parts)
  else
    match primaryRaise f w with
    | none => True
    | some site =>
      (w.pending = [] ∨ keeps f site ≠ .nothing) ∧
        ¬ (keeps f site = .withTable ∧ ¬ f.raises .enterMkdir ∧ places f .fallback)

def HarmlessFlush : Prop := w.buffer ≠ [] → Harmless f w

def HarmlessCall (f : Faults) (w : InstrumentWriter ρ) : Call ρ → Prop
  | .flush => HarmlessFlush f w
  | .add row =>
    w.maxBuffer ≤ (w.buffer ++ [row]).length → Harmless f { w with buffer := w.buffer ++ [row] }

/-- Every flush of the calls is harmless in the state it meets. -/
def HarmlessCalls : InstrumentWriter ρ → List (Call ρ × Faults) → Prop
  | _, [] => True
  | w, (c, f) :: calls => HarmlessCall f w c ∧ HarmlessCalls (w.call f c) calls

def runCalls (calls : List (Call ρ × Faults)) : InstrumentWriter ρ :=
  calls.foldl (fun w c => w.call c.2 c.1) w

/-- Each row at most once and in order, and a row missed was logged as dropped. -/
def Accounts (rows : List ρ) (w : InstrumentWriter ρ) : Prop :=
  ∃ kept, w.files.final = some (.table kept) ∧ kept.Sublist rows
    ∧ ∀ row ∈ rows, row ∉ kept → row ∈ w.dropped

end Conditions

section Primary

variable {f : Faults} {w : InstrumentWriter ρ} {p : ParquetWriter ρ}

@[simp] theorem check_true {σ : Type} (s : σ) : check true s = .error s := rfl

@[simp] theorem check_false {σ : Type} (s : σ) : check false s = .ok () := rfl

/-- The writer after its rotation raised at `site`. -/
def rotateFailed (f : Faults) (w : InstrumentWriter ρ) (p : ParquetWriter ρ) :
    Site → InstrumentWriter ρ
  | .rotateMkdir => w
  | .rotateClose =>
    { w with files := mkdirParts w.files, writer := some { p with torn := f.footerLost } }
  | .rotateSync =>
    { w with files := { mkdirParts w.files with tmp := some (.table p.rows) } }
  | .rotateCloseHandle =>
    { w with
      files := { mkdirParts w.files with tmp := some (.table p.rows) }
      writer := some { p with handle := false } }
  | .rotateSyncPath =>
    { w with
      files := { mkdirParts w.files with tmp := some (.table p.rows) }
      writer := none
      rowgroups := 0 }
  | .rotateReplace =>
    { w with
      files := { mkdirParts w.files with tmp := some (.table p.rows) }
      writer := none
      rowgroups := 0
      partIdx := w.partIdx + 1 }
  | _ =>
    { w with
      files := ⟨w.files.final, none,
        some ((w.files.parts.getD .empty).put (partName (w.partIdx + 1)) (.table p.rows))⟩
      writer := none
      rowgroups := 0
      partIdx := w.partIdx + 1 }

theorem rotatePrimary_eq (f : Faults) (w : InstrumentWriter ρ) (p : ParquetWriter ρ) :
    rotatePrimary f w p = match rotateSites.find? f.raises with
      | none => rotatePrimary noFaults w p
      | some site => .error (rotateFailed f w p site) := by
  unfold rotateSites
  cases h1 : f.raises .rotateMkdir
  swap
  · simp [rotatePrimary, h1, rotateFailed]
  cases h2 : f.raises .rotateClose
  swap
  · simp [rotatePrimary, h1, h2, rotateFailed]
  cases h3 : f.raises .rotateSync
  swap
  · simp [rotatePrimary, h1, h2, h3, rotateFailed]
  cases h4 : f.raises .rotateCloseHandle
  swap
  · simp [rotatePrimary, h1, h2, h3, h4, rotateFailed]
  cases h5 : f.raises .rotateSyncPath
  swap
  · simp [rotatePrimary, h1, h2, h3, h4, h5, rotateFailed]
  cases h6 : f.raises .rotateReplace
  swap
  · simp [rotatePrimary, h1, h2, h3, h4, h5, h6, rotateFailed]
  cases h7 : f.raises .rotateSyncDir
  swap
  · simp [rotatePrimary, h1, h2, h3, h4, h5, h6, h7, rotateFailed, sealTmp, mkdirParts]
  · simp [rotatePrimary, h1, h2, h3, h4, h5, h6, h7, noFaults]

/-- The writer after `_flush_primary` raised at `site`. -/
def primaryFailed (f : Faults) (w : InstrumentWriter ρ) : Site → InstrumentWriter ρ
  | .openTmp => w
  | .newWriter => { w with files := { w.files with tmp := some .broken } }
  | .writeTable =>
    { w with
      files := { w.files with tmp := if w.writer.isNone then some .broken else w.files.tmp }
      writer := some (appended [] w)
      rowgroups := if w.writer.isNone then 0 else w.rowgroups }
  | .syncTmp =>
    { w with
      files := { w.files with tmp := if w.writer.isNone then some .broken else w.files.tmp }
      writer := some (appended w.buffer w)
      rowgroups := if w.writer.isNone then 0 else w.rowgroups }
  | site => rotateFailed f (w.wrote w.buffer) (appended w.buffer w) site

theorem flushPrimary_of_written (hopen : w.writer = none → f.raises .openTmp = false)
    (hnew : w.writer = none → f.raises .newWriter = false) (hwrite : f.raises .writeTable = false)
    (hsync : f.raises .syncTmp = false) :
    flushPrimary f w.buffer w = if (w.wrote w.buffer).rotates then
      rotatePrimary f (w.wrote w.buffer) (appended w.buffer w) else .ok (w.wrote w.buffer) := by
  obtain ⟨_, _, _, _, writer, _, _, _, _, _, _, _⟩ := w
  cases writer with
  | none =>
    simp only [flushPrimary, openPrimary, hopen, hnew, hwrite, hsync]
    rfl
  | some p =>
    simp only [flushPrimary, hwrite, hsync]
    rfl

theorem find_rotateSites {site : Site} (h : rotateSites.find? f.raises = some site) :
    primaryFailed f w site = rotateFailed f (w.wrote w.buffer) (appended w.buffer w) site := by
  have hmem := mem_of_find?_eq_some h
  simp only [rotateSites, mem_cons, not_mem_nil, or_false] at hmem
  rcases hmem with rfl | rfl | rfl | rfl | rfl | rfl | rfl <;> rfl

/-- `_flush_primary` raises at the first of its calls that does. -/
theorem flushPrimary_eq (f : Faults) (w : InstrumentWriter ρ) :
    flushPrimary f w.buffer w = match primaryRaise f w with
      | none => flushPrimary noFaults w.buffer w
      | some site => .error (primaryFailed f w site) := by
  by_cases hopen : w.writer = none ∧ f.raises .openTmp = true
  · simp [primaryRaise, primarySites, flushPrimary, openPrimary, hopen.1, hopen.2, primaryFailed]
  by_cases hnew : w.writer = none ∧ f.raises .newWriter = true
  · have hopen' : f.raises .openTmp = false := by simpa [hnew.1] using hopen
    simp [primaryRaise, primarySites, flushPrimary, openPrimary, hnew.1, hnew.2, hopen',
      primaryFailed]
  have hopen' : w.writer = none → f.raises .openTmp = false := by simpa using hopen
  have hnew' : w.writer = none → f.raises .newWriter = false := by simpa using hnew
  have hstart : (if w.writer.isNone then [Site.openTmp, .newWriter] else []).find? f.raises
      = none := by
    cases hw : w.writer with
    | none => simp [hopen' hw, hnew' hw]
    | some p => rfl
  have hraise : primaryRaise f w = ([Site.writeTable, .syncTmp]
      ++ if (w.wrote w.buffer).rotates then rotateSites else []).find? f.raises := by
    rw [primaryRaise, primarySites, append_assoc, find?_append, hstart, Option.none_or]
  rw [hraise]
  cases hwrite : f.raises .writeTable
  swap
  · obtain ⟨_, _, _, _, writer, _, _, _, _, _, _, _⟩ := w
    cases writer with
    | none => simp [flushPrimary, openPrimary, hopen', hnew', hwrite, primaryFailed, appended]
    | some p => simp [flushPrimary, hwrite, primaryFailed, appended]
  cases hsync : f.raises .syncTmp
  swap
  · obtain ⟨_, _, _, _, writer, _, _, _, _, _, _, _⟩ := w
    cases writer with
    | none =>
      simp [flushPrimary, openPrimary, hopen', hnew', hwrite, hsync, primaryFailed, appended]
    | some p => simp [flushPrimary, hwrite, hsync, primaryFailed, appended]
  rw [flushPrimary_of_written hopen' hnew' hwrite hsync, flushPrimary_noFaults, find?_append,
    find?_cons_of_neg (by simp [hwrite]), find?_cons_of_neg (by simp [hsync])]
  split_ifs with hrotates
  · rw [rotatePrimary_eq]
    cases hfind : rotateSites.find? f.raises with
    | none => rfl
    | some site => exact congrArg Except.error (find_rotateSites hfind).symm
  · rfl

end Primary

section Parts

variable {f : Faults} {w v : InstrumentWriter ρ} {ps : List (ℕ × File ρ)} {table : List ρ}

/-- The sealed parts, with increasing numbers, none above the writer's counter. -/
structure Stands (ps : List (ℕ × File ρ)) (w : InstrumentWriter ρ) : Prop where
  dir : w.files.parts.getD .empty = sealFiles .empty ps
  lt : ps.Pairwise fun p q => p.1 < q.1
  le : ∀ p ∈ ps, p.1 ≤ w.partIdx

def sealedRows (ps : List (ℕ × File ρ)) : List ρ := ps.flatMap fun p => p.2.rows

theorem sealedRows_append (ps x : List (ℕ × File ρ)) :
    sealedRows (ps ++ x) = sealedRows ps ++ sealedRows x := by
  simp [sealedRows]

theorem sealedRows_tables (qs : List (ℕ × List ρ)) : sealedRows (tables qs) = qs.flatMap Prod.snd :=
  flatMap_tables qs

theorem Stands.keep (h : Stands ps w)
    (hparts : v.files.parts.getD .empty = w.files.parts.getD .empty)
    (hidx : w.partIdx ≤ v.partIdx) : Stands ps v :=
  ⟨hparts.trans h.dir, h.lt, fun p hp => (h.le p hp).trans hidx⟩

theorem Stands.snoc (h : Stands ps w) {file : File ρ} (hparts : v.files.parts
      = some ((w.files.parts.getD .empty).put (partName (w.partIdx + 1)) file))
    (hidx : v.partIdx = w.partIdx + 1) : Stands (ps ++ [(w.partIdx + 1, file)]) v where
  dir := by rw [hparts, sealFiles_append_singleton, ← h.dir]; rfl
  lt := by
    refine pairwise_append.2 ⟨h.lt, pairwise_singleton _ _, fun p hp q hq => ?_⟩
    rw [mem_singleton.1 hq]
    exact Nat.lt_succ_of_le (h.le p hp)
  le := by
    intro p hp
    rcases mem_append.1 hp with hp | hp
    · have := h.le p hp
      omega
    · rw [mem_singleton.1 hp, hidx]

theorem Stands.mem_partRows (h : Stands ps w) (row : ρ) :
    row ∈ partRows w.files.parts ↔ row ∈ sealedRows ps := by
  rw [← partRows_getD, h.dir]
  exact mem_partRows_sealFiles h.lt row

theorem flushPart_spec (f : Faults) (table : List ρ) (attempt : Attempt) (h : Stands ps w) :
    ∃ files x, flushPart f table w attempt
        = (if w.files.parts.isSome && succeeds f attempt then Except.ok else .error)
          { w with files, partIdx := w.partIdx + 1 }
      ∧ files.parts.isSome = w.files.parts.isSome
      ∧ Stands (ps ++ x) { w with files, partIdx := w.partIdx + 1 }
      ∧ sealedRows x = if w.files.parts.isSome && places f attempt then table else [] := by
  have hskip : Stands (ps ++ []) { w with partIdx := w.partIdx + 1 } := by
    rw [append_nil]
    exact h.keep rfl (Nat.le_succ _)
  unfold flushPart atomicWritePart
  dsimp only
  cases hparts : w.files.parts with
  | none => exact ⟨w.files, [], rfl, by rw [hparts], hskip, rfl⟩
  | some dir =>
    have hput : Stands (ps ++ [(w.partIdx + 1, .table table)])
        { w with
          partIdx := w.partIdx + 1
          files := { w.files with
            parts := some (dir.put (partName (w.partIdx + 1)) (.table table)) } } :=
      h.snoc (by rw [hparts]; rfl) rfl
    cases h1 : f.raises (.part attempt .write)
    swap
    · exact ⟨w.files, [], by simp [succeeds, places, h1], by rw [hparts], hskip, by
        simp [places, h1, sealedRows]⟩
    cases h2 : f.raises (.part attempt .sync)
    swap
    · exact ⟨w.files, [], by simp [succeeds, places, h2], by rw [hparts], hskip, by
        simp [places, h2, sealedRows]⟩
    cases h3 : f.raises (.part attempt .replace)
    swap
    · exact ⟨w.files, [], by simp [succeeds, places, h3], by rw [hparts], hskip, by
        simp [places, h3, sealedRows]⟩
    refine ⟨_, [(w.partIdx + 1, .table table)], ?_, rfl, hput, ?_⟩
    · cases h4 : f.raises (.part attempt .syncDir) <;> simp [succeeds, places, h1, h2, h3, h4]
    · simp [places, h1, h2, h3, sealedRows, File.rows]

def promotedRows (f : Faults) : Option (ParquetWriter ρ) → List ρ
  | none => []
  | some p => if promotes f && p.handle && !p.torn then p.rows else []

theorem promotePrimary_spec (p : ParquetWriter ρ) (h : Stands ps w)
    (hmkdir : f.raises .enterMkdir = false) (hsome : w.files.parts.isSome = true) :
    ∃ files partIdx x, after (promotePrimary f w p) = { w with files, partIdx }
      ∧ files.parts.isSome = true ∧ Stands (ps ++ x) { w with files, partIdx }
      ∧ sealedRows x = promotedRows f (some p) := by
  obtain ⟨dir, hparts⟩ := Option.isSome_iff_exists.1 hsome
  unfold promotePrimary promotedRows
  have hkeep : ∀ v : InstrumentWriter ρ, v.files.parts = w.files.parts → w.partIdx ≤ v.partIdx →
      Stands (ps ++ []) v := by
    intro v hv hidx
    rw [append_nil]
    exact h.keep (by rw [hv]) hidx
  cases h1 : f.raises .promoteClose
  swap
  · exact ⟨_, _, [], rfl, hsome, hkeep _ rfl le_rfl, by simp [promotes, h1, sealedRows]⟩
  cases h2 : p.handle
  · exact ⟨_, _, [], rfl, hsome, hkeep _ rfl le_rfl, by simp [h2, sealedRows]⟩
  cases h3 : f.raises .promoteSync
  swap
  · exact ⟨_, _, [], rfl, hsome, hkeep _ rfl le_rfl, by simp [promotes, h3, sealedRows]⟩
  cases h4 : f.raises .promoteCloseHandle
  swap
  · exact ⟨_, _, [], rfl, hsome, hkeep _ rfl le_rfl, by simp [promotes, h4, sealedRows]⟩
  cases h5 : f.raises .promoteReplace
  swap
  · exact ⟨_, _, [], rfl, hsome, hkeep _ rfl (Nat.le_succ _), by simp [promotes, h5, sealedRows]⟩
  refine ⟨_, _, [(w.partIdx + 1, if p.torn then .broken else .table p.rows)], rfl, ?_,
    h.snoc ?_ rfl, ?_⟩
  · simp [sealTmp, hparts]
  · simp [sealTmp, hparts]
  · cases htorn : p.torn <;>
      simp [promotes, hmkdir, h1, h2, h3, h4, h5, htorn, sealedRows, File.rows]

theorem enterPartMode_raises (hmkdir : f.raises .enterMkdir = true) :
    enterPartMode f w = .error { w with partMode := true } := by
  simp [enterPartMode, hmkdir]

theorem enterPartMode_spec (h : Stands ps w) (hmkdir : f.raises .enterMkdir = false) :
    ∃ files partIdx x,
      enterPartMode f w = .ok { w with files, partIdx, writer := none, partMode := true }
      ∧ files.parts.isSome = true
      ∧ Stands (ps ++ x) { w with files, partIdx, writer := none, partMode := true }
      ∧ sealedRows x = promotedRows f w.writer := by
  obtain ⟨_, _, _, _, writer, _, _, _, _, _, _, _⟩ := w
  unfold enterPartMode
  simp only [hmkdir]
  cases writer with
  | none =>
    refine ⟨_, _, [], rfl, rfl, ?_, rfl⟩
    rw [append_nil]
    exact h.keep rfl le_rfl
  | some p =>
    obtain ⟨files, partIdx, x, hv, hsome, hstands, hrows⟩ :=
      promotePrimary_spec (w := ⟨_, _, mkdirParts _, _, some p, _, true, _, _, _, _, _⟩) p
        (h.keep rfl le_rfl) hmkdir rfl
    refine ⟨files, partIdx, x, ?_, hsome, hstands.keep rfl le_rfl, hrows⟩
    dsimp only
    split
    all_goals
      rename_i v hpromote
      rw [hpromote] at hv
      obtain rfl : v = _ := hv
      rfl

end Parts

section Flushes

variable {f : Faults} {w : InstrumentWriter ρ} {ps : List (ℕ × File ρ)} {qs : List (ℕ × List ρ)}
  {rows : List ρ} {site : Site}

theorem Recording.stands (h : Recording noFiles qs rows w) : Stands (tables qs) w where
  dir := by
    rw [h.parts, sealed]
    split_ifs with hqs
    · rw [hqs]
      rfl
    · rfl
  lt := pairwise_tables.2 h.numbered.lt
  le := by
    intro p hp
    obtain ⟨q, hq, rfl⟩ := mem_map.1 hp
    exact h.numbered.le hq

theorem Recording.appended (h : Recording noFiles qs rows w) (table : List ρ) :
    (appended table w).handle = true ∧ (InstrumentWriter.appended table w).torn = false := by
  unfold InstrumentWriter.appended
  split
  · exact ⟨rfl, rfl⟩
  · rename_i p hw
    exact ⟨(h.writer p hw).2.2, (h.writer p hw).2.1⟩

def keptRows (f : Faults) (w : InstrumentWriter ρ) (site : Site) : List ρ :=
  match keeps f site with
  | .nothing => []
  | .earlier => w.pending
  | .withTable => w.pending ++ w.buffer

theorem mem_primarySites (h : site ∈ w.primarySites) :
    (w.writer = none ∧ (site = .openTmp ∨ site = .newWriter)) ∨ site = .writeTable
      ∨ site = .syncTmp ∨ site ∈ rotateSites := by
  rcases mem_append.1 h with h | h
  · rcases mem_append.1 h with h | h
    · split_ifs at h with hw
      · exact .inl ⟨Option.isNone_iff_eq_none.1 hw, by simpa using h⟩
      · cases h
    · rcases mem_cons.1 h with rfl | h
      · exact .inr (.inl rfl)
      · exact .inr (.inr (.inl (mem_singleton.1 h)))
  · split_ifs at h
    · exact .inr (.inr (.inr h))
    · cases h

/-- What a failing `_flush_primary` seals at once, and what the fallback seals. -/
theorem primaryFailed_spec (h : Recording noFiles qs rows w) (hsite : site ∈ w.primarySites) :
    (primaryFailed f w site).partMode = false ∧ (primaryFailed f w site).closed = false
      ∧ (primaryFailed f w site).buffer = w.buffer
      ∧ (primaryFailed f w site).dropped = w.dropped
      ∧ ∃ x, Stands (tables qs ++ x) (primaryFailed f w site)
        ∧ sealedRows x ++ promotedRows f (primaryFailed f w site).writer = keptRows f w site := by
  have hkeep : ∀ v : InstrumentWriter ρ, v.files.parts.getD .empty = w.files.parts.getD .empty →
      w.partIdx ≤ v.partIdx → Stands (tables qs ++ []) v := by
    intro v hv hidx
    rw [append_nil]
    exact h.stands.keep hv hidx
  have hnil := h.appended []
  have hfull := h.appended w.buffer
  rcases mem_primarySites hsite with ⟨hw, rfl | rfl⟩ | rfl | rfl | hrotate
  iterate 2
    exact ⟨h.partMode, h.closed, rfl, rfl, [], hkeep _ rfl le_rfl, by
      simp [primaryFailed, promotedRows, hw, keptRows, keeps, sealedRows]⟩
  iterate 2
    refine ⟨h.partMode, h.closed, rfl, rfl, [], hkeep _ rfl le_rfl, ?_⟩
    cases hp : promotes f <;> simp [primaryFailed, promotedRows, keptRows, keeps, sealedRows, hp,
      hnil, hfull, pending_appended]
  · simp only [rotateSites, mem_cons, not_mem_nil, or_false] at hrotate
    rcases hrotate with rfl | rfl | rfl | rfl | rfl | rfl | rfl
    iterate 6
      refine ⟨h.partMode, h.closed, rfl, rfl, [], hkeep _ rfl (by simp [primaryFailed,
        rotateFailed, wrote]), ?_⟩
      cases hp : promotes f <;> cases hl : f.footerLost <;>
        simp [primaryFailed, rotateFailed, wrote, promotedRows, keptRows, keeps, sealedRows, hp, hl,
          hfull, pending_appended]
    refine ⟨h.partMode, h.closed, rfl, rfl,
      [(w.partIdx + 1, .table (InstrumentWriter.appended w.buffer w).rows)],
      h.stands.snoc rfl rfl, ?_⟩
    simp [primaryFailed, rotateFailed, promotedRows, keptRows, keeps, sealedRows, File.rows,
      pending_appended]

/-- A flush whose `_flush_primary` raises seals what is kept, and where it can enter part mode the
buffer; what is gone from the buffer is sealed or logged as dropped. -/
theorem flush_fallback_spec (h : Recording noFiles qs rows w) (hb : w.buffer ≠ [])
    (hraise : primaryRaise f w = some site) :
    ∃ v x t flushed, after (flush f w) = v ∧ v.partMode = true ∧ v.closed = false
      ∧ rows = flushed ++ v.buffer ∧ Stands (tables qs ++ x) v
      ∧ sealedRows x = keptRows f w site ++ t
      ∧ t = (if f.raises .enterMkdir = false ∧ places f .fallback = true then w.buffer else [])
      ∧ (∀ row ∈ w.pending, row ∈ flushed)
      ∧ (∀ row ∈ flushed, row ∈ qs.flatMap Prod.snd ++ w.pending ++ t ∨ row ∈ v.dropped)
      ∧ ∀ row ∈ v.dropped, row ∈ w.buffer := by
  obtain ⟨hm, hc, hbuffer, hdropped, x, hstands, hx⟩ :=
    primaryFailed_spec (f := f) h (mem_of_find?_eq_some hraise)
  rw [h.dropped] at hdropped
  unfold flush
  rw [if_neg hb]
  simp only [h.partMode]
  rw [flushPrimary_eq, hraise]
  simp only [hm, Bool.false_eq_true, if_false]
  cases hmkdir : f.raises .enterMkdir
  · obtain ⟨_, _, y, henter, hsome, hstands', hy⟩ := enterPartMode_spec hstands hmkdir
    obtain ⟨_, z, hpart, -, hstands'', hz⟩ := flushPart_spec f w.buffer .fallback hstands'
    rw [hsome, Bool.true_and] at hpart hz
    rw [append_assoc, append_assoc] at hstands''
    simp only [henter, Fallible.ok_bind, hpart]
    have hrows : sealedRows (x ++ (y ++ z)) = keptRows f w site
        ++ if places f .fallback = true then w.buffer else [] := by
      rw [sealedRows_append, sealedRows_append, hy, hz, ← append_assoc, hx]
    have hpending : ∀ row ∈ w.pending, row ∈ rows := fun row hrow => by
      rw [← h.rows_eq]
      exact mem_append_left _ (mem_append_right _ hrow)
    cases hok : succeeds f .fallback
    · refine ⟨_, x ++ (y ++ z), _, rows, rfl, rfl, hc, (append_nil _).symm,
        hstands''.keep rfl le_rfl, hrows, by simp, hpending, fun row hrow => ?_, ?_⟩
      · rw [← h.rows_eq] at hrow
        exact (mem_append.1 hrow).imp (mem_append_left _) (mem_append_right _)
      · simp [after, clearBuffer, hdropped]
    · have hplaced : places f .fallback = true := (Bool.and_eq_true_iff.1 hok).1
      refine ⟨_, x ++ (y ++ z), _, rows, rfl, rfl, hc, (append_nil _).symm,
        hstands''.keep rfl le_rfl, hrows, by simp, hpending, fun row hrow => ?_, ?_⟩
      · rw [if_pos hplaced, h.rows_eq]
        exact .inl hrow
      · simp [after, clearBuffer, hdropped]
  · have hnone : promotedRows f (primaryFailed f w site).writer = [] := by
      cases (primaryFailed f w site).writer <;> simp [promotedRows, promotes, hmkdir]
    simp only [enterPartMode_raises hmkdir, Fallible.error_bind]
    rw [hnone, append_nil] at hx
    refine ⟨_, x, [], qs.flatMap Prod.snd ++ w.pending, rfl, rfl, hc, ?_, hstands.keep rfl le_rfl,
      hx.trans (append_nil _).symm, by simp, fun row => mem_append_right _,
      fun row hrow => .inl (mem_append_left _ hrow), ?_⟩
    · rw [after, hbuffer, h.rows_eq]
    · simp [after, hdropped]

end Flushes

section Accounting

variable {f : Faults} {w : InstrumentWriter ρ} {ps : List (ℕ × File ρ)} {rows : List ρ}

/-- The parts hold each flushed row once and in order, or have it logged as dropped. -/
structure Sound (ps : List (ℕ × File ρ)) (flushed : List ρ) (w : InstrumentWriter ρ) : Prop where
  partMode : w.partMode = true
  closed : w.closed = false
  stands : Stands ps w
  sublist : (sealedRows ps).Sublist (flushed ++ w.buffer)
  accounted : ∀ row ∈ flushed, row ∈ sealedRows ps ∨ row ∈ w.dropped

/-- A writer in part mode with a row sealed twice, or flushed and gone. -/
structure Broken (ps : List (ℕ × File ρ)) (flushed : List ρ) (w : InstrumentWriter ρ) : Prop where
  partMode : w.partMode = true
  closed : w.closed = false
  stands : Stands ps w
  damage : ¬ (sealedRows ps).Nodup ∨ ∃ row ∈ flushed, row ∉ sealedRows ps ∧ row ∉ w.dropped

def Good (rows : List ρ) (w : InstrumentWriter ρ) : Prop :=
  (∃ qs, Recording noFiles qs rows w) ∨
    ∃ ps flushed, rows = flushed ++ w.buffer ∧ Sound ps flushed w

def Damaged (rows : List ρ) (w : InstrumentWriter ρ) : Prop :=
  ∃ ps flushed, rows = flushed ++ w.buffer ∧ Broken ps flushed w

/-- The parts account for the rows exactly if `ok` holds. -/
def Tracks (ok : Prop) (rows : List ρ) (w : InstrumentWriter ρ) : Prop :=
  (ok ∧ Good rows w) ∨ (¬ ok ∧ Damaged rows w)

theorem sublist_of_disjoint {s l b : List ρ} (h : s.Sublist (l ++ b)) (hb : ∀ row ∈ b, row ∉ s) :
    s.Sublist l := by
  obtain ⟨s₁, s₂, rfl, h₁, h₂⟩ := sublist_append_iff.1 h
  obtain _ | ⟨row, rest⟩ := s₂
  · rwa [append_nil]
  · exact absurd (mem_append_right _ mem_cons_self)
      (hb row (h₂.subset mem_cons_self))

theorem not_nodup_append {l b : List ρ} {row : ρ} (hl : row ∈ l) (hb : row ∈ b) :
    ¬ (l ++ b).Nodup := fun h => (nodup_append.1 h).2.2 row hl row hb rfl

theorem flush_of_primaryRaise_none (hm : w.partMode = false) (hraise : primaryRaise f w = none) :
    flush f w = flush noFaults w := by
  by_cases hb : w.buffer = []
  · unfold flush
    rw [if_pos hb, if_pos hb]
  · have hok : ∃ v, flushPrimary noFaults w.buffer w = .ok v := by
      rw [flushPrimary_noFaults]
      split_ifs
      · exact ⟨_, rotatePrimary_noFaults _ _⟩
      · exact ⟨_, rfl⟩
    obtain ⟨v, hv⟩ := hok
    unfold flush
    simp only [hm, Bool.false_eq_true, if_false]
    rw [flushPrimary_eq, hraise, hv]

variable {qs : List (ℕ × List ρ)} {flushed : List ρ}

theorem Recording.fallback {site : Site} (h : Recording noFiles qs rows w) (hnodup : rows.Nodup)
    (hb : w.buffer ≠ []) (hraise : primaryRaise f w = some site) :
    Tracks ((w.pending = [] ∨ keeps f site ≠ .nothing)
      ∧ ¬ (keeps f site = .withTable ∧ ¬ f.raises .enterMkdir ∧ places f .fallback)) rows
      (after (InstrumentWriter.flush f w)) := by
  obtain ⟨v, x, t, flushed, hv, hvm, hvc, hrows, hstands, hx, ht, hpending, hflushed, hdropped⟩ :=
    flush_fallback_spec h hb hraise
  have hsealed : sealedRows (tables qs ++ x) = qs.flatMap Prod.snd ++ (keptRows f w site ++ t) := by
    rw [sealedRows_append, sealedRows_tables, hx]
  rw [hv]
  by_cases hlost : w.pending = [] ∨ keeps f site ≠ .nothing
  · by_cases htwice : keeps f site = .withTable ∧ ¬ f.raises .enterMkdir ∧ places f .fallback
    · -- The buffer is sealed with the primary file and once more as a part.
      refine .inr ⟨fun hok => hok.2 htwice, tables qs ++ x, flushed, hrows, hvm, hvc, hstands,
        .inl ?_⟩
      obtain ⟨row, hrow⟩ := exists_mem_of_ne_nil _ hb
      rw [hsealed, ht, if_pos ⟨by simpa using htwice.2.1, htwice.2.2⟩, ← append_assoc]
      exact not_nodup_append (by simp [keptRows, htwice.1, hrow]) hrow
    · refine .inl ⟨⟨hlost, htwice⟩, .inr ⟨tables qs ++ x, flushed, hrows, hvm, hvc, hstands, ?_,
        fun row hrow => ?_⟩⟩
      · have hsub : t.Sublist w.buffer := by
          rw [ht]
          split_ifs
          · exact .refl _
          · exact nil_sublist _
        rw [hsealed, ← hrows, ← h.rows_eq, append_assoc]
        refine (List.Sublist.refl _).append ?_
        unfold keptRows
        split
        · exact hsub.trans (sublist_append_right _ _)
        · exact (List.Sublist.refl _).append hsub
        · rename_i hk
          rw [ht, if_neg fun hplaced => htwice ⟨hk, by simp [hplaced.1], hplaced.2⟩,
            append_nil]
      · have hkept : row ∈ w.pending → row ∈ keptRows f w site := by
          intro hmem
          unfold keptRows
          split
          · rename_i hk
            exact absurd hmem (by simp [hlost.resolve_right (not_not.2 hk)])
          · exact hmem
          · exact mem_append_left _ hmem
        rw [hsealed]
        refine (hflushed row hrow).imp_left fun hmem => ?_
        simp only [mem_append] at hmem ⊢
        tauto
  · -- A row group written before this flush is in no part.
    refine .inr ⟨fun hok => hlost hok.1, tables qs ++ x, flushed, hrows, hvm, hvc, hstands,
      .inr ?_⟩
    push Not at hlost
    rw [← h.rows_eq] at hnodup
    obtain ⟨hnodup', -, hbuffer⟩ := nodup_append.1 hnodup
    obtain ⟨-, -, hearlier⟩ := nodup_append.1 hnodup'
    obtain ⟨row, hrow⟩ := exists_mem_of_ne_nil _ hlost.1
    have hnot : row ∉ w.buffer := fun hmem =>
      hbuffer row (mem_append_right _ hrow) row hmem rfl
    refine ⟨row, hpending row hrow, ?_, fun hmem => hnot (hdropped row hmem)⟩
    have hnew : row ∉ qs.flatMap Prod.snd := fun hmem => hearlier row hmem row hrow rfl
    have hkept : keptRows f w site = [] := by simp [keptRows, hlost.2]
    rw [hsealed, hkept, ht]
    split_ifs <;> simp [hnew, hnot]

/-- Both attempts leave their part. -/
def Twice (f : Faults) (w : InstrumentWriter ρ) : Prop :=
  w.files.parts.isSome = true ∧ places f .first ∧ ¬ succeeds f .first ∧ places f .fallback

def Placed (f : Faults) (w : InstrumentWriter ρ) : Prop :=
  w.files.parts.isSome = true ∧ (places f .first ∨ places f .fallback)

/-- A flush in part mode writes the buffer twice, once or, logging it as dropped, not at all. -/
theorem flush_partMode_cases (f : Faults) (h : Stands ps w) (hm : w.partMode = true)
    (hb : w.buffer ≠ []) :
    ∃ v x, flush f w = .ok v ∧ v.partMode = true ∧ v.closed = w.closed ∧ v.buffer = []
      ∧ Stands (ps ++ x) v
      ∧ (Twice f w → sealedRows x = w.buffer ++ w.buffer)
      ∧ (Placed f w → ¬ Twice f w → sealedRows x = w.buffer)
      ∧ (¬ Placed f w → sealedRows x = [] ∧ v.dropped = w.dropped ++ w.buffer)
      ∧ (v.dropped = w.dropped ∨ v.dropped = w.dropped ++ w.buffer) := by
  obtain ⟨_, x, hfirst, hsome, hstands, hx⟩ := flushPart_spec f w.buffer .first h
  obtain ⟨_, y, hfallback, -, hstands', hy⟩ := flushPart_spec f w.buffer .fallback hstands
  have hplaced : ∀ attempt, succeeds f attempt = true → places f attempt = true :=
    fun attempt h => (Bool.and_eq_true_iff.1 h).1
  rw [append_assoc] at hstands'
  simp only [hsome, hm] at hfallback hy
  unfold flush Twice Placed
  rw [if_neg hb]
  simp only [hm, hfirst]
  -- whether the directory is there, then which of the attempts succeeds
  cases hs : w.files.parts.isSome
  · simp only [hs, Bool.false_and, Bool.false_eq_true, if_false] at hx hy hfallback ⊢
    simp only [if_true, Fallible.pure_eq_ok, Fallible.ok_bind, hfallback]
    refine ⟨_, x ++ y, rfl, rfl, rfl, rfl, hstands'.keep rfl le_rfl, ?_⟩
    simp [sealedRows_append, hx, hy, clearBuffer]
  · simp only [hs, Bool.true_and] at hx hy hfallback ⊢
    cases hone : succeeds f .first
    · simp only [if_true, Fallible.pure_eq_ok, Fallible.ok_bind, hfallback,
        Bool.false_eq_true, if_false]
      have htwo := hplaced .fallback
      cases hsucceeds : succeeds f .fallback <;>
        refine ⟨_, x ++ y, rfl, rfl, rfl, rfl, hstands'.keep rfl le_rfl, ?_⟩ <;>
        cases h1 : places f .first <;> cases h2 : places f .fallback <;>
        simp [sealedRows_append, hx, hy, clearBuffer, h1, h2, hsucceeds] at htwo ⊢
    · exact ⟨_, x, rfl, rfl, rfl, rfl, hstands.keep rfl le_rfl, by
        simp [hx, hplaced _ hone, clearBuffer]⟩

theorem harmless_partMode (hm : w.partMode = true) (h : Stands ps w) :
    Harmless f w ↔ ¬ Twice f w ∧ (Placed f w → ∀ row ∈ w.buffer, row ∉ sealedRows ps) := by
  unfold Harmless Twice Placed
  rw [if_pos hm]
  simp only [h.mem_partRows]
  cases hs : w.files.parts with
  | none => simp
  | some dir => simp

theorem Sound.flush (h : Sound ps flushed w) (hb : w.buffer ≠ []) :
    Tracks (Harmless f w) (flushed ++ w.buffer) (after (flush f w)) := by
  obtain ⟨v, x, hflush, hvm, hvc, hvb, hstands, htwice, honce, hnone, hvd⟩ :=
    flush_partMode_cases f h.stands h.partMode hb
  have hrows : flushed ++ w.buffer = flushed ++ w.buffer ++ v.buffer := by simp [hvb]
  rw [hflush]
  by_cases hharmless : Harmless f w
  · obtain ⟨hnot, hfresh⟩ := (harmless_partMode h.partMode h.stands).1 hharmless
    refine .inl ⟨hharmless, .inr ⟨ps ++ x, flushed ++ w.buffer, hrows, hvm, hvc.trans h.closed,
      hstands, ?_, ?_⟩⟩
    · rw [sealedRows_append, after, hvb, append_nil]
      by_cases hplaced : Placed f w
      · rw [honce hplaced hnot]
        exact (sublist_of_disjoint h.sublist (hfresh hplaced)).append (List.Sublist.refl _)
      · rw [(hnone hplaced).1, append_nil]
        exact h.sublist
    · intro row hrow
      rw [sealedRows_append]
      rcases mem_append.1 hrow with hrow | hrow
      · refine (h.accounted row hrow).imp (mem_append_left _) fun hmem => ?_
        rcases hvd with hvd | hvd <;> rw [after, hvd]
        · exact hmem
        · exact mem_append_left _ hmem
      · by_cases hplaced : Placed f w
        · rw [honce hplaced hnot]
          exact .inl (mem_append_right _ hrow)
        · rw [after, (hnone hplaced).2]
          exact .inr (mem_append_right _ hrow)
  · refine .inr ⟨hharmless, ps ++ x, flushed ++ w.buffer, hrows, hvm, hvc.trans h.closed, hstands,
      .inl ?_⟩
    rw [sealedRows_append]
    by_cases hcase : Twice f w
    · obtain ⟨row, hrow⟩ := exists_mem_of_ne_nil _ hb
      rw [htwice hcase, ← append_assoc]
      exact not_nodup_append (mem_append_right _ hrow) hrow
    · rw [harmless_partMode h.partMode h.stands] at hharmless
      push Not at hharmless
      obtain ⟨hplaced, row, hrow, hmem⟩ := hharmless hcase
      rw [honce hplaced hcase]
      exact not_nodup_append hmem hrow

theorem Damaged.flush (h : Damaged rows w) (hnodup : rows.Nodup) :
    Damaged rows (after (flush f w)) := by
  by_cases hb : w.buffer = []
  · rw [show InstrumentWriter.flush f w = .ok w from if_pos hb]
    exact h
  obtain ⟨ps, flushed, hrows, hbroken⟩ := h
  obtain ⟨v, x, hflush, hvm, hvc, hvb, hstands, htwice, honce, hnone, hvd⟩ :=
    flush_partMode_cases f hbroken.stands hbroken.partMode hb
  rw [hflush]
  refine ⟨ps ++ x, rows, by simp [after, hvb], hvm, hvc.trans hbroken.closed, hstands, ?_⟩
  rcases hbroken.damage with hdup | ⟨row, hrow, hsealed, hdropped⟩
  · left
    rw [sealedRows_append]
    exact fun hcon => hdup (nodup_append.1 hcon).1
  · right
    rw [hrows] at hnodup
    have hbuffer : row ∉ w.buffer := fun hmem =>
      (nodup_append.1 hnodup).2.2 row hrow row hmem rfl
    refine ⟨row, hrows ▸ mem_append_left _ hrow, ?_, ?_⟩
    · rw [sealedRows_append]
      intro hmem
      rcases mem_append.1 hmem with hmem | hmem
      · exact hsealed hmem
      · by_cases hcase : Twice f w
        · rw [htwice hcase] at hmem
          exact hbuffer ((mem_append.1 hmem).elim id id)
        · by_cases hplaced : Placed f w
          · rw [honce hplaced hcase] at hmem
            exact hbuffer hmem
          · rw [(hnone hplaced).1] at hmem
            cases hmem
    · show row ∉ v.dropped
      rcases hvd with hvd | hvd <;> rw [hvd]
      · exact hdropped
      · exact fun hmem => (mem_append.1 hmem).elim hdropped hbuffer

theorem Good.flush (h : Good rows w) (hnodup : rows.Nodup) :
    Tracks (HarmlessFlush f w) rows (after (flush f w)) := by
  by_cases hb : w.buffer = []
  · rw [show InstrumentWriter.flush f w = .ok w from if_pos hb]
    exact .inl ⟨fun hne => absurd hb hne, h⟩
  unfold HarmlessFlush
  rw [imp_iff_right hb]
  rcases h with ⟨qs, h⟩ | ⟨ps, flushed, rfl, h⟩
  · unfold Harmless
    rw [h.partMode]
    cases hraise : primaryRaise f w with
    | none =>
      obtain ⟨v, qs', hflush, hv, -⟩ := h.flush
      rw [flush_of_primaryRaise_none h.partMode hraise, hflush]
      exact .inl ⟨trivial, .inl ⟨qs', hv⟩⟩
    | some site => exact h.fallback hnodup hb hraise
  · exact h.flush hb

theorem Good.push (h : Good rows w) (row : ρ) :
    Good (rows ++ [row]) { w with buffer := w.buffer ++ [row] } := by
  rcases h with ⟨qs, h⟩ | ⟨ps, flushed, rfl, h⟩
  · exact .inl ⟨qs, h.push row⟩
  · refine .inr ⟨ps, flushed, by simp, h.partMode, h.closed, h.stands.keep rfl le_rfl, ?_,
      h.accounted⟩
    rw [← append_assoc]
    exact h.sublist.trans (sublist_append_left _ _)

theorem Damaged.push (h : Damaged rows w) (row : ρ) :
    Damaged (rows ++ [row]) { w with buffer := w.buffer ++ [row] } := by
  obtain ⟨ps, flushed, rfl, h⟩ := h
  exact ⟨ps, flushed, by simp, h.partMode, h.closed, h.stands.keep rfl le_rfl, h.damage⟩

variable {ok : Prop}

theorem Tracks.flush (h : Tracks ok rows w) (hnodup : rows.Nodup) :
    Tracks (ok ∧ HarmlessFlush f w) rows (after (flush f w)) := by
  rcases h with ⟨hok, h⟩ | ⟨hok, h⟩
  · rw [and_iff_right hok]
    exact h.flush hnodup
  · exact .inr ⟨fun hcon => hok hcon.1, h.flush hnodup⟩

theorem Tracks.push (h : Tracks ok rows w) (row : ρ) :
    Tracks ok (rows ++ [row]) { w with buffer := w.buffer ++ [row] } :=
  h.imp (And.imp_right fun h => h.push row) (And.imp_right fun h => h.push row)

theorem Tracks.call {c : Call ρ} (h : Tracks ok rows w) (hnodup : (rows ++ added [c]).Nodup) :
    Tracks (ok ∧ HarmlessCall f w c) (rows ++ added [c]) (w.call f c) := by
  cases c with
  | flush =>
    rw [show rows ++ added [Call.flush] = rows from append_nil rows] at hnodup ⊢
    exact h.flush hnodup
  | add row =>
    show Tracks _ (rows ++ [row]) (after (InstrumentWriter.add f w row))
    unfold InstrumentWriter.add HarmlessCall
    dsimp only
    split_ifs with hfull
    · have hflush := (h.push row).flush (f := f) hnodup
      rw [HarmlessFlush, imp_iff_right (by simp)] at hflush
      rwa [imp_iff_right hfull]
    · rw [and_iff_left fun hcon => absurd hcon hfull]
      exact h.push row

end Accounting

section Runs

variable {f : Faults} {w v : InstrumentWriter ρ} {rows : List ρ}

theorem added_cons (c : Call ρ) (calls : List (Call ρ)) :
    added (c :: calls) = added [c] ++ added calls :=
  added_append [c] calls

variable {ok : Prop}

theorem Tracks.run (calls : List (Call ρ × Faults)) (h : Tracks ok rows w)
    (hnodup : (rows ++ added (calls.map Prod.fst)).Nodup) :
    Tracks (ok ∧ HarmlessCalls w calls) (rows ++ added (calls.map Prod.fst))
      (w.runCalls calls) := by
  induction calls generalizing ok rows w with
  | nil =>
    rw [show rows ++ added (([] : List (Call ρ × Faults)).map Prod.fst) = rows from
      append_nil rows, HarmlessCalls, and_true]
    exact h
  | cons c calls ih =>
    rw [map_cons, added_cons, ← append_assoc] at hnodup ⊢
    rw [HarmlessCalls, ← and_assoc]
    exact ih (h.call (nodup_append.1 hnodup).1) hnodup

theorem buffer_of_flush_ok (h : flush f w = .ok v) : v.buffer = [] := by
  unfold flush at h
  split_ifs at h with hb hm
  · obtain rfl := Except.ok.inj h
    exact hb
  all_goals
    dsimp only at h
    split at h
    · rw [← Except.ok.inj h]
      rfl
    · split_ifs at h
      all_goals
        obtain ⟨u, -, hu⟩ := Fallible.bind_eq_ok.1 h
        split at hu
        · rw [← Except.ok.inj hu]
          rfl
        · rw [← Except.ok.inj hu]
          rfl

theorem exists_flush_of_close {w' : InstrumentWriter ρ} (hc : w.closed = false)
    (h : close f w = .ok w') : ∃ v, flush f w = .ok v ∧ w' = v.finish := by
  cases hflush : flush f w with
  | ok v => exact ⟨v, rfl, (Except.ok.inj ((close_eq hc hflush).symm.trans h)).symm⟩
  | error v =>
    unfold close at h
    rw [hc, hflush] at h
    cases h

theorem finish_partMode (hm : w.partMode = true) :
    w.finish = { w with files := consolidateParts w.files, closed := true } := by
  unfold finish
  rw [if_pos hm]

theorem Stands.partRows_eq {ps : List (ℕ × File ρ)} (h : Stands ps w) (hidx : w.partIdx ≤ 9999) :
    partRows w.files.parts = sealedRows ps := by
  rw [← partRows_getD, h.dir]
  exact partRows_sealFiles h.lt fun p hp => (h.le p hp).trans hidx

theorem Tracks.closed (h : Tracks ok rows w) : w.closed = false := by
  rcases h with ⟨-, ⟨qs, h⟩ | ⟨ps, flushed, -, h⟩⟩ | ⟨-, ps, flushed, -, h⟩
  · exact Recording.closed h
  · exact Sound.closed h
  · exact Broken.closed h

theorem Stands.finish {ps : List (ℕ × File ρ)} (h : Stands ps w) (hm : w.partMode = true)
    (hidx : w.finish.partIdx ≤ 9999) : w.finish.files.final = some (.table (sealedRows ps))
      ∧ w.finish.dropped = w.dropped := by
  rw [finish_partMode hm] at hidx ⊢
  refine ⟨?_, rfl⟩
  rw [consolidateParts_final, h.partRows_eq hidx]

theorem Tracks.accounts_iff (h : Tracks ok rows w) (hb : w.buffer = [])
    (hidx : w.finish.partIdx ≤ 9999) (hnodup : rows.Nodup) : Accounts rows w.finish ↔ ok := by
  rcases h with ⟨hok, ⟨qs, h⟩ | ⟨ps, flushed, hrows, h⟩⟩ | ⟨hok, ps, flushed, hrows, h⟩
  · obtain ⟨ps, hleaves⟩ := h.finish hb
    exact iff_of_true ⟨rows, hleaves.orderKept.1 hidx, List.Sublist.refl _, fun row hrow hnot =>
      absurd hrow hnot⟩ hok
  · obtain ⟨hfinal, hdropped⟩ := h.stands.finish h.partMode hidx
    rw [hb, append_nil] at hrows
    refine iff_of_true ⟨sealedRows ps, hfinal, ?_, fun row hrow hnot => ?_⟩ hok
    · have hsub := h.sublist
      rwa [hb, append_nil, ← hrows] at hsub
    · rw [hdropped]
      exact (h.accounted row (hrows ▸ hrow)).resolve_left hnot
  · obtain ⟨hfinal, hdropped⟩ := h.stands.finish h.partMode hidx
    rw [hb, append_nil] at hrows
    refine iff_of_false ?_ hok
    rintro ⟨kept, hfinal', hsub, hmissing⟩
    rw [hfinal, Option.some.injEq, File.table.injEq] at hfinal'
    rw [← hfinal'] at hsub hmissing
    rcases h.damage with hdup | ⟨row, hrow, hsealed, hgone⟩
    · exact hdup (hsub.nodup hnodup)
    · exact hgone (hdropped ▸ hmissing row (hrows ▸ hrow) hsealed)

/-- The daily file accounts for every added row if and only if every flush was harmless. -/
theorem faulty_run_accounts_iff (maxBuffer rotateAfterRowgroups : ℤ)
    (calls : List (Call ρ × Faults)) (f : Faults) (w : InstrumentWriter ρ)
    (hclose : close f ((init maxBuffer rotateAfterRowgroups noFiles).runCalls calls) = .ok w)
    (hidx : w.partIdx ≤ 9999) (hrows : (added (calls.map Prod.fst)).Nodup) :
    Accounts (added (calls.map Prod.fst)) w ↔
      HarmlessCalls (init maxBuffer rotateAfterRowgroups noFiles) calls ∧
        HarmlessFlush f ((init maxBuffer rotateAfterRowgroups noFiles).runCalls calls) := by
  have hinit : Tracks True [] (init maxBuffer rotateAfterRowgroups (noFiles : Files ρ)) :=
    .inl ⟨trivial, .inl ⟨[], recording_init maxBuffer rotateAfterRowgroups noFiles⟩⟩
  have hrun := hinit.run calls hrows
  obtain ⟨v, hflush, rfl⟩ := exists_flush_of_close hrun.closed hclose
  have hlast := hrun.flush (f := f) hrows
  rw [hflush, true_and] at hlast
  exact hlast.accounts_iff (buffer_of_flush_ok hflush) hidx hrows

/-- A flush whose parquet write fails: the buffer goes to a part. -/
def writeFails : Faults := ⟨fun site => site = .writeTable, false⟩

theorem faulty_run_accounts_write_error :
    Accounts [1] (after (close noFaults ((init 20000 0 noFiles).runCalls
        [(.add 1, noFaults), (.flush, writeFails)]))) ↔
      HarmlessCalls (init 20000 0 noFiles) [(.add 1, noFaults), (.flush, writeFails)] ∧
        HarmlessFlush noFaults ((init 20000 0 noFiles).runCalls
          [(.add 1, noFaults), (.flush, writeFails)]) :=
  faulty_run_accounts_iff 20000 0 [(.add 1, noFaults), (.flush, writeFails)] noFaults _
    rfl (by decide +kernel) (by decide)

/-- A flush whose `fsync` fails after the row group is written. -/
def syncFails : Faults := ⟨fun site => site = .syncTmp, false⟩

/-- A flush whose rotation fails to rename the closed file. -/
def renameFails : Faults := ⟨fun site => site = .rotateReplace, false⟩

/-- One row, and a flush whose `fsync` fails. -/
def doubled : InstrumentWriter ℕ :=
  after (close noFaults ((init 20000 0 noFiles).runCalls [(.add 1, noFaults), (.flush, syncFails)]))

/-- Two row groups, the second with a rotation that fails to rename the file. -/
def forgotten : InstrumentWriter ℕ :=
  after (close noFaults ((init 20000 2 noFiles).runCalls
    [(.add 1, noFaults), (.flush, noFaults), (.add 2, noFaults), (.flush, renameFails)]))

/-- After the failed `fsync` the row stands twice; after the failed rename the first is gone
unlogged. -/
theorem failed_flush_doubles_and_loses : ¬ Accounts [1] doubled ∧ ¬ Accounts [1, 2] forgotten := by
  have hdoubled : doubled.files.final = some (.table [1, 1]) := by decide +kernel
  have hforgotten : forgotten.files.final = some (.table [2]) ∧ forgotten.dropped = [] := by
    decide +kernel
  constructor
  · rintro ⟨kept, hfinal, hsub, -⟩
    rw [hdoubled, Option.some.injEq, File.table.injEq] at hfinal
    rw [← hfinal] at hsub
    exact absurd hsub.length_le (by decide)
  · rintro ⟨kept, hfinal, -, hmissing⟩
    rw [hforgotten.1, Option.some.injEq, File.table.injEq] at hfinal
    rw [← hfinal] at hmissing
    exact absurd (hmissing 1 (by decide) (by decide)) not_mem_nil

end Runs

end TradingBridge.Orderflow.Recorder.InstrumentWriter
