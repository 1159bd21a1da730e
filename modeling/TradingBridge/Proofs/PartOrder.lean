import TradingBridge.Proofs.PartJournal

/-!
# Sessions without I/O errors

What a session of each writer leaves: the parts it sealed, numbered from one, hold the added rows
in order. The daily file keeps that order as long as the numbers have four digits, and with
10 000 parts it no longer does.
-/

namespace TradingBridge.Orderflow.Recorder

open List

variable {ρ : Type}

section Numbering

/-- The sealed tables carry the numbers `1 … n`, and none is empty. -/
structure Numbered (ps : List (ℕ × List ρ)) (n : ℕ) : Prop where
  numbers : ps.map Prod.fst = List.range' 1 n
  nonempty : ∀ p ∈ ps, p.2 ≠ []

namespace Numbered

variable {ps : List (ℕ × List ρ)} {n : ℕ}

theorem nil : Numbered ([] : List (ℕ × List ρ)) 0 :=
  ⟨rfl, fun _ h => absurd h not_mem_nil⟩

theorem length_eq (h : Numbered ps n) : ps.length = n := by
  rw [← length_map Prod.fst, h.numbers, length_range']

theorem snoc (h : Numbered ps n) {table : List ρ} (ht : table ≠ []) :
    Numbered (ps ++ [(n + 1, table)]) (n + 1) where
  numbers := by
    rw [map_append, h.numbers, range'_concat, Nat.one_mul, Nat.add_comm 1 n]
    rfl
  nonempty := by
    intro p hp
    rcases mem_append.1 hp with hp | hp
    · exact h.nonempty p hp
    · rw [mem_singleton.1 hp]
      exact ht

theorem lt (h : Numbered ps n) : ps.Pairwise fun p q => p.1 < q.1 := by
  have := pairwise_lt_range' (s := 1) (n := n)
  rw [← h.numbers, pairwise_map] at this
  exact this

theorem le (h : Numbered ps n) {p : ℕ × List ρ} (hp : p ∈ ps) : p.1 ≤ n := by
  have hmem : p.1 ∈ ps.map Prod.fst := mem_map_of_mem hp
  rw [h.numbers, mem_range'_1] at hmem
  omega

theorem exists_mem (h : Numbered ps n) {i : ℕ} (hi : 1 ≤ i) (hin : i ≤ n) :
    ∃ table, (i, table) ∈ ps := by
  have hmem : i ∈ ps.map Prod.fst := by
    rw [h.numbers, mem_range'_1]
    omega
  obtain ⟨⟨j, table⟩, hp, rfl⟩ := mem_map.1 hmem
  exact ⟨table, hp⟩

end Numbered

theorem not_sublist_swap {l : List ρ} (hl : l.Nodup) {a b : ρ} (h : [a, b].Sublist l) :
    ¬ [b, a].Sublist l := by
  induction l with
  | nil => cases h
  | cons x xs ih =>
    obtain ⟨hx, hxs⟩ := nodup_cons.1 hl
    intro h'
    rcases cons_sublist_cons'.1 h with hab | ⟨rfl, hb⟩
    · rcases cons_sublist_cons'.1 h' with hba | ⟨rfl, -⟩
      · exact ih hxs hab hba
      · exact hx (hab.subset (mem_cons_of_mem _ mem_cons_self))
    · rcases cons_sublist_cons'.1 h' with hba | ⟨rfl, -⟩
      · exact hx (hba.subset (mem_cons_of_mem _ mem_cons_self))
      · exact hx (hb.subset mem_cons_self)

/-- The parts after a session sealed `ps` on top of those it found. -/
def sealed (parts : Option (Directory Name (File ρ))) (ps : List (ℕ × List ρ)) :
    Option (Directory Name (File ρ)) :=
  if ps = [] then parts else some (sealParts (parts.getD .empty) ps)

theorem sealed_snoc (parts : Option (Directory Name (File ρ))) (ps : List (ℕ × List ρ))
    (p : ℕ × List ρ) :
    sealed parts (ps ++ [p])
      = some (((sealed parts ps).getD .empty).put (partName p.1) (.table p.2)) := by
  unfold sealed
  rw [if_neg (by simp), sealParts_append_singleton]
  split_ifs with h
  · rw [h]
    rfl
  · rfl

variable {ps : List (ℕ × List ρ)} {n : ℕ}

theorem partRows_sealed (h : Numbered ps n) (hn : n ≤ 9999) :
    partRows (sealed none ps) = ps.flatMap Prod.snd := by
  unfold sealed
  split_ifs with hps
  · rw [hps]
    rfl
  · exact partRows_sealParts h.lt fun p hp => (h.le hp).trans hn

/-- Consolidation scrambles distinct rows once a number has five digits. -/
theorem le_of_partRows_sealed {parts : Option (Directory Name (File ρ))} (h : Numbered ps n)
    (hnodup : (ps.flatMap Prod.snd).Nodup)
    (heq : partRows (sealed parts ps) = ps.flatMap Prod.snd) : n ≤ 9999 := by
  by_contra hn
  obtain ⟨t, ht⟩ := h.exists_mem (i := 9999) (by omega) (by omega)
  obtain ⟨t', ht'⟩ := h.exists_mem (i := 10000) (by omega) (by omega)
  obtain ⟨a, ha⟩ := exists_mem_of_ne_nil _ (h.nonempty _ ht)
  obtain ⟨b, hb⟩ := exists_mem_of_ne_nil _ (h.nonempty _ ht')
  have hab : [a, b].Sublist (ps.flatMap Prod.snd) := by
    have hpair := Directory.pair_sublist_of_pairwise h.lt ht ht' (show 9999 < 10000 by omega)
    refine List.Sublist.trans ?_ (hpair.flatMap Prod.snd)
    exact (singleton_sublist.2 ha).append
      ((singleton_sublist.2 hb).trans (sublist_append_left _ _))
  have hba : [b, a].Sublist (partRows (sealed parts ps)) := by
    have hne : ps ≠ [] := ne_nil_of_mem ht
    unfold sealed
    rw [if_neg hne]
    have hpair := Directory.pair_sublist
      (d := (sealParts (parts.getD .empty) ps).restrict fun e => isPartName e.1)
      (Directory.mem_restrict.2 ⟨mem_sealParts h.lt ht', isPartName_partName _⟩)
      (Directory.mem_restrict.2 ⟨mem_sealParts h.lt ht, isPartName_partName _⟩)
      partName_10000_lt
    refine List.Sublist.trans ?_ ((hpair.map Prod.snd).flatMap File.rows)
    exact (singleton_sublist.2 hb).append
      ((singleton_sublist.2 ha).trans (sublist_append_left _ _))
  rw [heq] at hba
  exact not_sublist_swap hnodup hab hba

end Numbering

section InstrumentSession

namespace InstrumentWriter

variable {w : InstrumentWriter ρ}

def pending (w : InstrumentWriter ρ) : List ρ := (w.writer.map ParquetWriter.rows).getD []

/-- A writer that has met no error, `rows` added on the files `start`, `ps` sealed. -/
structure Recording (start : Files ρ) (ps : List (ℕ × List ρ)) (rows : List ρ)
    (w : InstrumentWriter ρ) : Prop where
  closed : w.closed = false
  partMode : w.partMode = false
  dropped : w.dropped = []
  final : w.files.final = start.final
  parts : w.files.parts = sealed start.parts ps
  numbered : Numbered ps w.partIdx
  rotated : w.rotated = true ↔ ps ≠ []
  writer : ∀ p, w.writer = some p → p.rows ≠ [] ∧ p.torn = false ∧ p.handle = true
  rows_eq : ps.flatMap Prod.snd ++ w.pending ++ w.buffer = rows

/-- The open writer after a row group is written to it. -/
def appended (table : List ρ) (w : InstrumentWriter ρ) : ParquetWriter ρ :=
  match w.writer with
  | none => ⟨table, true, false⟩
  | some p => { p with rows := p.rows ++ table }

theorem rotatePrimary_noFaults (w : InstrumentWriter ρ) (p : ParquetWriter ρ) :
    rotatePrimary noFaults w p = .ok
      { w with
        files := ⟨w.files.final, none,
          some ((w.files.parts.getD .empty).put (partName (w.partIdx + 1)) (.table p.rows))⟩
        writer := none
        rowgroups := 0
        partIdx := w.partIdx + 1
        rotated := true } := rfl

variable {start : Files ρ} {rows : List ρ} (table : List ρ)

theorem Recording.rotate {p : ParquetWriter ρ}
    (hw : w.writer = some p) (hb : w.buffer = []) (h : Recording start ps rows w) :
    ∃ ps', Recording start ps' rows (after (rotatePrimary noFaults w p))
      ∧ (after (rotatePrimary noFaults w p)).pending = []
      ∧ (after (rotatePrimary noFaults w p)).buffer = [] ∧ ps' ≠ [] := by
  rw [rotatePrimary_noFaults]
  refine ⟨ps ++ [(w.partIdx + 1, p.rows)], ⟨h.closed, h.partMode, h.dropped, h.final, ?_,
    h.numbered.snoc (h.writer p hw).1, ?_, ?_, ?_⟩, rfl, hb, by simp⟩
  · rw [sealed_snoc, ← h.parts]
    rfl
  · exact ⟨fun _ => by simp, fun _ => rfl⟩
  · intro q hq
    cases hq
  · rw [← h.rows_eq]
    simp [after, pending, hw]

/-- The writer after the row group of `table` is written to the primary file. -/
def wrote (w : InstrumentWriter ρ) : InstrumentWriter ρ :=
  { w with
    files := { w.files with tmp := if w.writer.isNone then some .broken else w.files.tmp }
    writer := some (appended table w)
    rowgroups := (if w.writer.isNone then 0 else w.rowgroups) + 1 }

def rotates (w : InstrumentWriter ρ) : Prop :=
  w.rotateAfterRowgroups ≠ 0 ∧ w.rotateAfterRowgroups ≤ w.rowgroups

instance (w : InstrumentWriter ρ) : Decidable w.rotates := inferInstanceAs (Decidable (_ ∧ _))

theorem flushPrimary_noFaults (w : InstrumentWriter ρ) :
    flushPrimary noFaults table w = if (w.wrote table).rotates then
      rotatePrimary noFaults (w.wrote table) (appended table w) else .ok (w.wrote table) := by
  obtain ⟨_, _, _, _, writer, _, _, _, _, _, _, _⟩ := w
  cases writer <;> rfl

theorem flush_noFaults (hm : w.partMode = false) (hb : w.buffer ≠ []) : flush noFaults w = .ok
      (if (w.wrote w.buffer).clearBuffer.rotates then
        after (rotatePrimary noFaults (w.wrote w.buffer).clearBuffer (appended w.buffer w))
      else (w.wrote w.buffer).clearBuffer) := by
  unfold flush
  dsimp only
  rw [if_neg hb, hm, if_neg (by decide), flushPrimary_noFaults]
  by_cases h : (w.wrote w.buffer).rotates
  · have h' : (w.wrote w.buffer).clearBuffer.rotates := h
    rw [if_pos h, if_pos h']
    rfl
  · have h' : ¬ (w.wrote w.buffer).clearBuffer.rotates := h
    rw [if_neg h, if_neg h']

theorem pending_appended (w : InstrumentWriter ρ) :
    (appended table w).rows = w.pending ++ table := by
  unfold appended pending
  cases w.writer <;> rfl

theorem Recording.flush (h : Recording start ps rows w) :
    ∃ w' ps', flush noFaults w = .ok w' ∧ Recording start ps' rows w' ∧ w'.buffer = [] := by
  by_cases hb : w.buffer = []
  · exact ⟨w, ps, if_pos hb, h, hb⟩
  · have hwrote : Recording start ps rows (w.wrote w.buffer).clearBuffer := by
      refine ⟨h.closed, h.partMode, h.dropped, h.final, h.parts, h.numbered, h.rotated, ?_, ?_⟩
      · intro p hp
        obtain rfl : appended w.buffer w = p := Option.some.inj hp
        refine ⟨?_, ?_⟩
        · rw [pending_appended]
          exact append_ne_nil_of_right_ne_nil _ hb
        · unfold appended
          split
          · exact ⟨rfl, rfl⟩
          · rename_i q hq
            exact (h.writer q hq).2
      · rw [← h.rows_eq]
        show ps.flatMap Prod.snd ++ (appended w.buffer w).rows ++ [] = _
        rw [pending_appended, append_nil, append_assoc]
    rw [flush_noFaults h.partMode hb]
    split_ifs
    · obtain ⟨ps', hps', -, hbuf, -⟩ := hwrote.rotate rfl rfl
      exact ⟨_, ps', rfl, hps', hbuf⟩
    · exact ⟨_, ps, rfl, hwrote, rfl⟩

theorem Recording.push (h : Recording start ps rows w)
    (row : ρ) : Recording start ps (rows ++ [row]) { w with buffer := w.buffer ++ [row] } :=
  ⟨h.closed, h.partMode, h.dropped, h.final, h.parts, h.numbered, h.rotated, h.writer, by
    rw [← h.rows_eq]
    simp [pending]⟩

theorem Recording.call {start : Files ρ} {rows : List ρ} (h : Recording start ps rows w)
    (c : Call ρ) : ∃ ps', Recording start ps' (rows ++ added [c]) (w.call noFaults c) := by
  cases c with
  | flush =>
    obtain ⟨w', ps', hflush, hps', -⟩ := h.flush
    exact ⟨ps', by simpa [added, InstrumentWriter.call, hflush, after] using hps'⟩
  | add row =>
    have hadd := h.push row
    show ∃ ps', Recording start ps' (rows ++ [row]) (after (add noFaults w row))
    unfold add
    dsimp only
    split_ifs
    · obtain ⟨w', ps', hflush, hps', -⟩ := hadd.flush
      rw [hflush]
      exact ⟨ps', hps'⟩
    · exact ⟨ps, hadd⟩

theorem added_append (calls calls' : List (Call ρ)) :
    added (calls ++ calls') = added calls ++ added calls' := by
  induction calls with
  | nil => rfl
  | cons c calls ih => cases c <;> simp [added, ih]

theorem recording_init (maxBuffer rotateAfterRowgroups : ℤ) (start : Files ρ) :
    Recording start [] [] (init maxBuffer rotateAfterRowgroups start) :=
  ⟨rfl, rfl, rfl, rfl, rfl, .nil, by simp [init], fun _ h => absurd h (by simp [init]), rfl⟩

theorem recording_calls (maxBuffer rotateAfterRowgroups : ℤ) (start : Files ρ)
    (calls : List (Call ρ)) :
    ∃ ps, Recording start ps (added calls) (calls.foldl (InstrumentWriter.call noFaults)
      (init maxBuffer rotateAfterRowgroups start)) := by
  induction calls using reverseRecOn with
  | nil => exact ⟨[], recording_init maxBuffer rotateAfterRowgroups start⟩
  | append_singleton calls c ih =>
    obtain ⟨ps, hps⟩ := ih
    rw [foldl_append, added_append]
    exact hps.call c

/-- The daily file after a session without rows. -/
def keptFinal : Option (File ρ) → Option (File ρ)
  | some (.table (row :: rows)) => some (.table (row :: rows))
  | _ => some (.table [])

/-- The parts are merged with those found; without any, the rows are the daily file; without rows a
file that has some is kept. -/
structure Leaves (start : Files ρ) (rows : List ρ) (n : ℕ) (files : Files ρ)
    (ps : List (ℕ × List ρ)) : Prop where
  numbered : Numbered ps n
  parts : files.parts = sealed start.parts ps
  rotated : ps ≠ [] → ps.flatMap Prod.snd = rows
    ∧ files.final = some (.table (partRows (sealed start.parts ps)))
  primary : ps = [] → rows ≠ [] → files.final = some (.table rows)
  empty : ps = [] → rows = [] → files.final = keptFinal start.final

theorem Recording.finalize (hb : w.buffer = []) (h : Recording start [] rows w) :
    Leaves start rows w.partIdx (finalizePrimary w).files [] := by
  have hrows : w.pending = rows := by simpa [hb] using h.rows_eq
  unfold finalizePrimary
  split
  · rename_i hw
    have hempty : rows = [] := by rw [← hrows, pending, hw]; rfl
    split
    · rename_i row rest hfinal
      refine ⟨h.numbered, h.parts, by simp, fun _ hne => absurd hempty hne, fun _ _ => ?_⟩
      rw [← h.final, hfinal]
      rfl
    · rename_i hfinal
      refine ⟨h.numbered, h.parts, by simp, fun _ hne => absurd hempty hne, fun _ _ => ?_⟩
      rw [← h.final]
      unfold keptFinal
      split
      · rename_i row rest hrest
        exact absurd hrest (hfinal row rest)
      · rfl
  · rename_i p hw
    have hp : p.rows = rows := by rw [← hrows, pending, hw]; rfl
    refine ⟨h.numbered, h.parts, by simp, fun _ _ => ?_, fun _ hempty => ?_⟩
    · rw [(h.writer p hw).2.1, hp]
      rfl
    · exact absurd (hp.trans hempty) (h.writer p hw).1

theorem Recording.consolidate (hb : w.buffer = [])
    (hw : w.pending = []) (hps : ps ≠ []) (h : Recording start ps rows w) :
    Leaves start rows w.partIdx (consolidateParts w.files) ps := by
  refine ⟨h.numbered, ?_, fun _ => ⟨?_, ?_⟩, fun he => absurd he hps, fun he => absurd he hps⟩
  · rw [consolidateParts_parts, h.parts]
  · simpa [hb, hw] using h.rows_eq
  · rw [consolidateParts_final, h.parts]

def finish (w : InstrumentWriter ρ) : InstrumentWriter ρ :=
  if w.partMode then { w with files := consolidateParts w.files, closed := true }
  else if w.rotated then
    match w.writer with
    | none => { w with files := consolidateParts w.files, closed := true }
    | some p =>
      let w := after (rotatePrimary noFaults w p)
      { w with files := consolidateParts w.files, closed := true }
  else { finalizePrimary w with closed := true }

theorem close_eq {f : Faults} {v : InstrumentWriter ρ} (hc : w.closed = false)
    (hflush : flush f w = .ok v) : close f w = .ok (finish v) := by
  unfold close finish
  rw [hc, if_neg (by decide), hflush, Fallible.ok_bind]
  obtain ⟨_, _, _, _, writer, _, _, _, _, _, _, _⟩ := v
  cases writer <;> split_ifs <;> rfl

theorem partIdx_finalizePrimary (w : InstrumentWriter ρ) :
    (finalizePrimary w).partIdx = w.partIdx := by
  unfold finalizePrimary
  split
  · split <;> rfl
  · rfl

theorem Recording.finish (hb : w.buffer = []) (h : Recording start ps rows w) :
    ∃ ps', Leaves start rows w.finish.partIdx w.finish.files ps' := by
  unfold InstrumentWriter.finish
  rw [h.partMode, if_neg (by decide)]
  split_ifs with hrotated
  · cases hw : w.writer with
    | none => exact ⟨ps, h.consolidate hb (by simp [pending, hw]) (h.rotated.1 hrotated)⟩
    | some p =>
      obtain ⟨ps', hps', hpending, hbuffer, hne⟩ := h.rotate hw hb
      exact ⟨ps', hps'.consolidate hbuffer hpending hne⟩
  · obtain rfl : ps = [] := by
      by_contra hne
      exact hrotated (h.rotated.2 hne)
    refine ⟨[], ?_⟩
    rw [partIdx_finalizePrimary]
    exact h.finalize hb

theorem session_leaves (maxBuffer rotateAfterRowgroups : ℤ) (calls : List (Call ρ))
    (start : Files ρ) :
    ∃ ps, Leaves start (added calls) (session maxBuffer rotateAfterRowgroups calls start).partIdx
      (session maxBuffer rotateAfterRowgroups calls start).files ps := by
  obtain ⟨ps, hps⟩ := recording_calls maxBuffer rotateAfterRowgroups start calls
  obtain ⟨w, ps', hflush, h, hb⟩ := hps.flush
  unfold session
  rw [close_eq hps.closed hflush]
  exact h.finish hb

end InstrumentWriter

end InstrumentSession

section JournalSessions

structure Journaled (start : Files ρ) (ps : List (ℕ × List ρ)) (n : ℕ) (rows buffer : List ρ)
    (files : Files ρ) : Prop where
  numbered : Numbered ps n
  parts : files.parts = sealed start.parts ps
  rows_eq : ps.flatMap Prod.snd ++ buffer = rows

variable {start files : Files ρ} {rows buffer : List ρ}

theorem Journaled.nil : Journaled start [] 0 [] [] start := ⟨.nil, rfl, rfl⟩

theorem Journaled.add (h : Journaled start ps n rows buffer files) (row : ρ) :
    Journaled start ps n (rows ++ [row]) (buffer ++ [row]) files :=
  ⟨h.numbered, h.parts, by rw [← h.rows_eq, append_assoc]⟩

theorem Journaled.seal (h : Journaled start ps n rows buffer files) (hb : buffer ≠ []) :
    Journaled start (ps ++ [(n + 1, buffer)]) (n + 1) rows []
      { files with
        parts := some ((files.parts.getD .empty).put (partName (n + 1)) (.table buffer)) } where
  numbered := h.numbered.snoc hb
  parts := by rw [sealed_snoc, ← h.parts]
  rows_eq := by simp [← h.rows_eq]

theorem Journaled.consolidate (h : Journaled start ps n rows [] files) : ps.flatMap Prod.snd = rows
      ∧ (consolidateParts files).final = some (.table (partRows (sealed start.parts ps))) := by
  refine ⟨by simpa using h.rows_eq, ?_⟩
  rw [consolidateParts_final, h.parts]

namespace DepthWriter

theorem journaled_flush {w : DepthWriter ρ}
    (h : Journaled start ps w.partIdx rows w.buffer w.files) :
    ∃ ps', Journaled start ps' (flush noFaults w).partIdx rows [] (flush noFaults w).files
      ∧ (flush noFaults w).buffer = [] ∧ (flush noFaults w).closed = w.closed := by
  unfold flush
  split_ifs with hb
  · exact ⟨ps, hb ▸ h, hb, rfl⟩
  · exact ⟨_, h.seal hb, rfl, rfl⟩

theorem journaled_call {w : DepthWriter ρ}
    (h : Journaled start ps w.partIdx rows w.buffer w.files) (c : Call ρ) :
    ∃ ps', Journaled start ps' (call noFaults w c).partIdx (rows ++ added [c])
        (call noFaults w c).buffer (call noFaults w c).files
      ∧ (call noFaults w c).closed = w.closed := by
  cases c with
  | flush =>
    obtain ⟨ps', hps', hb, hclosed⟩ := journaled_flush h
    refine ⟨ps', ?_, hclosed⟩
    simpa [call, hb, added] using hps'
  | add row =>
    have hadd := h.add row
    unfold call add
    dsimp only
    split_ifs
    · obtain ⟨ps', hps', hb, hclosed⟩ :=
        journaled_flush (w := { w with buffer := w.buffer ++ [row] }) hadd
      refine ⟨ps', ?_, hclosed⟩
      rw [hb]
      exact hps'
    · exact ⟨ps, hadd, rfl⟩

theorem session_leaves (maxBuffer : ℤ) (calls : List (Call ρ)) (start : Files ρ) :
    ∃ ps, Numbered ps (session maxBuffer calls start).partIdx
      ∧ ps.flatMap Prod.snd = added calls
      ∧ (session maxBuffer calls start).files.final
          = some (.table (partRows (sealed start.parts ps))) := by
  unfold session
  have hcalls : ∃ w ps, calls.foldl (call noFaults) (init maxBuffer start) = w
      ∧ Journaled start ps w.partIdx (added calls) w.buffer w.files ∧ w.closed = false := by
    induction calls using reverseRecOn with
    | nil => exact ⟨_, [], rfl, .nil, rfl⟩
    | append_singleton calls c ih =>
      obtain ⟨w, ps, hw, hps, hc⟩ := ih
      obtain ⟨ps', hps', hc'⟩ := journaled_call hps c
      rw [foldl_append, hw, InstrumentWriter.added_append]
      exact ⟨_, ps', rfl, hps', hc'.trans hc⟩
  obtain ⟨w, ps, hw, hps, hc⟩ := hcalls
  obtain ⟨ps', hps', -, -⟩ := journaled_flush hps
  rw [hw, close, hc]
  exact ⟨ps', hps'.numbered, hps'.consolidate⟩

end DepthWriter

namespace EventWriter

/-- Every event is sealed as a part of its own. -/
theorem journaled_calls (calls : List (Call ρ)) (start : Files ρ) :
    ∃ ps files, calls.foldl (call DepthWriter.noFaults) (init start)
        = ⟨files, [], (added calls).length, false⟩
      ∧ Journaled start ps (added calls).length (added calls) [] files := by
  induction calls using reverseRecOn with
  | nil => exact ⟨[], start, rfl, .nil⟩
  | append_singleton calls c ih =>
    obtain ⟨ps, files, hw, hps⟩ := ih
    rw [foldl_append, hw, InstrumentWriter.added_append, length_append]
    cases c with
    | flush => exact ⟨ps, files, rfl, by simpa [added] using hps⟩
    | add row => exact ⟨_, _, rfl, (hps.add row).seal (cons_ne_nil _ _)⟩

theorem session_leaves (calls : List (Call ρ)) (start : Files ρ) :
    (session calls start).idx = (added calls).length ∧ ∃ ps, Numbered ps (added calls).length
      ∧ (session calls start).files.parts = sealed start.parts ps
      ∧ ps.flatMap Prod.snd = added calls
      ∧ (session calls start).files.final = some (.table (partRows (sealed start.parts ps))) := by
  obtain ⟨ps, files, hw, hps⟩ := journaled_calls calls start
  unfold session
  rw [hw]
  exact ⟨rfl, ps, hps.numbered, (consolidateParts_parts _).trans hps.parts, hps.consolidate⟩

end EventWriter

end JournalSessions

section Order

/-- In the order added while at most 9999 parts are sealed; distinct rows only then. -/
def OrderKeptTo9999 (final : Option (File ρ)) (rows : List ρ) (n : ℕ) : Prop :=
  (n ≤ 9999 → final = some (.table rows)) ∧
    (rows.Nodup → (final = some (.table rows) ↔ n ≤ 9999))

variable {rows : List ρ}

theorem orderKept_of_sealed {final : Option (File ρ)} (h : Numbered ps n)
    (hrows : ps.flatMap Prod.snd = rows)
    (hfinal : final = some (.table (partRows (sealed none ps)))) :
    OrderKeptTo9999 final rows n := by
  have hle : n ≤ 9999 → final = some (.table rows) := by
    intro hn
    rw [hfinal, partRows_sealed h hn, hrows]
  refine ⟨hle, fun hnodup => ⟨fun heq => ?_, hle⟩⟩
  rw [hfinal, Option.some.injEq, File.table.injEq, ← hrows] at heq
  exact le_of_partRows_sealed h (hrows ▸ hnodup) heq

theorem InstrumentWriter.Leaves.orderKept {files : Files ρ}
    (h : Leaves noFiles rows n files ps) : OrderKeptTo9999 files.final rows n := by
  by_cases hne : ps = []
  · have hfinal : files.final = some (.table rows) := by
      by_cases hrows : rows = []
      · rw [h.empty hne hrows, hrows]
        rfl
      · exact h.primary hne hrows
    rw [← h.numbered.length_eq, hne, length_nil]
    exact ⟨fun _ => hfinal, fun _ => ⟨fun _ => by omega, fun _ => hfinal⟩⟩
  · obtain ⟨hrows, hfinal⟩ := h.rotated hne
    exact orderKept_of_sealed h.numbered hrows hfinal

theorem EventWriter.orderKept (calls : List (Call ρ)) :
    OrderKeptTo9999 (session calls noFiles).files.final (added calls)
      (session calls noFiles).idx := by
  obtain ⟨hidx, ps, hnumbered, -, hrows, hfinal⟩ := session_leaves calls noFiles
  rw [hidx]
  exact orderKept_of_sealed hnumbered hrows hfinal

/-- A daily file is in the order of recording up to 9999 parts, and out of order beyond. -/
theorem daily_file_order (maxBuffer rotateAfterRowgroups : ℤ) (calls : List (Call ρ)) :
    OrderKeptTo9999
        (InstrumentWriter.session maxBuffer rotateAfterRowgroups calls noFiles).files.final
        (added calls)
        (InstrumentWriter.session maxBuffer rotateAfterRowgroups calls noFiles).partIdx
      ∧ OrderKeptTo9999 (DepthWriter.session maxBuffer calls noFiles).files.final (added calls)
        (DepthWriter.session maxBuffer calls noFiles).partIdx
      ∧ OrderKeptTo9999 (EventWriter.session calls noFiles).files.final (added calls)
        (EventWriter.session calls noFiles).idx := by
  refine ⟨?_, ?_, EventWriter.orderKept calls⟩
  · obtain ⟨ps, h⟩ :=
      InstrumentWriter.session_leaves maxBuffer rotateAfterRowgroups calls noFiles
    exact h.orderKept
  · obtain ⟨ps, hnumbered, hrows, hfinal⟩ := DepthWriter.session_leaves maxBuffer calls noFiles
    exact orderKept_of_sealed hnumbered hrows hfinal

theorem added_map_add (rows : List ρ) : added (rows.map .add) = rows := by
  induction rows with
  | nil => rfl
  | cons row rows ih => exact congrArg (row :: ·) ih

/-- A session of 10 000 events, the event numbered `i` added as the `i`-th. -/
theorem ten_thousand_events_out_of_order :
    (EventWriter.session ((List.range 10000).map .add) noFiles).files.final
      ≠ some (.table (List.range 10000)) := by
  intro hfinal
  have h := (EventWriter.orderKept ((List.range 10000).map .add)).2
  rw [(EventWriter.session_leaves _ _).1, added_map_add] at h
  have hle := (h nodup_range).1 hfinal
  rw [length_range] at hle
  omega

end Order

end TradingBridge.Orderflow.Recorder
