import TradingBridge.Proofs.PartOrder

/-!
# Several sessions on one day directory

Each session numbers its parts from one again and writes its daily file over the one it finds, so
of two sessions that both record rows some rows are gone. With at most one such session nothing
is lost.
-/

namespace TradingBridge.Orderflow.Recorder

open List

variable {ρ : Type}

def partWeight (e : Name × File ρ) : ℕ := if isPartName e.1 then e.2.rows.length else 0

theorem length_partRows (dir : Directory Name (File ρ)) :
    (partRows (some dir)).length = dir.total partWeight := by
  show (((dir.entries.filter fun e => isPartName e.1).map Prod.snd).flatMap File.rows).length
    = (dir.entries.map partWeight).sum
  induction dir.entries with
  | nil => rfl
  | cons e es ih =>
    by_cases h : isPartName e.1
    · rw [filter_cons, if_pos h, map_cons, flatMap_cons, length_append, ih,
        map_cons, sum_cons, partWeight, if_pos h]
    · rw [filter_cons, if_neg h, ih, map_cons, sum_cons, partWeight, if_neg h,
        Nat.zero_add]

theorem partWeight_table (idx : ℕ) (rows : List ρ) :
    partWeight (partName idx, File.table rows) = rows.length :=
  if_pos (isPartName_partName idx)

theorem total_sealParts_le (dir : Directory Name (File ρ)) (ps : List (ℕ × List ρ)) :
    (sealParts dir ps).total partWeight
      ≤ dir.total partWeight + (ps.flatMap Prod.snd).length := by
  induction ps generalizing dir with
  | nil => exact Nat.le_refl _
  | cons p ps ih =>
    have hput := Directory.total_put_le partWeight (d := dir) (k := partName p.1)
      (a := File.table p.2)
    have hrest := ih (dir.put (partName p.1) (.table p.2))
    rw [partWeight_table] at hput
    rw [flatMap_cons, length_append]
    show (sealParts (dir.put (partName p.1) (.table p.2)) ps).total partWeight ≤ _
    omega

/-- The first part of an earlier session is overwritten. -/
theorem total_sealParts_lt {dir : Directory Name (File ρ)} {ps : List (ℕ × List ρ)} {n : ℕ}
    (h : Numbered ps n) (hps : ps ≠ []) {rows : List ρ} (hrows : rows ≠ [])
    (hmem : (partName 1, File.table rows) ∈ dir.entries) :
    (sealParts dir ps).total partWeight
      < dir.total partWeight + (ps.flatMap Prod.snd).length := by
  obtain _ | ⟨p, ps⟩ := ps
  · exact absurd rfl hps
  · have hp : p.1 = 1 := by
      have hnumbers := h.numbers
      obtain _ | n := n
      · cases hnumbers
      · exact (cons.inj hnumbers).1
    have hput := Directory.total_put_lt partWeight (a := File.table p.2) hmem (by
        rw [partWeight_table]
        exact length_pos_of_ne_nil hrows)
    have hrest := total_sealParts_le (dir.put (partName p.1) (.table p.2)) ps
    rw [partWeight_table] at hput
    rw [hp] at hrest
    rw [flatMap_cons, length_append]
    show (sealParts (dir.put (partName p.1) (.table p.2)) ps).total partWeight < _
    rw [hp]
    omega

section Losses

def finalRows (files : Files ρ) : List ρ := (files.final.map File.rows).getD []

def FirstPart (parts : Option (Directory Name (File ρ))) : Prop :=
  parts = none ∨ ∃ dir rows, parts = some dir ∧ rows ≠ []
    ∧ (partName 1, File.table rows) ∈ dir.entries

/-- After `k` sessions with rows the files hold at most these, and fewer after a second one. -/
structure Held (k total : ℕ) (files : Files ρ) : Prop where
  first : FirstPart files.parts
  parts_le : (partRows files.parts).length ≤ total
  final_le : (finalRows files).length ≤ total
  parts_lt : 2 ≤ k → (partRows files.parts).length < total
  final_lt : 2 ≤ k → (finalRows files).length < total
  pos : 1 ≤ k → 1 ≤ total

theorem held_noFiles : Held 0 0 (noFiles : Files ρ) :=
  ⟨.inl rfl, le_rfl, le_rfl, fun h => absurd h (by decide), fun h => absurd h (by decide),
    fun h => absurd h (by decide)⟩

variable {k total n : ℕ} {start files : Files ρ} {ps : List (ℕ × List ρ)} {rows : List ρ}

theorem firstPart_sealed (h : Numbered ps n) (hstart : FirstPart start.parts) :
    FirstPart (sealed start.parts ps) := by
  unfold sealed
  split_ifs with hps
  · exact hstart
  · obtain ⟨table, hmem⟩ : ∃ table, (1, table) ∈ ps := by
      refine h.exists_mem le_rfl ?_
      rw [← h.length_eq]
      exact length_pos_of_ne_nil hps
    exact .inr ⟨_, table, rfl, h.nonempty _ hmem, mem_sealParts h.lt hmem⟩

theorem length_partRows_sealed (h : Numbered ps n) (hps : ps ≠ [])
    (hstart : FirstPart start.parts) :
    (partRows (sealed start.parts ps)).length ≤ (ps.flatMap Prod.snd).length
      ∨ (partRows (sealed start.parts ps)).length
        < (partRows start.parts).length + (ps.flatMap Prod.snd).length := by
  unfold sealed
  rw [if_neg hps, length_partRows]
  rcases hstart with hnone | ⟨dir, rows, hdir, hrows, hmem⟩
  · refine .inl ?_
    have hle := total_sealParts_le (.empty : Directory Name (File ρ)) ps
    have hzero : (Directory.empty : Directory Name (File ρ)).total partWeight = 0 := rfl
    rw [hnone, Option.getD_none]
    omega
  · refine .inr ?_
    rw [hdir, length_partRows]
    exact total_sealParts_lt h hps hrows hmem

theorem Held.record (h : Held k total start) (hn : Numbered ps n)
    (hparts : files.parts = sealed start.parts ps)
    (hps : ps ≠ [] → ps.flatMap Prod.snd = rows) (hrows : rows ≠ [])
    (hfinal : finalRows files = rows ∨ ps ≠ [] ∧ finalRows files = partRows files.parts) :
    Held (k + 1) (total + rows.length) files := by
  have hpos : 0 < rows.length := length_pos_of_ne_nil hrows
  have hk := h.pos
  have hle : (partRows files.parts).length ≤ total + rows.length
      ∧ (1 ≤ k → (partRows files.parts).length < total + rows.length) := by
    rw [hparts]
    by_cases hne : ps = []
    · have hold := h.parts_le
      rw [sealed, if_pos hne]
      constructor <;> intros <;> omega
    · have hnew := length_partRows_sealed hn hne h.first
      have hold := h.parts_le
      rw [hps hne] at hnew
      constructor <;> intros <;> omega
  have hfinal' : (finalRows files).length ≤ total + rows.length
      ∧ (1 ≤ k → (finalRows files).length < total + rows.length) := by
    rcases hfinal with heq | ⟨-, heq⟩
    · rw [heq]
      constructor <;> intros <;> omega
    · rw [heq]
      exact hle
  refine ⟨hparts ▸ firstPart_sealed hn h.first, hle.1, hfinal'.1, fun h2 => hle.2 (by omega),
    fun h2 => hfinal'.2 (by omega), fun _ => by omega⟩

theorem Held.idle (h : Held k total start) (hparts : files.parts = start.parts)
    (hfinal : finalRows files = finalRows start ∨ finalRows files = partRows start.parts) :
    Held k total files := by
  refine ⟨hparts ▸ h.first, hparts ▸ h.parts_le, ?_, hparts ▸ h.parts_lt, ?_, h.pos⟩
  · rcases hfinal with heq | heq <;> rw [heq]
    · exact h.final_le
    · exact h.parts_le
  · intro hk
    rcases hfinal with heq | heq <;> rw [heq]
    · exact h.final_lt hk
    · exact h.parts_lt hk

end Losses

section FilesFound

namespace InstrumentWriter

def on (files : Files ρ) (w : InstrumentWriter ρ) : InstrumentWriter ρ := { w with files := files }

/-- The writers differ in their files only, and have met no error. -/
def Apart (w w' : InstrumentWriter ρ) : Prop :=
  w.partMode = false ∧ w.closed = false ∧ ∃ files, w' = w.on files

variable {w w' : InstrumentWriter ρ}

theorem Apart.flush (h : Apart w w') :
    Apart (after (flush noFaults w)) (after (flush noFaults w')) := by
  obtain ⟨hm, hc, files, rfl⟩ := h
  by_cases hb : w.buffer = []
  · have hflush : InstrumentWriter.flush noFaults w = .ok w := if_pos hb
    have hflush' : InstrumentWriter.flush noFaults (w.on files) = .ok (w.on files) := if_pos hb
    rw [hflush, hflush']
    exact ⟨hm, hc, files, rfl⟩
  · rw [flush_noFaults hm hb, flush_noFaults (w := w.on files) hm hb]
    by_cases hrotates : (w.wrote w.buffer).clearBuffer.rotates
    · have hrotates' : ((w.on files).wrote (w.on files).buffer).clearBuffer.rotates := hrotates
      rw [if_pos hrotates, if_pos hrotates']
      exact ⟨hm, hc, _, rfl⟩
    · have hrotates' : ¬ ((w.on files).wrote (w.on files).buffer).clearBuffer.rotates := hrotates
      rw [if_neg hrotates, if_neg hrotates']
      exact ⟨hm, hc, _, rfl⟩

theorem Apart.call (h : Apart w w') (c : Call ρ) :
    Apart (w.call noFaults c) (w'.call noFaults c) := by
  cases c with
  | flush => exact h.flush
  | add row =>
    obtain ⟨hm, hc, files, rfl⟩ := h
    have hadd : Apart { w with buffer := w.buffer ++ [row] }
        { w.on files with buffer := w.buffer ++ [row] } := ⟨hm, hc, files, rfl⟩
    have hfull : ((w.on files).maxBuffer ≤ ((w.on files).buffer ++ [row]).length)
        ↔ w.maxBuffer ≤ (w.buffer ++ [row]).length := Iff.rfl
    show Apart (after (add noFaults w row)) (after (add noFaults (w.on files) row))
    unfold add
    simp only [hfull]
    split_ifs
    · exact hadd.flush
    · exact hadd

theorem flush_ok (hm : w.partMode = false) : flush noFaults w = .ok (after (flush noFaults w)) := by
  by_cases hb : w.buffer = []
  · rw [show flush noFaults w = .ok w from if_pos hb]
    rfl
  · rw [flush_noFaults hm hb]
    rfl

theorem Apart.partIdx_finish (h : Apart w w') : w'.finish.partIdx = w.finish.partIdx := by
  obtain ⟨hm, -, files, rfl⟩ := h
  obtain ⟨_, _, _, _, writer, _, _, _, _, _, rotated, _⟩ := w
  subst hm
  cases rotated with
  | true => cases writer <;> rfl
  | false =>
    show (finalizePrimary _).partIdx = (finalizePrimary _).partIdx
    rw [partIdx_finalizePrimary, partIdx_finalizePrimary]
    rfl

theorem partIdx_session (maxBuffer rotateAfterRowgroups : ℤ) (calls : List (Call ρ))
    (files : Files ρ) :
    (session maxBuffer rotateAfterRowgroups calls files).partIdx
      = (session maxBuffer rotateAfterRowgroups calls noFiles).partIdx := by
  have hcalls : Apart
      (calls.foldl (call noFaults) (init maxBuffer rotateAfterRowgroups noFiles))
      (calls.foldl (call noFaults) (init maxBuffer rotateAfterRowgroups files)) := by
    induction calls using reverseRecOn with
    | nil => exact ⟨rfl, rfl, files, rfl⟩
    | append_singleton calls c ih =>
      rw [foldl_append, foldl_append]
      exact ih.call c
  unfold session
  generalize calls.foldl (call noFaults) (init maxBuffer rotateAfterRowgroups noFiles)
    = w at hcalls ⊢
  generalize calls.foldl (call noFaults) (init maxBuffer rotateAfterRowgroups files)
    = w' at hcalls ⊢
  have hflush := hcalls.flush
  obtain ⟨hm, hc, files, rfl⟩ := hcalls
  rw [close_eq hc (flush_ok hm), close_eq (w := w.on files) hc (flush_ok hm)]
  exact hflush.partIdx_finish

end InstrumentWriter

end FilesFound

section Streams

/-- What a session does to the files of one stream. -/
structure Files.Recorded (journal : Bool) (start : Files ρ) (rows : List ρ) (n : ℕ)
    (files : Files ρ) (ps : List (ℕ × List ρ)) : Prop where
  numbered : Numbered ps n
  parts : files.parts = sealed start.parts ps
  merged : ps ≠ [] → ps.flatMap Prod.snd = rows
    ∧ files.final = some (.table (partRows (sealed start.parts ps)))
  primary : ps = [] → rows ≠ [] → journal = false ∧ files.final = some (.table rows)
  idle : ps = [] → rows = [] → files.final =
    if journal then some (.table (partRows start.parts)) else InstrumentWriter.keptFinal start.final

/-- One stream of rows recorded by the sessions of a day, with the number of parts each seals. -/
structure Stream (σ ρ : Type) where
  journal : Bool
  step : σ → Files ρ → Files ρ
  rows : σ → List ρ
  parts : σ → ℕ
  spec : ∀ s start, ∃ ps, Files.Recorded journal start (rows s) (parts s) (step s start) ps

namespace Stream

variable {σ : Type} (S : Stream σ ρ)

def run (ss : List σ) : Files ρ := ss.foldl (fun files s => S.step s files) noFiles

def all (ss : List σ) : List ρ := ss.flatMap S.rows

def recording (ss : List σ) : List σ := ss.filter fun s => !(S.rows s).isEmpty

/-- At most one session records rows, and it seals at most 9999 parts. -/
def Single (ss : List σ) : Prop := (S.recording ss).length ≤ 1 ∧ ∀ s ∈ ss, S.parts s ≤ 9999

variable {S} {ss : List σ} {s : σ}

theorem run_snoc : S.run (ss ++ [s]) = S.step s (S.run ss) := by simp [run]

theorem all_snoc : S.all (ss ++ [s]) = S.all ss ++ S.rows s := by simp [all]

theorem recording_snoc : S.recording (ss ++ [s])
    = if S.rows s = [] then S.recording ss else S.recording ss ++ [s] := by
  unfold recording
  split_ifs with h
  · simp [h]
  · simp [h]

theorem mem_recording : s ∈ S.recording ss ↔ s ∈ ss ∧ S.rows s ≠ [] := by
  simp [recording]

variable {ps : List (ℕ × List ρ)}

theorem eq_nil_of_idle {journal : Bool} {start files : Files ρ} {n : ℕ}
    (h : Files.Recorded journal start [] n files ps) : ps = [] := by
  by_contra hne
  obtain ⟨p, hp⟩ := exists_mem_of_ne_nil _ hne
  have hrows := (h.merged hne).1
  exact h.numbered.nonempty p hp (flatMap_eq_nil_iff.1 hrows p hp)

theorem finalRows_keptFinal (files : Files ρ) :
    ((InstrumentWriter.keptFinal files.final).map File.rows).getD [] = finalRows files := by
  unfold finalRows InstrumentWriter.keptFinal
  split
  · rename_i h
    rw [h]
  · rename_i h
    rcases hfinal : files.final with _ | _ | _
    · rfl
    · rename_i rows
      obtain _ | ⟨row, rest⟩ := rows
      · rfl
      · exact absurd hfinal (h row rest)
    · rfl

theorem held_run (S : Stream σ ρ) (ss : List σ) :
    Held (S.recording ss).length (S.all ss).length (S.run ss) := by
  induction ss using reverseRecOn with
  | nil => exact held_noFiles
  | append_singleton ss s ih =>
    obtain ⟨ps, hps⟩ := S.spec s (S.run ss)
    rw [run_snoc, all_snoc, recording_snoc, length_append]
    split_ifs with hrows
    · rw [hrows] at hps
      have hnil := eq_nil_of_idle hps
      have hparts := hps.parts
      rw [hnil] at hparts
      rw [hrows]
      refine ih.idle hparts ?_
      have hfinal := hps.idle hnil rfl
      split_ifs at hfinal
      · exact .inr (by rw [finalRows, hfinal]; rfl)
      · exact .inl (by rw [finalRows, hfinal, finalRows_keptFinal])
    · rw [length_append]
      refine ih.record hps.numbered hps.parts (fun hne => (hps.merged hne).1) hrows ?_
      by_cases hne : ps = []
      · exact .inl (by rw [finalRows, (hps.primary hne hrows).2]; rfl)
      · exact .inr ⟨hne, by rw [finalRows, (hps.merged hne).2, hps.parts]; rfl⟩

theorem partRows_sealed_ne_nil {n : ℕ} (h : Numbered ps n)
    (hps : ps ≠ []) : partRows (sealed none ps) ≠ [] := by
  obtain ⟨p, hp⟩ := exists_mem_of_ne_nil _ hps
  obtain ⟨row, hrow⟩ := exists_mem_of_ne_nil _ (h.nonempty p hp)
  refine ne_nil_of_mem (mem_flatMap.2 ⟨.table p.2, ?_, hrow⟩)
  unfold sealed
  rw [if_neg hps]
  exact mem_map.2 ⟨_, Directory.mem_restrict.2
    ⟨mem_sealParts h.lt hp, isPartName_partName p.1⟩, rfl⟩

/-- The daily file of the one session that recorded, its parts being the only ones. -/
structure SoleRecording (S : Stream σ ρ) (ss : List σ) (s : σ) (ps : List (ℕ × List ρ)) : Prop where
  mem : s ∈ ss
  rows : S.rows s = S.all ss
  numbered : Numbered ps (S.parts s)
  merged : ps ≠ [] → ps.flatMap Prod.snd = S.all ss
  final : (S.run ss).final
    = some (.table (if ps = [] then S.all ss else partRows (sealed none ps)))
  journal : S.journal = true → ps ≠ [] ∧ partRows (S.run ss).parts = partRows (sealed none ps)

theorem all_eq_nil_of_recording (h : S.recording ss = []) : S.all ss = [] := by
  refine flatMap_eq_nil_iff.2 fun s hs => ?_
  by_contra hne
  have : s ∈ S.recording ss := mem_recording.2 ⟨hs, hne⟩
  rw [h] at this
  cases this

theorem run_idle (h : S.all ss = []) :
    (S.run ss).parts = none ∧ InstrumentWriter.keptFinal (S.run ss).final = some (.table [])
      ∧ (ss ≠ [] → (S.run ss).final = some (.table [])) := by
  induction ss using reverseRecOn with
  | nil => exact ⟨rfl, rfl, fun h => absurd rfl h⟩
  | append_singleton ss s ih =>
    rw [all_snoc, append_eq_nil_iff] at h
    obtain ⟨hparts, hkept, -⟩ := ih h.1
    obtain ⟨ps, hps⟩ := S.spec s (S.run ss)
    rw [h.2] at hps
    have hnil := eq_nil_of_idle hps
    have hfinal : (S.run (ss ++ [s])).final = some (.table []) := by
      rw [run_snoc, hps.idle hnil rfl, hparts, hkept]
      split_ifs <;> rfl
    refine ⟨?_, ?_, fun _ => hfinal⟩
    · rw [run_snoc, hps.parts, hnil, sealed, if_pos rfl, hparts]
    · rw [hfinal]
      rfl

theorem keptFinal_of_ne_nil {rows : List ρ} (h : rows ≠ []) :
    InstrumentWriter.keptFinal (some (.table rows)) = some (.table rows) := by
  obtain _ | ⟨row, rest⟩ := rows
  · exact absurd rfl h
  · rfl

theorem soleRecording_run (hone : (S.recording ss).length ≤ 1) (hall : S.all ss ≠ []) :
    ∃ s ps, SoleRecording S ss s ps := by
  induction ss using reverseRecOn with
  | nil => exact absurd rfl hall
  | append_singleton ss s ih =>
    obtain ⟨ps, hps⟩ := S.spec s (S.run ss)
    rw [recording_snoc] at hone
    split_ifs at hone with hrows
    · have hall' : S.all (ss ++ [s]) = S.all ss := by rw [all_snoc, hrows, append_nil]
      obtain ⟨s', ps', h⟩ := ih hone (hall' ▸ hall)
      rw [hrows] at hps
      have hnil := eq_nil_of_idle hps
      have hparts : (S.run (ss ++ [s])).parts = (S.run ss).parts := by
        rw [run_snoc, hps.parts, hnil, sealed, if_pos rfl]
      refine ⟨s', ps', mem_append_left _ h.mem, hall' ▸ h.rows, h.numbered,
        hall' ▸ h.merged, ?_, fun hj => ⟨(h.journal hj).1, hparts ▸ (h.journal hj).2⟩⟩
      rw [hall', run_snoc, hps.idle hnil rfl]
      by_cases hj : S.journal = true
      · rw [if_pos hj, (h.journal hj).2, if_neg (h.journal hj).1]
      · rw [if_neg hj, h.final]
        refine keptFinal_of_ne_nil ?_
        split_ifs with hps'
        · exact hall' ▸ hall
        · exact partRows_sealed_ne_nil h.numbered hps'
    · have hnone : S.recording ss = [] := by
        rw [length_append, length_singleton] at hone
        exact length_eq_zero_iff.1 (by omega)
      have hidle := all_eq_nil_of_recording hnone
      have hall' : S.all (ss ++ [s]) = S.rows s := by rw [all_snoc, hidle, nil_append]
      obtain ⟨hparts, -, -⟩ := run_idle hidle
      refine ⟨s, ps, mem_append_right _ mem_cons_self, hall'.symm, hps.numbered,
        fun hne => hall' ▸ (hps.merged hne).1, ?_, fun hj => ?_⟩
      · rw [hall', run_snoc]
        split_ifs with hne
        · exact (hps.primary hne hrows).2
        · rw [(hps.merged hne).2, hparts]
      · refine ⟨fun hne => ?_, ?_⟩
        · rw [(hps.primary hne hrows).1] at hj
          cases hj
        · rw [run_snoc, hps.parts, hparts]

theorem SoleRecording.final_iff (h : SoleRecording S ss s ps) :
    (S.parts s ≤ 9999 → (S.run ss).final = some (.table (S.all ss))) ∧
      ((S.all ss).Nodup → (S.run ss).final = some (.table (S.all ss)) → S.parts s ≤ 9999) := by
  by_cases hps : ps = []
  · have hzero := h.numbered.length_eq
    rw [hps, length_nil] at hzero
    refine ⟨fun _ => ?_, fun _ _ => by omega⟩
    rw [h.final, if_pos hps]
  · rw [h.final, if_neg hps, Option.some.injEq, File.table.injEq, ← h.merged hps]
    exact ⟨partRows_sealed h.numbered, le_of_partRows_sealed h.numbered⟩

theorem parts_of_idle (h : S.rows s = []) : S.parts s = 0 := by
  obtain ⟨ps, hps⟩ := S.spec s noFiles
  rw [h] at hps
  rw [← hps.numbered.length_eq, eq_nil_of_idle hps, length_nil]

theorem final_of_single (hne : ss ≠ []) (h : S.Single ss) :
    (S.run ss).final = some (.table (S.all ss)) := by
  by_cases hall : S.all ss = []
  · rw [hall]
    exact (run_idle hall).2.2 hne
  · obtain ⟨s, ps, hs⟩ := soleRecording_run h.1 hall
    exact hs.final_iff.1 (h.2 s hs.mem)

theorem single_of_final (hnodup : (S.all ss).Nodup)
    (hfinal : (S.run ss).final = some (.table (S.all ss))) : S.Single ss := by
  have hone : (S.recording ss).length ≤ 1 := by
    by_contra htwo
    have hlt := (held_run S ss).final_lt (by omega)
    have heq : finalRows (S.run ss) = S.all ss := by rw [finalRows, hfinal]; rfl
    rw [heq] at hlt
    exact absurd hlt (lt_irrefl _)
  refine ⟨hone, fun s hs => ?_⟩
  by_cases hrows : S.rows s = []
  · rw [parts_of_idle hrows]
    omega
  · have hall : S.all ss ≠ [] := fun h => hrows (flatMap_eq_nil_iff.1 h s hs)
    obtain ⟨s', ps, h'⟩ := soleRecording_run hone hall
    have hmem' : s' ∈ S.recording ss := mem_recording.2 ⟨h'.mem, h'.rows ▸ hall⟩
    have hmem : s ∈ S.recording ss := mem_recording.2 ⟨hs, hrows⟩
    have heq : s = s' := by
      obtain ⟨r, hr⟩ : ∃ r, S.recording ss = [r] :=
        length_eq_one_iff.1 (le_antisymm hone (length_pos_of_mem hmem))
      rw [hr, mem_singleton] at hmem hmem'
      rw [hmem, hmem']
    rw [heq]
    exact h'.final_iff.2 hnodup hfinal

end Stream

end Streams

section Sessions

variable {ε : Type}

def instrumentStream (ρ ε : Type) : Stream (Session ρ ε) ρ where
  journal := false
  step s files :=
    (InstrumentWriter.session s.maxBuffer s.rotateAfterRowgroups s.calls files).files
  rows s := added s.calls
  parts s := (InstrumentWriter.session s.maxBuffer s.rotateAfterRowgroups s.calls noFiles).partIdx
  spec s start := by
    obtain ⟨ps, h⟩ :=
      InstrumentWriter.session_leaves s.maxBuffer s.rotateAfterRowgroups s.calls start
    rw [InstrumentWriter.partIdx_session] at h
    exact ⟨ps, h.numbered, h.parts, h.rotated, fun hps hrows => ⟨rfl, h.primary hps hrows⟩,
      h.empty⟩

def eventStream (ρ ε : Type) : Stream (Session ρ ε) ε where
  journal := true
  step s files := (EventWriter.session s.events files).files
  rows s := added s.events
  parts s := (added s.events).length
  spec s start := by
    obtain ⟨-, ps, hnumbered, hparts, hrows, hfinal⟩ := EventWriter.session_leaves s.events start
    refine ⟨ps, hnumbered, hparts, fun _ => ⟨hrows, hfinal⟩, fun hps hne => ?_, fun hps _ => ?_⟩
    · rw [hps] at hrows
      exact absurd hrows.symm hne
    · rw [hfinal, hps]
      rfl

theorem recordAll_eq (sessions : List (Session ρ ε)) :
    (DayDir.recordAll sessions).instrument = (instrumentStream ρ ε).run sessions
      ∧ (DayDir.recordAll sessions).events = (eventStream ρ ε).run sessions := by
  induction sessions using reverseRecOn with
  | nil => exact ⟨rfl, rfl⟩
  | append_singleton sessions s ih =>
    have hsnoc : DayDir.recordAll (sessions ++ [s]) = (DayDir.recordAll sessions).record s := by
      simp [DayDir.recordAll]
    rw [hsnoc, Stream.run_snoc, Stream.run_snoc, ← ih.1, ← ih.2]
    exact ⟨rfl, rfl⟩

/-- After the last close both daily files have every row of every session, in order. -/
def AllRecorded (sessions : List (Session ρ ε)) : Prop :=
  (DayDir.recordAll sessions).instrument.final
      = some (.table (sessions.flatMap fun s => added s.calls))
    ∧ (DayDir.recordAll sessions).events.final
      = some (.table (sessions.flatMap fun s => added s.events))

/-- At most one session records rows and at most one events, each sealing at most 9999 parts. -/
def SingleRecording (sessions : List (Session ρ ε)) : Prop :=
  (instrumentStream ρ ε).Single sessions ∧ (eventStream ρ ε).Single sessions

/-- The sessions of a day lose nothing if at most one records; of distinct rows, only then. -/
theorem day_sessions_keep_rows (first : Session ρ ε) (rest : List (Session ρ ε)) :
    (SingleRecording (first :: rest) → AllRecorded (first :: rest)) ∧
      (((first :: rest).flatMap fun s => added s.calls).Nodup →
        ((first :: rest).flatMap fun s => added s.events).Nodup →
        (AllRecorded (first :: rest) ↔ SingleRecording (first :: rest))) := by
  obtain ⟨hinstrument, hevents⟩ := recordAll_eq (first :: rest)
  have hkept : SingleRecording (first :: rest) → AllRecorded (first :: rest) := by
    rintro ⟨hi, he⟩
    refine ⟨?_, ?_⟩
    · rw [hinstrument]
      exact Stream.final_of_single (cons_ne_nil _ _) hi
    · rw [hevents]
      exact Stream.final_of_single (cons_ne_nil _ _) he
  refine ⟨hkept, fun hrows hevs => ⟨?_, hkept⟩⟩
  rintro ⟨hi, he⟩
  rw [hinstrument] at hi
  rw [hevents] at he
  exact ⟨Stream.single_of_final hrows hi, Stream.single_of_final hevs he⟩

/-- Two sessions of one row and one event each: the second takes the place of the first. -/
theorem second_session_overwrites : ¬ AllRecorded
    [(⟨20000, 0, [.add 1], [.add 1]⟩ : Session ℕ ℕ), ⟨20000, 0, [.add 2], [.add 2]⟩] := by
  unfold AllRecorded
  decide +kernel

end Sessions

end TradingBridge.Orderflow.Recorder
