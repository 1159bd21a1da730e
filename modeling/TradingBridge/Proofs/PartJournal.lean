import TradingBridge.Orderflow.Recorder

/-!
# Part files in the order of their names

Consolidation reads the parts in the order of their names. With numbers of at most four digits
that is the order of the numbers; `part-10000.parquet` comes before `part-9999.parquet`.
-/

namespace TradingBridge.Orderflow.Recorder

open List

variable {ρ : Type}

section Consolidation

theorem flatten_batchesFrom {n : ℕ} (hn : 0 < n) :
    ∀ (fuel : ℕ) (rows : List ρ), rows.length ≤ fuel → (batchesFrom n fuel rows).flatten = rows
  | 0, rows, h => by rw [length_eq_zero_iff.1 (Nat.le_zero.1 h)]; rfl
  | _ + 1, [], _ => rfl
  | fuel + 1, row :: rows, h => by
    have hdrop : ((row :: rows).drop n).length ≤ fuel := by
      rw [length_drop]
      omega
    show (row :: rows).take n ++ (batchesFrom n fuel ((row :: rows).drop n)).flatten = _
    rw [flatten_batchesFrom hn fuel _ hdrop, take_append_drop]

namespace Merging

variable (m : Merging ρ)

def taken : List ρ := m.written ++ m.buf.flatten

theorem taken_flushBuf : m.flushBuf.taken = m.taken := by
  unfold flushBuf
  split_ifs
  · rfl
  · simp [taken]

theorem written_flushBuf : m.flushBuf.written = m.taken := by
  unfold flushBuf
  split_ifs with h
  · simp [taken, h]
  · rfl

theorem taken_addBatch (batch : List ρ) : (m.addBatch batch).taken = m.taken ++ batch := by
  unfold addBatch
  dsimp only
  split_ifs with h
  · rw [h, append_nil]
  · rw [taken_flushBuf]
    simp [taken]
  · simp [taken]

theorem taken_addBatches (batches : List (List ρ)) (m : Merging ρ) :
    (batches.foldl addBatch m).taken = m.taken ++ batches.flatten := by
  induction batches generalizing m with
  | nil => simp
  | cons batch batches ih =>
    rw [foldl_cons, ih, taken_addBatch, flatten_cons, append_assoc]

theorem taken_addPart (m : Merging ρ) (file : File ρ) :
    (m.addPart file).taken = m.taken ++ file.rows := by
  cases file with
  | broken => simp [addPart, File.rows]
  | table rows =>
    show ((iterBatches consolidateBatchRows rows).foldl addBatch m).taken = _
    rw [taken_addBatches, iterBatches, flatten_batchesFrom (by decide) _ _ le_rfl]
    rfl

theorem taken_addParts (files : List (File ρ)) (m : Merging ρ) :
    (files.foldl addPart m).taken = m.taken ++ files.flatMap File.rows := by
  induction files generalizing m with
  | nil => simp
  | cons file files ih =>
    rw [foldl_cons, ih, taken_addPart, flatMap_cons, append_assoc]

end Merging

theorem streamConsolidate_eq (files : List (File ρ)) :
    streamConsolidate files = files.flatMap File.rows := by
  unfold streamConsolidate
  rw [Merging.written_flushBuf, Merging.taken_addParts]
  rfl

/-- The rows of the parts of a directory, in the order of their names. -/
def partRows (parts : Option (Directory Name (File ρ))) : List ρ :=
  (globParts parts).flatMap File.rows

theorem consolidateParts_final (files : Files ρ) :
    (consolidateParts files).final = some (.table (partRows files.parts)) := by
  unfold consolidateParts partRows
  split
  · rename_i h
    rw [h]
    rfl
  · rw [streamConsolidate_eq]

theorem consolidateParts_parts (files : Files ρ) :
    (consolidateParts files).parts = files.parts := by
  unfold consolidateParts
  split <;> rfl

end Consolidation

theorem isPartName_partName (idx : ℕ) : isPartName (partName idx) = true := by
  unfold isPartName partName
  rw [Bool.and_eq_true, isPrefixOf_iff_prefix, isSuffixOf_iff_suffix]
  refine ⟨prefix_append _ _, ?_⟩
  rw [← append_assoc]
  exact suffix_append _ _

theorem append_lt_append_right {l l' : Name} (hlen : l.length = l'.length) (h : l < l')
    (suffix : Name) : l ++ suffix < l' ++ suffix := by
  induction l generalizing l' with
  | nil =>
    rw [length_eq_zero_iff.1 hlen.symm] at h
    exact absurd h (lt_irrefl _)
  | cons c cs ih =>
    obtain _ | ⟨c', cs'⟩ := l'
    · cases hlen
    · rcases cons_lt_cons_iff.1 h with hlt | ⟨rfl, hlt⟩
      · exact cons_lt_cons_iff.2 (.inl hlt)
      · exact cons_lt_cons_iff.2 (.inr ⟨rfl, ih (Nat.succ.inj hlen) hlt⟩)

theorem partName_lt {m n : ℕ} (hmn : m < n) (hn : n ≤ 9999) : partName m < partName n := by
  have hn' : n < 10 ^ 4 := by omega
  refine append_left_lt (append_lt_append_right ?_ ?_ _)
  · rw [DecimalText.length_pad (by decide) hn',
      DecimalText.length_pad (by decide) (hmn.trans hn')]
  · exact DecimalText.pad_lt_pad (by decide) hmn hn'

theorem partName_injective : Function.Injective partName := by
  intro m n h
  have h' := append_cancel_right (append_cancel_left h)
  exact DecimalText.pad_injective 4 h'

/-- The fifth digit breaks the order. -/
theorem partName_10000_lt : partName 10000 < partName 9999 := by decide

section Sealing

variable (dir : Directory Name (File ρ)) (ps : List (ℕ × List ρ))

def sealFiles (ps : List (ℕ × File ρ)) : Directory Name (File ρ) :=
  ps.foldl (fun dir p => dir.put (partName p.1) p.2) dir

theorem sealFiles_append_singleton (ps : List (ℕ × File ρ)) (p : ℕ × File ρ) :
    sealFiles dir (ps ++ [p]) = (sealFiles dir ps).put (partName p.1) p.2 := by
  simp [sealFiles]

theorem entries_sealFiles {ps : List (ℕ × File ρ)} (hlt : ps.Pairwise fun p q => p.1 < q.1)
    (hle : ∀ p ∈ ps, p.1 ≤ 9999) :
    (sealFiles .empty ps).entries = ps.map fun p => (partName p.1, p.2) := by
  induction ps using reverseRecOn with
  | nil => rfl
  | append_singleton ps p ih =>
    obtain ⟨hps, -, hp⟩ := pairwise_append.1 hlt
    have hentries := ih hps fun q hq => hle q (mem_append_left _ hq)
    have hlast : p.1 ≤ 9999 := hle p (mem_append_right _ mem_cons_self)
    rw [sealFiles_append_singleton, Directory.entries_put_of_lt, hentries, map_append]
    · rfl
    · intro e he
      rw [hentries] at he
      obtain ⟨q, hq, rfl⟩ := mem_map.1 he
      exact partName_lt (hp q hq p mem_cons_self) hlast

theorem partRows_sealFiles {ps : List (ℕ × File ρ)} (hlt : ps.Pairwise fun p q => p.1 < q.1)
    (hle : ∀ p ∈ ps, p.1 ≤ 9999) :
    partRows (some (sealFiles .empty ps)) = ps.flatMap fun p => p.2.rows := by
  have hentries := entries_sealFiles hlt hle
  have hall : (sealFiles .empty ps).entries.filter (fun e => isPartName e.1)
      = (sealFiles .empty ps).entries := by
    rw [filter_eq_self, hentries]
    intro e he
    obtain ⟨q, -, rfl⟩ := mem_map.1 he
    exact isPartName_partName q.1
  show (((sealFiles .empty ps).entries.filter fun e => isPartName e.1).map Prod.snd).flatMap
    File.rows = _
  rw [hall, hentries, map_map, flatMap_map]
  rfl

theorem mem_sealFiles {dir : Directory Name (File ρ)} {ps : List (ℕ × File ρ)}
    (hlt : ps.Pairwise fun p q => p.1 < q.1) {p : ℕ × File ρ} (hp : p ∈ ps) :
    (partName p.1, p.2) ∈ (sealFiles dir ps).entries := by
  induction ps using reverseRecOn with
  | nil => cases hp
  | append_singleton ps q ih =>
    obtain ⟨hps, -, hq⟩ := pairwise_append.1 hlt
    rw [sealFiles_append_singleton]
    refine Directory.mem_put.2 ?_
    rcases mem_append.1 hp with hp | hp
    · refine .inr ⟨ih hps hp, ?_⟩
      have := hq p hp q mem_cons_self
      exact fun h => this.ne (partName_injective h)
    · rw [mem_singleton.1 hp]
      exact .inl rfl

theorem exists_of_mem_sealFiles {ps : List (ℕ × File ρ)} {e : Name × File ρ}
    (he : e ∈ (sealFiles .empty ps).entries) : ∃ p ∈ ps, e = (partName p.1, p.2) := by
  induction ps using reverseRecOn with
  | nil => cases he
  | append_singleton ps q ih =>
    rw [sealFiles_append_singleton] at he
    rcases Directory.mem_put.1 he with rfl | ⟨he, -⟩
    · exact ⟨q, mem_append_right _ mem_cons_self, rfl⟩
    · obtain ⟨p, hp, rfl⟩ := ih he
      exact ⟨p, mem_append_left _ hp, rfl⟩

theorem mem_partRows_sealFiles {ps : List (ℕ × File ρ)}
    (hlt : ps.Pairwise fun p q => p.1 < q.1) (row : ρ) :
    row ∈ partRows (some (sealFiles .empty ps)) ↔ row ∈ ps.flatMap fun p => p.2.rows := by
  constructor
  · intro h
    obtain ⟨file, hfile, hrow⟩ := mem_flatMap.1 h
    obtain ⟨e, he, rfl⟩ := mem_map.1 hfile
    obtain ⟨p, hp, rfl⟩ := exists_of_mem_sealFiles (Directory.mem_restrict.1 he).1
    exact mem_flatMap.2 ⟨p, hp, hrow⟩
  · intro h
    obtain ⟨p, hp, hrow⟩ := mem_flatMap.1 h
    refine mem_flatMap.2 ⟨p.2, mem_map.2 ⟨(partName p.1, p.2), ?_, rfl⟩, hrow⟩
    exact Directory.mem_restrict.2 ⟨mem_sealFiles hlt hp, isPartName_partName p.1⟩

theorem partRows_getD (parts : Option (Directory Name (File ρ))) :
    partRows (some (parts.getD .empty)) = partRows parts := by
  cases parts <;> rfl

def tables : List (ℕ × File ρ) := ps.map fun p => (p.1, .table p.2)

theorem pairwise_tables {ps : List (ℕ × List ρ)} :
    (tables ps).Pairwise (fun p q => p.1 < q.1) ↔ ps.Pairwise fun p q => p.1 < q.1 := by
  unfold tables
  rw [pairwise_map]

theorem flatMap_tables : ((tables ps).flatMap fun p => p.2.rows) = ps.flatMap Prod.snd := by
  unfold tables
  rw [flatMap_map]
  rfl

def sealParts : Directory Name (File ρ) :=
  sealFiles dir (tables ps)

theorem sealParts_append_singleton (p : ℕ × List ρ) :
    sealParts dir (ps ++ [p]) = (sealParts dir ps).put (partName p.1) (.table p.2) := by
  simp [sealParts, tables, sealFiles]

theorem partRows_sealParts {ps : List (ℕ × List ρ)} (hlt : ps.Pairwise fun p q => p.1 < q.1)
    (hle : ∀ p ∈ ps, p.1 ≤ 9999) :
    partRows (some (sealParts .empty ps)) = ps.flatMap Prod.snd := by
  rw [sealParts, partRows_sealFiles (pairwise_tables.2 hlt), flatMap_tables]
  intro p hp
  obtain ⟨q, hq, rfl⟩ := mem_map.1 hp
  exact hle q hq

theorem mem_sealParts {dir : Directory Name (File ρ)} {ps : List (ℕ × List ρ)}
    (hlt : ps.Pairwise fun p q => p.1 < q.1) {p : ℕ × List ρ} (hp : p ∈ ps) :
    (partName p.1, File.table p.2) ∈ (sealParts dir ps).entries :=
  mem_sealFiles (p := (p.1, File.table p.2)) (pairwise_tables.2 hlt)
    (mem_map_of_mem hp)

end Sealing

end TradingBridge.Orderflow.Recorder
