import TradingBridge.TradeMarkers

/-!
# Bulk markers against single ones

The bulk emitter looks every marker up before it writes one, and an error undoes the whole
transaction. So it does what the single emitter does exactly if no marker it has not found comes
again, in the list or from another writer.
-/

namespace TradingBridge.TradeMarkers

variable {D W : Type} {s : Session D W} {m : TradeMarker D} {others rows : List (TradeMarker D)}
  {markers : Batch D}

/-- The single emitter on each marker in turn. -/
def emitEach : Batch D → Session D W → Option (List (TradeMarker D)) × Session D W
  | [], s => (some [], s)
  | (m, others) :: markers, s =>
    match insertOne m others s with
    | (none, s) => (none, s)
    | (some row, s) => ((emitEach markers s).1.map (row :: ·), (emitEach markers s).2)

/-- The markers of the list and of the others. -/
def allMarkers (markers : Batch D) : List (TradeMarker D) :=
  markers.flatMap fun x => x.1 :: x.2

/-- The key of a marker not found at its look-up does not come again. -/
def Undisturbed : Batch D → Session D W → Prop
  | [], _ => True
  | (m, others) :: markers, s =>
    (findDedupRow s m = none → m.key ∉ keys (others ++ allMarkers markers))
      ∧ Undisturbed markers (s.arrive others)

def add (s : Session D W) (rows : List (TradeMarker D)) : Session D W :=
  { s with pending := s.pending ++ rows }

theorem findDedupRow_eq_none : findDedupRow s m = none ↔ m.key ∉ s.keys := by
  simp [findDedupRow, Session.keys, keys]

theorem findDedupRow_add (h : m.key ∉ keys rows) :
    findDedupRow (add s rows) m = findDedupRow s m := by
  have hrows : rows.find? (·.key = m.key) = none := by simpa [keys] using h
  simp [findDedupRow, add, hrows]

theorem mem_keys_arrive {k} : k ∈ (s.arrive others).keys ↔ k ∈ s.keys ∨ k ∈ keys others := by
  simp only [Session.arrive, Session.keys, keys]
  grind

theorem arrive_append : s.arrive (others ++ rows) = (s.arrive others).arrive rows := by
  simp [Session.arrive]

theorem arrive_add (h : ∀ k ∈ keys others, k ∉ keys rows) :
    (add s rows).arrive others = add (s.arrive others) rows := by
  unfold Session.arrive add
  congr 2
  exact List.filter_congr (by grind [keys])

theorem mem_keys_preScan (markers : Batch D) (s : Session D W) (k) :
    k ∈ keys (preScan markers s).2 ∨ k ∈ s.keys ∨ k ∈ keys (markers.flatMap Prod.snd)
      ↔ k ∈ s.keys ∨ k ∈ keys (allMarkers markers) := by
  induction markers generalizing s with
  | nil => simp [preScan, allMarkers, keys]
  | cons x markers ih =>
    have hrest := ih (s.arrive x.2)
    have hfound := findDedupRow_eq_none (s := s) (m := x.1)
    rw [mem_keys_arrive] at hrest
    rw [preScan, allMarkers, List.flatMap_cons, List.flatMap_cons, ← allMarkers]
    split <;> grind [keys]

theorem flush_preScan : ((s.arrive (markers.flatMap Prod.snd)).flush (preScan markers s).2).isSome
    ↔ Undisturbed markers s := by
  induction markers generalizing s with
  | nil => simp [Session.flush, preScan, Undisturbed, keys]
  | cons x markers ih =>
    have hkeys := mem_keys_preScan markers (s.arrive x.2) x.1.key
    have hfound := findDedupRow_eq_none (s := s) (m := x.1)
    rw [mem_keys_arrive] at hkeys
    rw [Undisturbed, ← ih, preScan, List.flatMap_cons]
    simp only [Session.flush, mem_keys_arrive]
    split <;> grind [keys]

/-- Where nothing comes again, the single emitter goes on from what the look-ups leave. -/
theorem emitEach_add (rows : List (TradeMarker D)) (h : Undisturbed markers s)
    (hrows : ∀ k ∈ keys (allMarkers markers), k ∉ keys rows) :
    emitEach markers (add s rows) = (some (preScan markers s).1,
      add (s.arrive (markers.flatMap Prod.snd)) (rows ++ (preScan markers s).2)) := by
  induction markers generalizing s rows with
  | nil => simp [emitEach, preScan, Session.arrive]
  | cons x markers ih =>
    obtain ⟨m, others⟩ := x
    obtain ⟨hm, hrest⟩ := h
    rw [allMarkers, List.flatMap_cons, ← allMarkers] at hrows
    rw [List.flatMap_cons, arrive_append]
    simp only [emitEach, insertOne, preScan, findDedupRow_add (hrows m.key (by simp [keys]))]
    rw [arrive_add fun k hk => hrows k (by grind [keys])]
    cases hfind : findDedupRow s m with
    | none =>
      have hkey : m.key ∉ (add (s.arrive others) rows).keys := by
        rw [← findDedupRow_eq_none, findDedupRow_add (hrows m.key (by simp [keys])),
          findDedupRow_eq_none, mem_keys_arrive]
        grind [findDedupRow_eq_none, keys]
      have hflush : (add (s.arrive others) rows).flush [m]
          = some (add (s.arrive others) (rows ++ [m])) := by
        rw [Session.flush, if_pos (by simpa [keys] using hkey)]
        simp [add]
      simp [hflush, ih (rows ++ [m]) hrest (by grind [keys])]
    | some existing =>
      simp [ih rows hrest (by grind [keys])]

/-- The index refuses a row for one the others have committed, which is then found. -/
theorem insertOne_isSome (m : TradeMarker D) (others : List (TradeMarker D)) (s : Session D W) :
    (insertOne m others s).1.isSome := by
  unfold insertOne
  cases hfind : findDedupRow s m with
  | some existing => rfl
  | none =>
    rw [findDedupRow_eq_none] at hfind
    cases hflush : (s.arrive others).flush [m] with
    | some s' => rfl
    | none =>
      have hkey : m.key ∈ (s.arrive others).keys := by
        by_contra hkey
        simp [Session.flush, keys, hkey] at hflush
      simp only [Option.isSome_iff_ne_none, ne_eq, findDedupRow_eq_none]
      grind [Session.keys, keys, Session.rollback, Session.arrive]

theorem emitEach_isSome (markers : Batch D) (s : Session D W) : (emitEach markers s).1.isSome := by
  induction markers generalizing s with
  | nil => rfl
  | cons x markers ih =>
    have hrow := insertOne_isSome x.1 x.2 s
    rw [emitEach]
    split
    · grind
    · simp [ih]

/-- The bulk emitter leaves and returns what the single one does, and both keep what the
transaction had written. -/
theorem bulk_eq_each_iff (markers : Batch D) (s : Session D W) :
    (bulkEmitMarkers markers s = emitEach markers s
        ∧ s.pending <+: (emitEach markers s).2.pending ∧ (emitEach markers s).2.written = s.written)
      ↔ Undisturbed markers s := by
  rw [← flush_preScan]
  constructor
  · rintro ⟨heq, -⟩
    have hsome := emitEach_isSome markers s
    rw [← heq, bulkEmitMarkers] at hsome
    grind
  · intro h
    have heach := emitEach_add [] (flush_preScan.1 h) (by simp [keys])
    rw [show add s [] = s by simp [add]] at heach
    rw [heach]
    refine ⟨?_, List.prefix_append .., rfl⟩
    obtain ⟨s', hs'⟩ := Option.isSome_iff_exists.1 h
    rw [bulkEmitMarkers]
    simp only [hs']
    unfold Session.flush at hs'
    split_ifs at hs'
    cases hs'
    rfl

def entryMarker (quantity : ℕ) : TradeMarker ℕ := ⟨1, .longEntry, 22500, 0, quantity⟩

/-- A marker twice in the list, and one that another writer is first with, in a transaction that
has written a row of another table. -/
theorem bulk_undoes_transaction :
    (bulkEmitMarkers [(entryMarker 50, []), (entryMarker 50, [])] ⟨[], [], [7]⟩).1.isNone
      ∧ (bulkEmitMarkers [(entryMarker 50, []), (entryMarker 50, [])] ⟨[], [], [7]⟩).2.written = []
      ∧ (emitEach [(entryMarker 50, []), (entryMarker 50, [])] ⟨[], [], [7]⟩).1.isSome
      ∧ (emitEach [(entryMarker 50, [entryMarker 75])] ⟨[], [], [7]⟩).2.written = [] := by
  decide +kernel

end TradingBridge.TradeMarkers
