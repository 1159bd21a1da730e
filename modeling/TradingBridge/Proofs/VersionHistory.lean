import TradingBridge.Lib.Run
import TradingBridge.StrategyVersioning

/-!
# The history of a strategy

Files, cache and record of a strategy run in parallel: version for version the same, the file's
text read back being the payload at the creation, and the cached dict holding it. A change a caller
makes to its own dicts does not reach the cache; a change to a dict that was handed out does.
-/

namespace TradingBridge.Versioning

open Effectful List Function

section Lists

variable {P J : Type}

structure Linear (vs : List (StrategyVersion P)) : Prop where
  numbers : vs.map (·.versionNumber) = List.range' 1 vs.length
  parents : ∀ i v, vs[i]? = some v →
    v.parentVersionId = ((vs.take i).getLast?).map (·.versionId)

theorem linear_nil : Linear ([] : List (StrategyVersion P)) := ⟨rfl, by simp⟩

theorem Linear.append {vs : List (StrategyVersion P)} {v : StrategyVersion P} (h : Linear vs)
    (hnumber : v.versionNumber = vs.length + 1)
    (hparent : v.parentVersionId = vs.getLast?.map (·.versionId)) : Linear (vs ++ [v]) := by
  constructor
  · rw [map_append, h.numbers, length_append, length_singleton,
      range'_1_concat, map_singleton, hnumber, Nat.add_comm 1]
  · intro i w hw
    by_cases hi : i < vs.length
    · rw [getElem?_append_left hi] at hw
      rw [take_append_of_le_length hi.le]
      exact h.parents i w hw
    · obtain ⟨hlt, -⟩ := List.getElem?_eq_some_iff.1 hw
      rw [length_append, length_singleton] at hlt
      have hlen : i = vs.length := by omega
      subst hlen
      rw [getElem?_concat_length] at hw
      obtain rfl := Option.some.inj hw
      rw [take_left, hparent]

theorem Linear.nodup {vs : List (StrategyVersion P)} (h : Linear vs) :
    (vs.map (·.versionNumber)).Nodup := by
  rw [h.numbers]
  exact nodup_range'

theorem foldl_max_range' (n : ℕ) : (List.range' 1 n).foldl max 0 = n := by
  induction n with
  | zero => rfl
  | succ n ih =>
    rw [range'_1_concat, foldl_append, foldl_cons, foldl_nil]
    omega

variable {v : StrategyVersion J}

theorem put_of_fresh {bucket : List (StrategyVersion J)}
    (h : ∀ w ∈ bucket, w.versionNumber ≠ v.versionNumber) : put v bucket = bucket ++ [v] := by
  refine if_neg ?_
  simpa using h

/-- The version is the one on record, and its payload reads as `get` says. -/
def Stores (get : J → P → Prop) (v : StrategyVersion J) (r : StrategyVersion P) : Prop :=
  v.withJson r.strategyJson = r ∧ get v.strategyJson r.strategyJson

variable {get : J → P → Prop} {vs : List (StrategyVersion J)} {rs : List (StrategyVersion P)}

variable {r : StrategyVersion P}

theorem Stores.versionNumber
    (h : Stores get v r) : v.versionNumber = r.versionNumber :=
  congrArg StrategyVersion.versionNumber h.1

theorem Stores.versionId (h : Stores get v r) : v.versionId = r.versionId :=
  congrArg StrategyVersion.versionId h.1

theorem numbers_eq (h : List.Forall₂ (Stores get) vs rs) :
    vs.map (·.versionNumber) = rs.map (·.versionNumber) := by
  induction h with
  | nil => rfl
  | cons hv _ ih => rw [map_cons, map_cons, hv.versionNumber, ih]

theorem lastId_eq (h : List.Forall₂ (Stores get) vs rs) :
    vs.getLast?.map (·.versionId) = rs.getLast?.map (·.versionId) := by
  have hids : vs.map (·.versionId) = rs.map (·.versionId) := by
    induction h with
    | nil => rfl
    | cons hv _ ih => rw [map_cons, map_cons, hv.versionId, ih]
  rw [← getLast?_map, ← getLast?_map, hids]

theorem sorted_of_linear (h : List.Forall₂ (Stores get) vs rs) (hlinear : Linear rs) :
    vs.insertionSort (fun v w => v.versionNumber ≤ w.versionNumber) = vs := by
  refine List.Pairwise.insertionSort_eq (List.Pairwise.of_map StrategyVersion.versionNumber
    (fun _ _ h => h) ?_)
  rw [numbers_eq h, hlinear.numbers]
  exact pairwise_le_range'

end Lists

section Files

variable {P T : Type} (codec : Codec P T)

/-- The text of the payload reads back as the payload. -/
def Codec.Stable (p : P) : Prop := ∀ text, codec.dump p = some text → codec.parse text = some p

theorem readFiles_spec {fs : List (StrategyVersion T)} {rs : List (StrategyVersion P)}
    (h : List.Forall₂ (Stores fun text p => codec.parse text = some p) fs rs) (heap : List P)
    (bucket : List (StrategyVersion ℕ))
    (hfresh : ∀ v ∈ bucket, ∀ f ∈ fs, v.versionNumber ≠ f.versionNumber)
    (hnodup : (fs.map (·.versionNumber)).Nodup) :
    ∃ vs, readFiles codec fs (heap, bucket)
        = ((heap ++ rs.map (·.strategyJson), bucket ++ vs), true)
      ∧ List.Forall₂ (Stores fun ref p => heap.length ≤ ref
        ∧ (heap ++ rs.map (·.strategyJson))[ref]? = some p) vs rs := by
  induction h generalizing heap bucket with
  | nil => exact ⟨[], by simp [readFiles], .nil⟩
  | @cons f r fs rs hf hfs ih =>
    rw [map_cons, nodup_cons] at hnodup
    obtain ⟨hnot, hnodup⟩ := hnodup
    have hput : put (f.withJson heap.length) bucket = bucket ++ [f.withJson heap.length] :=
      put_of_fresh fun v hv => hfresh v hv f (mem_cons_self ..)
    obtain ⟨vs, hread, hvs⟩ := ih (heap ++ [r.strategyJson]) (bucket ++ [f.withJson heap.length])
      (by
        intro v hv g hg
        rcases mem_concat.1 hv with hv | rfl
        · exact hfresh v hv g (mem_cons_of_mem _ hg)
        · intro heq
          exact hnot (mem_map.2 ⟨g, hg, heq.symm⟩))
      hnodup
    rw [append_assoc] at hread hvs
    refine ⟨f.withJson heap.length :: vs, ?_, .cons ⟨hf.1, le_refl _, ?_⟩ (hvs.imp ?_)⟩
    · rw [readFiles, hf.2]
      simp only []
      rw [hput, hread]
      simp
    · simp [StrategyVersion.withJson]
    · rintro v s ⟨hv, hle, hget⟩
      rw [length_append] at hle
      exact ⟨hv, by omega, hget⟩

/-- The store of one strategy, against the versions on record. -/
structure Kept (s : Store P T) (own : List ℕ) (id : ℕ) (rs : List (StrategyVersion P)) :
    Prop where
  files : List.Forall₂ (Stores fun text p => codec.parse text = some p) (s.files id) rs
  cached : s.hydrated id = true →
    List.Forall₂ (Stores fun ref p => s.heap[ref]? = some p ∧ ref ∉ own) (s.cache id) rs
  empty : s.hydrated id = false → s.cache id = []

/-- What filling the cache of a strategy changes. -/
structure Hydration (s s' : Store P T) (own : List ℕ) (id : ℕ) (rs : List (StrategyVersion P)) :
    Prop where
  kept : Kept codec s' own id rs
  hydrated : s'.hydrated id = true
  files : s'.files = s.files
  other : ∀ k, k ≠ id → s'.cache k = s.cache k ∧ s'.hydrated k = s.hydrated k
  heap : ∃ ps, s'.heap = s.heap ++ ps ∧ ∀ p ∈ ps, ∃ r ∈ rs, r.strategyJson = p

variable {codec} {s : Store P T} {own : List ℕ} {id : ℕ} {rs : List (StrategyVersion P)}

theorem hydrateLocked_spec (hkept : Kept codec s own id rs) (hlinear : Linear rs)
    (hown : ∀ ref ∈ own, ref < s.heap.length) :
    ∃ s', hydrateLocked codec s id = (s', true) ∧ Hydration codec s s' own id rs := by
  unfold hydrateLocked
  by_cases hdone : s.hydrated id = true
  · rw [if_pos hdone]
    exact ⟨s, rfl, hkept, hdone, rfl, fun _ _ => ⟨rfl, rfl⟩, [], by simp, by simp⟩
  · have hempty := hkept.empty (by simpa using hdone)
    obtain ⟨vs, hread, hvs⟩ := readFiles_spec codec hkept.files s.heap [] (by simp)
      (by rw [numbers_eq hkept.files]; exact hlinear.nodup)
    rw [if_neg hdone, hempty, hread]
    refine ⟨_, rfl, ⟨hkept.files, fun _ => ?_, fun h => ?_⟩, ?_, rfl, fun k hk => ?_,
      rs.map (·.strategyJson), rfl, by simp⟩
    · simp only [update_self]
      refine hvs.imp fun v r hv => ⟨hv.1, hv.2.2, fun hmem => ?_⟩
      have := hown _ hmem
      have := hv.2.1
      omega
    · simp at h
    · simp
    · simp [update_of_ne hk]

theorem loadAllVersions_spec (hkept : Kept codec s own id rs) (hlinear : Linear rs)
    (hown : ∀ ref ∈ own, ref < s.heap.length) :
    ∃ s', loadAllVersions codec s id = (s', some (s'.cache id))
      ∧ Hydration codec s s' own id rs := by
  obtain ⟨s', hhydrate, hs'⟩ := hydrateLocked_spec hkept hlinear hown
  refine ⟨s', ?_, hs'⟩
  unfold loadAllVersions sortedBucket
  rw [hhydrate]
  simp only [if_true]
  rw [sorted_of_linear (hs'.kept.cached hs'.hydrated) hlinear]

theorem nextVersionNumber_eq (hcached : List.Forall₂
      (Stores fun ref p => s.heap[ref]? = some p ∧ ref ∉ own) (s.cache id) rs)
    (hlinear : Linear rs) : nextVersionNumber s id = rs.length + 1 := by
  have hnumbers := (numbers_eq hcached).trans hlinear.numbers
  have hlength := hcached.length_eq
  unfold nextVersionNumber
  cases hbucket : s.cache id with
  | nil =>
    rw [hbucket, length_nil] at hlength
    rw [← hlength]
  | cons v vs =>
    change ((v :: vs).map (·.versionNumber)).foldl max 0 + 1 = rs.length + 1
    rw [← hbucket, hnumbers, foldl_max_range']

end Files

section Log

variable {P T : Type}

/-- The payload is what its origin says: what the caller gave, or the target's payload. -/
def FromOrigin (log : List (StrategyVersion P × Origin P)) (p : P) : Origin P → Prop
  | .given q => p = q
  | .rollback n => ∃ k r, n = k + 1 ∧ log[k]? = some r ∧ r.1.strategyJson = p

theorem FromOrigin.append {log : List (StrategyVersion P × Origin P)} {p : P} {origin : Origin P}
    (h : FromOrigin log p origin) (more : List (StrategyVersion P × Origin P)) :
    FromOrigin (log ++ more) p origin := by
  cases origin with
  | given q => exact h
  | rollback n =>
    obtain ⟨k, r, hn, hr, hp⟩ := h
    obtain ⟨hlt, -⟩ := List.getElem?_eq_some_iff.1 hr
    exact ⟨k, r, hn, by rw [getElem?_append_left hlt, hr], hp⟩

variable (codec : Codec P T)

/-- Linear histories whose payloads come from where they should. -/
structure LogOk (log : ℕ → List (StrategyVersion P × Origin P)) : Prop where
  linear : ∀ id, Linear ((log id).map Prod.fst)
  origins : ∀ id, ∀ r ∈ log id, FromOrigin (log id) r.1.strategyJson r.2
  stable : ∀ id, ∀ r ∈ log id, codec.Stable r.1.strategyJson

variable {codec} {log : ℕ → List (StrategyVersion P × Origin P)}

theorem LogOk.append (h : LogOk codec log) {id : ℕ} {v : StrategyVersion P} {origin : Origin P}
    (hnumber : v.versionNumber = (log id).length + 1)
    (hparent : v.parentVersionId = ((log id).map Prod.fst).getLast?.map (·.versionId))
    (horigin : FromOrigin (log id) v.strategyJson origin) (hstable : codec.Stable v.strategyJson) :
    LogOk codec (Function.update log id (log id ++ [(v, origin)])) := by
  refine ⟨fun k => ?_, fun k r hr => ?_, fun k r hr => ?_⟩ <;> by_cases hk : k = id
  · subst hk
    rw [update_self, map_append]
    exact (h.linear k).append (by rw [length_map]; exact hnumber) hparent
  · rw [update_of_ne hk]
    exact h.linear k
  · subst hk
    rw [update_self] at hr ⊢
    rcases mem_concat.1 hr with hr | rfl
    · exact (h.origins k r hr).append _
    · exact horigin.append _
  · rw [update_of_ne hk] at hr ⊢
    exact h.origins k r hr
  · subst hk
    rw [update_self] at hr
    rcases mem_concat.1 hr with hr | rfl
    · exact h.stable k r hr
    · exact hstable
  · rw [update_of_ne hk] at hr
    exact h.stable k r hr

end Log

section World

variable {P T : Type} (codec : Codec P T)

/-- What a call in progress has in hand. -/
def TaskOk (heap : List P) (own : List ℕ) (log : ℕ → List (StrategyVersion P × Origin P)) :
    Task P T → Prop
  | .lookup _ _ _ => True
  | .copy _ _ _ _ none => True
  | .copy id ref _ _ (some n) =>
    ref ∉ own ∧ ∃ p, heap[ref]? = some p ∧ FromOrigin (log id) p (.rollback n)
  | .append c origin => codec.parse c.text = some c.payload ∧ codec.Stable c.payload
    ∧ FromOrigin (log c.strategyId) c.payload origin

structure Faithful (w : World P T) : Prop where
  log : LogOk codec w.log
  kept : ∀ id, Kept codec w.store w.own id ((w.log id).map Prod.fst)
  heap : ∀ p ∈ w.store.heap, codec.Stable p
  own : ∀ ref ∈ w.own, ref < w.store.heap.length
  tasks : ∀ t ∈ w.tasks, TaskOk codec w.store.heap w.own w.log t

/-- The dicts that are not the callers' keep their contents, and stay so. -/
def HeapKeeps (heap : List P) (own : List ℕ) (heap' : List P) (own' : List ℕ) : Prop :=
  ∀ ref p, heap[ref]? = some p → ref ∉ own → heap'[ref]? = some p ∧ ref ∉ own'

theorem heapKeeps_append (heap more : List P) (own : List ℕ) :
    HeapKeeps heap own (heap ++ more) own := by
  intro ref p href hown
  obtain ⟨hlt, -⟩ := List.getElem?_eq_some_iff.1 href
  exact ⟨by rw [getElem?_append_left hlt, href], hown⟩

variable {codec} {w w' : World P T} {s s' : Store P T} {own own' : List ℕ} {id : ℕ}
  {rs : List (StrategyVersion P)}

theorem Kept.frame (h : Kept codec s own id rs) (hfiles : s'.files id = s.files id)
    (hcache : s'.cache id = s.cache id) (hhydrated : s'.hydrated id = s.hydrated id)
    (hheap : HeapKeeps s.heap own s'.heap own') : Kept codec s' own' id rs := by
  refine ⟨hfiles ▸ h.files, fun hh => ?_, fun hh => hcache ▸ h.empty (hhydrated ▸ hh)⟩
  rw [hcache]
  exact (h.cached (hhydrated ▸ hh)).imp fun v r hv => ⟨hv.1, hheap _ _ hv.2.1 hv.2.2⟩

theorem TaskOk.frame {heap heap' : List P} {log log' : ℕ → List (StrategyVersion P × Origin P)}
    {t : Task P T} (h : TaskOk codec heap own log t) (hheap : HeapKeeps heap own heap' own')
    (hlog : ∀ id, log id <+: log' id) : TaskOk codec heap' own' log' t := by
  have horigin : ∀ id p origin, FromOrigin (log id) p origin → FromOrigin (log' id) p origin := by
    intro id p origin ho
    obtain ⟨more, hmore⟩ := hlog id
    rw [← hmore]
    exact ho.append more
  match t, h with
  | .lookup _ _ _, _ => trivial
  | .copy _ _ _ _ none, _ => trivial
  | .copy id ref _ _ (some n), ⟨hown, p, href, ho⟩ =>
    obtain ⟨href', hown'⟩ := hheap ref p href hown
    exact ⟨hown', p, href', horigin id p _ ho⟩
  | .append c origin, ⟨hparse, hstable, ho⟩ =>
    exact ⟨hparse, hstable, horigin _ _ _ ho⟩

theorem Faithful.frame (h : Faithful codec w) (hlog : w'.log = w.log)
    (hfiles : w'.store.files = w.store.files) (hcache : w'.store.cache = w.store.cache)
    (hhydrated : w'.store.hydrated = w.store.hydrated)
    (hheap : HeapKeeps w.store.heap w.own w'.store.heap w'.own)
    (hstable : ∀ p ∈ w'.store.heap, codec.Stable p)
    (hown : ∀ ref ∈ w'.own, ref < w'.store.heap.length)
    (htasks : ∀ t ∈ w'.tasks, t ∈ w.tasks ∨ TaskOk codec w'.store.heap w'.own w'.log t) :
    Faithful codec w' := by
  refine ⟨hlog ▸ h.log, fun id => ?_, hstable, hown, fun t ht => ?_⟩
  · rw [hlog]
    exact (h.kept id).frame (by rw [hfiles]) (by rw [hcache]) (by rw [hhydrated]) hheap
  · rcases htasks t ht with hmem | hok
    · exact (h.tasks t hmem).frame hheap fun id => hlog ▸ prefix_rfl
    · exact hok

theorem Faithful.moved {received : List ℕ} {tasks : List (Task P T)} (h : Faithful codec w)
    (htasks : ∀ t ∈ tasks, t ∈ w.tasks ∨ TaskOk codec w.store.heap w.own w.log t) :
    Faithful codec { w with received := received, tasks := tasks } :=
  h.frame rfl rfl rfl rfl (fun _ _ href hown => ⟨href, hown⟩) h.heap h.own htasks

theorem Faithful.started {t : Task P T} (h : Faithful codec w)
    (ht : TaskOk codec w.store.heap w.own w.log t) :
    Faithful codec { w with tasks := w.tasks ++ [t] } := by
  refine h.moved fun u hu => (mem_concat.1 hu).imp_right ?_
  rintro rfl
  exact ht

/-- A dict of the store's own is added to the heap. -/
theorem Faithful.push (h : Faithful codec w) {p : P} (hstable : codec.Stable p) :
    Faithful codec { w with store := { w.store with heap := w.store.heap ++ [p] } } := by
  refine h.frame rfl rfl rfl rfl (heapKeeps_append _ _ _) (fun q hq => ?_) (fun ref hmem => ?_)
    fun _ => Or.inl
  · exact (mem_concat.1 hq).elim (h.heap q) fun heq => heq ▸ hstable
  · rw [length_append]
    exact (h.own ref hmem).trans_le (Nat.le_add_right _ _)

theorem Faithful.hydrate (h : Faithful codec w)
    (hs' : Hydration codec w.store s' w.own id ((w.log id).map Prod.fst)) :
    Faithful codec { w with store := s' } := by
  obtain ⟨ps, hheap, hps⟩ := hs'.heap
  have hkeeps : HeapKeeps w.store.heap w.own s'.heap w.own := by
    rw [hheap]
    exact heapKeeps_append _ _ _
  refine ⟨h.log, fun k => ?_, fun p hp => ?_, fun ref href => ?_, fun t ht => ?_⟩
  · by_cases hk : k = id
    · subst hk
      exact hs'.kept
    · exact (h.kept k).frame (by rw [hs'.files]) (hs'.other k hk).1 (hs'.other k hk).2 hkeeps
  · rw [hheap] at hp
    rcases mem_append.1 hp with hp | hp
    · exact h.heap p hp
    · obtain ⟨r, hr, rfl⟩ := hps p hp
      obtain ⟨r', hr', rfl⟩ := mem_map.1 hr
      exact h.log.stable id r' hr'
  · have hlt := h.own ref href
    rw [hheap, length_append]
    omega
  · exact (h.tasks t ht).frame hkeeps fun _ => prefix_rfl

theorem Faithful.loadAll (h : Faithful codec w) (id : ℕ) :
    ∃ s', loadAllVersions codec w.store id = (s', some (s'.cache id))
      ∧ Hydration codec w.store s' w.own id ((w.log id).map Prod.fst)
      ∧ Faithful codec { w with store := s' } := by
  obtain ⟨s', hload, hs'⟩ := loadAllVersions_spec (h.kept id) (h.log.linear id) h.own
  exact ⟨s', hload, hs', h.hydrate hs'⟩

theorem Faithful.load (h : Faithful codec w) (id n : ℕ) : ∃ s', loadVersion codec w.store id n
        = (s', some ((s'.cache id).find? (·.versionNumber = n)))
      ∧ Hydration codec w.store s' w.own id ((w.log id).map Prod.fst)
      ∧ Faithful codec { w with store := s' } := by
  obtain ⟨s', hhydrate, hs'⟩ := hydrateLocked_spec (h.kept id) (h.log.linear id) h.own
  refine ⟨s', ?_, hs', h.hydrate hs'⟩
  unfold loadVersion
  rw [hhydrate]
  rfl

theorem Faithful.restarted (h : Faithful codec w) : Faithful codec w.restarted where
  log := h.log
  kept id := ⟨(h.kept id).files, nofun, fun _ => rfl⟩
  heap := nofun
  own := nofun
  tasks := nofun

end World

section Appending

variable {P T : Type} {codec : Codec P T} {w : World P T} {s' : Store P T} {c : Creation P T}
  {origin : Origin P} {v : StrategyVersion ℕ}

/-- The version that follows those on record. -/
structure Follows (rs : List (StrategyVersion P)) (c : Creation P T) (v : StrategyVersion ℕ) :
    Prop where
  strategyId : v.strategyId = c.strategyId
  number : v.versionNumber = rs.length + 1
  parent : v.parentVersionId = rs.getLast?.map (·.versionId)

theorem newVersion_spec (h : Faithful codec w) (c : Creation P T) (versionId now : ℕ) :
    ∃ s', Hydration codec w.store s' w.own c.strategyId ((w.log c.strategyId).map Prod.fst)
      ∧ Faithful codec { w with store := s' }
      ∧ (newVersion codec w.store c versionId now = (s', none)
        ∨ ∃ v, newVersion codec w.store c versionId now
            = ({ s' with heap := s'.heap ++ [c.payload] }, some v)
          ∧ v.strategyJson = s'.heap.length
          ∧ Follows ((w.log c.strategyId).map Prod.fst) c v) := by
  obtain ⟨s', hload, hs', hfaithful⟩ := h.loadAll c.strategyId
  refine ⟨s', hs', hfaithful, ?_⟩
  have hcached := hs'.kept.cached hs'.hydrated
  unfold newVersion
  rw [hload]
  split_ifs
  · exact Or.inl rfl
  · refine Or.inr ⟨_, rfl, rfl, rfl, ?_, ?_⟩
    · exact nextVersionNumber_eq hcached (h.log.linear c.strategyId)
    · exact lastId_eq hcached

variable {rs : List (StrategyVersion P)}

theorem fresh_number {J : Type} {get : J → P → Prop} {vs : List (StrategyVersion J)}
    (hvs : List.Forall₂ (Stores get) vs rs) (hlinear : Linear rs)
    {k : ℕ} (hk : k = rs.length + 1) : ∀ u ∈ vs, u.versionNumber ≠ k := by
  intro u hu heq
  have hmem : u.versionNumber ∈ vs.map (·.versionNumber) := mem_map_of_mem hu
  rw [numbers_eq hvs, hlinear.numbers, mem_range'_1] at hmem
  omega

theorem files_append {fs : List (StrategyVersion T)}
    (hfiles : List.Forall₂ (Stores fun text p => codec.parse text = some p) fs rs)
    (hlinear : Linear rs) (hv : Follows rs c v)
    (hparse : codec.parse c.text = some c.payload) :
    List.Forall₂ (Stores fun text p => codec.parse text = some p) (put (v.withJson c.text) fs)
      (rs ++ [v.withJson c.payload]) := by
  rw [put_of_fresh (fresh_number hfiles hlinear hv.number)]
  exact rel_append hfiles (.cons ⟨rfl, hparse⟩ .nil)

theorem log_record_grows (v : StrategyVersion ℕ) (p : P) (origin : Origin P) (id : ℕ) :
    w.log id <+: (w.record v p origin).log id := by
  unfold World.record
  by_cases hid : id = v.strategyId
  · simp [hid]
  · simp [update_of_ne hid]

theorem log_record (hlog : LogOk codec w.log)
    (hv : Follows ((w.log c.strategyId).map Prod.fst) c v) (hstable : codec.Stable c.payload)
    (horigin : FromOrigin (w.log c.strategyId) c.payload origin) :
    LogOk codec (w.record v c.payload origin).log := by
  unfold World.record
  rw [hv.strategyId]
  refine hlog.append ?_ hv.parent horigin hstable
  rw [← length_map]
  exact hv.number

theorem faithful_saved (h : Faithful codec { w with store := s' })
    (hhydrated : s'.hydrated c.strategyId = true)
    (hv : Follows ((w.log c.strategyId).map Prod.fst) c v) (href : v.strategyJson = s'.heap.length)
    (htask : TaskOk codec s'.heap w.own w.log (.append c origin)) (received : List ℕ) :
    Faithful codec (World.record { w with
      store := saveVersion { s' with heap := s'.heap ++ [c.payload] } v c.text
      received := received } v c.payload origin) := by
  obtain ⟨hparse, hstable, horigin⟩ := htask
  have hkeeps := heapKeeps_append s'.heap [c.payload] w.own
  have hid := hv.strategyId
  have hpushed := h.push hstable
  refine ⟨log_record h.log hv hstable horigin, fun k => ?_,
    hpushed.heap, hpushed.own, fun t ht => ?_⟩
  · by_cases hk : k = c.strategyId
    · subst hk
      have hkept := h.kept c.strategyId
      have hlinear := h.log.linear c.strategyId
      have hcached := hkept.cached hhydrated
      have hnotown : s'.heap.length ∉ w.own := fun hmem => by
        have := h.own _ hmem
        exact absurd this (lt_irrefl _)
      have hrecs : ((World.record { w with
          store := saveVersion { s' with heap := s'.heap ++ [c.payload] } v c.text
          received := received } v c.payload origin).log c.strategyId).map Prod.fst
          = (w.log c.strategyId).map Prod.fst ++ [v.withJson c.payload] := by
        simp [World.record, hid]
      rw [hrecs]
      refine ⟨?_, fun _ => ?_, fun hh => ?_⟩
      · simp only [World.record, saveVersion, saveFile, hid, update_self]
        exact files_append hkept.files hlinear hv hparse
      · simp only [World.record, saveVersion, saveFile, hid, update_self]
        rw [put_of_fresh (fresh_number hcached hlinear hv.number)]
        refine rel_append (hcached.imp fun u r hu => ⟨hu.1, hkeeps _ _ hu.2.1 hu.2.2⟩)
          (.cons ⟨rfl, ?_, ?_⟩ .nil)
        · rw [href]
          simp [StrategyVersion.withJson]
        · rw [href]
          exact hnotown
      · simp [World.record, saveVersion, hid] at hh
    · have hrecs : (World.record { w with
          store := saveVersion { s' with heap := s'.heap ++ [c.payload] } v c.text
          received := received } v c.payload origin).log k = w.log k := by
        simp [World.record, hid, update_of_ne hk]
      rw [hrecs]
      refine (h.kept k).frame ?_ ?_ ?_ hkeeps <;>
        simp [World.record, saveVersion, saveFile, hid, update_of_ne hk]
  · exact (h.tasks t ht).frame hkeeps (log_record_grows v c.payload origin)

theorem faithful_crashed (h : Faithful codec { w with store := s' })
    (hv : Follows ((w.log c.strategyId).map Prod.fst) c v)
    (htask : TaskOk codec s'.heap w.own w.log (.append c origin)) {heap : List P} :
    Faithful codec (World.record (World.restarted { w with
      store := saveFile { s' with heap := heap } v c.text }) v c.payload origin) := by
  obtain ⟨hparse, hstable, horigin⟩ := htask
  have hid := hv.strategyId
  refine ⟨log_record h.log hv hstable horigin, fun k => ?_, nofun, nofun, nofun⟩
  refine ⟨?_, nofun, fun _ => rfl⟩
  by_cases hk : k = c.strategyId
  · subst hk
    have hfiles := files_append (h.kept c.strategyId).files (h.log.linear c.strategyId) hv hparse
    simpa [World.record, World.restarted, saveFile, hid] using hfiles
  · simpa [World.record, World.restarted, saveFile, hid, update_of_ne hk]
      using (h.kept k).files

end Appending

section Steps

variable {P T : Type} (codec : Codec P T)

/-- Callers leave dicts they were handed alone, and theirs can be read back. -/
def LeavesReceived (w : World P T) : Label P → Prop
  | .newDict p => codec.Stable p
  | .mutate ref p => ref ∉ w.received ∧ codec.Stable p
  | _ => True

variable {codec} {w w' : World P T}

theorem exists_of_find? {J : Type} {get : J → P → Prop} {vs : List (StrategyVersion J)}
    {rs : List (StrategyVersion P)} (hvs : List.Forall₂ (Stores get) vs rs) (hlinear : Linear rs)
    {n : ℕ} {v : StrategyVersion J} (hv : vs.find? (·.versionNumber = n) = some v) :
    ∃ k r, n = k + 1 ∧ rs[k]? = some r ∧ Stores get v r := by
  have hnumber : v.versionNumber = n := by simpa using find?_some hv
  obtain ⟨k, hk, hget⟩ := mem_iff_getElem.1 (mem_of_find?_eq_some hv)
  have hk' : k < rs.length := hvs.length_eq ▸ hk
  have hstores : Stores get v rs[k] := hget ▸ hvs.get hk hk'
  refine ⟨k, rs[k], ?_, getElem?_eq_getElem hk', hstores⟩
  have hat : (rs.map (·.versionNumber))[k]? = some rs[k].versionNumber := by simp [hk']
  rw [hlinear.numbers, getElem?_range' hk'] at hat
  have := Option.some.inj hat
  rw [← hnumber, hstores.versionNumber]
  omega

theorem faithful_lookup (h : Faithful codec w) (versionId now : ℕ) (diskOk : Bool)
    (id target userId : ℕ) : Faithful codec
      (World.proceed codec w versionId now diskOk (.lookup id target userId)) := by
  obtain ⟨s', hload, hs', hfaithful⟩ := h.load id target
  unfold World.proceed
  simp only [hload]
  cases hfind : (s'.cache id).find? (·.versionNumber = target) with
  | none => exact hfaithful
  | some v =>
    obtain ⟨k, r, hk, hr, hv⟩ :=
      exists_of_find? (hs'.kept.cached hs'.hydrated) (h.log.linear id) hfind
    rw [getElem?_map, Option.map_eq_some_iff] at hr
    obtain ⟨entry, hentry, rfl⟩ := hr
    exact hfaithful.started ⟨hv.2.2, _, hv.2.1, k, entry, hk, hentry, rfl⟩

theorem faithful_copy (h : Faithful codec w) (versionId now : ℕ) (diskOk : Bool)
    (id ref userId : ℕ) (summary : String) (target : Option ℕ)
    (htask : TaskOk codec w.store.heap w.own w.log (.copy id ref userId summary target)) :
    Faithful codec
      (World.proceed codec w versionId now diskOk (.copy id ref userId summary target)) := by
  unfold World.proceed
  cases href : w.store.heap[ref]? with
  | none => simpa [href] using h
  | some p =>
    cases hdump : codec.dump p with
    | none => simpa [href, hdump] using h
    | some text =>
      simp only [href, hdump]
      have hstable : codec.Stable p := h.heap p (mem_of_getElem? href)
      refine h.started ⟨hstable text hdump, hstable, ?_⟩
      cases target with
      | none => rfl
      | some n =>
        obtain ⟨-, q, hq, horigin⟩ := htask
        obtain rfl : p = q := Option.some.inj (href.symm.trans hq)
        exact horigin

theorem faithful_append (h : Faithful codec w) (versionId now : ℕ) (diskOk : Bool)
    (c : Creation P T) (origin : Origin P)
    (htask : TaskOk codec w.store.heap w.own w.log (.append c origin)) :
    Faithful codec (World.proceed codec w versionId now diskOk (.append c origin)) := by
  obtain ⟨s', hs', hfaithful, hnone | ⟨v, hsome, href, hv⟩⟩ := newVersion_spec h c versionId now
  · unfold World.proceed
    simpa [hnone] using hfaithful
  · unfold World.proceed
    simp only [hsome]
    split_ifs
    · exact faithful_saved hfaithful hs'.hydrated hv href htask _
    · exact hfaithful.push htask.2.1

theorem faithful_mutate (h : Faithful codec w) {ref : ℕ} {p : P} (hown : ref ∈ w.own)
    (hstable : codec.Stable p) :
    Faithful codec { w with store := { w.store with heap := w.store.heap.set ref p } } := by
  refine h.frame rfl rfl rfl rfl (fun k q hk hnot => ⟨?_, hnot⟩) (fun q hq => ?_)
    (fun k hk => ?_) fun t ht => Or.inl ht
  · have hne : ref ≠ k := fun heq => hnot (heq ▸ hown)
    rw [getElem?_set_ne hne]
    exact hk
  · rcases mem_or_eq_of_mem_set hq with hq | rfl
    · exact h.heap q hq
    · exact hstable
  · rw [length_set]
    exact h.own k hk

theorem faithful_newDict (h : Faithful codec w) {p : P} (hstable : codec.Stable p) :
    Faithful codec { w with
      store := { w.store with heap := w.store.heap ++ [p] }
      own := w.store.heap.length :: w.own } := by
  refine h.frame rfl rfl rfl rfl (fun k q hk hnot => ?_) (fun q hq => ?_) (fun k hk => ?_)
    fun t ht => Or.inl ht
  · obtain ⟨hlt, -⟩ := List.getElem?_eq_some_iff.1 hk
    refine ⟨(heapKeeps_append _ _ _ k q hk hnot).1, ?_⟩
    rw [mem_cons, not_or]
    exact ⟨by omega, hnot⟩
  · rcases mem_concat.1 hq with hq | rfl
    · exact h.heap q hq
    · exact hstable
  · rw [length_append, length_singleton]
    rcases mem_cons.1 hk with rfl | hk
    · omega
    · have := h.own k hk
      omega

theorem faithful_crash (h : Faithful codec w) (versionId now : ℕ) {t : Task P T}
    (ht : t ∈ w.tasks) : Faithful codec (World.crashed codec w versionId now t) := by
  have htask := h.tasks t ht
  cases t with
  | lookup id target userId => exact h.restarted
  | copy id ref userId summary target => exact h.restarted
  | append c origin =>
    unfold World.crashed
    obtain ⟨s', hs', hfaithful, hnone | ⟨v, hsome, href, hv⟩⟩ := newVersion_spec h c versionId now
    · simpa [hnone] using h.restarted
    · simp only [hsome]
      exact faithful_crashed hfaithful hv htask

theorem faithful_next {l : Label P} (h : Faithful codec w) (hok : LeavesReceived codec w l)
    (hnext : next codec w l = some w') : Faithful codec w' := by
  cases l with
  | newDict p =>
    obtain rfl := Option.some.inj hnext
    exact faithful_newDict h hok
  | mutate ref p =>
    simp only [next] at hnext
    split_ifs at hnext with hholds
    obtain rfl := Option.some.inj hnext
    have hown : ref ∈ w.own := by
      have hholds : ref ∈ w.own ∨ ref ∈ w.received := by simpa [World.holds] using hholds
      exact hholds.resolve_right hok.1
    exact faithful_mutate h hown hok.2
  | create id ref userId summary =>
    simp only [next] at hnext
    split_ifs at hnext
    obtain rfl := Option.some.inj hnext
    exact h.started trivial
  | rollback id target userId =>
    obtain rfl := Option.some.inj hnext
    exact h.started trivial
  | listVersions id =>
    obtain ⟨s', hload, -, hfaithful⟩ := h.loadAll id
    simp only [next, hload] at hnext
    obtain rfl := Option.some.inj hnext
    exact hfaithful.moved fun _ => Or.inl
  | getVersion id n =>
    obtain ⟨s', hload, -, hfaithful⟩ := h.load id n
    simp only [next, hload] at hnext
    cases hfind : (s'.cache id).find? (·.versionNumber = n) with
    | none =>
      rw [hfind] at hnext
      obtain rfl := Option.some.inj hnext
      exact hfaithful
    | some v =>
      rw [hfind] at hnext
      obtain rfl := Option.some.inj hnext
      exact hfaithful.moved fun _ => Or.inl
  | run i versionId now diskOk =>
    simp only [next, Option.map_eq_some_iff] at hnext
    obtain ⟨t, ht, rfl⟩ := hnext
    have htask := h.tasks t (mem_of_getElem? ht)
    have h' : Faithful codec { w with tasks := w.tasks.eraseIdx i } :=
      h.moved fun t ht => Or.inl (mem_of_mem_eraseIdx ht)
    cases t with
    | lookup id target userId => exact faithful_lookup h' versionId now diskOk id target userId
    | copy id ref userId summary target =>
      exact faithful_copy h' versionId now diskOk id ref userId summary target htask
    | append c origin => exact faithful_append h' versionId now diskOk c origin htask
  | timeout i =>
    obtain rfl := Option.some.inj hnext
    exact h.moved fun t ht => Or.inl (mem_of_mem_eraseIdx ht)
  | restart =>
    obtain rfl := Option.some.inj hnext
    exact h.restarted
  | crash i versionId now =>
    simp only [next, Option.map_eq_some_iff] at hnext
    obtain ⟨t, ht, rfl⟩ := hnext
    exact faithful_crash h versionId now (mem_of_getElem? ht)

theorem faithful_start : Faithful codec World.start where
  log := ⟨fun _ => linear_nil, (by intro _ _ h; cases h), (by intro _ _ h; cases h)⟩
  kept _ := ⟨.nil, nofun, fun _ => rfl⟩
  heap := nofun
  own := nofun
  tasks := nofun

theorem log_proceed (versionId now : ℕ) (diskOk : Bool) (t : Task P T) (id : ℕ) :
    w.log id <+: (World.proceed codec w versionId now diskOk t).log id := by
  cases t with
  | lookup strategyId target userId =>
    simp only [World.proceed]
    split <;> exact prefix_rfl
  | copy strategyId ref userId changeSummary target =>
    simp only [World.proceed]
    split
    · exact prefix_rfl
    · split <;> exact prefix_rfl
  | append c origin =>
    simp only [World.proceed]
    split
    · exact prefix_rfl
    · split_ifs
      · exact log_record_grows _ _ _ id
      · exact prefix_rfl

theorem log_crashed (versionId now : ℕ) (t : Task P T) (id : ℕ) :
    w.log id <+: (World.crashed codec w versionId now t).log id := by
  unfold World.crashed
  split
  · split
    · exact prefix_rfl
    · exact log_record_grows _ _ _ id
  · exact prefix_rfl

theorem log_next {l : Label P} (hnext : next codec w l = some w') (id : ℕ) :
    w.log id <+: w'.log id := by
  cases l with
  | run i versionId now diskOk =>
    simp only [next, Option.map_eq_some_iff] at hnext
    obtain ⟨t, -, rfl⟩ := hnext
    exact log_proceed (w := { w with tasks := w.tasks.eraseIdx i }) versionId now diskOk t id
  | crash i versionId now =>
    simp only [next, Option.map_eq_some_iff] at hnext
    obtain ⟨t, -, rfl⟩ := hnext
    exact log_crashed versionId now t id
  | _ =>
    simp only [next] at hnext
    repeat' split at hnext
    all_goals first
      | cases hnext
        exact prefix_rfl
      | cases hnext

theorem mapM_of_forall₂ {α β : Type} {f : α → Option β} {as : List α} {bs : List β}
    (h : List.Forall₂ (fun a b => f a = some b) as bs) : as.mapM f = some bs := by
  induction h with
  | nil => rfl
  | cons hab _ ih => simp [hab, ih]

theorem listVersions_eq (h : Faithful codec w) (id : ℕ) :
    w.listVersions codec id = some ((w.log id).map Prod.fst) := by
  obtain ⟨s', hload, hs', -⟩ := h.loadAll id
  unfold World.listVersions
  rw [hload]
  refine mapM_of_forall₂ ((hs'.kept.cached hs'.hydrated).imp fun v r hv => ?_)
  rw [hv.2.1]
  exact congrArg some hv.1

end Steps

/-- Where callers leave the dicts they were handed alone, versions only grow, number from one, each
after its parent, and hold their payloads at the creation; for a rollback, the target's. -/
theorem history_append_only {P T : Type} (codec : Codec P T) (ls ms : List (Label P))
    (w w' : World P T) (hrun : Run (next codec) (LeavesReceived codec) World.start ls w)
    (hrun' : Run (next codec) (LeavesReceived codec) w ms w') (id : ℕ) :
    ∃ vs vs', w.listVersions codec id = some vs ∧ w'.listVersions codec id = some vs'
      ∧ vs <+: vs' ∧ Linear vs' ∧ vs' = (w'.log id).map Prod.fst
      ∧ ∀ r ∈ w'.log id, FromOrigin (w'.log id) r.1.strategyJson r.2 := by
  have h : Faithful codec w := hrun.invariant (fun _ _ _ => faithful_next) faithful_start
  have h' : Faithful codec w' := hrun'.invariant (fun _ _ _ => faithful_next) h
  have hprefix : w.log id <+: w'.log id :=
    hrun'.invariant (I := fun u => w.log id <+: u.log id)
      (fun _ _ _ hu _ hnext => hu.trans (log_next hnext id)) prefix_rfl
  exact ⟨_, _, listVersions_eq h id, listVersions_eq h' id, hprefix.map Prod.fst,
    h'.log.linear id, rfl, h'.log.origins id⟩

/-- Payloads that are their own text. -/
def plainCodec : Codec ℕ ℕ := ⟨some, some⟩

theorem stable_plainCodec (p : ℕ) : plainCodec.Stable p := fun _ h => h.symm

/-- A caller stores the payload 7 as the first version of strategy 1. -/
def firstVersion : List (Label ℕ) :=
  [.newDict 7, .create 1 0 5 "", .run 0 100 0 true, .run 0 100 0 true]

/-- The caller changes the dict it was handed, and the history with it. -/
theorem handed_out_dict_rewrites_history : ∃ w w' w'',
    Run (next plainCodec) (fun _ _ => True) World.start firstVersion w
    ∧ Run (next plainCodec) (fun _ _ => True) w [.mutate 1 9] w'
    ∧ Run (next plainCodec) (fun _ _ => True) w' [.restart] w''
    ∧ (w.listVersions plainCodec 1).map (·.map (·.strategyJson)) = some [7]
    ∧ (w'.listVersions plainCodec 1).map (·.map (·.strategyJson)) = some [9]
    ∧ (w''.listVersions plainCodec 1).map (·.map (·.strategyJson)) = some [7] := by
  simp only [exists_and_left]
  decide +kernel

/-- A test of the condition, for dicts that read back as they are. -/
def leavesReceived (w : World ℕ ℕ) : Label ℕ → Bool
  | .mutate ref _ => ref ∉ w.received
  | _ => true

def checked (w : World ℕ ℕ) (l : Label ℕ) : Option (World ℕ ℕ) :=
  if leavesReceived w l then next plainCodec w l else none

/-- A rollback to a version whose dict the caller has changed since, after a restart. -/
theorem history_append_only_rollback : ∃ w w',
    Run (next plainCodec) (LeavesReceived plainCodec) World.start firstVersion w
    ∧ Run (next plainCodec) (LeavesReceived plainCodec) w
      [.mutate 0 8, .create 1 0 5 "", .run 0 101 1 true, .run 0 101 1 true, .restart,
        .rollback 1 1 5, .run 0 0 2 true, .run 0 0 2 true, .run 0 102 2 true] w'
    ∧ (w'.listVersions plainCodec 1).map (·.map (·.strategyJson)) = some [7, 8, 7]
    ∧ ∃ vs', w'.listVersions plainCodec 1 = some vs' ∧ Linear vs' := by
  have hok : ∀ w l, leavesReceived w l = true → LeavesReceived plainCodec w l := by
    intro w l hl
    cases l with
    | newDict p => exact stable_plainCodec p
    | mutate ref p => exact ⟨of_decide_eq_true hl, stable_plainCodec p⟩
    | _ => trivial
  have hexec : ((exec checked World.start firstVersion).any fun w =>
      (exec checked w
        [.mutate 0 8, .create 1 0 5 "", .run 0 101 1 true, .run 0 101 1 true, .restart,
          .rollback 1 1 5, .run 0 0 2 true, .run 0 0 2 true, .run 0 102 2 true]).any fun w' =>
        (w'.listVersions plainCodec 1).map (·.map (·.strategyJson)) = some [7, 8, 7]) = true := by
    decide +kernel
  obtain ⟨w, hrun, hw⟩ := exists_run_of_exec_checked _ hok hexec
  obtain ⟨w', hrun', hw'⟩ := exists_run_of_exec_checked _ hok hw
  obtain ⟨-, vs', -, hlist, -, hlinear, -⟩ :=
    history_append_only plainCodec _ _ w w' hrun hrun' 1
  exact ⟨w, w', hrun, hrun', of_decide_eq_true hw', vs', hlist, hlinear⟩

end TradingBridge.Versioning
