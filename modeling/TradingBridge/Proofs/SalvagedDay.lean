import TradingBridge.Lib.Run
import TradingBridge.Orderflow.Salvage

/-!
# What salvage leaves of a crashed day

An instrument with part files gets a daily file of its readable parts, in the place of the one
that was there; its unreadable parts move to `corrupt/`. Other instruments keep their daily file,
and their stray temporary file moves if it cannot be read. A second run finds nothing to do.
-/

namespace TradingBridge.Orderflow.Salvage

open List
open Recorder (isPartName)
open Effectful

variable {β ρ : Type} {codec : Codec β ρ}

theorem finalName_injective : Function.Injective finalName := fun _ _ h =>
  append_cancel_right h

theorem tmpName_injective : Function.Injective tmpName := fun _ _ h => append_cancel_right h

theorem partPath_injective {name name' part part' : Name}
    (h : partPath name part = partPath name' part') : name = name' ∧ part = part' := by
  simpa [partPath] using h

theorem isTmpName_tmpName (name : Name) : isTmpName (tmpName name) = true :=
  isSuffixOf_iff_suffix.2 (suffix_append _ _)

theorem isTmpName_finalName (name : Name) : isTmpName (finalName name) = false := by
  rw [Bool.eq_false_iff]
  intro h
  obtain ⟨stem, heq⟩ := isSuffixOf_iff_suffix.1 h
  have hlast := congrArg List.getLast? heq
  rw [finalName, getLast?_append, getLast?_append] at hlast
  exact absurd (Option.some.inj hlast) (by decide)

theorem finalName_ne_tmpName (name name' : Name) : finalName name ≠ tmpName name' := by
  intro h
  have htmp := isTmpName_tmpName name'
  rw [← h, isTmpName_finalName] at htmp
  cases htmp

section Steps

theorem get?_atomicWrite (top : Directory Name β) (name : Name) (rows : List ρ) (k : Name) :
    (atomicWrite codec top name rows).get? k =
      if k = finalName name then some (codec.write rows)
      else if k = tmpName name then none else top.get? k := by
  unfold atomicWrite
  rw [Directory.get?_put, Directory.get?_erase, Directory.get?_put]
  split_ifs <;> rfl

/-- The parts of an instrument without the unreadable ones. -/
def clean (codec : Codec β ρ) (dir : Directory Name β) : Directory Name β :=
  dir.restrict fun e => !(isPartName e.1 && (codec.read e.2).isNone)

theorem mem_unreadableParts {dir : Directory Name β} {e : Name × β} : e ∈ unreadableParts codec dir
      ↔ e ∈ dir.entries ∧ isPartName e.1 = true ∧ codec.read e.2 = none := by
  simp [unreadableParts, foundParts, Directory.mem_restrict, and_assoc]

variable (dir : Directory Name β)

theorem unreadableParts_sorted : (unreadableParts codec dir).Pairwise fun a b => a.1 < b.1 :=
  (dir.restrict _).sorted.filter _

variable {name : Name} {st : Salvaging β}

variable (name st) in
theorem quarantine_top (parts : List (Name × β)) :
    (parts.foldl (quarantinePart name) st).day.top = st.day.top :=
  foldl_kept (fun s : Salvaging β => s.day.top) fun _ _ _ => rfl

theorem quarantine_corrupt_other (parts : List (Name × β)) {path : List Name}
    (h : ∀ part ∈ parts, path ≠ partPath name part.1) :
    (parts.foldl (quarantinePart name) st).day.corrupt.get? path = st.day.corrupt.get? path := by
  refine foldl_kept (fun s : Salvaging β => s.day.corrupt.get? path) fun st' part hpart => ?_
  show (st'.day.corrupt.put (partPath name part.1) part.2).get? path = _
  rw [Directory.get?_put, if_neg (h part hpart)]

theorem quarantine_corrupt {parts : List (Name × β)}
    (hsorted : parts.Pairwise fun a b => a.1 < b.1) {part : Name × β} (hpart : part ∈ parts) :
    (parts.foldl (quarantinePart name) st).day.corrupt.get? (partPath name part.1)
      = some part.2 := by
  induction parts generalizing st with
  | nil => cases hpart
  | cons q parts ih =>
    obtain ⟨hq, hparts⟩ := pairwise_cons.1 hsorted
    rw [foldl_cons]
    rcases mem_cons.1 hpart with rfl | hmem
    · rw [quarantine_corrupt_other parts fun r hr h => (hq r hr).ne (partPath_injective h).2]
      show (st.day.corrupt.put (partPath name part.1) part.2).get? _ = _
      rw [Directory.get?_put, if_pos rfl]
    · exact ih hparts hmem

theorem quarantine_parts_other (parts : List (Name × β)) {other : Name} (h : other ≠ name) :
    (parts.foldl (quarantinePart name) st).day.parts.get? other = st.day.parts.get? other := by
  refine foldl_kept (fun s : Salvaging β => s.day.parts.get? other) fun st' part _ => ?_
  show (st'.day.parts.put name _).get? other = _
  rw [Directory.get?_put, if_neg h]

theorem quarantine_parts (parts : List (Name × β)) {dir : Directory Name β}
    (hdir : st.day.parts.get? name = some dir) :
    (parts.foldl (quarantinePart name) st).day.parts.get? name
      = some (dir.restrict fun e => e.1 ∉ parts.map Prod.fst) := by
  induction parts generalizing st dir with
  | nil =>
    rw [foldl_nil, hdir, Option.some.injEq]
    refine Directory.ext (Eq.symm ?_)
    show dir.entries.filter _ = dir.entries
    simp
  | cons part parts ih =>
    have hstep : (quarantinePart name st part).day.parts.get? name
        = some (dir.erase part.1) := by
      show (st.day.parts.put name _).get? name = _
      rw [Directory.get?_put, if_pos rfl, hdir]
      rfl
    rw [foldl_cons, ih hstep, Option.some.injEq]
    refine Directory.ext ?_
    show (dir.entries.filter _).filter _ = dir.entries.filter _
    rw [filter_filter]
    refine filter_congr fun e _ => ?_
    by_cases hk : e.1 = part.1 <;> simp [hk]

theorem restrict_unreadable :
    (dir.restrict fun e => e.1 ∉ (unreadableParts codec dir).map Prod.fst) = clean codec dir := by
  refine Directory.ext ?_
  refine filter_congr fun e he => ?_
  have hiff : e.1 ∈ (unreadableParts codec dir).map Prod.fst
      ↔ isPartName e.1 = true ∧ codec.read e.2 = none := by
    constructor
    · intro h
      obtain ⟨q, hq, hqe⟩ := mem_map.1 h
      obtain ⟨hmem, hname, hread⟩ := mem_unreadableParts.1 hq
      rw [← Directory.eq_of_mem hmem he hqe]
      exact ⟨hname, hread⟩
    · rintro ⟨hname, hread⟩
      exact mem_map.2 ⟨e, mem_unreadableParts.2 ⟨he, hname, hread⟩, rfl⟩
  rw [Bool.eq_iff_iff]
  simp [hiff, Option.isSome_iff_ne_none]

/-- What a step for one instrument does to the files of that instrument. -/
structure Consolidates (codec : Codec β ρ) (name : Name) (dir : Directory Name β)
    (day day' : DayFiles β) : Prop where
  parts : day'.parts.get? name = some (clean codec dir)
  moved : ∀ part ∈ unreadableParts codec dir,
    day'.corrupt.get? (partPath name part.1) = some part.2
  final : day'.top.get? (finalName name) = if foundParts dir = [] then
    day.top.get? (finalName name) else some (codec.write (readableParts codec dir).flatten)
  tmp : day'.top.get? (tmpName name) = if foundParts dir = [] then
    day.top.get? (tmpName name) else none

/-- What it leaves alone. -/
structure Spares (name : Name) (day day' : DayFiles β) : Prop where
  parts : ∀ other, other ≠ name → day'.parts.get? other = day.parts.get? other
  corrupt : ∀ path, (∀ part, path ≠ partPath name part) →
    day'.corrupt.get? path = day.corrupt.get? path
  top : ∀ k, k ≠ finalName name → k ≠ tmpName name → day'.top.get? k = day.top.get? k

variable (codec) in
theorem no_parts_iff :
    (readableParts codec dir = [] ∧ unreadableParts codec dir = []) ↔ foundParts dir = [] := by
  unfold readableParts unreadableParts
  constructor
  · rintro ⟨hread, hunread⟩
    by_contra hne
    obtain ⟨e, he⟩ := List.exists_mem_of_ne_nil _ hne
    cases hr : codec.read e.2 with
    | none =>
      have := List.filter_eq_nil_iff.1 hunread e he
      simp [hr] at this
    | some rows =>
      have := List.filterMap_eq_nil_iff.1 hread e he
      rw [hr] at this
      cases this
  · intro h
    rw [h]
    exact ⟨rfl, rfl⟩

variable (codec) in
theorem consolidateInstrument_spec {dir : Directory Name β}
    (hdir : st.day.parts.get? name = some dir) :
    Consolidates codec name dir st.day (consolidateInstrument codec st (name, dir)).day
      ∧ Spares name st.day (consolidateInstrument codec st (name, dir)).day := by
  have htop := quarantine_top name st (unreadableParts codec dir)
  have hparts := quarantine_parts (unreadableParts codec dir) hdir
  rw [restrict_unreadable] at hparts
  have hspare : ∀ other, other ≠ name →
      ((unreadableParts codec dir).foldl (quarantinePart name) st).day.parts.get? other
        = st.day.parts.get? other := fun other h => quarantine_parts_other _ h
  have hmoved : ∀ part ∈ unreadableParts codec dir,
      ((unreadableParts codec dir).foldl (quarantinePart name) st).day.corrupt.get?
        (partPath name part.1) = some part.2 := fun part hpart =>
    quarantine_corrupt (unreadableParts_sorted dir) hpart
  have hcorrupt : ∀ path, (∀ part, path ≠ partPath name part) →
      ((unreadableParts codec dir).foldl (quarantinePart name) st).day.corrupt.get? path
        = st.day.corrupt.get? path := fun path h =>
    quarantine_corrupt_other _ fun part _ => h part.1
  unfold consolidateInstrument
  by_cases hfound : foundParts dir = []
  · rw [if_pos ((no_parts_iff codec dir).2 hfound)]
    refine ⟨⟨hparts, hmoved, ?_, ?_⟩, ⟨hspare, hcorrupt, ?_⟩⟩
    · rw [htop, if_pos hfound]
    · rw [htop, if_pos hfound]
    · intro k _ _
      rw [htop]
  · rw [if_neg fun h => hfound ((no_parts_iff codec dir).1 h)]
    refine ⟨⟨hparts, hmoved, ?_, ?_⟩, ⟨hspare, hcorrupt, ?_⟩⟩
    · rw [get?_atomicWrite, if_pos rfl, if_neg hfound]
    · rw [get?_atomicWrite, if_neg (finalName_ne_tmpName name name).symm, if_pos rfl,
        if_neg hfound]
    · intro k hfinal htmp
      rw [get?_atomicWrite, if_neg hfinal, if_neg htmp, htop]

end Steps

section Loops

/-- What a run over the instruments `names` leaves alone. -/
structure SparesAll (names : List Name) (day day' : DayFiles β) : Prop where
  parts : ∀ other, other ∉ names → day'.parts.get? other = day.parts.get? other
  corrupt : ∀ path, (∀ name ∈ names, ∀ part, path ≠ partPath name part) →
    day'.corrupt.get? path = day.corrupt.get? path
  top : ∀ k, (∀ name ∈ names, k ≠ finalName name ∧ k ≠ tmpName name) →
    day'.top.get? k = day.top.get? k

variable {dir : Directory Name β}

theorem Consolidates.before {name : Name} {day₀ day day' : DayFiles β}
    (h : Consolidates codec name dir day day')
    (hfinal : day.top.get? (finalName name) = day₀.top.get? (finalName name))
    (htmp : day.top.get? (tmpName name) = day₀.top.get? (tmpName name)) :
    Consolidates codec name dir day₀ day' :=
  ⟨h.parts, h.moved, hfinal ▸ h.final, htmp ▸ h.tmp⟩

theorem Consolidates.after {name : Name} {day day' day₁ : DayFiles β}
    {names : List Name} (h : Consolidates codec name dir day day') (hs : SparesAll names day' day₁)
    (hname : name ∉ names) : Consolidates codec name dir day day₁ := by
  have hne : ∀ other ∈ names, name ≠ other := fun other hmem heq => hname (heq ▸ hmem)
  refine ⟨?_, fun part hpart => ?_, ?_, ?_⟩
  · rw [hs.parts name hname, h.parts]
  · rw [hs.corrupt _ fun other hmem p heq => hne other hmem (partPath_injective heq).1,
      h.moved part hpart]
  · rw [hs.top _ fun other hmem => ⟨fun heq => hne other hmem (finalName_injective heq),
      finalName_ne_tmpName name other⟩, h.final]
  · rw [hs.top _ fun other hmem => ⟨(finalName_ne_tmpName other name).symm,
      fun heq => hne other hmem (tmpName_injective heq)⟩, h.tmp]

variable (codec) in
theorem consolidate_loop (insts : List (Name × Directory Name β))
    (hsorted : insts.Pairwise fun a b => a.1 < b.1) (st : Salvaging β)
    (hdirs : ∀ inst ∈ insts, st.day.parts.get? inst.1 = some inst.2) :
    (∀ inst ∈ insts, Consolidates codec inst.1 inst.2 st.day
        (insts.foldl (consolidateInstrument codec) st).day)
      ∧ SparesAll (insts.map Prod.fst) st.day
        (insts.foldl (consolidateInstrument codec) st).day := by
  induction insts generalizing st with
  | nil => exact ⟨fun _ h => absurd h List.not_mem_nil, fun _ _ => rfl, fun _ _ => rfl,
      fun _ _ => rfl⟩
  | cons inst insts ih =>
    obtain ⟨hlt, hrest⟩ := List.pairwise_cons.1 hsorted
    obtain ⟨hstep, hspare⟩ := consolidateInstrument_spec codec
      (hdirs inst List.mem_cons_self)
    obtain ⟨hall, hspares⟩ := ih hrest (consolidateInstrument codec st inst) fun other hother => by
      rw [hspare.parts other.1 (hlt other hother).ne']
      exact hdirs other (List.mem_cons_of_mem _ hother)
    have hname : inst.1 ∉ insts.map Prod.fst := by
      intro hmem
      obtain ⟨other, hother, heq⟩ := List.mem_map.1 hmem
      exact (hlt other hother).ne' heq
    rw [List.foldl_cons]
    refine ⟨fun other hother => ?_, fun other h => ?_, fun path h => ?_, fun k h => ?_⟩
    · rcases List.mem_cons.1 hother with rfl | hmem
      · exact hstep.after hspares hname
      · have hne : other.1 ≠ inst.1 := (hlt other hmem).ne'
        refine (hall other hmem).before ?_ ?_
        · exact hspare.top _ (fun heq => hne (finalName_injective heq))
            (finalName_ne_tmpName _ _)
        · exact hspare.top _ (finalName_ne_tmpName _ _).symm
            (fun heq => hne (tmpName_injective heq))
    · rw [List.map_cons, List.mem_cons, not_or] at h
      rw [hspares.parts other h.2, hspare.parts other h.1]
    · rw [hspares.corrupt path fun name hmem => h name (List.mem_cons_of_mem _ hmem),
        hspare.corrupt path (h inst.1 List.mem_cons_self)]
    · rw [hspares.top k fun name hmem => h name (List.mem_cons_of_mem _ hmem),
        hspare.top k (h inst.1 List.mem_cons_self).1 (h inst.1 List.mem_cons_self).2]

variable {st : Salvaging β}

theorem quarantineTmp_parts (files : List (Name × β)) :
    (files.foldl (quarantineTmp codec) st).day.parts = st.day.parts := by
  refine foldl_kept (fun s : Salvaging β => s.day.parts) fun st' file _ => ?_
  unfold quarantineTmp
  split <;> rfl

theorem quarantineTmp_other (files : List (Name × β)) {k : Name}
    (h : ∀ file ∈ files, codec.read file.2 = none → k ≠ file.1) :
    (files.foldl (quarantineTmp codec) st).day.top.get? k = st.day.top.get? k := by
  refine foldl_kept (fun s : Salvaging β => s.day.top.get? k) fun st' file hfile => ?_
  unfold quarantineTmp
  split
  · rfl
  · rename_i hread
    rw [Directory.get?_erase, if_neg (h file hfile hread)]

theorem quarantineTmp_corrupt_other (files : List (Name × β)) {path : List Name}
    (h : ∀ file ∈ files, path ≠ [file.1]) :
    (files.foldl (quarantineTmp codec) st).day.corrupt.get? path
      = st.day.corrupt.get? path := by
  refine foldl_kept (fun s : Salvaging β => s.day.corrupt.get? path) fun st' file hfile => ?_
  unfold quarantineTmp
  split
  · rfl
  · rw [Directory.get?_put, if_neg (h file hfile)]

theorem quarantineTmp_moves {files : List (Name × β)}
    (hsorted : files.Pairwise fun a b => a.1 < b.1) {file : Name × β} (hfile : file ∈ files)
    (hread : codec.read file.2 = none) :
    (files.foldl (quarantineTmp codec) st).day.top.get? file.1 = none
      ∧ (files.foldl (quarantineTmp codec) st).day.corrupt.get? [file.1] = some file.2 := by
  induction files generalizing st with
  | nil => cases hfile
  | cons f files ih =>
    obtain ⟨hlt, hrest⟩ := pairwise_cons.1 hsorted
    rw [foldl_cons]
    rcases mem_cons.1 hfile with rfl | hmem
    · have hstep : quarantineTmp codec st file =
          { day := { st.day with
              top := st.day.top.erase file.1
              corrupt := st.day.corrupt.put [file.1] file.2 }
            summary := { st.summary with strayTmp := st.summary.strayTmp ++ [file.1] } } := by
        unfold quarantineTmp
        rw [hread]
      rw [quarantineTmp_other files fun g hg _ => (hlt g hg).ne,
        quarantineTmp_corrupt_other files fun g hg heq => (hlt g hg).ne (cons.inj heq).1,
        hstep]
      exact ⟨by rw [Directory.get?_erase, if_pos rfl], by rw [Directory.get?_put, if_pos rfl]⟩
    · exact ih hrest hmem

end Loops

section Day

variable {day : DayFiles β} {name : Name} {dir : Directory Name β}

def NoParts (day : DayFiles β) (name : Name) : Prop :=
  ∀ dir, day.parts.get? name = some dir → foundParts dir = []

/-- The temporary files the second loop looks at. -/
def tmpFiles (day : DayFiles β) : List (Name × β) :=
  (day.top.restrict fun e => isTmpName e.1).entries

theorem mem_tmpFiles {file : Name × β} :
    file ∈ tmpFiles day ↔ day.top.get? file.1 = some file.2 ∧ isTmpName file.1 = true := by
  rw [Directory.get?_eq_some]
  exact Directory.mem_restrict

theorem tmpFiles_sorted (day : DayFiles β) : (tmpFiles day).Pairwise fun a b => a.1 < b.1 :=
  (day.top.restrict _).sorted

theorem salvageDay_eq (day : DayFiles β) :
    salvageDay codec day = (tmpFiles (consolidateAll codec day).day).foldl (quarantineTmp codec)
      (consolidateAll codec day) := rfl

variable (codec) in
theorem consolidateAll_spec (day : DayFiles β) : (∀ name dir, day.parts.get? name = some dir →
        Consolidates codec name dir day (consolidateAll codec day).day)
      ∧ SparesAll (day.parts.entries.map Prod.fst) day (consolidateAll codec day).day := by
  obtain ⟨hall, hspares⟩ := consolidate_loop codec day.parts.entries day.parts.sorted
    ⟨day, ⟨[], [], []⟩⟩ fun inst hinst => Directory.get?_eq_some.2 hinst
  exact ⟨fun name dir h => hall (name, dir) (Directory.get?_eq_some.1 h), hspares⟩

theorem notMem_names (h : day.parts.get? name = none) : name ∉ day.parts.entries.map Prod.fst := by
  intro hmem
  obtain ⟨e, he, rfl⟩ := mem_map.1 hmem
  exact Directory.get?_eq_none.1 h e.2 he

variable (codec) in
theorem consolidateAll_noParts (h : NoParts day name) :
    (consolidateAll codec day).day.top.get? (finalName name) = day.top.get? (finalName name)
      ∧ (consolidateAll codec day).day.top.get? (tmpName name)
        = day.top.get? (tmpName name) := by
  obtain ⟨hall, hspares⟩ := consolidateAll_spec codec day
  cases hdir : day.parts.get? name with
  | none =>
    have hname := notMem_names hdir
    have hne : ∀ other ∈ day.parts.entries.map Prod.fst, name ≠ other := fun other hmem heq =>
      hname (heq ▸ hmem)
    refine ⟨hspares.top _ fun other hmem => ⟨fun heq => ?_, finalName_ne_tmpName _ _⟩,
      hspares.top _ fun other hmem => ⟨(finalName_ne_tmpName _ _).symm, fun heq => ?_⟩⟩
    · exact hne other hmem (finalName_injective heq)
    · exact hne other hmem (tmpName_injective heq)
  | some dir =>
    have hstep := hall name dir hdir
    rw [hstep.final, hstep.tmp, if_pos (h dir hdir), if_pos (h dir hdir)]
    exact ⟨rfl, rfl⟩

theorem salvageDay_final (day : DayFiles β) (name : Name) :
    (salvageDay codec day).day.top.get? (finalName name)
      = (consolidateAll codec day).day.top.get? (finalName name) := by
  refine quarantineTmp_other _ fun file hfile _ heq => ?_
  have htmp := (mem_tmpFiles.1 hfile).2
  rw [← heq, isTmpName_finalName] at htmp
  cases htmp

theorem salvageDay_parts (day : DayFiles β) :
    (salvageDay codec day).day.parts = (consolidateAll codec day).day.parts := by
  rw [salvageDay_eq, quarantineTmp_parts]

/-- No unreadable part or stray file, and the daily files of the parts written. -/
structure Settled (codec : Codec β ρ) (day : DayFiles β) : Prop where
  readable : ∀ inst ∈ day.parts.entries, unreadableParts codec inst.2 = []
  final : ∀ inst ∈ day.parts.entries, foundParts inst.2 ≠ [] →
    day.top.get? (finalName inst.1) = some (codec.write (readableParts codec inst.2).flatten)
  tmp : ∀ inst ∈ day.parts.entries, foundParts inst.2 ≠ [] → day.top.get? (tmpName inst.1) = none
  stray : ∀ file ∈ tmpFiles day, codec.read file.2 ≠ none

theorem Settled.consolidate (h : Settled codec day) {inst : Name × Directory Name β}
    (hinst : inst ∈ day.parts.entries) {st : Salvaging β} (hst : st.day = day) :
    (consolidateInstrument codec st inst).day = day := by
  unfold consolidateInstrument
  dsimp only
  rw [h.readable inst hinst, foldl_nil]
  split_ifs with hnone
  · exact hst
  · have hfound : foundParts inst.2 ≠ [] := by
      intro hfound
      refine hnone ⟨((no_parts_iff codec inst.2).2 hfound).1, rfl⟩
    have htop : atomicWrite codec day.top inst.1 (readableParts codec inst.2).flatten
        = day.top := by
      refine Directory.ext_get? fun k => ?_
      rw [get?_atomicWrite]
      split_ifs with hfinal htmp
      · rw [hfinal, h.final inst hinst hfound]
      · rw [htmp, h.tmp inst hinst hfound]
      · rfl
    rw [hst, htop]

theorem Settled.salvageDay (h : Settled codec day) : (salvageDay codec day).day = day := by
  have hfirst : (consolidateAll codec day).day = day :=
    List.foldlRecOn day.parts.entries (consolidateInstrument codec)
      (motive := fun st => st.day = day) rfl fun st hst inst hinst => h.consolidate hinst hst
  rw [salvageDay_eq, foldl_kept (fun s : Salvaging β => s.day) fun st file hfile => ?_, hfirst]
  unfold quarantineTmp
  split
  · rfl
  · rename_i hnone
    rw [hfirst] at hfile
    exact absurd hnone (h.stray file hfile)

theorem foundParts_clean (dir : Directory Name β) :
    foundParts (clean codec dir) = (foundParts dir).filter fun e => (codec.read e.2).isSome := by
  show (dir.entries.filter _).filter _ = (dir.entries.filter _).filter _
  rw [filter_filter, filter_filter]
  refine filter_congr fun e _ => ?_
  cases isPartName e.1 <;> cases codec.read e.2 <;> rfl

theorem readableParts_clean (dir : Directory Name β) :
    readableParts codec (clean codec dir) = readableParts codec dir := by
  unfold readableParts
  rw [foundParts_clean, filterMap_filter]
  refine filterMap_congr fun e _ => ?_
  cases codec.read e.2 <;> rfl

theorem unreadableParts_clean (dir : Directory Name β) :
    unreadableParts codec (clean codec dir) = [] := by
  unfold unreadableParts
  rw [foundParts_clean, filter_filter]
  refine filter_eq_nil_iff.2 fun e _ => ?_
  cases codec.read e.2 <;> simp

theorem exists_of_salvaged_parts {dir' : Directory Name β}
    (h : (salvageDay codec day).day.parts.get? name = some dir') :
    ∃ dir, day.parts.get? name = some dir ∧ dir' = clean codec dir := by
  obtain ⟨hall, hspares⟩ := consolidateAll_spec codec day
  rw [salvageDay_parts] at h
  cases hdir : day.parts.get? name with
  | none =>
    rw [hspares.parts name (notMem_names hdir), hdir] at h
    cases h
  | some dir =>
    rw [(hall name dir hdir).parts] at h
    exact ⟨dir, rfl, (Option.some.inj h).symm⟩

theorem settled_salvageDay (day : DayFiles β) : Settled codec (salvageDay codec day).day := by
  obtain ⟨hall, -⟩ := consolidateAll_spec codec day
  have hfound : ∀ dir : Directory Name β, foundParts (clean codec dir) ≠ [] →
      foundParts dir ≠ [] := by
    intro dir hne hnil
    rw [foundParts_clean, hnil] at hne
    exact hne rfl
  refine ⟨fun inst hinst => ?_, fun inst hinst hne => ?_, fun inst hinst hne => ?_,
    fun file hfile hread => ?_⟩
  · obtain ⟨dir, -, heq⟩ := exists_of_salvaged_parts (Directory.get?_eq_some.2 hinst)
    rw [heq, unreadableParts_clean]
  · obtain ⟨dir, hdir, heq⟩ := exists_of_salvaged_parts (Directory.get?_eq_some.2 hinst)
    rw [heq] at hne ⊢
    rw [salvageDay_final, (hall _ dir hdir).final, if_neg (hfound dir hne), readableParts_clean]
  · obtain ⟨dir, hdir, heq⟩ := exists_of_salvaged_parts (Directory.get?_eq_some.2 hinst)
    rw [heq] at hne
    have htmp := (hall _ dir hdir).tmp
    rw [if_neg (hfound dir hne)] at htmp
    rw [salvageDay_eq, quarantineTmp_other _ fun file hfile _ hname => ?_, htmp]
    have hmem := (mem_tmpFiles.1 hfile).1
    rw [← hname, htmp] at hmem
    cases hmem
  · obtain ⟨hmem, htmp⟩ := mem_tmpFiles.1 hfile
    rw [salvageDay_eq] at hmem
    by_cases hex : ∃ f ∈ tmpFiles (consolidateAll codec day).day,
        codec.read f.2 = none ∧ file.1 = f.1
    · obtain ⟨f, hf, hfread, heq⟩ := hex
      rw [heq, (quarantineTmp_moves (tmpFiles_sorted _) hf hfread).1] at hmem
      cases hmem
    · rw [quarantineTmp_other _ fun f hf hfread heq => hex ⟨f, hf, hfread, heq⟩] at hmem
      exact hex ⟨file, mem_tmpFiles.2 ⟨hmem, htmp⟩, hread, rfl⟩

structure Salvaged (codec : Codec β ρ) (day day' : DayFiles β) : Prop where
  /-- With part files: the readable ones, in the order of their names. -/
  merged : ∀ name dir, day.parts.get? name = some dir → foundParts dir ≠ [] →
    day'.top.get? (finalName name) = some (codec.write (readableParts codec dir).flatten)
  /-- Without: the daily file as it was. -/
  kept : ∀ name, NoParts day name →
    day'.top.get? (finalName name) = day.top.get? (finalName name)
  /-- Unreadable parts leave the directory of the parts, which keeps all its other files. -/
  parts : ∀ name dir, day.parts.get? name = some dir → ∃ dir', day'.parts.get? name = some dir' ∧
    ∀ file, dir'.get? file
      = (dir.get? file).filter fun bytes => !(isPartName file && (codec.read bytes).isNone)
  moved : ∀ name dir part bytes, day.parts.get? name = some dir → isPartName part = true →
    dir.get? part = some bytes → codec.read bytes = none →
    day'.corrupt.get? (partPath name part) = some bytes
  strayMoved : ∀ name bytes, NoParts day name → day.top.get? (tmpName name) = some bytes →
    codec.read bytes = none → day'.top.get? (tmpName name) = none
      ∧ day'.corrupt.get? [tmpName name] = some bytes
  strayKept : ∀ name bytes, NoParts day name → day.top.get? (tmpName name) = some bytes →
    codec.read bytes ≠ none → day'.top.get? (tmpName name) = some bytes
  again : (salvageDay codec day').day = day'

/-- Every crashed day is salvaged so, and a second run changes no data file. -/
theorem salvaged_salvageDay (codec : Codec β ρ) (day : DayFiles β) :
    Salvaged codec day (salvageDay codec day).day := by
  obtain ⟨hall, -⟩ := consolidateAll_spec codec day
  refine ⟨fun name dir hdir hne => ?_, fun name hnone => ?_, fun name dir hdir => ?_,
    fun name dir part bytes hdir hname hpart hread => ?_,
    fun name bytes hnone htmp hread => ?_, fun name bytes hnone htmp hread => ?_,
    (settled_salvageDay day).salvageDay⟩
  · rw [salvageDay_final, (hall name dir hdir).final, if_neg hne]
  · rw [salvageDay_final, (consolidateAll_noParts codec hnone).1]
  · refine ⟨clean codec dir, ?_, fun file => Directory.get?_restrict⟩
    rw [salvageDay_parts, (hall name dir hdir).parts]
  · have hmem : (part, bytes) ∈ unreadableParts codec dir :=
      mem_unreadableParts.2 ⟨Directory.get?_eq_some.1 hpart, hname, hread⟩
    rw [salvageDay_eq, quarantineTmp_corrupt_other, (hall name dir hdir).moved _ hmem]
    intro file _ heq
    simp [partPath] at heq
  · rw [← (consolidateAll_noParts codec hnone).2] at htmp
    have hmem : (tmpName name, bytes) ∈ tmpFiles (consolidateAll codec day).day :=
      mem_tmpFiles.2 ⟨htmp, isTmpName_tmpName name⟩
    exact quarantineTmp_moves (tmpFiles_sorted _) hmem hread
  · rw [← (consolidateAll_noParts codec hnone).2] at htmp
    rw [salvageDay_eq, quarantineTmp_other _ fun file hfile hnone heq => ?_, htmp]
    have hfile' := (mem_tmpFiles.1 hfile).1
    rw [← heq, htmp, Option.some.injEq] at hfile'
    exact hread (hfile' ▸ hnone)

end Day

def rowsOf (codec : Codec β ρ) (file : Option β) : List ρ := (file.bind codec.read).getD []

/-- Every row of the readable parts, stray temporary file and earlier daily file. -/
def HoldsEveryRow (codec : Codec β ρ) (day : DayFiles β) : Prop :=
  ∀ name row,
    (row ∈ ((day.parts.get? name).map fun dir => (readableParts codec dir).flatten).getD []
      ∨ row ∈ rowsOf codec (day.top.get? (tmpName name))
      ∨ row ∈ rowsOf codec (day.top.get? (finalName name))) →
    row ∈ rowsOf codec ((salvageDay codec day).day.top.get? (finalName name))

/-- Unreadable parts and temporary files, beside the daily files or the parts, are moved. -/
def MovesUnreadable (codec : Codec β ρ) (day : DayFiles β) : Prop :=
  (∀ name dir file bytes, day.parts.get? name = some dir → dir.get? file = some bytes →
      (isPartName file = true ∨ isTmpName file = true) → codec.read bytes = none →
      (salvageDay codec day).day.corrupt.get? (partPath name file) = some bytes)
    ∧ ∀ file bytes, day.top.get? file = some bytes → isTmpName file = true →
      codec.read bytes = none → (salvageDay codec day).day.corrupt.get? [file] = some bytes

/-- Files that are a list of rows, or unreadable. -/
def plain : Codec (Option (List ℕ)) ℕ := ⟨id, some, fun _ => rfl⟩

def partsOfX (files : Directory Name (Option (List ℕ))) :
    Directory Name (Directory Name (Option (List ℕ))) :=
  Directory.empty.put "X_1".toList files

/-- One readable part of `X`, and a file beside the daily files. -/
def dayWith (file : String) (content : Option (List ℕ)) : DayFiles (Option (List ℕ)) where
  top := Directory.empty.put file.toList content
  parts := partsOfX (Directory.empty.put "part-0001.parquet".toList (some [2]))
  corrupt := .empty

/-- A stray temporary file and no parts. -/
def dayOfTmp : DayFiles (Option (List ℕ)) where
  top := Directory.empty.put "X_1.parquet.tmp".toList (some [3])
  parts := .empty
  corrupt := .empty

/-- A part's own temporary file, unreadable. -/
def dayOfPartTmp : DayFiles (Option (List ℕ)) where
  top := .empty
  parts := partsOfX (Directory.empty.put "part-0002.parquet.tmp".toList none)
  corrupt := .empty

/-- An earlier daily file is overwritten, a readable stray merged into none, and a part's temporary
file stays. -/
theorem salvage_drops_rows_and_strays : ¬ HoldsEveryRow plain (dayWith "X_1.parquet" (some [1]))
      ∧ ¬ HoldsEveryRow plain dayOfTmp
      ∧ ¬ MovesUnreadable plain (dayWith "X_1.parquet.tmp" none)
      ∧ ¬ MovesUnreadable plain dayOfPartTmp := by
  refine ⟨fun h => ?_, fun h => ?_, fun h => ?_, fun h => ?_⟩
  · exact absurd (h "X_1".toList 1 (.inr (.inr (by decide +kernel)))) (by decide +kernel)
  · exact absurd (h "X_1".toList 3 (.inr (.inl (by decide +kernel)))) (by decide +kernel)
  · exact absurd (h.2 "X_1.parquet.tmp".toList none (by decide +kernel) (by decide +kernel) rfl)
      (by decide +kernel)
  · exact absurd (h.1 "X_1".toList _ "part-0002.parquet.tmp".toList none
      (show dayOfPartTmp.parts.get? "X_1".toList
        = some (Directory.empty.put "part-0002.parquet.tmp".toList none) by decide +kernel)
      (by decide +kernel) (.inr (by decide +kernel)) rfl) (by decide +kernel)

end TradingBridge.Orderflow.Salvage
