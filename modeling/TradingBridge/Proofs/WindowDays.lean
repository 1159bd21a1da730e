import TradingBridge.Orderflow.Research

/-!
# Every day of a window is accounted for

A day whose probe, or whose assessment once it is reached, raises ends the run without a manifest,
and a cleanup that raises leaves its day on disk for the next restore.
-/

namespace TradingBridge.Orderflow.Research

section Conditions

variable (b : Seams)

/-- The day is not here, so its restore is started. -/
def Seams.Starts : Prop := ∃ p, b.probe = .ok p ∧ p.present = false

def Seams.Restores : Prop := b.Starts ∧ ∃ r, b.restore = .ok r ∧ r.ok = true

def Seams.Assesses : Prop :=
  (∃ p, b.probe = .ok p ∧ p.present = true ∧ p.complete = true) ∨ b.Restores

/-- No function that the day comes to raises, its restore and cleanup apart. -/
def Seams.Quiet : Prop :=
  b.probe.isOk ∧ (b.Assesses → b.assess.isOk ∧ b.process.isOk)

/-- The day is restored and its cleanup raises. -/
def Seams.Stays : Prop := b.Restores ∧ b.cleanup.isOk = false

end Conditions

/-- Every restore starts with nothing on disk. -/
def oneAtATime : List String → List Call → Bool
  | _, [] => true
  | disk, .restore day restored :: calls =>
    disk.isEmpty && oneAtATime (if restored then day :: disk else disk) calls
  | disk, .cleanup day done :: calls =>
    oneAtATime (if done then disk.filter (· ≠ day) else disk) calls

/-- A list that `build_window` does not refuse. -/
structure FrozenDays where
  days : List (String × Seams)
  explicit : ¬ (days = [] ∨ ∃ d ∈ days, d.1.toList.all Char.isWhitespace)

/-- What a day does to the disk, and when it gets its entry. -/
theorem buildOne_spec (dataRoot restoreRoot day : String) (b : Seams) :
    let built := buildOne dataRoot restoreRoot day b
    (built.2.isOk ↔ b.Quiet) ∧ (∀ e, built.2 = .ok e → e.day = day) ∧
    (¬ b.Starts ∧ built.1 = [] ∨
      b.Starts ∧ ¬ b.Restores ∧ built.1 = [.restore day false] ∨
      b.Restores ∧ built.1 = [.restore day true, .cleanup day b.cleanup.isOk]) := by
  obtain ⟨probe, restore, assess, process, cleanup⟩ := b
  rcases probe with e | ⟨present, complete, reason⟩
  · simp [buildOne, Seams.Quiet, Seams.Starts, Except.toBool]
  cases present <;> cases complete <;> rcases restore with e | ⟨ok, refused, why⟩ <;>
    try cases ok
  all_goals
    cases assess <;> cases process <;>
    simp [buildOne, Seams.Quiet, Seams.Starts, Seams.Restores, Seams.Assesses, Seams.assessed,
      Except.toBool, Except.map, bind, Except.bind, pure, Except.pure]

theorem buildEntries_spec (dataRoot restoreRoot : String) (days : List (String × Seams)) :
    let built := buildEntries dataRoot restoreRoot days
    (built.2.isOk ↔ ∀ d ∈ days, d.2.Quiet) ∧ ∀ entries, built.2 = .ok entries →
      entries.map DayEntry.day = days.map Prod.fst ∧
      built.1 = days.flatMap fun d => (buildOne dataRoot restoreRoot d.1 d.2).1 := by
  induction days with
  | nil => simp [buildEntries, Except.toBool]
  | cons d days ih =>
    obtain ⟨day, b⟩ := d
    obtain ⟨hquiet, hday, -⟩ := buildOne_spec dataRoot restoreRoot day b
    rcases hone : buildOne dataRoot restoreRoot day b with ⟨calls, e | entry⟩
    · simp [hone, Except.toBool] at hquiet
      simp [buildEntries, hone, hquiet, Except.toBool]
    · simp [hone, Except.toBool] at hquiet hday
      simp only [buildEntries, hone, List.forall_mem_cons, hquiet, true_and]
      rcases hmore : buildEntries dataRoot restoreRoot days with ⟨more, e | entries⟩ <;>
        simp only [hmore] at ih
      · exact ⟨ih.1, nofun⟩
      · refine ⟨ih.1, ?_⟩
        rintro _ ⟨⟩
        obtain ⟨hdays, rfl⟩ := ih.2 entries rfl
        simp [hdays, hday, hone]

theorem oneAtATime_iff (dataRoot restoreRoot : String) (disk : List String)
    (days : List (String × Seams)) :
    oneAtATime disk (days.flatMap fun d => (buildOne dataRoot restoreRoot d.1 d.2).1) ↔
      (disk = [] ∨ ∀ d ∈ days, ¬ d.2.Starts) ∧
        days.Pairwise fun a b => a.2.Stays → ¬ b.2.Starts := by
  induction days generalizing disk with
  | nil => simp [oneAtATime]
  | cons d days ih =>
    rw [List.flatMap_cons]
    rcases (buildOne_spec dataRoot restoreRoot d.1 d.2).2.2 with
      ⟨hno, hcalls⟩ | ⟨hstart, hno, hcalls⟩ | ⟨hrestored, hcalls⟩ <;> rw [hcalls]
    · have hstays : ¬ d.2.Stays := fun h => hno h.1.1
      simp [ih, hno, hstays]
    · have hstays : ¬ d.2.Stays := fun h => hno h.1
      cases disk <;> simp [oneAtATime, ih, hstart, hstays]
    · have hstart := hrestored.1
      cases hok : d.2.cleanup.isOk <;> cases disk <;>
        simp [oneAtATime, ih, Seams.Stays, hrestored, hstart, hok]

/-- The run of a frozen list gives a manifest of all its days, in their order and each ready or
excluded, and restores one day at a time, exactly if no probe raises, no assessment that is come to
raises, and no restore is started after a day whose cleanup raised. -/
theorem window_accounts_iff (dataRoot restoreRoot : String) (w : FrozenDays) :
    ((∃ m, (buildWindow dataRoot restoreRoot w.days).2 = .ok m ∧
        m.days.map DayEntry.day = w.days.map Prod.fst ∧
        (m.ready ++ m.excluded.map Prod.fst).Perm (w.days.map Prod.fst)) ∧
      oneAtATime [] (buildWindow dataRoot restoreRoot w.days).1) ↔
    (∀ d ∈ w.days, d.2.Quiet) ∧ w.days.Pairwise fun a b => a.2.Stays → ¬ b.2.Starts := by
  obtain ⟨hquiet, hentries⟩ := buildEntries_spec dataRoot restoreRoot w.days
  simp only [buildWindow, if_neg w.explicit]
  rcases hrun : buildEntries dataRoot restoreRoot w.days with ⟨calls, e | entries⟩
  · simp [hrun, Except.toBool] at hquiet
    simp only [Except.map, reduceCtorEq, false_and, exists_false, false_iff]
    rintro ⟨h, -⟩
    obtain ⟨day, b, hd, hb⟩ := hquiet
    exact hb (h _ hd)
  · simp [hrun, Except.toBool] at hquiet hentries
    obtain ⟨hdays, rfl⟩ := hentries
    rw [oneAtATime_iff]
    refine ⟨fun h => ⟨fun d hd => hquiet d.1 d.2 hd, h.2.2⟩,
      fun h => ⟨⟨_, rfl, hdays, ?_⟩, .inl rfl, h.2⟩⟩
    rw [← hdays]
    simpa [manifest, Function.comp_def] using
      (List.filter_append_perm (·.status.ready) entries).map DayEntry.day

/-- A local day whose assessment raises leaves no manifest, and after a cleanup that raises the
next day is restored beside the first. -/
theorem day_ends_window : let e : Raised := ⟨"OSError", "signals.parquet"⟩
    (buildWindow "" "restore" [("2026-07-14",
      ⟨.ok ⟨true, true, ""⟩, .error e, .error e, .ok (), .ok ()⟩)]).2.isOk = false ∧
    oneAtATime [] (buildWindow "" "restore" (["2026-07-13", "2026-07-14"].map fun day =>
      (day, ⟨.ok ⟨false, false, ""⟩, .ok ⟨true, "", ""⟩, .ok ⟨some 1, ""⟩, .ok (), .error e⟩))).1 =
        false := by
  decide +kernel

end TradingBridge.Orderflow.Research
