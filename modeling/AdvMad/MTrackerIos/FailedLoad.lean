import AdvMad.MTrackerIos.App

/-!
# A launch whose load fails

`loadData` throws when the written file cannot be read or decoded; `viewDidLoad` prints the error
and the app goes on with an empty table, which the writers then put in place of the file.

* `FailedApp` — what the app looks like from then on: no records, so no row to choose and no metric
  to open, kept by every event (`failed_step`). A tap on Calculate traps.
* `failed_run_files` — the file after any run of such an app: untouched as long as no event of the
  run writes, the empty table from the first one on.
* `file_survives_iff` — the stored history survives the run exactly when none of its events writes,
  or when the file was that of an empty table to begin with.
-/

namespace AdvMad.MTrackerIos

open AdvMad.Found

variable {N Content : Type} [Arithmetic N]

/-- The app after a failed load: an empty table, an empty list of metrics, no metric open. -/
structure FailedApp (a : App) : Prop where
  allData : a.allData = []
  metricList : a.metricList.getD [] = []
  detail : a.detail = none
  addData : a.addData = none

/-- The device after a failed load: the app is as above, or has trapped. -/
def Failed (d : Device Content) : Prop :=
  match d.process with
  | .running a => FailedApp a
  | .trapped _ => True

/-- The files after one event of such an app. -/
def overwritten (env : Foundation N Content) (files : Files Content) (e : Event) : Files Content :=
  if e.writes then FitnessDataController.writeData env [] files else files

/-- A failed load leaves the app as it started. -/
theorem failed_launch {env : Foundation N Content} {readable macroDataLoads : Bool} {today : Day}
    {files : Files Content} {err : DataError}
    (hload : FitnessDataController.loadData env readable files = .error err) :
    Failed (Device.launch env readable macroDataLoads today files) := by
  have hstart : App.viewDidLoad env readable macroDataLoads today files = .ok .start := by
    unfold App.viewDidLoad
    rw [hload]
  unfold Device.launch Failed
  rw [hstart]
  exact ⟨rfl, rfl, rfl, rfl⟩

/-- **One event after a failed load** either traps or leaves the app as empty as it was. -/
theorem failed_handle (env : Foundation N Content) {a : App} {e : Event} (ha : FailedApp a)
    (he : a.Offers e) :
    (∃ a', a.handle env e = .ok a' ∧ FailedApp a') ∨ ∃ why, a.handle env e = .error why := by
  obtain ⟨hdata, hlist, hdetail, hadd⟩ := ha
  cases e with
  | calculate today => exact Or.inr ⟨_, App.setMacros_of_lt env today (by simp [hdata])⟩
  | showYourData =>
      refine Or.inl ⟨{ a with
        tab := .yourData
        metricList := some (a.metricList.getD (FitnessDataController.getMetrics a.allData)) },
        ?_, ?_⟩
      · simp only [App.handle, hdetail]
        rfl
      · refine ⟨hdata, ?_, hdetail, hadd⟩
        rw [hdata]
        exact hlist
  | showMacros => exact Or.inl ⟨_, rfl, hdata, hlist, hdetail, hadd⟩
  | chooseRow row =>
      -- no row is shown
      obtain ⟨-, -, hrow⟩ := he
      rw [hlist] at hrow
      exact absurd hrow (Nat.not_lt_zero row)
  | back => exact absurd hdetail he.2.1
  | openAdd => exact absurd hdetail he.2.1
  | save preparedData => exact absurd hadd he
  | cancel => exact absurd hadd he
  | delete row =>
      obtain ⟨-, -, hrow⟩ := he
      rw [hdetail] at hrow
      exact absurd hrow (Nat.not_lt_zero row)
  | resignActive => exact Or.inl ⟨_, rfl, hdata, hlist, hdetail, hadd⟩
  | relaunch readable macroDataLoads today => exact Or.inl ⟨_, rfl, hdata, hlist, hdetail, hadd⟩

/-- The same for the device: an event that writes puts the empty table in the file. -/
theorem failed_step {env : Foundation N Content} {d : Device Content} {e : Event} (hd : Failed d)
    (he : d.Offers e) (hlaunch : e.isRelaunch = false) :
    Failed (d.step env e) ∧ (d.step env e).files = overwritten env d.files e := by
  obtain ⟨a, hrun, hoffers⟩ := Device.running_of_offers he hlaunch
  have ha : FailedApp a := by
    unfold Failed at hd
    rwa [hrun] at hd
  rw [Device.step_running env hrun hlaunch]
  constructor
  · rcases failed_handle env ha hoffers with ⟨a', heq, ha'⟩ | ⟨why, heq⟩
    · rw [heq]
      exact ha'
    · rw [heq]
      trivial
  · unfold overwritten
    rw [ha.allData]

omit [Arithmetic N] in
/-- Many events that write leave what one leaves. -/
theorem foldl_overwritten (env : Foundation N Content) (files : Files Content)
    (events : List Event) :
    events.foldl (overwritten env) files =
      if ∀ e ∈ events, e.writes = false then files
      else FitnessDataController.writeData env [] files := by
  induction events generalizing files with
  | nil => simp
  | cons e events ih =>
      rw [List.foldl_cons, ih]
      cases hw : e.writes with
      | false => simp [overwritten, hw]
      | true => simp [overwritten, hw, FitnessDataController.writeData]

/-- **The file after a run on a failed load**: the empty table as soon as one event writes. -/
theorem failed_run_files {env : Foundation N Content} {d d' : Device Content} {events : List Event}
    (hd : Failed d) (hlegal : (Device.machine env).Legal d events)
    (hlaunch : ∀ e ∈ events, e.isRelaunch = false)
    (hrun : (Device.machine env).run d events = some d') :
    d'.files = if ∀ e ∈ events, e.writes = false then d.files
      else FitnessDataController.writeData env [] d.files := by
  rw [← foldl_overwritten]
  have hsteps := (Machine.each_and _ _ _ d events).mpr
    ⟨hlegal, Machine.each_of_forall (M := Device.machine env) d hlaunch⟩
  refine (Machine.run_foldl (R := fun d files => Failed d ∧ d.files = files) (overwritten env) ?_
    ⟨hd, rfl⟩ hsteps hrun).2
  rintro d _ e d₁ ⟨hd, rfl⟩ ⟨he, hlaunch⟩ hstep
  cases hstep
  exact failed_step hd he hlaunch

/-- **When the stored history survives a failed load.** For every content of the written file whose
load throws at launch and every run of the app after it: the run goes through, and the file holds at
its end what it held at launch exactly when no event of the run writes (no leaving of the list or of
a metric, no resign-active notification), or when it held an empty table all along. -/
theorem file_survives_iff (env : Foundation N Content) (content : Content)
    (bundled : Option Content) (readable macroDataLoads : Bool) (today : Day) (err : DataError)
    (hload : FitnessDataController.loadData env readable ⟨some content, bundled⟩ = .error err)
    (events : List Event) (hlaunch : ∀ e ∈ events, e.isRelaunch = false)
    (hlegal : (Device.machine env).Legal
      (Device.launch env readable macroDataLoads today ⟨some content, bundled⟩) events) :
    ∃ d', (Device.machine env).run
        (Device.launch env readable macroDataLoads today ⟨some content, bundled⟩) events = some d' ∧
      (d'.files.written = some content ↔
        (∀ e ∈ events, e.writes = false) ∨ content = env.coder.encode []) := by
  obtain ⟨d', hrun, -⟩ := Machine.run_progress (M := Device.machine env) (I := fun _ => True)
    (fun d e _ _ => ⟨_, rfl, trivial⟩) trivial hlegal
  refine ⟨d', hrun, ?_⟩
  rw [failed_run_files (failed_launch hload) hlegal hlaunch hrun]
  show (if ∀ e ∈ events, e.writes = false then _ else _ : Files Content).written = some content ↔ _
  split
  · next hquiet => exact iff_of_true rfl (Or.inl hquiet)
  · next hwrites =>
      rw [or_iff_right hwrites]
      show some (env.coder.encode []) = some content ↔ _
      rw [Option.some_inj]
      exact eq_comm

/-- A look at both tabs, the app put away on the one, and a calculation on the other. -/
def lookedAround : List Event :=
  [.showYourData, .showMacros, .showYourData, .resignActive, .showMacros, .calculate shownDay]

/-- That run, on a file that could not be read at launch. -/
theorem file_survives_iff_unreadable :
    ∃ d', (Device.machine plain).run (Device.launch plain false true shownDay
        ⟨some (.inr dataPlist), none⟩) lookedAround = some d' ∧
      (d'.files.written = some (.inr dataPlist) ↔
        (∀ e ∈ lookedAround, e.writes = false) ∨
          (.inr dataPlist : String ⊕ List FitnessDataModel) = plain.coder.encode []) :=
  file_survives_iff plain (.inr dataPlist) none false true shownDay
    .CouldNotDecode rfl lookedAround (by decide) (by decide)

/-- An undecodable file is gone after one resign-active notification, and a file of one weight that
could not be read once is gone after a look at the Your Data list. -/
theorem file_destroyed :
    (FitnessDataController.loadData plain true ⟨some (.inl "no plist"), some (.inr dataPlist)⟩ =
        .error .CouldNotDecode ∧
      (Device.machine plain).Legal (Device.launch plain true true shownDay
        ⟨some (.inl "no plist"), some (.inr dataPlist)⟩) [.resignActive] ∧
      ∃ d', (Device.machine plain).run
          (Device.launch plain true true shownDay
            ⟨some (.inl "no plist"), some (.inr dataPlist)⟩) [.resignActive] = some d' ∧
        d'.files.written ≠ some (.inl "no plist")) ∧
    ∃ allData, FitnessDataController.addDataForMetric dataPlist FitnessDataController.weight
        ⟨"2020-03-08", "180"⟩ = some allData ∧
      (Device.machine plain).Legal (Device.launch plain false true shownDay
        ⟨some (.inr allData), some (.inr dataPlist)⟩) [.showYourData, .showMacros] ∧
      ∃ d', (Device.machine plain).run
          (Device.launch plain false true shownDay
            ⟨some (.inr allData), some (.inr dataPlist)⟩) [.showYourData, .showMacros] = some d' ∧
        d'.files.written ≠ some (.inr allData) := by
  refine ⟨⟨rfl, by decide, _, rfl, by decide⟩, _, rfl, by decide, _, rfl, by decide⟩

end AdvMad.MTrackerIos
