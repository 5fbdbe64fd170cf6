import AdvMad.MTrackerIos.Diary
import AdvMad.Found.Journal

/-!
# The history the table keeps

An observer of a run keeps a journal for each metric: every entry ever saved under its row, marked
once it is deleted. The journals never see the table, the screens or the file. The app keeps no such
record; what it keeps is, after any run, the entries of the journals not deleted since.

* `History` — the journals, the metric open, and whether an edit has not been written yet.
* `Observed.machine` — the device and its observer; a relaunch is a step when nothing unwritten
  would be lost and the load succeeds.
* `Faithful` — the invariant: the running app shows the history's diary (`Sound`), and the file
  holds its table whenever nothing is unwritten. Kept by every step (`faithful_step`).
* `history_law` — what a reader of the table, of the metric screen and of the five getters gets in
  every state of every run.
-/

namespace AdvMad.MTrackerIos

open AdvMad.Found

variable {N Content : Type} [Arithmetic N]

/-- What an observer of a run has written down. -/
structure History where
  journal : Metric → Journal FitnessDataDetail
  /-- The metric that is open. -/
  opened : Option Metric
  /-- An entry has been saved or deleted since the table was last written. -/
  unsaved : Bool

namespace History

/-- The record at a launch that loads these lists. -/
def start (stored : Metric → List FitnessDataDetail) : History :=
  ⟨fun m => .ofList (stored m), none, false⟩

/-- Record something about the metric that is open. -/
def record (h : History) (g : Journal FitnessDataDetail → Journal FitnessDataDetail) : History :=
  match h.opened with
  | some m => { h with journal := Function.update h.journal m (g (h.journal m)), unsaved := true }
  | none => h

/-- What the observer writes down about an event. -/
def handle (h : History) : Event → History
  | .chooseRow row => { h with opened := Metric.all[row]?, unsaved := false }
  | .back => { h with opened := none, unsaved := false }
  | .showMacros => { h with unsaved := false }
  | .resignActive => { h with unsaved := false }
  | .save preparedData => h.record (·.enter preparedData)
  | .delete row => h.record (·.delete row)
  | .relaunch _ _ _ => { h with opened := none }
  | _ => h

/-- The diary of the entries that are live. -/
def diary (h : History) : Diary := ⟨fun m => (h.journal m).live, h.opened⟩

/-- At the start the diary has the stored entries. -/
theorem diary_start (stored : Metric → List FitnessDataDetail) :
    (start stored).diary = ⟨stored, none⟩ := by
  simp [start, diary]

/-- An edit of the journal is one of the diary. -/
theorem diary_record (h : History) {g : Journal FitnessDataDetail → Journal FitnessDataDetail}
    {k : List FitnessDataDetail → List FitnessDataDetail} (hg : ∀ j, (g j).live = k j.live) :
    (h.record g).diary = h.diary.edit k := by
  obtain ⟨journal, opened, unsaved⟩ := h
  cases opened with
  | none => rfl
  | some m =>
      simp only [record, diary, Diary.edit, Diary.mk.injEq, and_true]
      funext m'
      rw [Function.apply_update fun _ j => Journal.live j, hg]

/-- The journals follow the diary. -/
theorem diary_handle (h : History) (e : Event) : (h.handle e).diary = h.diary.handle e := by
  cases e with
  | save preparedData => exact h.diary_record (k := (preparedData :: ·)) fun j => rfl
  | delete row => exact h.diary_record (k := (·.eraseIdx row)) fun j => j.live_delete row
  | _ => rfl

/-- Where nothing is unwritten after an event, it changed no journal, and it wrote the table or
nothing was unwritten before it. -/
theorem journal_of_saved {h : History} {e : Event} (hsaved : (h.handle e).unsaved = false) :
    (h.handle e).journal = h.journal ∧ (e.writes = true ∨ h.unsaved = false) := by
  have hrecord : ∀ g, (h.record g).unsaved = false →
      (h.record g).journal = h.journal ∧ h.unsaved = false := by
    intro g
    unfold record
    cases h.opened with
    | none => exact fun hs => ⟨rfl, hs⟩
    | some m => exact fun hs => (by cases hs)
  cases e with
  | save preparedData => exact ⟨(hrecord _ hsaved).1, Or.inr (hrecord _ hsaved).2⟩
  | delete row => exact ⟨(hrecord _ hsaved).1, Or.inr (hrecord _ hsaved).2⟩
  | chooseRow row => exact ⟨rfl, Or.inl rfl⟩
  | back => exact ⟨rfl, Or.inl rfl⟩
  | showMacros => exact ⟨rfl, Or.inl rfl⟩
  | resignActive => exact ⟨rfl, Or.inl rfl⟩
  | calculate today => exact ⟨rfl, Or.inr hsaved⟩
  | showYourData => exact ⟨rfl, Or.inr hsaved⟩
  | openAdd => exact ⟨rfl, Or.inr hsaved⟩
  | cancel => exact ⟨rfl, Or.inr hsaved⟩
  | relaunch readable macroDataLoads today => exact ⟨rfl, Or.inr hsaved⟩

end History

/-! ## The device and its observer -/

/-- A device under observation. -/
structure Observed (Content : Type) where
  device : Device Content
  history : History

namespace Observed

/-- A launch of a device whose files hold these lists. -/
def launch (env : Foundation N Content) (readable macroDataLoads : Bool) (today : Day)
    (files : Files Content) (stored : Metric → List FitnessDataDetail) : Observed Content :=
  ⟨.launch env readable macroDataLoads today files, .start stored⟩

/-- A relaunch comes after a write of what was edited, and its load succeeds. -/
def Relaunches (env : Foundation N Content) (s : Observed Content) : Event → Prop
  | .relaunch readable _ _ => s.history.unsaved = false ∧
      (FitnessDataController.loadData env readable s.device.files).isOk = true
  | _ => True

instance decidableRelaunches (env : Foundation N Content) (s : Observed Content) :
    (e : Event) → Decidable (s.Relaunches env e)
  | .relaunch _ _ _ => inferInstanceAs (Decidable (_ ∧ _))
  | .calculate _ | .showYourData | .showMacros | .chooseRow _ | .back | .openAdd | .save _
  | .cancel | .delete _ | .resignActive => inferInstanceAs (Decidable True)

/-- The device goes its way and the observer writes it down. -/
def machine (env : Foundation N Content) : Machine (Observed Content) Event where
  step s e := some ⟨s.device.step env e, s.history.handle e⟩
  enabled s e := s.device.Offers e ∧ s.Relaunches env e

instance (env : Foundation N Content) (s : Observed Content) (e : Event) :
    Decidable ((machine env).enabled s e) :=
  inferInstanceAs (Decidable (s.device.Offers e ∧ s.Relaunches env e))

end Observed

/-- **The invariant.** The app that runs shows the diary of the history; the process ends on no trap
other than an amount that fits no integer; and what nothing unwritten is missing from is in the
file. -/
structure Faithful (env : Foundation N Content) (s : Observed Content) : Prop where
  process : (∃ a, s.device.process = .running a ∧ Sound a s.history.diary) ∨
    s.device.process = .trapped .intConversion
  file : s.history.unsaved = false →
    FitnessDataController.loadData env true s.device.files = .ok (tableOf s.history.diary.lists)

variable {env : Foundation N Content}

omit [Arithmetic N] in
/-- The app that runs shows the diary of the history. -/
theorem Faithful.sound {s : Observed Content} {a : App} (hs : Faithful env s)
    (hrun : s.device.process = .running a) : Sound a s.history.diary := by
  rcases hs.process with ⟨a', hrun', ha'⟩ | htrap
  · obtain rfl : a = a' := by simpa using hrun.symm.trans hrun'
    exact ha'
  · exact absurd (hrun.symm.trans htrap) (by simp)

omit [Arithmetic N] in
/-- A file that is not readable is not loaded. -/
theorem readable_of_isOk {readable : Bool} {files : Files Content}
    (h : (FitnessDataController.loadData env readable files).isOk = true) : readable = true := by
  cases readable with
  | true => rfl
  | false =>
      unfold FitnessDataController.loadData at h
      cases hfile : files.written.or files.bundled <;> rw [hfile] at h <;> cases h

/-- A launch on files holding a table of the seven metrics is faithful to it. -/
theorem faithful_launch {readable : Bool} {files : Files Content}
    {stored : Metric → List FitnessDataDetail}
    (hload : FitnessDataController.loadData env readable files = .ok (tableOf stored))
    (macroDataLoads : Bool) (today : Day) :
    Faithful env (.launch env readable macroDataLoads today files stored) := by
  have hok : (FitnessDataController.loadData env readable files).isOk = true := by
    rw [hload]
    rfl
  have hreadable := readable_of_isOk hok
  refine ⟨?_, fun _ => ?_⟩
  · unfold Observed.launch Device.launch
    rw [History.diary_start]
    rcases sound_launch hload macroDataLoads today with ⟨a, heq, ha⟩ | heq
    · exact Or.inl ⟨a, by rw [heq]; rfl, ha⟩
    · exact Or.inr (by rw [heq]; rfl)
  · rw [hreadable] at hload
    show _ = Except.ok (tableOf (History.start stored).diary.lists)
    rw [History.diary_start]
    exact hload

/-- **Step lemma**: every step of a faithful device is followed by a faithful state. -/
theorem faithful_step {s : Observed Content} {e : Event} (hs : Faithful env s)
    (he : (Observed.machine env).enabled s e) :
    Faithful env ⟨s.device.step env e, s.history.handle e⟩ := by
  obtain ⟨hoffers, hrelaunch⟩ := he
  cases hlaunch : e.isRelaunch with
  | true =>
      cases e with
      | relaunch readable macroDataLoads today =>
          obtain ⟨hsaved, hok⟩ := hrelaunch
          obtain rfl := readable_of_isOk hok
          rw [Device.step_relaunch]
          refine ⟨?_, fun _ => hs.file hsaved⟩
          rcases sound_launch (hs.file hsaved) macroDataLoads today with ⟨a, heq, ha⟩ | heq
          · exact Or.inl ⟨a, by unfold Device.launch; rw [heq]; rfl, ha⟩
          · exact Or.inr (by unfold Device.launch; rw [heq]; rfl)
      | _ => cases hlaunch
  | false =>
      obtain ⟨a, hrun, hoffers⟩ := Device.running_of_offers hoffers hlaunch
      have ha := hs.sound hrun
      rw [Device.step_running env hrun hlaunch]
      constructor
      · rw [History.diary_handle]
        rcases ha.handle env hoffers hlaunch with ⟨a', heq, ha'⟩ | ⟨-, heq⟩
        · exact Or.inl ⟨a', by rw [heq]; rfl, ha'⟩
        · exact Or.inr (by rw [heq]; rfl)
      · intro hsaved
        obtain ⟨hjournal, hwritten⟩ := History.journal_of_saved hsaved
        have hlists : (s.history.handle e).diary.lists = s.history.diary.lists := by
          unfold History.diary
          rw [hjournal]
        rw [hlists]
        cases hwrites : e.writes with
        | true =>
            rw [if_pos rfl, ← ha.allData]
            exact FitnessDataController.loadData_writeData env _ _
        | false =>
            rw [if_neg (by simp)]
            exact hs.file (hwritten.resolve_left (by simp [hwrites]))

/-! ## What a reader gets -/

/-- What the app shows of a history. -/
structure HistoryLaw (env : Foundation N Content) (a : App) (h : History) : Prop where
  /-- The records are those of `Data.plist`, in its order. -/
  types : FitnessDataController.getMetrics a.allData = FitnessDataController.getMetrics dataPlist
  /-- The list of a metric is what was saved under its row and not deleted since, newest first. -/
  lists : ∀ m : Metric,
    FitnessDataController.getDataForMetric a.allData m.row = some (h.journal m).live
  /-- The metric screen is that of the metric chosen and displays its whole list. -/
  displayed : ∀ d, a.detail = some d →
    (∃ m, h.opened = some m ∧ d.selectedMetric = m.row ∧ d.selectedMetricTitle = m.name) ∧
      FitnessDataController.getDataForMetric a.allData d.selectedMetric = some d.dataList
  /-- The getters read the newest entry of the metric they are named after. -/
  weight : MacroDataController.getWeight env a.allData =
    MacroDataController.newestOf (MacroDataController.parseWeight env) .WeightDataNotAvailable
      (h.journal .weight).live
  height : MacroDataController.getHeight env a.allData =
    MacroDataController.newestOf (MacroDataController.parseHeight env) .HeightDataNotAvailable
      (h.journal .height).live
  bodyFatPercentage : MacroDataController.getBodyFatPercentage env a.allData =
    MacroDataController.newestOf env.double .BFPDataNotAvailable (h.journal .bodyFatPercentage).live
  activityLevel : MacroDataController.getActivityLevel env a.allData =
    MacroDataController.newestOf env.double .ActivityLevelNotAvailable
      (h.journal .activityLevel).live
  age : ∀ today, MacroDataController.getAge env today a.allData =
    MacroDataController.newestOf (MacroDataController.parseAge env today) .BirthdayNotAvailable
      (h.journal .birthday).live

/-- What one event does to the lists, read off the app before and after it. -/
structure EditLaw (a a' : App) (e : Event) : Prop where
  /-- The lists of the metrics that are not open stay. -/
  elsewhere : ∀ m : Metric, (∀ d, a.detail = some d → d.selectedMetric ≠ m.row) →
    FitnessDataController.getDataForMetric a'.allData m.row =
      FitnessDataController.getDataForMetric a.allData m.row
  /-- A deletion takes out the row that is displayed. -/
  deleted : ∀ row d, e = .delete row → a.detail = some d →
    FitnessDataController.getDataForMetric a'.allData d.selectedMetric =
      some (d.dataList.eraseIdx row)

/-- An app that shows the diary of a history keeps the law. -/
theorem historyLaw_of_sound {a : App} {h : History} (ha : Sound a h.diary) :
    HistoryLaw env a h where
  types := by
    rw [ha.allData, dataPlist_eq]
    rfl
  lists m := ha.getDataForMetric_eq m
  displayed d hd := by
    rw [ha.detail] at hd
    obtain ⟨m, hm, rfl⟩ := Option.map_eq_some_iff.mp hd
    exact ⟨⟨m, hm, rfl, rfl⟩, ha.getDataForMetric_eq m⟩
  weight := by
    rw [ha.allData]
    exact MacroDataController.readNewest_tableOf _ _ _ .weight
  height := by
    rw [ha.allData]
    exact MacroDataController.readNewest_tableOf _ _ _ .height
  bodyFatPercentage := by
    rw [ha.allData]
    exact MacroDataController.readNewest_tableOf _ _ _ .bodyFatPercentage
  activityLevel := by
    rw [ha.allData]
    exact MacroDataController.readNewest_tableOf _ _ _ .activityLevel
  age today := by
    rw [ha.allData]
    exact MacroDataController.readNewest_tableOf _ _ _ .birthday

/-- An event edits the list of the metric open only. -/
theorem Diary.handle_lists_of_ne {y : Diary} {m : Metric} (hm : y.opened ≠ some m) (e : Event) :
    (y.handle e).lists m = y.lists m := by
  have hedit : ∀ g, (y.edit g).lists m = y.lists m := by
    intro g
    cases hopened : y.opened with
    | none => rw [Diary.edit_of_none hopened]
    | some m' =>
        have hne : m ≠ m' := by
          rintro rfl
          exact hm hopened
        rw [Diary.edit_of_opened hopened]
        exact Function.update_of_ne hne _ _
  cases e with
  | save preparedData => exact hedit _
  | delete row => exact hedit _
  | _ => rfl

/-- Two apps that show a diary before and after an event. -/
theorem editLaw_of_sound {a a' : App} {y : Diary} {e : Event} (ha : Sound a y)
    (ha' : Sound a' (y.handle e)) : EditLaw a a' e where
  elsewhere m hm := by
    have hne : y.opened ≠ some m := fun hopened => hm _ (ha.detail_eq hopened) rfl
    rw [ha.getDataForMetric_eq, ha'.getDataForMetric_eq, Diary.handle_lists_of_ne hne]
  deleted row d he hd := by
    subst he
    rw [ha.detail] at hd
    obtain ⟨m, hm, rfl⟩ := Option.map_eq_some_iff.mp hd
    rw [ha'.getDataForMetric_eq, Diary.handle, Diary.edit_of_opened hm]
    exact congrArg some (Function.update_self _ _ _)

/-- **The history law.** Launch on files that hold the seven-metric table with any lists — those of
`Data.plist` or of a file written earlier — and take any run of events, relaunches after a write
included. In every state of the run the app keeps the history law for what was saved and deleted
along it; every event keeps the lists of the other metrics and every deletion takes out the row
displayed; and nothing ever accesses an array out of range. -/
theorem history_law (env : Foundation N Content) (files : Files Content)
    (stored : Metric → List FitnessDataDetail) (readable macroDataLoads : Bool) (today : Day)
    (hload : FitnessDataController.loadData env readable files = .ok (tableOf stored))
    (events : List Event)
    (hlegal : (Observed.machine env).Legal
      (.launch env readable macroDataLoads today files stored) events) :
    (Observed.machine env).Always
        (fun s => ∀ a, s.device.process = .running a → HistoryLaw env a s.history)
        (.launch env readable macroDataLoads today files stored) events ∧
      (Observed.machine env).Each
        (fun s e => ∀ a a', s.device.process = .running a →
          (s.device.step env e).process = .running a' → EditLaw a a' e)
        (.launch env readable macroDataLoads today files stored) events ∧
      (Observed.machine env).Always
        (fun s => s.device.process ≠ .trapped .indexOutOfRange)
        (.launch env readable macroDataLoads today files stored) events := by
  have hlaunch := faithful_launch hload macroDataLoads today
  have hkeep : ∀ s e s', Faithful env s → (Observed.machine env).enabled s e →
      (Observed.machine env).step s e = some s' → Faithful env s' := by
    intro s e s' hs he hstep
    cases hstep
    exact faithful_step hs he
  refine ⟨?_, ?_, ?_⟩
  · refine (Machine.always_of_each hkeep hlaunch hlegal).mono fun s hs a hrun => ?_
    exact historyLaw_of_sound (hs.sound hrun)
  · refine Machine.each_of_invariant hkeep ?_ hlaunch hlegal
    intro s e hs he a a' hrun hrun'
    apply editLaw_of_sound (hs.sound hrun)
    rw [← History.diary_handle]
    exact (faithful_step hs he).sound hrun'
  · refine (Machine.always_of_each hkeep hlaunch hlegal).mono fun s hs => ?_
    rcases hs.process with ⟨a, hrun, -⟩ | htrap
    · rw [hrun]
      simp
    · rw [htrap]
      simp

/-- A first launch on the bundled table. -/
def firstLaunch : Observed (String ⊕ List FitnessDataModel) :=
  .launch plain true false shownDay ⟨none, some (.inr dataPlist)⟩
    fun _ => []

/-- Two weights saved, the older deleted, and the app launched again. -/
def weightsSaved : List Event :=
  [.showYourData, .chooseRow 5, .openAdd, .save ⟨"2020-03-09", "180"⟩, .openAdd,
    .save ⟨"2020-03-10", "175"⟩, .delete 1, .back,
    .relaunch true false shownDay]

/-- That run, from a first launch. -/
theorem history_law_weightsSaved :
    (Observed.machine plain).Always
        (fun s => ∀ a, s.device.process = .running a → HistoryLaw plain a s.history)
        firstLaunch weightsSaved ∧
      (Observed.machine plain).Each
        (fun s e => ∀ a a', s.device.process = .running a →
          (s.device.step plain e).process = .running a' → EditLaw a a' e)
        firstLaunch weightsSaved ∧
      (Observed.machine plain).Always
        (fun s => s.device.process ≠ .trapped .indexOutOfRange) firstLaunch weightsSaved :=
  history_law plain ⟨none, some (.inr dataPlist)⟩ (fun _ => []) true false
    shownDay rfl weightsSaved (by decide)

/-- What is left on the file after that run. -/
example : ((Observed.machine plain).run firstLaunch weightsSaved).map
      (fun s => (s.device.files.written, (s.history.journal .weight).entries)) =
    some (some (.inr [⟨[], "Activity Level"⟩, ⟨[], "Birthday"⟩, ⟨[], "Body Fat Percentage"⟩,
      ⟨[], "Chest Size"⟩, ⟨[], "Height"⟩, ⟨[⟨"2020-03-10", "175"⟩], "Weight"⟩,
      ⟨[], "Waist Size"⟩]), [(⟨"2020-03-10", "175"⟩, false), (⟨"2020-03-09", "180"⟩, true)]) := by
  decide

end AdvMad.MTrackerIos
