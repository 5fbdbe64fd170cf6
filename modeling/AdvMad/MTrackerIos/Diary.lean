import AdvMad.MTrackerIos.App

/-!
# The diary behind the screens

What the app is for, without positions and view copies: a list of entries for each of the seven
metrics, newest first, and the metric that is open. `Diary.handle` says what an event does to it.

* `Sound` — the app shows a diary: its table is the diary's, the list of metrics on screen is that
  of `Data.plist`, the metric screen is that of the metric open with its whole list, and the add
  screen carries its name.
* `Sound.handle` — the app follows the diary: an offered event keeps `Sound`, or it is a calculation
  whose result does not fit an integer. No event accesses an array out of range.
* `sound_launch` — so does a launch that loads a table of the seven metrics.
-/

namespace AdvMad.MTrackerIos

open AdvMad.Found

variable {N Content : Type} [Arithmetic N]

/-- A list of entries for each metric, and the metric that is open. -/
structure Diary where
  lists : Metric → List FitnessDataDetail
  opened : Option Metric

namespace Diary

/-- Replace the list of the metric that is open. -/
def edit (y : Diary) (g : List FitnessDataDetail → List FitnessDataDetail) : Diary :=
  match y.opened with
  | some m => { y with lists := Function.update y.lists m (g (y.lists m)) }
  | none => y

/-- An edit is one of the metric open. -/
theorem edit_of_opened {y : Diary} {m : Metric} (hm : y.opened = some m)
    (g : List FitnessDataDetail → List FitnessDataDetail) :
    y.edit g = ⟨Function.update y.lists m (g (y.lists m)), some m⟩ := by
  unfold edit
  rw [hm]

/-- With none open it changes nothing. -/
theorem edit_of_none {y : Diary} (hm : y.opened = none)
    (g : List FitnessDataDetail → List FitnessDataDetail) : y.edit g = y := by
  unfold edit
  rw [hm]

/-- What an event does to the diary. -/
def handle (y : Diary) : Event → Diary
  | .chooseRow row => { y with opened := Metric.all[row]? }
  | .back => { y with opened := none }
  | .save preparedData => y.edit (preparedData :: ·)
  | .delete row => y.edit (·.eraseIdx row)
  | .relaunch _ _ _ => { y with opened := none }
  | _ => y

end Diary

/-- The app shows a diary. -/
structure Sound (a : App) (y : Diary) : Prop where
  allData : a.allData = tableOf y.lists
  metricList : a.metricList = none ∨ a.metricList = some Metric.names
  loaded : a.tab = .yourData → a.metricList ≠ none
  detail : a.detail = y.opened.map fun m => ⟨m.row, m.name, y.lists m⟩
  addData : ∀ v, a.addData = some v → ∃ m, y.opened = some m ∧ v = ⟨m.name⟩

/-- The amounts fit their integers or trap. -/
theorem amountsOf_cases (macros : Macros N) :
    (∃ amounts, App.amountsOf macros = .ok amounts) ∨
      App.amountsOf macros = .error .intConversion := by
  have hint : ∀ x : N, (∃ n, intOf x = .ok n) ∨ intOf x = .error .intConversion := by
    intro x
    unfold intOf
    split
    · split
      · exact Or.inl ⟨_, rfl⟩
      · exact Or.inr rfl
    all_goals exact Or.inr rfl
  unfold App.amountsOf
  rcases hint macros.protein with ⟨p, hp⟩ | hp <;> rw [hp]
  · rcases hint macros.carbohydrates with ⟨c, hc⟩ | hc <;> rw [hc]
    · rcases hint macros.fat with ⟨t, ht⟩ | ht <;> rw [ht]
      · exact Or.inl ⟨_, rfl⟩
      · exact Or.inr rfl
    · exact Or.inr rfl
  · exact Or.inr rfl

/-- Calculating on a table of the seven metrics changes the amounts and nothing else, unless one
of them does not fit. -/
theorem setMacros_tableOf (env : Foundation N Content) (today : Day) {a : App}
    {f : Metric → List FitnessDataDetail} (ha : a.allData = tableOf f) :
    (∃ amounts, a.setMacros env today = .ok { a with amounts := amounts }) ∨
      a.setMacros env today = .error .intConversion := by
  unfold App.setMacros
  rw [ha]
  rcases MacroDataController.calculateMacros_tableOf_cases env today f with
    ⟨-, macros, heq⟩ | ⟨-, heq⟩
  · rw [heq, ← ha]
    rcases amountsOf_cases macros with ⟨amounts, hamounts⟩ | hamounts
    · exact Or.inl ⟨some amounts, by simp only [hamounts]; rfl⟩
    · exact Or.inr (by simp only [hamounts]; rfl)
  · rw [heq, ← ha]
    exact Or.inl ⟨a.amounts, rfl⟩

namespace Sound

variable {env : Foundation N Content} {a : App} {y : Diary}

/-- The amounts shown are no part of the diary. -/
theorem withAmounts (h : Sound a y) (amounts : Option Amounts) :
    Sound { a with amounts := amounts } y :=
  ⟨h.allData, h.metricList, h.loaded, h.detail, h.addData⟩

/-- What is stored for a metric. -/
theorem getDataForMetric_eq (h : Sound a y) (m : Metric) :
    FitnessDataController.getDataForMetric a.allData m.row = some (y.lists m) := by
  rw [h.allData, FitnessDataController.getDataForMetric_tableOf]

/-- The list of metrics, once it is on screen. -/
theorem metricList_eq (h : Sound a y) (htab : a.tab = .yourData) :
    a.metricList = some Metric.names :=
  h.metricList.resolve_left (h.loaded htab)

/-- While the add screen is up, a metric is open. -/
theorem exists_opened (h : Sound a y) (hadd : a.addData ≠ none) : ∃ m, y.opened = some m := by
  obtain ⟨v, hv⟩ := Option.ne_none_iff_exists'.mp hadd
  obtain ⟨m, hm, -⟩ := h.addData v hv
  exact ⟨m, hm⟩

/-- The metric screen of the metric that is open. -/
theorem detail_eq (h : Sound a y) {m : Metric} (hm : y.opened = some m) :
    a.detail = some ⟨m.row, m.name, y.lists m⟩ := by
  rw [h.detail, hm]
  rfl

/-- What a screen of a metric reads when it appears. -/
theorem viewWillAppear_eq (h : Sound a y) (m : Metric) (dataList : List FitnessDataDetail) :
    DetailViewController.viewWillAppear a.allData ⟨m.row, m.name, dataList⟩ =
      .ok ⟨m.row, m.name, y.lists m⟩ := by
  unfold DetailViewController.viewWillAppear
  rw [h.getDataForMetric_eq]
  rfl

/-- A diary whose list of the metric open has been edited is shown by the table and the metric
screen edited alike. -/
theorem edited (h : Sound a y) {m : Metric} (hm : y.opened = some m)
    (g : List FitnessDataDetail → List FitnessDataDetail) {v : Option AddDataViewController}
    (hv : v = none ∨ v = a.addData) :
    Sound { a with
      allData := tableOf (Function.update y.lists m (g (y.lists m)))
      detail := some ⟨m.row, m.name, g (y.lists m)⟩
      addData := v } (y.edit g) := by
  rw [Diary.edit_of_opened hm]
  refine ⟨rfl, h.metricList, h.loaded, ?_, ?_⟩
  · simp [Function.update_self]
  · intro w hw
    rcases hv with rfl | rfl
    · simp at hw
    · obtain ⟨m', hm', hw'⟩ := h.addData w hw
      exact ⟨m', hm.symm.trans hm', hw'⟩

/-- Showing the list keeps what it shows, and rereads the metric under it. -/
theorem showYourData (h : Sound a y) :
    ∃ a', a.handle env .showYourData = .ok a' ∧ Sound a' y := by
  have hlist : a.metricList.getD (FitnessDataController.getMetrics a.allData) = Metric.names := by
    rcases h.metricList with hl | hl
    · rw [hl, h.allData]
      exact FitnessDataController.getMetrics_tableOf y.lists
    · rw [hl]
      rfl
  have hdetail : a.detail.mapM (DetailViewController.viewWillAppear a.allData) = .ok a.detail := by
    rw [h.detail]
    cases y.opened with
    | none => rfl
    | some m =>
        rw [Option.map_some, Option.mapM_some, h.viewWillAppear_eq]
        rfl
  refine ⟨{ a with tab := .yourData, metricList := some Metric.names }, ?_, ?_⟩
  · simp only [App.handle, hlist, hdetail]
    rfl
  · exact ⟨h.allData, Or.inr rfl, fun _ => by simp, h.detail, h.addData⟩

/-- Choosing a row opens the metric of that row. -/
theorem chooseRow (h : Sound a y) {row : ℕ} (htab : a.tab = .yourData)
    (hrow : row < (a.metricList.getD []).length) (hadd : a.detail = none) :
    ∃ a', a.handle env (.chooseRow row) = .ok a' ∧ Sound a' (y.handle (.chooseRow row)) := by
  have hlist := h.metricList_eq htab
  rw [hlist] at hrow
  obtain ⟨m, rfl⟩ := Metric.exists_row hrow
  refine ⟨{ a with detail := some ⟨m.row, m.name, y.lists m⟩ }, ?_, ?_⟩
  · simp only [App.handle, hlist, Option.getD_some, Metric.names_getElem?_row, orTrap, bind,
      Except.bind, h.viewWillAppear_eq]
    rfl
  · refine ⟨h.allData, h.metricList, h.loaded, ?_, ?_⟩
    · simp [Diary.handle, Metric.all_getElem?_row]
    · intro v hv
      obtain ⟨m', hm', -⟩ := h.addData v hv
      have hdetail := h.detail_eq hm'
      rw [hadd] at hdetail
      simp at hdetail

/-- Saving puts the entry in front of the list of the metric open. -/
theorem save (h : Sound a y) {m : Metric} (hm : y.opened = some m)
    (preparedData : FitnessDataDetail) :
    ∃ a', a.handle env (.save preparedData) = .ok a' ∧
      Sound a' (y.handle (.save preparedData)) := by
  refine ⟨_, ?_, h.edited hm (preparedData :: ·) (Or.inl rfl)⟩
  simp only [App.handle, h.detail_eq hm, DetailViewController.unwindSegue, h.allData,
    FitnessDataController.addDataForMetric_tableOf, insertAt_zero, orTrap]
  rfl

/-- Deleting takes the row out of the list of the metric open. -/
theorem delete (h : Sound a y) {m : Metric} (hm : y.opened = some m) {row : ℕ}
    (hrow : row < (y.lists m).length) :
    ∃ a', a.handle env (.delete row) = .ok a' ∧ Sound a' (y.handle (.delete row)) := by
  refine ⟨_, ?_, h.edited hm (·.eraseIdx row) (Or.inr rfl)⟩
  simp only [App.handle, h.detail_eq hm, DetailViewController.commitDelete, h.allData,
    FitnessDataController.deleteDataForMetric_tableOf _ _ hrow, removeAt_of_lt hrow, orTrap]
  rfl

/-- A deletion is offered for the rows of the metric open. -/
theorem offers_delete (h : Sound a y) {row : ℕ} (he : a.Offers (.delete row)) :
    ∃ m, y.opened = some m ∧ row < (y.lists m).length := by
  obtain ⟨-, -, hrow⟩ := he
  rw [h.detail] at hrow
  cases hm : y.opened with
  | none =>
      rw [hm] at hrow
      exact absurd hrow (Nat.not_lt_zero row)
  | some m =>
      rw [hm] at hrow
      exact ⟨m, rfl, hrow⟩

/-- The add screen is for the metric open. -/
theorem openAdd (h : Sound a y) (hdetail : a.detail ≠ none) :
    ∃ a', a.handle env .openAdd = .ok a' ∧ Sound a' y := by
  obtain ⟨m, hm⟩ : ∃ m, y.opened = some m := by
    rw [h.detail] at hdetail
    exact Option.ne_none_iff_exists'.mp fun hnone => hdetail (by rw [hnone]; rfl)
  refine ⟨_, rfl, h.allData, h.metricList, h.loaded, h.detail, ?_⟩
  intro v hv
  refine ⟨m, hm, ?_⟩
  rw [h.detail_eq hm] at hv
  simpa using hv.symm

/-- Leaving it without saving changes nothing else. -/
theorem cancel (h : Sound a y) {m : Metric} (hm : y.opened = some m) :
    ∃ a', a.handle env .cancel = .ok a' ∧ Sound a' y := by
  refine ⟨{ a with addData := none }, ?_, h.allData, h.metricList, h.loaded, h.detail, ?_⟩
  · simp only [App.handle, h.detail_eq hm, DetailViewController.unwindSegue]
    rfl
  · intro v hv
    simp at hv

/-- **The app follows the diary**: an offered event that is no relaunch keeps the app showing it,
or traps because an amount calculated does not fit an integer. -/
theorem handle (env : Foundation N Content) (h : Sound a y) {e : Event} (he : a.Offers e)
    (hlaunch : e.isRelaunch = false) :
    (∃ a', a.handle env e = .ok a' ∧ Sound a' (y.handle e)) ∨
      ((∃ today, e = .calculate today) ∧ a.handle env e = .error .intConversion) := by
  cases e with
  | calculate today =>
      rcases setMacros_tableOf env today h.allData with ⟨amounts, heq⟩ | heq
      · exact Or.inl ⟨_, heq, h.withAmounts amounts⟩
      · exact Or.inr ⟨⟨today, rfl⟩, heq⟩
  | showYourData => exact Or.inl h.showYourData
  | showMacros =>
      exact Or.inl
        ⟨_, rfl, h.allData, h.metricList, fun htab => (by cases htab), h.detail, h.addData⟩
  | chooseRow row => exact Or.inl (h.chooseRow he.1 he.2.2 he.2.1)
  | back =>
      obtain ⟨-, -, hadd⟩ := he
      refine Or.inl ⟨_, rfl, h.allData, h.metricList, h.loaded, rfl, ?_⟩
      intro v hv
      exact absurd hadd (by simpa using Option.ne_none_iff_exists'.mpr ⟨v, hv⟩)
  | openAdd => exact Or.inl (h.openAdd he.2.1)
  | save preparedData =>
      obtain ⟨m, hm⟩ := h.exists_opened he
      exact Or.inl (h.save hm preparedData)
  | cancel =>
      obtain ⟨m, hm⟩ := h.exists_opened he
      exact Or.inl (h.cancel hm)
  | delete row =>
      obtain ⟨m, hm, hrow⟩ := h.offers_delete he
      exact Or.inl (h.delete hm hrow)
  | resignActive => exact Or.inl ⟨_, rfl, h⟩
  | relaunch readable macroDataLoads today => cases hlaunch

end Sound

/-- **A launch shows the diary it loads**, with no metric open, or traps because an amount
calculated at launch does not fit an integer. -/
theorem sound_launch {env : Foundation N Content} {readable : Bool} {files : Files Content}
    {f : Metric → List FitnessDataDetail}
    (hload : FitnessDataController.loadData env readable files = .ok (tableOf f))
    (macroDataLoads : Bool) (today : Day) :
    (∃ a, App.viewDidLoad env readable macroDataLoads today files = .ok a ∧ Sound a ⟨f, none⟩) ∨
      App.viewDidLoad env readable macroDataLoads today files = .error .intConversion := by
  have hstart : Sound { App.start with allData := tableOf f } ⟨f, none⟩ :=
    ⟨rfl, Or.inl rfl, fun htab => (by cases htab), rfl, fun v hv => (by cases hv)⟩
  unfold App.viewDidLoad
  rw [hload]
  cases macroDataLoads with
  | false => exact Or.inl ⟨_, rfl, hstart⟩
  | true =>
      rcases setMacros_tableOf env today hstart.allData with ⟨amounts, heq⟩ | heq
      · exact Or.inl ⟨_, heq, hstart.withAmounts amounts⟩
      · exact Or.inr heq

end AdvMad.MTrackerIos
