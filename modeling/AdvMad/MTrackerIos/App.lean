import AdvMad.MTrackerIos.MacroData
import AdvMad.Found.Run

/-!
# MTracker for iOS: the screens

The app as a machine: two tabs, the macros screen (`FirstViewController`) and the navigation stack
of the Your Data list (`YourDataViewController`), the screen of one metric
(`DetailViewController`) and the add screen presented over it (`AddDataViewController`); and the
device it runs on, with the file that outlives the process.

* `App.handle` — what one event does to the running app, a `Trap` where it ends the process.
* `Device.step` — the same with the file: the list and the metric screen write the table when they
  disappear, the notification observer when the app resigns active, and a launch loads it.

Modelled of UIKit: the macros tab is selected at launch; the list's `viewDidLoad` runs when its tab
is first selected, so its `metricList` is the one of that moment; a push, a pop and a change of tab
make the visible screen disappear and the other appear; the add screen is a sheet, under which no
screen disappears. The tabs, the list and the metric screen cannot be reached while it is up.
-/

namespace AdvMad.MTrackerIos

open AdvMad.Found

/-- The tabs of the app. Source: `Main.storyboard`, the tab bar controller. -/
inductive Tab
  | macros
  | yourData
deriving DecidableEq, Repr

/-- The amounts the three labels of the macros screen show, each followed by a `g`. -/
structure Amounts where
  protein : ℤ
  carbohydrates : ℤ
  fat : ℤ
deriving DecidableEq, Repr

/-- The screen of one metric. Source: `DetailViewController.swift`. -/
structure DetailViewController where
  selectedMetric : ℕ
  selectedMetricTitle : String
  dataList : List FitnessDataDetail
deriving DecidableEq, Repr

/-- The add screen. Source: `AddDataViewController.swift`. -/
structure AddDataViewController where
  selectedMetric : String
deriving DecidableEq, Repr

/-- The running app. -/
structure App where
  /-- `FitnessDataController.shared.allData`. -/
  allData : List FitnessDataModel
  /-- The amounts shown, once a calculation has succeeded. -/
  amounts : Option Amounts
  tab : Tab
  /-- `metricList` of the Your Data list, once its view is loaded. -/
  metricList : Option (List String)
  /-- The metric screen, while it is on the navigation stack. -/
  detail : Option DetailViewController
  /-- The add screen, while it is up. -/
  addData : Option AddDataViewController
deriving DecidableEq, Repr

/-- An array access, a trap out of range. -/
def orTrap {α : Type} : Option α → Except Trap α
  | some x => .ok x
  | none => .error .indexOutOfRange

/-- `Int(Double)`: the fraction is dropped; a trap outside the 64-bit range, on the infinities and
on NaN. -/
def intOf {N : Type} [Arithmetic N] (x : N) : Except Trap ℤ :=
  match value x with
  | .finite q =>
      match inRange (-2 ^ 63) (2 ^ 63 - 1) (trunc q) with
      | some n => .ok n
      | none => .error .intConversion
  | .infinite _ | .nan => .error .intConversion

/-- A number in that range is converted. -/
theorem intOf_of_finite {N : Type} [Arithmetic N] {x : N} {q : ℚ} (hx : value x = .finite q)
    (hlo : -2 ^ 63 ≤ trunc q) (hhi : trunc q ≤ 2 ^ 63 - 1) : intOf x = .ok (trunc q) := by
  simp only [intOf, hx, inRange_of_mem hlo hhi]

/-- What a tap on Save prepares: the text of the field, if there is any, or the day of the picker on
the birthday screen; the empty entry otherwise. `now` is the current day.
Source: `AddDataViewController.swift`, `prepare(for:sender:)`. -/
def AddDataViewController.prepare (df : DateFormatter) (now : Day) (v : AddDataViewController)
    (textField : Option String) (datePicker : Day) : FitnessDataDetail :=
  if v.selectedMetric ≠ "Birthday" then
    match textField with
    | some text => if text.isEmpty = false then ⟨df.string now, text⟩ else ⟨"", ""⟩
    | none => ⟨"", ""⟩
  else ⟨df.string now, df.string datePicker⟩

namespace DetailViewController

/-- Source: `DetailViewController.swift`, `viewWillAppear`. -/
def viewWillAppear (allData : List FitnessDataModel) (d : DetailViewController) :
    Except Trap DetailViewController := do
  let dataList ← orTrap (FitnessDataController.getDataForMetric allData d.selectedMetric)
  return { d with dataList := dataList }

/-- The entry goes in front of the displayed list and of the stored one.
Source: `DetailViewController.swift`, `unwindSegue`. -/
def unwindSegue (allData : List FitnessDataModel) (d : DetailViewController) (identifier : String)
    (preparedData : FitnessDataDetail) :
    Except Trap (DetailViewController × List FitnessDataModel) :=
  if identifier = "save" then do
    let dataList ← orTrap (insertAt d.dataList preparedData 0)
    let allData ← orTrap
      (FitnessDataController.addDataForMetric allData d.selectedMetric preparedData)
    return ({ d with dataList := dataList }, allData)
  else return (d, allData)

/-- The row goes out of the displayed list and of the stored one.
Source: `DetailViewController.swift`, `tableView(_:commit:forRowAt:)`, branch `.delete`. -/
def commitDelete (allData : List FitnessDataModel) (d : DetailViewController) (row : ℕ) :
    Except Trap (DetailViewController × List FitnessDataModel) := do
  let dataList ← orTrap (removeAt d.dataList row)
  let allData ← orTrap (FitnessDataController.deleteDataForMetric allData d.selectedMetric row)
  return ({ d with dataList := dataList }, allData)

end DetailViewController

/-- What happens to the app. -/
inductive Event
  /-- A tap on Calculate, on a day. -/
  | calculate (today : Day)
  /-- The Your Data tab. -/
  | showYourData
  /-- The macros tab. -/
  | showMacros
  /-- A tap on a row of the Your Data list. -/
  | chooseRow (row : ℕ)
  /-- Back from a metric to the list. -/
  | back
  /-- A tap on the add button of a metric. -/
  | openAdd
  /-- A tap on Save, with the entry the add screen has prepared. -/
  | save (preparedData : FitnessDataDetail)
  /-- A tap on Cancel. -/
  | cancel
  /-- Swiping a row of a metric away. -/
  | delete (row : ℕ)
  /-- The app resigns active. -/
  | resignActive
  /-- The process ends and the app is launched again: whether the fitness file can be read and the
  stored macros load this time, and the day. -/
  | relaunch (readable macroDataLoads : Bool) (today : Day)
deriving DecidableEq, Repr

namespace App

variable {N Content : Type} [Arithmetic N]

/-- The app before anything is loaded. -/
def start : App := ⟨[], none, .macros, none, none, none⟩

/-- The amounts of the labels, each cut to an integer. Source: `FirstViewController.swift`,
`setMacros`. -/
def amountsOf (macros : Macros N) : Except Trap Amounts := do
  let protein ← intOf macros.protein
  let carbohydrates ← intOf macros.carbohydrates
  let fat ← intOf macros.fat
  return ⟨protein, carbohydrates, fat⟩

/-- Calculate and show the amounts; an error is printed and changes nothing.
Source: `FirstViewController.swift`, `setMacros`. -/
def setMacros (env : Foundation N Content) (today : Day) (a : App) : Except Trap App :=
  match MacroDataController.calculateMacros env today a.allData with
  | .ok macros => do
      let amounts ← amountsOf macros
      return { a with amounts := some amounts }
  | .error (.thrown _) => .ok a
  | .error (.trap why) => .error why

/-- On a table too short for the row of the weight, showing the macros traps. -/
theorem setMacros_of_lt (env : Foundation N Content) (today : Day) {a : App}
    (h : a.allData.length < 6) : a.setMacros env today = .error .indexOutOfRange := by
  unfold setMacros
  rw [MacroDataController.calculateMacros_of_lt env today h]

/-- Load the table and, when the stored macros load as well, calculate once. A failed load is
printed and leaves the table empty. Source: `FirstViewController.swift`, `viewDidLoad`. -/
def viewDidLoad (env : Foundation N Content) (readable macroDataLoads : Bool) (today : Day)
    (files : Files Content) : Except Trap App :=
  match FitnessDataController.loadData env readable files with
  | .ok allData =>
      if macroDataLoads then setMacros env today { start with allData := allData }
      else .ok { start with allData := allData }
  | .error _ => .ok start

/-- One event of the running app. -/
def handle (env : Foundation N Content) (a : App) : Event → Except Trap App
  | .calculate today => a.setMacros env today
  | .showYourData => do
      -- the list's `viewDidLoad` runs the first time only, `viewWillAppear` of a metric every time
      let metricList := a.metricList.getD (FitnessDataController.getMetrics a.allData)
      let detail ← a.detail.mapM (DetailViewController.viewWillAppear a.allData)
      return { a with tab := .yourData, metricList := some metricList, detail := detail }
  | .showMacros => return { a with tab := .macros }
  | .chooseRow row => do
      let title ← orTrap (a.metricList.getD [])[row]?
      let detail ← DetailViewController.viewWillAppear a.allData ⟨row, title, []⟩
      return { a with detail := some detail }
  | .back => return { a with detail := none }
  | .openAdd => return { a with addData := a.detail.map fun d => ⟨d.selectedMetricTitle⟩ }
  | .save preparedData => do
      match a.detail with
      | some d =>
          let (d, allData) ← d.unwindSegue a.allData "save" preparedData
          return { a with detail := some d, allData := allData, addData := none }
      | none => return a
  | .cancel => do
      match a.detail with
      | some d =>
          let (d, allData) ← d.unwindSegue a.allData "cancel" ⟨"", ""⟩
          return { a with detail := some d, allData := allData, addData := none }
      | none => return a
  | .delete row => do
      match a.detail with
      | some d =>
          let (d, allData) ← d.commitDelete a.allData row
          return { a with detail := some d, allData := allData }
      | none => return a
  | .resignActive => return a
  | .relaunch _ _ _ => return a

/-- The events the running app offers. -/
def Offers (a : App) : Event → Prop
  | .calculate _ => a.tab = .macros
  | .showYourData => a.tab = .macros
  | .showMacros => a.tab = .yourData ∧ a.addData = none
  | .chooseRow row => a.tab = .yourData ∧ a.detail = none ∧ row < (a.metricList.getD []).length
  | .back => a.tab = .yourData ∧ a.detail ≠ none ∧ a.addData = none
  | .openAdd => a.tab = .yourData ∧ a.detail ≠ none ∧ a.addData = none
  | .save _ => a.addData ≠ none
  | .cancel => a.addData ≠ none
  | .delete row => a.tab = .yourData ∧ a.addData = none ∧
      row < (a.detail.map fun d => d.dataList.length).getD 0
  | .resignActive => True
  | .relaunch _ _ _ => True

instance decidableOffers (a : App) : (e : Event) → Decidable (a.Offers e)
  | .calculate _ => inferInstanceAs (Decidable (a.tab = .macros))
  | .showYourData => inferInstanceAs (Decidable (a.tab = .macros))
  | .showMacros => inferInstanceAs (Decidable (a.tab = .yourData ∧ a.addData = none))
  | .chooseRow row => inferInstanceAs
      (Decidable (a.tab = .yourData ∧ a.detail = none ∧ row < (a.metricList.getD []).length))
  | .back => inferInstanceAs (Decidable (a.tab = .yourData ∧ a.detail ≠ none ∧ a.addData = none))
  | .openAdd => inferInstanceAs
      (Decidable (a.tab = .yourData ∧ a.detail ≠ none ∧ a.addData = none))
  | .save _ => inferInstanceAs (Decidable (a.addData ≠ none))
  | .cancel => inferInstanceAs (Decidable (a.addData ≠ none))
  | .delete row => inferInstanceAs (Decidable (a.tab = .yourData ∧ a.addData = none ∧
      row < (a.detail.map fun d => d.dataList.length).getD 0))
  | .resignActive => inferInstanceAs (Decidable True)
  | .relaunch _ _ _ => inferInstanceAs (Decidable True)

end App

/-! ## The device -/

/-- The process of the app. -/
inductive Process
  | running (app : App)
  | trapped (why : Trap)
deriving DecidableEq, Repr

/-- A process from how it was started or how it went on. -/
def Process.of : Except Trap App → Process
  | .ok app => .running app
  | .error why => .trapped why

/-- The files and the process. -/
structure Device (Content : Type) where
  files : Files Content
  process : Process
deriving DecidableEq

namespace Event

/-- The events in which a writer runs: the observer of the resign-active notification, and
`viewWillDisappear` of the list and of the metric screen. -/
def writes : Event → Bool
  | .resignActive => true
  | .showMacros => true
  | .chooseRow _ => true
  | .back => true
  | _ => false

/-- The process ends and starts anew. -/
def isRelaunch : Event → Bool
  | .relaunch _ _ _ => true
  | _ => false

end Event

namespace Device

variable {N Content : Type} [Arithmetic N]

/-- A launch on these files. -/
def launch (env : Foundation N Content) (readable macroDataLoads : Bool) (today : Day)
    (files : Files Content) : Device Content :=
  ⟨files, .of (App.viewDidLoad env readable macroDataLoads today files)⟩

/-- One event: the writers run on the table as the event finds it.
Source: `FitnessData.swift`, `writeData`; `YourDataViewController.swift` and
`DetailViewController.swift`, `viewWillDisappear`. -/
def step (env : Foundation N Content) (d : Device Content) (e : Event) : Device Content :=
  match e, d.process with
  | .relaunch readable macroDataLoads today, _ =>
      launch env readable macroDataLoads today d.files
  | _, .trapped _ => d
  | .resignActive, .running a =>
      ⟨FitnessDataController.writeData env a.allData d.files, .of (a.handle env .resignActive)⟩
  | e, .running a =>
      ⟨if e.writes then FitnessDataController.writeDataLocally env a.allData d.files else d.files,
        .of (a.handle env e)⟩

/-- The events that can happen: what the running app offers, and a launch at any time. -/
def Offers (d : Device Content) (e : Event) : Prop :=
  e.isRelaunch = true ∨ match d.process with
    | .running a => a.Offers e
    | .trapped _ => False

instance decidableOffers (d : Device Content) (e : Event) : Decidable (d.Offers e) :=
  match h : d.process with
  | .running a => decidable_of_iff (e.isRelaunch = true ∨ a.Offers e) (by simp [Offers, h])
  | .trapped _ => decidable_of_iff (e.isRelaunch = true) (by simp [Offers, h])

/-- The device as a machine: a trap ends the process, not the device. -/
def machine (env : Foundation N Content) : Machine (Device Content) Event :=
  ⟨fun d e => some (d.step env e), Offers⟩

instance (env : Foundation N Content) (d : Device Content) (e : Event) :
    Decidable ((machine env).enabled d e) := decidableOffers d e

/-- A relaunch is a launch on the files as they are. -/
theorem step_relaunch (env : Foundation N Content) (d : Device Content)
    (readable macroDataLoads : Bool) (today : Day) :
    d.step env (.relaunch readable macroDataLoads today) =
      launch env readable macroDataLoads today d.files := by
  unfold step
  split <;> simp_all

/-- Any other event: the file holds the table the event finds if a writer runs, and is left alone
if none does; the process goes on with what the app makes of the event. -/
theorem step_running (env : Foundation N Content) {d : Device Content} {a : App} {e : Event}
    (hd : d.process = .running a) (he : e.isRelaunch = false) :
    d.step env e =
      ⟨if e.writes then FitnessDataController.writeData env a.allData d.files else d.files,
        .of (a.handle env e)⟩ := by
  unfold step
  rw [hd]
  cases e <;> first | rfl | cases he

/-- An event other than a relaunch is offered by an app that runs. -/
theorem running_of_offers {d : Device Content} {e : Event} (h : d.Offers e)
    (he : e.isRelaunch = false) : ∃ a, d.process = .running a ∧ a.Offers e := by
  obtain ⟨files, process⟩ := d
  rcases h with h | h
  · rw [he] at h
    simp at h
  · cases process with
    | running a => exact ⟨a, rfl, h⟩
    | trapped why => exact h.elim

end Device

end AdvMad.MTrackerIos
