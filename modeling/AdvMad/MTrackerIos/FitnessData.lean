import AdvMad.Found.Rows
import AdvMad.Found.Calendar
import AdvMad.Found.Double
import Mathlib.Logic.Function.Basic

/-!
# MTracker for iOS: the fitness table and its file

The table `allData` of `FitnessDataController` — one record per metric, linked to the rest of the
app by position only — and the property list it is loaded from and written to.

* `getDataForMetric`, `addDataForMetric`, `deleteDataForMetric` — the positional accesses; out of
  range they trap, which is `none`.
* `Metric` / `tableOf` — the seven metrics of `Data.plist` in their order, and the table that holds
  a given list of entries for each. The accesses at a metric's row read and edit that metric's list
  (`getDataForMetric_tableOf` and the lemmas after it), and the seven index constants of the
  controller are those rows (`row_activityLevel` and the lemmas after it).
* `Files`, `loadData`, `writeData` — the file in the documents directory, the bundled one, and the
  two ways a load fails.

Scope: `PropertyListEncoder` and `PropertyListDecoder` are a `PropertyListCoder`, which decodes what
it encoded; writing a file is taken to succeed. The numbers of the app are of type `Double`; the
translation is over any `Arithmetic`, so that it can be read on exact numbers as well.
-/

namespace AdvMad.MTrackerIos

open AdvMad.Found

/-- Source: `FitnessData.swift`, `FitnessDataDetail`. -/
structure FitnessDataDetail where
  date : String
  value : String
deriving DecidableEq, Repr

/-- Source: `FitnessData.swift`, `FitnessDataModel`. -/
structure FitnessDataModel where
  Data : List FitnessDataDetail
  type : String
deriving DecidableEq, Repr

/-- Source: `FitnessData.swift`, `DataError`. -/
inductive DataError
  | NoDataFile
  | CouldNotDecode
  | CouldNotEncode
deriving DecidableEq, Repr

namespace FitnessDataController

/-! ## Positions -/

/-- Source: `FitnessData.swift`, `ACTIVITY_LEVEL`. -/
def activityLevel : ℕ := 0

/-- Source: `FitnessData.swift`, `BIRTHDAY`. -/
def birthday : ℕ := 1

/-- Source: `FitnessData.swift`, `BODY_FAT_PERCENTAGE`. -/
def bodyFatPercentage : ℕ := 2

/-- Source: `FitnessData.swift`, `CHEST_SIZE`. -/
def chestSize : ℕ := 3

/-- Source: `FitnessData.swift`, `HEIGHT`. -/
def height : ℕ := 4

/-- Source: `FitnessData.swift`, `WEIGHT`. -/
def weight : ℕ := 5

/-- Source: `FitnessData.swift`, `WAIST_SIZE`. -/
def waistSize : ℕ := 6

/-- Source: `FitnessData.swift`, `getDataForMetric`. -/
def getDataForMetric (allData : List FitnessDataModel) (metricIndex : ℕ) :
    Option (List FitnessDataDetail) :=
  allData[metricIndex]?.map (·.Data)

/-- Source: `FitnessData.swift`, `getMetrics`. -/
def getMetrics (allData : List FitnessDataModel) : List String := allData.map (·.type)

/-- Source: `FitnessData.swift`, `deleteDataForMetric`. -/
def deleteDataForMetric (allData : List FitnessDataModel) (metricIndex dataIndex : ℕ) :
    Option (List FitnessDataModel) :=
  updateAt allData metricIndex fun record =>
    (removeAt record.Data dataIndex).map fun d => { record with Data := d }

/-- Source: `FitnessData.swift`, `addDataForMetric`. -/
def addDataForMetric (allData : List FitnessDataModel) (metricIndex : ℕ)
    (newElement : FitnessDataDetail) : Option (List FitnessDataModel) :=
  updateAt allData metricIndex fun record =>
    (insertAt record.Data newElement 0).map fun d => { record with Data := d }

end FitnessDataController

/-! ## The seven metrics -/

/-- The table of `Data.plist`. -/
def dataPlist : List FitnessDataModel :=
  [⟨[], "Activity Level"⟩, ⟨[], "Birthday"⟩, ⟨[], "Body Fat Percentage"⟩, ⟨[], "Chest Size"⟩,
    ⟨[], "Height"⟩, ⟨[], "Weight"⟩, ⟨[], "Waist Size"⟩]

/-- The metrics of `Data.plist`. -/
inductive Metric
  | activityLevel
  | birthday
  | bodyFatPercentage
  | chestSize
  | height
  | weight
  | waistSize
deriving DecidableEq, Repr

namespace Metric

/-- The metrics in the order of `Data.plist`. -/
def all : List Metric :=
  [activityLevel, birthday, bodyFatPercentage, chestSize, height, weight, waistSize]

/-- The type name of a metric. -/
def name : Metric → String
  | activityLevel => "Activity Level"
  | birthday => "Birthday"
  | bodyFatPercentage => "Body Fat Percentage"
  | chestSize => "Chest Size"
  | height => "Height"
  | weight => "Weight"
  | waistSize => "Waist Size"

/-- The row of a metric in the table. -/
def row (m : Metric) : ℕ := all.idxOf m

/-- The names in the order of `Data.plist`. -/
def names : List String := all.map name

/-- The constants of the controller are the rows of the metrics. -/
@[simp] theorem row_activityLevel : row activityLevel = FitnessDataController.activityLevel := rfl

/-- The row of the birthday. -/
@[simp] theorem row_birthday : row birthday = FitnessDataController.birthday := rfl

/-- The row of the body fat percentage. -/
@[simp] theorem row_bodyFatPercentage :
    row bodyFatPercentage = FitnessDataController.bodyFatPercentage := rfl

/-- The row of the chest size. -/
@[simp] theorem row_chestSize : row chestSize = FitnessDataController.chestSize := rfl

/-- The row of the height. -/
@[simp] theorem row_height : row height = FitnessDataController.height := rfl

/-- The row of the weight. -/
@[simp] theorem row_weight : row weight = FitnessDataController.weight := rfl

/-- The row of the waist size. -/
@[simp] theorem row_waistSize : row waistSize = FitnessDataController.waistSize := rfl

/-- The metric of its own row. -/
theorem all_getElem?_row (m : Metric) : all[m.row]? = some m := by cases m <;> rfl

/-- The name in the row of a metric is its own. -/
theorem names_getElem?_row (m : Metric) : names[m.row]? = some m.name := by cases m <;> rfl

/-- Every row of the list of names is the row of a metric. -/
theorem exists_row {r : ℕ} (h : r < names.length) : ∃ m : Metric, r = m.row := by
  have h7 : names.length = 7 := rfl
  rcases (by omega : r = 0 ∨ r = 1 ∨ r = 2 ∨ r = 3 ∨ r = 4 ∨ r = 5 ∨ r = 6) with
    rfl | rfl | rfl | rfl | rfl | rfl | rfl
  · exact ⟨activityLevel, rfl⟩
  · exact ⟨birthday, rfl⟩
  · exact ⟨bodyFatPercentage, rfl⟩
  · exact ⟨chestSize, rfl⟩
  · exact ⟨height, rfl⟩
  · exact ⟨weight, rfl⟩
  · exact ⟨waistSize, rfl⟩

/-- Only the birthday has that name. -/
theorem name_eq_birthday_iff (m : Metric) : m.name = "Birthday" ↔ m = birthday := by
  cases m <;> decide

end Metric

/-- The table holding a list of entries for each metric. -/
def tableOf (f : Metric → List FitnessDataDetail) : List FitnessDataModel :=
  Metric.all.map fun m => ⟨f m, m.name⟩

/-- It has seven records. -/
@[simp] theorem length_tableOf (f : Metric → List FitnessDataDetail) : (tableOf f).length = 7 := rfl

/-- The table of `Data.plist` has no entries. -/
theorem dataPlist_eq : dataPlist = tableOf fun _ => [] := rfl

namespace FitnessDataController

/-- The list on screen names the metrics in their order. -/
theorem getMetrics_tableOf (f : Metric → List FitnessDataDetail) :
    getMetrics (tableOf f) = Metric.names := rfl

/-- Reading the row of a metric reads its list. -/
@[simp] theorem getDataForMetric_tableOf (f : Metric → List FitnessDataDetail) (m : Metric) :
    getDataForMetric (tableOf f) m.row = some (f m) := by cases m <;> rfl

/-- An edit at the row of a metric edits its list and no other. -/
theorem updateAt_tableOf (f : Metric → List FitnessDataDetail) (m : Metric)
    (g : List FitnessDataDetail → Option (List FitnessDataDetail)) :
    updateAt (tableOf f) m.row
        (fun record => (g record.Data).map fun d => { record with Data := d }) =
      (g (f m)).map fun d => tableOf (Function.update f m d) := by
  have hrow : (tableOf f)[m.row]? = some ⟨f m, m.name⟩ := by cases m <;> rfl
  unfold updateAt
  rw [hrow]
  cases hg : g (f m) with
  | none => simp [hg]
  | some d =>
      simp only [hg, Option.map_some]
      cases m <;> rfl

/-- A save at the row of a metric puts the entry in front of its list. -/
theorem addDataForMetric_tableOf (f : Metric → List FitnessDataDetail) (m : Metric)
    (newElement : FitnessDataDetail) :
    addDataForMetric (tableOf f) m.row newElement =
      some (tableOf (Function.update f m (newElement :: f m))) := by
  unfold addDataForMetric
  rw [updateAt_tableOf f m fun d => insertAt d newElement 0, insertAt_zero]
  rfl

/-- A delete at the row of a metric takes one entry out of its list. -/
theorem deleteDataForMetric_tableOf (f : Metric → List FitnessDataDetail) (m : Metric)
    {dataIndex : ℕ} (h : dataIndex < (f m).length) :
    deleteDataForMetric (tableOf f) m.row dataIndex =
      some (tableOf (Function.update f m ((f m).eraseIdx dataIndex))) := by
  unfold deleteDataForMetric
  rw [updateAt_tableOf f m fun d => removeAt d dataIndex, removeAt_of_lt h]
  rfl

end FitnessDataController

/-! ## The file -/

/-- Property lists in a content type: every table is encoded, and read back when decoded. -/
structure PropertyListCoder (Content : Type) where
  encode : List FitnessDataModel → Content
  /-- Fails on content that is not a property list of records. -/
  decode : Content → Option (List FitnessDataModel)
  decode_encode : ∀ allData, decode (encode allData) = some allData

/-- The services of Swift and Foundation the app rests on; `N` is the type its numbers have. -/
structure Foundation (N Content : Type) where
  coder : PropertyListCoder Content
  /-- `Double(String)`. -/
  double : String → Option N
  /-- A `DateFormatter` whose `dateFormat` is `yyyy-MM-dd`. -/
  dateFormatter : DateFormatter

/-- Tables as they are, next to texts that are no property list; numbers as decimal literals. -/
def plain : Foundation ℚ (String ⊕ List FitnessDataModel) where
  coder := ⟨Sum.inr, Sum.getRight?, fun _ => rfl⟩
  double := decimal
  dateFormatter := yyyyMMdd

/-- The same with the numbers of the app: a literal is rounded, and there are texts of the
infinities and of NaN. -/
def floating : Foundation Double (String ⊕ List FitnessDataModel) where
  coder := plain.coder
  double text :=
    if text = "inf" then some (.round (.infinite false))
    else if text = "-inf" then some (.round (.infinite true))
    else if text = "nan" then some (.round .nan)
    else (decimal text).map ofRat
  dateFormatter := yyyyMMdd

/-- The day of the runs shown as instances. -/
def shownDay : Day := ⟨2020, 3, 9, by decide, by decide⟩

/-- The two property lists: `WrittenData.plist` of the documents directory, where it exists, and
`Data.plist` of the bundle. -/
structure Files (Content : Type) where
  written : Option Content
  bundled : Option Content
deriving DecidableEq

namespace FitnessDataController

variable {N Content : Type}

/-- The written file where there is one, else the bundled one; `readable` says whether
`Data(contentsOf:)` succeeds. Source: `FitnessData.swift`, `loadData`. -/
def loadData (env : Foundation N Content) (readable : Bool) (files : Files Content) :
    Except DataError (List FitnessDataModel) :=
  match files.written.or files.bundled with
  | some content =>
      if readable then
        match env.coder.decode content with
        | some allData => .ok allData
        | none => .error .CouldNotDecode
      else .error .CouldNotDecode
  | none => .error .NoDataFile

/-- Encode the table into `WrittenData.plist`, on the resign-active notification.
Source: `FitnessData.swift`, `writeData`. -/
def writeData (env : Foundation N Content) (allData : List FitnessDataModel)
    (files : Files Content) : Files Content :=
  { files with written := some (env.coder.encode allData) }

/-- The same, on leaving a screen; it differs from `writeData` only in swallowing an error.
Source: `FitnessData.swift`, `writeDataLocally`. -/
def writeDataLocally (env : Foundation N Content) (allData : List FitnessDataModel)
    (files : Files Content) : Files Content := writeData env allData files

/-- A readable file that was written holds the table written. -/
theorem loadData_writeData (env : Foundation N Content) (allData : List FitnessDataModel)
    (files : Files Content) : loadData env true (writeData env allData files) = .ok allData := by
  simp [loadData, writeData, env.coder.decode_encode]

end FitnessDataController

end AdvMad.MTrackerIos
