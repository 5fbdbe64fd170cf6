import AdvMad.MTrackerAndroid.Tracking

/-!
# MTracker for Android: the entry screen

`AddSpecificData`: the screen of one metric, whose Save sends `arrayUnion` of the number typed to
the list field of the metric and shows the number as the current entry.

* `getDataCustomizations` — what the screen of each data type shows and stores to; the seven list
  fields are what it stores to (`firestoreID_value`).
* `setData` — one Save; it throws on a text that is no number.
* `saveAll` — Saves one after the other, each acknowledged before the next; `saveAll_mapped` is the
  run lemma: the document still maps, and the lists not saved to stay.
-/

namespace AdvMad.MTrackerAndroid

open AdvMad.Found

/-- Source: `DataTypes.kt`, `DataTypes`. -/
inductive DataTypes
  | weight
  | height
  | activityLevel
  | bodyFatPercentage
  | waistSize
  | chestSize
  | birthday
deriving DecidableEq, Repr

/-- Source: `DataTypes.kt`, `DataTypes.value`. -/
def DataTypes.value : DataTypes → String
  | weight => "WEIGHT"
  | height => "HEIGHT"
  | activityLevel => "ACTIVITY_LEVEL"
  | bodyFatPercentage => "BODY_FAT_PERCENTAGE"
  | waistSize => "WAIST_SIZE"
  | chestSize => "CHEST_SIZE"
  | birthday => "BIRTHDAY"

/-- Source: `DataManager.kt`, `DataTypeInformation`. -/
structure DataTypeInformation where
  title : String
  inputType : String
  specialInstructions : String
  firestoreID : String
deriving DecidableEq, Repr

/-- Source: `DataManager.kt`, `getDataCustomizations`. -/
def getDataCustomizations (dataTypes : Option String) : DataTypeInformation :=
  if dataTypes = some DataTypes.weight.value then
    ⟨"Weight", "number", "Please enter your weight in whole pounds", "weight"⟩
  else if dataTypes = some DataTypes.height.value then
    ⟨"Height", "number", "Please enter your height in inches", "height"⟩
  else if dataTypes = some DataTypes.activityLevel.value then
    ⟨"Activity Level", "number", "Please enter your activity as a decimal between 1 and 2",
      "activity_level"⟩
  else if dataTypes = some DataTypes.bodyFatPercentage.value then
    ⟨"Body Fat Percentage", "number", "Please enter your body fat percentage out of 100",
      "body_fat_percentage"⟩
  else if dataTypes = some DataTypes.waistSize.value then
    ⟨"Waist Size", "number", "Please enter your waist size in inches", "waist_size"⟩
  else if dataTypes = some DataTypes.chestSize.value then
    ⟨"Chest Size", "number", "Please enter your chest size in inches", "chest_size"⟩
  else if dataTypes = some DataTypes.birthday.value then
    ⟨"Age", "number", "Please enter your age as a whole number", "birthday"⟩
  else ⟨"Unknown", "number", "Yikes", "big_yikes"⟩

/-- The list field of a data type. -/
def DataTypes.field : DataTypes → ListField
  | weight => .weight
  | height => .height
  | activityLevel => .activityLevel
  | bodyFatPercentage => .bodyFatPercentage
  | waistSize => .waistSize
  | chestSize => .chestSize
  | birthday => .birthday

/-- The screen of a data type stores to its list field. -/
theorem firestoreID_value (t : DataTypes) :
    (getDataCustomizations (some t.value)).firestoreID = t.field.id := by
  cases t <;> rfl

/-- Two data types have two list fields. -/
theorem DataTypes.field_injective : Function.Injective DataTypes.field := by
  intro t u h
  cases t <;> cases u <;> first | rfl | cases h

/-- What the label of the current entry shows after "Current Value: ": the text of an integer or
that of a `Double`. -/
inductive CurrentEntry
  | noCurrentValue
  | shownLong (n : ℤ)
  | shownDouble (value : ℚ)
deriving DecidableEq, Repr

/-- Source: `AddSpecificData.kt`, `setCurrent`. -/
def setCurrent (currentEntry : CurrentEntry) (arr : Option (List ℤ)) : CurrentEntry :=
  match arr with
  | none => currentEntry
  | some arr =>
      match arr.getLast? with
      | none => .noCurrentValue
      | some x => .shownLong x

/-- Source: `AddSpecificData.kt`, `determineCurrentToSet`. -/
def determineCurrentToSet (data : NutritionData) (firestoreID : String)
    (currentEntry : CurrentEntry) : CurrentEntry :=
  if firestoreID = "weight" then setCurrent currentEntry data.weight
  else if firestoreID = "height" then setCurrent currentEntry data.height
  else if firestoreID = "activity_level" then setCurrent currentEntry data.activityLevel
  else if firestoreID = "body_fat_percentage" then setCurrent currentEntry data.bodyFatPercentage
  else if firestoreID = "waist_size" then setCurrent currentEntry data.waistSize
  else if firestoreID = "chest_size" then setCurrent currentEntry data.chestSize
  else if firestoreID = "birthday" then setCurrent currentEntry data.birthday
  else currentEntry

/-- `Double.toInt`: the number truncated and cut to 32 bits, the end of the range for an infinity
and zero for NaN. -/
def toInt {N : Type} [Arithmetic N] (x : N) : ℤ :=
  match value x with
  | .finite q => saturate (-2 ^ 31) (2 ^ 31 - 1) (trunc q)
  | .infinite negative => if negative then -2 ^ 31 else 2 ^ 31 - 1
  | .nan => 0

/-- A Save with a text in the field: the document and the current entry after it; `none` where
`toDouble` throws. Source: `AddSpecificData.kt`, `setData`. -/
def setData (toDouble : String → Option ℚ) (dataID dataEntry : String) (document : Document) :
    Option (Document × CurrentEntry) := do
  let value ← toDouble dataEntry
  let document := Function.update document dataID (some (arrayUnion (document dataID) value))
  let currentEntry :=
    if dataID = "activity_level" then .shownDouble value else .shownLong (toInt value)
  return (document, currentEntry)

/-- A Save on the screen of a data type updates its list field. -/
theorem setData_eq {toDouble : String → Option ℚ} {dataEntry : String} {value : ℚ}
    (h : toDouble dataEntry = some value) (t : DataTypes) (document : Document) :
    ∃ currentEntry, setData toDouble (getDataCustomizations (some t.value)).firestoreID dataEntry
      document = some (document.union t.field value, currentEntry) := by
  rw [firestoreID_value]
  unfold setData
  rw [h]
  exact ⟨_, rfl⟩

/-! ## One Save after the other -/

/-- A Save: the screen it is on and the text in its field. -/
abbrev Save := DataTypes × String

/-- The document after a Save. -/
def save (toDouble : String → Option ℚ) (document : Document) (s : Save) : Option Document :=
  (setData toDouble (getDataCustomizations (some s.1.value)).firestoreID s.2 document).map
    Prod.fst

/-- The document after Saves acknowledged one by one. -/
def saveAll (toDouble : String → Option ℚ) (document : Document) (saves : List Save) :
    Option Document := saves.foldlM (save toDouble) document

variable {toDouble : String → Option ℚ}

/-- A Save of a number. -/
theorem save_eq {t : DataTypes} {dataEntry : String} {value : ℚ}
    (h : toDouble dataEntry = some value) (document : Document) :
    save toDouble document (t, dataEntry) = some (document.union t.field value) := by
  obtain ⟨currentEntry, heq⟩ := setData_eq h t document
  unfold save
  rw [heq]
  rfl

/-- The text of a Save is a number that a `Long` holds. -/
def InLongRange (toDouble : String → Option ℚ) (s : Save) : Prop :=
  ∃ value n, toDouble s.2 = some value ∧ toLong value = some n

/-- **Run lemma**: Saves of numbers in range leave a document that maps, with the lists of the
other data types as they were. -/
theorem saveAll_mapped {document : Document} {data : NutritionData}
    (h : toObject document = some data) {saves : List Save}
    (hsaves : ∀ s ∈ saves, InLongRange toDouble s) :
    ∃ document' data', saveAll toDouble document saves = some document' ∧
      toObject document' = some data' ∧
      ∀ f, (∀ s ∈ saves, s.1.field ≠ f) → numbers document' f = numbers document f := by
  induction saves generalizing document data with
  | nil => exact ⟨document, data, rfl, h, fun f _ => rfl⟩
  | cons s saves ih =>
      obtain ⟨t, dataEntry⟩ := s
      obtain ⟨⟨value, n, hvalue, hn⟩, hrest⟩ := List.forall_mem_cons.mp hsaves
      obtain ⟨xs, -, hunion⟩ := toObject_union h t.field hn
      obtain ⟨document', data', hall, hmapped, hframe⟩ := ih hunion hrest
      refine ⟨document', data', ?_, hmapped, ?_⟩
      · unfold saveAll at hall ⊢
        rw [List.foldlM_cons, save_eq hvalue]
        exact hall
      · intro f hf
        obtain ⟨hne, hf⟩ := List.forall_mem_cons.mp hf
        rw [hframe f hf, numbers_union, if_neg (Ne.symm hne)]

/-- Saves one after the other, in two parts. -/
theorem saveAll_append (document : Document) (saves saves' : List Save) :
    saveAll toDouble document (saves ++ saves') =
      (saveAll toDouble document saves).bind fun document => saveAll toDouble document saves' :=
  List.foldlM_append

end AdvMad.MTrackerAndroid
