import AdvMad.MTracker.Energy
import AdvMad.MTrackerAndroid.AddSpecificData

/-!
# MTracker for Android: the macros screen

`MacrosFragment`: five getters that read the last element of a list field, the calculation, and the
update that stores its three amounts. The app calculates on `Double`; the translation is over any
`Arithmetic`, so that it can be compared with exact calculation.

* `lastEntry` — what the getters share; `-9` stands for a list that is absent or empty. The last
  element of a mapped list is that of the document, truncated (`lastEntry_of_toObject`).
* `calculateData` — the calculation; `none` where the screen falls back to its start state. On
  values that are not negative it gives the `shares` of their energy, exactly and on `Double`
  (`calculateFrom_of_nonneg`, `calculateFrom_of_notNegative`).
* `writeData` — the update of the three macro fields, which reads back (`stored_writeData`).
-/

namespace AdvMad.MTrackerAndroid

open AdvMad.Found

variable {N : Type} [Arithmetic N]

/-- Source: `MacroData.kt`, `MacroData`. -/
structure MacroData where
  protein : ℤ
  fat : ℤ
  carbs : ℤ
deriving DecidableEq, Repr

/-- The last element of a list, converted; `-9` where there is none. -/
def lastEntry (arr : Option (List ℤ)) (convert : N → N) : N :=
  match arr.bind List.getLast? with
  | some x => convert (ofRat x)
  | none => ofRat (-9)

/-- Pounds, in kilograms. Source: `MacrosFragment.kt`, `getWeight`. -/
def kilograms (mostRecentWeight : N) : N := mostRecentWeight / ofRat 2.205

/-- Inches, in centimetres. Source: `MacrosFragment.kt`, `getHeight`. -/
def centimetres (mostRecentHeight : N) : N := mostRecentHeight * ofRat 2.54

/-- Tenths above one. Source: `MacrosFragment.kt`, `getActivityLevel`. -/
def activityFactor (mostRecentActivityLevel : N) : N :=
  ofRat 1 + mostRecentActivityLevel / ofRat 10

/-- Source: `MacrosFragment.kt`, `getWeight`. -/
def getWeight (data : NutritionData) : N := lastEntry data.weight kilograms

/-- Source: `MacrosFragment.kt`, `getHeight`. -/
def getHeight (data : NutritionData) : N := lastEntry data.height centimetres

/-- Source: `MacrosFragment.kt`, `getBFP`. -/
def getBFP (data : NutritionData) : N := lastEntry data.bodyFatPercentage id

/-- Source: `MacrosFragment.kt`, `getAge`. -/
def getAge (data : NutritionData) : N := lastEntry data.birthday id

/-- Source: `MacrosFragment.kt`, `getActivityLevel`. -/
def getActivityLevel (data : NutritionData) : N := lastEntry data.activityLevel activityFactor

/-- Source: `MacrosFragment.kt`, `calculateBMRMifflinStJeor`. -/
def calculateBMRMifflinStJeor (kgWeight cmHeight age : N) : N :=
  (ofRat 10 * kgWeight) + (ofRat 6.25 * cmHeight) - (ofRat 5 * age) + ofRat 5

/-- Source: `MacrosFragment.kt`, `calculateBMRKatchMcArdle`. -/
def calculateBMRKatchMcArdle (bfp kgWeight : N) : N :=
  let leanBodyMass := (kgWeight * (ofRat 100 - bfp)) / ofRat 100
  ofRat 370 + (ofRat 21.6 * leanBodyMass)

/-- The daily energy. Source: `MacrosFragment.kt`, `calculateData`. -/
def tdeeGrams (kgWeight cmHeight bodyFatPercentage age activityLevel : N) : N :=
  let bmrKatchMcArdle := calculateBMRKatchMcArdle bodyFatPercentage kgWeight
  let bmrMifflinStJeor := calculateBMRMifflinStJeor kgWeight cmHeight age
  let bmrAvg := (bmrKatchMcArdle + bmrMifflinStJeor) / ofRat 2
  bmrAvg * activityLevel

/-- The amounts of a daily energy. Source: `MacrosFragment.kt`, `calculateData`. -/
def shares (tdeeGrams : N) : MacroData :=
  ⟨toInt (tdeeGrams * ofRat 0.4), toInt (tdeeGrams * ofRat 0.3), toInt (tdeeGrams * ofRat 0.4)⟩

/-- The calculation from what the getters return; `none` if one of them found no entry.
Source: `MacrosFragment.kt`, `calculateData`. -/
def calculateFrom (kgWeight cmHeight bodyFatPercentage age activityLevel : N) :
    Option MacroData :=
  if value kgWeight = .finite (-9) ∨ value cmHeight = .finite (-9) ∨
      value bodyFatPercentage = .finite (-9) ∨ value age = .finite (-9) ∨
      value activityLevel = .finite (-9) then
    none
  else some (shares (tdeeGrams kgWeight cmHeight bodyFatPercentage age activityLevel))

/-- Source: `MacrosFragment.kt`, `calculateData`. -/
def calculateData (N : Type) [Arithmetic N] (data : NutritionData) : Option MacroData :=
  calculateFrom (N := N) (getWeight data) (getHeight data) (getBFP data) (getAge data)
    (getActivityLevel data)

/-- The three macro fields are updated and no other.
Source: `MacrosFragment.kt`, `writeData`. -/
def writeData (macroData : MacroData) (document : Document) : Document :=
  Function.update (Function.update (Function.update document
    "macro_protein" (some (.number macroData.protein)))
    "macro_fat" (some (.number macroData.fat)))
    "macro_carb" (some (.number macroData.carbs))

/-! ## On values that are not negative -/

/-- Where no value is the mark for a missing entry the amounts are those of the energy. -/
theorem calculateFrom_of_ne {kgWeight cmHeight bodyFatPercentage age activityLevel : N}
    (hweight : value kgWeight ≠ .finite (-9)) (hheight : value cmHeight ≠ .finite (-9))
    (hbfp : value bodyFatPercentage ≠ .finite (-9)) (hage : value age ≠ .finite (-9))
    (hactivity : value activityLevel ≠ .finite (-9)) :
    calculateFrom kgWeight cmHeight bodyFatPercentage age activityLevel =
      some (shares (tdeeGrams kgWeight cmHeight bodyFatPercentage age activityLevel)) := by
  apply if_neg
  rintro (h | h | h | h | h)
  · exact hweight h
  · exact hheight h
  · exact hbfp h
  · exact hage h
  · exact hactivity h

/-- Calculated exactly, the energy is the polynomial in pounds, inches, percent and years. -/
theorem tdeeGrams_eq (weight height bodyFatPercentage age activityLevel : ℚ) :
    tdeeGrams (kilograms weight) (centimetres height) bodyFatPercentage age activityLevel =
      MTracker.energy weight height bodyFatPercentage age activityLevel := by
  simp only [tdeeGrams, calculateBMRKatchMcArdle, calculateBMRMifflinStJeor, kilograms,
    centimetres, MTracker.energy, ofRat_rat]
  ring

/-- Calculated exactly, values that are not negative give the amounts of their energy: no conversion
yields the mark. -/
theorem calculateFrom_of_nonneg {weight height bodyFatPercentage age activityLevel : ℚ}
    (hweight : 0 ≤ weight) (hheight : 0 ≤ height) (hbfp : 0 ≤ bodyFatPercentage) (hage : 0 ≤ age)
    (hactivity : 0 ≤ activityLevel) :
    calculateFrom (kilograms weight) (centimetres height) bodyFatPercentage age activityLevel =
      some (shares (MTracker.energy weight height bodyFatPercentage age activityLevel)) := by
  have hmark : ∀ {q : ℚ}, 0 ≤ q → value q ≠ .finite (-9) := fun h =>
    Extended.NotNegative.ne (x := .finite _) h (by norm_num)
  have hkg : 0 ≤ kilograms weight := by
    unfold kilograms
    rw [ofRat_rat]
    positivity
  have hcm : 0 ≤ centimetres height := by
    unfold centimetres
    rw [ofRat_rat]
    positivity
  rw [calculateFrom_of_ne (hmark hkg) (hmark hcm) (hmark hbfp) (hmark hage) (hmark hactivity),
    tdeeGrams_eq]

/-- So do they on `Double`, with the energy calculated there. -/
theorem calculateFrom_of_notNegative {weight height bodyFatPercentage age level : Double}
    (hweight : (value weight).NotNegative) (hheight : (value height).NotNegative)
    (hbfp : (value bodyFatPercentage).NotNegative) (hage : (value age).NotNegative)
    (hlevel : (value level).NotNegative) :
    calculateFrom (kilograms weight) (centimetres height) bodyFatPercentage age
        (activityFactor level) =
      some (shares (tdeeGrams (kilograms weight) (centimetres height) bodyFatPercentage age
        (activityFactor level))) := by
  have hlit : ∀ {q : ℚ}, 0 ≤ q → (value (ofRat q : Double)).NotNegative := fun h =>
    Extended.NotNegative.round (x := .finite _) h
  have hmark : ∀ {x : Double}, (value x).NotNegative → value x ≠ .finite (-9) := fun h =>
    h.ne (by norm_num)
  apply calculateFrom_of_ne
  · exact hmark (hweight.div (hlit (by norm_num))).round
  · exact hmark (hheight.mul (hlit (by norm_num))).round
  · exact hmark hbfp
  · exact hmark hage
  · exact hmark ((hlit (by norm_num)).add (hlevel.div (hlit (by norm_num))).round).round

/-! ## What the getters read off the document -/

/-- **The last number of a list field, truncated, is what its getter converts.** -/
theorem lastEntry_of_toObject {document : Document} {data : NutritionData}
    (h : toObject document = some data) (f : ListField) (convert : N → N) :
    lastEntry (data.list f) convert =
      match (numbers document f).getLast?.map trunc with
      | some x => convert (ofRat x)
      | none => ofRat (-9) := by
  have hlist := (toObject_eq_some_iff.mp h).1 f
  have hlast := getLast?_mapM (numbers_of_toLongs hlist)
  unfold lastEntry
  rw [← hlast]
  cases data.list f <;> rfl

/-! ## The stored amounts -/

/-- The amounts in the macro fields. -/
def stored (document : Document) : Option MacroData :=
  match document "macro_protein", document "macro_fat", document "macro_carb" with
  | some (.number p), some (.number f), some (.number c) => some ⟨trunc p, trunc f, trunc c⟩
  | _, _, _ => none

/-- What is written is stored. -/
theorem stored_writeData (macroData : MacroData) (document : Document) :
    stored (writeData macroData document) = some macroData := by
  simp [stored, writeData]

/-- A Save leaves the stored amounts. -/
theorem stored_union (document : Document) (f : ListField) (value : ℚ) :
    stored (document.union f value) = stored document := by
  obtain ⟨hp, hf, hc⟩ := f.id_ne_macro
  unfold stored
  rw [document.union_of_ne f value hp.symm, document.union_of_ne f value hf.symm,
    document.union_of_ne f value hc.symm]

end AdvMad.MTrackerAndroid
