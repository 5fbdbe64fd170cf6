import AdvMad.MTracker.Energy
import AdvMad.MTrackerIos.FitnessData
import AdvMad.Found.Trunc

/-!
# MTracker for iOS: the calculation

`MacroDataController.calculateMacros` and the five getters it reads the table through. A Swift call
ends in a value, in an error thrown, or in a trap that ends the process; `Throws` is the type of
the three, and `catching` the `do`/`catch` that turns any error into one, letting traps through.

* `readNewest` — what the five getters share: the newest entry of one metric, parsed. On a table of
  the seven metrics it never traps (`readNewest_tableOf`); a table of fewer than six records makes
  the calculation trap (`calculateMacros_of_lt`).
* `macrosOf` — the arithmetic between the getters and the result.
* `calculateMacros_tableOf_throws_iff` — on a table of the seven metrics the calculation throws
  exactly when one of the five metrics it reads has no newest entry that parses.

Scope: the stored macros (`MacroDataModel`, `loadMacroData`, `updateData`) are read by nothing here
and are left out; the printed lines are too.
-/

namespace AdvMad.MTrackerIos

open AdvMad.Found

/-- What ends a process. -/
inductive Trap
  /-- An array accessed out of range. -/
  | indexOutOfRange
  /-- A floating-point number converted to an integer type that cannot hold it. -/
  | intConversion
deriving DecidableEq, Repr

/-- How a call fails to return: a trap, or an error thrown. -/
inductive Fault (ε : Type)
  | trap (why : Trap)
  | thrown (e : ε)
deriving DecidableEq, Repr

/-- The result of a throwing call. -/
abbrev Throws (ε α : Type) := Except (Fault ε) α

/-- An array access, `none` out of range. -/
def subscripted {ε α : Type} : Option α → Throws ε α
  | some x => .ok x
  | none => .error (.trap .indexOutOfRange)

/-- Catch every error and throw `e` instead. -/
def catching {ε α : Type} (e : ε) : Throws ε α → Throws ε α
  | .error (.thrown _) => .error (.thrown e)
  | r => r

/-- Source: `MacroData.swift`, `DataRetrievalErrors`. -/
inductive DataRetrievalErrors
  | WeightDataNotAvailable
  | HeightDataNotAvailable
  | BFPDataNotAvailable
  | BirthdayNotAvailable
  | ActivityLevelNotAvailable
  | SomethingWentWrong
deriving DecidableEq, Repr

/-- Source: `MacroData.swift`, `Macros`. -/
structure Macros (N : Type) where
  protein : N
  fat : N
  carbohydrates : N
deriving DecidableEq, Repr

/-- The years between two days, as the calculation counts them. Source: `MacroData.swift`,
`getAge`. -/
def yearsBetween (dob today : Day) : ℤ := (today.year : ℤ) - dob.year

namespace MacroDataController

variable {N Content : Type} [Arithmetic N]

/-! ## The getters -/

/-- The newest entry of the metric at `metricIndex`, parsed; `notAvailable` is thrown when there is
none, and when it does not parse. -/
def readNewest {α : Type} (parse : String → Option α) (notAvailable : DataRetrievalErrors)
    (metricIndex : ℕ) (allData : List FitnessDataModel) : Throws DataRetrievalErrors α := do
  let array ← subscripted (FitnessDataController.getDataForMetric allData metricIndex)
  if array.length = 0 then throw (.thrown notAvailable)
  let newest ← subscripted array[0]?
  match parse newest.value with
  | some x => return x
  | none => throw (.thrown notAvailable)

/-- Pounds, in kilograms. Source: `MacroData.swift`, `getWeight`. -/
def parseWeight (env : Foundation N Content) (text : String) : Option N :=
  (env.double text).map fun intWeight => intWeight / ofRat 2.205

/-- Inches, in centimetres. Source: `MacroData.swift`, `getHeight`. -/
def parseHeight (env : Foundation N Content) (text : String) : Option N :=
  (env.double text).map fun inchHeight => inchHeight * ofRat 2.54

/-- The years between the year of birth and the current year. Source: `MacroData.swift`,
`getAge`. -/
def parseAge (env : Foundation N Content) (today : Day) (text : String) : Option N :=
  (env.dateFormatter.date text).map fun dob => ofRat (yearsBetween dob today)

variable (env : Foundation N Content) (today : Day) (allData : List FitnessDataModel)

/-- Source: `MacroData.swift`, `getWeight`. -/
def getWeight : Throws DataRetrievalErrors N :=
  readNewest (parseWeight env) .WeightDataNotAvailable FitnessDataController.weight allData

/-- Source: `MacroData.swift`, `getHeight`. -/
def getHeight : Throws DataRetrievalErrors N :=
  readNewest (parseHeight env) .HeightDataNotAvailable FitnessDataController.height allData

/-- Source: `MacroData.swift`, `getBodyFatPercentage`. -/
def getBodyFatPercentage : Throws DataRetrievalErrors N :=
  readNewest env.double .BFPDataNotAvailable FitnessDataController.bodyFatPercentage allData

/-- Source: `MacroData.swift`, `getActivityLevel`. -/
def getActivityLevel : Throws DataRetrievalErrors N :=
  readNewest env.double .ActivityLevelNotAvailable FitnessDataController.activityLevel allData

/-- Source: `MacroData.swift`, `getAge`. -/
def getAge : Throws DataRetrievalErrors N :=
  readNewest (parseAge env today) .BirthdayNotAvailable FitnessDataController.birthday allData

/-! ## The calculation -/

/-- Source: `MacroData.swift`, `calculateBMR_KatchMcArdle`. -/
def calculateBMRKatchMcArdle (bfp kgWeight : N) : N :=
  let leanBodyMass := (kgWeight * (ofRat 100 - bfp)) / ofRat 100
  ofRat 370 + (ofRat 21.6 * leanBodyMass)

/-- Source: `MacroData.swift`, `calculateBMR_MifflinStJeor`. -/
def calculateBMRMifflinStJeor (kgWeight cmHeight age : N) : N :=
  (ofRat 10 * kgWeight) + (ofRat 6.25 * cmHeight) - (ofRat 5 * age) + ofRat 5

/-- The daily energy of the two formulas' average. Source: `MacroData.swift`, `calculateMacros`. -/
def tdeeGrams (kgWeight height bodyFatPercentage age activityLevel : N) : N :=
  let bmrKatchMcArdle := calculateBMRKatchMcArdle bodyFatPercentage kgWeight
  let bmrMifflinStJeor := calculateBMRMifflinStJeor kgWeight height age
  let bmrAvg := (bmrKatchMcArdle + bmrMifflinStJeor) / ofRat 2
  bmrAvg * activityLevel

/-- Calculated exactly, the energy is the polynomial in pounds, inches, percent and years. -/
theorem tdeeGrams_eq (weight height bodyFatPercentage age activityLevel : ℚ) :
    tdeeGrams (weight / 2.205) (height * 2.54) bodyFatPercentage age activityLevel =
      MTracker.energy weight height bodyFatPercentage age activityLevel := by
  simp only [tdeeGrams, calculateBMRKatchMcArdle, calculateBMRMifflinStJeor, MTracker.energy,
    ofRat_rat]
  ring

/-- The shares of a daily energy. Source: `MacroData.swift`, `calculateMacros`. -/
def shares (tdeeGrams : N) : Macros N :=
  { protein := tdeeGrams * ofRat 0.4, fat := tdeeGrams * ofRat 0.3,
    carbohydrates := tdeeGrams * ofRat 0.3 }

/-- The shares of an energy calculated exactly. -/
theorem shares_rat (energy : ℚ) : shares energy = ⟨energy * 0.4, energy * 0.3, energy * 0.3⟩ := rfl

/-- The macros from what the getters return. Source: `MacroData.swift`, `calculateMacros`. -/
def macrosOf (kgWeight height bodyFatPercentage age activityLevel : N) : Macros N :=
  shares (tdeeGrams kgWeight height bodyFatPercentage age activityLevel)

/-- Source: `MacroData.swift`, `calculateMacros`. -/
def calculateMacros : Throws DataRetrievalErrors (Macros N) :=
  catching .SomethingWentWrong do
    let kgWeight ← getWeight env allData
    let height ← getHeight env allData
    let bodyFatPercentage ← getBodyFatPercentage env allData
    let age ← getAge env today allData
    let activityLevel ← getActivityLevel env allData
    return macrosOf kgWeight height bodyFatPercentage age activityLevel

/-- The macros where all five getters return. -/
theorem calculateMacros_of_getters {env : Foundation N Content} {today : Day}
    {allData : List FitnessDataModel} {kgWeight height bodyFatPercentage age activityLevel : N}
    (hw : getWeight env allData = .ok kgWeight) (hh : getHeight env allData = .ok height)
    (hb : getBodyFatPercentage env allData = .ok bodyFatPercentage)
    (ha : getAge env today allData = .ok age)
    (hl : getActivityLevel env allData = .ok activityLevel) :
    calculateMacros env today allData =
      .ok (macrosOf kgWeight height bodyFatPercentage age activityLevel) := by
  unfold calculateMacros
  rw [hw, hh, hb, ha, hl]
  rfl

/-! ## What a getter reads -/

/-- What reading the newest of a list of entries gives: its value parsed, or the error. -/
def newestOf {α : Type} (parse : String → Option α) (notAvailable : DataRetrievalErrors)
    (entries : List FitnessDataDetail) : Throws DataRetrievalErrors α :=
  match entries.head?.bind fun e => parse e.value with
  | some x => .ok x
  | none => .error (.thrown notAvailable)

/-- A value that is converted once it is read. -/
theorem newestOf_map {α β : Type} (read : String → Option α) (g : α → β)
    (notAvailable : DataRetrievalErrors) (entries : List FitnessDataDetail) :
    newestOf (fun text => (read text).map g) notAvailable entries =
      (newestOf read notAvailable entries).map g := by
  unfold newestOf
  cases entries with
  | nil => rfl
  | cons e es =>
      simp only [List.head?_cons, Option.bind_some]
      cases read e.value <;> rfl

/-- A getter whose metric has these entries reads the newest of them. -/
theorem readNewest_eq_newestOf {α : Type} (parse : String → Option α)
    (notAvailable : DataRetrievalErrors) {metricIndex : ℕ} {allData : List FitnessDataModel}
    {entries : List FitnessDataDetail}
    (h : FitnessDataController.getDataForMetric allData metricIndex = some entries) :
    readNewest parse notAvailable metricIndex allData = newestOf parse notAvailable entries := by
  unfold readNewest newestOf
  rw [h]
  cases entries with
  | nil => rfl
  | cons e es =>
      simp only [subscripted, bind, Except.bind, List.length_cons, Nat.add_one_ne_zero, if_false,
        List.getElem?_cons_zero, List.head?_cons, Option.bind_some, pure, Except.pure]
      cases parse e.value <;> rfl

/-- On a table of the seven metrics it is the newest entry of its metric: no getter traps. -/
theorem readNewest_tableOf {α : Type} (parse : String → Option α)
    (notAvailable : DataRetrievalErrors) (f : Metric → List FitnessDataDetail) (m : Metric) :
    readNewest parse notAvailable m.row (tableOf f) = newestOf parse notAvailable (f m) :=
  readNewest_eq_newestOf parse notAvailable (FitnessDataController.getDataForMetric_tableOf f m)

/-! ## What the calculation reads -/

/-- The metrics the calculation reads. -/
def neededMetrics : List Metric := [.weight, .height, .bodyFatPercentage, .birthday, .activityLevel]

/-- The values of the five entries it reads. -/
structure Values (N : Type) where
  weight : N
  height : N
  bodyFatPercentage : N
  birthday : Day
  activityLevel : N

/-- The values of the newest entries, if all of them can be read. -/
def newestValues (f : Metric → List FitnessDataDetail) : Option (Values N) := do
  let weight ← (f .weight).head?.bind fun e => env.double e.value
  let height ← (f .height).head?.bind fun e => env.double e.value
  let bodyFatPercentage ← (f .bodyFatPercentage).head?.bind fun e => env.double e.value
  let birthday ← (f .birthday).head?.bind fun e => env.dateFormatter.date e.value
  let activityLevel ← (f .activityLevel).head?.bind fun e => env.double e.value
  return ⟨weight, height, bodyFatPercentage, birthday, activityLevel⟩

/-- The daily energy on a day. -/
def Values.energy (v : Values N) (today : Day) : N :=
  tdeeGrams (v.weight / ofRat 2.205) (v.height * ofRat 2.54) v.bodyFatPercentage
    (ofRat (yearsBetween v.birthday today)) v.activityLevel

/-- Calculated exactly, it is the polynomial. -/
theorem Values.energy_eq (v : Values ℚ) (today : Day) :
    v.energy today = MTracker.energy v.weight v.height v.bodyFatPercentage
      (yearsBetween v.birthday today) v.activityLevel :=
  tdeeGrams_eq _ _ _ _ _

/-- The entries in the row of a metric; none where the table has no such row. -/
def entriesAt (m : Metric) : List FitnessDataDetail :=
  (FitnessDataController.getDataForMetric allData m.row).getD []

/-- A table of the seven metrics has the entries of each in its row. -/
@[simp] theorem entriesAt_tableOf (f : Metric → List FitnessDataDetail) :
    entriesAt (tableOf f) = f := by
  funext m
  unfold entriesAt
  rw [FitnessDataController.getDataForMetric_tableOf, Option.getD_some]

/-- With six records each getter has its row: the weight, in row 5, comes last of the five. -/
theorem readNewest_of_le {α : Type} (parse : String → Option α)
    (notAvailable : DataRetrievalErrors) {allData : List FitnessDataModel}
    (h : 6 ≤ allData.length) {m : Metric} (hm : m ∈ neededMetrics) :
    readNewest parse notAvailable m.row allData =
      newestOf parse notAvailable (entriesAt allData m) := by
  have hrow : m.row < 6 := by
    revert m
    decide
  have hlt : m.row < allData.length := by omega
  have hget : FitnessDataController.getDataForMetric allData m.row = some allData[m.row].Data := by
    unfold FitnessDataController.getDataForMetric
    rw [List.getElem?_eq_getElem hlt, Option.map_some]
  rw [readNewest_eq_newestOf parse notAvailable hget]
  unfold entriesAt
  rw [hget, Option.getD_some]

/-- **The calculation on a table of six records**: the shares of the energy of the newest values, or
the one error where a value is missing. -/
theorem calculateMacros_of_le (env : Foundation N Content) (today : Day)
    {allData : List FitnessDataModel} (h : 6 ≤ allData.length) :
    calculateMacros env today allData =
      match newestValues env (entriesAt allData) with
      | some v => .ok (shares (v.energy today))
      | none => .error (.thrown .SomethingWentWrong) := by
  have hw : getWeight env allData = (newestOf env.double .WeightDataNotAvailable
      (entriesAt allData .weight)).map (· / ofRat 2.205) :=
    (readNewest_of_le _ _ h (m := .weight) (by decide)).trans (newestOf_map _ _ _ _)
  have hh : getHeight env allData = (newestOf env.double .HeightDataNotAvailable
      (entriesAt allData .height)).map (· * ofRat 2.54) :=
    (readNewest_of_le _ _ h (m := .height) (by decide)).trans (newestOf_map _ _ _ _)
  have hb : getBodyFatPercentage env allData = newestOf env.double .BFPDataNotAvailable
      (entriesAt allData .bodyFatPercentage) :=
    readNewest_of_le _ _ h (m := .bodyFatPercentage) (by decide)
  have ha : getAge env today allData = (newestOf env.dateFormatter.date .BirthdayNotAvailable
      (entriesAt allData .birthday)).map fun dob => ofRat (yearsBetween dob today) :=
    (readNewest_of_le _ _ h (m := .birthday) (by decide)).trans (newestOf_map _ _ _ _)
  have hl : getActivityLevel env allData = newestOf env.double .ActivityLevelNotAvailable
      (entriesAt allData .activityLevel) :=
    readNewest_of_le _ _ h (m := .activityLevel) (by decide)
  unfold calculateMacros
  rw [hw, hh, hb, ha, hl]
  unfold newestValues newestOf
  -- the five readings in the order of the source; the first that fails ends both sides
  cases (entriesAt allData .weight).head?.bind fun e => env.double e.value with
  | none => rfl
  | some w => ?_
  cases (entriesAt allData .height).head?.bind fun e => env.double e.value with
  | none => rfl
  | some t => ?_
  cases (entriesAt allData .bodyFatPercentage).head?.bind fun e => env.double e.value with
  | none => rfl
  | some b => ?_
  cases (entriesAt allData .birthday).head?.bind fun e => env.dateFormatter.date e.value with
  | none => rfl
  | some dob => ?_
  cases (entriesAt allData .activityLevel).head?.bind fun e => env.double e.value with
  | none => rfl
  | some l => rfl

/-- With fewer the first getter reads past the end, and nothing catches that. -/
theorem calculateMacros_of_lt (env : Foundation N Content) (today : Day)
    {allData : List FitnessDataModel} (h : allData.length < 6) :
    calculateMacros env today allData = .error (.trap .indexOutOfRange) := by
  have hnone : allData[FitnessDataController.weight]? = none :=
    List.getElem?_eq_none (Nat.le_of_lt_succ h)
  unfold calculateMacros getWeight readNewest FitnessDataController.getDataForMetric
  rw [hnone]
  rfl

/-! ## On a table of the seven metrics -/

/-- The text of a metric's entry is one the calculation can read. -/
def Reads : Metric → String → Prop
  | .birthday, text => (env.dateFormatter.date text).isSome
  | _, text => (env.double text).isSome

/-- The newest entry of a metric exists and can be read. -/
def NewestReads (f : Metric → List FitnessDataDetail) (m : Metric) : Prop :=
  ∃ e, (f m).head? = some e ∧ Reads env m e.value

omit [Arithmetic N] in
/-- It can be read exactly where reading it gives a value. -/
theorem newestReads_iff (env : Foundation N Content) (m : Metric) {α : Type}
    {parse : String → Option α} (hparse : ∀ text, (parse text).isSome ↔ Reads env m text)
    (f : Metric → List FitnessDataDetail) :
    NewestReads env f m ↔ ((f m).head?.bind fun e => parse e.value).isSome := by
  unfold NewestReads
  cases (f m).head? with
  | none => simp
  | some e => simp [hparse]

omit [Arithmetic N] in
/-- There are values exactly where the newest entries of the five metrics can be read. -/
theorem newestValues_isSome_iff (env : Foundation N Content)
    (f : Metric → List FitnessDataDetail) :
    (newestValues env f).isSome ↔ ∀ m ∈ neededMetrics, NewestReads env f m := by
  have hw := newestReads_iff env .weight (fun _ => Iff.rfl) f
  have hh := newestReads_iff env .height (fun _ => Iff.rfl) f
  have hb := newestReads_iff env .bodyFatPercentage (fun _ => Iff.rfl) f
  have ha := newestReads_iff env .birthday (fun _ => Iff.rfl) f
  have hl := newestReads_iff env .activityLevel (fun _ => Iff.rfl) f
  simp only [neededMetrics, List.forall_mem_cons, List.not_mem_nil, false_implies, implies_true,
    and_true, hw, hh, hb, ha, hl, newestValues]
  cases (f .weight).head?.bind fun e => env.double e.value <;>
    cases (f .height).head?.bind fun e => env.double e.value <;>
    cases (f .bodyFatPercentage).head?.bind fun e => env.double e.value <;>
    cases (f .birthday).head?.bind fun e => env.dateFormatter.date e.value <;>
    cases (f .activityLevel).head?.bind fun e => env.double e.value <;> simp

/-- **When the calculation fails**: on a table of the seven metrics it throws exactly when one of
the five metrics it reads has no newest entry that can be read, and never traps. -/
theorem calculateMacros_tableOf_cases (env : Foundation N Content) (today : Day)
    (f : Metric → List FitnessDataDetail) :
    ((∀ m ∈ neededMetrics, NewestReads env f m) ∧
      ∃ macros, calculateMacros env today (tableOf f) = .ok macros) ∨
    ((∃ m ∈ neededMetrics, ¬ NewestReads env f m) ∧
      calculateMacros env today (tableOf f) = .error (.thrown .SomethingWentWrong)) := by
  have hlength : 6 ≤ (tableOf f).length := by simp
  have heq := calculateMacros_of_le env today hlength
  have hreads := newestValues_isSome_iff env f
  rw [entriesAt_tableOf] at heq
  cases hv : newestValues env f with
  | some v =>
      rw [hv] at heq hreads
      exact Or.inl ⟨hreads.mp rfl, _, heq⟩
  | none =>
      rw [hv] at heq hreads
      refine Or.inr ⟨?_, heq⟩
      by_contra hall
      have hsome := hreads.mpr fun m hm => by_contra fun hn => hall ⟨m, hm, hn⟩
      cases hsome

/-- The calculation throws exactly when a metric it reads has no newest entry that can be read. -/
theorem calculateMacros_tableOf_throws_iff (env : Foundation N Content) (today : Day)
    (f : Metric → List FitnessDataDetail) :
    calculateMacros env today (tableOf f) = .error (.thrown .SomethingWentWrong) ↔
      ∃ m ∈ neededMetrics, ¬ NewestReads env f m := by
  rcases calculateMacros_tableOf_cases env today f with ⟨hall, macros, heq⟩ | ⟨hex, heq⟩
  · rw [heq]
    apply iff_of_false (by simp)
    rintro ⟨m, hm, hn⟩
    exact hn (hall m hm)
  · exact iff_of_true heq hex

end MacroDataController

end AdvMad.MTrackerIos
