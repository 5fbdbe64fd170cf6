import AdvMad.MTrackerAndroid.Macros

/-!
# The texts of the macros screen

What `MacrosFragment` shows: the amounts of a calculation (`setData`), "Add Data" where an entry is
missing (`setStartState`), and on opening the stored amounts, where -1 in any of them stands for
"not calculated" and a missing field is replaced by -404 (`determineWhatToDo`).

* `newest` — the last element of a list field; the five that are calculated from are all that a
  refresh looks at (`calculateData_congr`), and on entries that are not negative it writes exactly
  when all five are there (`calculateData_of_entered`, `calculateData_of_missing`).
* `refresh_all_or_nothing` — a refresh of a document that maps.
* `share_eq_neg_one_iff` — an amount is -1 exactly for an energy, as the app has it, from above
  -20/3 to -5/2; the thresholds are those of the products in floating point.
* `macros_shown_again_iff` — the amounts just calculated are those shown at the next opening exactly
  for the energies at which none of them is -1; and where a macro field is missing the screen says
  "Add Data" only if another one holds -1.
-/

namespace AdvMad.MTrackerAndroid

open AdvMad.Found AdvMad.MTracker

/-- The three texts of the screen. Source: `fragment_macros.xml`. -/
structure Texts where
  proteinText : String
  fatText : String
  carbText : String
deriving DecidableEq, Repr

namespace MacrosFragment

/-- Source: `MacrosFragment.kt`, `setStartState`. -/
def setStartState : Texts := ⟨"Add Data", "Add Data", "Add Data"⟩

/-- Source: `MacrosFragment.kt`, `setData`. -/
def setData (macroData : MacroData) : Texts :=
  ⟨toString macroData.protein ++ "g", toString macroData.fat ++ "g",
    toString macroData.carbs ++ "g"⟩

/-- What an opening shows of the stored amounts. Source: `MacrosFragment.kt`,
`determineWhatToDo`. -/
def determineWhatToDo (data : NutritionData) : Texts :=
  if data.macroCarb = some (-1) ∨ data.macroFat = some (-1) ∨ data.macroProtein = some (-1) then
    setStartState
  else
    setData ⟨data.macroProtein.getD (-404), data.macroFat.getD (-404), data.macroCarb.getD (-404)⟩

/-- The document and the texts after a calculation. Source: `MacrosFragment.kt`,
`calculateData`. -/
def calculateData (data : NutritionData) (document : Document) : Document × Texts :=
  match MTrackerAndroid.calculateData Double data with
  | some macroData => (writeData macroData document, setData macroData)
  | none => (document, setStartState)

/-- A refresh whose request brings the document; `none` where the mapping throws.
Source: `MacrosFragment.kt`, `getData`. -/
def getData (document : Document) : Option (Document × Texts) :=
  (toObject document).map fun data => calculateData data document

/-- The text of an amount is no text that ends in another letter. -/
theorem amount_ne {text : String} (h : text.toList.getLast? ≠ some 'g') (n : ℤ) :
    toString n ++ "g" ≠ text := by
  rintro rfl
  apply h
  simp

/-- No amounts read "Add Data". -/
theorem setData_ne_setStartState (macroData : MacroData) : setData macroData ≠ setStartState := by
  intro h
  have htext : toString macroData.protein ++ "g" = "Add Data" := congrArg Texts.proteinText h
  exact amount_ne (by decide) macroData.protein htext

end MacrosFragment

/-! ## What is calculated from -/

/-- The list fields the calculation reads. -/
def calculated : List ListField := [.weight, .height, .bodyFatPercentage, .birthday, .activityLevel]

/-- What holds of them, field by field. -/
theorem forall_calculated {P : ListField → Prop} :
    (∀ f ∈ calculated, P f) ↔
      P .weight ∧ P .height ∧ P .bodyFatPercentage ∧ P .birthday ∧ P .activityLevel := by
  simp only [calculated, List.forall_mem_cons, List.not_mem_nil, IsEmpty.forall_iff, implies_true,
    and_true]

/-- The last element of a list field, none where the list is absent or empty. -/
def newest (data : NutritionData) (f : ListField) : Option ℤ := (data.list f).bind List.getLast?

/-- The entries of the lists calculated from are not negative. -/
def NonNegative (data : NutritionData) : Prop :=
  ∀ f ∈ calculated, ∀ xs, data.list f = some xs → ∀ x ∈ xs, 0 ≤ x

/-- There is a newest entry exactly in a list that is there and not empty. -/
theorem newest_isSome_iff (data : NutritionData) (f : ListField) :
    (∃ x, newest data f = some x) ↔ ∃ xs, data.list f = some xs ∧ xs ≠ [] := by
  unfold newest
  rcases hlist : data.list f with _ | xs
  · simp
  · rw [Option.bind_some]
    constructor
    · rintro ⟨x, hx⟩
      refine ⟨xs, rfl, ?_⟩
      rintro rfl
      simp at hx
    · rintro ⟨ys, hys, hne⟩
      obtain rfl := Option.some_inj.mp hys
      exact ⟨xs.getLast hne, List.getLast?_eq_some_getLast hne⟩

/-- A newest entry is not negative. -/
theorem NonNegative.newest {data : NutritionData} (h : NonNegative data) {f : ListField}
    (hf : f ∈ calculated) {x : ℤ} (hx : newest data f = some x) : 0 ≤ x := by
  obtain ⟨xs, hxs, hlast⟩ := Option.bind_eq_some_iff.mp hx
  exact h f hf xs hxs x (List.mem_of_getLast? hlast)

/-- A getter reads the newest entry. -/
theorem lastEntry_eq_newest (data : NutritionData) (f : ListField) (convert : Double → Double) :
    lastEntry (data.list f) convert =
      match newest data f with
      | some x => convert (ofRat x)
      | none => ofRat (-9) := rfl

/-- It converts the entry where there is one. -/
theorem lastEntry_of_newest {data : NutritionData} {f : ListField} {x : ℤ}
    (h : newest data f = some x) (convert : Double → Double) :
    lastEntry (data.list f) convert = convert (ofRat x) := by
  rw [lastEntry_eq_newest, h]

/-- It returns the mark where there is none. -/
theorem lastEntry_of_missing {data : NutritionData} {f : ListField} (h : newest data f = none)
    (convert : Double → Double) : value (lastEntry (data.list f) convert) = .finite (-9) := by
  rw [lastEntry_eq_newest, h]
  exact_mod_cast Double.value_ofRat_intCast (n := -9) (by norm_num)

/-- **Nothing but the newest entries counts.** -/
theorem calculateData_congr {data data' : NutritionData}
    (h : ∀ f ∈ calculated, newest data f = newest data' f) :
    calculateData Double data = calculateData Double data' := by
  have hread : ∀ f ∈ calculated, ∀ convert : Double → Double,
      lastEntry (data.list f) convert = lastEntry (data'.list f) convert := by
    intro f hf convert
    rw [lastEntry_eq_newest, lastEntry_eq_newest, h f hf]
  obtain ⟨hw, hh, hb, ha, hl⟩ := forall_calculated.mp hread
  have hweight : (getWeight data : Double) = getWeight data' := hw _
  have hheight : (getHeight data : Double) = getHeight data' := hh _
  have hbfp : (getBFP data : Double) = getBFP data' := hb _
  have hage : (getAge data : Double) = getAge data' := ha _
  have hactivity : (getActivityLevel data : Double) = getActivityLevel data' := hl _
  unfold calculateData
  rw [hweight, hheight, hbfp, hage, hactivity]

/-- The daily energy of five entries, as the app calculates it. -/
def dailyEnergy (w h b a l : ℤ) : Double :=
  tdeeGrams (kilograms (ofRat w)) (centimetres (ofRat h)) (ofRat b) (ofRat a)
    (activityFactor (ofRat l))

/-- With all five entries there, the amounts are those of their energy. -/
theorem calculateData_of_entered {data : NutritionData} (hnonneg : NonNegative data)
    {w h b a l : ℤ} (hw : newest data .weight = some w) (hh : newest data .height = some h)
    (hb : newest data .bodyFatPercentage = some b) (ha : newest data .birthday = some a)
    (hl : newest data .activityLevel = some l) :
    calculateData Double data = some (shares (dailyEnergy w h b a l)) := by
  have hweight : getWeight data = kilograms (ofRat w : Double) := lastEntry_of_newest hw _
  have hheight : getHeight data = centimetres (ofRat h : Double) := lastEntry_of_newest hh _
  have hbfp : getBFP data = (ofRat b : Double) := lastEntry_of_newest hb _
  have hage : getAge data = (ofRat a : Double) := lastEntry_of_newest ha _
  have hactivity : getActivityLevel data = activityFactor (ofRat l : Double) :=
    lastEntry_of_newest hl _
  have hnewest : ∀ f ∈ calculated, ∀ x, newest data f = some x →
      (value (ofRat x : Double)).NotNegative := by
    intro f hf x hx
    have hx' : (0 : ℚ) ≤ x := by exact_mod_cast hnonneg.newest hf hx
    exact Extended.NotNegative.round (x := .finite x) hx'
  obtain ⟨hw₀, hh₀, hb₀, ha₀, hl₀⟩ := forall_calculated.mp hnewest
  unfold calculateData
  rw [hweight, hheight, hbfp, hage, hactivity]
  exact calculateFrom_of_notNegative (hw₀ w hw) (hh₀ h hh) (hb₀ b hb) (ha₀ a ha) (hl₀ l hl)

/-- With one of the five missing, there are no amounts. -/
theorem calculateData_of_missing {data : NutritionData} {f : ListField} (hf : f ∈ calculated)
    (hmissing : newest data f = none) : calculateData Double data = none := by
  have hmark := lastEntry_of_missing hmissing
  unfold calculateData calculateFrom
  apply if_pos
  simp only [calculated, List.mem_cons, List.not_mem_nil, or_false] at hf
  rcases hf with rfl | rfl | rfl | rfl | rfl
  · exact Or.inl (hmark _)
  · exact Or.inr (Or.inl (hmark _))
  · exact Or.inr (Or.inr (Or.inl (hmark _)))
  · exact Or.inr (Or.inr (Or.inr (Or.inl (hmark _))))
  · exact Or.inr (Or.inr (Or.inr (Or.inr (hmark _))))

/-- The calculation gives amounts exactly when all five entries are there. -/
theorem calculateData_isSome_iff {data : NutritionData} (hnonneg : NonNegative data) :
    (∃ m, calculateData Double data = some m) ↔ ∀ f ∈ calculated, ∃ x, newest data f = some x := by
  constructor
  · rintro ⟨m, hm⟩ f hf
    rcases hx : newest data f with _ | x
    · rw [calculateData_of_missing hf hx] at hm
      simp at hm
    · exact ⟨x, rfl⟩
  · intro hall
    obtain ⟨⟨w, hw⟩, ⟨h, hh⟩, ⟨b, hb⟩, ⟨a, ha⟩, ⟨l, hl⟩⟩ := forall_calculated.mp hall
    exact ⟨_, calculateData_of_entered hnonneg hw hh hb ha hl⟩

/-! ## A refresh -/

/-- A refresh that calculates amounts writes and shows them. -/
theorem getData_of_some {document : Document} {data : NutritionData}
    (hdocument : toObject document = some data) {m : MacroData}
    (hm : calculateData Double data = some m) :
    MacrosFragment.getData document =
      some (writeData m document, MacrosFragment.setData m) := by
  unfold MacrosFragment.getData MacrosFragment.calculateData
  rw [hdocument, Option.map_some, hm]

/-- One that calculates none leaves the document and says "Add Data". -/
theorem getData_of_none {document : Document} {data : NutritionData}
    (hdocument : toObject document = some data) (hnone : calculateData Double data = none) :
    MacrosFragment.getData document = some (document, MacrosFragment.setStartState) := by
  unfold MacrosFragment.getData MacrosFragment.calculateData
  rw [hdocument, Option.map_some, hnone]

/-- The amounts a refresh writes and shows are those it calculates: they can be read off the
document. -/
theorem getData_writes_iff {document : Document} {data : NutritionData}
    (hdocument : toObject document = some data) (m : MacroData) :
    MacrosFragment.getData document =
        some (writeData m document, MacrosFragment.setData m) ↔
      calculateData Double data = some m := by
  constructor
  · intro hm
    rcases hcalc : calculateData Double data with _ | m'
    · rw [getData_of_none hdocument hcalc, Option.some_inj, Prod.mk.injEq] at hm
      exact absurd hm.2.symm (MacrosFragment.setData_ne_setStartState m)
    · rw [getData_of_some hdocument hcalc, Option.some_inj, Prod.mk.injEq] at hm
      have hstored := congrArg stored hm.1
      rwa [stored_writeData, stored_writeData] at hstored
  · exact getData_of_some hdocument

/-- The five lists are there and not empty exactly when there are amounts. -/
theorem forall_entered_iff {data : NutritionData} (hnonneg : NonNegative data) :
    (∀ f ∈ calculated, ∃ xs, data.list f = some xs ∧ xs ≠ []) ↔
      ∃ m, calculateData Double data = some m := by
  rw [calculateData_isSome_iff hnonneg]
  simp only [newest_isSome_iff]

/-- **A refresh is all or nothing and looks at the newest entries only.** Of a document that maps
and whose entries are not negative: the amounts are written and shown exactly when the five lists
are there and not empty; otherwise the document is unchanged and the screen says "Add Data"; and
another such document with the same five last elements gives the same amounts. Whatever is written
is what the macro fields then hold. -/
theorem refresh_all_or_nothing (document : Document) (data : NutritionData)
    (hdocument : toObject document = some data) (hnonneg : NonNegative data) :
    ((∃ m, MacrosFragment.getData document =
            some (writeData m document, MacrosFragment.setData m) ∧
          stored (writeData m document) = some m) ↔
        ∀ f ∈ calculated, ∃ xs, data.list f = some xs ∧ xs ≠ []) ∧
      ((¬ ∀ f ∈ calculated, ∃ xs, data.list f = some xs ∧ xs ≠ []) →
        MacrosFragment.getData document = some (document, MacrosFragment.setStartState)) ∧
      ∀ document' data', toObject document' = some data' →
        (∀ f ∈ calculated, (data.list f).bind List.getLast? = (data'.list f).bind List.getLast?) →
        ∀ m, MacrosFragment.getData document =
            some (writeData m document, MacrosFragment.setData m) →
          MacrosFragment.getData document' =
            some (writeData m document', MacrosFragment.setData m) := by
  rw [forall_entered_iff hnonneg]
  refine ⟨?_, ?_, ?_⟩
  · simp only [stored_writeData, and_true, getData_writes_iff hdocument]
  · intro hmissing
    apply getData_of_none hdocument
    rcases hcalc : calculateData Double data with _ | m
    · rfl
    · exact absurd ⟨m, hcalc⟩ hmissing
  · intro document' data' hdocument' hsame m hm
    rw [getData_writes_iff hdocument] at hm
    rw [getData_writes_iff hdocument', ← calculateData_congr hsame, hm]

/-- A document with one entry of everything the calculation reads: age 76, and the rest zero. -/
def agedDocument : Document := fun id =>
  if id = "weight" then some (.array [0])
  else if id = "height" then some (.array [0])
  else if id = "body_fat_percentage" then some (.array [0])
  else if id = "birthday" then some (.array [76])
  else if id = "activity_level" then some (.array [0])
  else none

/-- What it maps to. -/
def agedData : NutritionData :=
  ⟨some [0], some [76], some [0], none, some [0], none, some [0], none, none, none⟩

/-- None of its entries is negative. -/
theorem nonNegative_agedData : NonNegative agedData := by
  refine forall_calculated.mpr ⟨?_, ?_, ?_, ?_, ?_⟩
  all_goals
    intro xs hxs x hx
    cases hxs
    obtain rfl := List.mem_singleton.mp hx
    decide

/-- The law for that document. -/
theorem refresh_all_or_nothing_aged :
    ((∃ m, MacrosFragment.getData agedDocument =
            some (writeData m agedDocument, MacrosFragment.setData m) ∧
          stored (writeData m agedDocument) = some m) ↔
        ∀ f ∈ calculated, ∃ xs, agedData.list f = some xs ∧ xs ≠ []) ∧
      ((¬ ∀ f ∈ calculated, ∃ xs, agedData.list f = some xs ∧ xs ≠ []) →
        MacrosFragment.getData agedDocument =
          some (agedDocument, MacrosFragment.setStartState)) ∧
      ∀ document' data', toObject document' = some data' →
        (∀ f ∈ calculated,
          (agedData.list f).bind List.getLast? = (data'.list f).bind List.getLast?) →
        ∀ m, MacrosFragment.getData agedDocument =
            some (writeData m agedDocument, MacrosFragment.setData m) →
          MacrosFragment.getData document' =
            some (writeData m document', MacrosFragment.setData m) :=
  refresh_all_or_nothing agedDocument agedData (by decide +kernel) nonNegative_agedData

/-! ## The next opening -/

/-- A macro field is missing. -/
def MacroMissing (data : NutritionData) : Prop :=
  data.macroProtein = none ∨ data.macroFat = none ∨ data.macroCarb = none

/-- A macro field holds -1. -/
def MacroMarked (data : NutritionData) : Prop :=
  data.macroCarb = some (-1) ∨ data.macroFat = some (-1) ∨ data.macroProtein = some (-1)

/-- The opening says "Add Data" exactly where a macro field holds -1. -/
theorem determineWhatToDo_eq_setStartState_iff (data : NutritionData) :
    MacrosFragment.determineWhatToDo data = MacrosFragment.setStartState ↔ MacroMarked data := by
  unfold MacrosFragment.determineWhatToDo MacroMarked
  constructor
  · intro h
    by_contra hmarked
    rw [if_neg hmarked] at h
    exact MacrosFragment.setData_ne_setStartState _ h
  · intro hmarked
    exact if_pos hmarked

/-- A conversion to `Int` fits. -/
theorem toInt32_toInt {N : Type} [Arithmetic N] (x : N) : toInt32 (toInt x) = some (toInt x) := by
  have hrange : -2 ^ 31 ≤ toInt x ∧ toInt x ≤ 2 ^ 31 - 1 := by
    unfold toInt
    rcases value x with q | negative | _
    · exact saturate_mem (by norm_num) (trunc q)
    · cases negative <;> norm_num
    · norm_num
  unfold toInt32 toInteger
  rw [trunc_intCast]
  exact inRange_of_mem hrange.1 hrange.2

/-- The document with the amounts of an energy written to it maps to the data with these
amounts. -/
theorem toObject_writeData {document : Document} {data : NutritionData}
    (h : toObject document = some data) (energy : Double) :
    toObject (writeData (shares energy) document) = some { data with
      macroProtein := some (shares energy).protein
      macroFat := some (shares energy).fat
      macroCarb := some (shares energy).carbs } := by
  obtain ⟨hlists, -⟩ := toObject_eq_some_iff.mp h
  refine toObject_eq_some_iff.mpr ⟨?_, ?_, ?_, ?_⟩
  · intro f
    obtain ⟨hp, hf, hc⟩ := f.id_ne_macro
    unfold writeData
    rw [Function.update_of_ne hc, Function.update_of_ne hf, Function.update_of_ne hp, hlists f]
    cases f <;> rfl
  · simp [writeData, shares, toInt?, toInt32_toInt]
  · simp [writeData, shares, toInt?, toInt32_toInt]
  · simp [writeData, shares, toInt?, toInt32_toInt]

/-- The conversion of a number. -/
theorem toInt_of_finite {x : Double} {q : ℚ} (hx : value x = .finite q) :
    toInt x = saturate (-2 ^ 31) (2 ^ 31 - 1) (trunc q) := by
  unfold toInt
  rw [hx]

/-- A number is converted to -1 where it truncates to it. -/
theorem toInt_eq_neg_one_iff {x : Double} {q : ℚ} (hx : value x = .finite q) :
    toInt x = -1 ↔ -2 < q ∧ q ≤ -1 := by
  rw [toInt_of_finite hx, ← trunc_eq_neg_one_iff]
  unfold saturate
  omega

/-- Nothing else is. -/
theorem toInt_ne_neg_one {x : Double} (hx : ¬ (value x).IsFinite) : toInt x ≠ -1 := by
  unfold toInt
  rcases hvalue : value x with q | negative | _
  · exact absurd ⟨q, hvalue⟩ hx
  · cases negative <;> norm_num
  · norm_num

/-- Four tenths of a number reach one exactly from 5/2 on. -/
theorem one_le_nearest_iff {p : ℚ} (hp : Representable p) :
    1 ≤ nearest (p * nearest 0.4) ↔ 5 / 2 ≤ p :=
  le_nearest_mul_iff (m := 5 * 2 ^ 50 - 1) (e := -51) hp (nearest_nonneg (by norm_num))
    (by norm_num) (by decide +kernel) (by decide +kernel) (by decide +kernel) (by decide +kernel)

/-- Three tenths of a number reach two exactly from 20/3 on, which is no number of the format. -/
theorem two_le_nearest_iff {p : ℚ} (hp : Representable p) :
    2 ≤ nearest (p * nearest 0.3) ↔ 20 / 3 ≤ p :=
  le_nearest_mul_iff (m := 7505999378950826) (e := -50) hp (nearest_nonneg (by norm_num))
    (by norm_num) (by decide +kernel) (by decide +kernel) (by decide +kernel) (by decide +kernel)

/-- One of the two shares truncates to -1 exactly between the thresholds. -/
theorem nearest_shares_iff {q : ℚ} (hq : Representable q) :
    (-2 < nearest (q * nearest 0.4) ∧ nearest (q * nearest 0.4) ≤ -1 ∨
        -2 < nearest (q * nearest 0.3) ∧ nearest (q * nearest 0.3) ≤ -1) ↔
      -20 / 3 < q ∧ q ≤ -5 / 2 := by
  obtain ⟨p, rfl⟩ : ∃ p, q = -p := ⟨-q, (neg_neg q).symm⟩
  have hp : Representable p := by simpa using hq.neg
  have hfour := one_le_nearest_iff hp
  have hthree := two_le_nearest_iff hp
  have hmono₄ := fun {x y : ℚ} (h : x ≤ y) =>
    nearest_mono (mul_le_mul_of_nonneg_right h (nearest_nonneg (q := 0.4) (by norm_num)))
  have hmono₃ := fun {x y : ℚ} (h : x ≤ y) =>
    nearest_mono (mul_le_mul_of_nonneg_right h (nearest_nonneg (q := 0.3) (by norm_num)))
  simp only [neg_mul, nearest_neg]
  constructor
  · rintro (⟨hlt, hle⟩ | ⟨hlt, hle⟩)
    · have hlow := hfour.mp (by linarith)
      refine ⟨?_, by linarith⟩
      by_contra hlarge
      have hfive : 2 ≤ nearest (5 * nearest 0.4) := by decide +kernel
      linarith [hmono₄ (show 5 ≤ p by linarith)]
    · have hhigh : ¬ 20 / 3 ≤ p := fun h => by linarith [hthree.mpr h]
      refine ⟨by linarith, ?_⟩
      by_contra hsmall
      have hhalf : nearest (5 / 2 * nearest 0.3) < 1 := by decide +kernel
      linarith [hmono₃ (show p ≤ 5 / 2 by linarith)]
  · rintro ⟨hlt, hle⟩
    -- up to four the larger share is inside, and from four on the smaller one
    rcases le_total p 4 with h | h
    · left
      have hfour₀ : nearest (4 * nearest 0.4) < 2 := by decide +kernel
      have hone := hfour.mpr (by linarith)
      constructor <;> linarith [hmono₄ h]
    · right
      have hthree₀ : 1 ≤ nearest (4 * nearest 0.3) := by decide +kernel
      have htwo : ¬ 2 ≤ nearest (p * nearest 0.3) := fun h => by linarith [hthree.mp h]
      constructor <;> linarith [hmono₃ h]

/-- **The energies at which an amount is -1.** -/
theorem share_eq_neg_one_iff (energy : Double) :
    ((shares energy).carbs = -1 ∨ (shares energy).fat = -1 ∨ (shares energy).protein = -1) ↔
      ∃ q, value energy = .finite q ∧ -20 / 3 < q ∧ q ≤ -5 / 2 := by
  by_cases hfinite : (value energy).IsFinite
  · obtain ⟨q, hq⟩ := hfinite
    have hfour := Double.value_mul_ofRat hq (c := 0.4) (by norm_num) (by norm_num)
    have hthree := Double.value_mul_ofRat hq (c := 0.3) (by norm_num) (by norm_num)
    simp only [shares, toInt_eq_neg_one_iff hfour, toInt_eq_neg_one_iff hthree]
    rw [or_left_comm, or_self, or_comm, nearest_shares_iff (Double.isDouble_of_value hq).1]
    constructor
    · exact fun h => ⟨q, hq, h⟩
    · rintro ⟨q', hq', h⟩
      obtain rfl : q = q' := Extended.finite.inj (hq.symm.trans hq')
      exact h
  · have hne : ∀ y : Double, toInt (energy * y) ≠ -1 := fun y =>
      toInt_ne_neg_one fun h => hfinite h.of_round.of_mul
    apply iff_of_false
    · rintro (h | h | h)
      · exact hne _ h
      · exact hne _ h
      · exact hne _ h
    · rintro ⟨q, hq, -⟩
      exact hfinite ⟨q, hq⟩

/-- The amounts of an energy are shown again at the next opening exactly when none of them is
-1. -/
theorem shown_again_iff {document : Document} {data : NutritionData}
    (h : toObject document = some data) (energy : Double) :
    (toObject (writeData (shares energy) document)).map MacrosFragment.determineWhatToDo =
        some (MacrosFragment.setData (shares energy)) ↔
      ¬ ∃ q, value energy = .finite q ∧ -20 / 3 < q ∧ q ≤ -5 / 2 := by
  rw [toObject_writeData h, Option.map_some, Option.some_inj, ← share_eq_neg_one_iff]
  unfold MacrosFragment.determineWhatToDo
  simp only [Option.some_inj, Option.getD_some]
  by_cases hmarked : (shares energy).carbs = -1 ∨ (shares energy).fat = -1 ∨
      (shares energy).protein = -1
  · rw [if_pos hmarked]
    refine iff_of_false ?_ (not_not_intro hmarked)
    exact (MacrosFragment.setData_ne_setStartState _).symm
  · rw [if_neg hmarked]
    exact iff_of_true rfl hmarked

/-- **When the amounts are shown again, and when a missing amount is shown as missing.** For every
document that maps and whose entries are not negative: the amounts a calculation shows and writes
are what the next opening shows, iff the energy of the newest entries, as the app calculates it, is
no number from above -20/3 to -5/2, where an amount is -1; and an opening on a document with a
missing macro field says "Add Data" iff another macro field holds -1. -/
theorem macros_shown_again_iff (document : Document) (data : NutritionData)
    (hdocument : toObject document = some data) (hnonneg : NonNegative data) :
    ((∀ m, calculateData Double data = some m →
          (toObject (writeData m document)).map MacrosFragment.determineWhatToDo =
            some (MacrosFragment.setData m)) ↔
        ∀ w h b a l : ℤ, newest data .weight = some w → newest data .height = some h →
          newest data .bodyFatPercentage = some b → newest data .birthday = some a →
          newest data .activityLevel = some l →
          ¬ ∃ q, value (dailyEnergy w h b a l) = .finite q ∧ -20 / 3 < q ∧ q ≤ -5 / 2) ∧
      ((MacroMissing data →
          MacrosFragment.determineWhatToDo data = MacrosFragment.setStartState) ↔
        (MacroMissing data → MacroMarked data)) := by
  constructor
  · constructor
    · intro hall w h b a l hw hh hb ha hl
      rw [← shown_again_iff hdocument]
      exact hall _ (calculateData_of_entered hnonneg hw hh hb ha hl)
    · intro hall m hm
      have hentered := (calculateData_isSome_iff hnonneg).mp ⟨m, hm⟩
      obtain ⟨⟨w, hw⟩, ⟨h, hh⟩, ⟨b, hb⟩, ⟨a, ha⟩, ⟨l, hl⟩⟩ := forall_calculated.mp hentered
      have hshares := calculateData_of_entered hnonneg hw hh hb ha hl
      rw [hm, Option.some_inj] at hshares
      rw [hshares, shown_again_iff hdocument]
      exact hall w h b a l hw hh hb ha hl
  · rw [determineWhatToDo_eq_setStartState_iff]

/-- The law for that document. -/
theorem macros_shown_again_iff_aged :
    ((∀ m, calculateData Double agedData = some m →
          (toObject (writeData m agedDocument)).map MacrosFragment.determineWhatToDo =
            some (MacrosFragment.setData m)) ↔
        ∀ w h b a l : ℤ, newest agedData .weight = some w → newest agedData .height = some h →
          newest agedData .bodyFatPercentage = some b → newest agedData .birthday = some a →
          newest agedData .activityLevel = some l →
          ¬ ∃ q, value (dailyEnergy w h b a l) = .finite q ∧ -20 / 3 < q ∧ q ≤ -5 / 2) ∧
      ((MacroMissing agedData →
          MacrosFragment.determineWhatToDo agedData = MacrosFragment.setStartState) ↔
        (MacroMissing agedData → MacroMarked agedData)) :=
  macros_shown_again_iff agedDocument agedData (by decide +kernel) nonNegative_agedData

/-- The energy here is -20/3 when it is calculated exactly; the app has a number above it. -/
example : energy 7 8 5 122 1.2 = -20 / 3 ∧ shares (dailyEnergy 7 8 5 122 2) = ⟨-2, -1, -2⟩ := by
  constructor <;> decide +kernel

/-- Age 76 and zeros: the calculation shows "-1g", "0g", "-1g", the next opening "Add Data"; and an
opening before any calculation shows -404 three times. -/
theorem amounts_not_shown_again :
    calculateData Double agedData = some ⟨-1, 0, -1⟩ ∧
      MacrosFragment.setData ⟨-1, 0, -1⟩ = ⟨"-1g", "0g", "-1g"⟩ ∧
      (toObject (writeData ⟨-1, 0, -1⟩ agedDocument)).map MacrosFragment.determineWhatToDo =
        some MacrosFragment.setStartState ∧
      (toObject agedDocument).map MacrosFragment.determineWhatToDo =
        some ⟨"-404g", "-404g", "-404g"⟩ := by
  refine ⟨?_, ?_, ?_, ?_⟩ <;> decide +kernel

end AdvMad.MTrackerAndroid
