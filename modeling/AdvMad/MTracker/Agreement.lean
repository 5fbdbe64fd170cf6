import AdvMad.MTrackerIos.App
import AdvMad.MTrackerAndroid.Macros

/-!
# The two calculations

The two apps turn the same five numbers into the same daily energy (`energy`); they split it
differently: the carbohydrates are three tenths of it in the one and four tenths in the other.

* `trunc_shares_eq_iff` — three and four tenths of a number have the same whole part only when the
  number is below 7.5, and not always then.
* `amounts_agree_iff` — the two apps show the same three amounts exactly for such energies.
-/

namespace AdvMad.MTracker

open AdvMad.Found AdvMad.MTrackerIos

/-- The sizes of energy at which three and four tenths have the same whole part. -/
def SharesMeet (size : ℚ) : Prop :=
  size < 5 / 2 ∨ (10 / 3 ≤ size ∧ size < 5) ∨ (20 / 3 ≤ size ∧ size < 15 / 2)

/-- Three and four tenths of a non-negative number. -/
theorem trunc_shares_eq_iff_of_nonneg {q : ℚ} (h : 0 ≤ q) :
    trunc (q * 0.4) = trunc (q * 0.3) ↔ SharesMeet q := by
  have h₃ : 0 ≤ q * 0.3 := by positivity
  have h₄ : 0 ≤ q * 0.4 := by positivity
  constructor
  · intro heq
    obtain ⟨hle, -⟩ := (trunc_eq_iff_of_nonneg h₃ _).mp rfl
    obtain ⟨-, hlt⟩ := (trunc_eq_iff_of_nonneg h₄ _).mp heq
    have hpos := trunc_nonneg h₃
    generalize trunc (q * 0.3) = n at hle hlt hpos
    -- a common whole part `n` puts `q` between `10 n / 3` and `10 (n + 1) / 4`
    have hn : (n : ℚ) < 3 := by linarith
    have hn : n < 3 := by exact_mod_cast hn
    obtain rfl | rfl | rfl : n = 0 ∨ n = 1 ∨ n = 2 := by omega
    · left
      norm_num at hlt
      linarith
    · right; left
      norm_num at hle hlt
      constructor <;> linarith
    · right; right
      norm_num at hle hlt
      constructor <;> linarith
  · have hboth : ∀ n : ℤ, (n : ℚ) ≤ q * 0.3 → q * 0.4 < n + 1 →
        trunc (q * 0.4) = trunc (q * 0.3) := by
      intro n hle hlt
      rw [(trunc_eq_iff_of_nonneg h₄ n).mpr ⟨by linarith, hlt⟩,
        (trunc_eq_iff_of_nonneg h₃ n).mpr ⟨hle, by linarith⟩]
    rintro (hlt | ⟨hle, hlt⟩ | ⟨hle, hlt⟩)
    · exact hboth 0 (by push_cast; linarith) (by push_cast; linarith)
    · exact hboth 1 (by push_cast; linarith) (by push_cast; linarith)
    · exact hboth 2 (by push_cast; linarith) (by push_cast; linarith)

/-- **Three and four tenths of a number** have the same whole part exactly at these sizes. -/
theorem trunc_shares_eq_iff (q : ℚ) : trunc (q * 0.4) = trunc (q * 0.3) ↔ SharesMeet |q| := by
  rcases le_total 0 q with h | h
  · rw [abs_of_nonneg h]
    exact trunc_shares_eq_iff_of_nonneg h
  · rw [abs_of_nonpos h, ← trunc_shares_eq_iff_of_nonneg (q := -q) (by linarith), neg_mul, neg_mul,
      trunc_neg, trunc_neg, neg_inj]

/-- A truncated number fits 32 bits. -/
def Fits32 (q : ℚ) : Prop := -2 ^ 31 ≤ trunc q ∧ trunc q ≤ 2 ^ 31 - 1

instance (q : ℚ) : Decidable (Fits32 q) := inferInstanceAs (Decidable (_ ∧ _))

/-- Such a number is converted by the iOS app. -/
theorem intOf_of_fits32 {q : ℚ} (h : Fits32 q) : intOf q = .ok (trunc q) :=
  intOf_of_finite (value_rat q) (by linarith [h.1]) (by linarith [h.2])

/-- The Android app converts it to the same. -/
theorem toInt_of_fits32 {q : ℚ} (h : Fits32 q) : MTrackerAndroid.toInt q = trunc q :=
  saturate_of_mem h.1 h.2

/-- The amounts of the iOS app. -/
theorem amountsOf_macrosOf {weight height bodyFatPercentage age activityLevel : ℚ}
    (h₄ : Fits32 (energy weight height bodyFatPercentage age activityLevel * 0.4))
    (h₃ : Fits32 (energy weight height bodyFatPercentage age activityLevel * 0.3)) :
    App.amountsOf (MacroDataController.macrosOf (weight / 2.205) (height * 2.54)
      bodyFatPercentage age activityLevel) =
        .ok ⟨trunc (energy weight height bodyFatPercentage age activityLevel * 0.4),
          trunc (energy weight height bodyFatPercentage age activityLevel * 0.3),
          trunc (energy weight height bodyFatPercentage age activityLevel * 0.3)⟩ := by
  unfold App.amountsOf MacroDataController.macrosOf
  simp only [MacroDataController.tdeeGrams_eq, MacroDataController.shares_rat, intOf_of_fits32 h₄,
    intOf_of_fits32 h₃]
  rfl

/-- The amounts of the Android app. -/
theorem calculateFrom_eq {weight height bodyFatPercentage age activityLevel : ℚ}
    (hweight : 0 ≤ weight) (hheight : 0 ≤ height) (hbfp : 0 ≤ bodyFatPercentage) (hage : 0 ≤ age)
    (hactivity : 0 ≤ activityLevel)
    (h₄ : Fits32 (energy weight height bodyFatPercentage age activityLevel * 0.4))
    (h₃ : Fits32 (energy weight height bodyFatPercentage age activityLevel * 0.3)) :
    MTrackerAndroid.calculateFrom (MTrackerAndroid.kilograms weight)
      (MTrackerAndroid.centimetres height) bodyFatPercentage age activityLevel =
        some ⟨trunc (energy weight height bodyFatPercentage age activityLevel * 0.4),
          trunc (energy weight height bodyFatPercentage age activityLevel * 0.3),
          trunc (energy weight height bodyFatPercentage age activityLevel * 0.4)⟩ := by
  rw [MTrackerAndroid.calculateFrom_of_nonneg hweight hheight hbfp hage hactivity]
  simp only [MTrackerAndroid.shares, ofRat_rat, toInt_of_fits32 h₄, toInt_of_fits32 h₃]

/-- **When the two apps agree**, calculating exactly. For all non-negative weights, heights, body
fat percentages, ages and activity factors whose amounts fit 32 bits: both calculations return
amounts, which are what the iOS app shows and the Android app calculates whenever their getters
return these five values; and the three amounts are the same exactly when the daily energy has one
of the sizes at which three and four tenths have the same whole part. -/
theorem amounts_agree_iff (weight height bodyFatPercentage age activityLevel : ℚ)
    (hweight : 0 ≤ weight) (hheight : 0 ≤ height) (hbfp : 0 ≤ bodyFatPercentage) (hage : 0 ≤ age)
    (hactivity : 0 ≤ activityLevel)
    (h₄ : Fits32 (energy weight height bodyFatPercentage age activityLevel * 0.4))
    (h₃ : Fits32 (energy weight height bodyFatPercentage age activityLevel * 0.3)) :
    ∃ (ios : Amounts) (android : MTrackerAndroid.MacroData),
      App.amountsOf (MacroDataController.macrosOf (weight / 2.205) (height * 2.54)
        bodyFatPercentage age activityLevel) = .ok ios ∧
      MTrackerAndroid.calculateFrom (MTrackerAndroid.kilograms weight)
        (MTrackerAndroid.centimetres height) bodyFatPercentage age activityLevel = some android ∧
      (∀ {Content : Type} (env : Foundation ℚ Content) (today : Day) (a : App),
        MacroDataController.getWeight env a.allData = .ok (weight / 2.205) →
        MacroDataController.getHeight env a.allData = .ok (height * 2.54) →
        MacroDataController.getBodyFatPercentage env a.allData = .ok bodyFatPercentage →
        MacroDataController.getAge env today a.allData = .ok age →
        MacroDataController.getActivityLevel env a.allData = .ok activityLevel →
        a.setMacros env today = .ok { a with amounts := some ios }) ∧
      (∀ data, MTrackerAndroid.getWeight data = MTrackerAndroid.kilograms weight →
        MTrackerAndroid.getHeight data = MTrackerAndroid.centimetres height →
        MTrackerAndroid.getBFP data = bodyFatPercentage → MTrackerAndroid.getAge data = age →
        MTrackerAndroid.getActivityLevel data = activityLevel →
        MTrackerAndroid.calculateData ℚ data = some android) ∧
      ((android.protein = ios.protein ∧ android.fat = ios.fat ∧
          android.carbs = ios.carbohydrates) ↔
        SharesMeet |energy weight height bodyFatPercentage age activityLevel|) := by
  have hios := amountsOf_macrosOf h₄ h₃
  have handroid := calculateFrom_eq hweight hheight hbfp hage hactivity h₄ h₃
  refine ⟨_, _, hios, handroid, ?_, ?_, ?_⟩
  · intro Content env today a hw hh hb ha hl
    unfold App.setMacros
    rw [MacroDataController.calculateMacros_of_getters hw hh hb ha hl]
    simp only [hios]
    rfl
  · intro data hw hh hb ha hl
    unfold MTrackerAndroid.calculateData
    rw [hw, hh, hb, ha, hl]
    exact handroid
  · rw [← trunc_shares_eq_iff]
    simp

/-- A person of 180 pounds, 70 inches, twenty percent, thirty years and a factor of three halves. -/
theorem amounts_agree_iff_person :
    ∃ (ios : Amounts) (android : MTrackerAndroid.MacroData),
      App.amountsOf (MacroDataController.macrosOf (180 / 2.205 : ℚ) (70 * 2.54) 20 30 1.5) =
        .ok ios ∧
      MTrackerAndroid.calculateFrom (MTrackerAndroid.kilograms (180 : ℚ))
        (MTrackerAndroid.centimetres 70) 20 30 1.5 = some android ∧
      (∀ {Content : Type} (env : Foundation ℚ Content) (today : Day) (a : App),
        MacroDataController.getWeight env a.allData = .ok (180 / 2.205) →
        MacroDataController.getHeight env a.allData = .ok (70 * 2.54) →
        MacroDataController.getBodyFatPercentage env a.allData = .ok 20 →
        MacroDataController.getAge env today a.allData = .ok 30 →
        MacroDataController.getActivityLevel env a.allData = .ok 1.5 →
        a.setMacros env today = .ok { a with amounts := some ios }) ∧
      (∀ data, MTrackerAndroid.getWeight data = MTrackerAndroid.kilograms (180 : ℚ) →
        MTrackerAndroid.getHeight data = MTrackerAndroid.centimetres (70 : ℚ) →
        MTrackerAndroid.getBFP data = (20 : ℚ) → MTrackerAndroid.getAge data = (30 : ℚ) →
        MTrackerAndroid.getActivityLevel data = (1.5 : ℚ) →
        MTrackerAndroid.calculateData ℚ data = some android) ∧
      ((android.protein = ios.protein ∧ android.fat = ios.fat ∧
          android.carbs = ios.carbohydrates) ↔ SharesMeet |energy 180 70 20 30 1.5|) :=
  amounts_agree_iff 180 70 20 30 1.5 (by norm_num) (by norm_num) (by norm_num) (by norm_num)
    (by norm_num) (by decide +kernel) (by decide +kernel)

/-- The entries of a person in the iOS app. -/
def personTable : List FitnessDataModel :=
  tableOf fun
    | .weight => [⟨"2020-03-09", "180"⟩]
    | .height => [⟨"2020-03-09", "70"⟩]
    | .bodyFatPercentage => [⟨"2020-03-09", "20"⟩]
    | .birthday => [⟨"2020-03-09", "1990-02-28"⟩]
    | .activityLevel => [⟨"2020-03-09", "1.5"⟩]
    | _ => []

/-- The entries of the same person in the Android app. -/
def personData : MTrackerAndroid.NutritionData :=
  ⟨some [5], some [30], some [20], none, some [70], none, some [180], none, none, none⟩

/-- The getters of both apps return the same for that person, and the amounts of carbohydrates shown
are 801 and 1068 grams. -/
theorem carbohydrates_differ :
    (MacroDataController.getWeight plain personTable =
          .ok (MTrackerAndroid.getWeight personData) ∧
        MacroDataController.getHeight plain personTable =
          .ok (MTrackerAndroid.getHeight personData) ∧
        MacroDataController.getBodyFatPercentage plain personTable =
          .ok (MTrackerAndroid.getBFP personData) ∧
        MacroDataController.getAge plain shownDay personTable =
          .ok (MTrackerAndroid.getAge personData) ∧
        MacroDataController.getActivityLevel plain personTable =
          .ok (MTrackerAndroid.getActivityLevel personData)) ∧
      (App.setMacros plain shownDay
        { App.start with allData := personTable }).toOption.bind (·.amounts) =
          some ⟨1068, 801, 801⟩ ∧
      MTrackerAndroid.calculateData ℚ personData = some ⟨1068, 801, 1068⟩ := by
  refine ⟨⟨?_, ?_, ?_, ?_, ?_⟩, ?_, ?_⟩ <;> decide +kernel

end AdvMad.MTracker
