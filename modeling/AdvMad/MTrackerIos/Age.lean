import AdvMad.MTrackerIos.Traps
import AdvMad.MTrackerIos.Calculation

/-!
# The age in the calculation

`getAge` subtracts the year of the stored birthday from the current year and looks at neither month
nor day.

* `getAge_of_birthday` — what it returns on a birthday stored by the add screen.
* `getAge_eq_completedYears_iff` — that is the person's age exactly on the days of the year from the
  birthday on.
-/

namespace AdvMad.MTrackerIos

open AdvMad.Found

variable {Content : Type}

/-- The getter returns the years between the two years. -/
theorem getAge_of_birthday (env : Foundation ℚ Content) (today now dob : Day)
    (textField : Option String) {allData : List FitnessDataModel} {older : List FitnessDataDetail}
    (hnewest : FitnessDataController.getDataForMetric allData FitnessDataController.birthday =
      some (AddDataViewController.prepare env.dateFormatter now ⟨"Birthday"⟩ textField dob ::
        older)) :
    MacroDataController.getAge env today allData = .ok (yearsBetween dob today : ℚ) := by
  have hdate := prepare_birthday (v := ⟨"Birthday"⟩) rfl env.dateFormatter now textField dob
  have hparse : MacroDataController.parseAge env today
      (AddDataViewController.prepare env.dateFormatter now ⟨"Birthday"⟩ textField dob).value =
        some (yearsBetween dob today : ℚ) := by
    unfold MacroDataController.parseAge
    rw [hdate, Option.map_some]
    rfl
  unfold MacroDataController.getAge
  rw [MacroDataController.readNewest_eq_newestOf _ _ hnewest]
  simp only [MacroDataController.newestOf, List.head?_cons, Option.bind_some, hparse]

/-- The years between the two years are the completed ones except before the birthday. -/
theorem yearsBetween_eq_iff (dob today : Day) :
    yearsBetween dob today = completedYears dob today ↔ ¬ today.BeforeInYear dob := by
  have hle : completedYears dob today ≤ yearsBetween dob today := by
    unfold yearsBetween
    rcases (le_completedYears_iff dob today _).mp (le_refl (completedYears dob today)) with
      h | ⟨h, -⟩ <;> omega
  have hge : yearsBetween dob today ≤ completedYears dob today ↔ ¬ today.BeforeInYear dob := by
    rw [le_completedYears_iff]
    unfold yearsBetween
    constructor
    · rintro (h | ⟨-, hnot⟩)
      · omega
      · exact hnot
    · intro hnot
      exact Or.inr ⟨by omega, hnot⟩
  rw [← hge]
  exact ⟨fun h => h.le, fun h => le_antisymm h hle⟩

/-- **When the age is the person's age.** For every date of birth stored by the add screen as the
newest Birthday entry and every current date: the getter returns the completed years, iff the
current date does not come before the date of birth within the year. -/
theorem getAge_eq_completedYears_iff (env : Foundation ℚ Content) (today now dob : Day)
    (textField : Option String) (allData : List FitnessDataModel)
    (older : List FitnessDataDetail)
    (hnewest : FitnessDataController.getDataForMetric allData FitnessDataController.birthday =
      some (AddDataViewController.prepare env.dateFormatter now ⟨"Birthday"⟩ textField dob ::
        older)) :
    MacroDataController.getAge env today allData = .ok (completedYears dob today : ℚ) ↔
      ¬ today.BeforeInYear dob := by
  rw [getAge_of_birthday env today now dob textField hnewest, ← yearsBetween_eq_iff]
  constructor
  · intro h
    exact_mod_cast Except.ok.inj h
  · intro h
    rw [h]

/-- A last day of a year. -/
def newYearsEve : Day := ⟨2000, 12, 31, by decide, by decide⟩

/-- The seven metrics with a birthday on it. -/
def bornOnNewYearsEve : List FitnessDataModel :=
  tableOf fun m => if m = .birthday then [⟨"2020-03-09", "2000-12-31"⟩] else []

/-- Born on that day, on a day in March. -/
theorem getAge_eq_completedYears_iff_newYearsEve :
    MacroDataController.getAge plain shownDay bornOnNewYearsEve =
        .ok (completedYears newYearsEve shownDay : ℚ) ↔
      ¬ shownDay.BeforeInYear newYearsEve :=
  getAge_eq_completedYears_iff plain shownDay shownDay newYearsEve none bornOnNewYearsEve []
    (by decide +kernel)

/-- In March of 2020 the getter returns 20 for a person of 19. -/
theorem getAge_too_old :
    MacroDataController.getAge plain shownDay bornOnNewYearsEve = .ok 20 ∧
      completedYears newYearsEve shownDay = 19 := by
  constructor <;> decide +kernel

end AdvMad.MTrackerIos
