import Mathlib.Data.Rat.Defs
import Mathlib.Tactic.Ring

/-!
# The daily energy

The macro calculation exists twice, in the iOS app and in the Android app. Both turn the same five
numbers into the same daily energy, the polynomial `energy`; each app's module proves that of its
own functions.
-/

namespace AdvMad.MTracker

/-- The daily energy as a polynomial in pounds, inches, percent, years and the activity factor. -/
def energy (weight height bodyFatPercentage age activityLevel : ℚ) : ℚ :=
  (375 + 31.6 / 2.205 * weight - 0.216 / 2.205 * weight * bodyFatPercentage + 15.875 * height -
    5 * age) / 2 * activityLevel

end AdvMad.MTracker
