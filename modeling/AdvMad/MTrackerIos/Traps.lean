import AdvMad.MTrackerIos.Diary

/-!
# What can trap when the macros are shown

`setMacros` wraps the calculation in a `do`/`catch`, which turns errors into a printed line and lets
traps through. There are two: the positional access of a getter on a table that is too short, and
the conversion of an amount that no 64-bit integer holds.

* `setMacros_isOk_iff` — showing the macros returns exactly on a table of six records whose newest
  values, if all five can be read, have an energy with amounts.
* `calculateMacros_total_iff` — over every table a load can leave: the calculation returns or throws
  the one error exactly when the table has at least six records, the row of the weight being the
  last of the five it reads; the tap and the launch return exactly when moreover the daily energy of
  the newest values, calculated in `Double`, has amounts. A failed load leaves no record.
* `setMacros_returns_iff` — the same bounds with exact arithmetic, on a table of the seven metrics
  with all five newest entries readable: the tap and the next launch return exactly when the daily
  energy of the five lies within five halves of the 64-bit range.
-/

namespace AdvMad.MTrackerIos

open AdvMad.Found AdvMad.MTracker MacroDataController

variable {N Content : Type} [Arithmetic N]

/-! ## The amounts of an energy -/

/-- The whole part of a number, where a 64-bit integer holds it. -/
def wholePart (x : N) : Option ℤ :=
  match value x with
  | .finite q => inRange (-2 ^ 63) (2 ^ 63 - 1) (trunc q)
  | .infinite _ | .nan => none

/-- The conversion to an integer returns the whole part, or traps. -/
theorem intOf_eq (x : N) :
    intOf x = match wholePart x with
      | some n => .ok n
      | none => .error .intConversion := by
  unfold intOf wholePart
  cases value x <;> rfl

/-- A number has a whole part exactly between these bounds. -/
theorem isSome_wholePart_iff (x : N) :
    (wholePart x).isSome ↔ ∃ q, value x = .finite q ∧ -(2 ^ 63 + 1) < q ∧ q < 2 ^ 63 := by
  unfold wholePart
  cases hx : value x with
  | finite q =>
      have hlo : -(2 ^ 63 + 1) < trunc q ↔ -(2 ^ 63 + 1) < q := by
        have hbound := neg_lt_trunc_iff (n := 2 ^ 63 + 1) (by norm_num) q
        norm_num at hbound ⊢
        exact hbound
      simp only [Extended.finite.injEq, exists_eq_left', ← hlo, ← trunc_lt_two_pow_iff]
      unfold inRange
      split_ifs with hmem
      · exact iff_of_true rfl ⟨by omega, by omega⟩
      · exact iff_of_false (by simp) fun h => hmem ⟨by omega, by omega⟩
  | infinite negative => simp
  | nan => simp

/-- The amounts of a daily energy, where 64-bit integers hold them. -/
def amountsFor (energy : N) : Option Amounts := do
  let protein ← wholePart (energy * ofRat 0.4)
  let carbohydrates ← wholePart (energy * ofRat 0.3)
  let fat ← wholePart (energy * ofRat 0.3)
  return ⟨protein, carbohydrates, fat⟩

/-- The amounts of the labels are those of the energy, or a conversion traps. -/
theorem amountsOf_shares (energy : N) :
    App.amountsOf (shares energy) = match amountsFor energy with
      | some amounts => .ok amounts
      | none => .error .intConversion := by
  unfold App.amountsOf amountsFor shares
  simp only [intOf_eq]
  cases wholePart (energy * ofRat 0.4) with
  | none => rfl
  | some p => cases wholePart (energy * ofRat 0.3) <;> rfl

/-- The share of the protein is the largest: where it has a whole part so have the others. -/
theorem isSome_amountsFor_iff {energy : N} {P : Prop}
    (hprotein : (wholePart (energy * ofRat 0.4)).isSome ↔ P)
    (hothers : P → (wholePart (energy * ofRat 0.3)).isSome) : (amountsFor energy).isSome ↔ P := by
  unfold amountsFor
  by_cases hP : P
  · obtain ⟨p, hp⟩ := Option.isSome_iff_exists.mp (hprotein.mpr hP)
    obtain ⟨c, hc⟩ := Option.isSome_iff_exists.mp (hothers hP)
    rw [hp, hc]
    exact iff_of_true rfl hP
  · have hp : wholePart (energy * ofRat 0.4) = none := by simpa using mt hprotein.mp hP
    rw [hp]
    exact iff_of_false (by simp) hP

/-- The daily energies whose shares a 64-bit integer holds. -/
def SharesFit (energy : ℚ) : Prop := -(2 ^ 63 + 1) * 5 / 2 < energy ∧ energy < 2 ^ 63 * 5 / 2

instance (energy : ℚ) : Decidable (SharesFit energy) := inferInstanceAs (Decidable (_ ∧ _))

/-- Calculated exactly, an energy has amounts exactly between these bounds. -/
theorem isSome_amountsFor_rat_iff (energy : ℚ) :
    (amountsFor energy).isSome ↔ SharesFit energy := by
  apply isSome_amountsFor_iff
  · simp only [isSome_wholePart_iff, value_rat, ofRat_rat, Extended.finite.injEq, exists_eq_left']
    unfold SharesFit
    constructor
    · rintro ⟨hlo, hhi⟩
      norm_num at hlo hhi ⊢
      constructor <;> linarith
    · rintro ⟨hlo, hhi⟩
      norm_num at hlo hhi ⊢
      constructor <;> linarith
  · rintro ⟨hlo, hhi⟩
    simp only [isSome_wholePart_iff, value_rat, ofRat_rat, Extended.finite.injEq, exists_eq_left']
    norm_num at hlo hhi ⊢
    constructor <;> linarith

/-! ### In floating-point arithmetic -/

/-- A number of the format: the rounded share of the protein stays below the range's end exactly as
the exact one does. -/
theorem nearest_share_lt_iff {q : ℚ} (hq : Representable q) :
    nearest (q * nearest 0.4) < 2 ^ 63 ↔ q < 2 ^ 63 * 5 / 2 := by
  rw [← not_le, ← not_le, not_iff_not]
  exact le_nearest_mul_iff (m := 5 * 2 ^ 50 - 1) (e := 12) hq (nearest_nonneg (by norm_num))
    (by norm_num) (by decide +kernel) (by decide +kernel) (by decide +kernel) (by decide +kernel)

/-- So it does at the other end, beyond which no number of the format truncates into the range. -/
theorem lt_nearest_share_iff {q : ℚ} (hq : Representable q) :
    -(2 ^ 63 + 1) < nearest (q * nearest 0.4) ↔ -(2 ^ 63 + 1) * 5 / 2 < q := by
  have hbound : 2 ^ 63 + 1 ≤ nearest (-q * nearest 0.4) ↔ (2 ^ 63 + 1) * 5 / 2 ≤ -q :=
    le_nearest_mul_iff (m := 5 * 2 ^ 50) (e := 12) hq.neg (nearest_nonneg (by norm_num))
      (by norm_num) (by decide +kernel) (by decide +kernel) (by decide +kernel) (by decide +kernel)
  rw [neg_mul, nearest_neg] at hbound
  constructor
  · intro h
    by_contra hle
    have hshare := hbound.mpr (by linarith)
    linarith
  · intro h
    by_contra hle
    have henergy := hbound.mp (by linarith)
    linarith

/-- A smaller share of a number lies between the larger one and zero. -/
theorem nearest_share_between (q : ℚ) :
    min 0 (nearest (q * nearest 0.4)) ≤ nearest (q * nearest 0.3) ∧
      nearest (q * nearest 0.3) ≤ max 0 (nearest (q * nearest 0.4)) := by
  have hle : nearest 0.3 ≤ nearest 0.4 := nearest_mono (by norm_num)
  have hpos : 0 ≤ nearest 0.3 := nearest_nonneg (by norm_num)
  rcases le_total 0 q with h | h
  · have hsmall : 0 ≤ nearest (q * nearest 0.3) := nearest_nonneg (mul_nonneg h hpos)
    have hlarge := nearest_mono (mul_le_mul_of_nonneg_left hle h)
    exact ⟨(min_le_left _ _).trans hsmall, hlarge.trans (le_max_right _ _)⟩
  · have hsmall : nearest (q * nearest 0.3) ≤ 0 := by
      have hneg := nearest_nonneg (q := -q * nearest 0.3) (mul_nonneg (by linarith) hpos)
      rw [neg_mul, nearest_neg] at hneg
      linarith
    have hlarge := nearest_mono (mul_le_mul_of_nonpos_left hle h)
    exact ⟨(min_le_right _ _).trans hlarge, hsmall.trans (le_max_left _ _)⟩

/-- A daily energy whose amounts the app can show. -/
def EnergyFits (energy : Double) : Prop := ∃ q, value energy = .finite q ∧ SharesFit q

/-- **In floating-point arithmetic the bounds are the same.** An energy has amounts exactly when it
is a number between them. -/
theorem isSome_amountsFor_double_iff (energy : Double) :
    (amountsFor energy).isSome ↔ EnergyFits energy := by
  have hfinite : ∀ c, (value (energy * ofRat c)).IsFinite → (value energy).IsFinite :=
    fun c h => h.of_round.of_mul
  apply isSome_amountsFor_iff
  · rw [isSome_wholePart_iff]
    constructor
    · rintro ⟨r, hr, hlo, hhi⟩
      obtain ⟨q, hq⟩ := hfinite 0.4 ⟨r, hr⟩
      have hrep := (Double.isDouble_of_value hq).1
      rw [Double.value_mul_ofRat hq (by norm_num) (by norm_num)] at hr
      obtain rfl := Extended.finite.inj hr
      exact ⟨q, hq, (lt_nearest_share_iff hrep).mp hlo, (nearest_share_lt_iff hrep).mp hhi⟩
    · rintro ⟨q, hq, hlo, hhi⟩
      have hrep := (Double.isDouble_of_value hq).1
      exact ⟨_, Double.value_mul_ofRat hq (by norm_num) (by norm_num),
        (lt_nearest_share_iff hrep).mpr hlo, (nearest_share_lt_iff hrep).mpr hhi⟩
  · rintro ⟨q, hq, hlo, hhi⟩
    have hrep := (Double.isDouble_of_value hq).1
    obtain ⟨hmin, hmax⟩ := nearest_share_between q
    rw [isSome_wholePart_iff]
    refine ⟨_, Double.value_mul_ofRat hq (by norm_num) (by norm_num), ?_, ?_⟩
    · exact (lt_min (by norm_num) ((lt_nearest_share_iff hrep).mpr hlo)).trans_le hmin
    · exact hmax.trans_lt (max_lt (by norm_num) ((nearest_share_lt_iff hrep).mpr hhi))

/-! ## Showing the macros -/

/-- On a table of six records showing the macros shows the amounts of the newest values, or changes
nothing where a value is missing; it traps where there are no amounts. -/
theorem setMacros_of_le (env : Foundation N Content) (today : Day) {a : App}
    (h : 6 ≤ a.allData.length) :
    a.setMacros env today = match newestValues env (entriesAt a.allData) with
      | some v =>
          match amountsFor (v.energy today) with
          | some amounts => .ok { a with amounts := some amounts }
          | none => .error .intConversion
      | none => .ok a := by
  unfold App.setMacros
  rw [calculateMacros_of_le env today h]
  cases newestValues env (entriesAt a.allData) with
  | none => rfl
  | some v =>
      simp only [amountsOf_shares]
      cases amountsFor (v.energy today) <;> rfl

/-- **Showing the macros returns** exactly on six records whose newest values, if there are any,
have an energy with amounts. -/
theorem setMacros_isOk_iff (env : Foundation N Content) (today : Day) (a : App) :
    (∃ a', a.setMacros env today = .ok a') ↔ 6 ≤ a.allData.length ∧
      ∀ v, newestValues env (entriesAt a.allData) = some v →
        (amountsFor (v.energy today)).isSome := by
  by_cases h : 6 ≤ a.allData.length
  · rw [setMacros_of_le env today h, and_iff_right h]
    cases newestValues env (entriesAt a.allData) with
    | none => simp
    | some v => cases hamounts : amountsFor (v.energy today) <;> simp [hamounts]
  · rw [App.setMacros_of_lt env today (by omega)]
    simp [h]

/-- The newest five entries of a table, where all of them can be read, have an energy in `Double`
whose amounts can be shown. -/
def NewestFit (env : Foundation Double Content) (today : Day) (allData : List FitnessDataModel) :
    Prop :=
  ∀ v, newestValues env (entriesAt allData) = some v → EnergyFits (v.energy today)

/-- **The calculation is total over the tables of at least six records, and over no other.** For
every table a load can leave: the calculation returns the macros or throws `SomethingWentWrong`,
iff the table has six records. A tap on Calculate over that table returns, iff the table has six
records and moreover the energy of its newest five entries, where all of them can be read, is a
number whose amounts 64-bit integers hold; the launch that has loaded it returns iff that is so or
the stored macros do not load. -/
theorem calculateMacros_total_iff (env : Foundation Double Content) (today : Day)
    (allData : List FitnessDataModel) :
    (((∃ macros, calculateMacros env today allData = .ok macros) ∨
          calculateMacros env today allData = .error (.thrown .SomethingWentWrong)) ↔
        6 ≤ allData.length) ∧
      (∀ a : App, a.allData = allData →
        ((∃ a', a.handle env (.calculate today) = .ok a') ↔
          6 ≤ allData.length ∧ NewestFit env today allData)) ∧
      ∀ readable macroDataLoads files,
        FitnessDataController.loadData env readable files = .ok allData →
          ((∃ a', App.viewDidLoad env readable macroDataLoads today files = .ok a') ↔
            (macroDataLoads = true → 6 ≤ allData.length ∧ NewestFit env today allData)) := by
  have hset : ∀ a : App, a.allData = allData → ((∃ a', a.setMacros env today = .ok a') ↔
      6 ≤ allData.length ∧ NewestFit env today allData) := by
    rintro a rfl
    simp only [setMacros_isOk_iff, isSome_amountsFor_double_iff, NewestFit]
  refine ⟨⟨?_, ?_⟩, hset, ?_⟩
  · intro htotal
    by_contra hshort
    rw [calculateMacros_of_lt env today (by omega)] at htotal
    rcases htotal with ⟨macros, hok⟩ | herror
    · cases hok
    · cases herror
  · intro h
    rw [calculateMacros_of_le env today h]
    cases newestValues env (entriesAt allData) with
    | some v => exact Or.inl ⟨_, rfl⟩
    | none => exact Or.inr rfl
  · intro readable macroDataLoads files hload
    unfold App.viewDidLoad
    rw [hload]
    cases macroDataLoads with
    | false => exact iff_of_true ⟨_, rfl⟩ (by simp)
    | true =>
        rw [forall_prop_of_true rfl]
        exact hset { App.start with allData := allData } rfl

/-- A bundled file that is no property list of records leaves the empty table, on which a tap on
Calculate traps; one of five records loads, and the launch traps. -/
theorem calculateMacros_traps :
    App.viewDidLoad floating true true shownDay ⟨none, some (.inl "")⟩ = .ok .start ∧
      App.start.handle floating (.calculate shownDay) = .error .indexOutOfRange ∧
      App.viewDidLoad floating true true shownDay ⟨some (.inr (dataPlist.take 5)), none⟩ =
        .error .indexOutOfRange :=
  ⟨rfl, rfl, rfl⟩

/-- **When showing the macros returns.** On every table of the seven metrics whose five newest
entries read as these values, on every day, calculating exactly: a tap on Calculate returns, iff the
daily energy of the values and the years since birth lies within five halves of the 64-bit range;
and so does the next launch, which finds the same entries. -/
theorem setMacros_returns_iff (env : Foundation ℚ Content) (today : Day)
    (f : Metric → List FitnessDataDetail) (w h b l : ℚ) (dob : Day)
    (hw : ((f .weight).head?.bind fun e => env.double e.value) = some w)
    (hh : ((f .height).head?.bind fun e => env.double e.value) = some h)
    (hb : ((f .bodyFatPercentage).head?.bind fun e => env.double e.value) = some b)
    (ha : ((f .birthday).head?.bind fun e => env.dateFormatter.date e.value) = some dob)
    (hl : ((f .activityLevel).head?.bind fun e => env.double e.value) = some l) :
    (∀ a : App, a.allData = tableOf f →
        ((∃ a', a.handle env (.calculate today) = .ok a') ↔
          SharesFit (energy w h b (yearsBetween dob today) l))) ∧
      ∀ files, ((∃ a', App.viewDidLoad env true true today
          (FitnessDataController.writeData env (tableOf f) files) = .ok a') ↔
        SharesFit (energy w h b (yearsBetween dob today) l)) := by
  have hvalues : newestValues env f = some ⟨w, h, b, dob, l⟩ := by
    simp only [newestValues, hw, hh, hb, ha, hl]
    rfl
  have hset : ∀ a : App, a.allData = tableOf f → ((∃ a', a.setMacros env today = .ok a') ↔
      SharesFit (energy w h b (yearsBetween dob today) l)) := by
    intro a hdata
    rw [setMacros_isOk_iff, hdata, entriesAt_tableOf, hvalues]
    simp only [length_tableOf, Option.some_inj, forall_eq', isSome_amountsFor_rat_iff,
      Values.energy_eq]
    exact and_iff_right (by norm_num)
  refine ⟨hset, ?_⟩
  intro files
  unfold App.viewDidLoad
  rw [FitnessDataController.loadData_writeData]
  exact hset { App.start with allData := tableOf f } rfl

/-- One entry for each metric the calculation reads, the weight being the text `weight`. -/
def weighing (weight : String) : Metric → List FitnessDataDetail
  | .weight => [⟨"2020-03-09", weight⟩]
  | .height => [⟨"2020-03-09", "70"⟩]
  | .bodyFatPercentage => [⟨"2020-03-09", "20"⟩]
  | .birthday => [⟨"2020-03-09", "1990-04-17"⟩]
  | .activityLevel => [⟨"2020-03-09", "1.5"⟩]
  | _ => []

/-- The birthday entered there. -/
def shownBirthday : Day := ⟨1990, 4, 17, by decide, by decide⟩

/-- The law for a weight of 180 pounds. -/
theorem setMacros_returns_iff_weighing :
    (∀ a : App, a.allData = tableOf (weighing "180") →
        ((∃ a', a.handle plain (.calculate shownDay) = .ok a') ↔
          SharesFit (energy 180 70 20 (yearsBetween shownBirthday shownDay) (3 / 2)))) ∧
      ∀ files, ((∃ a', App.viewDidLoad plain true true shownDay
          (FitnessDataController.writeData plain (tableOf (weighing "180")) files) = .ok a') ↔
        SharesFit (energy 180 70 20 (yearsBetween shownBirthday shownDay) (3 / 2))) :=
  setMacros_returns_iff plain shownDay (weighing "180") 180 70 20 (3 / 2) shownBirthday
    (by decide +kernel) (by decide +kernel) (by decide +kernel) (by decide +kernel)
    (by decide +kernel)

/-- A weight of twenty-two digits ends the process on a tap on Calculate, and on the next
launch. -/
theorem setMacros_traps :
    { App.start with allData := tableOf (weighing "1000000000000000000000") }.handle plain
        (.calculate shownDay) = .error .intConversion ∧
      App.viewDidLoad plain true true shownDay
        (FitnessDataController.writeData plain (tableOf (weighing "1000000000000000000000"))
          ⟨none, none⟩) = .error .intConversion := by
  constructor <;> decide +kernel

end AdvMad.MTrackerIos
