import AdvMad.MTrackerAndroid.Saves

/-!
# The label of the current entry

The entry screen shows a number twice: `setData` shows the value just saved, cut to an `Int` except
on the screen of the activity level, where it is the text of a `Double`, and the next opening shows
the last element of the stored list, mapped to a `Long`.

* `DoubleText` — what `Double.toString` promises of the number its text denotes; nothing is assumed
  of the digits it gives where more than one number is rounded to the value.
* `setData_shows` / `getData_union` — the two entries, for the screen of every data type.
* `label_survives_reopening_iff` — where the document maps they show the same number exactly for an
  activity level that is whole and denoted by its text, as all are below `2 ^ 53`, and for any other
  value below `2 ^ 31`.
-/

namespace AdvMad.MTrackerAndroid

open AdvMad.Found

/-- The label after an opening whose request brings the document; `none` where the mapping throws.
Source: `AddSpecificData.kt`, `getData`. -/
def AddSpecificData.getData (document : Document) (firestoreID : String)
    (currentEntry : CurrentEntry) : Option CurrentEntry :=
  (toObject document).map fun data => determineCurrentToSet data firestoreID currentEntry

/-- The screen of a data type shows the end of its list. -/
theorem determineCurrentToSet_eq (data : NutritionData) (t : DataTypes)
    (currentEntry : CurrentEntry) :
    determineCurrentToSet data t.field.id currentEntry =
      setCurrent currentEntry (data.list t.field) := by
  cases t <;> rfl

/-- The text of a `Double` (`Double.toString`), by the number it denotes: one that is rounded to the
value, so that it tells the value from its neighbours, and no more digits than that takes, so that a
whole value has a whole one. -/
structure DoubleText where
  number : ℚ → ℚ
  nearest_number : ∀ d, Representable d → nearest (number d) = d
  whole : ∀ n : ℤ, Representable n → ∃ m : ℤ, number n = m

/-- The number in the label. -/
def CurrentEntry.number (text : DoubleText) : CurrentEntry → Option ℚ
  | noCurrentValue => none
  | shownLong n => some n
  | shownDouble value => some (text.number value)

/-- A whole value below `2 ^ 53` is denoted by its text. -/
theorem DoubleText.number_of_lt (text : DoubleText) {n : ℕ} (h : n < 2 ^ 53) :
    text.number n = n := by
  have hlt : |(n : ℤ)| < 2 ^ 53 := by
    rw [abs_of_nonneg (by omega)]
    exact_mod_cast h
  have hrep : Representable ((n : ℤ) : ℚ) := representable_intCast hlt
  obtain ⟨m, hm⟩ := text.whole n hrep
  have hnearest := text.nearest_number _ hrep
  rw [hm] at hnearest
  rw [Int.cast_natCast] at hm
  rw [hm, eq_of_nearest_intCast hlt hnearest]
  rfl

/-- The entry shown right after a Save. -/
theorem setData_shows {toDouble : String → Option ℚ} {dataEntry : String} {value : ℚ}
    (h : toDouble dataEntry = some value) (t : DataTypes) (document : Document) :
    setData toDouble (getDataCustomizations (some t.value)).firestoreID dataEntry document =
      some (document.union t.field value,
        if t = .activityLevel then .shownDouble value else .shownLong (toInt value)) := by
  rw [firestoreID_value]
  unfold setData
  rw [h]
  cases t <;> rfl

/-- The entry shown at the next opening, where the document maps then: a value new to its list is
the last element. -/
theorem getData_union {document : Document} {data : NutritionData} (t : DataTypes) {value : ℚ}
    (hdata : toObject (document.union t.field value) = some data)
    (hnew : value ∉ numbers document t.field) (currentEntry : CurrentEntry) :
    AddSpecificData.getData (document.union t.field value)
        (getDataCustomizations (some t.value)).firestoreID currentEntry =
      some (.shownLong (trunc value)) := by
  obtain ⟨xs, hxs, hlist⟩ := list_of_toObject_union hdata
  have hlast : xs.getLast? = some (trunc value) := by
    rw [getLast?_mapM hxs, getLast?_appendNew_of_not_mem hnew, Option.map_some]
  unfold AddSpecificData.getData
  rw [hdata, Option.map_some, firestoreID_value, determineCurrentToSet_eq, hlist]
  simp only [setCurrent, hlast]

/-- The next opening shows a number exactly where the document maps, and that one. -/
theorem getData_union_shows_iff (text : DoubleText) {document : Document} (t : DataTypes)
    {value : ℚ} (hnew : value ∉ numbers document t.field) (currentEntry : CurrentEntry) (q : ℚ) :
    (∃ reopened, AddSpecificData.getData (document.union t.field value)
          (getDataCustomizations (some t.value)).firestoreID currentEntry = some reopened ∧
        reopened.number text = some q) ↔
      (∃ data, toObject (document.union t.field value) = some data) ∧ (trunc value : ℚ) = q := by
  rcases hdata : toObject (document.union t.field value) with _ | data
  · simp [AddSpecificData.getData, hdata]
  · rw [getData_union t hdata hnew currentEntry]
    simp [CurrentEntry.number]

/-- A number that is the rounding of its whole part is whole. -/
theorem eq_trunc_of_nearest {q : ℚ} (heq : nearest (trunc q) = q) : (trunc q : ℚ) = q := by
  obtain ⟨k, hk⟩ := exists_nearest_intCast (trunc q)
  rw [hk] at heq
  rw [← heq, trunc_intCast]

/-- **What the text of a value says**: its whole part, exactly for a whole value that it denotes, as
it does below `2 ^ 53`. -/
theorem DoubleText.trunc_eq_number_iff (text : DoubleText) {q : ℚ} (hq : Representable q)
    (h : 0 ≤ q) :
    (trunc q : ℚ) = text.number q ↔ ∃ n : ℕ, q = n ∧ (n < 2 ^ 53 ∨ text.number n = n) := by
  constructor
  · intro heq
    have hnearest := text.nearest_number q hq
    rw [← heq] at hnearest
    have hwhole := eq_trunc_of_nearest hnearest
    obtain ⟨n, hn⟩ := Int.eq_ofNat_of_zero_le (trunc_nonneg h)
    have hqn : q = n := by
      rw [← hwhole, hn]
      rfl
    refine ⟨n, hqn, Or.inr ?_⟩
    rw [← hqn, ← heq, hwhole]
  · rintro ⟨n, rfl, hn⟩
    have hnumber : text.number n = n := by
      rcases hn with hlt | hnumber
      · exact text.number_of_lt hlt
      · exact hnumber
    rw [hnumber, trunc_natCast]
    rfl

/-- The conversion to an `Int` keeps the whole part of a number below `2 ^ 31`, and of no other. -/
theorem toInt_eq_trunc_iff {q : ℚ} (h : 0 ≤ q) : toInt q = trunc q ↔ q < 2 ^ 31 := by
  have hnonneg := trunc_nonneg h
  rw [← trunc_lt_two_pow_iff]
  simp only [toInt, value_rat]
  unfold saturate
  omega

/-- **When the label survives a reopening.** On the screen of every data type, over every document
and for every `Double` from zero that is not in the stored list: a Save shows a number, and the next
opening shows the same iff the document maps with the value in the list, and the value is, on the
screen of the activity level, whole and below `2 ^ 53` or denoted by its text, or, on any other
screen, below `2 ^ 31`. -/
theorem label_survives_reopening_iff (toDouble : String → Option ℚ) (text : DoubleText)
    (document : Document) (t : DataTypes) (dataEntry : String) (value : ℚ)
    (hvalue : toDouble dataEntry = some value) (hdouble : Representable value)
    (hnonneg : 0 ≤ value) (hnew : value ∉ numbers document t.field)
    (currentEntry : CurrentEntry) :
    ∃ document' saved shown,
      setData toDouble (getDataCustomizations (some t.value)).firestoreID dataEntry document =
        some (document', saved) ∧ saved.number text = some shown ∧
      ((∃ reopened, AddSpecificData.getData document'
            (getDataCustomizations (some t.value)).firestoreID currentEntry = some reopened ∧
          reopened.number text = some shown) ↔
        (∃ data, toObject (document.union t.field value) = some data) ∧
          (t = .activityLevel → ∃ n : ℕ, value = n ∧ (n < 2 ^ 53 ∨ text.number n = n)) ∧
          (t ≠ .activityLevel → value < 2 ^ 31)) := by
  by_cases hactivity : t = .activityLevel
  · refine ⟨_, _, text.number value, setData_shows hvalue t document, ?_, ?_⟩
    · rw [if_pos hactivity]
      rfl
    · rw [getData_union_shows_iff text t hnew, text.trunc_eq_number_iff hdouble hnonneg]
      simp [hactivity]
  · refine ⟨_, _, (toInt value : ℚ), setData_shows hvalue t document, ?_, ?_⟩
    · rw [if_neg hactivity]
      rfl
    · rw [getData_union_shows_iff text t hnew, Int.cast_inj, eq_comm, toInt_eq_trunc_iff hnonneg]
      simp [hactivity]

/-- A text that denotes the value. -/
def exactText : DoubleText where
  number d := d
  nearest_number _ h := nearest_of_representable h
  whole n _ := ⟨n, rfl⟩

/-- The law for a weight of 180.5. -/
theorem label_survives_reopening_iff_weight :
    ∃ document' saved shown,
      setData decimal (getDataCustomizations (some DataTypes.weight.value)).firestoreID "180.5"
        emptyDocument = some (document', saved) ∧ saved.number exactText = some shown ∧
      ((∃ reopened, AddSpecificData.getData document'
            (getDataCustomizations (some DataTypes.weight.value)).firestoreID .noCurrentValue =
              some reopened ∧
          reopened.number exactText = some shown) ↔
        (∃ data, toObject (emptyDocument.union DataTypes.weight.field (361 / 2)) = some data) ∧
          (DataTypes.weight = .activityLevel →
            ∃ n : ℕ, (361 / 2 : ℚ) = n ∧ (n < 2 ^ 53 ∨ exactText.number n = n)) ∧
          (DataTypes.weight ≠ .activityLevel → (361 / 2 : ℚ) < 2 ^ 31)) :=
  label_survives_reopening_iff decimal exactText emptyDocument .weight "180.5" (361 / 2)
    (by decide +kernel) ⟨361, -1, by norm_num, by norm_num, by norm_num⟩ (by norm_num)
    (by simp [numbers, emptyDocument]) _

/-- On a document with no fields: an activity level of 1.5 is shown as the text of 1.5, whatever it
is no number that is read as 1, and then as 1; and a weight of `2 ^ 31` as one less and then as it
is. -/
theorem label_changes :
    ((setData decimal (getDataCustomizations (some DataTypes.activityLevel.value)).firestoreID
        "1.5" emptyDocument).bind fun r =>
      (AddSpecificData.getData r.1
        (getDataCustomizations (some DataTypes.activityLevel.value)).firestoreID
        .noCurrentValue).map fun reopened => (r.2, reopened)) =
          some (.shownDouble (3 / 2), .shownLong 1) ∧
    (∀ text : DoubleText, text.number (3 / 2) ≠ 1) ∧
    ((setData decimal (getDataCustomizations (some DataTypes.weight.value)).firestoreID
        "2147483648" emptyDocument).bind fun r =>
      (AddSpecificData.getData r.1
        (getDataCustomizations (some DataTypes.weight.value)).firestoreID
        .noCurrentValue).map fun reopened => (r.2, reopened)) =
          some (.shownLong 2147483647, .shownLong 2147483648) := by
  refine ⟨by decide +kernel, ?_, by decide +kernel⟩
  intro text h
  have hnearest := text.nearest_number (3 / 2) ⟨3, -1, by norm_num, by norm_num, by norm_num⟩
  rw [h] at hnearest
  exact absurd hnearest (by decide +kernel)

end AdvMad.MTrackerAndroid
