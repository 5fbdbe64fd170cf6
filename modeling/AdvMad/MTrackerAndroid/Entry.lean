import AdvMad.MTrackerAndroid.Saves

/-!
# What the entry field lets through

The entry field takes digits and one point at most, and nothing else looks at the text: `toDouble`
reads it, `arrayUnion` stores what it reads, and every screen maps the document to lists of `Long`.

* `Rounding` — what a `Double` makes of a number it cannot hold; `toDouble` reads a literal that
  way.
* `toObject_union_iff` — the document maps after a Save exactly when the number stored is below
  `2 ^ 63`; one that is not stays in the document, and no screen maps it from then on.
* `entry_keeps_document_iff` — for every text the field admits, on the screen of every data type,
  over every document that maps: the Save neither throws nor spoils the document exactly when the
  text has a digit and its number is, rounded, below `2 ^ 63`.
-/

namespace AdvMad.MTrackerAndroid

open AdvMad.Found

/-- What a `Double` makes of a number: one that is not negative stays so. A number too large for a
`Double` becomes infinite, which is from `2 ^ 63` on like any number that large. -/
structure Rounding where
  round : ℚ → ℚ
  nonneg : ∀ q, 0 ≤ q → 0 ≤ round q

/-- `String.toDouble()` on the texts of the entry field: the number of the literal, rounded; a text
that is no literal throws (`none`). -/
def toDouble (r : Rounding) (text : String) : Option ℚ := (decimal text).map r.round

/-- **The document maps after a Save** of a non-negative number exactly when the number is below
`2 ^ 63`. -/
theorem toObject_union_iff {document : Document} {data : NutritionData}
    (h : toObject document = some data) (f : ListField) {value : ℚ} (hvalue : 0 ≤ value) :
    (∃ data', toObject (document.union f value) = some data') ↔ value < 2 ^ 63 := by
  constructor
  · rintro ⟨data', h'⟩
    obtain ⟨n, hn⟩ := toLong_of_toObject_union h'
    by_contra hlarge
    rw [toLong_of_le (not_lt.mp hlarge)] at hn
    simp at hn
  · intro hlt
    obtain ⟨xs, -, hunion⟩ := toObject_union h f (toLong_of_lt hvalue hlt)
    exact ⟨_, hunion⟩

/-- **When a Save neither throws nor spoils the document.** For every text of digits with at most
one point, every data type and every document that maps: the Save completes and the document maps
after it, iff the text has a digit and the number it denotes is, as a `Double`, below `2 ^ 63`. -/
theorem entry_keeps_document_iff (r : Rounding) (t : DataTypes) (text : String)
    (htext : DigitsAndPoint text.toList) (document : Document) (data : NutritionData)
    (hdocument : toObject document = some data) :
    (∃ document' currentEntry data',
        setData (toDouble r) (getDataCustomizations (some t.value)).firestoreID text document =
          some (document', currentEntry) ∧
        toObject document' = some data') ↔
      (∃ c ∈ text.toList, c.isDigit = true) ∧ ∀ q, decimal text = some q → r.round q < 2 ^ 63 := by
  have hread := unsignedDecimal_of_digitsAndPoint htext
  rw [← decimal_of_digitsAndPoint htext] at hread
  rcases hread with ⟨hdigit, q, hq, hnonneg⟩ | ⟨hdigit, hnone⟩
  · have hvalue : toDouble r text = some (r.round q) := by
      unfold toDouble
      rw [hq, Option.map_some]
    obtain ⟨currentEntry, hset⟩ := setData_eq hvalue t document
    have hmaps := toObject_union_iff hdocument t.field (r.nonneg q hnonneg)
    constructor
    · rintro ⟨document', currentEntry', data', hset', hdata'⟩
      rw [hset, Option.some_inj, Prod.mk.injEq] at hset'
      rw [← hset'.1] at hdata'
      refine ⟨hdigit, fun q' hq' => ?_⟩
      rw [hq, Option.some_inj] at hq'
      rw [← hq']
      exact hmaps.mp ⟨data', hdata'⟩
    · rintro ⟨-, hrange⟩
      obtain ⟨data', hdata'⟩ := hmaps.mpr (hrange q hq)
      exact ⟨_, currentEntry, data', hset, hdata'⟩
  · refine iff_of_false ?_ fun h => hdigit h.1
    rintro ⟨document', currentEntry, data', hset, -⟩
    unfold setData toDouble at hset
    rw [hnone, Option.map_none, Option.bind_eq_bind, Option.bind_none] at hset
    simp at hset

/-- The nearest number of the format. -/
def toNearest : Rounding := ⟨nearest, fun _ h => nearest_nonneg h⟩

/-- The law for a weight of 180.5. -/
theorem entry_keeps_document_iff_weight :
    (∃ document' currentEntry data',
        setData (toDouble toNearest)
            (getDataCustomizations (some DataTypes.weight.value)).firestoreID "180.5"
            emptyDocument = some (document', currentEntry) ∧
        toObject document' = some data') ↔
      (∃ c ∈ "180.5".toList, c.isDigit = true) ∧
        ∀ q, decimal "180.5" = some q → toNearest.round q < 2 ^ 63 :=
  entry_keeps_document_iff toNearest .weight "180.5" (by decide +kernel) emptyDocument _ rfl

/-- A Save with the field left empty throws; a Save of `2 ^ 64` goes through and leaves a document
that no screen maps. -/
theorem entry_breaks :
    setData (toDouble toNearest) (getDataCustomizations (some DataTypes.weight.value)).firestoreID
        "" emptyDocument = none ∧
      ∃ document' currentEntry,
        setData (toDouble toNearest)
            (getDataCustomizations (some DataTypes.weight.value)).firestoreID
            "18446744073709551616" emptyDocument = some (document', currentEntry) ∧
        toObject document' = none := by
  refine ⟨by decide +kernel, _, _, rfl, ?_⟩
  decide +kernel

end AdvMad.MTrackerAndroid
