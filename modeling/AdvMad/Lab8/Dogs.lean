import AdvMad.Found.Decimal
import AdvMad.Found.Run

/-!
# Lab 8: the favourite dog

Two screens over one stored document with the fields `DogType` and `Fluffiness`. The add screen
writes both; the favourite screen shows them, and deletes by writing the marker of "no dog", an
empty type and fluffiness -1. The favourite screen keeps a flag `noData` of its own that guards
the delete.

* `AddDataFragment.sendData` — a save: nothing if a field is empty, a throw if the digits do not
  fit an `Int`, both fields written otherwise.
* `FavoriteFragment` — opening the screen (`getData`), which throws on a stored number that is no
  `Int`, and `delete`.
* `App.machine` — the two screens as a machine over the document.

Scope: the document exists, every write is acknowledged and every get completes before the next
event, and Firestore returns what was written last. Requests under way and failed are not modelled.
-/

namespace AdvMad.Lab8

open AdvMad.Found

/-- A field of a stored document: not there, null, or a value. -/
inductive Field (α : Type)
  | absent
  | null
  | value (a : α)
deriving DecidableEq, Repr

/-- What mapping to a nullable property with a default reads from a field. -/
def Field.read {α : Type} (default : α) : Field α → Option α
  | .absent => some default
  | .null => none
  | .value a => some a

/-- A stored number fits the property, which is an `Int`. -/
def Field.FitsInt (field : Field ℤ) : Prop := ∀ n, field = .value n → -2 ^ 31 ≤ n ∧ n < 2 ^ 31

instance : (field : Field ℤ) → Decidable field.FitsInt
  | .absent => isTrue fun n h => by cases h
  | .null => isTrue fun n h => by cases h
  | .value n => decidable_of_iff (-2 ^ 31 ≤ n ∧ n < 2 ^ 31)
      ⟨fun hn m h => by cases h; exact hn, fun h => h n rfl⟩

/-- The stored document: the two fields the screens use. -/
structure Document where
  DogType : Field String
  Fluffiness : Field ℤ
deriving DecidableEq, Repr

/-- Source: `dogData.kt`, `DogData`. -/
structure DogData where
  DogType : Option String
  Fluffiness : Option ℤ
deriving DecidableEq, Repr

/-- `document.toObject<DogData>()`, with the defaults of the data class; a number that is no `Int`
throws (`none`). Source: `dogData.kt`, `DogData`. -/
def toObject (document : Document) : Option DogData :=
  if document.Fluffiness.FitsInt then
    some ⟨document.DogType.read "", document.Fluffiness.read 0⟩
  else none

/-- `String.toInt()`: an integer literal in the range of `Int`; anything else throws (`none`). -/
def toInt (text : String) : Option ℤ :=
  (integer text).bind fun n => if -2 ^ 31 ≤ n ∧ n < 2 ^ 31 then some n else none

/-- A save with the two texts of the add screen, `none` when it throws. Source:
`AddDataFragment.kt`, `sendData`. -/
def AddDataFragment.sendData (dogType fluffiness : String) (document : Document) :
    Option Document :=
  if fluffiness.isEmpty ∨ dogType.isEmpty then some document
  else (toInt fluffiness).map fun n => ⟨.value dogType, .value n⟩

/-- The favourite screen: its flag and its two texts. Source: `FavoriteFragment.kt`. -/
structure FavoriteFragment where
  noData : Bool
  favDogFluffiness : String
  favDogType : String
deriving DecidableEq, Repr

namespace FavoriteFragment

/-- Source: `FavoriteFragment.kt`, `setLoading`. -/
def setLoading (f : FavoriteFragment) : FavoriteFragment :=
  { f with favDogFluffiness := "Loading...", favDogType := "Loading..." }

/-- Source: `FavoriteFragment.kt`, `setNoData`. -/
def setNoData : FavoriteFragment where
  favDogFluffiness := "No Dog Entered"
  favDogType := "No Dog Entered"
  noData := true

/-- Show what was read: no dog when the type is empty or the fluffiness is the marker. Source:
`FavoriteFragment.kt`, `setData`. -/
def setData (dogData : DogData) : FavoriteFragment :=
  let FavDogType := dogData.DogType.getD ""
  let FavDogFluffiness := dogData.Fluffiness.getD (-1)
  if FavDogType.length = 0 ∨ FavDogFluffiness = -1 then setNoData
  else
    { favDogFluffiness := "Favorite Dog Fluffiness: " ++ toString FavDogFluffiness
      favDogType := "Favorite Dog Type: " ++ FavDogType
      noData := false }

/-- The screen as it opens, its get under way. Source: `FavoriteFragment.kt`, `onCreateView`. -/
def onCreateView : FavoriteFragment := setLoading ⟨true, "", ""⟩

/-- The get completes: whatever the screen said before, it shows the document; `none` where the
mapping throws. Source: `FavoriteFragment.kt`, `getData`. -/
def getData (_ : FavoriteFragment) (document : Document) : Option FavoriteFragment :=
  (toObject document).map setData

/-- The delete button: nothing where no dog is shown. Source: `FavoriteFragment.kt`, `delete`. -/
def delete (f : FavoriteFragment) (document : Document) : FavoriteFragment × Document :=
  if f.noData then (f, document) else (setNoData, ⟨.value "", .value (-1)⟩)

end FavoriteFragment

/-- The document and the favourite screen last opened. -/
structure App where
  document : Document
  favorite : Option FavoriteFragment
deriving DecidableEq, Repr

/-- A tap on save with the two texts, an opening of the favourite screen, a tap on delete there. -/
inductive Event
  | save (dogType fluffiness : String)
  | openFavorite
  | delete
deriving DecidableEq, Repr

namespace App

/-- One event, `none` when it throws. -/
def step (a : App) : Event → Option App
  | .save dogType fluffiness =>
      (AddDataFragment.sendData dogType fluffiness a.document).map fun d => { a with document := d }
  | .openFavorite =>
      (FavoriteFragment.onCreateView.getData a.document).map fun f => { a with favorite := some f }
  | .delete =>
      match a.favorite with
      | some f => some ⟨(f.delete a.document).2, some (f.delete a.document).1⟩
      | none => some a

/-- The fluffiness field takes digits only (`android:inputType="number"`); there is a delete button
once the favourite screen is open. Source: `fragment_add_data.xml`, `dogFluffiness`. -/
def Offers (a : App) : Event → Prop
  | .save _ fluffiness => Digits fluffiness.toList
  | .openFavorite => True
  | .delete => a.favorite.isSome = true

instance decidableOffers (a : App) : (e : Event) → Decidable (a.Offers e)
  | .save _ fluffiness => inferInstanceAs (Decidable (Digits fluffiness.toList))
  | .openFavorite => inferInstanceAs (Decidable True)
  | .delete => inferInstanceAs (Decidable (a.favorite.isSome = true))

/-- The two screens as a machine. -/
def machine : Machine App Event := ⟨step, Offers⟩

instance (a : App) (e : Event) : Decidable (machine.enabled a e) := decidableOffers a e

end App

/-! ### What a save does -/

/-- A run of digits converts exactly when its number fits. -/
theorem toInt_of_digits {text : String} (h : Digits text.toList) (hne : text.toList ≠ []) {n : ℕ}
    (hn : natOf text.toList = some n) : toInt text = if n < 2 ^ 31 then some (n : ℤ) else none := by
  have hint : integer text = some (n : ℤ) := integer_of_digits h hne hn
  unfold toInt
  rw [hint, Option.bind_some]
  by_cases hfits : n < 2 ^ 31
  · rw [if_pos hfits, if_pos ⟨by omega, by omega⟩]
  · rw [if_neg hfits, if_neg fun hr => hfits (by omega)]

namespace AddDataFragment

/-- An empty field: nothing is written. -/
theorem sendData_of_empty {dogType fluffiness : String} (h : dogType = "" ∨ fluffiness = "")
    (document : Document) : sendData dogType fluffiness document = some document := by
  have hempty : fluffiness.isEmpty = true ∨ dogType.isEmpty = true := by
    rcases h with h | h
    · exact Or.inr (by rw [h]; rfl)
    · exact Or.inl (by rw [h]; rfl)
  unfold sendData
  rw [if_pos hempty]

/-- Both fields filled with a number that fits: both are written. With one that does not: a
throw. -/
theorem sendData_of_filled {dogType fluffiness : String} (htype : dogType ≠ "")
    (hfluff : fluffiness ≠ "") (hdigits : Digits fluffiness.toList) {n : ℕ}
    (hn : natOf fluffiness.toList = some n) (document : Document) :
    sendData dogType fluffiness document =
      if n < 2 ^ 31 then some ⟨.value dogType, .value (n : ℤ)⟩ else none := by
  have hfilled : ¬ (fluffiness.isEmpty = true ∨ dogType.isEmpty = true) := by
    simp [hfluff, htype]
  have hne : fluffiness.toList ≠ [] := by simpa using hfluff
  unfold sendData
  rw [if_neg hfilled, toInt_of_digits hdigits hne hn]
  by_cases hfits : n < 2 ^ 31
  · rw [if_pos hfits, if_pos hfits, Option.map_some]
  · rw [if_neg hfits, if_neg hfits, Option.map_none]

end AddDataFragment

end AdvMad.Lab8
