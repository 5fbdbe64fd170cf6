import Mathlib.Data.List.Basic

/-!
# A journal of entries with deletions

The record of what was ever entered, newest first, each entry marked once it is deleted. Nothing
leaves the journal: a deletion marks the entry that is shown in a row, counting only the entries
not deleted yet. `live` reads those off.

The two facts an implementation that keeps just the live list needs: entering puts a row in front
(`live_enter`), deleting row `r` takes out row `r` (`live_delete`).
-/

namespace AdvMad.Found

variable {α : Type}

/-- The entries ever made, newest first, with the mark "deleted since". -/
structure Journal (α : Type) where
  entries : List (α × Bool)
deriving DecidableEq, Repr

namespace Journal

/-- The journal that starts with these entries. -/
def ofList (xs : List α) : Journal α := ⟨xs.map fun x => (x, false)⟩

/-- The entries not deleted since, newest first. -/
def live (j : Journal α) : List α := (j.entries.filter fun e => !e.2).map Prod.fst

/-- A new entry. -/
def enter (j : Journal α) (x : α) : Journal α := ⟨(x, false) :: j.entries⟩

/-- Mark the entry in row `r` of the live ones. -/
def markRow : List (α × Bool) → ℕ → List (α × Bool)
  | [], _ => []
  | (x, true) :: es, r => (x, true) :: markRow es r
  | (x, false) :: es, 0 => (x, true) :: es
  | (x, false) :: es, r + 1 => (x, false) :: markRow es r

/-- Delete the entry shown in row `r`. -/
def delete (j : Journal α) (r : ℕ) : Journal α := ⟨markRow j.entries r⟩

/-- All values of a list taken over are live. -/
@[simp] theorem live_ofList (xs : List α) : (ofList xs).live = xs := by
  induction xs with
  | nil => rfl
  | cons x xs ih => simpa [live, ofList] using ih

/-- A value entered is the newest live one. -/
@[simp] theorem live_enter (j : Journal α) (x : α) : (j.enter x).live = x :: j.live := rfl

/-- **A deletion takes out the row it names, and only that row.** -/
@[simp] theorem live_delete (j : Journal α) (r : ℕ) : (j.delete r).live = j.live.eraseIdx r := by
  obtain ⟨es⟩ := j
  show ((markRow es r).filter fun e => !e.2).map Prod.fst =
    ((es.filter fun e => !e.2).map Prod.fst).eraseIdx r
  induction es, r using markRow.induct with
  | case1 r => rfl
  | case2 x es r ih => simpa [markRow] using ih
  | case3 x es => simp [markRow]
  | case4 x es r ih => simpa [markRow] using ih

end Journal

end AdvMad.Found
