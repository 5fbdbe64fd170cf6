import AdvMad.Lab2.Planets

/-!
# Lab 2: the displayed moons and the stored moons

`Agree s` says that the screen's `moonList` is the store's list of the selected planet. Opening
the screen establishes it; `viewWillAppear`, a save and a delete keep it (`step_of_agree`). A move
keeps it exactly when the dragged row passes over rows that show the same name as the one it lands
on (`MovesOverEqual`): the screen exchanges two rows where the store moves one. Between neighbouring
rows the two are the same.

* `moonList_follows_store_iff` — along a whole run the two lists agree after every handler, and
  every delete takes the moon shown in its row, exactly when every move of the run is such a move.
* `moonList_leaves_store` — three moons and one move from the first row to the last tell the two
  lists apart.
-/

namespace AdvMad.Lab2.DetailViewController

open AdvMad.Found AdvMad.Lab2.PlanetsDataController

/-- The displayed list is the stored list of the selected planet. -/
def Agree (s : DetailViewController) : Prop :=
  s.planetsDataController.getMoons s.selectedPlanet = some s.moonList

instance : DecidablePred Agree := fun s =>
  inferInstanceAs (Decidable (s.planetsDataController.getMoons s.selectedPlanet = some s.moonList))

/-- A delete takes the moon its row shows: the stored moon at the row is the displayed one. -/
def DeletesShownMoon (s : DetailViewController) : Handler → Prop
  | .commitDelete row =>
      (s.planetsDataController.getMoons s.selectedPlanet).bind (·[row]?) = s.moonList[row]?
  | _ => True

/-- A move carries its row over rows equal to the one it lands on, in the displayed list. -/
def MovesOverEqual (s : DetailViewController) : Handler → Prop
  | .moveRowAt fromRow toRow => PassesOverEqual s.moonList fromRow toRow
  | _ => True

/-! ### One handler -/

/-- After a handler the lists agree exactly when it made them the same. -/
theorem agree_iff_of_becomes {s s' : DetailViewController} {displayed stored searched : List String}
    (h : Becomes s s' displayed stored searched) : Agree s' ↔ displayed = stored := by
  unfold Agree
  rw [h.moons, h.moonList, Option.some_inj, eq_comm]

/-- Opening the screen takes the list over from the store. -/
theorem agree_of_viewWillAppear {s s' : DetailViewController} (h : s.viewWillAppear = some s') :
    Agree s' := by
  obtain ⟨ms, hbecomes⟩ := becomes_of_viewWillAppear h
  exact (agree_iff_of_becomes hbecomes).mpr rfl

/-- Where the lists agree, a return from the add screen puts the moon at the end of both. -/
theorem unwindSegue_of_agree {s : DetailViewController} (hs : Agree s)
    (identifier addedMoon : String) :
    ∃ s', s.unwindSegue identifier addedMoon = some s' ∧ Agree s' := by
  by_cases hsave : identifier = "save" ∧ addedMoon.isEmpty = false
  · obtain ⟨rfl, hmoon⟩ := hsave
    obtain ⟨s', hs', hbecomes⟩ := unwindSegue_spec hs (Nat.le_refl _) hmoon
    refine ⟨s', hs', (agree_iff_of_becomes hbecomes).mpr ?_⟩
    rw [List.insertIdx_length_self]
  · exact ⟨s, unwindSegue_of_not_save hsave, hs⟩

/-- Where the lists agree, a delete takes the same row out of both. -/
theorem commitDelete_of_agree {s : DetailViewController} (hs : Agree s) {row : ℕ}
    (hrow : row < s.moonList.length) : ∃ s', s.commitDelete row = some s' ∧ Agree s' := by
  obtain ⟨s', hs', hbecomes⟩ := commitDelete_spec hs (Nat.le_refl _) hrow
  exact ⟨s', hs', (agree_iff_of_becomes hbecomes).mpr rfl⟩

/-- Where the lists agree, a move exchanges two rows of the displayed list and moves one of the
stored list: they agree afterwards exactly when the two come to the same. -/
theorem moveRowAt_of_agree {s : DetailViewController} (hs : Agree s) {i j : ℕ}
    (hi : i < s.moonList.length) (hj : j < s.moonList.length) :
    ∃ s', s.moveRowAt i j = some s' ∧ (Agree s' ↔ PassesOverEqual s.moonList i j) := by
  obtain ⟨s', hs', hbecomes⟩ := moveRowAt_spec hs (Nat.le_refl _) hi hj
  refine ⟨s', hs', (agree_iff_of_becomes hbecomes).trans ?_⟩
  exact swap_eq_move_iff hi hj

/-- **One handler from agreeing lists**: it does not trap, and the lists agree afterwards exactly
when it is not a move over different rows. -/
theorem step_of_agree {s : DetailViewController} {h : Handler} (hs : Agree s) (ho : s.Offers h) :
    ∃ s', s.step h = some s' ∧ (Agree s' ↔ MovesOverEqual s h) := by
  cases h with
  | viewWillAppear =>
      obtain ⟨s', hs', -⟩ := viewWillAppear_spec hs
      exact ⟨s', hs', iff_of_true (agree_of_viewWillAppear hs') trivial⟩
  | unwindSegue identifier addedMoon =>
      obtain ⟨s', hs', hag⟩ := unwindSegue_of_agree hs identifier addedMoon
      exact ⟨s', hs', iff_of_true hag trivial⟩
  | commitDelete row =>
      obtain ⟨s', hs', hag⟩ := commitDelete_of_agree hs ho
      exact ⟨s', hs', iff_of_true hag trivial⟩
  | moveRowAt i j => exact moveRowAt_of_agree hs ho.1 ho.2

/-- Where the lists agree, a delete takes the moon its row shows. -/
theorem deletesShownMoon_of_agree {s : DetailViewController} (hs : Agree s) (h : Handler) :
    DeletesShownMoon s h := by
  cases h with
  | commitDelete row =>
      unfold Agree at hs
      simp only [DeletesShownMoon, hs, Option.bind_some]
  | _ => trivial

/-! ### Whole runs -/

/-- **The displayed list follows the stored one exactly along the runs whose moves pass over equal
rows.** From the moment the screen has appeared: the two lists agree after every handler, and every
delete takes the moon shown in its row, iff every move of the run carries its row over rows that
show the same name as the row it lands on. -/
theorem moonList_follows_store_iff (c : PlanetsDataController) (selectedPlanet : ℕ)
    (s : DetailViewController) (hopen : (prepare c selectedPlanet).viewWillAppear = some s)
    (handlers : List Handler) (hlegal : machine.Legal s handlers) :
    (machine.Always Agree s handlers ∧ machine.Each DeletesShownMoon s handlers) ↔
      machine.Each MovesOverEqual s handlers := by
  have hs : Agree s := agree_of_viewWillAppear hopen
  rw [Machine.always_iff_each, and_assoc, ← Machine.each_and, and_iff_right hs]
  refine Machine.each_congr (I := Agree) ?_ ?_ hs hlegal
  · intro s h hs ho
    obtain ⟨s', hstep, hiff⟩ := step_of_agree hs ho
    constructor
    · rintro ⟨hagree, -⟩
      exact hiff.mp (hagree s' hstep)
    · intro hmove
      refine ⟨fun s'' hs'' => ?_, deletesShownMoon_of_agree hs h⟩
      obtain rfl := Option.some_inj.mp (hstep.symm.trans hs'')
      exact hiff.mpr hmove
  · rintro s h s' - - ⟨hagree, -⟩ hstep
    exact hagree s' hstep

/-- A planet with three moons. -/
def threeMoons : PlanetsDataController := ⟨[⟨"Mars", ["Deimos", "Phobos", "Luna"]⟩]⟩

/-- The screen of the planet with three moons, as it appears. -/
def threeMoonsScreen : DetailViewController where
  planetsDataController := threeMoons
  selectedPlanet := 0
  moonList := ["Deimos", "Phobos", "Luna"]
  resultsController := ⟨["Deimos", "Phobos", "Luna"], []⟩

/-- A move between neighbouring rows, then a delete. -/
theorem moonList_follows_store_iff_neighbours :
    (machine.Always Agree threeMoonsScreen [.moveRowAt 0 1, .commitDelete 2] ∧
        machine.Each DeletesShownMoon threeMoonsScreen [.moveRowAt 0 1, .commitDelete 2]) ↔
      machine.Each MovesOverEqual threeMoonsScreen [.moveRowAt 0 1, .commitDelete 2] :=
  moonList_follows_store_iff threeMoons 0 threeMoonsScreen (by decide) _ (by decide)

/-- Dragging the first of three moons to the last row: the screen shows them with first and last
exchanged, the store has the first moon moved behind the other two. -/
theorem moonList_leaves_store :
    machine.Legal threeMoonsScreen [.moveRowAt 0 2] ∧
      ¬ machine.Always Agree threeMoonsScreen [.moveRowAt 0 2] := by
  constructor <;> decide

end AdvMad.Lab2.DetailViewController
