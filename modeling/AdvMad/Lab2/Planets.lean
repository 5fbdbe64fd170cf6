import AdvMad.Found.Rows
import AdvMad.Found.Run

/-!
# Lab 2: the planets store and the moon screen

The store `PlanetsDataController` and the screen `DetailViewController` that edits the moons of
one planet. The screen keeps a list of its own, `moonList`, beside the store's, and a third one in
the search results controller; each handler edits them one after the other, with the array
primitives that trap out of range.

* `updateMoons` — the common form of `addMoon` and `deleteMoon`: an index-checked edit of one
  planet's list. `updateMoons_spec` says all it does: the edited list, every other list as before,
  the planet names as before.
* `DetailViewController.machine` — the handlers of the screen as a machine; the rows a handler
  may name are those of the displayed list.
* `DetailViewController.Becomes` — the screen after a handler: the displayed, the stored and the
  searched list, and everything else as it was. Each handler has its `_spec` in these terms.

Scope: `loadData`, `writeData` and the table view's own bookkeeping (`reloadData`, `deleteRows`)
are not modelled here; none of them edits a list.
-/

namespace AdvMad.Lab2

open AdvMad.Found

/-- One planet and its moons. Source: `Planets.swift`, `PlanetsDataModel`. -/
structure PlanetsDataModel where
  planet : String
  moons : List String
deriving DecidableEq, Repr

/-- The store. Source: `Planets.swift`, `PlanetsDataController`. -/
structure PlanetsDataController where
  planetData : List PlanetsDataModel
deriving DecidableEq, Repr

namespace PlanetsDataController

/-- The planet names. Source: `Planets.swift`, `getPlanets`. -/
def getPlanets (c : PlanetsDataController) : List String := c.planetData.map (·.planet)

/-- The moons of a planet, a trap past the last planet. Source: `Planets.swift`, `getMoons`. -/
def getMoons (c : PlanetsDataController) (planetIndex : ℕ) : Option (List String) :=
  c.planetData[planetIndex]?.map (·.moons)

/-- Edit the moons of one planet in place. -/
def updateMoons (c : PlanetsDataController) (planetIndex : ℕ)
    (f : List String → Option (List String)) : Option PlanetsDataController :=
  (updateAt c.planetData planetIndex fun p => (f p.moons).map fun ms => { p with moons := ms }).map
    fun d => { c with planetData := d }

/-- `planetData[planetIndex].moons.insert(newMoon, at: moonIndex)`.
Source: `Planets.swift`, `addMoon`. -/
def addMoon (c : PlanetsDataController) (planetIndex : ℕ) (newMoon : String) (moonIndex : ℕ) :
    Option PlanetsDataController :=
  c.updateMoons planetIndex fun moons => insertAt moons newMoon moonIndex

/-- `planetData[planetIndex].moons.remove(at: moonIndex)`. Source: `Planets.swift`, `deleteMoon`. -/
def deleteMoon (c : PlanetsDataController) (planetIndex moonIndex : ℕ) :
    Option PlanetsDataController :=
  c.updateMoons planetIndex fun moons => removeAt moons moonIndex

/-- Moons are read of a planet of the store. -/
theorem lt_of_getMoons {c : PlanetsDataController} {p : ℕ} {ms : List String}
    (h : c.getMoons p = some ms) : p < c.planetData.length := by
  unfold getMoons at h
  rw [Option.map_eq_some_iff] at h
  obtain ⟨d, hd, -⟩ := h
  exact (List.getElem?_eq_some_iff.mp hd).1

/-- An edit that is in range: it succeeds on the planet's list, and nothing else changes. -/
theorem updateMoons_spec {c : PlanetsDataController} {p : ℕ} {ms ms' : List String}
    {f : List String → Option (List String)} (h : c.getMoons p = some ms) (hf : f ms = some ms') :
    ∃ c', c.updateMoons p f = some c' ∧ c'.getMoons p = some ms' ∧
      (∀ q, q ≠ p → c'.getMoons q = c.getMoons q) ∧ c'.getPlanets = c.getPlanets := by
  have hp := lt_of_getMoons h
  have hms : c.planetData[p].moons = ms := by
    unfold getMoons at h
    rw [List.getElem?_eq_getElem hp] at h
    exact Option.some_inj.mp h
  refine ⟨⟨c.planetData.set p { c.planetData[p] with moons := ms' }⟩, ?_, ?_, ?_, ?_⟩
  · unfold updateMoons
    rw [updateAt_of_lt hp, hms, hf]
    rfl
  · simp [getMoons, hp]
  · intro q hq
    simp [getMoons, Ne.symm hq]
  · unfold getPlanets
    apply List.ext_getElem?
    intro k
    by_cases hk : p = k
    · subst hk
      simp [hp]
    · simp [hk]

end PlanetsDataController

/-- The search results screen's two lists. Source: `SearchViewController.swift`,
`SearchResultsController`. -/
structure SearchResultsController where
  allMoons : List String
  filteredMoons : List String
deriving DecidableEq, Repr

/-- A search with the text of the search bar: the results are emptied, and if there is a text they
are filled from `allMoons`. `contains q w` stands for
`w.range(of: q, options: .caseInsensitive) != nil`. Source: `SearchViewController.swift`,
`updateSearchResults(for:)`. -/
def SearchResultsController.updateSearchResults (contains : String → String → Bool)
    (r : SearchResultsController) (searchString : Option String) : SearchResultsController :=
  let r := { r with filteredMoons := [] }
  match searchString with
  | some q =>
      if q.isEmpty = false then { r with filteredMoons := r.allMoons.filter (contains q) } else r
  | none => r

/-- The screen of one planet. Source: `DetailViewController.swift`. -/
structure DetailViewController where
  planetsDataController : PlanetsDataController
  selectedPlanet : ℕ
  moonList : List String
  resultsController : SearchResultsController
deriving DecidableEq, Repr

namespace DetailViewController

/-- Take the planet's moons over from the store. Source: `DetailViewController.swift`,
`viewWillAppear`. -/
def viewWillAppear (s : DetailViewController) : Option DetailViewController := do
  let moonList ← s.planetsDataController.getMoons s.selectedPlanet
  some { s with
    moonList := moonList
    resultsController := { s.resultsController with allMoons := moonList } }

/-- Coming back from the add screen. Source: `DetailViewController.swift`, `unwindSegue`. -/
def unwindSegue (s : DetailViewController) (identifier addedMoon : String) :
    Option DetailViewController :=
  if identifier = "save" then
    if addedMoon.isEmpty = false then do
      let store ← s.planetsDataController.addMoon s.selectedPlanet addedMoon s.moonList.length
      let moonList := s.moonList ++ [addedMoon]
      some { s with
        planetsDataController := store
        moonList := moonList
        resultsController := { s.resultsController with allMoons := moonList } }
    else some s
  else some s

/-- Swiping row `row` away. The search results keep the deleted moon.
Source: `DetailViewController.swift`, `tableView(_:commit:forRowAt:)`, branch `.delete`. -/
def commitDelete (s : DetailViewController) (row : ℕ) : Option DetailViewController := do
  let moonList ← removeAt s.moonList row
  let store ← s.planetsDataController.deleteMoon s.selectedPlanet row
  some { s with planetsDataController := store, moonList := moonList }

/-- Dragging row `fromRow` to `toRow`: the screen's list exchanges the two rows, the store takes
the moon out and puts it back. Source: `DetailViewController.swift`,
`tableView(_:moveRowAt:to:)`. -/
def moveRowAt (s : DetailViewController) (fromRow toRow : ℕ) : Option DetailViewController := do
  let moonBeingMoved ← s.moonList[fromRow]?
  let moonList ← swapAt s.moonList fromRow toRow
  let store ← s.planetsDataController.deleteMoon s.selectedPlanet fromRow
  let store ← store.addMoon s.selectedPlanet moonBeingMoved toRow
  some { s with planetsDataController := store, moonList := moonList }

/-- What the user, and UIKit on the user's behalf, does to the screen. -/
inductive Handler
  | viewWillAppear
  | unwindSegue (identifier addedMoon : String)
  | commitDelete (row : ℕ)
  | moveRowAt (fromRow toRow : ℕ)
deriving DecidableEq, Repr

/-- One handler. -/
def step (s : DetailViewController) : Handler → Option DetailViewController
  | .viewWillAppear => s.viewWillAppear
  | .unwindSegue identifier addedMoon => s.unwindSegue identifier addedMoon
  | .commitDelete row => s.commitDelete row
  | .moveRowAt fromRow toRow => s.moveRowAt fromRow toRow

/-- The rows a handler names are rows of the displayed list (`numberOfRowsInSection` is
`moonList.count`). -/
def Offers (s : DetailViewController) : Handler → Prop
  | .viewWillAppear => True
  | .unwindSegue _ _ => True
  | .commitDelete row => row < s.moonList.length
  | .moveRowAt fromRow toRow => fromRow < s.moonList.length ∧ toRow < s.moonList.length

instance decidableOffers (s : DetailViewController) : (h : Handler) → Decidable (s.Offers h)
  | .viewWillAppear => inferInstanceAs (Decidable True)
  | .unwindSegue _ _ => inferInstanceAs (Decidable True)
  | .commitDelete row => inferInstanceAs (Decidable (row < s.moonList.length))
  | .moveRowAt fromRow toRow =>
      inferInstanceAs (Decidable (fromRow < s.moonList.length ∧ toRow < s.moonList.length))

/-- The screen as a machine. -/
def machine : Machine DetailViewController Handler := ⟨step, Offers⟩

instance (s : DetailViewController) (h : Handler) : Decidable (machine.enabled s h) :=
  decidableOffers s h

/-- The screen a tap on planet `selection` brings up, before it appears.
Source: `ViewController.swift`, `prepare(for:sender:)`. -/
def prepare (c : PlanetsDataController) (selection : ℕ) : DetailViewController where
  planetsDataController := c
  selectedPlanet := selection
  moonList := []
  resultsController := ⟨[], []⟩

/-! ### What each handler does -/

open PlanetsDataController

/-- From `s` to `s'` the selected planet, the planet names and the moons of every other planet
stay as they are. -/
structure Leaves (s s' : DetailViewController) : Prop where
  selectedPlanet : s'.selectedPlanet = s.selectedPlanet
  getPlanets : s'.planetsDataController.getPlanets = s.planetsDataController.getPlanets
  getMoons : ∀ q, q ≠ s.selectedPlanet →
    s'.planetsDataController.getMoons q = s.planetsDataController.getMoons q

/-- From `s` to `s'` the displayed, the stored and the searched list become these three, and
nothing else changes. -/
structure Becomes (s s' : DetailViewController) (displayed stored searched : List String) : Prop
    extends Leaves s s' where
  moonList : s'.moonList = displayed
  moons : s'.planetsDataController.getMoons s'.selectedPlanet = some stored
  allMoons : s'.resultsController.allMoons = searched

variable {s : DetailViewController} {ms : List String}

/-- The screen appears: all three lists are the stored one. -/
theorem viewWillAppear_spec (hms : s.planetsDataController.getMoons s.selectedPlanet = some ms) :
    ∃ s', s.viewWillAppear = some s' ∧ Becomes s s' ms ms ms := by
  refine ⟨{ s with moonList := ms
                   resultsController := { s.resultsController with allMoons := ms } }, ?_, ?_⟩
  · simp only [viewWillAppear, hms, Option.bind_eq_bind, Option.bind_some]
  · exact ⟨⟨rfl, rfl, fun _ _ => rfl⟩, rfl, hms, rfl⟩

/-- The screen cannot appear otherwise. -/
theorem becomes_of_viewWillAppear {s' : DetailViewController} (h : s.viewWillAppear = some s') :
    ∃ ms, Becomes s s' ms ms ms := by
  rcases hms : s.planetsDataController.getMoons s.selectedPlanet with _ | ms
  · simp [viewWillAppear, hms] at h
  · obtain ⟨s'', hs'', hbecomes⟩ := viewWillAppear_spec hms
    obtain rfl := Option.some_inj.mp (hs''.symm.trans h)
    exact ⟨ms, hbecomes⟩

/-- A save puts the moon behind the displayed list, which is searched from then on, and into the
stored list at the displayed length. -/
theorem unwindSegue_spec (hms : s.planetsDataController.getMoons s.selectedPlanet = some ms)
    (hle : s.moonList.length ≤ ms.length) {addedMoon : String} (hmoon : addedMoon.isEmpty = false) :
    ∃ s', s.unwindSegue "save" addedMoon = some s' ∧
      Becomes s s' (s.moonList ++ [addedMoon]) (ms.insertIdx s.moonList.length addedMoon)
        (s.moonList ++ [addedMoon]) := by
  obtain ⟨c', hc', hget, hothers, hplanets⟩ :=
    updateMoons_spec hms (f := fun ms => insertAt ms addedMoon s.moonList.length)
      (insertAt_of_le hle addedMoon)
  refine ⟨{ s with
    planetsDataController := c'
    moonList := s.moonList ++ [addedMoon]
    resultsController := { s.resultsController with allMoons := s.moonList ++ [addedMoon] } },
    ?_, ⟨⟨rfl, hplanets, hothers⟩, rfl, hget, rfl⟩⟩
  unfold unwindSegue
  simp only [if_true, hmoon, addMoon, hc', Option.bind_eq_bind, Option.bind_some]

/-- Any other return from the add screen changes nothing. -/
theorem unwindSegue_of_not_save {identifier addedMoon : String}
    (h : ¬ (identifier = "save" ∧ addedMoon.isEmpty = false)) :
    s.unwindSegue identifier addedMoon = some s := by
  unfold unwindSegue
  split_ifs with hid hmoon
  · exact absurd ⟨hid, hmoon⟩ h
  · rfl
  · rfl

/-- A delete takes the row out of the displayed and the stored list. -/
theorem commitDelete_spec (hms : s.planetsDataController.getMoons s.selectedPlanet = some ms)
    (hle : s.moonList.length ≤ ms.length) {row : ℕ} (hrow : row < s.moonList.length) :
    ∃ s', s.commitDelete row = some s' ∧
      Becomes s s' (s.moonList.eraseIdx row) (ms.eraseIdx row) s.resultsController.allMoons := by
  obtain ⟨c', hc', hget, hothers, hplanets⟩ :=
    updateMoons_spec hms (f := fun ms => removeAt ms row) (removeAt_of_lt (by omega))
  refine ⟨{ s with planetsDataController := c', moonList := s.moonList.eraseIdx row }, ?_,
    ⟨⟨rfl, hplanets, hothers⟩, rfl, hget, rfl⟩⟩
  simp only [commitDelete, deleteMoon, removeAt_of_lt hrow, hc', Option.bind_eq_bind,
    Option.bind_some]

/-- A move exchanges two rows of the displayed list; in the stored list it takes out the moon at
the one row and puts the moon shown there in at the other. -/
theorem moveRowAt_spec (hms : s.planetsDataController.getMoons s.selectedPlanet = some ms)
    (hle : s.moonList.length ≤ ms.length) {fromRow toRow : ℕ} (hfrom : fromRow < s.moonList.length)
    (hto : toRow < s.moonList.length) :
    ∃ s', s.moveRowAt fromRow toRow = some s' ∧
      Becomes s s' ((s.moonList.set fromRow s.moonList[toRow]).set toRow s.moonList[fromRow])
        ((ms.eraseIdx fromRow).insertIdx toRow s.moonList[fromRow])
        s.resultsController.allMoons := by
  have hfrom' : fromRow < ms.length := by omega
  have hlen : (ms.eraseIdx fromRow).length = ms.length - 1 := List.length_eraseIdx_of_lt hfrom'
  obtain ⟨c₁, hc₁, hget₁, hothers₁, hplanets₁⟩ :=
    updateMoons_spec hms (f := fun ms => removeAt ms fromRow) (removeAt_of_lt hfrom')
  obtain ⟨c₂, hc₂, hget₂, hothers₂, hplanets₂⟩ :=
    updateMoons_spec hget₁ (f := fun ms => insertAt ms s.moonList[fromRow] toRow)
      (insertAt_of_le (by omega) _)
  refine ⟨{ s with
    planetsDataController := c₂
    moonList := (s.moonList.set fromRow s.moonList[toRow]).set toRow s.moonList[fromRow] },
    ?_, ⟨⟨rfl, hplanets₂.trans hplanets₁, ?_⟩, rfl, hget₂, rfl⟩⟩
  · simp only [moveRowAt, deleteMoon, addMoon, List.getElem?_eq_getElem hfrom,
      swapAt_of_lt hfrom hto, hc₁, hc₂, Option.bind_eq_bind, Option.bind_some]
  · intro q hq
    exact (hothers₂ q hq).trans (hothers₁ q hq)

end DetailViewController

end AdvMad.Lab2
