import AdvMad.Found.Run
import Mathlib.Data.Int.Notation
import Mathlib.Logic.Function.Basic

/-!
# Lab 1: the state and city picker

A picker with two wheels. Turning the state wheel loads the cities of the new state and sets the
city wheel back to its first row; after either wheel the label names the city and the state the
picker reports as selected, both read out of arrays by row.

* `FirstViewController` — the screen: the loaded data, the two lists shown on the wheels, the row
  the picker reports for each wheel, the label.
* `Wheels` — what links them: either no cities have been loaded yet, or the cities are those of
  the state the state wheel shows and the city wheel shows one of them.
* `picker_names_city_of_state` — along every run of the picker no row is out of range and every
  label names a city together with its own state.

Scope: `UIPickerView` reports for a wheel the row last delivered or set, row 0 at first. The row
titles and the layout are not modelled.
-/

namespace AdvMad.Lab1

open AdvMad.Found

/-- Source: `FirstViewController.swift`, `STATE`. -/
def STATE : ℕ := 0

/-- Source: `FirstViewController.swift`, `CITY`. -/
def CITY : ℕ := 1

/-- A state and its cities. Source: `state-cities.swift`, `StateCities`. -/
structure StateCities where
  state : String
  cities : List String
deriving DecidableEq, Repr

/-- Source: `StateCitiesController.swift`, `DataError`. -/
inductive DataError
  | BadFilePath
  | CouldNotDecodeData
  | NoData
deriving DecidableEq, Repr

/-- The loaded data, nil when the load failed (`loadData` swallows its error).
Source: `StateCitiesController.swift`, `StateCitiesController`. -/
structure StateCitiesController where
  stateCitiesData : Option (List StateCities)
deriving DecidableEq, Repr

namespace StateCitiesController

/-- The states, in order. Source: `StateCitiesController.swift`, `getAllStates`. -/
def getAllStates (c : StateCitiesController) : Except DataError (List String) :=
  match c.stateCitiesData with
  | some data => .ok (data.map (·.state))
  | none => .error .NoData

/-- The cities of a state: `none` is the trap of an index past the last one.
Source: `StateCitiesController.swift`, `getCities`. -/
def getCities (c : StateCitiesController) (index : ℕ) : Option (Except DataError (List String)) :=
  match c.stateCitiesData with
  | some data => data[index]?.map fun entry => .ok entry.cities
  | none => some (.error .NoData)

end StateCitiesController

/-- The screen with its picker. Source: `FirstViewController.swift`, `FirstViewController`;
`selectedRow` is what the picker reports. -/
structure FirstViewController where
  stateCities : StateCitiesController
  states : List String
  cities : List String
  selectedRow : ℕ → ℕ
  locationLabel : String

/-- A row delivered for a wheel. -/
structure Turn where
  component : ℕ
  row : ℕ
deriving DecidableEq, Repr

namespace FirstViewController

/-- The screen after loading: no cities yet, an empty label. Source: `FirstViewController.swift`,
`viewDidLoad`. -/
def viewDidLoad (stateCities : StateCitiesController) : FirstViewController where
  stateCities := stateCities
  states := match stateCities.getAllStates with
    | .ok states => states
    | .error _ => []
  cities := []
  selectedRow := fun _ => 0
  locationLabel := ""

/-- The rows of a wheel. Source: `FirstViewController.swift`,
`pickerView(_:numberOfRowsInComponent:)`. -/
def numberOfRowsInComponent (s : FirstViewController) (component : ℕ) : ℤ :=
  if component = STATE then s.states.length
  else if component = CITY then s.cities.length
  else -1

/-- The state wheel's part: take the state's cities over, keep the old ones on an error, and set
the city wheel to its first row. Source: `FirstViewController.swift`,
`pickerView(_:didSelectRow:inComponent:)`, branch `component == STATE`. -/
def loadCities (s : FirstViewController) (row : ℕ) : Option FirstViewController :=
  (s.stateCities.getCities row).map fun result =>
    let cities := match result with
      | .ok cities => cities
      | .error _ => s.cities
    { s with cities := cities, selectedRow := Function.update s.selectedRow CITY 0 }

/-- Set the label from the rows the picker reports. Source: `FirstViewController.swift`,
`pickerView(_:didSelectRow:inComponent:)`, last lines. -/
def setLabel (s : FirstViewController) : Option FirstViewController := do
  let stateIndex := s.selectedRow STATE
  let cityIndex := s.selectedRow CITY
  let city ← s.cities[cityIndex]?
  let state ← s.states[stateIndex]?
  some { s with locationLabel := "You like " ++ city ++ ", " ++ state }

/-- A wheel has come to rest on a row. Source: `FirstViewController.swift`,
`pickerView(_:didSelectRow:inComponent:)`. -/
def didSelectRow (s : FirstViewController) (row component : ℕ) : Option FirstViewController :=
  if component = STATE then (s.loadCities row).bind setLabel else s.setLabel

/-- The picker takes the row and calls its delegate. -/
def turn (s : FirstViewController) (e : Turn) : Option FirstViewController :=
  { s with selectedRow := Function.update s.selectedRow e.component e.row }.didSelectRow
    e.row e.component

/-- The rows a wheel can deliver are those it has. -/
def Offers (s : FirstViewController) (e : Turn) : Prop :=
  (e.row : ℤ) < s.numberOfRowsInComponent e.component

instance (s : FirstViewController) (e : Turn) : Decidable (s.Offers e) :=
  inferInstanceAs (Decidable ((e.row : ℤ) < s.numberOfRowsInComponent e.component))

/-- The picker as a machine. -/
def machine : Machine FirstViewController Turn := ⟨turn, Offers⟩

instance (s : FirstViewController) (e : Turn) : Decidable (machine.enabled s e) :=
  inferInstanceAs (Decidable (s.Offers e))

/-! ### The wheels and the lists -/

/-- What links the lists and the rows, over the data `data`. -/
structure Wheels (data : List StateCities) (s : FirstViewController) : Prop where
  stateCities : s.stateCities.stateCitiesData = some data
  states : s.states = data.map (·.state)
  cities : s.cities = [] ∨ ∃ entry, data[s.selectedRow STATE]? = some entry ∧
    s.cities = entry.cities ∧ s.selectedRow CITY < entry.cities.length

/-- The label names a city and its state: those of the rows the picker reports. -/
def Named (data : List StateCities) (s : FirstViewController) : Prop :=
  ∃ entry city, data[s.selectedRow STATE]? = some entry ∧
    entry.cities[s.selectedRow CITY]? = some city ∧
    s.locationLabel = "You like " ++ city ++ ", " ++ entry.state

/-- After loading, the wheels are linked: there are no cities. -/
theorem wheels_viewDidLoad (data : List StateCities) : Wheels data (viewDidLoad ⟨some data⟩) :=
  ⟨rfl, rfl, Or.inl rfl⟩

/-- A wheel delivers a state's row, or a city's row of cities that have been loaded. -/
theorem cases_of_offers {s : FirstViewController} {e : Turn} (ho : s.Offers e) :
    (e.component = STATE ∧ e.row < s.states.length) ∨
      (e.component = CITY ∧ e.row < s.cities.length) := by
  unfold Offers numberOfRowsInComponent at ho
  by_cases hstate : e.component = STATE
  · rw [if_pos hstate] at ho
    exact Or.inl ⟨hstate, by omega⟩
  · rw [if_neg hstate] at ho
    by_cases hcity : e.component = CITY
    · rw [if_pos hcity] at ho
      exact Or.inr ⟨hcity, by omega⟩
    · rw [if_neg hcity] at ho
      omega

/-- Where the wheels show a state and one of its cities, the label is set to them. -/
theorem setLabel_of_shown {data : List StateCities} {s : FirstViewController} {entry : StateCities}
    (hs : Wheels data s) (hentry : data[s.selectedRow STATE]? = some entry)
    (hcities : s.cities = entry.cities) (hrow : s.selectedRow CITY < entry.cities.length) :
    ∃ s', s.setLabel = some s' ∧ Wheels data s' ∧ Named data s' := by
  have hcity : entry.cities[s.selectedRow CITY]? = some entry.cities[s.selectedRow CITY] :=
    List.getElem?_eq_getElem hrow
  have hstate : s.states[s.selectedRow STATE]? = some entry.state := by
    rw [hs.states, List.getElem?_map, hentry, Option.map_some]
  refine ⟨{ s with
    locationLabel := "You like " ++ entry.cities[s.selectedRow CITY] ++ ", " ++ entry.state },
    ?_, ⟨hs.stateCities, hs.states, hs.cities⟩, ⟨entry, _, hentry, hcity, rfl⟩⟩
  simp only [setLabel, hcities, hcity, hstate, Option.bind_eq_bind, Option.bind_some]

/-- The state wheel: the new state's cities are loaded before the label is set, and the city wheel
is on the first of them. -/
theorem turn_state {data : List StateCities} (hdata : ∀ entry ∈ data, entry.cities ≠ [])
    {s : FirstViewController} (hs : Wheels data s) {row : ℕ} (hrow : row < s.states.length) :
    ∃ s', s.turn ⟨STATE, row⟩ = some s' ∧ Wheels data s' ∧ Named data s' := by
  have hrow' : row < data.length := by simpa [hs.states] using hrow
  have hentry : data[row]? = some data[row] := List.getElem?_eq_getElem hrow'
  have hne : data[row].cities ≠ [] := hdata _ (List.getElem_mem hrow')
  let shown : FirstViewController :=
    { s with
      cities := data[row].cities
      selectedRow := Function.update (Function.update s.selectedRow STATE row) CITY 0 }
  have hload : { s with selectedRow := Function.update s.selectedRow STATE row }.loadCities row =
      some shown := by
    simp only [loadCities, StateCitiesController.getCities, hs.stateCities, hentry,
      Option.map_some, shown]
  have hstateRow : shown.selectedRow STATE = row := by simp [shown, STATE, CITY]
  have hcityRow : shown.selectedRow CITY = 0 := by simp [shown]
  have hshown : data[shown.selectedRow STATE]? = some data[row] := by rw [hstateRow, hentry]
  have hlt : shown.selectedRow CITY < data[row].cities.length := by
    rw [hcityRow]
    exact List.length_pos_iff.mpr hne
  have hwheels : Wheels data shown :=
    ⟨hs.stateCities, hs.states, Or.inr ⟨_, hshown, rfl, hlt⟩⟩
  obtain ⟨s', hlabel, hwheels', hnamed⟩ := setLabel_of_shown hwheels hshown rfl hlt
  refine ⟨s', ?_, hwheels', hnamed⟩
  unfold turn didSelectRow
  rw [if_pos rfl, hload, Option.bind_some, hlabel]

/-- The city wheel: it has rows only when a state's cities are loaded, and that state is still the
one the state wheel shows. -/
theorem turn_city {data : List StateCities} {s : FirstViewController} (hs : Wheels data s) {row : ℕ}
    (hrow : row < s.cities.length) :
    ∃ s', s.turn ⟨CITY, row⟩ = some s' ∧ Wheels data s' ∧ Named data s' := by
  have hne : s.cities ≠ [] := by
    intro hnil
    simp [hnil] at hrow
  obtain ⟨entry, hentry, hcities, -⟩ := hs.cities.resolve_left hne
  let shown : FirstViewController :=
    { s with selectedRow := Function.update s.selectedRow CITY row }
  have hstateRow : shown.selectedRow STATE = s.selectedRow STATE := by simp [shown, STATE, CITY]
  have hcityRow : shown.selectedRow CITY = row := by simp [shown]
  have hshown : data[shown.selectedRow STATE]? = some entry := by rw [hstateRow, hentry]
  have hlt : shown.selectedRow CITY < entry.cities.length := by
    rw [hcityRow, ← hcities]
    exact hrow
  have hwheels : Wheels data shown :=
    ⟨hs.stateCities, hs.states, Or.inr ⟨_, hshown, hcities, hlt⟩⟩
  obtain ⟨s', hlabel, hwheels', hnamed⟩ := setLabel_of_shown hwheels hshown hcities hlt
  refine ⟨s', ?_, hwheels', hnamed⟩
  have hother : ¬ CITY = STATE := by decide
  unfold turn didSelectRow
  rw [if_neg hother]
  exact hlabel

/-- **One turn** of either wheel. -/
theorem turn_of_wheels {data : List StateCities} (hdata : ∀ entry ∈ data, entry.cities ≠ [])
    {s : FirstViewController} {e : Turn} (hs : Wheels data s) (ho : s.Offers e) :
    ∃ s', s.turn e = some s' ∧ Wheels data s' ∧ Named data s' := by
  obtain ⟨component, row⟩ := e
  rcases cases_of_offers ho with ⟨hcomponent, hrow⟩ | ⟨hcomponent, hrow⟩
  · have heq : component = STATE := hcomponent
    rw [heq]
    exact turn_state hdata hs hrow
  · have heq : component = CITY := hcomponent
    rw [heq]
    exact turn_city hs hrow

/-! ### Whole runs -/

/-- **The picker never indexes out of range and never mixes states.** Over every list of states
with at least one city each, and every run of turns the wheels offer after loading: no turn traps,
and after each of them the label names a city together with the state it belongs to. -/
theorem picker_names_city_of_state (data : List StateCities)
    (hdata : ∀ entry ∈ data, entry.cities ≠ []) (turns : List Turn)
    (hlegal : machine.Legal (viewDidLoad ⟨some data⟩) turns) :
    (∃ s', machine.run (viewDidLoad ⟨some data⟩) turns = some s') ∧
      machine.Each (fun s e => ∃ s', machine.step s e = some s' ∧ Named data s')
        (viewDidLoad ⟨some data⟩) turns := by
  have hstep : ∀ s e, Wheels data s → machine.enabled s e →
      ∃ s', machine.step s e = some s' ∧ Wheels data s' := by
    intro s e hs ho
    obtain ⟨s', hs', hwheels, -⟩ := turn_of_wheels hdata hs ho
    exact ⟨s', hs', hwheels⟩
  constructor
  · obtain ⟨s', hrun, -⟩ := Machine.run_progress hstep (wheels_viewDidLoad data) hlegal
    exact ⟨s', hrun⟩
  · refine Machine.each_of_invariant (I := Wheels data) ?_ ?_ (wheels_viewDidLoad data) hlegal
    · intro s e s' hs ho hs'
      obtain ⟨s'', hs'', hwheels⟩ := hstep s e hs ho
      obtain rfl := Option.some_inj.mp (hs''.symm.trans hs')
      exact hwheels
    · intro s e hs ho
      obtain ⟨s', hs', -, hnamed⟩ := turn_of_wheels hdata hs ho
      exact ⟨s', hs', hnamed⟩

/-- A state with three cities and one with a single city. -/
def twoStates : List StateCities :=
  [⟨"Colorado", ["Boulder", "Denver", "Aurora"]⟩, ⟨"Wyoming", ["Cheyenne"]⟩]

/-- Turned from the third city of the one to the other. -/
theorem picker_names_city_of_state_fewer_cities :
    (∃ s', machine.run (viewDidLoad ⟨some twoStates⟩)
        [⟨STATE, 0⟩, ⟨CITY, 2⟩, ⟨STATE, 1⟩, ⟨CITY, 0⟩] = some s') ∧
      machine.Each (fun s e => ∃ s', machine.step s e = some s' ∧ Named twoStates s')
        (viewDidLoad ⟨some twoStates⟩) [⟨STATE, 0⟩, ⟨CITY, 2⟩, ⟨STATE, 1⟩, ⟨CITY, 0⟩] :=
  picker_names_city_of_state twoStates (by decide) _ (by decide)

end FirstViewController

end AdvMad.Lab1
