import AdvMad.Lab2.Planets

/-!
# Lab 2: editing moons stays in range and on one planet

The rows a handler names are rows of the screen's own `moonList`; the same numbers index the
store. `Covers s` is what makes that safe: the store has a list for the selected planet, and it is
at least as long as `moonList`. The contents may differ, as they do after a move, so nothing here
rests on the two lists agreeing.

* `step_of_covers` — a handler on an offered row does not trap, keeps `Covers`, and leaves the
  rest of the store alone.
* `editing_in_range` — for every planet that can be selected and every run of the screen: no
  handler traps, and after each of them the rest of the store is what it was.
-/

namespace AdvMad.Lab2

open AdvMad.Found

namespace PlanetsDataController

/-- A planet that can be selected has a moon list. -/
theorem getMoons_of_lt {c : PlanetsDataController} {p : ℕ} (h : p < c.getPlanets.length) :
    ∃ ms, c.getMoons p = some ms := by
  have hp : p < c.planetData.length := by simpa [getPlanets] using h
  refine ⟨c.planetData[p].moons, ?_⟩
  simp only [getMoons, List.getElem?_eq_getElem hp, Option.map_some]

end PlanetsDataController

namespace DetailViewController

open AdvMad.Lab2.PlanetsDataController

/-- The store has a list for the selected planet, at least as long as the displayed one. -/
def Covers (s : DetailViewController) : Prop :=
  ∃ ms, s.planetsDataController.getMoons s.selectedPlanet = some ms ∧
    s.moonList.length ≤ ms.length

/-- A screen leaves the other planets as it found them. -/
theorem Leaves.refl (s : DetailViewController) : Leaves s s := ⟨rfl, rfl, fun _ _ => rfl⟩

/-- So do two handlers, one after the other. -/
theorem Leaves.trans {s₁ s₂ s₃ : DetailViewController} (h : Leaves s₁ s₂) (h' : Leaves s₂ s₃) :
    Leaves s₁ s₃ := by
  refine ⟨h'.selectedPlanet.trans h.selectedPlanet, h'.getPlanets.trans h.getPlanets, ?_⟩
  intro q hq
  have hq' : q ≠ s₂.selectedPlanet := by
    rw [h.selectedPlanet]
    exact hq
  exact (h'.getMoons q hq').trans (h.getMoons q hq)

/-! ### One handler -/

/-- After a handler the store covers the displayed list when it left the stored one no shorter. -/
theorem covers_of_becomes {s s' : DetailViewController} {displayed stored searched : List String}
    (h : Becomes s s' displayed stored searched) (hle : displayed.length ≤ stored.length) :
    Covers s' := by
  refine ⟨stored, h.moons, ?_⟩
  rwa [h.moonList]

/-- The screen appears: the two lists have one length. -/
theorem viewWillAppear_of_covers {s : DetailViewController} (hs : Covers s) :
    ∃ s', s.viewWillAppear = some s' ∧ Covers s' ∧ Leaves s s' := by
  obtain ⟨ms, hms, -⟩ := hs
  obtain ⟨s', hs', hbecomes⟩ := viewWillAppear_spec hms
  exact ⟨s', hs', covers_of_becomes hbecomes (Nat.le_refl _), hbecomes.toLeaves⟩

/-- A save inserts at the displayed length, which the store's list has room for. -/
theorem unwindSegue_of_covers {s : DetailViewController} (hs : Covers s)
    (identifier addedMoon : String) :
    ∃ s', s.unwindSegue identifier addedMoon = some s' ∧ Covers s' ∧ Leaves s s' := by
  by_cases hsave : identifier = "save" ∧ addedMoon.isEmpty = false
  · obtain ⟨rfl, hmoon⟩ := hsave
    obtain ⟨ms, hms, hle⟩ := hs
    obtain ⟨s', hs', hbecomes⟩ := unwindSegue_spec hms hle hmoon
    refine ⟨s', hs', covers_of_becomes hbecomes ?_, hbecomes.toLeaves⟩
    rw [List.length_insertIdx_of_le_length hle, List.length_append, List.length_singleton]
    omega
  · exact ⟨s, unwindSegue_of_not_save hsave, hs, Leaves.refl s⟩

/-- A delete takes one row out of both lists. -/
theorem commitDelete_of_covers {s : DetailViewController} (hs : Covers s) {row : ℕ}
    (hrow : row < s.moonList.length) :
    ∃ s', s.commitDelete row = some s' ∧ Covers s' ∧ Leaves s s' := by
  obtain ⟨ms, hms, hle⟩ := hs
  obtain ⟨s', hs', hbecomes⟩ := commitDelete_spec hms hle hrow
  refine ⟨s', hs', covers_of_becomes hbecomes ?_, hbecomes.toLeaves⟩
  have hrow' : row < ms.length := by omega
  rw [List.length_eraseIdx_of_lt hrow, List.length_eraseIdx_of_lt hrow']
  omega

/-- A move takes one row out of the store's list and puts one back: the destination is at most the
length in between. -/
theorem moveRowAt_of_covers {s : DetailViewController} (hs : Covers s) {fromRow toRow : ℕ}
    (hfrom : fromRow < s.moonList.length) (hto : toRow < s.moonList.length) :
    ∃ s', s.moveRowAt fromRow toRow = some s' ∧ Covers s' ∧ Leaves s s' := by
  obtain ⟨ms, hms, hle⟩ := hs
  obtain ⟨s', hs', hbecomes⟩ := moveRowAt_spec hms hle hfrom hto
  refine ⟨s', hs', covers_of_becomes hbecomes ?_, hbecomes.toLeaves⟩
  have hfrom' : fromRow < ms.length := by omega
  have hlen : (ms.eraseIdx fromRow).length = ms.length - 1 := List.length_eraseIdx_of_lt hfrom'
  have hto' : toRow ≤ (ms.eraseIdx fromRow).length := by omega
  rw [List.length_insertIdx_of_le_length hto', hlen, List.length_set, List.length_set]
  omega

/-- **One handler**: on an offered row it does not trap, the store still covers the displayed list,
and nothing but the selected planet's moons has changed. -/
theorem step_of_covers {s : DetailViewController} {h : Handler} (hs : Covers s) (ho : s.Offers h) :
    ∃ s', s.step h = some s' ∧ Covers s' ∧ Leaves s s' := by
  cases h with
  | viewWillAppear => exact viewWillAppear_of_covers hs
  | unwindSegue identifier addedMoon => exact unwindSegue_of_covers hs identifier addedMoon
  | commitDelete row => exact commitDelete_of_covers hs ho
  | moveRowAt fromRow toRow => exact moveRowAt_of_covers hs ho.1 ho.2

/-! ### Whole runs -/

/-- A planet that can be selected brings up a screen whose list the store covers: it is empty
until the screen appears. -/
theorem covers_prepare {c : PlanetsDataController} {selectedPlanet : ℕ}
    (hsel : selectedPlanet < c.getPlanets.length) : Covers (prepare c selectedPlanet) := by
  obtain ⟨ms, hms⟩ := getMoons_of_lt hsel
  exact ⟨ms, hms, Nat.zero_le _⟩

/-- **Editing moons never indexes out of range and never touches another planet.** For every
content, every planet that can be selected and every run of the screen: no handler traps, and
after each of them the planets and the moons of the other planets are those of the content. -/
theorem editing_in_range (c : PlanetsDataController) (selectedPlanet : ℕ)
    (hsel : selectedPlanet < c.getPlanets.length) (handlers : List Handler)
    (hlegal : machine.Legal (prepare c selectedPlanet) handlers) :
    (∃ s', machine.run (prepare c selectedPlanet) handlers = some s') ∧
      machine.Always (fun s => s.planetsDataController.getPlanets = c.getPlanets ∧
        ∀ q, q ≠ selectedPlanet → s.planetsDataController.getMoons q = c.getMoons q)
        (prepare c selectedPlanet) handlers := by
  let s₀ := prepare c selectedPlanet
  let I : DetailViewController → Prop := fun s => Covers s ∧ Leaves s₀ s
  have hI : I s₀ := ⟨covers_prepare hsel, Leaves.refl s₀⟩
  have hstep : ∀ s h, I s → machine.enabled s h → ∃ s', machine.step s h = some s' ∧ I s' := by
    rintro s h ⟨hcov, hleaves⟩ ho
    obtain ⟨s', hs', hcov', hleaves'⟩ := step_of_covers hcov ho
    exact ⟨s', hs', hcov', hleaves.trans hleaves'⟩
  constructor
  · obtain ⟨s', hrun, -⟩ := Machine.run_progress hstep hI hlegal
    exact ⟨s', hrun⟩
  · have halways : machine.Always I s₀ handlers := Machine.always_of_progress hstep hI hlegal
    exact halways.mono fun s hs => ⟨hs.2.getPlanets, hs.2.getMoons⟩

/-- Two planets with moons. -/
def twoPlanets : PlanetsDataController :=
  ⟨[⟨"Earth", ["Moon"]⟩, ⟨"Mars", ["Deimos", "Phobos", "Luna"]⟩]⟩

/-- A move that makes the two lists differ, then a delete and a save. -/
theorem editing_in_range_after_move :
    (∃ s', machine.run (prepare twoPlanets 1)
        [.viewWillAppear, .moveRowAt 0 2, .commitDelete 2, .unwindSegue "save" "Io"] = some s') ∧
      machine.Always (fun s => s.planetsDataController.getPlanets = twoPlanets.getPlanets ∧
        ∀ q, q ≠ 1 → s.planetsDataController.getMoons q = twoPlanets.getMoons q)
        (prepare twoPlanets 1)
        [.viewWillAppear, .moveRowAt 0 2, .commitDelete 2, .unwindSegue "save" "Io"] :=
  editing_in_range twoPlanets 1 (by decide) _ (by decide)

end DetailViewController

end AdvMad.Lab2
