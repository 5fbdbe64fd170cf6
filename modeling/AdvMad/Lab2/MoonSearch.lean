import AdvMad.Lab2.MoonList

/-!
# Lab 2: the moon search and the third list

The search results controller filters a list of its own, `allMoons`. The screen's appearing and a
save refresh it; a delete edits the displayed and the stored list and leaves `allMoons` as it was,
so that a search goes on finding the moon.

* `Edits` — the abstract reading of a history without moves: the moons that are there and those
  deleted since `allMoons` was last refreshed. `follows_step` says that the code follows it.
* `search_answers_iff` — after a whole history, a search answers from the store's list exactly
  when none of the moons deleted since the last refresh contains the text.
* `deleted_moon_found` — a moon deleted and searched for at once is found.

Moves are left out: they are the subject of `AdvMad.Lab2.MoonList`.
-/

namespace AdvMad.Lab2.DetailViewController

open AdvMad.Found AdvMad.Lab2.PlanetsDataController

/-- The moons a history of edits leaves, and those it deleted since the search list was last
refreshed. -/
structure Edits where
  moons : List String
  unrefreshed : List String
deriving DecidableEq, Repr

namespace Edits

/-- The screen appears, or a name comes back from the add screen and is saved if it is not empty:
the search list is refreshed. A delete puts its moon among the unrefreshed ones. -/
def after (t : Edits) : Handler → Edits
  | .viewWillAppear => ⟨t.moons, []⟩
  | .unwindSegue identifier addedMoon =>
      if identifier = "save" ∧ addedMoon.isEmpty = false then ⟨t.moons ++ [addedMoon], []⟩ else t
  | .commitDelete row => ⟨t.moons.eraseIdx row, t.unrefreshed ++ t.moons[row]?.toList⟩
  | .moveRowAt _ _ => t

end Edits

/-- The moons a history deletes after the last refresh of the search list, from the list `moons`
it starts with. -/
def unrefreshed (moons : List String) (handlers : List Handler) : List String :=
  (handlers.foldl Edits.after ⟨moons, []⟩).unrefreshed

/-- The handlers other than a move. -/
def Handler.isMove : Handler → Bool
  | .moveRowAt _ _ => true
  | _ => false

/-- The screen follows the edits: displayed and stored list are the moons that are there, and the
search list has the unrefreshed ones besides. -/
structure Follows (s : DetailViewController) (t : Edits) : Prop where
  agree : Agree s
  moonList : s.moonList = t.moons
  sublist : t.moons.Sublist s.resultsController.allMoons
  perm : s.resultsController.allMoons.Perm (t.moons ++ t.unrefreshed)

/-- Where a handler refreshes the search list, the screen follows with nothing unrefreshed. -/
theorem follows_of_refreshed {s s' : DetailViewController} {moons : List String}
    (h : Becomes s s' moons moons moons) : Follows s' ⟨moons, []⟩ := by
  refine ⟨(agree_iff_of_becomes h).mpr rfl, h.moonList, ?_, ?_⟩
  · rw [h.allMoons]
  · rw [h.allMoons, List.append_nil]

/-! ### One handler -/

/-- The screen appears with all three lists the same. -/
theorem follows_of_viewWillAppear {s s' : DetailViewController} (h : s.viewWillAppear = some s') :
    Follows s' ⟨s'.moonList, []⟩ := by
  obtain ⟨ms, hbecomes⟩ := becomes_of_viewWillAppear h
  rw [hbecomes.moonList]
  exact follows_of_refreshed hbecomes

/-- The screen appearing again changes no moon. -/
theorem moonList_of_viewWillAppear {s s' : DetailViewController} (hs : Agree s)
    (h : s.viewWillAppear = some s') : s'.moonList = s.moonList := by
  obtain ⟨s'', hs'', hbecomes⟩ := viewWillAppear_spec hs
  obtain rfl := Option.some_inj.mp (hs''.symm.trans h)
  exact hbecomes.moonList

/-- A return from the add screen puts a saved name at the end of all three lists. -/
theorem follows_unwindSegue {s s' : DetailViewController} {t : Edits} (hs : Follows s t)
    {identifier addedMoon : String} (h : s.unwindSegue identifier addedMoon = some s') :
    Follows s' (t.after (.unwindSegue identifier addedMoon)) := by
  by_cases hsave : identifier = "save" ∧ addedMoon.isEmpty = false
  · have hafter : t.after (.unwindSegue identifier addedMoon) = ⟨t.moons ++ [addedMoon], []⟩ :=
      if_pos hsave
    obtain ⟨rfl, hmoon⟩ := hsave
    obtain ⟨s'', hs'', hbecomes⟩ := unwindSegue_spec hs.agree (Nat.le_refl _) hmoon
    obtain rfl := Option.some_inj.mp (hs''.symm.trans h)
    rw [List.insertIdx_length_self, hs.moonList] at hbecomes
    rw [hafter]
    exact follows_of_refreshed hbecomes
  · have hafter : t.after (.unwindSegue identifier addedMoon) = t := if_neg hsave
    rw [unwindSegue_of_not_save hsave, Option.some_inj] at h
    rwa [hafter, ← h]

/-- A delete takes its moon out of the first two lists and leaves it in the third. -/
theorem follows_commitDelete {s s' : DetailViewController} {t : Edits} (hs : Follows s t) {row : ℕ}
    (hrow : row < s.moonList.length) (h : s.commitDelete row = some s') :
    Follows s' (t.after (.commitDelete row)) := by
  obtain ⟨s'', hs'', hbecomes⟩ := commitDelete_spec hs.agree (Nat.le_refl _) hrow
  obtain rfl := Option.some_inj.mp (hs''.symm.trans h)
  have hrow' : row < t.moons.length := by
    rw [← hs.moonList]
    exact hrow
  have hsub := (List.eraseIdx_sublist t.moons row).trans hs.sublist
  have hperm : s.resultsController.allMoons.Perm
      (t.moons.eraseIdx row ++ (t.unrefreshed ++ [t.moons[row]])) := by
    have htake := (perm_eraseIdx_append hrow').append_right t.unrefreshed
    have hswap : (t.moons.eraseIdx row ++ [t.moons[row]] ++ t.unrefreshed).Perm
        (t.moons.eraseIdx row ++ (t.unrefreshed ++ [t.moons[row]])) := by
      rw [List.append_assoc]
      exact List.perm_append_comm.append_left _
    exact (hs.perm.trans htake).trans hswap
  have hafter : t.after (.commitDelete row) =
      ⟨t.moons.eraseIdx row, t.unrefreshed ++ [t.moons[row]]⟩ := by
    simp only [Edits.after, List.getElem?_eq_getElem hrow', Option.toList_some]
  rw [hafter]
  refine ⟨(agree_iff_of_becomes hbecomes).mpr rfl, ?_, ?_, ?_⟩
  · rw [hbecomes.moonList, hs.moonList]
  · rwa [hbecomes.allMoons]
  · rwa [hbecomes.allMoons]

/-- **One handler other than a move**: the screen follows the edits. -/
theorem follows_step {s s' : DetailViewController} {t : Edits} {h : Handler} (hs : Follows s t)
    (ho : s.Offers h) (hmove : h.isMove = false) (hstep : s.step h = some s') :
    Follows s' (t.after h) := by
  cases h with
  | viewWillAppear =>
      have hmoons := (moonList_of_viewWillAppear hs.agree hstep).trans hs.moonList
      have hfollows := follows_of_viewWillAppear hstep
      rwa [hmoons] at hfollows
  | unwindSegue identifier addedMoon => exact follows_unwindSegue hs hstep
  | commitDelete row => exact follows_commitDelete hs ho hstep
  | moveRowAt fromRow toRow => cases hmove

/-! ### Whole histories -/

/-- The search answers from the store: the results are the moons of the planet that contain the
text, in the store's order. -/
def AnswersFromStore (contains : String → String → Bool) (q : String) (s : DetailViewController) :
    Prop :=
  (s.planetsDataController.getMoons s.selectedPlanet).map (·.filter (contains q)) =
    some (s.resultsController.updateSearchResults contains (some q)).filteredMoons

instance (contains : String → String → Bool) (q : String) (s : DetailViewController) :
    Decidable (AnswersFromStore contains q s) :=
  inferInstanceAs (Decidable (_ = _))

/-- Where the screen follows the edits, a search answers from the store exactly when no
unrefreshed moon contains the text. -/
theorem answersFromStore_iff {s : DetailViewController} {t : Edits} (hs : Follows s t)
    (contains : String → String → Bool) {q : String} (hq : q.isEmpty = false) :
    AnswersFromStore contains q s ↔ ∀ m ∈ t.unrefreshed, contains q m = false := by
  have hstore : s.planetsDataController.getMoons s.selectedPlanet = some t.moons := by
    rw [← hs.moonList]
    exact hs.agree
  have hfound : (s.resultsController.updateSearchResults contains (some q)).filteredMoons =
      s.resultsController.allMoons.filter (contains q) := by
    simp only [SearchResultsController.updateSearchResults, hq, if_true]
  unfold AnswersFromStore
  rw [hstore, hfound, Option.map_some, Option.some_inj, eq_comm]
  exact filter_eq_filter_iff hs.sublist hs.perm (contains q)

/-- **A search answers from the current list exactly when no moon deleted since the last refresh
contains its text.** From the moment the screen has appeared, for every history without moves and
every text that is not empty, whatever containment is. -/
theorem search_answers_iff (contains : String → String → Bool) (c : PlanetsDataController)
    (selectedPlanet : ℕ) (s : DetailViewController)
    (hopen : (prepare c selectedPlanet).viewWillAppear = some s) (handlers : List Handler)
    (hlegal : machine.Legal s handlers) (hmoves : ∀ h ∈ handlers, h.isMove = false) (q : String)
    (hq : q.isEmpty = false) :
    ∃ s', machine.run s handlers = some s' ∧
      (AnswersFromStore contains q s' ↔
        ∀ m ∈ unrefreshed s.moonList handlers, contains q m = false) := by
  have hfollows : Follows s ⟨s.moonList, []⟩ := follows_of_viewWillAppear hopen
  have hsteps : machine.Each (fun s h => s.Offers h ∧ h.isMove = false) s handlers :=
    (machine.each_and _ _ s handlers).mpr ⟨hlegal, Machine.each_of_forall s hmoves⟩
  have hstep : ∀ s h, Agree s → s.Offers h ∧ h.isMove = false →
      ∃ s', machine.step s h = some s' ∧ Agree s' := by
    rintro s h hs ⟨ho, hmove⟩
    obtain ⟨s', hs', hiff⟩ := step_of_agree hs ho
    refine ⟨s', hs', hiff.mpr ?_⟩
    cases h with
    | moveRowAt fromRow toRow => cases hmove
    | _ => trivial
  obtain ⟨s', hrun, -⟩ := Machine.run_progress hstep hfollows.agree hsteps
  refine ⟨s', hrun, ?_⟩
  have hend := Machine.run_foldl (R := Follows) Edits.after
    (fun s t h s' hs hh hs' => follows_step hs hh.1 hh.2 hs') hfollows hsteps hrun
  exact answersFromStore_iff hend contains hq

/-- A text in a name, both in lower case. -/
def containsIgnoringCase (q w : String) : Bool :=
  w.toLower.toList.tails.any q.toLower.toList.isPrefixOf

/-- A delete, then a save. -/
theorem search_answers_iff_delete_save :
    ∃ s', machine.run threeMoonsScreen [.commitDelete 0, .unwindSegue "save" "Io"] = some s' ∧
      (AnswersFromStore containsIgnoringCase "dei" s' ↔
        ∀ m ∈ unrefreshed threeMoonsScreen.moonList [.commitDelete 0, .unwindSegue "save" "Io"],
          containsIgnoringCase "dei" m = false) :=
  search_answers_iff containsIgnoringCase threeMoons 0 threeMoonsScreen (by decide) _ (by decide)
    (by decide) "dei" (by decide +kernel)

/-- A moon deleted and searched for at once: the search finds it, the store has it no more. -/
theorem deleted_moon_found :
    machine.Legal threeMoonsScreen [.commitDelete 0] ∧
      ∃ s', machine.run threeMoonsScreen [.commitDelete 0] = some s' ∧
        ¬ AnswersFromStore containsIgnoringCase "dei" s' := by
  refine ⟨by decide, _, rfl, ?_⟩
  decide +kernel

end AdvMad.Lab2.DetailViewController
