import AdvMad.Lab2.MoonList

/-!
# Lab 2: no moon lost, no moon twice

A book kept beside the screen: the names saved and the names deleted, a deletion being that of the
name its row shows. The store is in balance with the book when its moons and the deleted ones are,
in some order, those of the opening and the saved ones.

A delete and a move edit the store at the row the user sees. Where another moon is stored in that
row, a delete takes the wrong one, and a move takes it out and puts the moon on display in twice.

* `step_of_balanced` — one handler from a store in balance, displayed as it is up to order: it stays
  so exactly when the row named shows the moon stored there (`NamesShownMoon`).
* `moons_conserved_iff` — the same for whole runs. The lists may differ in their order throughout,
  as they do after a move over different rows.
-/

namespace AdvMad.Lab2.DetailViewController

open AdvMad.Found AdvMad.Lab2.PlanetsDataController

/-- The moon stored in a row of the selected planet. -/
def storedAt (s : DetailViewController) (row : ℕ) : Option String :=
  (s.planetsDataController.getMoons s.selectedPlanet).bind (·[row]?)

/-- The row a handler takes a moon from shows the moon that is stored there. -/
def NamesShownMoon (s : DetailViewController) : Handler → Prop
  | .commitDelete row => s.storedAt row = s.moonList[row]?
  | .moveRowAt fromRow _ => s.storedAt fromRow = s.moonList[fromRow]?
  | _ => True

instance decidableNamesShownMoon (s : DetailViewController) :
    (h : Handler) → Decidable (NamesShownMoon s h)
  | .commitDelete row => inferInstanceAs (Decidable (s.storedAt row = s.moonList[row]?))
  | .moveRowAt fromRow _ =>
      inferInstanceAs (Decidable (s.storedAt fromRow = s.moonList[fromRow]?))
  | .viewWillAppear | .unwindSegue _ _ => inferInstanceAs (Decidable True)

/-- A screen and the book kept beside it. -/
structure Booked where
  screen : DetailViewController
  saved : List String
  deleted : List String
deriving DecidableEq, Repr

/-- The name a handler saves. -/
def Handler.saves : Handler → List String
  | .unwindSegue identifier addedMoon =>
      if identifier = "save" ∧ addedMoon.isEmpty = false then [addedMoon] else []
  | _ => []

/-- The name a handler deletes, as its row shows it. -/
def Handler.deletes (s : DetailViewController) : Handler → List String
  | .commitDelete row => s.moonList[row]?.toList
  | _ => []

namespace Booked

/-- A screen with nothing in the book. -/
def start (s : DetailViewController) : Booked := ⟨s, [], []⟩

/-- The book of a screen after a handler. -/
def enter (b : Booked) (h : Handler) (s : DetailViewController) : Booked :=
  ⟨s, b.saved ++ h.saves, b.deleted ++ h.deletes b.screen⟩

/-- The screen goes its way and the book is kept. -/
def machine : Machine Booked Handler :=
  ⟨fun b h => (b.screen.step h).map (b.enter h), fun b h => b.screen.Offers h⟩

instance (b : Booked) (h : Handler) : Decidable (machine.enabled b h) :=
  decidableOffers b.screen h

/-- The moons stored and the ones deleted are those there were and the ones saved. -/
def Balanced (moons : List String) (b : Booked) : Prop :=
  ∃ ms, b.screen.planetsDataController.getMoons b.screen.selectedPlanet = some ms ∧
    (ms ++ b.deleted).Perm (moons ++ b.saved)

end Booked

/-- The displayed moons are the stored ones, in some order. -/
def ShowsStored (s : DetailViewController) : Prop :=
  ∃ ms, s.planetsDataController.getMoons s.selectedPlanet = some ms ∧ ms.Perm s.moonList

/-- After a handler the store is in balance exactly when what it stores is. -/
theorem balanced_iff_of_becomes {b : Booked} {h : Handler} {s' : DetailViewController}
    {displayed stored searched : List String} (hs' : Becomes b.screen s' displayed stored searched)
    (moons : List String) :
    (b.enter h s').Balanced moons ↔
      (stored ++ (b.deleted ++ h.deletes b.screen)).Perm (moons ++ (b.saved ++ h.saves)) := by
  unfold Booked.Balanced Booked.enter
  rw [hs'.moons]
  simp

/-- After a handler the screen shows what is stored exactly when it made the lists so. -/
theorem showsStored_iff_of_becomes {s s' : DetailViewController}
    {displayed stored searched : List String} (hs' : Becomes s s' displayed stored searched) :
    ShowsStored s' ↔ stored.Perm displayed := by
  unfold ShowsStored
  rw [hs'.moons, hs'.moonList]
  simp

/-! ### One handler -/

section Step

variable {b : Booked} {moons ms : List String}
  (hms : b.screen.planetsDataController.getMoons b.screen.selectedPlanet = some ms)
  (hperm : ms.Perm b.screen.moonList) (hbalance : (ms ++ b.deleted).Perm (moons ++ b.saved))

include hms

/-- The moon stored in a row there is. -/
theorem storedAt_of_lt {row : ℕ} (hrow : row < ms.length) :
    b.screen.storedAt row = some ms[row] := by
  unfold storedAt
  rw [hms, Option.bind_some, List.getElem?_eq_getElem hrow]

include hbalance

/-- The screen appears: it shows what is stored. -/
theorem viewWillAppear_of_balanced :
    ∃ s', b.screen.viewWillAppear = some s' ∧ (b.enter .viewWillAppear s').Balanced moons ∧
      ShowsStored s' := by
  obtain ⟨s', hs', hbecomes⟩ := viewWillAppear_spec hms
  refine ⟨s', hs', (balanced_iff_of_becomes hbecomes moons).mpr ?_,
    (showsStored_iff_of_becomes hbecomes).mpr (List.Perm.refl _)⟩
  simpa [Handler.deletes, Handler.saves] using hbalance

include hperm

/-- A return from the add screen puts the moon saved, if any, into both lists. -/
theorem unwindSegue_of_balanced (identifier addedMoon : String) :
    ∃ s', b.screen.unwindSegue identifier addedMoon = some s' ∧
      (b.enter (.unwindSegue identifier addedMoon) s').Balanced moons ∧ ShowsStored s' := by
  by_cases hsave : identifier = "save" ∧ addedMoon.isEmpty = false
  · have hsaves : (Handler.unwindSegue identifier addedMoon).saves = [addedMoon] := if_pos hsave
    obtain ⟨rfl, hmoon⟩ := hsave
    obtain ⟨s', hs', hbecomes⟩ := unwindSegue_spec hms (Nat.le_of_eq hperm.length_eq.symm) hmoon
    rw [← hperm.length_eq, List.insertIdx_length_self] at hbecomes
    refine ⟨s', hs', (balanced_iff_of_becomes hbecomes moons).mpr ?_,
      (showsStored_iff_of_becomes hbecomes).mpr (hperm.append_right _)⟩
    rw [hsaves]
    simp only [Handler.deletes, List.append_nil]
    have hmid : (ms ++ [addedMoon] ++ b.deleted).Perm (ms ++ b.deleted ++ [addedMoon]) := by
      rw [List.append_assoc, List.append_assoc]
      exact List.perm_append_comm.append_left ms
    rw [← List.append_assoc moons]
    exact hmid.trans (hbalance.append_right _)
  · have hsaves : (Handler.unwindSegue identifier addedMoon).saves = [] := if_neg hsave
    refine ⟨b.screen, unwindSegue_of_not_save hsave, ⟨ms, hms, ?_⟩, ⟨ms, hms, hperm⟩⟩
    simpa [Booked.enter, hsaves, Handler.deletes] using hbalance

/-- A delete takes the moon it shows out of the book, and the one stored in its row out of the
store. -/
theorem commitDelete_of_balanced {row : ℕ} (hrow : row < b.screen.moonList.length) :
    ∃ s', b.screen.commitDelete row = some s' ∧
      ((b.enter (.commitDelete row) s').Balanced moons ↔
        NamesShownMoon b.screen (.commitDelete row)) ∧
      (NamesShownMoon b.screen (.commitDelete row) → ShowsStored s') := by
  have hrow' : row < ms.length := by
    rw [hperm.length_eq]
    exact hrow
  obtain ⟨s', hs', hbecomes⟩ := commitDelete_spec hms (Nat.le_of_eq hperm.length_eq.symm) hrow
  have hnames : NamesShownMoon b.screen (.commitDelete row) ↔
      ms[row] = b.screen.moonList[row] := by
    simp only [NamesShownMoon]
    rw [storedAt_of_lt hms hrow', List.getElem?_eq_getElem hrow, Option.some_inj]
  refine ⟨s', hs', ?_, ?_⟩
  · have hdeletes : (Handler.commitDelete row).deletes b.screen = [b.screen.moonList[row]] := by
      simp [Handler.deletes, hrow]
    have hmid : (ms.eraseIdx row ++ (b.deleted ++ [b.screen.moonList[row]])).Perm
        (b.screen.moonList[row] :: (ms.eraseIdx row ++ b.deleted)) := by
      rw [← List.append_assoc]
      exact List.perm_append_singleton _ _
    have hsplit : (ms[row] :: (ms.eraseIdx row ++ b.deleted)).Perm (moons ++ b.saved) :=
      ((List.getElem_cons_eraseIdx_perm hrow').append_right b.deleted).trans hbalance
    rw [balanced_iff_of_becomes hbecomes, hdeletes, hnames, eq_comm,
      ← cons_perm_cons_iff (ms.eraseIdx row ++ b.deleted)]
    simp only [Handler.saves, List.append_nil]
    constructor
    · intro h
      exact hmid.symm.trans (h.trans hsplit.symm)
    · intro h
      exact hmid.trans (h.trans hsplit)
  · intro h
    rw [showsStored_iff_of_becomes hbecomes, perm_eraseIdx_iff hperm hrow' hrow]
    exact hnames.mp h

/-- A move takes the moon stored in its row out of the store, and puts the one it shows in. -/
theorem moveRowAt_of_balanced {i j : ℕ} (hi : i < b.screen.moonList.length)
    (hj : j < b.screen.moonList.length) :
    ∃ s', b.screen.moveRowAt i j = some s' ∧
      ((b.enter (.moveRowAt i j) s').Balanced moons ↔
        NamesShownMoon b.screen (.moveRowAt i j)) ∧
      (NamesShownMoon b.screen (.moveRowAt i j) → ShowsStored s') := by
  have hlen := hperm.length_eq
  have hi' : i < ms.length := by omega
  have hj' : j < ms.length := by omega
  obtain ⟨s', hs', hbecomes⟩ := moveRowAt_spec hms (Nat.le_of_eq hlen.symm) hi hj
  have hnames : NamesShownMoon b.screen (.moveRowAt i j) ↔
      b.screen.moonList[i] = ms[i] := by
    simp only [NamesShownMoon]
    rw [storedAt_of_lt hms hi', List.getElem?_eq_getElem hi, Option.some_inj, eq_comm]
  refine ⟨s', hs', ?_, ?_⟩
  · rw [balanced_iff_of_becomes hbecomes, hnames, ← perm_move_iff hi' hj']
    simp only [Handler.saves, Handler.deletes, List.append_nil]
    constructor
    · intro h
      exact (List.perm_append_right_iff b.deleted).mp (h.trans hbalance.symm)
    · intro h
      exact (h.append_right b.deleted).trans hbalance
  · intro h
    rw [showsStored_iff_of_becomes hbecomes]
    have hmove := (perm_move_iff hi' hj' b.screen.moonList[i]).mpr (hnames.mp h)
    exact (hmove.trans hperm).trans (List.set_set_perm hi hj).symm

end Step

/-- **One handler from a store in balance** that is displayed as it is up to order: no trap, and it
stays so exactly when the row named shows the moon stored there. -/
theorem step_of_balanced {b : Booked} {h : Handler} {moons : List String}
    (hshows : ShowsStored b.screen) (hb : b.Balanced moons) (ho : b.screen.Offers h) :
    ∃ s', b.screen.step h = some s' ∧
      ((b.enter h s').Balanced moons ↔ NamesShownMoon b.screen h) ∧
      (NamesShownMoon b.screen h → ShowsStored s') := by
  obtain ⟨ms, hms, hperm⟩ := hshows
  obtain ⟨ms', hms', hbalance⟩ := hb
  obtain rfl := Option.some_inj.mp (hms.symm.trans hms')
  cases h with
  | viewWillAppear =>
      obtain ⟨s', hs', hbalanced, hshows⟩ := viewWillAppear_of_balanced hms hbalance
      exact ⟨s', hs', iff_of_true hbalanced trivial, fun _ => hshows⟩
  | unwindSegue identifier addedMoon =>
      obtain ⟨s', hs', hbalanced, hshows⟩ :=
        unwindSegue_of_balanced hms hperm hbalance identifier addedMoon
      exact ⟨s', hs', iff_of_true hbalanced trivial, fun _ => hshows⟩
  | commitDelete row => exact commitDelete_of_balanced hms hperm hbalance ho
  | moveRowAt fromRow toRow => exact moveRowAt_of_balanced hms hperm hbalance ho.1 ho.2

/-! ### Whole runs -/

/-- **When no moon is lost and none is there twice.** From the moment the screen has appeared, over
every run of it: in every state the moons stored and those deleted are, up to order, the moons of
the opening and those saved, iff every delete and every move of the run names a row that shows the
moon stored there. -/
theorem moons_conserved_iff (c : PlanetsDataController) (selectedPlanet : ℕ)
    (s : DetailViewController) (hopen : (prepare c selectedPlanet).viewWillAppear = some s)
    (handlers : List Handler) (hlegal : Booked.machine.Legal (.start s) handlers) :
    Booked.machine.Always (Booked.Balanced s.moonList) (.start s) handlers ↔
      Booked.machine.Each (fun b => NamesShownMoon b.screen) (.start s) handlers := by
  have hagree : Agree s := agree_of_viewWillAppear hopen
  have hstart : ShowsStored s ∧ (Booked.start s).Balanced s.moonList :=
    ⟨⟨_, hagree, List.Perm.refl _⟩, ⟨_, hagree, List.Perm.refl _⟩⟩
  rw [Machine.always_iff_each, and_iff_right hstart.2]
  refine Machine.each_congr (I := fun b => ShowsStored b.screen ∧ b.Balanced s.moonList) ?_ ?_
    hstart hlegal
  · rintro b h ⟨hshows, hb⟩ ho
    obtain ⟨s', hs', hiff, -⟩ := step_of_balanced hshows hb ho
    have hstep : Booked.machine.step b h = some (b.enter h s') := by
      unfold Booked.machine
      simp only [hs', Option.map_some]
    simp only [hstep, Option.some_inj, forall_eq']
    exact hiff
  · rintro b h b' ⟨hshows, hb⟩ ho hbalanced hstep
    obtain ⟨s', hs', hiff, hkeep⟩ := step_of_balanced hshows hb ho
    have hb' : b.enter h s' = b' := by
      unfold Booked.machine at hstep
      simpa only [hs', Option.map_some, Option.some_inj] using hstep
    have hafter := hbalanced b' hstep
    rw [← hb'] at hafter ⊢
    exact ⟨hkeep (hiff.mp hafter), hafter⟩

/-- Two moves, the second between neighbouring rows. -/
theorem moons_conserved_iff_neighbours :
    Booked.machine.Always (Booked.Balanced threeMoonsScreen.moonList) (.start threeMoonsScreen)
        [.moveRowAt 0 2, .moveRowAt 2 1] ↔
      Booked.machine.Each (fun b => NamesShownMoon b.screen) (.start threeMoonsScreen)
        [.moveRowAt 0 2, .moveRowAt 2 1] :=
  moons_conserved_iff threeMoons 0 threeMoonsScreen (by decide) _ (by decide)

/-- Two drags after which one of three moons is gone and another is stored twice. -/
example : (Booked.machine.run (.start threeMoonsScreen) [.moveRowAt 0 2, .moveRowAt 0 1]).map
    (fun b => (b.screen.moonList, b.screen.planetsDataController.getMoons 0)) =
    some (["Phobos", "Luna", "Deimos"], some ["Luna", "Luna", "Deimos"]) := by
  decide

end AdvMad.Lab2.DetailViewController
