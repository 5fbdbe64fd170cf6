import AdvMad.Lab2.Bounds
import AdvMad.Found.Durable

/-!
# Lab 2: the app and its file

The whole app around the moon screen: the list of planets (`ViewController`), from which a tap opens
the screen of a planet, and the property list that is written when the app resigns active and loaded
at launch.

* `App.machine` — a tap on a planet, the handlers of the moon screen, the way back, the
  resign-active notification, and a relaunch at any moment.
* `Whole` — the invariant: the list shows the planets of the store, and an open screen works on that
  store and stays in range on it. `whole_step`: no offered event traps, and each keeps it.
* `App.turn` — what an event is to the store and its file; `stores_step` says the code follows it.
* `app_follows_edits` — over whole runs: no trap, and which edits the store and the file hold.
-/

namespace AdvMad.Lab2

open AdvMad.Found

/-- Source: `Planets.swift`, `DataErrorTypes`. -/
inductive DataErrorTypes
  | NoDataFile
  | CouldNotDecode
  | CouldNotEncode
deriving DecidableEq, Repr

variable {Content : Type}

namespace PlanetsDataController

/-- `planetData.plist` of the documents directory where it exists, else `planets.plist` of the
bundle. Source: `Planets.swift`, `loadData`. -/
def loadData (coder : Coder Content (List PlanetsDataModel)) (readable : Bool)
    (written bundled : Option Content) : Except DataErrorTypes (List PlanetsDataModel) :=
  loadFile coder .NoDataFile .CouldNotDecode readable written bundled

/-- What the written file holds after the resign-active notification. Source: `Planets.swift`,
`writeData`. -/
def writeData (coder : Coder Content (List PlanetsDataModel)) (c : PlanetsDataController) :
    Content := coder.encode c.planetData

end PlanetsDataController

open PlanetsDataController DetailViewController

/-- The app: its files, the list of planets, and the moon screen while it is open. -/
structure App (Content : Type) where
  written : Option Content
  bundled : Option Content
  planetDataController : PlanetsDataController
  planetsList : List String
  detail : Option DetailViewController
deriving DecidableEq

namespace App

/-- What happens to the app. -/
inductive Event
  /-- A tap on a row of the list. -/
  | chooseRow (row : ℕ)
  /-- A handler of the moon screen. -/
  | screen (h : Handler)
  /-- Back to the list. -/
  | back
  | resignActive
  /-- The process ends and the app is launched again: whether the file can be read this time. -/
  | relaunch (readable : Bool)
deriving DecidableEq, Repr

variable (coder : Coder Content (List PlanetsDataModel))

/-- A launch on these files; an error is printed and leaves the store empty.
Source: `ViewController.swift`, `viewDidLoad`. -/
def viewDidLoad (readable : Bool) (written bundled : Option Content) : App Content :=
  match loadData coder readable written bundled with
  | .ok planetData => ⟨written, bundled, ⟨planetData⟩, getPlanets ⟨planetData⟩, none⟩
  | .error _ => ⟨written, bundled, ⟨[]⟩, [], none⟩

/-- The moon screen works on the store of the list. -/
def withDetail (a : App Content) (s : DetailViewController) : App Content :=
  { a with planetDataController := s.planetsDataController, detail := some s }

/-- One event, `none` where it traps. Source: `ViewController.swift`, `prepare(for:sender:)`, for
the tap on a row. -/
def step (a : App Content) : Event → Option (App Content)
  | .chooseRow row => do
      let _title ← a.planetsList[row]?
      let s ← (DetailViewController.prepare a.planetDataController row).viewWillAppear
      return a.withDetail s
  | .screen h =>
      match a.detail with
      | some s => (s.step h).map a.withDetail
      | none => some a
  | .back => some { a with detail := none }
  | .resignActive => some { a with written := some (writeData coder a.planetDataController) }
  | .relaunch readable => some (viewDidLoad coder readable a.written a.bundled)

/-- The events an app offers. -/
def Offers (a : App Content) : Event → Prop
  | .chooseRow row => a.detail = none ∧ row < a.planetsList.length
  | .screen h => ∃ s ∈ a.detail, s.Offers h
  | .back => a.detail ≠ none
  | .resignActive | .relaunch _ => True

instance decidableOffers (a : App Content) : (e : Event) → Decidable (a.Offers e)
  | .chooseRow row =>
      match h : a.detail with
      | none => decidable_of_iff (row < a.planetsList.length) (by simp [Offers, h])
      | some s => isFalse (by simp [Offers, h])
  | .screen handler =>
      match h : a.detail with
      | none => isFalse (by simp [Offers, h])
      | some s => decidable_of_iff (s.Offers handler) (by simp [Offers, h])
  | .back =>
      match h : a.detail with
      | none => isFalse (by simp [Offers, h])
      | some s => isTrue (by simp [Offers, h])
  | .resignActive | .relaunch _ => inferInstanceAs (Decidable True)

/-- The app as a machine. -/
def machine : Machine (App Content) Event := ⟨step coder, Offers⟩

instance (a : App Content) (e : Event) : Decidable ((machine coder).enabled a e) :=
  decidableOffers a e

end App

/-! ## Which edits there are -/

/-- An edit of the store, as the moon screen asks for it. -/
inductive Edit
  | save (planet : ℕ) (newMoon : String) (row : ℕ)
  | delete (planet row : ℕ)
  | move (planet fromRow toRow : ℕ) (moonBeingMoved : String)
deriving DecidableEq, Repr

/-- The planets after an edit; one out of range leaves them. -/
def Edit.apply (planetData : List PlanetsDataModel) (e : Edit) : List PlanetsDataModel :=
  let c : PlanetsDataController := ⟨planetData⟩
  let c' := match e with
    | .save planet newMoon row => c.addMoon planet newMoon row
    | .delete planet row => c.deleteMoon planet row
    | .move planet fromRow toRow moonBeingMoved =>
        (c.deleteMoon planet fromRow).bind fun c => c.addMoon planet moonBeingMoved toRow
  (c'.getD c).planetData

/-- What a handler of the moon screen is to the store. -/
def DetailViewController.turn (s : DetailViewController) : Handler → Turn Edit
  | .viewWillAppear => .pass
  | .unwindSegue identifier addedMoon =>
      if identifier = "save" ∧ addedMoon.isEmpty = false then
        .edit (.save s.selectedPlanet addedMoon s.moonList.length)
      else .pass
  | .commitDelete row => .edit (.delete s.selectedPlanet row)
  | .moveRowAt fromRow toRow =>
      s.moonList[fromRow]?.elim .pass fun moon =>
        .edit (.move s.selectedPlanet fromRow toRow moon)

/-- What an event is to the store and its file. -/
def App.turn (a : App Content) : App.Event → Turn Edit
  | .chooseRow _ | .back => .pass
  | .screen h => a.detail.elim .pass fun s => s.turn h
  | .resignActive => .write
  | .relaunch _ => .restart

/-- Appearing leaves the store. -/
theorem planetsDataController_of_viewWillAppear {s s' : DetailViewController}
    (h : s.viewWillAppear = some s') : s'.planetsDataController = s.planetsDataController := by
  obtain ⟨ms, -, h⟩ := Option.bind_eq_some_iff.mp h
  obtain rfl := Option.some_inj.mp h
  rfl

/-- **One handler edits the store** as its turn says, and no file. -/
theorem act_turn {s s' : DetailViewController} {h : Handler} (hstep : s.step h = some s')
    (file : List PlanetsDataModel) :
    Turn.act Edit.apply (s.planetsDataController.planetData, file) (s.turn h) =
      (s'.planetsDataController.planetData, file) := by
  cases h with
  | viewWillAppear =>
      rw [planetsDataController_of_viewWillAppear hstep]
      rfl
  | unwindSegue identifier addedMoon =>
      by_cases hsave : identifier = "save" ∧ addedMoon.isEmpty = false
      · simp only [DetailViewController.step, unwindSegue, hsave, if_true] at hstep
        obtain ⟨c, hc, hstep⟩ := Option.bind_eq_some_iff.mp hstep
        obtain rfl := Option.some_inj.mp hstep
        simp only [DetailViewController.turn, if_pos hsave, Turn.act, Edit.apply, hc,
          Option.getD_some]
      · change s.unwindSegue identifier addedMoon = some s' at hstep
        rw [unwindSegue_of_not_save hsave, Option.some_inj] at hstep
        simp only [DetailViewController.turn, if_neg hsave, Turn.act, hstep]
  | commitDelete row =>
      obtain ⟨moonList, -, hstep⟩ := Option.bind_eq_some_iff.mp hstep
      obtain ⟨c, hc, hstep⟩ := Option.bind_eq_some_iff.mp hstep
      obtain rfl := Option.some_inj.mp hstep
      simp only [DetailViewController.turn, Turn.act, Edit.apply, hc, Option.getD_some]
  | moveRowAt fromRow toRow =>
      obtain ⟨moon, hmoon, hstep⟩ := Option.bind_eq_some_iff.mp hstep
      obtain ⟨moonList, -, hstep⟩ := Option.bind_eq_some_iff.mp hstep
      obtain ⟨c₁, hc₁, hstep⟩ := Option.bind_eq_some_iff.mp hstep
      obtain ⟨c₂, hc₂, hstep⟩ := Option.bind_eq_some_iff.mp hstep
      obtain rfl := Option.some_inj.mp hstep
      simp only [DetailViewController.turn, hmoon, Option.elim_some, Turn.act, Edit.apply, hc₁,
        Option.bind_some, hc₂, Option.getD_some]

/-! ## Whole runs -/

/-- The list shows the planets of the store, and an open screen works on it in range. -/
structure Whole (a : App Content) : Prop where
  planetsList : a.planetsList = a.planetDataController.getPlanets
  detail : ∀ s ∈ a.detail, s.planetsDataController = a.planetDataController ∧ Covers s

variable {coder : Coder Content (List PlanetsDataModel)}

/-- The store and the file hold these planets. -/
structure Stores (coder : Coder Content (List PlanetsDataModel)) (a : App Content)
    (cells : List PlanetsDataModel × List PlanetsDataModel) : Prop where
  store : a.planetDataController.planetData = cells.1
  file : loadData coder true a.written a.bundled = .ok cells.2

/-- A launch can read the file. -/
def App.Event.reads : App.Event → Bool
  | .relaunch readable => readable
  | _ => true

/-- A launch shows what the file holds. -/
theorem whole_launch {written bundled : Option Content} {planetData : List PlanetsDataModel}
    (hload : loadData coder true written bundled = .ok planetData) :
    Whole (App.viewDidLoad coder true written bundled) ∧
      Stores coder (App.viewDidLoad coder true written bundled) (planetData, planetData) := by
  unfold App.viewDidLoad
  rw [hload]
  exact ⟨⟨rfl, by simp⟩, ⟨rfl, hload⟩⟩

/-- A tap on a row opens the screen of its planet. -/
theorem whole_chooseRow {a : App Content} (ha : Whole a) {row : ℕ}
    (hrow : row < a.planetsList.length) :
    ∃ a', a.step coder (.chooseRow row) = some a' ∧ Whole a' ∧
      a'.planetDataController = a.planetDataController ∧ a'.written = a.written ∧
      a'.bundled = a.bundled := by
  have hplanet : row < a.planetDataController.getPlanets.length := by
    rw [← ha.planetsList]
    exact hrow
  obtain ⟨s, hs, hcovers, -⟩ := viewWillAppear_of_covers (covers_prepare hplanet)
  have hstore := planetsDataController_of_viewWillAppear hs
  refine ⟨a.withDetail s, ?_, ⟨?_, ?_⟩, hstore, rfl, rfl⟩
  · simp only [App.step, List.getElem?_eq_getElem hrow, hs, Option.bind_eq_bind, Option.bind_some,
      Option.pure_def]
  · rw [App.withDetail, hstore]
    exact ha.planetsList
  · intro s' hs'
    obtain rfl := Option.some_inj.mp hs'
    exact ⟨rfl, hcovers⟩

/-- **Step lemma**: an offered event whose launch can read the file does not trap, keeps the app
whole, and is to the store and the file what its turn says. -/
theorem whole_step {a : App Content} {cells : List PlanetsDataModel × List PlanetsDataModel}
    (ha : Whole a) (hcells : Stores coder a cells) {e : App.Event} (he : a.Offers e)
    (hreads : e.reads = true) :
    ∃ a', a.step coder e = some a' ∧ Whole a' ∧
      Stores coder a' (Turn.act Edit.apply cells (a.turn e)) := by
  obtain ⟨store, file⟩ := cells
  obtain ⟨hstore, hfile⟩ := hcells
  cases e with
  | chooseRow row =>
      obtain ⟨a', hstep, ha', hsame, hwritten, hbundled⟩ := whole_chooseRow ha he.2
      refine ⟨a', hstep, ha', ⟨?_, ?_⟩⟩
      · rw [hsame]
        exact hstore
      · rw [hwritten, hbundled]
        exact hfile
  | screen h =>
      obtain ⟨s, hs, hoffers⟩ := he
      obtain ⟨hsame, hcovers⟩ := ha.detail s hs
      obtain ⟨s', hs', hcovers', hleaves⟩ := step_of_covers hcovers hoffers
      have hdetail : a.detail = some s := hs
      refine ⟨a.withDetail s', ?_, ⟨?_, ?_⟩, ?_⟩
      · simp only [App.step, hdetail, hs', Option.map_some]
      · change a.planetsList = s'.planetsDataController.getPlanets
        rw [hleaves.getPlanets, hsame]
        exact ha.planetsList
      · intro s'' hs''
        obtain rfl := Option.some_inj.mp hs''
        exact ⟨rfl, hcovers'⟩
      · have hact := act_turn hs' file
        rw [hsame, hstore] at hact
        simp only [App.turn, hdetail, Option.elim_some, hact]
        exact ⟨rfl, hfile⟩
  | back =>
      exact ⟨_, rfl, ⟨ha.planetsList, by simp⟩, ⟨hstore, hfile⟩⟩
  | resignActive =>
      refine ⟨_, rfl, ⟨ha.planetsList, ha.detail⟩, ⟨hstore, ?_⟩⟩
      simp only [App.turn, Turn.act, loadData, writeData, hstore]
      exact loadFile_encode coder _ _ store a.bundled
  | relaunch readable =>
      obtain rfl : readable = true := hreads
      exact ⟨_, rfl, whole_launch hfile⟩

/-- **The app follows the edits.** Launch on files that hold any planets and take any run of the app
— taps on planets, handlers of the moon screen, ways back, resign-active notifications, and
relaunches at any moment, each of which can read the file. Nothing traps; at the end the store is
the planets loaded first with those edits, in their order, after which no relaunch came before a
write; and the file holds them with the edits after which a write came before a relaunch. -/
theorem app_follows_edits (coder : Coder Content (List PlanetsDataModel))
    (written bundled : Option Content) (planetData : List PlanetsDataModel)
    (hload : loadData coder true written bundled = .ok planetData) (events : List App.Event)
    (hreads : ∀ e ∈ events, e.reads = true)
    (hlegal : (App.machine coder).Legal (App.viewDidLoad coder true written bundled) events) :
    ∃ a, (App.machine coder).run (App.viewDidLoad coder true written bundled) events = some a ∧
      a.planetDataController.planetData =
        (Turn.remaining (Turn.turnsOf (App.machine coder) App.turn
          (App.viewDidLoad coder true written bundled) events)).foldl Edit.apply planetData ∧
      loadData coder true a.written a.bundled =
        .ok ((Turn.written (Turn.turnsOf (App.machine coder) App.turn
          (App.viewDidLoad coder true written bundled) events)).foldl Edit.apply planetData) := by
  have hsteps : (App.machine coder).Each (fun a e => a.Offers e ∧ e.reads = true)
      (App.viewDidLoad coder true written bundled) events :=
    hlegal.and_forall hreads
  have hlaunch := whole_launch hload
  obtain ⟨a, hrun, -⟩ := Machine.run_progress (M := App.machine coder)
    (I := fun a => Whole a ∧ ∃ cells, Stores coder a cells)
    (fun a e ⟨ha, cells, hcells⟩ ⟨he, hread⟩ => by
      obtain ⟨a', hstep, ha', hcells'⟩ := whole_step ha hcells he hread
      exact ⟨a', hstep, ha', _, hcells'⟩) ⟨hlaunch.1, _, hlaunch.2⟩ hsteps
  have hend := Turn.cells_of_run (M := App.machine coder)
    (R := fun a cells => Whole a ∧ Stores coder a cells)
    (fun a cells e a' ⟨ha, hcells⟩ ⟨he, hread⟩ hstep => by
      obtain ⟨a'', hstep', ha', hcells'⟩ := whole_step ha hcells he hread
      obtain rfl := Option.some_inj.mp (hstep'.symm.trans hstep)
      exact ⟨ha', hcells'⟩) hlaunch hsteps hrun
  refine ⟨a, hrun, ?_, ?_⟩
  · rw [hend.2.store, Turn.memory_run]
  · rw [hend.2.file, Turn.file_run]

/-- Property lists as they are. -/
def plain : Coder (List PlanetsDataModel) (List PlanetsDataModel) := ⟨id, some, fun _ => rfl⟩

/-- A moon saved on the second planet and written, one deleted, and a relaunch that brings it
back. -/
def deletionUndone : List App.Event :=
  [.chooseRow 1, .screen (.unwindSegue "save" "Io"), .resignActive, .screen (.commitDelete 0),
    .back,
    .relaunch true]

/-- That run, from a first launch. -/
theorem app_follows_edits_deletionUndone :
    ∃ a, (App.machine plain).run (App.viewDidLoad plain true none (some twoPlanets.planetData))
        deletionUndone = some a ∧
      a.planetDataController.planetData =
        (Turn.remaining (Turn.turnsOf (App.machine plain) App.turn
          (App.viewDidLoad plain true none (some twoPlanets.planetData)) deletionUndone)).foldl
            Edit.apply twoPlanets.planetData ∧
      loadData plain true a.written a.bundled =
        .ok ((Turn.written (Turn.turnsOf (App.machine plain) App.turn
          (App.viewDidLoad plain true none (some twoPlanets.planetData)) deletionUndone)).foldl
            Edit.apply twoPlanets.planetData) :=
  app_follows_edits plain none (some twoPlanets.planetData) twoPlanets.planetData rfl
    deletionUndone (by decide) (by decide)

/-- The edits of that run that remain. -/
example : Turn.remaining (Turn.turnsOf (App.machine plain) App.turn
    (App.viewDidLoad plain true none (some twoPlanets.planetData)) deletionUndone) =
      [.save 1 "Io" 3] := by
  decide

end AdvMad.Lab2
