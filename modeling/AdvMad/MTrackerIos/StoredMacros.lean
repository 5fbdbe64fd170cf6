import AdvMad.MTrackerIos.App
import AdvMad.Found.Durable

/-!
# The stored macros

Beside the fitness table the app keeps a second list, the stored macros, with a bundled file, a
written one, a load and an observer of the resign-active notification like those of the table. The
list is loaded at launch and each time the macros screen appears; no function that is called changes
it, and the calculation does not read it.

* `Phone` — the device with the second file and the list in memory; `step_device`: on the device a
  step is one of `Device.step`, with the outcome of the load that happens.
* `Memory` — what an observer of the readable moments knows: what the file holds and whether a load
  has succeeded in this process. `remembers_step`: the phone follows it.
* `stored_macros_survive` — over every run: no amount calculated is ever stored. The file holds what
  it held at the beginning, until the app resigns active in a process in which no load has
  succeeded; from then on it holds the empty list.

The list of a process that has trapped means nothing: it is loaded anew at the next launch. A launch
loads the list twice, in `viewDidLoad` and in `viewWillAppear`; one flag of the event says for both
whether the file can be read.
-/

namespace AdvMad.MTrackerIos

open AdvMad.Found

variable {N Content MacroContent : Type} [Arithmetic N]

/-- Source: `MacroData.swift`, `MacroDataModel`. -/
structure MacroDataModel where
  data : ℤ
  /-- The field `macro`. -/
  macroName : String
deriving DecidableEq, Repr

/-- `WrittenMacroData.plist` of the documents directory, where it exists, and `macros.plist` of the
bundle. -/
structure MacroFiles (MacroContent : Type) where
  written : Option MacroContent
  bundled : Option MacroContent
deriving DecidableEq

/-- Source: `macros.plist`. -/
def macrosPlist : List MacroDataModel := [⟨0, "protein"⟩, ⟨0, "carbohydrates"⟩, ⟨0, "fat"⟩]

namespace MacroDataController

variable (coder : Coder MacroContent (List MacroDataModel))

/-- Source: `MacroData.swift`, `loadMacroData`. -/
def loadMacroData (readable : Bool) (files : MacroFiles MacroContent) :
    Except DataError (List MacroDataModel) :=
  loadFile coder .NoDataFile .CouldNotDecode readable files.written files.bundled

/-- Source: `MacroData.swift`, `writeData`. -/
def writeData (allData : List MacroDataModel) (files : MacroFiles MacroContent) :
    MacroFiles MacroContent :=
  { files with written := some (coder.encode allData) }

variable {coder}

/-- A readable file that was written holds the list written. -/
theorem loadMacroData_writeData (allData : List MacroDataModel) (files : MacroFiles MacroContent) :
    loadMacroData coder true (writeData coder allData files) = .ok allData :=
  loadFile_encode ..

/-- A file that cannot be read does not load. -/
theorem loadMacroData_eq {files : MacroFiles MacroContent} {allData : List MacroDataModel}
    (h : loadMacroData coder true files = .ok allData) (readable : Bool) :
    loadMacroData coder readable files =
      if readable then .ok allData else .error .CouldNotDecode := by
  cases readable with
  | true => exact h
  | false =>
      unfold loadMacroData loadFile at h ⊢
      split at h
      · rfl
      · simp at h

end MacroDataController

/-- An event, and whether the stored macros can be read while it is handled, in both loads where it
is a launch. -/
structure PhoneEvent where
  event : Event
  macroReadable : Bool
deriving DecidableEq, Repr

/-- The device, the second file and the list loaded from it. -/
structure Phone (Content MacroContent : Type) where
  device : Device Content
  macroFiles : MacroFiles MacroContent
  /-- `MacroDataController.allData`. -/
  storedMacros : List MacroDataModel
deriving DecidableEq

namespace Phone

variable (env : Foundation N Content) (coder : Coder MacroContent (List MacroDataModel))

/-- The list after the macros screen has loaded: the second load comes after the first.
Source: `FirstViewController.swift`, `viewDidLoad`. -/
def viewDidLoad (readable macroReadable : Bool) (files : Files Content)
    (macroFiles : MacroFiles MacroContent) : List MacroDataModel :=
  match FitnessDataController.loadData env readable files,
    MacroDataController.loadMacroData coder macroReadable macroFiles with
  | .ok _, .ok allData => allData
  | _, _ => []

/-- The macros screen appears; a failed load is printed and changes nothing.
Source: `FirstViewController.swift`, `viewWillAppear`. -/
def viewWillAppear (macroReadable : Bool) (p : Phone Content MacroContent) :
    Phone Content MacroContent :=
  match MacroDataController.loadMacroData coder macroReadable p.macroFiles with
  | .ok allData => { p with storedMacros := allData }
  | .error _ => p

/-- A launch on these files. -/
def launch (readable macroReadable : Bool) (today : Day) (files : Files Content)
    (macroFiles : MacroFiles MacroContent) : Phone Content MacroContent :=
  viewWillAppear coder macroReadable
    ⟨.launch env readable (MacroDataController.loadMacroData coder macroReadable macroFiles).isOk
      today files, macroFiles, viewDidLoad env coder readable macroReadable files macroFiles⟩

/-- One event. -/
def step (p : Phone Content MacroContent) (e : PhoneEvent) : Phone Content MacroContent :=
  match e.event, p.device.process with
  | .relaunch readable _ today, _ =>
      launch env coder readable e.macroReadable today p.device.files p.macroFiles
  | _, .trapped _ => p
  | .showMacros, .running _ =>
      viewWillAppear coder e.macroReadable { p with device := p.device.step env .showMacros }
  | .resignActive, .running _ =>
      { p with
        device := p.device.step env .resignActive
        macroFiles := MacroDataController.writeData coder p.storedMacros p.macroFiles }
  | event, .running _ => { p with device := p.device.step env event }

/-- The phone as a machine. -/
def machine : Machine (Phone Content MacroContent) PhoneEvent :=
  ⟨fun p e => some (p.step env coder e), fun p e => p.device.Offers e.event⟩

instance (p : Phone Content MacroContent) (e : PhoneEvent) :
    Decidable ((machine env coder).enabled p e) :=
  Device.decidableOffers p.device e.event

/-- The event that the device handles: a relaunch in which the stored macros load or not. -/
def resolve (p : Phone Content MacroContent) (e : PhoneEvent) : Event :=
  match e.event with
  | .relaunch readable _ today => .relaunch readable
      (MacroDataController.loadMacroData coder e.macroReadable p.macroFiles).isOk today
  | event => event

variable {env coder}

/-- The load touches nothing on the device. -/
@[simp] theorem viewWillAppear_device (macroReadable : Bool) (p : Phone Content MacroContent) :
    (viewWillAppear coder macroReadable p).device = p.device := by
  unfold viewWillAppear
  split <;> rfl

/-- It writes no file. -/
@[simp] theorem viewWillAppear_macroFiles (macroReadable : Bool) (p : Phone Content MacroContent) :
    (viewWillAppear coder macroReadable p).macroFiles = p.macroFiles := by
  unfold viewWillAppear
  split <;> rfl

/-- **On the device** a step is one of the device. -/
theorem step_device (p : Phone Content MacroContent) (e : PhoneEvent) :
    (p.step env coder e).device = p.device.step env (p.resolve coder e) := by
  obtain ⟨device, macroFiles, storedMacros⟩ := p
  obtain ⟨event, macroReadable⟩ := e
  cases event with
  | relaunch readable macroDataLoads today =>
      simp only [step, resolve, launch, viewWillAppear_device, Device.step_relaunch]
  | _ =>
      obtain ⟨files, process⟩ := device
      cases process <;> simp [step, resolve, Device.step]

/-- A launch on these files, on the device. -/
theorem launch_device (readable macroReadable : Bool) (today : Day) (files : Files Content)
    (macroFiles : MacroFiles MacroContent) :
    (launch env coder readable macroReadable today files macroFiles).device =
      .launch env readable (MacroDataController.loadMacroData coder macroReadable macroFiles).isOk
        today files := by
  simp [launch]

end Phone

/-! ### What becomes of the file -/

/-- What the file holds, and whether a load has succeeded in this process. -/
structure Memory where
  content : List MacroDataModel
  loaded : Bool
deriving DecidableEq, Repr

/-- Whether a load has succeeded, after an event. -/
def PhoneEvent.loadedAfter (loaded : Bool) (e : PhoneEvent) : Bool :=
  match e.event with
  | .relaunch _ _ _ => e.macroReadable
  | .showMacros => loaded || e.macroReadable
  | _ => loaded

/-- The same after an event: the file is written on resigning active only. -/
def Memory.handle (m : Memory) (e : PhoneEvent) : Memory where
  content := if e.event = .resignActive ∧ m.loaded = false then [] else m.content
  loaded := e.loadedAfter m.loaded

/-- Every time the app resigns active, a load has succeeded since the launch. -/
def resignsLoaded : Bool → List PhoneEvent → Bool
  | _, [] => true
  | loaded, e :: events =>
      !(decide (e.event = .resignActive) && !loaded) && resignsLoaded (e.loadedAfter loaded) events

/-- The file after a run, from any memory. -/
theorem content_foldl (m : Memory) (events : List PhoneEvent) :
    (events.foldl Memory.handle m).content =
      if resignsLoaded m.loaded events = true then m.content else [] := by
  induction events generalizing m with
  | nil => rfl
  | cons e events ih =>
      rw [List.foldl_cons, ih]
      by_cases hlost : e.event = .resignActive ∧ m.loaded = false
      · simp [Memory.handle, resignsLoaded, hlost]
      · have hkeeps : (!(decide (e.event = .resignActive) && !m.loaded)) = true := by
          simpa [or_iff_not_imp_left] using hlost
        simp only [Memory.handle, if_neg hlost, resignsLoaded, hkeeps, Bool.true_and]

variable {env : Foundation N Content} {coder : Coder MacroContent (List MacroDataModel)}

/-- The file holds the content, and so does the list once a load has succeeded. -/
structure Remembers (coder : Coder MacroContent (List MacroDataModel))
    (p : Phone Content MacroContent) (m : Memory) : Prop where
  file : MacroDataController.loadMacroData coder true p.macroFiles = .ok m.content
  storedMacros : p.storedMacros = if m.loaded then m.content else []

/-- The macros screen appears. -/
theorem remembers_viewWillAppear {p : Phone Content MacroContent} {m : Memory}
    (h : Remembers coder p m) (macroReadable : Bool) :
    Remembers coder (Phone.viewWillAppear coder macroReadable p)
      ⟨m.content, m.loaded || macroReadable⟩ := by
  refine ⟨by rw [Phone.viewWillAppear_macroFiles]; exact h.file, ?_⟩
  unfold Phone.viewWillAppear
  rw [MacroDataController.loadMacroData_eq h.file]
  cases macroReadable with
  | true => simp
  | false => simpa using h.storedMacros

/-- A launch. -/
theorem remembers_launch {macroFiles : MacroFiles MacroContent} {content : List MacroDataModel}
    (hload : MacroDataController.loadMacroData coder true macroFiles = .ok content)
    (readable macroReadable : Bool) (today : Day) (files : Files Content) :
    Remembers coder (.launch env coder readable macroReadable today files macroFiles)
      ⟨content, macroReadable⟩ := by
  refine ⟨by rw [Phone.launch, Phone.viewWillAppear_macroFiles]; exact hload, ?_⟩
  unfold Phone.launch Phone.viewWillAppear Phone.viewDidLoad
  rw [MacroDataController.loadMacroData_eq hload]
  cases macroReadable with
  | true => simp
  | false => cases FitnessDataController.loadData env readable files <;> rfl

/-- **Step lemma**: every event is to the file and the list what `Memory.handle` says. -/
theorem remembers_step {p : Phone Content MacroContent} {m : Memory} {e : PhoneEvent}
    (h : Remembers coder p m) (he : p.device.Offers e.event) :
    Remembers coder (p.step env coder e) (m.handle e) := by
  obtain ⟨event, macroReadable⟩ := e
  cases hlaunch : event.isRelaunch with
  | true =>
      cases event with
      | relaunch readable macroDataLoads today =>
          have hstep : p.step env coder ⟨.relaunch readable macroDataLoads today, macroReadable⟩ =
              .launch env coder readable macroReadable today p.device.files p.macroFiles := by
            unfold Phone.step
            split <;> simp_all
          rw [hstep]
          exact remembers_launch h.file readable macroReadable today p.device.files
      | _ => cases hlaunch
  | false =>
      obtain ⟨a, hrun, -⟩ := Device.running_of_offers he hlaunch
      cases event with
      | relaunch readable macroDataLoads today => cases hlaunch
      | showMacros =>
          simp only [Phone.step, hrun]
          apply remembers_viewWillAppear (m := m)
          exact ⟨h.file, h.storedMacros⟩
      | resignActive =>
          simp only [Phone.step, hrun]
          have hcontent : p.storedMacros = (m.handle ⟨.resignActive, macroReadable⟩).content := by
            rw [h.storedMacros]
            cases hloaded : m.loaded <;> simp [Memory.handle, hloaded]
          refine ⟨?_, ?_⟩
          · rw [← hcontent]
            exact MacroDataController.loadMacroData_writeData _ _
          · rw [h.storedMacros]
            cases hloaded : m.loaded <;> simp [Memory.handle, PhoneEvent.loadedAfter, hloaded]
      | _ =>
          simp only [Phone.step, hrun]
          exact ⟨h.file, h.storedMacros⟩

/-- **The stored macros, over every run.** Launch on files whose stored macros decode, whether they
can be read at that launch or not, and take any run of events, relaunches and moments at which the
file cannot be read included; the two loads of one launch fail or succeed together. At its end the
file holds what it held at the beginning if a load had succeeded in the process each time the app
resigned active, and the empty list otherwise; the list in memory is one of the two. -/
theorem stored_macros_survive (env : Foundation N Content)
    (coder : Coder MacroContent (List MacroDataModel)) (readable macroReadable : Bool) (today : Day)
    (files : Files Content) (macroFiles : MacroFiles MacroContent) (allData : List MacroDataModel)
    (hload : MacroDataController.loadMacroData coder true macroFiles = .ok allData)
    (events : List PhoneEvent)
    (hlegal : (Phone.machine env coder).Legal
      (.launch env coder readable macroReadable today files macroFiles) events) :
    ∃ p, (Phone.machine env coder).run
        (.launch env coder readable macroReadable today files macroFiles) events = some p ∧
      MacroDataController.loadMacroData coder true p.macroFiles =
        .ok (if resignsLoaded macroReadable events = true then allData else []) ∧
      (p.storedMacros = allData ∨ p.storedMacros = []) := by
  obtain ⟨p, hrun⟩ := Machine.exists_run (M := Phone.machine env coder) (fun _ _ => ⟨_, rfl⟩)
    (.launch env coder readable macroReadable today files macroFiles) events
  have hremembers : Remembers coder p (events.foldl Memory.handle ⟨allData, macroReadable⟩) := by
    refine Machine.run_foldl Memory.handle ?_
      (remembers_launch hload readable macroReadable today files) hlegal hrun
    intro p m e p' hp he hstep
    obtain rfl := Option.some_inj.mp hstep
    exact remembers_step hp he
  have hcontent := content_foldl ⟨allData, macroReadable⟩ events
  refine ⟨p, hrun, hcontent ▸ hremembers.file, ?_⟩
  rw [hremembers.storedMacros, hcontent]
  cases resignsLoaded macroReadable events <;> split <;> simp

/-- Lists as they are, next to texts that are no property list. -/
def plainMacros : Coder (String ⊕ List MacroDataModel) (List MacroDataModel) :=
  ⟨Sum.inr, Sum.getRight?, fun _ => rfl⟩

/-- A first launch, a relaunch at which the written file cannot be read, and the app put away. -/
def macrosLost : List PhoneEvent :=
  [⟨.resignActive, true⟩, ⟨.relaunch true true shownDay, false⟩, ⟨.showYourData, false⟩,
    ⟨.resignActive, false⟩, ⟨.showMacros, true⟩]

/-- That run. -/
theorem stored_macros_survive_macrosLost :
    ∃ p, (Phone.machine plain plainMacros).run
        (.launch plain plainMacros true true shownDay ⟨none, some (.inr dataPlist)⟩
          ⟨none, some (.inr macrosPlist)⟩) macrosLost = some p ∧
      MacroDataController.loadMacroData plainMacros true p.macroFiles =
        .ok (if resignsLoaded true macrosLost = true then macrosPlist else []) ∧
      (p.storedMacros = macrosPlist ∨ p.storedMacros = []) :=
  stored_macros_survive plain plainMacros true true shownDay ⟨none, some (.inr dataPlist)⟩
    ⟨none, some (.inr macrosPlist)⟩ macrosPlist rfl macrosLost (by decide +kernel)

/-- The list is lost in that run. -/
example : resignsLoaded true macrosLost = false := by decide

end AdvMad.MTrackerIos
