import AdvMad.MTrackerIos.Diary
import AdvMad.Found.Durable

/-!
# What a relaunch leaves of the edits

The process of the app can end at any time, after a trap included, and the next launch loads the
file. The table is written on leaving the list or a metric and when the app resigns active; a Save
and a deletion change the table in memory only.

* `turns` — what a run of the device is to the table and its file: edits, writes and restarts, read
  off the events alone.
* `Holds` — the app that runs shows the one, the file holds the other; kept by every step whose
  launches can read the file (`holds_step`).
* `edits_survive` — after every run: the table is what was loaded first with the edits after which
  no relaunch came before a write, the file what was loaded with those after which a write came
  before a relaunch.
-/

namespace AdvMad.MTrackerIos

open AdvMad.Found

variable {N Content : Type} [Arithmetic N]

/-- An edit of the table. -/
inductive Edit
  | save (m : Metric) (preparedData : FitnessDataDetail)
  | delete (m : Metric) (row : ℕ)
deriving DecidableEq, Repr

/-- The lists after an edit. -/
def Edit.apply (lists : Metric → List FitnessDataDetail) :
    Edit → Metric → List FitnessDataDetail
  | .save m preparedData => Function.update lists m (preparedData :: lists m)
  | .delete m row => Function.update lists m ((lists m).eraseIdx row)

namespace Event

/-- The metric that is open after an event. -/
def openedAfter (opened : Option Metric) : Event → Option Metric
  | .chooseRow row => Metric.all[row]?
  | .back => none
  | .relaunch _ _ _ => none
  | _ => opened

/-- What an event is to the table and its file. -/
def turn (opened : Option Metric) : Event → Turn Edit
  | .save preparedData => opened.elim .pass fun m => .edit (.save m preparedData)
  | .delete row => opened.elim .pass fun m => .edit (.delete m row)
  | .relaunch _ _ _ => .restart
  | .resignActive | .showMacros | .chooseRow _ | .back => .write
  | .calculate _ | .showYourData | .openAdd | .cancel => .pass

/-- A launch can read the file. -/
def reads : Event → Bool
  | .relaunch readable _ _ => readable
  | _ => true

end Event

/-- What a run is to the table and its file. -/
def turns : Option Metric → List Event → List (Turn Edit)
  | _, [] => []
  | opened, e :: events => e.turn opened :: turns (e.openedAfter opened) events

/-- The metric open, the table and the file. -/
structure Stored where
  opened : Option Metric
  cells : (Metric → List FitnessDataDetail) × (Metric → List FitnessDataDetail)

/-- The same after an event. -/
def Stored.handle (t : Stored) (e : Event) : Stored :=
  ⟨e.openedAfter t.opened, Turn.act Edit.apply t.cells (e.turn t.opened)⟩

/-- The cells of a run are those its turns leave. -/
theorem cells_foldl (t : Stored) (events : List Event) :
    (events.foldl Stored.handle t).cells =
      (turns t.opened events).foldl (Turn.act Edit.apply) t.cells := by
  induction events generalizing t with
  | nil => rfl
  | cons e events ih => exact ih (t.handle e)

/-- The app that runs shows the diary of the table, and the file holds its own. -/
structure Holds (env : Foundation N Content) (d : Device Content) (t : Stored) : Prop where
  process : (∃ a, d.process = .running a ∧ Sound a ⟨t.cells.1, t.opened⟩) ∨
    d.process = .trapped .intConversion
  file : FitnessDataController.loadData env true d.files = .ok (tableOf t.cells.2)

variable {env : Foundation N Content}

omit [Arithmetic N] in
/-- The app that runs shows the diary of the table. -/
theorem Holds.sound {d : Device Content} {t : Stored} {a : App} (h : Holds env d t)
    (hrun : d.process = .running a) : Sound a ⟨t.cells.1, t.opened⟩ := by
  rcases h.process with ⟨a', hrun', ha'⟩ | htrap
  · obtain rfl : a = a' := by simpa using hrun.symm.trans hrun'
    exact ha'
  · simp [hrun] at htrap

/-- The diary and the table are edited alike. -/
theorem diary_handle_eq (t : Stored) {e : Event} (hlaunch : e.isRelaunch = false) :
    Diary.handle ⟨t.cells.1, t.opened⟩ e = ⟨(t.handle e).cells.1, (t.handle e).opened⟩ := by
  obtain ⟨opened, table, file⟩ := t
  cases e with
  | relaunch readable macroDataLoads today => cases hlaunch
  | save preparedData => cases opened <;> rfl
  | delete row => cases opened <;> rfl
  | _ => rfl

/-- The file is the table exactly after the events that write. -/
theorem file_handle (t : Stored) {e : Event} (hlaunch : e.isRelaunch = false) :
    (t.handle e).cells.2 = if e.writes then t.cells.1 else t.cells.2 := by
  obtain ⟨opened, table, file⟩ := t
  cases e with
  | relaunch readable macroDataLoads today => cases hlaunch
  | save preparedData => cases opened <;> rfl
  | delete row => cases opened <;> rfl
  | _ => rfl

/-- A launch shows what the file holds. -/
theorem holds_launch {files : Files Content} {stored : Metric → List FitnessDataDetail}
    (hload : FitnessDataController.loadData env true files = .ok (tableOf stored))
    (macroDataLoads : Bool) (today : Day) :
    Holds env (.launch env true macroDataLoads today files) ⟨none, stored, stored⟩ := by
  refine ⟨?_, hload⟩
  unfold Device.launch
  rcases sound_launch hload macroDataLoads today with ⟨a, heq, ha⟩ | heq
  · exact Or.inl ⟨a, by rw [heq]; rfl, ha⟩
  · exact Or.inr (by rw [heq]; rfl)

/-- **Step lemma**: every event is to the table and the file what `Event.turn` says. -/
theorem holds_step {d : Device Content} {t : Stored} {e : Event} (h : Holds env d t)
    (he : d.Offers e) (hreads : e.reads = true) : Holds env (d.step env e) (t.handle e) := by
  cases hlaunch : e.isRelaunch with
  | true =>
      cases e with
      | relaunch readable macroDataLoads today =>
          obtain rfl : readable = true := hreads
          rw [Device.step_relaunch]
          exact holds_launch h.file macroDataLoads today
      | _ => cases hlaunch
  | false =>
      obtain ⟨a, hrun, hoffers⟩ := Device.running_of_offers he hlaunch
      have ha := h.sound hrun
      rw [Device.step_running env hrun hlaunch]
      constructor
      · rcases ha.handle env hoffers hlaunch with ⟨a', heq, ha'⟩ | ⟨-, heq⟩
        · rw [diary_handle_eq t hlaunch] at ha'
          exact Or.inl ⟨a', by rw [heq]; rfl, ha'⟩
        · exact Or.inr (by rw [heq]; rfl)
      · rw [file_handle t hlaunch]
        cases hwrites : e.writes with
        | true =>
            rw [if_pos rfl, if_pos rfl, ← ha.allData]
            apply FitnessDataController.loadData_writeData
        | false =>
            rw [if_neg (by simp), if_neg (by simp)]
            exact h.file

/-- **Which edits survive.** Launch on files that hold the seven-metric table with any lists and
take any run of events, relaunches at any moment included, each of which can read the file. At its
end the table of the app that runs is the lists loaded first with those Saves and deletions made to
them, in their order, after which no relaunch came before a write; and the file holds those lists
with the Saves and deletions after which a write came before a relaunch. -/
theorem edits_survive (env : Foundation N Content) (files : Files Content)
    (stored : Metric → List FitnessDataDetail) (macroDataLoads : Bool) (today : Day)
    (hload : FitnessDataController.loadData env true files = .ok (tableOf stored))
    (events : List Event) (hreads : ∀ e ∈ events, e.reads = true)
    (hlegal : (Device.machine env).Legal (.launch env true macroDataLoads today files) events) :
    ∃ d, (Device.machine env).run (.launch env true macroDataLoads today files) events = some d ∧
      (∀ a, d.process = .running a → a.allData =
        tableOf ((Turn.remaining (turns none events)).foldl Edit.apply stored)) ∧
      FitnessDataController.loadData env true d.files =
        .ok (tableOf ((Turn.written (turns none events)).foldl Edit.apply stored)) := by
  have hsteps : (Device.machine env).Each (fun d e => d.Offers e ∧ e.reads = true)
      (.launch env true macroDataLoads today files) events :=
    hlegal.and_forall hreads
  obtain ⟨d, hrun⟩ := Machine.exists_run (M := Device.machine env) (fun _ _ => ⟨_, rfl⟩)
    (.launch env true macroDataLoads today files) events
  have hholds : Holds env d (events.foldl Stored.handle ⟨none, stored, stored⟩) := by
    refine Machine.run_foldl Stored.handle ?_ (holds_launch hload macroDataLoads today) hsteps hrun
    rintro d t e d' hd ⟨he, hread⟩ hstep
    obtain rfl := Option.some_inj.mp hstep
    exact holds_step hd he hread
  have hcells := cells_foldl ⟨none, stored, stored⟩ events
  refine ⟨d, hrun, fun a ha => ?_, ?_⟩
  · rw [← Turn.memory_run Edit.apply stored (turns none events), ← hcells]
    exact (hholds.sound ha).allData
  · rw [← Turn.file_run Edit.apply stored (turns none events), ← hcells]
    exact hholds.file

/-- A weight saved and written, another saved, and a relaunch in which it is lost. -/
def weightLost : List Event :=
  [.showYourData, .chooseRow 5, .openAdd, .save ⟨"2020-03-09", "180"⟩, .resignActive, .openAdd,
    .save ⟨"2020-03-10", "175"⟩, .relaunch true false shownDay]

/-- That run, from a first launch. -/
theorem edits_survive_weightLost :
    ∃ d, (Device.machine plain).run
        (.launch plain true false shownDay ⟨none, some (.inr dataPlist)⟩) weightLost = some d ∧
      (∀ a, d.process = .running a → a.allData =
        tableOf ((Turn.remaining (turns none weightLost)).foldl Edit.apply fun _ => [])) ∧
      FitnessDataController.loadData plain true d.files =
        .ok (tableOf ((Turn.written (turns none weightLost)).foldl Edit.apply fun _ => [])) :=
  edits_survive plain ⟨none, some (.inr dataPlist)⟩ (fun _ => []) false shownDay rfl weightLost
    (by decide) (by decide)

/-- The edits of that run that remain. -/
example : Turn.remaining (turns none weightLost) = [.save .weight ⟨"2020-03-09", "180"⟩] := by
  decide

end AdvMad.MTrackerIos
