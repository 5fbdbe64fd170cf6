import AdvMad.MTrackerIos.Durability
import AdvMad.MTrackerIos.Traps
import AdvMad.Found.LastWrite

/-!
# What the macros screen shows

The three labels are set by a calculation and by nothing else: by a tap on Calculate, and by a
launch whose stored macros load. A calculation that throws leaves them as they are, and one whose
amounts fit no 64-bit integer ends the process. All of it is over any arithmetic: on `Double`, in
which the app calculates, the amounts are the rounded ones, and an energy that is an infinity or NaN
has none, as after the entries `inf` and `nan`, which read as well.

* `calculated` — the outcome of a calculation on lists of entries, from the newest of each; where it
  is that the amounts do not fit, on `Double` (`calculated_eq_tooLarge_iff`).
* `screens` — what an event writes on the screen, if it does, by the table and the file it finds.
* `shows_event` — the process shows what was written, and ends where that was written.
* `screen_shows_last_calculation` — so over every run, relaunches at any moment included, the screen
  is the one that the last calculation or launch wrote.
* `locked_out_iff` — a process that has ended so stays so over a run of relaunches, exactly if every
  one of them calculates on a day on which the amounts of the file do not fit.
-/

namespace AdvMad.MTrackerIos

open AdvMad.Found MacroDataController

variable {N Content : Type} [Arithmetic N]

/-! ### A calculation on lists -/

/-- The outcome of a calculation. -/
inductive Calculated
  | amounts (a : Amounts)
  | missing
  | tooLarge
deriving DecidableEq, Repr

/-- The outcome on a day, for these lists. -/
def calculated (env : Foundation N Content) (today : Day) (f : Metric → List FitnessDataDetail) :
    Calculated :=
  match newestValues env f with
  | some v =>
      match amountsFor (v.energy today) with
      | some amounts => .amounts amounts
      | none => .tooLarge
  | none => .missing

/-- **Showing the macros** of a table of the seven metrics is what the outcome says. -/
theorem setMacros_eq (env : Foundation N Content) (today : Day) {a : App}
    {f : Metric → List FitnessDataDetail} (ha : a.allData = tableOf f) :
    a.setMacros env today = match calculated env today f with
      | .amounts amounts => .ok { a with amounts := some amounts }
      | .missing => .ok a
      | .tooLarge => .error .intConversion := by
  have hlength : 6 ≤ a.allData.length := by
    rw [ha, length_tableOf]
    norm_num
  rw [setMacros_of_le env today hlength, ha, entriesAt_tableOf]
  unfold calculated
  cases newestValues env f with
  | none => rfl
  | some v => cases hamounts : amountsFor (v.energy today) <;> simp only [hamounts]

/-- In floating-point arithmetic the amounts do not fit exactly where there are values whose energy
is an infinity, NaN or a number outside five halves of the 64-bit range. -/
theorem calculated_eq_tooLarge_iff (env : Foundation Double Content) (today : Day)
    (f : Metric → List FitnessDataDetail) :
    calculated env today f = .tooLarge ↔
      ∃ v, newestValues env f = some v ∧ ¬ EnergyFits (v.energy today) := by
  unfold calculated
  cases newestValues env f with
  | none => simp
  | some v =>
      simp only [Option.some_inj, exists_eq_left', ← isSome_amountsFor_double_iff]
      cases amountsFor (v.energy today) <;> simp

/-- A weight of 441 pounds, a height of 48 inches, 35 percent, a birthday 29 years ago and a factor
of 1.4: the rounded energy is below 4060, and the screen shows 1217 grams of fat, not 1218. -/
example : calculated floating shownDay
    (fun
      | .weight => [⟨"2020-03-09", "441"⟩]
      | .height => [⟨"2020-03-09", "48"⟩]
      | .bodyFatPercentage => [⟨"2020-03-09", "35"⟩]
      | .birthday => [⟨"2020-03-09", "1991-02-28"⟩]
      | .activityLevel => [⟨"2020-03-09", "1.4"⟩]
      | _ => []) = .amounts ⟨1624, 1217, 1217⟩ := by decide +kernel

/-! ### The screen -/

/-- The labels of the macros screen, with their amounts once a calculation has set them; or the
process has ended. -/
inductive Screen
  | shown (amounts : Option Amounts)
  | ended
deriving DecidableEq, Repr

/-- The screen of a process. -/
def Process.screen : Process → Screen
  | .running a => .shown a.amounts
  | .trapped _ => .ended

/-- What an outcome writes on the screen. -/
def Calculated.write : Calculated → Option Screen
  | .amounts a => some (.shown (some a))
  | .missing => none
  | .tooLarge => some .ended

/-- What an event writes on the screen, by the table and the file it finds. -/
def Event.write (env : Foundation N Content) (t : Stored) : Event → Option Screen
  | .calculate today => (calculated env today t.cells.1).write
  | .relaunch _ true today => some ((calculated env today t.cells.2).write.getD (.shown none))
  | .relaunch _ false _ => some (.shown none)
  | .showYourData | .showMacros | .chooseRow _ | .back | .openAdd | .save _ | .cancel | .delete _
  | .resignActive => none

/-- The screen beside the table and the file. -/
def screens (env : Foundation N Content) : Writer Stored Event Screen :=
  ⟨Stored.handle, fun t e => e.write env t⟩

/-- What succeeds after something else comes after its success. -/
theorem exists_of_bind_ok {ε α β : Type} {x : Except ε α} {g : α → Except ε β} {b : β}
    (h : x >>= g = .ok b) : ∃ a, x = .ok a ∧ g a = .ok b := by
  cases x with
  | error why => cases h
  | ok a => exact ⟨a, rfl, h⟩

/-- Only a calculation sets the labels. -/
theorem amounts_of_handle {env : Foundation N Content} {a a' : App} {e : Event}
    (he : ∀ today, e ≠ .calculate today) (h : a.handle env e = .ok a') :
    a'.amounts = a.amounts := by
  cases e with
  | calculate today => exact absurd rfl (he today)
  | showYourData =>
      obtain ⟨detail, -, h⟩ := exists_of_bind_ok h
      obtain rfl := Except.ok.inj h
      rfl
  | chooseRow row =>
      obtain ⟨title, -, h⟩ := exists_of_bind_ok h
      obtain ⟨detail, -, h⟩ := exists_of_bind_ok h
      obtain rfl := Except.ok.inj h
      rfl
  | save | cancel | delete =>
      -- without a metric screen the handlers return the app as it is
      rcases hdetail : a.detail with _ | d
      · simp only [App.handle, hdetail] at h
        obtain rfl := Except.ok.inj h
        rfl
      · simp only [App.handle, hdetail] at h
        obtain ⟨edited, -, h⟩ := exists_of_bind_ok h
        obtain rfl := Except.ok.inj h
        rfl
  | showMacros | back | openAdd | resignActive | relaunch =>
      obtain rfl := Except.ok.inj h
      rfl

/-- The process shows a screen beside what it holds. -/
structure Displays (env : Foundation N Content) (d : Device Content) (x : Stored × Screen) :
    Prop where
  holds : Holds env d x.1
  screen : d.process.screen = x.2

/-- A calculation over a table writes its outcome on the screen. -/
theorem screen_setMacros (env : Foundation N Content) (today : Day) {a : App}
    {f : Metric → List FitnessDataDetail} (ha : a.allData = tableOf f) :
    (Process.of (a.setMacros env today)).screen =
      (calculated env today f).write.getD (.shown a.amounts) := by
  rw [setMacros_eq env today ha]
  cases calculated env today f <;> rfl

variable {env : Foundation N Content}

/-- A launch writes the screen. -/
theorem screen_launch {files : Files Content} {t : Stored}
    (hload : FitnessDataController.loadData env true files = .ok (tableOf t.cells.2))
    (macroDataLoads : Bool) (today : Day) :
    (Event.relaunch true macroDataLoads today).write env t =
      some (Device.launch env true macroDataLoads today files).process.screen := by
  unfold Device.launch App.viewDidLoad
  rw [hload]
  cases macroDataLoads with
  | false => rfl
  | true =>
      have hset := screen_setMacros env today (a := { App.start with allData := tableOf t.cells.2 })
        rfl
      exact congrArg some hset.symm

/-- **Step lemma**: every event leaves the process with the screen it writes, or with the one it
found. -/
theorem shows_event {d : Device Content} {x : Stored × Screen} {e : Event} (h : Displays env d x)
    (he : d.Offers e) (hreads : e.reads = true) :
    Displays env (d.step env e) ((screens env).act x e) := by
  refine ⟨holds_step h.holds he hreads, ?_⟩
  show (d.step env e).process.screen = (e.write env x.1).getD x.2
  cases hlaunch : e.isRelaunch with
  | true =>
      cases e with
      | relaunch readable macroDataLoads today =>
          obtain rfl : readable = true := hreads
          rw [Device.step_relaunch, screen_launch h.holds.file, Option.getD_some]
      | _ => cases hlaunch
  | false =>
      obtain ⟨a, hrun, hoffers⟩ := Device.running_of_offers he hlaunch
      have ha := h.holds.sound hrun
      have hscreen : Screen.shown a.amounts = x.2 := by
        rw [← h.screen, hrun]
        rfl
      rw [Device.step_running env hrun hlaunch, ← hscreen]
      by_cases hcalculate : ∃ today, e = .calculate today
      · obtain ⟨today, rfl⟩ := hcalculate
        exact screen_setMacros env today ha.allData
      · have hsilent : e.write env x.1 = none := by
          cases e with
          | calculate today => exact absurd ⟨today, rfl⟩ hcalculate
          | relaunch => cases hlaunch
          | _ => rfl
        rcases ha.handle env hoffers hlaunch with ⟨a', heq, -⟩ | ⟨htoday, -⟩
        · have hamounts := amounts_of_handle (fun today hc => hcalculate ⟨today, hc⟩) heq
          simp only [heq, hsilent, Option.getD_none, Process.of, Process.screen, hamounts]
        · exact absurd htoday hcalculate

/-- **What the macros screen shows, over every run.** Launch on files that hold the seven-metric
table with any lists and take any run of events, relaunches at any moment included, each of which
can read the file. At its end the process shows a screen, or has ended, exactly if the last event of
the run, the first launch included, that is a relaunch or a calculation with values to read has
written that: the amounts of the newest entries in the table at a tap and in the file at a launch,
as the arithmetic of the app gives them, or the end of the process where they fit no integer, or
labels not yet set after a launch without values. -/
theorem screen_shows_last_calculation (env : Foundation N Content) (files : Files Content)
    (stored : Metric → List FitnessDataDetail) (macroDataLoads : Bool) (today : Day)
    (hload : FitnessDataController.loadData env true files = .ok (tableOf stored))
    (events : List Event) (hreads : ∀ e ∈ events, e.reads = true)
    (hlegal : (Device.machine env).Legal (.launch env true macroDataLoads today files) events) :
    ∃ d, (Device.machine env).run (.launch env true macroDataLoads today files) events = some d ∧
      ∀ screen, d.process.screen = screen ↔
        (screens env).Last ⟨none, stored, stored⟩ (.relaunch true macroDataLoads today :: events)
          screen := by
  have hsteps : (Device.machine env).Each (fun d e => d.Offers e ∧ e.reads = true)
      (.launch env true macroDataLoads today files) events :=
    hlegal.and_forall hreads
  obtain ⟨d, hrun⟩ := Machine.exists_run (M := Device.machine env) (fun _ _ => ⟨_, rfl⟩)
    (.launch env true macroDataLoads today files) events
  have hwrite : (Event.relaunch true macroDataLoads today).write env ⟨none, stored, stored⟩ =
      some (Device.launch env true macroDataLoads today files).process.screen :=
    screen_launch hload macroDataLoads today
  have hstart : Displays env (.launch env true macroDataLoads today files)
      ((screens env).act (⟨none, stored, stored⟩, .ended)
        (.relaunch true macroDataLoads today)) := by
    refine ⟨holds_launch hload macroDataLoads today, ?_⟩
    simp only [Writer.act, screens, hwrite, Option.getD_some]
  have hend : Displays env d ((.relaunch true macroDataLoads today :: events).foldl
      (screens env).act (⟨none, stored, stored⟩, .ended)) := by
    rw [List.foldl_cons]
    refine Machine.run_foldl (screens env).act ?_ hstart hsteps hrun
    rintro d x e d' hd ⟨he, hread⟩ hstep
    obtain rfl := Option.some_inj.mp hstep
    exact shows_event hd he hread
  rw [Writer.foldl_act] at hend
  refine ⟨d, hrun, fun screen => ?_⟩
  rw [hend.screen]
  apply Writer.value_eq_iff
  show ((Event.relaunch true macroDataLoads today).write env ⟨none, stored, stored⟩).isSome = true
  rw [hwrite]
  rfl

/-- A weight too large saved over one that has been calculated with, the calculation that it ends,
and the next launch. -/
def weightTooLarge : List Event :=
  [.calculate shownDay, .showYourData, .chooseRow 5, .openAdd,
    .save ⟨"2020-03-10", "1000000000000000000000"⟩, .showMacros, .calculate shownDay,
    .relaunch true true shownDay]

/-- That run, from a launch on a file with the weight before. -/
theorem screen_shows_last_calculation_weightTooLarge :
    ∃ d, (Device.machine floating).run
        (.launch floating true true shownDay ⟨some (.inr (tableOf (weighing "180"))), none⟩)
        weightTooLarge = some d ∧
      ∀ screen, d.process.screen = screen ↔
        (screens floating).Last ⟨none, weighing "180", weighing "180"⟩
          (.relaunch true true shownDay :: weightTooLarge) screen :=
  screen_shows_last_calculation floating ⟨some (.inr (tableOf (weighing "180"))), none⟩
    (weighing "180") true shownDay rfl weightTooLarge (by decide) (by decide +kernel)

/-! ### Locked out -/

/-- A launch ends the process exactly where it calculates amounts that do not fit. -/
theorem ended_launch_iff {files : Files Content} {stored : Metric → List FitnessDataDetail}
    (hload : FitnessDataController.loadData env true files = .ok (tableOf stored))
    (macroDataLoads : Bool) (today : Day) :
    (Device.launch env true macroDataLoads today files).process.screen = .ended ↔
      macroDataLoads = true ∧ calculated env today stored = .tooLarge := by
  have hwrite : (Event.relaunch true macroDataLoads today).write env ⟨none, stored, stored⟩ =
      some (Device.launch env true macroDataLoads today files).process.screen :=
    screen_launch hload macroDataLoads today
  rw [← Option.some_inj, ← hwrite]
  cases macroDataLoads with
  | false => simp [Event.write]
  | true => cases hc : calculated env today stored <;> simp [Event.write, hc, Calculated.write]

/-- A process that has ended offers a launch only. -/
theorem relaunch_of_ended {d : Device Content} {e : Event} (hended : d.process.screen = .ended)
    (he : d.Offers e) (hreads : e.reads = true) :
    ∃ macroDataLoads today, e = .relaunch true macroDataLoads today := by
  cases hlaunch : e.isRelaunch with
  | true =>
      cases e with
      | relaunch readable macroDataLoads today =>
          obtain rfl : readable = true := hreads
          exact ⟨macroDataLoads, today, rfl⟩
      | _ => cases hlaunch
  | false =>
      obtain ⟨a, hrun, -⟩ := Device.running_of_offers he hlaunch
      rw [hrun] at hended
      cases hended

/-- **When a process that has ended stays so.** Let a process have ended, the file hold the table
with some lists, and only launches follow that can read it. The process has ended in every state of
the run, iff every event is a launch whose stored macros load, on a day on which the amounts of the
newest entries in the file fit no integer. On `Double` these are the days on which their energy is
an infinity, NaN or too large (`calculated_eq_tooLarge_iff`). -/
theorem locked_out_iff (env : Foundation N Content) (d : Device Content)
    (stored : Metric → List FitnessDataDetail) (hended : d.process.screen = .ended)
    (hfile : FitnessDataController.loadData env true d.files = .ok (tableOf stored))
    (events : List Event) (hreads : ∀ e ∈ events, e.reads = true)
    (hlegal : (Device.machine env).Legal d events) :
    (Device.machine env).Always (fun d => d.process.screen = .ended) d events ↔
      ∀ e ∈ events, ∃ today, e = .relaunch true true today ∧
        calculated env today stored = .tooLarge := by
  induction events generalizing d with
  | nil => simpa using hended
  | cons e events ih =>
      rw [List.forall_mem_cons] at hreads
      obtain ⟨he, hrest⟩ := (Machine.legal_cons _ _ _ _).mp hlegal
      obtain ⟨macroDataLoads, day, rfl⟩ := relaunch_of_ended hended he hreads.1
      have hstep : d.step env (.relaunch true macroDataLoads day) =
          .launch env true macroDataLoads day d.files := Device.step_relaunch _ _ _ _ _
      have hlaunch : (Device.machine env).step d (.relaunch true macroDataLoads day) =
          some (.launch env true macroDataLoads day d.files) := congrArg some hstep
      have hnext : (Device.launch env true macroDataLoads day d.files).process.screen = .ended ↔
          ∃ today, Event.relaunch true macroDataLoads day = .relaunch true true today ∧
            calculated env today stored = .tooLarge := by
        rw [ended_launch_iff hfile]
        constructor
        · rintro ⟨rfl, hlarge⟩
          exact ⟨day, rfl, hlarge⟩
        · rintro ⟨today, hday, hlarge⟩
          obtain ⟨-, rfl, rfl⟩ := Event.relaunch.inj hday
          exact ⟨rfl, hlarge⟩
      rw [Machine.always_cons, List.forall_mem_cons, and_iff_right hended, ← hnext]
      constructor
      · intro h
        have halways := h _ hlaunch
        have hnow := (Machine.always_iff_prefix _ _ _ _).mp halways [] List.nil_prefix _ rfl
        exact ⟨hnow, (ih _ hnow hfile hreads.2 (hrest _ hlaunch)).mp halways⟩
      · rintro ⟨hnow, hevents⟩ d' hd'
        obtain rfl := Option.some_inj.mp (hlaunch.symm.trans hd')
        exact (ih _ hnow hfile hreads.2 (hrest _ hlaunch)).mpr hevents

/-- The device on which a weight too large is in the file, after the launch that it ended. -/
def lockedDevice : Device (String ⊕ List FitnessDataModel) :=
  .launch floating true true shownDay
    ⟨some (.inr (tableOf (weighing "1000000000000000000000"))), none⟩

/-- A launch that ends, and one whose stored macros do not load. -/
def relaunched : List Event := [.relaunch true true shownDay, .relaunch true false shownDay]

/-- These two launches on that device. -/
theorem locked_out_iff_relaunched :
    (Device.machine floating).Always (fun d => d.process.screen = .ended) lockedDevice relaunched ↔
      ∀ e ∈ relaunched, ∃ today, e = .relaunch true true today ∧
        calculated floating today (weighing "1000000000000000000000") = .tooLarge :=
  locked_out_iff floating lockedDevice (weighing "1000000000000000000000") (by decide +kernel) rfl
    relaunched (by decide) (by decide +kernel)

end AdvMad.MTrackerIos
