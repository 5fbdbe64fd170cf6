import AdvMad.MTrackerIos.Diary

/-!
# When the calculation fails

The runs a user can bring about from a launch on the empty table: taps, and a Save that inserts
whatever the add screen has prepared from its text field and its date picker (`Tap.machine`).

* `fails_iff_missing_iff` — in a state that shows a diary, the calculation fails exactly for missing
  data iff, once none of the five metrics it reads is empty, the newest entry of each can be read.
* `saves_readable_step` — as long as every Save on a typed metric finds a number in the field, every
  entry of the five metrics can be read, whatever deletions bring to the front.
* `calculation_fails_for_missing_data` — so along such runs the calculation fails for missing data
  only.

The unwind handler inserts the entry of the add screen unconditionally, and `prepare` hands over any
text, and the empty entry for none: `calculation_fails_for_stored_entry` is a run through that.
-/

namespace AdvMad.MTrackerIos

open AdvMad.Found

variable {N Content : Type} [Arithmetic N]

/-- What a user does on the screens. -/
inductive Tap
  | calculate (today : Day)
  | showYourData
  | showMacros
  | chooseRow (row : ℕ)
  | back
  | openAdd
  /-- Save, on a day, with what the text field and the date picker hold. -/
  | save (now : Day) (textField : Option String) (datePicker : Day)
  | cancel
  | delete (row : ℕ)
  | resignActive
deriving DecidableEq, Repr

/-- The add screen that is up. -/
def Device.addScreen (d : Device Content) : Option AddDataViewController :=
  match d.process with
  | .running a => a.addData
  | .trapped _ => none

namespace Tap

/-- The event a tap is: Save hands over what the add screen has prepared.
Source: `AddDataViewController.swift`, `prepare(for:sender:)`; `DetailViewController.swift`,
`unwindSegue`. -/
def event (env : Foundation N Content) (d : Device Content) : Tap → Event
  | calculate today => .calculate today
  | showYourData => .showYourData
  | showMacros => .showMacros
  | chooseRow row => .chooseRow row
  | back => .back
  | openAdd => .openAdd
  | save now textField datePicker => .save <|
      match d.addScreen with
      | some v => v.prepare env.dateFormatter now textField datePicker
      | none => ⟨"", ""⟩
  | cancel => .cancel
  | delete row => .delete row
  | resignActive => .resignActive

/-- The device under a user. -/
def machine (env : Foundation N Content) : Machine (Device Content) Tap :=
  ⟨fun d t => some (d.step env (t.event env d)), fun d t => d.Offers (t.event env d)⟩

instance (env : Foundation N Content) (d : Device Content) (t : Tap) :
    Decidable ((machine env).enabled d t) :=
  inferInstanceAs (Decidable (d.Offers (t.event env d)))

/-- The metrics whose values are typed and read by the calculation. -/
def typedNames : List String := ["Weight", "Height", "Body Fat Percentage", "Activity Level"]

/-- A Save on one of the metrics above finds a text in the field that is a number. -/
def SavesNumber (env : Foundation N Content) (d : Device Content) : Tap → Prop
  | save _ textField _ => ∀ v ∈ d.addScreen, v.selectedMetric ∈ typedNames →
      (textField.bind env.double).isSome = true
  | _ => True

instance decidableSavesNumber (env : Foundation N Content) (d : Device Content) :
    (t : Tap) → Decidable (SavesNumber env d t)
  | save _ _ _ => inferInstanceAs (Decidable (∀ v ∈ d.addScreen, _ → _))
  | calculate _ | showYourData | showMacros | chooseRow _ | back | openAdd | cancel | delete _
  | resignActive => inferInstanceAs (Decidable True)

omit [Arithmetic N] in
/-- No tap is a relaunch. -/
theorem isRelaunch_event (env : Foundation N Content) (d : Device Content) (t : Tap) :
    (t.event env d).isRelaunch = false := by cases t <;> rfl

end Tap

/-- The text that was typed is the value of the entry prepared. -/
theorem prepare_value {v : AddDataViewController} (hv : v.selectedMetric ≠ "Birthday")
    (df : DateFormatter) (now : Day) (text : String) (datePicker : Day) :
    (v.prepare df now (some text) datePicker).value = text := by
  unfold AddDataViewController.prepare
  rw [if_pos hv]
  cases hempty : text.isEmpty with
  | false => simp [hempty]
  | true =>
      have htext : text = "" := by simpa using hempty
      simp [htext]

/-- The day picked is what a birthday reads back. -/
theorem prepare_birthday {v : AddDataViewController} (hv : v.selectedMetric = "Birthday")
    (df : DateFormatter) (now : Day) (textField : Option String) (datePicker : Day) :
    df.date (v.prepare df now textField datePicker).value = some datePicker := by
  unfold AddDataViewController.prepare
  rw [if_neg (by simpa using hv)]
  exact df.date_string datePicker

/-! ## Entries that can be read -/

/-- Every entry of the metrics the calculation reads can be read. -/
def AllRead (env : Foundation N Content) (y : Diary) : Prop :=
  ∀ m ∈ MacroDataController.neededMetrics, ∀ e ∈ y.lists m,
    MacroDataController.Reads env m e.value

variable {env : Foundation N Content}

omit [Arithmetic N] in
/-- What is typed or picked on the screen of a metric, when it is a number where one is asked for,
can be read. -/
theorem prepared_reads {m : Metric} (hm : m ∈ MacroDataController.neededMetrics) {now : Day}
    {textField : Option String} {datePicker : Day}
    (hnumber : m.name ∈ Tap.typedNames → (textField.bind env.double).isSome = true) :
    MacroDataController.Reads env m
      (AddDataViewController.prepare env.dateFormatter now ⟨m.name⟩ textField
        datePicker).value := by
  have htyped : m ≠ .birthday → m.name ∈ Tap.typedNames →
      (env.double (AddDataViewController.prepare env.dateFormatter now ⟨m.name⟩ textField
        datePicker).value).isSome = true := by
    intro hne hname
    have hsome := hnumber hname
    cases textField with
    | none => cases hsome
    | some text =>
        rw [prepare_value (v := ⟨m.name⟩) (by simpa [Metric.name_eq_birthday_iff] using hne)]
        exact hsome
  cases m with
  | weight => exact htyped (by simp) (by decide)
  | height => exact htyped (by simp) (by decide)
  | bodyFatPercentage => exact htyped (by simp) (by decide)
  | activityLevel => exact htyped (by simp) (by decide)
  | birthday =>
      show (env.dateFormatter.date _).isSome = true
      rw [prepare_birthday (v := ⟨Metric.name .birthday⟩) rfl]
      rfl
  | chestSize => simp [MacroDataController.neededMetrics] at hm
  | waistSize => simp [MacroDataController.neededMetrics] at hm

omit [Arithmetic N] in
/-- An edit of the metric open keeps every entry readable if the list it leaves is. -/
theorem allRead_edit {y : Diary} (hy : AllRead env y)
    {g : List FitnessDataDetail → List FitnessDataDetail}
    (hg : ∀ m, y.opened = some m → m ∈ MacroDataController.neededMetrics → ∀ e ∈ g (y.lists m),
      MacroDataController.Reads env m e.value) : AllRead env (y.edit g) := by
  cases hopened : y.opened with
  | none => rwa [Diary.edit_of_none hopened]
  | some m =>
      rw [Diary.edit_of_opened hopened]
      intro m' hm' e he
      by_cases heq : m' = m
      · subst heq
        simp only [Function.update_self] at he
        exact hg m' hopened hm' e he
      · simp only [Function.update_of_ne heq] at he
        exact hy m' hm' e he

omit [Arithmetic N] in
/-- **Step lemma**: a tap that saves a number where one is asked for keeps every entry readable;
deletions bring nothing else to the front. -/
theorem saves_readable_step {d : Device Content} {a : App} {y : Diary}
    (hrun : d.process = .running a) (ha : Sound a y) (hy : AllRead env y) {t : Tap}
    (hoffers : a.Offers (t.event env d)) (ht : t.SavesNumber env d) :
    AllRead env (y.handle (t.event env d)) := by
  cases t with
  | save now textField datePicker =>
      have hadd : d.addScreen = a.addData := by
        unfold Device.addScreen
        rw [hrun]
      obtain ⟨v, hv⟩ := Option.ne_none_iff_exists'.mp (show a.addData ≠ none from hoffers)
      obtain ⟨m, hm, rfl⟩ := ha.addData v hv
      rw [hv] at hadd
      refine allRead_edit hy ?_
      intro m' hm' hneeded e he
      obtain rfl : m = m' := by simpa using hm.symm.trans hm'
      rcases List.mem_cons.mp he with rfl | he
      · rw [hadd]
        exact prepared_reads hneeded (ht ⟨m.name⟩ hadd)
      · exact hy m hneeded e he
  | delete row =>
      exact allRead_edit hy fun m _ hneeded e he => hy m hneeded e (List.mem_of_mem_eraseIdx he)
  | _ => exact hy

/-! ## Failing for missing data -/

/-- The calculation of an app throws exactly when one of the metrics it reads has no entries. -/
def FailsIffMissing (env : Foundation N Content) (a : App) : Prop :=
  ∀ today, (∃ e, MacroDataController.calculateMacros env today a.allData = .error (.thrown e)) ↔
    ∃ m ∈ MacroDataController.neededMetrics,
      FitnessDataController.getDataForMetric a.allData m.row = some []

/-- If none of the metrics the calculation reads is empty, the newest entry of each can be read. -/
def NewestReadOnceFilled (env : Foundation N Content) (a : App) : Prop :=
  (∀ m ∈ MacroDataController.neededMetrics,
    FitnessDataController.getDataForMetric a.allData m.row ≠ some []) →
  ∀ m ∈ MacroDataController.neededMetrics, ∃ e es,
    FitnessDataController.getDataForMetric a.allData m.row = some (e :: es) ∧
      MacroDataController.Reads env m e.value

/-- On a table of the seven metrics, the calculation throws iff some newest entry is missing or
cannot be read. -/
theorem throws_iff {a : App} {y : Diary} (ha : Sound a y) (today : Day) :
    (∃ e, MacroDataController.calculateMacros env today a.allData = .error (.thrown e)) ↔
      ∃ m ∈ MacroDataController.neededMetrics,
        ¬ MacroDataController.NewestReads env y.lists m := by
  rw [ha.allData, ← MacroDataController.calculateMacros_tableOf_throws_iff env today]
  constructor
  · rintro ⟨e, he⟩
    rcases MacroDataController.calculateMacros_tableOf_cases env today y.lists with
      ⟨-, macros, heq⟩ | ⟨-, heq⟩
    · rw [heq] at he
      cases he
    · exact heq
  · exact fun heq => ⟨_, heq⟩

/-- **The exact condition, state by state.** -/
theorem fails_iff_missing_iff {a : App} {y : Diary} (ha : Sound a y) :
    FailsIffMissing env a ↔ NewestReadOnceFilled env a := by
  have hreads : ∀ m, MacroDataController.NewestReads env y.lists m ↔
      ∃ e es, y.lists m = e :: es ∧ MacroDataController.Reads env m e.value := by
    intro m
    unfold MacroDataController.NewestReads
    cases y.lists m <;> simp
  simp only [FailsIffMissing, NewestReadOnceFilled, throws_iff ha, ha.getDataForMetric_eq, hreads,
    Option.some_inj, ne_eq]
  constructor
  · intro h hfilled m hm
    by_contra hnone
    obtain ⟨m', hm', hempty⟩ := (h ⟨1, 1, 1, by decide, by decide⟩).mp ⟨m, hm, hnone⟩
    exact hfilled m' hm' hempty
  · intro h today
    constructor
    · rintro ⟨m, hm, hnone⟩
      by_contra hfilled
      exact hnone (h (fun m' hm' hempty => hfilled ⟨m', hm', hempty⟩) m hm)
    · rintro ⟨m, hm, hempty⟩
      refine ⟨m, hm, ?_⟩
      rintro ⟨e, es, hcons, -⟩
      rw [hempty] at hcons
      cases hcons

/-- Where every entry can be read, the newest ones can. -/
theorem failsIffMissing_of_allRead {a : App} {y : Diary} (ha : Sound a y) (hy : AllRead env y) :
    FailsIffMissing env a := by
  rw [fails_iff_missing_iff ha]
  intro hfilled m hm
  have hlist := ha.getDataForMetric_eq m
  cases hcons : y.lists m with
  | nil =>
      rw [hcons] at hlist
      exact absurd hlist (hfilled m hm)
  | cons e es =>
      refine ⟨e, es, by rw [hlist, hcons], hy m hm e ?_⟩
      rw [hcons]
      exact List.mem_cons_self

/-! ## Along a run -/

/-- The process shows a diary with property `P`, or has trapped. -/
def Shows (P : Diary → Prop) (d : Device Content) : Prop :=
  ∀ a, d.process = .running a → ∃ y, Sound a y ∧ P y

/-- A launch shows the diary it loads. -/
theorem shows_launch {readable : Bool} {files : Files Content} {P : Diary → Prop}
    (hload : FitnessDataController.loadData env readable files = .ok dataPlist)
    (hP : P ⟨fun _ => [], none⟩) (macroDataLoads : Bool) (today : Day) :
    Shows P (Device.launch env readable macroDataLoads today files) := by
  intro a hrun
  unfold Device.launch at hrun
  rw [dataPlist_eq] at hload
  rcases sound_launch hload macroDataLoads today with ⟨a', heq, ha'⟩ | heq
  · rw [heq] at hrun
    cases hrun
    exact ⟨_, ha', hP⟩
  · rw [heq] at hrun
    cases hrun

/-- A tap keeps a property of the diary if the diary's own step does. -/
theorem shows_step {P : Diary → Prop} {d d' : Device Content} {t : Tap} (hd : Shows P d)
    (hoffers : d.Offers (t.event env d)) (hstep : (Tap.machine env).step d t = some d')
    (hP : ∀ a y, d.process = .running a → a.Offers (t.event env d) → Sound a y → P y →
      P (y.handle (t.event env d))) : Shows P d' := by
  have hlaunch := t.isRelaunch_event env d
  obtain ⟨a, hrun, hen⟩ := Device.running_of_offers hoffers hlaunch
  obtain ⟨y, ha, hy⟩ := hd a hrun
  cases hstep
  rw [Device.step_running env hrun hlaunch]
  intro a' hrun'
  rcases ha.handle env hen hlaunch with ⟨a'', heq, ha''⟩ | ⟨-, heq⟩
  · simp only [heq] at hrun'
    cases hrun'
    exact ⟨_, ha'', hP a y hrun hen ha hy⟩
  · simp only [heq] at hrun'
    cases hrun'

/-- **The calculation fails for missing data.** For every run of taps from a launch on the empty
table: if every Save on Weight, Height, Body Fat Percentage and Activity Level finds a number in the
text field, then in every state reached the calculation throws exactly when one of the five metrics
it reads has no entries. And in every state of any run that is so exactly when, once none of the
five is empty, the newest entry of each can be read. -/
theorem calculation_fails_for_missing_data (env : Foundation N Content) (files : Files Content)
    (readable macroDataLoads : Bool) (today : Day)
    (hload : FitnessDataController.loadData env readable files = .ok dataPlist) (taps : List Tap)
    (hlegal : (Tap.machine env).Legal (.launch env readable macroDataLoads today files) taps) :
    ((Tap.machine env).Each (Tap.SavesNumber env)
        (.launch env readable macroDataLoads today files) taps →
      (Tap.machine env).Always (fun d => ∀ a, d.process = .running a → FailsIffMissing env a)
        (.launch env readable macroDataLoads today files) taps) ∧
    (Tap.machine env).Always
      (fun d => ∀ a, d.process = .running a →
        (FailsIffMissing env a ↔ NewestReadOnceFilled env a))
      (.launch env readable macroDataLoads today files) taps := by
  constructor
  · intro hsaves
    have hrun := Machine.always_of_each (I := Shows (AllRead env)) ?_
      (shows_launch hload (fun m _ e he => (by cases he)) macroDataLoads today)
      ((Machine.each_and _ _ _ _ taps).mpr ⟨hlegal, hsaves⟩)
    · refine hrun.mono fun d hd a hrun => ?_
      obtain ⟨y, ha, hy⟩ := hd a hrun
      exact failsIffMissing_of_allRead ha hy
    · rintro d t d' hd ⟨hoffers, hnumber⟩ hstep
      refine shows_step hd hoffers hstep ?_
      intro a y hrun hen ha hy
      exact saves_readable_step hrun ha hy hen hnumber
  · have hrun := Machine.always_of_each (I := Shows fun _ => True) ?_
      (shows_launch hload trivial macroDataLoads today) hlegal
    · refine hrun.mono fun d hd a hrun => ?_
      obtain ⟨y, ha, -⟩ := hd a hrun
      exact fails_iff_missing_iff ha
    · intro d t d' hd hoffers hstep
      exact shows_step hd hoffers hstep fun _ _ _ _ _ _ => trivial

/-- A metric opened, an entry saved on it and the metric left, on one day. -/
def Tap.enter (row : ℕ) (textField : Option String) : List Tap :=
  [.chooseRow row, .openAdd, .save shownDay textField
    ⟨1990, 2, 28, by decide, by decide⟩, .back]

/-- The five metrics filled in, with a text for the weight. -/
def Tap.fillIn (weight : Option String) : List Tap :=
  .showYourData :: enter 0 (some "1.5") ++ enter 1 none ++ enter 2 (some "20") ++
    enter 4 (some "70") ++ enter 5 weight

/-- A device at its first launch. -/
def firstDevice : Device (String ⊕ List FitnessDataModel) :=
  .launch plain true false shownDay ⟨none, some (.inr dataPlist)⟩

/-- The five metrics filled in, the weight with a number. -/
theorem calculation_fails_for_missing_data_filled :
    (Tap.machine plain).Each (Tap.SavesNumber plain) firstDevice (Tap.fillIn (some "180")) ∧
    ((Tap.machine plain).Each (Tap.SavesNumber plain) firstDevice (Tap.fillIn (some "180")) →
      (Tap.machine plain).Always (fun d => ∀ a, d.process = .running a → FailsIffMissing plain a)
        firstDevice (Tap.fillIn (some "180"))) ∧
    (Tap.machine plain).Always
      (fun d => ∀ a, d.process = .running a →
        (FailsIffMissing plain a ↔ NewestReadOnceFilled plain a))
      firstDevice (Tap.fillIn (some "180")) :=
  ⟨by decide +kernel, calculation_fails_for_missing_data plain ⟨none, some (.inr dataPlist)⟩ true
    false shownDay rfl (Tap.fillIn (some "180")) (by decide +kernel)⟩

/-- The five metrics filled in, but Save pressed on the weight with no text: none of the lists is
empty and the calculation throws. -/
theorem calculation_fails_for_stored_entry :
    (Tap.machine plain).Legal firstDevice (Tap.fillIn none) ∧
      ¬ (Tap.machine plain).Always (fun d => ∀ a, d.process = .running a → FailsIffMissing plain a)
        firstDevice (Tap.fillIn none) := by
  refine ⟨by decide +kernel, ?_⟩
  intro halways
  have hend := (Machine.always_iff_prefix _ _ _ _).mp halways _ (List.prefix_refl _) _ rfl _ rfl
  obtain ⟨m, hm, hempty⟩ := (hend shownDay).mp ⟨.SomethingWentWrong, rfl⟩
  revert m
  decide +kernel

end AdvMad.MTrackerIos
