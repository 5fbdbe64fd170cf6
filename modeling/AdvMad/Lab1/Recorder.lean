import AdvMad.Found.Run

/-!
# Lab 1: the voice note

The screen that records a note and plays it back (`RecordViewController`): three buttons, which the
code enables and disables as it goes, the recorder, the player, and the category of the shared audio
session. The system interferes: a file may not open, the session may refuse a category, a note ends,
an interruption stops what is running.

* `RecordViewController.machine` — the taps on enabled buttons and what the system does.
* `Safe` — recorder and player do not run together, what runs can be stopped, what is not running
  can be started. `safe_step`: every event keeps it, whatever the system refuses.
* `recorder_is_safe` — that holds in every state of every run; and where the session accepts every
  category, recording takes place in the category that allows it.
-/

namespace AdvMad.Lab1

open AdvMad.Found

/-- The categories the screen asks for. -/
inductive Category
  | playAndRecord
  | playback
deriving DecidableEq, Repr

/-- The screen. Source: `RecordViewController.swift`. -/
structure RecordViewController where
  /-- `isRecording` of the recorder; `none` where none could be made. -/
  noteAudioRecorder : Option Bool
  /-- `isPlaying` of the player; `none` before the first one. -/
  noteAudioPlayer : Option Bool
  playEnabled : Bool
  recordEnabled : Bool
  stopEnabled : Bool
  /-- The category of the session; `none` for the one of the system. -/
  category : Option Category
deriving DecidableEq, Repr

namespace RecordViewController

/-- A recording is being made. -/
def Recording (s : RecordViewController) : Prop := s.noteAudioRecorder = some true

/-- A note is being played. -/
def Playing (s : RecordViewController) : Prop := s.noteAudioPlayer = some true

instance : DecidablePred Recording := fun s =>
  inferInstanceAs (Decidable (s.noteAudioRecorder = some true))

instance : DecidablePred Playing := fun s =>
  inferInstanceAs (Decidable (s.noteAudioPlayer = some true))

/-- The session changes its category, unless it refuses. -/
def setCategory (s : RecordViewController) (accepted : Bool) (category : Category) :
    RecordViewController :=
  if accepted then { s with category := some category } else s

/-- The screen once loaded: whether the session accepts the category and a recorder can be made.
All three buttons are enabled. Source: `RecordViewController.swift`, `viewDidLoad`;
`Main.storyboard`. -/
def viewDidLoad (accepted made : Bool) : RecordViewController :=
  setCategory ⟨if made then some false else none, none, true, true, true, none⟩ accepted
    .playAndRecord

/-- A tap on Play: whether a player can be made for the file, the session accepts the category, and
the player starts. A new player takes the place of the old one, which stops; where none can be made
the old one stays. Source: `RecordViewController.swift`, `playAction`. -/
def playAction (s : RecordViewController) (made accepted starts : Bool) : RecordViewController :=
  if s.noteAudioRecorder = some false then
    let s := { s with stopEnabled := true, recordEnabled := false }
    if made then
      if accepted then
        { s with noteAudioPlayer := some starts, category := some .playback }
      else { s with noteAudioPlayer := some false }
    else s
  else s

/-- A tap on Record: whether the recorder starts. Source: `RecordViewController.swift`,
`recordAction`. -/
def recordAction (s : RecordViewController) (starts : Bool) : RecordViewController :=
  if s.noteAudioRecorder = some false then
    { s with playEnabled := false, stopEnabled := true, noteAudioRecorder := some starts }
  else s

/-- A tap on Stop: whether the session accepts the category. Source: `RecordViewController.swift`,
`stopAction`. -/
def stopAction (s : RecordViewController) (accepted : Bool) : RecordViewController :=
  let s := { s with stopEnabled := false, playEnabled := true, recordEnabled := true }
  if s.noteAudioRecorder = some true then { s with noteAudioRecorder := some false }
  else
    setCategory { s with noteAudioPlayer := s.noteAudioPlayer.map fun _ => false } accepted
      .playAndRecord

/-- The note has been played to its end. Source: `RecordViewController.swift`,
`audioPlayerDidFinishPlaying`. -/
def audioPlayerDidFinishPlaying (s : RecordViewController) (accepted : Bool) :
    RecordViewController :=
  setCategory { s with noteAudioPlayer := some false, recordEnabled := true, stopEnabled := false }
    accepted .playAndRecord

/-- An interruption stops what is running; the screen does not hear of it. -/
def interrupted (s : RecordViewController) : RecordViewController :=
  { s with
    noteAudioRecorder := s.noteAudioRecorder.map fun _ => false
    noteAudioPlayer := s.noteAudioPlayer.map fun _ => false }

/-- What happens to the screen. -/
inductive Event
  | playAction (made accepted starts : Bool)
  | recordAction (starts : Bool)
  | stopAction (accepted : Bool)
  | audioPlayerDidFinishPlaying (accepted : Bool)
  | interruption
deriving DecidableEq, Repr

/-- The screen after an event. -/
def handle (s : RecordViewController) : Event → RecordViewController
  | .playAction made accepted starts => s.playAction made accepted starts
  | .recordAction starts => s.recordAction starts
  | .stopAction accepted => s.stopAction accepted
  | .audioPlayerDidFinishPlaying accepted => s.audioPlayerDidFinishPlaying accepted
  | .interruption => s.interrupted

/-- A button is tapped while it is enabled, and a note ends while it is played. -/
def Offers (s : RecordViewController) : Event → Prop
  | .playAction _ _ _ => s.playEnabled = true
  | .recordAction _ => s.recordEnabled = true
  | .stopAction _ => s.stopEnabled = true
  | .audioPlayerDidFinishPlaying _ => s.Playing
  | .interruption => True

instance decidableOffers (s : RecordViewController) : (e : Event) → Decidable (s.Offers e)
  | .playAction _ _ _ => inferInstanceAs (Decidable (s.playEnabled = true))
  | .recordAction _ => inferInstanceAs (Decidable (s.recordEnabled = true))
  | .stopAction _ => inferInstanceAs (Decidable (s.stopEnabled = true))
  | .audioPlayerDidFinishPlaying _ => inferInstanceAs (Decidable s.Playing)
  | .interruption => inferInstanceAs (Decidable True)

/-- The screen as a machine. -/
def machine : Machine RecordViewController Event := ⟨fun s e => some (s.handle e), Offers⟩

instance (s : RecordViewController) (e : Event) : Decidable (machine.enabled s e) :=
  decidableOffers s e

/-- The session accepts the category an event asks for. -/
def Event.accepts : Event → Bool
  | .playAction _ accepted _ => accepted
  | .stopAction accepted => accepted
  | .audioPlayerDidFinishPlaying accepted => accepted
  | .recordAction _ => true
  | .interruption => true

/-- What runs can be stopped, what does not run can be started, and not both run. -/
structure Safe (s : RecordViewController) : Prop where
  exclusive : ¬ (s.Recording ∧ s.Playing)
  /-- While recording, Stop can be tapped and Play cannot. -/
  recording : s.Recording → s.stopEnabled = true ∧ s.playEnabled = false ∧ s.recordEnabled = true
  /-- While playing, Stop can be tapped and Record cannot, and the session plays back. -/
  playing : s.Playing → s.stopEnabled = true ∧ s.recordEnabled = false ∧ s.playEnabled = true ∧
    s.category = some .playback
  /-- Where Stop cannot be tapped, Play and Record can. -/
  idle : s.stopEnabled = false → s.playEnabled = true ∧ s.recordEnabled = true

/-- Where Record can be tapped, the session is in the category for it. -/
def InCategory (s : RecordViewController) : Prop :=
  s.recordEnabled = true → s.category = some .playAndRecord

/-! ### What the handlers change -/

section Handlers

variable (s : RecordViewController)

/-- The category is no part of the recorder. -/
@[simp] theorem setCategory_noteAudioRecorder (accepted : Bool) (category : Category) :
    (s.setCategory accepted category).noteAudioRecorder = s.noteAudioRecorder := by
  cases accepted <;> rfl

/-- Nor of the player. -/
@[simp] theorem setCategory_noteAudioPlayer (accepted : Bool) (category : Category) :
    (s.setCategory accepted category).noteAudioPlayer = s.noteAudioPlayer := by
  cases accepted <;> rfl

/-- Nor of the play button. -/
@[simp] theorem setCategory_playEnabled (accepted : Bool) (category : Category) :
    (s.setCategory accepted category).playEnabled = s.playEnabled := by
  cases accepted <;> rfl

/-- Nor of the record button. -/
@[simp] theorem setCategory_recordEnabled (accepted : Bool) (category : Category) :
    (s.setCategory accepted category).recordEnabled = s.recordEnabled := by
  cases accepted <;> rfl

/-- Nor of the stop button. -/
@[simp] theorem setCategory_stopEnabled (accepted : Bool) (category : Category) :
    (s.setCategory accepted category).stopEnabled = s.stopEnabled := by
  cases accepted <;> rfl

/-- A category that is accepted is set. -/
@[simp] theorem setCategory_true (category : Category) :
    (s.setCategory true category).category = some category := rfl

end Handlers

/-- The screen is safe while nothing runs, if Stop, or Play and Record can be tapped. -/
theorem safe_of_quiet {s : RecordViewController} (hrecording : ¬ s.Recording)
    (hplaying : ¬ s.Playing)
    (hidle : s.stopEnabled = false → s.playEnabled = true ∧ s.recordEnabled = true) : Safe s :=
  ⟨fun h => hrecording h.1, fun h => absurd h hrecording, fun h => absurd h hplaying, hidle⟩

/-- The screen is safe once it has loaded. -/
theorem safe_viewDidLoad (accepted made : Bool) : Safe (viewDidLoad accepted made) := by
  apply safe_of_quiet
  · cases made <;> simp [viewDidLoad, Recording]
  · simp [viewDidLoad, Playing]
  · simp [viewDidLoad]

/-! ### One event -/

variable {s : RecordViewController}

/-- A tap on Play: a player that runs is the new one, or the old one goes on. -/
theorem safe_playAction (hs : Safe s) (he : s.playEnabled = true) (made accepted starts : Bool) :
    Safe (s.playAction made accepted starts) := by
  unfold playAction
  by_cases hrecorder : s.noteAudioRecorder = some false
  · rw [if_pos hrecorder]
    cases made with
    | false =>
        refine ⟨fun h => ?_, fun h => ?_, fun h => ⟨rfl, rfl, he, (hs.playing h).2.2.2⟩, ?_⟩
        · simp [Recording, hrecorder] at h
        · simp [Recording, hrecorder] at h
        · simp
    | true =>
        cases accepted with
        | false =>
            apply safe_of_quiet
            · simp [Recording, hrecorder]
            · simp [Playing]
            · simp
        | true =>
            refine ⟨fun h => ?_, fun h => ?_, fun _ => ⟨rfl, rfl, he, rfl⟩, ?_⟩
            · simp [Recording, hrecorder] at h
            · simp [Recording, hrecorder] at h
            · simp
  · rw [if_neg hrecorder]
    exact hs

/-- A tap on Record: no note is being played then. -/
theorem safe_recordAction (hs : Safe s) (he : s.recordEnabled = true) (starts : Bool) :
    Safe (s.recordAction starts) := by
  have hplaying : ¬ s.Playing := by
    intro h
    simp [(hs.playing h).2.1] at he
  unfold recordAction
  by_cases hrecorder : s.noteAudioRecorder = some false
  · rw [if_pos hrecorder]
    exact ⟨fun h => hplaying h.2, fun _ => ⟨rfl, rfl, he⟩, fun h => absurd h hplaying, by simp⟩
  · rw [if_neg hrecorder]
    exact hs

/-- A tap on Stop: nothing runs after it. -/
theorem safe_stopAction (hs : Safe s) (accepted : Bool) :
    Safe (s.stopAction accepted) ∧ ¬ (s.stopAction accepted).Recording ∧
      ¬ (s.stopAction accepted).Playing ∧ (s.stopAction accepted).playEnabled = true ∧
      (s.stopAction accepted).recordEnabled = true := by
  have hquiet : ¬ (s.stopAction accepted).Recording ∧ ¬ (s.stopAction accepted).Playing ∧
      (s.stopAction accepted).playEnabled = true ∧
      (s.stopAction accepted).recordEnabled = true := by
    unfold stopAction
    by_cases hrecorder : s.noteAudioRecorder = some true
    · rw [if_pos hrecorder]
      refine ⟨by simp [Recording], ?_, rfl, rfl⟩
      exact fun h => hs.exclusive ⟨hrecorder, h⟩
    · rw [if_neg hrecorder]
      refine ⟨?_, ?_, by simp, by simp⟩
      · simpa [Recording] using hrecorder
      · cases s.noteAudioPlayer <;> simp [Playing]
  obtain ⟨hrecording, hplaying, hplay, hrecord⟩ := hquiet
  exact ⟨safe_of_quiet hrecording hplaying fun _ => ⟨hplay, hrecord⟩, hrecording, hplaying, hplay,
    hrecord⟩

/-- The end of a note: Record can be tapped again, as Play can all along. -/
theorem safe_audioPlayerDidFinishPlaying (hs : Safe s) (he : s.Playing) (accepted : Bool) :
    Safe (s.audioPlayerDidFinishPlaying accepted) := by
  unfold audioPlayerDidFinishPlaying
  apply safe_of_quiet
  · intro h
    simp only [Recording, setCategory_noteAudioRecorder] at h
    exact hs.exclusive ⟨h, he⟩
  · simp [Playing]
  · simp [(hs.playing he).2.2.1]

/-- An interruption keeps it safe. -/
theorem safe_interrupted (hs : Safe s) : Safe s.interrupted := by
  apply safe_of_quiet
  · cases hrecorder : s.noteAudioRecorder <;> simp [interrupted, Recording, hrecorder]
  · cases hplayer : s.noteAudioPlayer <;> simp [interrupted, Playing, hplayer]
  · exact hs.idle

/-- **Step lemma**: every event keeps the screen safe, whatever the system refuses. -/
theorem safe_step (hs : Safe s) {e : Event} (he : s.Offers e) : Safe (s.handle e) := by
  cases e with
  | playAction made accepted starts => exact safe_playAction hs he made accepted starts
  | recordAction starts => exact safe_recordAction hs he starts
  | stopAction accepted => exact (safe_stopAction hs accepted).1
  | audioPlayerDidFinishPlaying accepted => exact safe_audioPlayerDidFinishPlaying hs he accepted
  | interruption => exact safe_interrupted hs

/-- Where the session accepts every category, it is in the category for recording whenever Record
can be tapped. -/
theorem inCategory_step (hs : Safe s) (hcategory : InCategory s) {e : Event}
    (haccepts : e.accepts = true) : InCategory (s.handle e) := by
  cases e with
  | playAction made accepted starts =>
      simp only [handle, playAction]
      by_cases hrecorder : s.noteAudioRecorder = some false
      · rw [if_pos hrecorder]
        intro h
        cases made <;> cases accepted <;> simp at h
      · rw [if_neg hrecorder]
        exact hcategory
  | recordAction starts =>
      simp only [handle, recordAction]
      by_cases hrecorder : s.noteAudioRecorder = some false
      · rw [if_pos hrecorder]
        exact hcategory
      · rw [if_neg hrecorder]
        exact hcategory
  | stopAction accepted =>
      obtain rfl : accepted = true := haccepts
      simp only [handle, stopAction]
      by_cases hrecorder : s.noteAudioRecorder = some true
      · rw [if_pos hrecorder]
        intro _
        exact hcategory (hs.recording hrecorder).2.2
      · rw [if_neg hrecorder]
        intro _
        rfl
  | audioPlayerDidFinishPlaying accepted =>
      obtain rfl : accepted = true := haccepts
      intro _
      rfl
  | interruption => exact hcategory

/-! ### Whole runs -/

/-- **The voice note is safe.** From any start of the screen and in every state of every run of taps
on enabled buttons, ends of notes, interruptions and refusals of the system: recorder and player do
not run together; what runs can be stopped, and then neither runs and both can be started; and where
Stop cannot be tapped, Play and Record can. If the session has accepted the category at the start
and does so along the run, a recording is made in the category that allows it. -/
theorem recorder_is_safe (accepted made : Bool) (events : List Event)
    (hlegal : machine.Legal (viewDidLoad accepted made) events) :
    machine.Always (fun s => ¬ (s.Recording ∧ s.Playing) ∧
        (s.Recording ∨ s.Playing → s.stopEnabled = true) ∧
        (∀ accepted, ¬ (s.stopAction accepted).Recording ∧ ¬ (s.stopAction accepted).Playing ∧
          (s.stopAction accepted).playEnabled = true ∧
          (s.stopAction accepted).recordEnabled = true) ∧
        (s.stopEnabled = false → s.playEnabled = true ∧ s.recordEnabled = true))
      (viewDidLoad accepted made) events ∧
    (accepted = true → (∀ e ∈ events, e.accepts = true) →
      machine.Always (fun s => s.Recording → s.category = some .playAndRecord)
        (viewDidLoad accepted made) events) := by
  have hstart := safe_viewDidLoad accepted made
  constructor
  · apply (Machine.always_of_each (I := Safe) _ hstart hlegal).mono
    · intro s hs
      refine ⟨hs.exclusive, ?_, fun accepted => (safe_stopAction hs accepted).2, hs.idle⟩
      rintro (h | h)
      · exact (hs.recording h).1
      · exact (hs.playing h).1
    · intro s e s' hs he hstep
      obtain rfl := Option.some_inj.mp hstep
      exact safe_step hs he
  · rintro rfl haccepts
    have hsteps : machine.Each (fun s e => s.Offers e ∧ e.accepts = true) (viewDidLoad true made)
        events := hlegal.and_forall haccepts
    apply (Machine.always_of_each (I := fun s => Safe s ∧ InCategory s) _ ⟨hstart, fun _ => rfl⟩
      hsteps).mono
    · rintro s ⟨hs, hcategory⟩ hrecording
      exact hcategory (hs.recording hrecording).2.2
    · rintro s e s' ⟨hs, hcategory⟩ ⟨he, haccept⟩ hstep
      obtain rfl := Option.some_inj.mp hstep
      exact ⟨safe_step hs he, inCategory_step hs hcategory haccept⟩

/-- A note recorded, played twice, the second player failing to open, to its end, and recorded
again. -/
def recordedTwice : List Event :=
  [.recordAction true, .stopAction true, .playAction true true true, .playAction false true true,
    .audioPlayerDidFinishPlaying true, .recordAction true]

/-- That run, from a launch on which the recorder was made. -/
theorem recorder_is_safe_recordedTwice :
    machine.Always (fun s => ¬ (s.Recording ∧ s.Playing) ∧
        (s.Recording ∨ s.Playing → s.stopEnabled = true) ∧
        (∀ accepted, ¬ (s.stopAction accepted).Recording ∧ ¬ (s.stopAction accepted).Playing ∧
          (s.stopAction accepted).playEnabled = true ∧
          (s.stopAction accepted).recordEnabled = true) ∧
        (s.stopEnabled = false → s.playEnabled = true ∧ s.recordEnabled = true))
      (viewDidLoad true true) recordedTwice ∧
    (true = true → (∀ e ∈ recordedTwice, e.accepts = true) →
      machine.Always (fun s => s.Recording → s.category = some .playAndRecord)
        (viewDidLoad true true) recordedTwice) :=
  recorder_is_safe true true recordedTwice (by decide)

/-- The screen at the end of that run. -/
example : machine.run (viewDidLoad true true) recordedTwice =
    some ⟨some true, some false, false, true, true, some .playAndRecord⟩ := by
  decide

end RecordViewController

end AdvMad.Lab1
