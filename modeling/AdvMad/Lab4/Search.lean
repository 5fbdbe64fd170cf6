import AdvMad.Lab4.SpacePhoto

/-!
# Lab 4: what a search shows, and whether it ends

Two results about whole sessions, from launch and under any order of searches, completions, runs of
the main queue and returns from the detail screen.

* `detail_shows_answer_iff` — every opening of the detail screen is on exactly the photo decoded
  from the body answering the search just made, iff every body parsed decodes. `parseJson` swallows
  the decoding error and notifies with the list as it was: the photo of an earlier search
  (`detail_shows_earlier_photo`), or no photo at all, on which the detail screen traps.
* `search_ends_iff` — the completion handler never traps and the alert is down whenever nothing is
  in flight, iff every request is answered with status 200. Any other status returns before the
  callback that takes the alert down; no response object traps. The session as a whole never traps,
  in addition, iff no undecodable body is parsed before the first photo.

Both go through `Machine.each_congr`: the two conditions agree at every state of the flight
invariant.
-/

namespace AdvMad.Lab4.Session

open AdvMad.Found

variable {Data : Type} (isURL : String → Bool) (decode : Data → Option SpacePhoto)

/-! ## The photo shown -/

/-- The detail screen opens on the answer: a run of the main queue parses the body answering the
search whose alert is up, opens the detail screen and shows the one photo decoded from that body;
no other event opens it. -/
def OpensAnswer (s : Session Data) : Event Data → Prop
  | .runMain => ∃ rawData date mainQueue photo s', s.mainQueue = (rawData, date) :: mainQueue ∧
      s.alert = some (message date) ∧ decode rawData = some photo ∧
      step isURL decode s .runMain = some s' ∧ s'.detail.map (·.results) = some [photo]
  | e => ∀ s', step isURL decode s e = some s' → s'.detail = s.detail ∨ s'.detail = none

/-- The body parsed is that of a photo. -/
def BodyDecodes (s : Session Data) : Event Data → Prop
  | .runMain => ∀ rawData date mainQueue, s.mainQueue = (rawData, date) :: mainQueue →
      (decode rawData).isSome
  | _ => True

variable {isURL decode}

/-- Events other than a run of the main queue open no detail screen. -/
theorem detail_of_ne_runMain {s s' : Session Data} {e : Event Data} (he : e ≠ .runMain)
    (hstep : step isURL decode s e = some s') : s'.detail = s.detail ∨ s'.detail = none := by
  cases e with
  | searchDate date =>
      cases hstep
      left
      rcases searchDate_cases isURL s date with ⟨-, h⟩ | ⟨-, h⟩ <;> rw [h]
  | complete i outcome =>
      left
      simp only [step, Option.bind_eq_bind, Option.bind_eq_some_iff] at hstep
      obtain ⟨date, -, hstep⟩ := hstep
      cases outcome with
      | transportError => cases hstep
      | response statusCode data =>
          simp only [completionHandler] at hstep
          split_ifs at hstep <;> cases hstep <;> rfl
  | runMain => exact absurd rfl he
  | back =>
      cases hstep
      exact Or.inr rfl

/-- At a state of the flight invariant the detail screen opens on the answer iff the body
decodes. -/
theorem opensAnswer_iff {s : Session Data} (hs : Flight s) (e : Event Data) (he : s.Offers e) :
    OpensAnswer isURL decode s e ↔ BodyDecodes decode s e := by
  cases e with
  | runMain =>
      obtain ⟨rawData, date, -, hq, halert, heq⟩ :=
        step_runMain isURL decode hs he
      constructor
      · rintro ⟨rawData₁, date₁, rest₁, photo, s', hq₁, -, hdec, -, -⟩ rawData₂ date₂ rest₂ hq₂
        obtain ⟨⟨rfl, rfl⟩, rfl⟩ := by simpa using hq₁.symm.trans hq₂
        rw [hdec]
        rfl
      · intro hdecodes
        obtain ⟨photo, hphoto⟩ := Option.isSome_iff_exists.mp (hdecodes rawData date [] hq)
        exact ⟨rawData, date, [], photo, _, hq, halert, hphoto,
          heq.trans (parseJson_of_decodes _ hphoto), rfl⟩
  | searchDate date => exact iff_of_true (fun s' => detail_of_ne_runMain (by simp)) trivial
  | complete i outcome => exact iff_of_true (fun s' => detail_of_ne_runMain (by simp)) trivial
  | back => exact iff_of_true (fun s' => detail_of_ne_runMain (by simp)) trivial

/-- **The detail screen shows the answer to the search just made exactly along the sessions whose
bodies all decode.** In every session from launch: every opening of the detail screen is on the one
photo decoded from the body answering the search just made, iff every body the session parses is
that of a photo. -/
theorem detail_shows_answer_iff (isURL : String → Bool) (decode : Data → Option SpacePhoto)
    (events : List (Event Data)) (hlegal : (machine isURL decode).Legal launch events) :
    (machine isURL decode).Each (OpensAnswer isURL decode) launch events ↔
      (machine isURL decode).Each (BodyDecodes decode) launch events :=
  Machine.each_congr (I := Flight) (fun _ e hs he => opensAnswer_iff hs e he)
    (fun _ _ _ hs he _ hstep => flight_step hs he hstep) flight_launch hlegal

/-- Bodies that are a photo or nothing the decoder knows. -/
def photoOf (day : String) : Option SpacePhoto :=
  some ⟨day, "An explanation", "A title", "https://apod.nasa.gov"⟩

/-- A search answered with a photo, and back. -/
def shownSearch (day : String) : List (Event (Option SpacePhoto)) :=
  [.searchDate day, .complete 0 (.response 200 (photoOf day)), .runMain, .back]

/-- A search answered with a body that does not decode. -/
def garbledSearch (day : String) : List (Event (Option SpacePhoto)) :=
  [.searchDate day, .complete 0 (.response 200 none), .runMain]

/-- That session, with every body decoded. -/
theorem detail_shows_answer_iff_shown :
    (machine (fun _ => true) id).Each (OpensAnswer (fun _ => true) id) launch
        (shownSearch "2020-03-09") ↔
      (machine (fun _ => true) id).Each (BodyDecodes id) launch (shownSearch "2020-03-09") :=
  detail_shows_answer_iff (fun _ => true) id (shownSearch "2020-03-09") (by decide)

/-- A search answered with a body that does not decode opens the detail screen on the photo of the
search before it; as the first search of a session it traps on the empty list. -/
theorem detail_shows_earlier_photo :
    ((machine (fun _ => true) id).Legal launch
        (shownSearch "2020-03-09" ++ garbledSearch "2020-03-10") ∧
      ¬ (machine (fun _ => true) id).Each (OpensAnswer (fun _ => true) id) launch
        (shownSearch "2020-03-09" ++ garbledSearch "2020-03-10") ∧
      ((machine (fun _ => true) id).run launch
        (shownSearch "2020-03-09" ++ garbledSearch "2020-03-10")).map
          (fun s => s.detail.map (·.results)) =
            some (some [⟨"2020-03-09", "An explanation", "A title", "https://apod.nasa.gov"⟩])) ∧
    (machine (fun _ => true) id).Legal launch (garbledSearch "2020-03-10") ∧
      (machine (fun _ => true) id).run launch (garbledSearch "2020-03-10") = none := by
  refine ⟨⟨by decide, ?_, by decide⟩, by decide, by decide⟩
  intro h
  obtain ⟨-, h⟩ := (Machine.each_append _ _ _ _ _).mp h
  obtain ⟨-, h⟩ := h _ rfl
  obtain ⟨-, h⟩ := h _ rfl
  obtain ⟨⟨rawData, date, mainQueue, photo, s', hq, -, hdec, -⟩, -⟩ := h _ rfl
  cases hq
  cases hdec

/-! ## The end of a search -/

variable (isURL decode)

/-- The completion handler does not trap. -/
def CompletionSafe (s : Session Data) : Event Data → Prop
  | .complete i outcome => step isURL decode s (.complete i outcome) ≠ none
  | _ => True

/-- No event of the app traps. -/
def NoTrap (s : Session Data) (e : Event Data) : Prop := step isURL decode s e ≠ none

/-- A body parsed is that of a photo, or a photo has been decoded before. -/
def FindsPhoto (s : Session Data) : Event Data → Prop
  | .runMain => ∀ rawData date mainQueue, s.mainQueue = (rawData, date) :: mainQueue →
      (decode rawData).isSome ∨ s.spaceData ≠ []
  | _ => True

/-- With no request outstanding and no `parseJson` call queued, the alert is down. -/
def AlertDown (s : Session Data) : Prop := s.inFlight = [] → s.alert = none

/-- A request ends with a response of status 200. -/
def Answered200 : Event Data → Prop
  | .complete _ outcome => ∃ data, outcome = .response 200 data
  | _ => True

variable {isURL decode}

/-- **The alert after a completion**: it is down or still needed exactly when the request was
answered with status 200. -/
theorem completion_iff {s : Session Data} (hs : Flight s) {i : ℕ} (hi : i < s.requests.length)
    (outcome : Outcome Data) :
    (step isURL decode s (.complete i outcome) ≠ none ∧
        ∀ s', step isURL decode s (.complete i outcome) = some s' → AlertDown s') ↔
      ∃ data, outcome = .response 200 data := by
  obtain ⟨date, -, hq, halert, -, heq⟩ :=
    step_complete isURL decode hs hi outcome
  rw [heq]
  cases outcome with
  | transportError => simp [completionHandler]
  | response statusCode data =>
      by_cases h200 : statusCode = 200
      · subst h200
        simp [completionHandler, AlertDown, inFlight]
      · simp [completionHandler, AlertDown, inFlight, h200, hq, halert]

/-- Events other than completions leave the alert down where nothing is in flight. -/
theorem alertDown_of_not_complete {s s' : Session Data} {e : Event Data} (hs : Flight s)
    (hdown : AlertDown s) (he : s.Offers e) (hne : ∀ i outcome, e ≠ .complete i outcome)
    (hstep : step isURL decode s e = some s') : AlertDown s' := by
  cases e with
  | searchDate date =>
      cases hstep
      rcases searchDate_cases isURL s date with ⟨-, h⟩ | ⟨-, h⟩
      · rw [h]
        intro hnil
        simp [inFlight] at hnil
      · rwa [h]
  | complete i outcome => exact absurd rfl (hne i outcome)
  | runMain =>
      obtain ⟨rawData, date, -, -, -, heq⟩ :=
        step_runMain isURL decode hs he
      rw [heq, parseJson_eq] at hstep
      rcases searchDone_cases _ _ with ⟨-, h⟩ | ⟨photo, rest, -, h⟩
      · rw [h] at hstep
        cases hstep
      · rw [h] at hstep
        cases hstep
        exact fun _ => rfl
  | back =>
      cases hstep
      exact hdown

/-- A run of the main queue traps exactly when the list it is to show is empty. -/
theorem runMain_iff {s : Session Data} (hs : Flight s) (hq : s.mainQueue ≠ []) :
    NoTrap isURL decode s .runMain ↔ FindsPhoto decode s .runMain := by
  obtain ⟨rawData, date, -, hqueue, -, heq⟩ :=
    step_runMain isURL decode hs hq
  have hfinds : FindsPhoto decode s .runMain ↔ ((decode rawData).isSome ∨ s.spaceData ≠ []) := by
    constructor
    · exact fun h => h rawData date [] hqueue
    · intro h rawData' date' mainQueue hq'
      obtain ⟨⟨rfl, rfl⟩, rfl⟩ := by simpa using hqueue.symm.trans hq'
      exact h
  rw [hfinds, NoTrap, heq, parseJson_eq]
  cases hdec : decode rawData with
  | some photo => simp [searchDone, DetailViewController.viewDidLoad]
  | none =>
      cases hdata : s.spaceData with
      | nil => simp [searchDone, DetailViewController.viewDidLoad]
      | cons photo rest => simp [searchDone, DetailViewController.viewDidLoad]

/-- One event, from a state of the flight invariant with the alert where it should be: safe and
followed by such a state iff it is not an answer other than 200. -/
theorem completionSafe_iff {s : Session Data} (hs : Flight s) (hdown : AlertDown s)
    (e : Event Data) (he : s.Offers e) :
    (CompletionSafe isURL decode s e ∧ ∀ s', step isURL decode s e = some s' → AlertDown s') ↔
      Answered200 e := by
  cases e with
  | complete i outcome => exact completion_iff hs he outcome
  | searchDate date =>
      exact iff_of_true ⟨trivial, fun s' => alertDown_of_not_complete hs hdown he (by simp)⟩ trivial
  | runMain =>
      exact iff_of_true ⟨trivial, fun s' => alertDown_of_not_complete hs hdown he (by simp)⟩ trivial
  | back =>
      exact iff_of_true ⟨trivial, fun s' => alertDown_of_not_complete hs hdown he (by simp)⟩ trivial

/-- The same for the app as a whole. -/
theorem noTrap_iff {s : Session Data} (hs : Flight s) (hdown : AlertDown s) (e : Event Data)
    (he : s.Offers e) :
    (NoTrap isURL decode s e ∧ ∀ s', step isURL decode s e = some s' → AlertDown s') ↔
      Answered200 e ∧ FindsPhoto decode s e := by
  cases e with
  | complete i outcome =>
      rw [and_iff_left (show FindsPhoto decode s (.complete i outcome) from trivial)]
      exact completion_iff hs he outcome
  | searchDate date =>
      refine iff_of_true ⟨?_, fun s' => alertDown_of_not_complete hs hdown he (by simp)⟩
        ⟨trivial, trivial⟩
      simp [NoTrap, step]
  | runMain =>
      rw [and_iff_left (fun s' => alertDown_of_not_complete hs hdown he (by simp)),
        and_iff_right (show Answered200 Event.runMain from trivial)]
      exact runMain_iff hs he
  | back =>
      refine iff_of_true ⟨?_, fun s' => alertDown_of_not_complete hs hdown he (by simp)⟩
        ⟨trivial, trivial⟩
      simp [NoTrap, step]

/-- **A search ends exactly along the sessions whose requests are all answered with status 200.**
In every session from launch: the completion handler never traps and the alert is down in every
state with no request outstanding and no `parseJson` call queued, iff every request is answered with
status 200; and nothing else traps either, iff moreover no undecodable body is parsed before a photo
has been decoded. -/
theorem search_ends_iff (isURL : String → Bool) (decode : Data → Option SpacePhoto)
    (events : List (Event Data)) (hlegal : (machine isURL decode).Legal launch events) :
    (((machine isURL decode).Each (CompletionSafe isURL decode) launch events ∧
        (machine isURL decode).Always AlertDown launch events) ↔
      (machine isURL decode).Each (fun _ => Answered200) launch events) ∧
    (((machine isURL decode).Each (NoTrap isURL decode) launch events ∧
        (machine isURL decode).Always AlertDown launch events) ↔
      (machine isURL decode).Each (fun _ => Answered200) launch events ∧
        (machine isURL decode).Each (FindsPhoto decode) launch events) := by
  have hlaunch : AlertDown (launch : Session Data) := fun _ => rfl
  rw [Machine.always_iff_each, and_iff_right hlaunch, ← Machine.each_and, ← Machine.each_and,
    ← Machine.each_and]
  constructor
  · refine Machine.each_congr (I := fun s => Flight s ∧ AlertDown s) ?_ ?_
      ⟨flight_launch, hlaunch⟩ hlegal
    · rintro s e ⟨hs, hdown⟩ he
      exact completionSafe_iff hs hdown e he
    · rintro s e s' ⟨hs, -⟩ he ⟨-, hdown'⟩ hstep
      exact ⟨flight_step hs he hstep, hdown' s' hstep⟩
  · refine Machine.each_congr (I := fun s => Flight s ∧ AlertDown s) ?_ ?_
      ⟨flight_launch, hlaunch⟩ hlegal
    · rintro s e ⟨hs, hdown⟩ he
      exact noTrap_iff hs hdown e he
    · rintro s e s' ⟨hs, -⟩ he ⟨-, hdown'⟩ hstep
      exact ⟨flight_step hs he hstep, hdown' s' hstep⟩

/-- That session, with every body decoded. -/
theorem search_ends_iff_shown :
    (((machine (fun _ => true) id).Each (CompletionSafe (fun _ => true) id) launch
          (shownSearch "2020-03-09") ∧
        (machine (fun _ => true) id).Always AlertDown launch (shownSearch "2020-03-09")) ↔
      (machine (fun _ => true) id).Each (fun _ => Answered200) launch (shownSearch "2020-03-09")) ∧
    (((machine (fun _ => true) id).Each (NoTrap (fun _ => true) id) launch
          (shownSearch "2020-03-09") ∧
        (machine (fun _ => true) id).Always AlertDown launch (shownSearch "2020-03-09")) ↔
      (machine (fun _ => true) id).Each (fun _ => Answered200) launch (shownSearch "2020-03-09") ∧
        (machine (fun _ => true) id).Each (FindsPhoto id) launch (shownSearch "2020-03-09")) :=
  search_ends_iff (fun _ => true) id (shownSearch "2020-03-09") (by decide)

/-- A search answered with status 500 leaves its alert up with nothing in flight, and a search that
gets no response object traps in the completion handler. -/
theorem search_hangs :
    ((machine (fun _ => true) (id : Option SpacePhoto → _)).Legal launch
        [.searchDate "2020-03-09", .complete 0 (.response 500 none)] ∧
      ¬ (machine (fun _ => true) (id : Option SpacePhoto → _)).Always AlertDown launch
        [.searchDate "2020-03-09", .complete 0 (.response 500 none)]) ∧
    (machine (fun _ => true) (id : Option SpacePhoto → _)).Legal launch
        [.searchDate "2020-03-09", .complete 0 .transportError] ∧
      ¬ (machine (fun _ => true) (id : Option SpacePhoto → _)).Each
        (CompletionSafe (fun _ => true) id) launch
        [.searchDate "2020-03-09", .complete 0 .transportError] := by
  refine ⟨⟨by decide, ?_⟩, by decide, ?_⟩
  · rintro ⟨-, h⟩
    obtain ⟨-, h⟩ := h _ rfl
    have hdown := h _ rfl rfl
    cases hdown
  · rintro ⟨-, h⟩
    exact (h _ rfl).1 rfl

end AdvMad.Lab4.Session
