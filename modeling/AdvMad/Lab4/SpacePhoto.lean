import Mathlib.Data.Int.Notation
import AdvMad.Found.Rows
import AdvMad.Found.Run

/-!
# Lab 4: a SpacePhoto session

The search screen (`ViewController`), the data controller that asks the photo service
(`SpacePhotoDataController`) and the detail screen it opens, as one machine. A search starts a
request and puts an alert up; the request completes on a background queue and, when the status is
200, dispatches a `parseJson` call to the main queue; `parseJson` notifies the search screen, which
takes the alert down and opens the detail screen on the list it was handed.

* `Session` — the two lists, the alert, the detail screen, the requests outstanding and the
  `parseJson` calls queued.
* `inFlight` / `Flight` — what is on its way, and the invariant about it: at most one search is,
  and while one is, its alert is up and no detail screen is open (`flight_step`).

Scope: `URL(string:)` and `JSONDecoder` are parameters (`isURL` on the date put into the address,
`decode` on the body); the image link of the detail screen is not modelled. The alert is modal and
the detail screen covers the search button, so a search starts only when neither is on screen.
-/

namespace AdvMad.Lab4

open AdvMad.Found

/-- A photo as the service describes it. Source: `SpacePhotoData.swift`, `SpacePhoto`. -/
structure SpacePhoto where
  date : String
  explanation : String
  title : String
  url : String
deriving DecidableEq, Repr

/-- Source: `SpacePhotoDataController.swift`, `JSONError`. -/
inductive JSONError
  | BadURL
  | BadResponse
  | CouldNotParse
deriving DecidableEq, Repr

/-- How a data task ends: with an HTTP response and its body, or without a response object. -/
inductive Outcome (Data : Type)
  | response (statusCode : ℤ) (data : Data)
  | transportError
deriving DecidableEq

/-- The detail screen once its view is loaded. Source: `DetailViewController.swift`. -/
structure DetailViewController where
  results : List SpacePhoto
  titleLabel : String
  dateLabel : String
  descriptionLabel : String
deriving DecidableEq, Repr

/-- `results[0]` fills the three labels, a trap on an empty list.
Source: `DetailViewController.swift`, `viewDidLoad`. -/
def DetailViewController.viewDidLoad (results : List SpacePhoto) : Option DetailViewController := do
  let photo ← results[0]?
  some { results := results, titleLabel := photo.title, dateLabel := photo.date,
         descriptionLabel := photo.explanation }

/-- The state of the app. -/
structure Session (Data : Type) where
  /-- `spacePhotoDataController.spaceData.data`. -/
  spaceData : List SpacePhoto
  /-- `data` of the search screen. -/
  data : List SpacePhoto
  /-- The message of the alert, while it is on screen. -/
  alert : Option String
  /-- The detail screen, while it is on the navigation stack. -/
  detail : Option DetailViewController
  /-- The dates of the data tasks that have not completed. -/
  requests : List String
  /-- The `parseJson` calls dispatched to the main queue: the body and the date searched. -/
  mainQueue : List (Data × String)
deriving DecidableEq

namespace Session

variable {Data : Type}

/-- The app after launch. -/
def launch : Session Data := ⟨[], [], none, none, [], []⟩

/-- The text of the alert. Source: `ViewController.swift`, `searchDate`. -/
def message (searchDate : String) : String := "Searching with " ++ searchDate ++ "..."

variable (isURL : String → Bool) (decode : Data → Option SpacePhoto)

/-- Start a data task for the date. Source: `SpacePhotoDataController.swift`, `loadJSON`. -/
def loadJSON (s : Session Data) (date : String) : Except JSONError (Session Data) :=
  if isURL date then .ok { s with requests := s.requests ++ [date] } else .error .BadURL

/-- The button of the search screen. Source: `ViewController.swift`, `searchDate`. -/
def searchDate (s : Session Data) (date : String) : Session Data :=
  match s.loadJSON isURL date with
  | .ok s' => { s' with alert := some (message date) }
  | .error _ => s

/-- The completion handler of the data task for `date`: without a response object the forced cast
`response as! HTTPURLResponse` traps, and a status other than 200 returns early.
Source: `SpacePhotoDataController.swift`, `loadJSON`, the completion handler. -/
def completionHandler (s : Session Data) (date : String) : Outcome Data → Option (Session Data)
  | .response statusCode data =>
      if statusCode = 200 then some { s with mainQueue := s.mainQueue ++ [(data, date)] }
      else some s
  | .transportError => none

/-- Take the alert down and open the detail screen on the list handed over.
Source: `ViewController.swift`, `searchDone` and `prepare(for:sender:)`. -/
def searchDone (s : Session Data) (spaceData : List SpacePhoto) : Option (Session Data) := do
  let detailVC ← DetailViewController.viewDidLoad spaceData
  some { s with alert := none, data := spaceData, detail := some detailVC }

/-- Decode the body and notify the search screen, with the old list when the body does not decode.
Source: `SpacePhotoDataController.swift`, `parseJson`. -/
def parseJson (s : Session Data) (rawData : Data) : Option (Session Data) :=
  let spaceData := match decode rawData with
    | some parsedData => [parsedData]
    | none => s.spaceData
  searchDone { s with spaceData := spaceData } spaceData

/-- What happens to the app. -/
inductive Event (Data : Type)
  /-- A tap on the search button with a date chosen. -/
  | searchDate (date : String)
  /-- The `i`-th outstanding data task ends. -/
  | complete (i : ℕ) (outcome : Outcome Data)
  /-- The main queue runs the first `parseJson` call. -/
  | runMain
  /-- Back from the detail screen. -/
  | back
deriving DecidableEq

/-- One event. -/
def step (s : Session Data) : Event Data → Option (Session Data)
  | .searchDate date => some (s.searchDate isURL date)
  | .complete i outcome => do
      let date ← s.requests[i]?
      completionHandler { s with requests := s.requests.eraseIdx i } date outcome
  | .runMain =>
      match s.mainQueue with
      | (rawData, _) :: mainQueue => parseJson decode { s with mainQueue := mainQueue } rawData
      | [] => some s
  | .back => some { s with detail := none }

/-- When an event can happen. -/
def Offers (s : Session Data) : Event Data → Prop
  | .searchDate _ => s.alert = none ∧ s.detail = none
  | .complete i _ => i < s.requests.length
  | .runMain => s.mainQueue ≠ []
  | .back => s.detail ≠ none

instance decidableOffers [DecidableEq Data] (s : Session Data) :
    (e : Event Data) → Decidable (s.Offers e)
  | .searchDate _ => inferInstanceAs (Decidable (s.alert = none ∧ s.detail = none))
  | .complete i _ => inferInstanceAs (Decidable (i < s.requests.length))
  | .runMain => inferInstanceAs (Decidable (s.mainQueue ≠ []))
  | .back => inferInstanceAs (Decidable (s.detail ≠ none))

/-- The app as a machine. -/
def machine : Machine (Session Data) (Event Data) := ⟨step isURL decode, Offers⟩

instance [DecidableEq Data] (s : Session Data) (e : Event Data) :
    Decidable ((machine isURL decode).enabled s e) := decidableOffers s e

/-! ## What is in flight -/

/-- The dates of the searches under way: outstanding at the service or queued for parsing. -/
def inFlight (s : Session Data) : List String := s.requests ++ s.mainQueue.map Prod.snd

/-- **The flight invariant**: nothing is under way, or one search is, its alert is up and no detail
screen is open. -/
def Flight (s : Session Data) : Prop :=
  s.inFlight = [] ∨ ∃ date, s.inFlight = [date] ∧ s.alert = some (message date) ∧ s.detail = none

/-- At launch no request is under way. -/
theorem flight_launch : Flight (launch : Session Data) := Or.inl rfl

variable {isURL decode}

/-- With the alert down nothing is in flight. -/
theorem Flight.eq_nil {s : Session Data} (hs : Flight s) (h : s.alert = none) :
    s.inFlight = [] := by
  rcases hs with hs | ⟨date, -, halert, -⟩
  · exact hs
  · rw [h] at halert
    simp at halert

/-- An outstanding request is the only thing in flight. -/
theorem Flight.of_request {s : Session Data} (hs : Flight s) {i : ℕ} (hi : i < s.requests.length) :
    ∃ date, i = 0 ∧ s.requests = [date] ∧ s.mainQueue = [] ∧ s.alert = some (message date) ∧
      s.detail = none := by
  have hne : s.requests ≠ [] := List.ne_nil_of_length_pos (by omega)
  rcases hs with hs | ⟨date, hflight, halert, hdetail⟩
  · exact absurd (List.append_eq_nil_iff.mp hs).1 hne
  · rcases List.append_eq_singleton_iff.mp hflight with ⟨h, -⟩ | ⟨h₁, h₂⟩
    · exact absurd h hne
    · rw [h₁, List.length_singleton] at hi
      exact ⟨date, by omega, h₁, List.map_eq_nil_iff.mp h₂, halert, hdetail⟩

/-- A queued `parseJson` call is the only thing in flight. -/
theorem Flight.of_queue {s : Session Data} (hs : Flight s) (hq : s.mainQueue ≠ []) :
    ∃ rawData date, s.requests = [] ∧ s.mainQueue = [(rawData, date)] ∧
      s.alert = some (message date) ∧ s.detail = none := by
  rcases hs with hs | ⟨date, hflight, halert, hdetail⟩
  · exact absurd (List.map_eq_nil_iff.mp (List.append_eq_nil_iff.mp hs).2) hq
  · rcases List.append_eq_singleton_iff.mp hflight with ⟨h₁, h₂⟩ | ⟨-, h⟩
    · obtain ⟨⟨rawData, date'⟩, hrest, rfl⟩ := List.map_eq_singleton_iff.mp h₂
      exact ⟨rawData, date', h₁, hrest, halert, hdetail⟩
    · exact absurd (List.map_eq_nil_iff.mp h) hq

/-! ### One event, from a state of the invariant -/

/-- A search: a request and its alert, or nothing at all when the address is no URL. -/
theorem searchDate_cases (isURL : String → Bool) (s : Session Data) (date : String) :
    (isURL date = true ∧ s.searchDate isURL date =
      { s with requests := s.requests ++ [date], alert := some (message date) }) ∨
    (isURL date = false ∧ s.searchDate isURL date = s) := by
  unfold searchDate loadJSON
  cases h : isURL date with
  | true => exact Or.inl ⟨rfl, rfl⟩
  | false => exact Or.inr ⟨rfl, rfl⟩

/-- A completion: the only request is gone, and its body is queued when the status is 200. -/
theorem step_complete (isURL : String → Bool) (decode : Data → Option SpacePhoto)
    {s : Session Data} (hs : Flight s) {i : ℕ} (hi : i < s.requests.length)
    (outcome : Outcome Data) :
    ∃ date, s.requests = [date] ∧ s.mainQueue = [] ∧ s.alert = some (message date) ∧
      s.detail = none ∧ step isURL decode s (.complete i outcome) =
        completionHandler { s with requests := [] } date outcome := by
  obtain ⟨date, rfl, hreq, hq, halert, hdetail⟩ := hs.of_request hi
  refine ⟨date, hreq, hq, halert, hdetail, ?_⟩
  simp only [step, hreq, List.getElem?_cons_zero, List.eraseIdx_cons_zero, Option.bind_eq_bind,
    Option.bind_some]

/-- A run of the main queue: the only queued body is parsed. -/
theorem step_runMain (isURL : String → Bool) (decode : Data → Option SpacePhoto)
    {s : Session Data} (hs : Flight s) (hq : s.mainQueue ≠ []) :
    ∃ rawData date, s.requests = [] ∧ s.mainQueue = [(rawData, date)] ∧
      s.alert = some (message date) ∧
      step isURL decode s .runMain = parseJson decode { s with mainQueue := [] } rawData := by
  obtain ⟨rawData, date, hreq, hqueue, halert, -⟩ := hs.of_queue hq
  refine ⟨rawData, date, hreq, hqueue, halert, ?_⟩
  simp only [step, hqueue]

/-- The list the search screen is handed: the photo of the body, or the list as it was. -/
theorem parseJson_eq (s : Session Data) (rawData : Data) :
    parseJson decode s rawData =
      searchDone { s with spaceData := ((decode rawData).map fun p => [p]).getD s.spaceData }
        (((decode rawData).map fun p => [p]).getD s.spaceData) := by
  unfold parseJson
  cases decode rawData <;> rfl

/-- The search screen done: it opens the detail screen on the list, and traps on an empty one. -/
theorem searchDone_cases (s : Session Data) (spaceData : List SpacePhoto) :
    (spaceData = [] ∧ s.searchDone spaceData = none) ∨
    ∃ photo rest, spaceData = photo :: rest ∧ s.searchDone spaceData = some { s with
      alert := none
      data := spaceData
      detail := some ⟨spaceData, photo.title, photo.date, photo.explanation⟩ } := by
  cases spaceData with
  | nil => exact Or.inl ⟨rfl, rfl⟩
  | cons photo rest => exact Or.inr ⟨photo, rest, rfl, rfl⟩

/-- A body that decodes: the detail screen opens on its photo, and both lists hold just it. -/
theorem parseJson_of_decodes (s : Session Data) {rawData : Data} {photo : SpacePhoto}
    (h : decode rawData = some photo) :
    parseJson decode s rawData = some { s with
      spaceData := [photo]
      data := [photo]
      alert := none
      detail := some ⟨[photo], photo.title, photo.date, photo.explanation⟩ } := by
  rw [parseJson_eq, h]
  rfl

/-- A search finds nothing in flight, and is all there is afterwards. -/
theorem flight_searchDate {s : Session Data} (hs : Flight s) (halert : s.alert = none)
    (hdetail : s.detail = none) (date : String) : Flight (s.searchDate isURL date) := by
  obtain ⟨hreq, hq⟩ := List.append_eq_nil_iff.mp (hs.eq_nil halert)
  rcases searchDate_cases isURL s date with ⟨-, h⟩ | ⟨-, h⟩
  · rw [h]
    refine Or.inr ⟨date, ?_, rfl, hdetail⟩
    simp only [inFlight, hreq, hq, List.nil_append, List.append_nil]
  · rw [h]
    exact hs

/-- A completion queues a body or leaves nothing in flight. -/
theorem flight_complete {s s' : Session Data} (hs : Flight s) {i : ℕ} (hi : i < s.requests.length)
    {outcome : Outcome Data} (hstep : step isURL decode s (.complete i outcome) = some s') :
    Flight s' := by
  obtain ⟨date, -, hq, halert, hdetail, heq⟩ := step_complete isURL decode hs hi outcome
  rw [heq] at hstep
  cases outcome with
  | transportError => simp [completionHandler] at hstep
  | response statusCode data =>
      by_cases hstatus : statusCode = 200
      · simp only [completionHandler, if_pos hstatus] at hstep
        obtain rfl := Option.some_inj.mp hstep
        refine Or.inr ⟨date, ?_, halert, hdetail⟩
        simp only [inFlight, hq, List.nil_append, List.map_cons, List.map_nil]
      · simp only [completionHandler, if_neg hstatus] at hstep
        obtain rfl := Option.some_inj.mp hstep
        left
        simp only [inFlight, hq, List.map_nil, List.append_nil]

/-- A `parseJson` call leaves nothing in flight. -/
theorem flight_runMain {s s' : Session Data} (hs : Flight s) (hq : s.mainQueue ≠ [])
    (hstep : step isURL decode s .runMain = some s') : Flight s' := by
  obtain ⟨rawData, date, hreq, -, -, heq⟩ := step_runMain isURL decode hs hq
  rw [heq, parseJson_eq] at hstep
  rcases searchDone_cases _ _ with ⟨-, h⟩ | ⟨photo, rest, -, h⟩
  · rw [h] at hstep
    simp at hstep
  · rw [h] at hstep
    obtain rfl := Option.some_inj.mp hstep
    left
    simp only [inFlight, hreq, List.map_nil, List.append_nil]

/-- **Every event keeps the flight invariant**, a failed completion included. -/
theorem flight_step {s s' : Session Data} {e : Event Data} (hs : Flight s) (he : s.Offers e)
    (hstep : step isURL decode s e = some s') : Flight s' := by
  cases e with
  | searchDate date =>
      obtain rfl := Option.some_inj.mp hstep
      exact flight_searchDate hs he.1 he.2 date
  | complete i outcome => exact flight_complete hs he hstep
  | runMain => exact flight_runMain hs he hstep
  | back =>
      cases hstep
      rcases hs with hs | ⟨date, hflight, halert, -⟩
      · exact Or.inl hs
      · exact Or.inr ⟨date, hflight, halert, rfl⟩

end Session

end AdvMad.Lab4
