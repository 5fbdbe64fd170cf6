import AdvMad.MTrackerAndroid.MacrosFragment
import AdvMad.Found.Run

/-!
# The macros screen while requests are under way

The two functions of `MacrosFragment` that ask for the document put "Loading..." in the three texts
first (`setLoadingData`). The success listener replaces it where the snapshot maps to data; where it
maps to null, and in the failure listener, nothing does.

* `MacrosScreen` — the fragment shown with its texts, and the requests outstanding, of this fragment
  and of those shown before; they end in any order.
* `brought` — what the events say of the fragment shown: the data brought last since its opening or
  the last tap on refresh. The texts depend on nothing else (`texts_of_run`).
* `settles_of_data` — where every request brings data, "Loading..." is gone once the last one has
  ended.
* `left_as_it_was_iff` — in general it is gone exactly if data has come since the opening or the
  last tap; and when a refresh that brings no data leaves the texts as they were.

A listener looks its texts up in the `root` of its own fragment. A request of a fragment that is no
longer shown leaves the screen alone, and one of a fragment whose view is created again does not.
-/

namespace AdvMad.MTrackerAndroid

open AdvMad.Found

namespace MacrosFragment

/-- Source: `MacrosFragment.kt`, `setLoadingData`. -/
def setLoadingData : Texts := ⟨"Loading...", "Loading...", "Loading..."⟩

/-- The texts after an opening whose request brings the document; `none` where the mapping throws.
Source: `MacrosFragment.kt`, `getDataInitially`. -/
def getDataInitially (document : Document) : Option Texts :=
  (toObject document).map determineWhatToDo

end MacrosFragment

/-- None of the three texts is "Loading...". -/
def Texts.Answered (texts : Texts) : Prop :=
  texts.proteinText ≠ "Loading..." ∧ texts.fatText ≠ "Loading..." ∧ texts.carbText ≠ "Loading..."

/-- The functions that send a request. Source: `MacrosFragment.kt`. -/
inductive Getter
  | getDataInitially
  | getData
deriving DecidableEq, Repr

/-- The texts the success listener of a request sets for a document; `none` where the mapping
throws. -/
def Getter.texts : Getter → Document → Option Texts
  | .getDataInitially, document => MacrosFragment.getDataInitially document
  | .getData, document => (MacrosFragment.getData document).map Prod.snd

/-- A request sent by a fragment. Every call of `get` is a request of its own. -/
structure Request where
  number : ℕ
  fragment : ℕ
  getter : Getter
deriving DecidableEq, Repr

/-- How a request ends: in the success listener, with a document or with none, or in the failure
listener. -/
inductive Outcome
  | success (document : Option Document)
  | failure

/-- The document a request brings: without one the snapshot maps to null. -/
def Outcome.data : Outcome → Option Document
  | .success document => document
  | .failure => none

/-- The view of a fragment. -/
structure View where
  fragment : ℕ
  texts : Texts
deriving DecidableEq, Repr

/-- The macros screen and the requests of its fragments. -/
structure MacrosScreen where
  /-- The view of the fragment shown, once one is open. -/
  shown : Option View
  /-- The requests that have not ended. -/
  requests : List Request
  /-- How many requests have been sent. -/
  sent : ℕ
deriving DecidableEq, Repr

namespace MacrosScreen

/-- What happens to the screen. -/
inductive Event
  /-- The view of a fragment is created and shown. -/
  | onCreateView (fragment : ℕ)
  /-- A tap on the refresh button. -/
  | refresh
  /-- A request ends. -/
  | complete (request : Request) (outcome : Outcome)

/-- Before the first opening. -/
def start : MacrosScreen := ⟨none, [], 0⟩

/-- `setLoadingData` and `get`, which both functions begin with. -/
def load (s : MacrosScreen) (fragment : ℕ) (getter : Getter) : MacrosScreen where
  shown := some ⟨fragment, MacrosFragment.setLoadingData⟩
  requests := ⟨s.sent, fragment, getter⟩ :: s.requests
  sent := s.sent + 1

/-- A fragment sets the texts of its view. -/
def setTexts (s : MacrosScreen) (fragment : ℕ) (texts : Texts) : MacrosScreen :=
  { s with shown := s.shown.map fun v => if v.fragment = fragment then ⟨fragment, texts⟩ else v }

/-- A request ends: with data the success listener sets the texts, otherwise they stay.
Source: `MacrosFragment.kt`, the listeners of `getDataInitially` and `getData`. -/
def complete (s : MacrosScreen) (request : Request) (outcome : Outcome) : Option MacrosScreen :=
  match outcome.data with
  | some document => (request.getter.texts document).map fun texts =>
      { s with requests := s.requests.erase request }.setTexts request.fragment texts
  | none => some { s with requests := s.requests.erase request }

/-- One event; `none` where the mapping throws. Source: `MacrosFragment.kt`, `onCreateView`. -/
def step (s : MacrosScreen) : Event → Option MacrosScreen
  | .onCreateView fragment => some (s.load fragment .getDataInitially)
  | .refresh => some (s.shown.elim s fun v => s.load v.fragment .getData)
  | .complete request outcome => s.complete request outcome

/-- The events a screen offers: the button is on the view, and only a request outstanding ends. -/
def Offers (s : MacrosScreen) : Event → Prop
  | .onCreateView _ => True
  | .refresh => s.shown.isSome
  | .complete request _ => request ∈ s.requests

instance decidableOffers (s : MacrosScreen) : (e : Event) → Decidable (s.Offers e)
  | .onCreateView _ => inferInstanceAs (Decidable True)
  | .refresh => inferInstanceAs (Decidable s.shown.isSome)
  | .complete request _ => inferInstanceAs (Decidable (request ∈ s.requests))

/-- The screen as a machine. -/
def machine : Machine MacrosScreen Event := ⟨step, Offers⟩

instance (s : MacrosScreen) (e : Event) : Decidable (machine.enabled s e) := decidableOffers s e

/-- The texts on the screen. -/
def texts (s : MacrosScreen) : Option Texts := s.shown.map View.texts

/-- With no request outstanding, no text is "Loading...". -/
def Settled (s : MacrosScreen) : Prop := s.requests = [] → ∀ t ∈ s.texts, t.Answered

/-! ## What the events tell of the screen -/

/-- The fragment shown, and the data brought to it. -/
structure Reading where
  fragment : ℕ
  brought : Option (Getter × Document)

/-- Data brought to a fragment. -/
def Reading.bring (x : Reading) (fragment : ℕ) (data : Getter × Document) : Reading :=
  if x.fragment = fragment then ⟨fragment, some data⟩ else x

/-- The texts for the data brought last, if there is any. -/
def textsFor (brought : Option (Getter × Document)) : Texts :=
  (brought.bind fun b => b.1.texts b.2).getD MacrosFragment.setLoadingData

/-- One event read: data for the fragment shown is kept until its next request is sent. -/
def read (x : Option Reading) : Event → Option Reading
  | .onCreateView fragment => some ⟨fragment, none⟩
  | .refresh => x.map fun x => ⟨x.fragment, none⟩
  | .complete request outcome =>
      match outcome.data with
      | some document => x.map fun x => x.bring request.fragment (request.getter, document)
      | none => x

/-- The data brought last to the fragment shown since its opening or the last tap on refresh, and
the function that asked for it. -/
def brought (events : List Event) : Option (Getter × Document) :=
  (events.foldl read none).bind Reading.brought

/-- The data brought maps. -/
def Maps (brought : Option (Getter × Document)) : Prop :=
  ∀ b ∈ brought, ∃ t, b.1.texts b.2 = some t

/-- Where nothing has been brought there is nothing to map. -/
@[simp] theorem maps_none : Maps none := by simp [Maps]

/-- What has been brought maps where it has texts. -/
@[simp] theorem maps_some_iff (b : Getter × Document) :
    Maps (some b) ↔ ∃ t, b.1.texts b.2 = some t := by simp [Maps]

/-- The screen shows what was read, and data that was read maps. -/
structure Follows (s : MacrosScreen) (x : Option Reading) : Prop where
  shown : s.shown = x.map fun x => ⟨x.fragment, textsFor x.brought⟩
  maps : Maps (x.bind Reading.brought)

/-- A request that brings data brings it to its fragment. -/
theorem read_of_data {outcome : Outcome} {document : Document} (h : outcome.data = some document)
    (x : Option Reading) (request : Request) :
    read x (.complete request outcome) =
      x.map fun x => x.bring request.fragment (request.getter, document) := by
  simp only [read, h]

/-- One that brings none changes no reading. -/
theorem read_of_no_data {outcome : Outcome} (h : outcome.data = none) (x : Option Reading)
    (request : Request) : read x (.complete request outcome) = x := by
  simp only [read, h]

/-- On the screen data become texts, or the mapping throws. -/
theorem complete_of_data {outcome : Outcome} {document : Document}
    (h : outcome.data = some document) (s : MacrosScreen) (request : Request) :
    s.complete request outcome = (request.getter.texts document).map fun texts =>
      { s with requests := s.requests.erase request }.setTexts request.fragment texts := by
  unfold complete
  rw [h]

/-- A request without data is under way no more, and that is all. -/
theorem complete_of_no_data {outcome : Outcome} (h : outcome.data = none) (s : MacrosScreen)
    (request : Request) :
    s.complete request outcome = some { s with requests := s.requests.erase request } := by
  unfold complete
  rw [h]

/-- A new request is read as one that has brought nothing. -/
theorem follows_load (s : MacrosScreen) (fragment : ℕ) (getter : Getter) :
    Follows (s.load fragment getter) (some ⟨fragment, none⟩) := by
  constructor
  · rfl
  · simp

/-- New texts are read as the data they are for. -/
theorem follows_setTexts {s : MacrosScreen} {x : Option Reading} (h : Follows s x)
    {getter : Getter} {document : Document} {t : Texts} (ht : getter.texts document = some t)
    (fragment : ℕ) :
    Follows (s.setTexts fragment t) (x.map fun x => x.bring fragment (getter, document)) := by
  rcases x with _ | x
  · have hshown : s.shown = none := h.shown
    constructor
    · simp [setTexts, hshown]
    · simp
  · have hshown : s.shown = some ⟨x.fragment, textsFor x.brought⟩ := h.shown
    by_cases hfragment : x.fragment = fragment
    · constructor
      · simp [setTexts, hshown, Reading.bring, hfragment, textsFor, ht]
      · simp [Reading.bring, hfragment, ht]
    · constructor
      · simp [setTexts, hshown, Reading.bring, hfragment]
      · rw [Option.map_some, Reading.bring, if_neg hfragment]
        exact h.maps

/-- The end of a request is read as what it brings. -/
theorem follows_complete {s s' : MacrosScreen} {x : Option Reading} {request : Request}
    {outcome : Outcome} (h : Follows s x) (hstep : s.complete request outcome = some s') :
    Follows s' (read x (.complete request outcome)) := by
  rcases hdata : outcome.data with _ | document
  · rw [complete_of_no_data hdata, Option.some_inj] at hstep
    subst hstep
    rw [read_of_no_data hdata]
    exact ⟨h.shown, h.maps⟩
  · rw [complete_of_data hdata, Option.map_eq_some_iff] at hstep
    obtain ⟨t, ht, rfl⟩ := hstep
    rw [read_of_data hdata]
    apply follows_setTexts _ ht
    exact ⟨h.shown, h.maps⟩

/-- **One event**: the screen keeps showing what was read. -/
theorem follows_step {s s' : MacrosScreen} {x : Option Reading} {e : Event} (h : Follows s x)
    (hstep : s.step e = some s') : Follows s' (read x e) := by
  cases e with
  | onCreateView fragment =>
      obtain rfl := Option.some_inj.mp hstep
      apply follows_load
  | refresh =>
      obtain rfl := Option.some_inj.mp hstep
      rcases x with _ | x
      · have hshown : s.shown = none := h.shown
        rw [hshown]
        exact h
      · have hshown : s.shown = some ⟨x.fragment, textsFor x.brought⟩ := h.shown
        rw [hshown]
        apply follows_load
  | complete request outcome => exact follows_complete h hstep

/-- **A run**: the same for its events. -/
theorem follows_run {events : List Event} {s : MacrosScreen}
    (hrun : machine.run start events = some s) : Follows s (events.foldl read none) := by
  apply Machine.run_foldl (M := machine) (C := fun _ _ => True) read _ _ _ hrun
  · rintro s x e s' h - hstep
    exact follows_step h hstep
  · exact ⟨rfl, by simp⟩
  · exact Machine.each_of_forall start fun _ _ => trivial

/-- What was brought along a run maps. -/
theorem maps_brought {events : List Event} {s : MacrosScreen}
    (hrun : machine.run start events = some s) : Maps (brought events) := (follows_run hrun).maps

/-- A fragment is shown once one was read. -/
theorem isSome_shown {events : List Event} {s : MacrosScreen}
    (hrun : machine.run start events = some s) :
    s.shown.isSome = (events.foldl read none).isSome := by
  rw [(follows_run hrun).shown, Option.isSome_map]

/-- **The texts after a run** are those for the data brought last. -/
theorem texts_of_run {events : List Event} {s : MacrosScreen}
    (hrun : machine.run start events = some s) (hshown : s.shown.isSome) :
    s.texts = some (textsFor (brought events)) := by
  rw [isSome_shown hrun] at hshown
  obtain ⟨x, hx⟩ := Option.isSome_iff_exists.mp hshown
  unfold texts brought
  rw [(follows_run hrun).shown, hx]
  rfl

/-- A fragment stays open. -/
theorem isSome_foldl_read {x : Option Reading} (h : x.isSome) (events : List Event) :
    (events.foldl read x).isSome := by
  induction events generalizing x with
  | nil => exact h
  | cons e events ih =>
      apply ih
      cases e with
      | onCreateView fragment => rfl
      | refresh => simpa [read] using h
      | complete request outcome =>
          rcases hdata : outcome.data with _ | document
          · rwa [read_of_no_data hdata]
          · rw [read_of_data hdata]
            simpa using h

/-! ## Which texts are left -/

/-- Amounts and "Add Data" are answers. -/
theorem answered_setStartState : MacrosFragment.setStartState.Answered := by
  unfold Texts.Answered MacrosFragment.setStartState
  decide

/-- A screen that shows amounts is answered. -/
theorem answered_setData (macroData : MacroData) : (MacrosFragment.setData macroData).Answered := by
  have hne : ∀ n : ℤ, toString n ++ "g" ≠ "Loading..." := MacrosFragment.amount_ne (by decide)
  exact ⟨hne _, hne _, hne _⟩

/-- **Data is always answered.** -/
theorem answered_of_texts {getter : Getter} {document : Document} {t : Texts}
    (h : getter.texts document = some t) : t.Answered := by
  cases getter with
  | getDataInitially =>
      simp only [Getter.texts, MacrosFragment.getDataInitially, Option.map_eq_some_iff] at h
      obtain ⟨data, -, rfl⟩ := h
      unfold MacrosFragment.determineWhatToDo
      split
      · exact answered_setStartState
      · apply answered_setData
  | getData =>
      change (MacrosFragment.getData document).map Prod.snd = some t at h
      rcases hdocument : toObject document with _ | data
      · rw [MacrosFragment.getData, hdocument] at h
        simp at h
      · rcases hcalc : calculateData Double data with _ | m
        · rw [getData_of_none hdocument hcalc] at h
          obtain rfl := Option.some_inj.mp h
          exact answered_setStartState
        · rw [getData_of_some hdocument hcalc] at h
          obtain rfl := Option.some_inj.mp h
          apply answered_setData

/-- With no data brought the texts are "Loading...", with data they are not. -/
theorem answered_textsFor_iff {b : Option (Getter × Document)} (hb : Maps b) :
    (textsFor b).Answered ↔ b.isSome := by
  rcases b with _ | b
  · refine iff_of_false ?_ (by simp)
    intro h
    exact h.1 rfl
  · obtain ⟨t, ht⟩ := hb b rfl
    refine iff_of_true ?_ rfl
    simp only [textsFor, Option.bind_some, ht, Option.getD_some]
    exact answered_of_texts ht

/-- Data was brought at both times, to the same texts, or at neither. -/
def SameData (b b' : Option (Getter × Document)) : Prop :=
  b.isSome = b'.isSome ∧ ∀ x ∈ b, ∀ y ∈ b', x.1.texts x.2 = y.1.texts y.2

/-- The texts are the same exactly for the same data. -/
theorem textsFor_eq_iff {b b' : Option (Getter × Document)} (hb : Maps b) (hb' : Maps b') :
    textsFor b' = textsFor b ↔ SameData b b' := by
  constructor
  · intro heq
    have hanswered := (answered_textsFor_iff hb').symm.trans (heq ▸ answered_textsFor_iff hb)
    refine ⟨Bool.eq_iff_iff.mpr hanswered.symm, ?_⟩
    rintro x rfl y rfl
    obtain ⟨t, ht⟩ := hb x rfl
    obtain ⟨t', ht'⟩ := hb' y rfl
    simp only [textsFor, Option.bind_some, ht, ht', Option.getD_some] at heq
    rw [ht, ht', heq]
  · rintro ⟨hsome, hsame⟩
    rcases b with _ | x
    · obtain rfl : b' = none := by simpa using hsome.symm
      rfl
    · obtain ⟨y, rfl⟩ := Option.isSome_iff_exists.mp hsome.symm
      simp only [textsFor, Option.bind_some, hsame x rfl y rfl]

/-- The fragment shown has an answer or a request under way. -/
def Awaits (s : MacrosScreen) : Prop :=
  ∀ v ∈ s.shown, v.texts.Answered ∨ ∃ r ∈ s.requests, r.fragment = v.fragment

/-- A new request is under way. -/
theorem awaits_load (s : MacrosScreen) (fragment : ℕ) (getter : Getter) :
    (s.load fragment getter).Awaits := by
  rintro v hv
  obtain rfl := Option.some_inj.mp hv
  exact Or.inr ⟨_, List.mem_cons_self, rfl⟩

/-- A request that brings data is an answer. -/
theorem awaits_complete {s s' : MacrosScreen} {request : Request} {outcome : Outcome}
    (h : s.Awaits) (hdata : outcome.data ≠ none) (hstep : s.complete request outcome = some s') :
    s'.Awaits := by
  obtain ⟨document, hdocument⟩ := Option.ne_none_iff_exists'.mp hdata
  rw [complete_of_data hdocument, Option.map_eq_some_iff] at hstep
  obtain ⟨t, ht, rfl⟩ := hstep
  intro v' hv'
  obtain ⟨v, hv, rfl⟩ := Option.map_eq_some_iff.mp hv'
  by_cases hfragment : v.fragment = request.fragment
  · rw [if_pos hfragment]
    exact Or.inl (answered_of_texts ht)
  · rw [if_neg hfragment]
    refine (h v hv).imp_right ?_
    rintro ⟨r, hr, hfrom⟩
    refine ⟨r, ?_, hfrom⟩
    -- the request that has ended is another fragment's
    apply (List.mem_erase_of_ne _).mpr hr
    rintro rfl
    exact hfragment hfrom.symm

/-- **One event** keeps it so, if it is not the end of a request without data. -/
theorem awaits_step {s s' : MacrosScreen} {e : Event} (h : s.Awaits)
    (hdata : ∀ request outcome, e = .complete request outcome → outcome.data ≠ none)
    (hstep : s.step e = some s') : s'.Awaits := by
  cases e with
  | onCreateView fragment =>
      obtain rfl := Option.some_inj.mp hstep
      apply awaits_load
  | refresh =>
      obtain rfl := Option.some_inj.mp hstep
      rcases hshown : s.shown with _ | v
      · exact h
      · apply awaits_load
  | complete request outcome => exact awaits_complete h (hdata request outcome rfl) hstep

/-- **Where every request brings data** the screen settles: along every list of events, "Loading..."
is gone whenever no request is outstanding. -/
theorem settles_of_data {events : List Event}
    (hdata : ∀ request outcome, .complete request outcome ∈ events → outcome.data ≠ none) :
    machine.Always Settled start events := by
  have hsteps : machine.Each (fun _ e => ∀ request outcome, e = .complete request outcome →
      outcome.data ≠ none) start events := by
    apply Machine.each_of_forall
    rintro e he request outcome rfl
    exact hdata request outcome he
  have hawaits : machine.Always Awaits start events := by
    apply Machine.always_of_each _ _ hsteps
    · intro s e s' hs he hstep
      exact awaits_step hs he hstep
    · simp [Awaits, start]
  apply hawaits.mono
  intro s hs hquiet t ht
  obtain ⟨v, hv, rfl⟩ := Option.map_eq_some_iff.mp ht
  rcases hs v hv with hanswered | ⟨r, hr, -⟩
  · exact hanswered
  · rw [hquiet] at hr
    simp at hr

/-- Two requests that overlap, the later one answered first. -/
theorem settles_of_data_overlapping :
    machine.Always Settled start [.onCreateView 0, .refresh,
      .complete ⟨1, 0, .getData⟩ (.success (some agedDocument)),
      .complete ⟨0, 0, .getDataInitially⟩ (.success (some agedDocument))] := by
  apply settles_of_data
  intro request outcome hmem
  simp only [List.mem_cons, reduceCtorEq, Event.complete.injEq, false_or, List.not_mem_nil,
    or_false] at hmem
  rcases hmem with ⟨-, rfl⟩ | ⟨-, rfl⟩ <;> simp [Outcome.data]

/-- A screen is settled exactly if data has come whenever nothing is outstanding. -/
theorem settled_iff {events : List Event} {s : MacrosScreen}
    (hrun : machine.run start events = some s) :
    s.Settled ↔ (s.requests = [] → s.shown.isSome → (brought events).isSome) := by
  rw [← answered_textsFor_iff (maps_brought hrun)]
  unfold Settled
  refine imp_congr_right fun _ => ?_
  constructor
  · intro h hshown
    exact h _ (texts_of_run hrun hshown)
  · intro h t ht
    have hshown : s.shown.isSome := by
      rw [← Option.isSome_map, ← texts, ht]
      rfl
    rw [texts_of_run hrun hshown, Option.mem_some_iff] at ht
    exact ht ▸ h hshown

/-- The texts are the same after more events exactly if the data brought last is. -/
theorem texts_eq_iff {before after : List Event} {s s' : MacrosScreen}
    (hrun : machine.run start before = some s) (hshown : s.shown.isSome)
    (hrun' : machine.run start (before ++ after) = some s') :
    s'.texts = s.texts ↔ SameData (brought before) (brought (before ++ after)) := by
  have hshown' : s'.shown.isSome := by
    rw [isSome_shown hrun', List.foldl_append]
    apply isSome_foldl_read
    rwa [← isSome_shown hrun]
  rw [texts_of_run hrun hshown, texts_of_run hrun' hshown', Option.some_inj,
    textsFor_eq_iff (maps_brought hrun) (maps_brought hrun')]

/-- The events of `h` end with the end, without data, of the request of a refresh that was tapped
after the events `before`, while no request was outstanding. -/
def InVain (before h : List Event) : Prop :=
  ∃ s v between outcome, machine.run start before = some s ∧ s.shown = some v ∧ s.requests = [] ∧
    outcome.data = none ∧
    h = before ++ .refresh :: (between ++ [.complete ⟨s.sent, v.fragment, .getData⟩ outcome])

/-- The texts are the same after it exactly if the data brought last is. -/
theorem InVain.texts_eq_iff {before h : List Event} (hvain : InVain before h) :
    ∃ s, machine.run start before = some s ∧ ∀ s', machine.run start h = some s' →
      (s'.texts = s.texts ↔ SameData (brought before) (brought h)) := by
  obtain ⟨s, v, between, outcome, hrun, hshown, -, -, rfl⟩ := hvain
  refine ⟨s, hrun, fun s' hrun' => ?_⟩
  apply MacrosScreen.texts_eq_iff hrun _ hrun'
  rw [hshown]
  rfl

/-- **When a screen is left as it was.** Over every list of events: in every state reached with no
request outstanding none of the texts is "Loading...", iff in each of them a request of the fragment
shown has brought data since the opening or the last tap on refresh; and every refresh tapped with
no request outstanding whose request ends without data leaves the texts as they were before the tap,
iff the data brought last since the opening or the last tap is then the same as before the tap. -/
theorem left_as_it_was_iff (events : List Event) :
    (machine.Always Settled start events ↔
      ∀ h s, h <+: events → machine.run start h = some s → s.requests = [] → s.shown.isSome →
        (brought h).isSome) ∧
    ((∀ before h s s', h <+: events → InVain before h → machine.run start before = some s →
        machine.run start h = some s' → s'.texts = s.texts) ↔
      ∀ before h s', h <+: events → InVain before h → machine.run start h = some s' →
        SameData (brought before) (brought h)) := by
  constructor
  · rw [Machine.always_iff_prefix]
    constructor
    · intro hall h s hprefix hrun
      exact (settled_iff hrun).mp (hall h hprefix s hrun)
    · intro hall h hprefix s hrun
      exact (settled_iff hrun).mpr (hall h s hprefix hrun)
  · constructor
    · intro hall before h s' hprefix hvain hrun'
      obtain ⟨s, hrun, hiff⟩ := hvain.texts_eq_iff
      exact (hiff s' hrun').mp (hall before h s s' hprefix hvain hrun hrun')
    · intro hall before h s s' hprefix hvain hrun hrun'
      obtain ⟨s₁, hrun₁, hiff⟩ := hvain.texts_eq_iff
      obtain rfl := Option.some_inj.mp (hrun.symm.trans hrun₁)
      exact (hiff s' hrun').mpr (hall before h s' hprefix hvain hrun')

/-- An opening answered with a document, a tap on refresh, and the end of its request. -/
def openedAndRefreshed (outcome : Outcome) : List Event :=
  [.onCreateView 0, .complete ⟨0, 0, .getDataInitially⟩ (.success (some agedDocument)), .refresh,
    .complete ⟨1, 0, .getData⟩ outcome]

/-- The screen shows "-404g" three times with no request outstanding; after a refresh that fails, or
finds no document, no request is outstanding either and it shows "Loading..." three times. -/
theorem loading_stays :
    machine.run start ((openedAndRefreshed .failure).take 2) =
        some ⟨some ⟨0, "-404g", "-404g", "-404g"⟩, [], 1⟩ ∧
      machine.Legal start (openedAndRefreshed .failure) ∧
      machine.run start (openedAndRefreshed .failure) =
        some ⟨some ⟨0, "Loading...", "Loading...", "Loading..."⟩, [], 2⟩ ∧
      machine.Legal start (openedAndRefreshed (.success none)) ∧
      machine.run start (openedAndRefreshed (.success none)) =
        some ⟨some ⟨0, "Loading...", "Loading...", "Loading..."⟩, [], 2⟩ := by
  refine ⟨?_, ?_, ?_, ?_, ?_⟩ <;> decide +kernel

end MacrosScreen

end AdvMad.MTrackerAndroid
