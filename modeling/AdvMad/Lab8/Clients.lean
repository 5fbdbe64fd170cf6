import AdvMad.Found.Backend
import AdvMad.Lab8.Dogs
import Mathlib.Logic.Function.Basic

/-!
# Lab 8: many clients and one favourite dog

The document is the same for everyone who runs the app. A Save and a Delete overwrite both of its
fields, and arrive in their own time or never; a get of the favourite screen brings some version of
the document, or what the client itself has on its way.

* `System` — the document behind the network, and the screen of every client.
* `Origin` — where a version comes from: it was there, it is one Save, or it is one Delete.
* `Whole` — the invariant: that holds of all versions and of all updates under way, and a favourite
  screen is loading, shows no dog, or shows one version. `whole_step`: every event keeps it.
* `favorites_are_whole` — over every run of any number of clients: the type and the fluffiness on a
  screen come from one and the same Save, and Delete is armed exactly where a dog is shown.

A Save that throws ends the process of its client, and nobody else's; so does the mapping of a
document whose number is no `Int`, as it can be in the one there at the beginning.
-/

namespace AdvMad.Lab8

open AdvMad.Found

/-- What a Save sends, if anything; `none` where it throws. Source: `AddDataFragment.kt`,
`sendData`. -/
def AddDataFragment.update (dogType fluffiness : String) : Option (Option Document) :=
  if fluffiness.isEmpty ∨ dogType.isEmpty then some none
  else (toInt fluffiness).map fun n => some ⟨.value dogType, .value n⟩

/-- A Save is its update. -/
theorem AddDataFragment.sendData_eq (dogType fluffiness : String) (document : Document) :
    sendData dogType fluffiness document =
      (update dogType fluffiness).map fun u => u.getD document := by
  unfold sendData update
  split
  · rfl
  · cases toInt fluffiness <;> rfl

/-- What a Delete sends, if anything. Source: `FavoriteFragment.kt`, `delete`. -/
def FavoriteFragment.update (f : FavoriteFragment) : Option Document :=
  if f.noData then none else some ⟨.value "", .value (-1)⟩

/-- A Delete is its update. -/
theorem FavoriteFragment.delete_eq (f : FavoriteFragment) (document : Document) :
    f.delete document = (if f.noData then f else setNoData, f.update.getD document) := by
  unfold delete update
  cases f.noData <;> rfl

/-- A favourite screen, and whether its get is under way. -/
structure Screen where
  fragment : FavoriteFragment
  getting : Bool
deriving DecidableEq, Repr

/-- The document and the clients. -/
structure System where
  backend : Backend Document Document
  /-- The favourite screen of a client, `none` while it shows the add screen. -/
  screens : ℕ → Option Screen

namespace System

/-- What happens. -/
inductive Event
  /-- A tap on Save, with the two texts. -/
  | save (client : ℕ) (dogType fluffiness : String)
  | openFavorite (client : ℕ)
  /-- The other tab. -/
  | openAdd (client : ℕ)
  /-- The get of a client succeeds with a version of the document. -/
  | success (client version : ℕ)
  /-- The get fails, or there is no document. -/
  | failure (client : ℕ)
  /-- A tap on Delete. -/
  | delete (client : ℕ)
  /-- The `i`-th update under way reaches the document. -/
  | apply (i : ℕ)
  /-- It never will. -/
  | refuse (i : ℕ)
deriving DecidableEq, Repr

/-- A document and no client. -/
def start (document : Document) : System := ⟨.start document, fun _ => none⟩

/-- An update overwrites both fields. -/
def overwrite (_ update : Document) : Document := update

/-- The screen of a client becomes another. -/
def setScreen (s : System) (client : ℕ) (screen : Option Screen) : System :=
  { s with screens := Function.update s.screens client screen }

/-- The screen of the client becomes the other. -/
@[simp] theorem setScreen_screens_self (s : System) (client : ℕ) (screen : Option Screen) :
    (s.setScreen client screen).screens client = screen := Function.update_self ..

/-- The screens of the other clients stay. -/
theorem setScreen_screens_of_ne (s : System) {client c : ℕ} (h : c ≠ client)
    (screen : Option Screen) : (s.setScreen client screen).screens c = s.screens c :=
  Function.update_of_ne h ..

/-- An update is sent, if there is one. -/
def send (s : System) (client : ℕ) (update : Option Document) : System :=
  { s with backend := s.backend.send? client update }

/-- One event. A Save or a mapping that throws ends the process of its client. Source:
`AddDataFragment.kt`; `FavoriteFragment.kt`; `MainActivity.kt`. -/
def handle (s : System) : Event → System
  | .save client dogType fluffiness =>
      match AddDataFragment.update dogType fluffiness with
      | some update => s.send client update
      | none => s.setScreen client none
  | .openFavorite client => s.setScreen client (some ⟨FavoriteFragment.onCreateView, true⟩)
  | .openAdd client => s.setScreen client none
  | .success client version =>
      match s.screens client, s.backend.view overwrite client version with
      | some screen, some document =>
          s.setScreen client ((screen.fragment.getData document).map fun f => ⟨f, false⟩)
      | _, _ => s
  | .failure client =>
      match s.screens client with
      | some screen => s.setScreen client (some { screen with getting := false })
      | none => s
  | .delete client =>
      match s.screens client with
      | some screen =>
          (s.send client screen.fragment.update).setScreen client
            (some { screen with fragment := (screen.fragment.delete s.backend.document).1 })
      | none => s
  | .apply i => { s with backend := s.backend.apply overwrite i }
  | .refuse i => { s with backend := s.backend.refuse i }

/-- What can happen: the buttons of the screen shown, an answer to a get under way with a version of
the document, and the arrival or loss of an update under way. -/
def Offers (s : System) : Event → Prop
  | .save client _ _ => s.screens client = none
  | .openFavorite _ | .openAdd _ => True
  | .success client version =>
      (∃ screen ∈ s.screens client, screen.getting = true) ∧ version < s.backend.versions.length
  | .failure client => ∃ screen ∈ s.screens client, screen.getting = true
  | .delete client => s.screens client ≠ none
  | .apply i | .refuse i => i < s.backend.updates.length

instance decidableOffers (s : System) : (e : Event) → Decidable (s.Offers e)
  | .save client _ _ => inferInstanceAs (Decidable (s.screens client = none))
  | .openFavorite _ | .openAdd _ => inferInstanceAs (Decidable True)
  | .success client version => inferInstanceAs (Decidable
      ((∃ screen ∈ s.screens client, screen.getting = true) ∧
        version < s.backend.versions.length))
  | .failure client => inferInstanceAs (Decidable
      (∃ screen ∈ s.screens client, screen.getting = true))
  | .delete client => inferInstanceAs (Decidable (s.screens client ≠ none))
  | .apply i | .refuse i => inferInstanceAs (Decidable (i < s.backend.updates.length))

/-- The clients and their document. -/
def machine : Machine System Event := ⟨fun s e => some (s.handle e), Offers⟩

instance (s : System) (e : Event) : Decidable (machine.enabled s e) := decidableOffers s e

/-! ### Where versions come from -/

variable (document : Document) (es : List Event)

/-- A version was there, is a Save of the run with both its texts, or is a Delete of the run. -/
def Origin (d : Document) : Prop :=
  d = document ∨
  (∃ client dogType fluffiness n, .save client dogType fluffiness ∈ es ∧
    toInt fluffiness = some n ∧ d = ⟨.value dogType, .value n⟩) ∨
  ∃ client, .delete client ∈ es ∧ d = ⟨.value "", .value (-1)⟩

/-- A fragment is loading, shows no dog, or shows one version. -/
def ShowsVersion (f : FavoriteFragment) : Prop :=
  f = FavoriteFragment.onCreateView ∨ f = FavoriteFragment.setNoData ∨
    ∃ d data, Origin document es d ∧ toObject d = some data ∧ f = FavoriteFragment.setData data

/-- The invariant. -/
structure Whole (s : System) : Prop where
  backend : s.backend.Sourced (Origin document es) (Origin document es)
  screens : ∀ client, ∀ screen ∈ s.screens client, ShowsVersion document es screen.fragment

variable {document es} {s : System}

/-- An update is the version that comes of it. -/
theorem origin_overwrite (d update : Document) (_ : Origin document es d)
    (hupdate : Origin document es update) : Origin document es (overwrite d update) := hupdate

/-- At the start there is the document and no screen. -/
theorem whole_start : Whole document es (start document) := by
  refine ⟨Backend.sourced_start (Or.inl rfl), ?_⟩
  intro client screen hscreen
  simp [start] at hscreen

/-- A screen that shows a version takes the place of another. -/
theorem whole_setScreen (hs : Whole document es s) {client : ℕ} {screen : Option Screen}
    (hscreen : ∀ x ∈ screen, ShowsVersion document es x.fragment) :
    Whole document es (s.setScreen client screen) := by
  refine ⟨hs.backend, fun c x hx => ?_⟩
  by_cases hc : c = client
  · subst hc
    rw [setScreen_screens_self] at hx
    exact hscreen x hx
  · rw [setScreen_screens_of_ne s hc] at hx
    exact hs.screens c x hx

/-- What is sent has an origin. -/
theorem whole_send (hs : Whole document es s) {client : ℕ} {update : Option Document}
    (hupdate : ∀ d ∈ update, Origin document es d) : Whole document es (s.send client update) :=
  ⟨Backend.sourced_send? hs.backend client hupdate, hs.screens⟩

/-- A Save sends both of its texts. -/
theorem update_save_eq_some {dogType fluffiness : String} {d : Document}
    (h : AddDataFragment.update dogType fluffiness = some (some d)) :
    ∃ n, toInt fluffiness = some n ∧ d = ⟨.value dogType, .value n⟩ := by
  unfold AddDataFragment.update at h
  split at h
  · simp at h
  · obtain ⟨n, hn, heq⟩ := Option.map_eq_some_iff.mp h
    exact ⟨n, hn, (Option.some_inj.mp heq).symm⟩

/-- A Delete sends the marker of no dog, and leaves the screen without one. -/
theorem showsVersion_delete {f : FavoriteFragment} (hf : ShowsVersion document es f)
    (d : Document) : ShowsVersion document es (f.delete d).1 := by
  rw [FavoriteFragment.delete_eq]
  cases f.noData with
  | true => exact hf
  | false => exact Or.inr (Or.inl rfl)

/-- **Step lemma**: every event offered keeps the invariant. -/
theorem whole_step (hs : Whole document es s) {e : Event} (hen : s.Offers e) (hmem : e ∈ es) :
    Whole document es (s.handle e) := by
  cases e with
  | save client dogType fluffiness =>
      simp only [handle]
      cases hupdate : AddDataFragment.update dogType fluffiness with
      | none => exact whole_setScreen hs (by simp)
      | some update =>
          apply whole_send hs
          rintro d rfl
          obtain ⟨n, hn, hd⟩ := update_save_eq_some hupdate
          exact Or.inr (Or.inl ⟨client, dogType, fluffiness, n, hmem, hn, hd⟩)
  | openFavorite client =>
      apply whole_setScreen hs
      intro x hx
      obtain rfl := Option.some_inj.mp hx
      exact Or.inl rfl
  | openAdd client => exact whole_setScreen hs (by simp)
  | success client version =>
      obtain ⟨⟨screen, hscreen, -⟩, hversion⟩ := hen
      have hshown : s.screens client = some screen := hscreen
      obtain ⟨d, hd⟩ := Backend.exists_view overwrite client hversion
      simp only [handle, hshown, hd]
      apply whole_setScreen hs
      intro x hx
      obtain ⟨f, hf, rfl⟩ := Option.map_eq_some_iff.mp hx
      obtain ⟨data, hdata, rfl⟩ := Option.map_eq_some_iff.mp hf
      have horigin := Backend.sourced_view origin_overwrite hs.backend hd
      exact Or.inr (Or.inr ⟨d, data, horigin, hdata, rfl⟩)
  | failure client =>
      obtain ⟨screen, hscreen, -⟩ := hen
      have hshown : s.screens client = some screen := hscreen
      simp only [handle, hshown]
      apply whole_setScreen hs
      intro x hx
      obtain rfl := Option.some_inj.mp hx
      exact hs.screens client screen hscreen
  | delete client =>
      obtain ⟨screen, hshown⟩ := Option.ne_none_iff_exists'.mp hen
      simp only [handle, hshown]
      apply whole_setScreen
      · apply whole_send hs
        intro d hd
        unfold FavoriteFragment.update at hd
        split at hd
        · simp at hd
        · obtain rfl := Option.some_inj.mp hd
          exact Or.inr (Or.inr ⟨client, hmem, rfl⟩)
      · intro x hx
        obtain rfl := Option.some_inj.mp hx
        exact showsVersion_delete (hs.screens client screen hshown) s.backend.document
  | apply i => exact ⟨Backend.sourced_apply origin_overwrite hs.backend i, hs.screens⟩
  | refuse i => exact ⟨Backend.sourced_refuse hs.backend i, hs.screens⟩

/-- **Run lemma**. -/
theorem whole_run (hlegal : machine.Legal (start document) es) :
    ∃ s, machine.run (start document) es = some s ∧ Whole document es s := by
  have hsteps : machine.Each (fun s e => s.Offers e ∧ e ∈ es) (start document) es :=
    hlegal.and_forall fun _ => id
  apply Machine.run_progress _ whole_start hsteps
  intro s e hs hen
  exact ⟨s.handle e, rfl, whole_step hs hen.1 hen.2⟩

/-! ### What the screens say -/

/-- A fragment over a version: no dog, or the type and the fluffiness that both fields hold. -/
theorem setData_cases (data : DogData) :
    FavoriteFragment.setData data = FavoriteFragment.setNoData ∨
    ∃ dogType n, data = ⟨some dogType, some n⟩ ∧ dogType ≠ "" ∧ n ≠ -1 ∧
      FavoriteFragment.setData data =
        ⟨false, "Favorite Dog Fluffiness: " ++ toString n, "Favorite Dog Type: " ++ dogType⟩ := by
  obtain ⟨dogType, n⟩ := data
  unfold FavoriteFragment.setData
  by_cases hno : (dogType.getD "").length = 0 ∨ n.getD (-1) = -1
  · exact Or.inl (if_pos hno)
  · right
    rw [not_or] at hno
    cases dogType with
    | none => simp at hno
    | some dogType =>
        cases n with
        | none => simp at hno
        | some n =>
            simp only [Option.getD_some] at hno
            have htype : dogType ≠ "" := fun h => hno.1 (by rw [h]; rfl)
            refine ⟨dogType, n, rfl, htype, hno.2, ?_⟩
            simp only [Option.getD_some, if_neg (not_or.mpr hno)]

variable (document es)

/-- The dog was in the document, or is that of one Save of the run. -/
def DogFrom (dogType : String) (n : ℤ) : Prop :=
  toObject document = some ⟨some dogType, some n⟩ ∨
    ∃ client fluffiness, .save client dogType fluffiness ∈ es ∧ toInt fluffiness = some n

/-- A fragment is loading or says that there is no dog, with Delete disarmed, or it shows a dog that
comes from one place, with Delete armed. -/
def SaysTruth (f : FavoriteFragment) : Prop :=
  f = FavoriteFragment.onCreateView ∨ f = FavoriteFragment.setNoData ∨
    ∃ dogType n, DogFrom document es dogType n ∧
      f = ⟨false, "Favorite Dog Fluffiness: " ++ toString n, "Favorite Dog Type: " ++ dogType⟩

variable {document es}

/-- What a document that maps has in its fields. -/
theorem fields_of_toObject {d : Document} {dogType : String} {n : ℤ}
    (h : toObject d = some ⟨some dogType, some n⟩) :
    d.DogType.read "" = some dogType ∧ d.Fluffiness.read 0 = some n := by
  unfold toObject at h
  split at h
  · obtain ⟨htype, hnumber⟩ := DogData.mk.inj (Option.some_inj.mp h)
    exact ⟨htype, hnumber⟩
  · simp at h

/-- The dog of a version comes from one place. -/
theorem dogFrom_of_origin {d : Document} (h : Origin document es d) {dogType : String} {n : ℤ}
    (hread : toObject d = some ⟨some dogType, some n⟩) (hn : n ≠ -1) :
    DogFrom document es dogType n := by
  rcases h with rfl | ⟨client, dogType', fluffiness, n', hmem, hn', rfl⟩ | ⟨client, -, rfl⟩
  · exact Or.inl hread
  · obtain ⟨htype, hnumber⟩ := fields_of_toObject hread
    obtain rfl := Option.some_inj.mp htype
    obtain rfl := Option.some_inj.mp hnumber
    exact Or.inr ⟨client, fluffiness, hmem, hn'⟩
  · obtain ⟨-, hnumber⟩ := fields_of_toObject hread
    exact absurd (Option.some_inj.mp hnumber).symm hn

/-- A screen that shows a version tells of one dog. -/
theorem saysTruth_of_showsVersion {f : FavoriteFragment} (h : ShowsVersion document es f) :
    SaysTruth document es f := by
  rcases h with h | h | ⟨d, data, horigin, hdata, rfl⟩
  · exact Or.inl h
  · exact Or.inr (Or.inl h)
  · rcases setData_cases data with hno | ⟨dogType, n, rfl, -, hn, hshown⟩
    · exact Or.inr (Or.inl hno)
    · exact Or.inr (Or.inr ⟨dogType, n, dogFrom_of_origin horigin hdata hn, hshown⟩)

variable (document es)

/-- **What the favourite screens say, over every run of any number of clients.** No run stops; the
document is the one there at the beginning, or is one Save, or one Delete; and every favourite
screen is loading or says that there is no dog, with Delete disarmed, or shows, with Delete armed, a
dog whose type and fluffiness were both in the document at the beginning or were both texts of one
Save. -/
theorem favorites_are_whole (hlegal : machine.Legal (start document) es) :
    ∃ s, machine.run (start document) es = some s ∧ Origin document es s.backend.document ∧
      ∀ client, ∀ screen ∈ s.screens client, SaysTruth document es screen.fragment := by
  obtain ⟨s, hrun, hs⟩ := whole_run hlegal
  refine ⟨s, hrun, hs.backend.versions _ List.mem_cons_self, fun client screen hscreen => ?_⟩
  exact saysTruth_of_showsVersion (hs.screens client screen hscreen)

/-- A Delete that removes a dog which its client has never seen: two Saves, the second of which
arrives between the get and the Delete. -/
def unseenDeleted : List Event :=
  [.save 0 "Poodle" "7", .apply 0, .openFavorite 1, .success 1 0, .save 0 "Corgi" "9", .apply 0,
    .delete 1, .apply 0, .openFavorite 0, .success 0 0]

/-- That run, from a document with neither field. -/
theorem favorites_are_whole_unseenDeleted :
    ∃ s, machine.run (start ⟨.absent, .absent⟩) unseenDeleted = some s ∧
      Origin ⟨.absent, .absent⟩ unseenDeleted s.backend.document ∧
      ∀ client, ∀ screen ∈ s.screens client,
        SaysTruth ⟨.absent, .absent⟩ unseenDeleted screen.fragment :=
  favorites_are_whole _ _ (by decide +kernel)

end System

end AdvMad.Lab8
