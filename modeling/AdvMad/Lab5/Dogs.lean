import AdvMad.Found.Collection
import AdvMad.Found.Run

/-!
# Lab 5: the dogs of a user

The app keeps a collection of dogs for every user in a shared store. A Save on the add screen adds a
document; a listener rebuilds the list of dogs from each snapshot of the user's collection, with
forced casts that end the process where a field is missing or of another type. Any number of clients
run at once, several of them possibly signed in as one user.

* `System` — the store with the writes under way, and the table of every client.
* `Shown` — the invariant: every row is a document of the user signed in, one that was there or one
  that a Save made, and no document has two rows. `shown_step`: every event keeps it.
* `dogs_shown` — over every run of a store whose documents all have the fields: nothing traps, the
  rows are as above, and a client with no write of its own pending shows, after a snapshot of the
  last version, every dog stored for the user and every dog saved and accepted, each once.
* `casts_hold_iff` — no run traps exactly when every document stored at the beginning has the
  fields.

A `Double` is a value of any type, read off a text by `parse`. A snapshot is that of any version of
the collection, together with what the client has written itself, in the order of the store.
-/

namespace AdvMad.Lab5

open AdvMad.Found

variable {D : Type}

/-- The value of a field, by the casts it passes: a number that is stored as an integer and casts to
`Double` is a `double`. -/
inductive Field (D : Type)
  | string (s : String)
  | double (x : D)
  | other
deriving DecidableEq, Repr

/-- A document of a collection. -/
structure Document (D : Type) where
  documentID : String
  data : List (String × Field D)
deriving DecidableEq, Repr

/-- Source: `DogDataController.swift`, `Dog`. -/
structure Dog (D : Type) where
  dogType : String
  fluffiness : D
  notes : String
  id : String
deriving DecidableEq, Repr

/-- The cast to `String`. -/
def Field.string? : Field D → Option String
  | .string s => some s
  | _ => none

/-- The cast to `Double`. -/
def Field.double? : Field D → Option D
  | .double x => some x
  | _ => none

/-- The dog of a document; `none` where a forced cast fails. Source: `DogDataController.swift`,
`loadData`. -/
def Document.dog (doc : Document D) : Option (Dog D) := do
  let dogType ← (doc.data.lookup "DogType").bind Field.string?
  let fluffiness ← (doc.data.lookup "Fluffiness").bind Field.double?
  let notes ← (doc.data.lookup "Notes").bind Field.string?
  return ⟨dogType, fluffiness, notes, doc.documentID⟩

/-- The document of a dog. Source: `DogDataController.swift`, `writeData`. -/
def writeData (documentID dogType : String) (fluffiness : D) (notes : String) : Document D :=
  ⟨documentID, [("DogType", .string dogType), ("Fluffiness", .double fluffiness),
    ("Notes", .string notes)]⟩

/-- The add screen. Source: `AddDogController.swift`. -/
structure AddDogController (D : Type) where
  dogType : Option String
  fluffiness : Option D
  notes : Option String
deriving DecidableEq, Repr

/-- A text that is there and not empty. -/
def given (text : Option String) : Option String := text.filter fun t => t.isEmpty = false

/-- What the fields hold when Save is tapped. Source: `AddDogController.swift`,
`prepare(for:sender:)`. -/
def AddDogController.prepare (parse : String → Option D)
    (dogTypeText fluffinessText notesText : Option String) : AddDogController D where
  dogType := given dogTypeText
  fluffiness := (given fluffinessText).bind parse
  notes := given notesText

/-- The document a return from the add screen writes, under a new ID.
Source: `DogTableTableViewController.swift`, `unwindSegue`. -/
def unwindSegue (documentID : String) (sourceVC : AddDogController D) : Option (Document D) :=
  match sourceVC.dogType, sourceVC.fluffiness with
  | some dogType, some fluffiness =>
      some (writeData documentID dogType fluffiness (sourceVC.notes.getD ""))
  | _, _ => none

/-- The table of a client that is signed in. Source: `DogTableTableViewController.swift`. -/
structure DogTable (D : Type) where
  userID : String
  dogData : List (Dog D)
deriving DecidableEq, Repr

/-- The store, and the table of every client that is signed in. -/
structure System (D : Type) where
  service : Service String (Document D)
  tables : ℕ → Option (DogTable D)

/-- What happens. -/
inductive Event (D : Type)
  /-- A client has signed in, or has failed to. -/
  | didSignInWith (client : ℕ) (user : Option String)
  /-- A tap on Save, with the texts of the three fields. -/
  | save (client : ℕ) (documentID : String)
      (dogTypeText fluffinessText notesText : Option String)
  /-- The store takes the `i`-th document written. -/
  | accept (i : ℕ)
  /-- The store refuses it. -/
  | reject (i : ℕ)
  /-- The listener of a client is called with the documents of a version. -/
  | snapshot (client : ℕ) (version : ℕ) (documents : List (Document D))
  /-- The listener of a client is called with an error. -/
  | noSnapshot (client : ℕ)

namespace System

/-- A store with these documents and no client. -/
def start (stored : String → List (Document D)) : System D := ⟨⟨stored, []⟩, fun _ => none⟩

/-- The table of a client becomes another. -/
def setTable (s : System D) (client : ℕ) (t : DogTable D) : System D :=
  { s with tables := Function.update s.tables client (some t) }

/-- One event; `none` where a forced cast fails. Source: `SignInViewController.swift`,
`authUI(_:didSignInWith:error:)`; `DogTableTableViewController.swift`, `viewDidLoad`, `newData` and
`unwindSegue`; `DogDataController.swift`, `loadData` and `writeData`. -/
def step (parse : String → Option D) (s : System D) : Event D → Option (System D)
  | .didSignInWith client (some user) => some (s.setTable client ⟨user, []⟩)
  | .didSignInWith _ none => some s
  | .save client documentID dogTypeText fluffinessText notesText =>
      match s.tables client with
      | some t =>
          match unwindSegue documentID (.prepare parse dogTypeText fluffinessText notesText) with
          | some doc => some { s with service := s.service.send client t.userID doc }
          | none => some s
      | none => some s
  | .accept i => some { s with service := s.service.accept i }
  | .reject i => some { s with service := s.service.reject i }
  | .snapshot client _ documents =>
      match s.tables client with
      | some t => (documents.mapM Document.dog).map fun dogData =>
          s.setTable client { t with dogData := dogData }
      | none => some s
  | .noSnapshot _ => some s

/-- The events a system offers: a client signs in once, a document has a new ID, and a snapshot
holds what the client sees of a version. -/
def Offers (s : System D) : Event D → Prop
  | .didSignInWith client _ => s.tables client = none
  | .save client documentID _ _ _ =>
      ∃ t ∈ s.tables client, s.service.Fresh Document.documentID t.userID documentID
  | .accept _ | .reject _ => True
  | .snapshot client version documents =>
      ∃ t ∈ s.tables client,
        documents.Perm (s.service.view Document.documentID client t.userID version)
  | .noSnapshot client => s.tables client ≠ none

/-- The clients and their store. -/
def machine (parse : String → Option D) : Machine (System D) (Event D) := ⟨step parse, Offers⟩

instance decidableOffers [DecidableEq D] (s : System D) : (e : Event D) → Decidable (s.Offers e)
  | .didSignInWith client _ => inferInstanceAs (Decidable (s.tables client = none))
  | .save client documentID _ _ _ => inferInstanceAs (Decidable
      (∃ t ∈ s.tables client, s.service.Fresh Document.documentID t.userID documentID))
  | .accept _ | .reject _ => inferInstanceAs (Decidable True)
  | .snapshot client version documents => inferInstanceAs (Decidable
      (∃ t ∈ s.tables client,
        documents.Perm (s.service.view Document.documentID client t.userID version)))
  | .noSnapshot client => inferInstanceAs (Decidable (s.tables client ≠ none))

instance [DecidableEq D] (parse : String → Option D) (s : System D) (e : Event D) :
    Decidable ((machine parse).enabled s e) := decidableOffers s e

end System

/-! ### Documents and dogs -/

/-- The dogs of documents that all have the fields. -/
theorem mapM_dog_eq_some_iff {documents : List (Document D)} {dogs : List (Dog D)} :
    documents.mapM Document.dog = some dogs ↔ documents.map Document.dog = dogs.map some := by
  induction documents generalizing dogs with
  | nil => cases dogs <;> simp
  | cons doc documents ih =>
      rw [List.mapM_cons, List.map_cons]
      cases dogs with
      | nil =>
          cases hdog : doc.dog with
          | none => simp
          | some dog => cases hdogs : documents.mapM Document.dog <;> simp
      | cons dog dogs =>
          rw [List.map_cons, List.cons_eq_cons, ← ih]
          simp [Option.bind_eq_some_iff]

/-- A dog carries the name of its document. -/
theorem Document.id_of_dog {doc : Document D} {dog : Dog D} (h : doc.dog = some dog) :
    dog.id = doc.documentID := by
  unfold Document.dog at h
  obtain ⟨dogType, -, h⟩ := Option.bind_eq_some_iff.mp h
  obtain ⟨fluffiness, -, h⟩ := Option.bind_eq_some_iff.mp h
  obtain ⟨notes, -, h⟩ := Option.bind_eq_some_iff.mp h
  obtain rfl := Option.some_inj.mp h
  rfl

/-- The dogs have the IDs of their documents. -/
theorem map_id_of_mapM_dog {documents : List (Document D)} {dogs : List (Dog D)}
    (h : documents.mapM Document.dog = some dogs) :
    dogs.map Dog.id = documents.map Document.documentID := by
  replace h := mapM_dog_eq_some_iff.mp h
  induction documents generalizing dogs with
  | nil => simp [List.map_eq_nil_iff.mp h.symm]
  | cons doc documents ih =>
      obtain ⟨dog, dogs, rfl, hdog, hdogs⟩ := List.map_eq_cons_iff.mp h.symm
      rw [List.map_cons, List.map_cons, ih hdogs.symm, Document.id_of_dog hdog.symm]

/-- **Round trip**: the document of a dog reads back as the dog. -/
theorem dog_writeData (documentID dogType : String) (fluffiness : D) (notes : String) :
    (writeData documentID dogType fluffiness notes).dog =
      some ⟨dogType, fluffiness, notes, documentID⟩ := rfl

/-- What a Save writes, in the words of the fields. -/
theorem unwindSegue_prepare_eq_some_iff {parse : String → Option D} {documentID : String}
    {dogTypeText fluffinessText notesText : Option String} {doc : Document D} :
    unwindSegue documentID (.prepare parse dogTypeText fluffinessText notesText) = some doc ↔
      ∃ dogType fluffiness, given dogTypeText = some dogType ∧
        (given fluffinessText).bind parse = some fluffiness ∧
        doc = writeData documentID dogType fluffiness ((given notesText).getD "") := by
  simp only [unwindSegue, AddDogController.prepare]
  cases given dogTypeText <;> cases (given fluffinessText).bind parse <;> simp [eq_comm]

namespace System

variable (parse : String → Option D) (initial : String → List (Document D)) (es : List (Event D))

/-- A Save among the events had the fields of the dog, on a client signed in as the user. -/
def Entered (s : System D) (user : String) (dog : Dog D) : Prop :=
  ∃ client dogTypeText fluffinessText notesText,
    Event.save client dog.id dogTypeText fluffinessText notesText ∈ es ∧
      (∃ t ∈ s.tables client, t.userID = user) ∧ given dogTypeText = some dog.dogType ∧
      (given fluffinessText).bind parse = some dog.fluffiness ∧
      (given notesText).getD "" = dog.notes

/-- The invariant. -/
structure Shown (s : System D) : Prop where
  kept : s.service.Kept Document.documentID initial
  /-- What was sent has been entered. -/
  entered : ∀ user, ∀ doc ∈ s.service.all user,
    ∃ dog, doc.dog = some dog ∧ s.Entered parse es user dog
  /-- A row is a document of the user. -/
  rows : ∀ client, ∀ t ∈ s.tables client, ∀ dog ∈ t.dogData,
    ∃ doc ∈ initial t.userID ++ s.service.all t.userID, doc.dog = some dog
  /-- No document has two rows. -/
  once : ∀ client, ∀ t ∈ s.tables client, (t.dogData.map Dog.id).Nodup

variable {parse initial es} {s : System D}

/-- At the start every table is empty. -/
theorem shown_start (hids : ∀ u, ((initial u).map Document.documentID).Nodup) :
    Shown parse initial es (start initial) := by
  refine ⟨Service.kept_start initial hids, ?_, ?_, ?_⟩
  · intro user doc hdoc
    simp [start, Service.all, Service.items] at hdoc
  · intro client t ht
    simp [start] at ht
  · intro client t ht
    simp [start] at ht

/-- A client that stays signed in keeps what was entered. -/
theorem Entered.mono {s' : System D} {user : String} {dog : Dog D}
    (h : s.Entered parse es user dog)
    (htables : ∀ c, ∀ t ∈ s.tables c, ∃ t' ∈ s'.tables c, t'.userID = t.userID) :
    s'.Entered parse es user dog := by
  obtain ⟨client, dogTypeText, fluffinessText, notesText, hmem, ⟨t, ht, huser⟩, hfields⟩ := h
  obtain ⟨t', ht', huser'⟩ := htables client t ht
  exact ⟨client, dogTypeText, fluffinessText, notesText, hmem, ⟨t', ht', huser'.trans huser⟩,
    hfields⟩

/-- A table is no part of the store. -/
@[simp] theorem setTable_service (client : ℕ) (t : DogTable D) :
    (s.setTable client t).service = s.service := rfl

/-- The table of one client changes and no other. -/
theorem mem_setTable_tables {client c : ℕ} {t t' : DogTable D} :
    t' ∈ (s.setTable client t).tables c ↔ c = client ∧ t' = t ∨ c ≠ client ∧ t' ∈ s.tables c := by
  by_cases h : c = client
  · subst h
    simp [setTable, eq_comm]
  · simp [setTable, h]

/-- A table of the same user takes the place of the old one. -/
theorem shown_setTable (hs : Shown parse initial es s) {client : ℕ} {t : DogTable D}
    (hold : ∀ t' ∈ s.tables client, t'.userID = t.userID)
    (hrows : ∀ dog ∈ t.dogData,
      ∃ doc ∈ initial t.userID ++ s.service.all t.userID, doc.dog = some dog)
    (honce : (t.dogData.map Dog.id).Nodup) :
    Shown parse initial es (s.setTable client t) := by
  refine ⟨hs.kept, ?_, ?_, ?_⟩
  · intro user doc hdoc
    obtain ⟨dog, hdog, hentered⟩ := hs.entered user doc hdoc
    refine ⟨dog, hdog, hentered.mono fun c t₀ ht₀ => ?_⟩
    by_cases hc : c = client
    · subst hc
      exact ⟨t, mem_setTable_tables.mpr (Or.inl ⟨rfl, rfl⟩), (hold t₀ ht₀).symm⟩
    · exact ⟨t₀, mem_setTable_tables.mpr (Or.inr ⟨hc, ht₀⟩), rfl⟩
  · intro c t' ht'
    rcases mem_setTable_tables.mp ht' with ⟨-, rfl⟩ | ⟨-, ht'⟩
    · exact hrows
    · exact hs.rows c t' ht'
  · intro c t' ht'
    rcases mem_setTable_tables.mp ht' with ⟨-, rfl⟩ | ⟨-, ht'⟩
    · exact honce
    · exact hs.once c t' ht'

/-- The store moves on, with all that was sent. -/
theorem shown_service (hs : Shown parse initial es s) {service : Service String (Document D)}
    (hkept : service.Kept Document.documentID initial)
    (hall : ∀ user, s.service.all user ⊆ service.all user)
    (hentered : ∀ user, ∀ doc ∈ service.all user, doc ∉ s.service.all user →
      ∃ dog, doc.dog = some dog ∧ s.Entered parse es user dog) :
    Shown parse initial es { s with service := service } := by
  refine ⟨hkept, ?_, ?_, hs.once⟩
  · intro user doc hdoc
    by_cases hold : doc ∈ s.service.all user
    · exact hs.entered user doc hold
    · exact hentered user doc hdoc hold
  · intro c t ht dog hdog
    obtain ⟨doc, hdoc, heq⟩ := hs.rows c t ht dog hdog
    refine ⟨doc, ?_, heq⟩
    rcases List.mem_append.mp hdoc with hdoc | hdoc
    · exact List.mem_append_left _ hdoc
    · exact List.mem_append_right _ (hall t.userID hdoc)

/-! ### One event -/

/-- A document of a snapshot was there or was sent by a client of the user. -/
theorem mem_of_snapshot (hs : Shown parse initial es s) {client version : ℕ} {user : String}
    {documents : List (Document D)} (hdocuments :
      documents.Perm (s.service.view Document.documentID client user version))
    {doc : Document D} (hdoc : doc ∈ documents) : doc ∈ initial user ++ s.service.all user :=
  List.mem_append.mpr (Service.mem_of_mem_view hs.kept (hdocuments.subset hdoc))

/-- The rows after a snapshot. -/
theorem shown_snapshot (hs : Shown parse initial es s) {client version : ℕ} {t : DogTable D}
    (ht : t ∈ s.tables client) {documents : List (Document D)} (hdocuments :
      documents.Perm (s.service.view Document.documentID client t.userID version))
    {dogs : List (Dog D)} (hdogs : documents.mapM Document.dog = some dogs) :
    Shown parse initial es (s.setTable client { t with dogData := dogs }) := by
  have hmap := mapM_dog_eq_some_iff.mp hdogs
  have hdocOf : ∀ dog ∈ dogs, ∃ doc ∈ documents, doc.dog = some dog := by
    intro dog hdog
    have hmem : some dog ∈ documents.map Document.dog := by
      rw [hmap]
      exact List.mem_map_of_mem hdog
    exact List.mem_map.mp hmem
  apply shown_setTable hs
  · intro t' ht'
    obtain rfl := Option.some_inj.mp ((Option.mem_def.mp ht).symm.trans ht')
    rfl
  · intro dog hdog
    obtain ⟨doc, hdoc, heq⟩ := hdocOf dog hdog
    exact ⟨doc, mem_of_snapshot hs hdocuments hdoc, heq⟩
  · rw [map_id_of_mapM_dog hdogs]
    exact (hdocuments.map Document.documentID).nodup_iff.mpr
      (Service.nodup_view hs.kept client version)

/-- The store after a Save. -/
theorem shown_save (hs : Shown parse initial es s) {client : ℕ} {t : DogTable D}
    (ht : t ∈ s.tables client) {documentID : String}
    (hfresh : s.service.Fresh Document.documentID t.userID documentID)
    {dogTypeText fluffinessText notesText : Option String}
    (hmem : Event.save client documentID dogTypeText fluffinessText notesText ∈ es)
    {doc : Document D} (hdoc :
      unwindSegue documentID (.prepare parse dogTypeText fluffinessText notesText) = some doc) :
    Shown parse initial es { s with service := s.service.send client t.userID doc } := by
  obtain ⟨dogType, fluffiness, htype, hfluffiness, rfl⟩ :=
    unwindSegue_prepare_eq_some_iff.mp hdoc
  apply shown_service hs
  · exact Service.kept_send hs.kept client hfresh
  · exact fun user => Service.all_subset_send _ _ _ _ user
  · intro user doc hdoc hnew
    rcases Service.mem_all_send.mp hdoc with hold | ⟨rfl, rfl⟩
    · exact absurd hold hnew
    · exact ⟨_, dog_writeData _ _ _ _, client, dogTypeText, fluffinessText, notesText, hmem,
        ⟨t, ht, rfl⟩, htype, hfluffiness, rfl⟩

/-- The store takes or refuses a document. -/
theorem shown_of_all_eq (hs : Shown parse initial es s) {service : Service String (Document D)}
    (hkept : service.Kept Document.documentID initial)
    (hall : ∀ user, service.all user = s.service.all user) :
    Shown parse initial es { s with service := service } := by
  apply shown_service hs hkept
  · exact fun user => List.Perm.subset (.of_eq (hall user).symm)
  · intro user doc hdoc hnew
    rw [hall] at hdoc
    exact absurd hdoc hnew

/-- **Step lemma**: every event offered keeps the invariant. -/
theorem shown_step (hs : Shown parse initial es s) {e : Event D} (hen : s.Offers e) (hmem : e ∈ es)
    {s' : System D} (hstep : s.step parse e = some s') : Shown parse initial es s' := by
  cases e with
  | didSignInWith client user =>
      cases user with
      | none =>
          obtain rfl := Option.some_inj.mp hstep
          exact hs
      | some user =>
          obtain rfl := Option.some_inj.mp hstep
          have hnone : s.tables client = none := hen
          apply shown_setTable hs
          · simp [hnone]
          · simp
          · simp
  | save client documentID dogTypeText fluffinessText notesText =>
      obtain ⟨t, ht, hfresh⟩ := hen
      have htable : s.tables client = some t := ht
      simp only [step, htable] at hstep
      cases hdoc : unwindSegue documentID
          (.prepare parse dogTypeText fluffinessText notesText) with
      | none =>
          rw [hdoc] at hstep
          obtain rfl := Option.some_inj.mp hstep
          exact hs
      | some doc =>
          rw [hdoc] at hstep
          obtain rfl := Option.some_inj.mp hstep
          exact shown_save hs ht hfresh hmem hdoc
  | accept i =>
      obtain rfl := Option.some_inj.mp hstep
      exact shown_of_all_eq hs (Service.kept_accept hs.kept i) fun user =>
        Service.all_accept _ i user
  | reject i =>
      obtain rfl := Option.some_inj.mp hstep
      exact shown_of_all_eq hs (Service.kept_reject hs.kept i) fun user =>
        Service.all_reject _ i user
  | snapshot client version documents =>
      obtain ⟨t, ht, hdocuments⟩ := hen
      have htable : s.tables client = some t := ht
      simp only [step, htable] at hstep
      obtain ⟨dogs, hdogs, rfl⟩ := Option.map_eq_some_iff.mp hstep
      exact shown_snapshot hs ht hdocuments hdogs
  | noSnapshot client =>
      obtain rfl := Option.some_inj.mp hstep
      exact hs

/-- A snapshot of documents that have the fields maps. -/
theorem exists_dogs (hs : Shown parse initial es s)
    (hcasts : ∀ user, ∀ doc ∈ initial user, doc.dog ≠ none) {client version : ℕ} {user : String}
    {documents : List (Document D)} (hdocuments :
      documents.Perm (s.service.view Document.documentID client user version)) :
    ∃ dogs, documents.mapM Document.dog = some dogs := by
  have hdog : ∀ doc ∈ documents, ∃ dog, doc.dog = some dog := by
    intro doc hdoc
    rcases List.mem_append.mp (mem_of_snapshot hs hdocuments hdoc) with hdoc | hdoc
    · exact Option.ne_none_iff_exists'.mp (hcasts user doc hdoc)
    · obtain ⟨dog, heq, -⟩ := hs.entered user doc hdoc
      exact ⟨dog, heq⟩
  clear hdocuments
  induction documents with
  | nil => exact ⟨[], rfl⟩
  | cons doc documents ih =>
      obtain ⟨dog, heq⟩ := hdog doc List.mem_cons_self
      obtain ⟨dogs, hdogs⟩ := ih fun doc hdoc => hdog doc (List.mem_cons_of_mem _ hdoc)
      exact ⟨dog :: dogs, by rw [List.mapM_cons, heq, hdogs]; rfl⟩

/-- **Progress**: no event traps, where the documents there at the beginning have the fields. -/
theorem progress_step (hs : Shown parse initial es s)
    (hcasts : ∀ user, ∀ doc ∈ initial user, doc.dog ≠ none) {e : Event D} (hen : s.Offers e)
    (hmem : e ∈ es) : ∃ s', s.step parse e = some s' ∧ Shown parse initial es s' := by
  have htotal : ∃ s', s.step parse e = some s' := by
    cases e with
    | didSignInWith client user => cases user <;> exact ⟨_, rfl⟩
    | save client documentID dogTypeText fluffinessText notesText =>
        obtain ⟨t, ht, -⟩ := hen
        have htable : s.tables client = some t := ht
        simp only [step, htable]
        split <;> exact ⟨_, rfl⟩
    | accept i => exact ⟨_, rfl⟩
    | reject i => exact ⟨_, rfl⟩
    | snapshot client version documents =>
        obtain ⟨t, ht, hdocuments⟩ := hen
        have htable : s.tables client = some t := ht
        obtain ⟨dogs, hdogs⟩ := exists_dogs hs hcasts hdocuments
        simp only [step, htable, hdogs]
        exact ⟨_, rfl⟩
    | noSnapshot client => exact ⟨_, rfl⟩
  obtain ⟨s', hstep⟩ := htotal
  exact ⟨s', hstep, shown_step hs hen hmem hstep⟩

/-! ### Whole runs -/

variable (parse initial es)

/-- Every row was there at the beginning or was entered for the user, and no document has two. -/
def RowsFrom (s : System D) : Prop :=
  ∀ client, ∀ t ∈ s.tables client, (t.dogData.map Dog.id).Nodup ∧
    ∀ dog ∈ t.dogData,
      (∃ doc ∈ initial t.userID, doc.dog = some dog) ∨ s.Entered parse es t.userID dog

/-- A snapshot of the last version leaves a client with no write pending the dogs that were there
and those accepted since. -/
def ShowsAll (s : System D) : Event D → Prop
  | .snapshot client version documents =>
      ∀ t ∈ s.tables client, (s.service.stored t.userID).length ≤ version →
        s.service.Settled client →
        ∀ s', s.step parse (.snapshot client version documents) = some s' →
          ∃ t' ∈ s'.tables client, (t'.dogData.map some).Perm
            ((initial t.userID ++ s.service.accepted t.userID).map Document.dog)
  | _ => True

variable {parse initial es}

/-- The rows of the invariant come from documents. -/
theorem rowsFrom_of_shown (hs : Shown parse initial es s) : RowsFrom parse initial es s := by
  intro client t ht
  refine ⟨hs.once client t ht, fun dog hdog => ?_⟩
  obtain ⟨doc, hdoc, heq⟩ := hs.rows client t ht dog hdog
  rcases List.mem_append.mp hdoc with hdoc | hdoc
  · exact Or.inl ⟨doc, hdoc, heq⟩
  · obtain ⟨dog', heq', hentered⟩ := hs.entered t.userID doc hdoc
    obtain rfl : dog' = dog := Option.some_inj.mp (heq'.symm.trans heq)
    exact Or.inr hentered

/-- A snapshot of the last version brings every dog. -/
theorem showsAll_of_shown (hs : Shown parse initial es s) {e : Event D} (hen : s.Offers e) :
    ShowsAll parse initial s e := by
  cases e with
  | snapshot client version documents =>
      intro t ht hversion hsettled s' hstep
      obtain ⟨t₀, ht₀, hdocuments⟩ := hen
      obtain rfl : t₀ = t := Option.some_inj.mp ((Option.mem_def.mp ht₀).symm.trans ht)
      have htable : s.tables client = some t₀ := ht
      simp only [step, htable] at hstep
      obtain ⟨dogs, hdogs, rfl⟩ := Option.map_eq_some_iff.mp hstep
      rw [Service.view_eq_stored hs.kept hsettled hversion] at hdocuments
      refine ⟨_, mem_setTable_tables.mpr (Or.inl ⟨rfl, rfl⟩), ?_⟩
      rw [← mapM_dog_eq_some_iff.mp hdogs]
      exact (hdocuments.trans (hs.kept.stored t₀.userID)).map Document.dog
  | _ => trivial

/-- **Run lemma**: no run traps, where the documents there at the beginning have the fields. -/
theorem shown_run (hids : ∀ u, ((initial u).map Document.documentID).Nodup)
    (hcasts : ∀ user, ∀ doc ∈ initial user, doc.dog ≠ none)
    (hlegal : (machine parse).Legal (start initial) es) :
    ∃ s', (machine parse).run (start initial) es = some s' ∧ Shown parse initial es s' :=
  Machine.run_progress (fun _ _ hs hen => progress_step hs hcasts hen.1 hen.2)
    (shown_start hids) (hlegal.and_forall fun _ => id)

variable (parse initial es)

/-- **What the tables show, over every run of any number of clients.** Where every document there at
the beginning has the fields, nothing traps; every row of a client is a document that its user had
at the beginning, or has the fields of a Save made by a client signed in as that user; no document
has two rows; and after a snapshot of the last version a client with no write pending shows exactly
the dogs that were there and those accepted since. -/
theorem dogs_shown (hids : ∀ u, ((initial u).map Document.documentID).Nodup)
    (hcasts : ∀ user, ∀ doc ∈ initial user, doc.dog ≠ none)
    (hlegal : (machine parse).Legal (start initial) es) :
    (∃ s', (machine parse).run (start initial) es = some s' ∧ RowsFrom parse initial es s') ∧
      (machine parse).Each (ShowsAll parse initial) (start initial) es := by
  constructor
  · obtain ⟨s', hrun, hs'⟩ := shown_run hids hcasts hlegal
    exact ⟨s', hrun, rowsFrom_of_shown hs'⟩
  · exact Machine.each_of_invariant (fun s e s' hs hen => shown_step hs hen.1 hen.2)
      (fun s e hs hen => showsAll_of_shown hs hen.1) (shown_start hids)
      (hlegal.and_forall fun _ => id)

/-- A dog saved on one client of a user and shown on another, beside the one that was there; the
client of another user does not see it. -/
theorem dogs_shown_twoClients :
    let parse : String → Option ℕ := fun text => if text = "7" then some 7 else none
    let initial : String → List (Document ℕ) := fun user =>
      if user = "anna" then [writeData "d0" "Poodle" 10 ""] else []
    let es : List (Event ℕ) :=
      [.didSignInWith 0 (some "anna"), .didSignInWith 1 (some "anna"),
        .didSignInWith 2 (some "bert"), .save 0 "d1" (some "Corgi") (some "7") (some "tame"),
        .accept 0, .snapshot 1 2 [writeData "d0" "Poodle" 10 "", writeData "d1" "Corgi" 7 "tame"],
        .snapshot 2 9 []]
    (∃ s', (machine parse).run (start initial) es = some s' ∧ RowsFrom parse initial es s') ∧
      (machine parse).Each (ShowsAll parse initial) (start initial) es :=
  dogs_shown _ _ _ (fun u => by split <;> simp)
    (fun u => by split <;> simp [dog_writeData]) (by decide)

/-- A malformed document ends the process of every client that its user signs in with. -/
theorem run_trap {user : String} {doc : Document D} (hdoc : doc ∈ initial user)
    (hnone : doc.dog = none) :
    ∃ es, (machine parse).Legal (start initial) es ∧
      (machine parse).run (start initial) es = none := by
  have hview : (start initial).service.view Document.documentID 0 user (initial user).length =
      initial user := by
    simp [start, Service.view, Service.own, Service.items]
  have htraps : (initial user).mapM Document.dog = none := by
    apply Option.eq_none_iff_forall_ne_some.mpr
    intro dogs hdogs
    have hmem : doc.dog ∈ dogs.map some := by
      rw [← mapM_dog_eq_some_iff.mp hdogs]
      exact List.mem_map_of_mem hdoc
    simp [hnone] at hmem
  have htable : ((start initial).setTable 0 ⟨user, []⟩).tables 0 = some ⟨user, []⟩ := by
    simp [setTable]
  refine ⟨[.didSignInWith 0 (some user),
    .snapshot 0 (initial user).length (initial user)], ⟨rfl, ?_⟩, ?_⟩
  · intro s' hstep
    obtain rfl := Option.some_inj.mp hstep
    exact ⟨⟨_, htable, .of_eq hview.symm⟩, fun _ _ => trivial⟩
  · simp [machine, step, htable, htraps]

/-- **No run traps exactly when every document there at the beginning has the fields.** -/
theorem casts_hold_iff (hids : ∀ u, ((initial u).map Document.documentID).Nodup) :
    (∀ es, (machine parse).Legal (start initial) es →
      ∃ s', (machine parse).run (start initial) es = some s') ↔
    ∀ user, ∀ doc ∈ initial user, doc.dog ≠ none := by
  constructor
  · intro h user doc hdoc hnone
    obtain ⟨es, hlegal, hrun⟩ := run_trap parse initial hdoc hnone
    obtain ⟨s', hrun'⟩ := h es hlegal
    simp [hrun] at hrun'
  · intro hcasts es hlegal
    obtain ⟨s', hrun, -⟩ := shown_run hids hcasts hlegal
    exact ⟨s', hrun⟩

/-- A document without its notes, put there by something other than the app. -/
theorem casts_hold_iff_noNotes :
    let initial : String → List (Document ℕ) := fun _ =>
      [⟨"d0", [("DogType", .string "Poodle"), ("Fluffiness", .double 10)]⟩]
    (∀ es, (machine fun _ => none).Legal (start initial) es →
      ∃ s', (machine fun _ => none).run (start initial) es = some s') ↔
    ∀ user, ∀ doc ∈ initial user, doc.dog ≠ none :=
  casts_hold_iff _ _ fun _ => by simp

end System

end AdvMad.Lab5
