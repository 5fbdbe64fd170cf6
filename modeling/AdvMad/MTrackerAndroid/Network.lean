import AdvMad.Found.Backend
import AdvMad.MTrackerAndroid.Clients
import AdvMad.MTrackerAndroid.CurrentEntry
import AdvMad.MTrackerAndroid.Loading

/-!
# The screens behind a network

Any number of clients with their macros and entry screens, one tracking document, and the updates
under way: the `arrayUnion` of a Save and the three amounts of a refresh. Updates arrive in any
order or never; a request is answered with some version of the document on which the client's own
updates under way are already made.

* `Network` — the document behind the network and the screens of every client.
* `Possible` — the documents that the Saves of a run and the amounts calculated from such documents
  make of the first one. `entries_of_possible` and `macros_of_possible` say what is in their fields.
* `Sourced` — the invariant: all versions are possible, and what a screen shows is what it shows of
  a possible document or of a Save. `sourced_step`: every event keeps it.
* `amounts_have_a_source` — over every run: the three amounts on a macros screen were stored
  together at the beginning, -404 standing for one that was missing, or calculated from one document
  whose entries were there or were entered by Saves; the number on an entry screen is one that was
  there or was entered for the same metric, truncated, or as an `Int` or a `Double` shows it; and
  the lists only grow.

A Save of a text that is no number, and an answer that does not map, end the process of their
client. So does an answer with an empty list that comes after the entry screen was left: its
fragment is no longer attached, and `getString` throws.
-/

namespace AdvMad.MTrackerAndroid

open AdvMad.Found

/-- An update of the tracking document. -/
inductive Update
  | union (f : ListField) (value : ℚ)
  | macros (macroData : MacroData)

/-- The document after an update. -/
def Update.apply (document : Document) : Update → Document
  | .union f value => document.union f value
  | .macros macroData => writeData macroData document

/-- What a Save sends; `none` where it throws. Source: `AddSpecificData.kt`, `setData`. -/
def Save.update (toDouble : String → Option ℚ) (s : Save) : Option Update :=
  (toDouble s.2).map (.union s.1.field)

/-- What a Save shows; `none` where it throws. Source: `AddSpecificData.kt`, `setData`. -/
def Save.label (toDouble : String → Option ℚ) (s : Save) : Option CurrentEntry :=
  (toDouble s.2).map fun value =>
    if s.1 = .activityLevel then .shownDouble value else .shownLong (toInt value)

/-- A Save is its update and its label. -/
theorem setData_eq_update (toDouble : String → Option ℚ) (document : Document) (s : Save) :
    setData toDouble (getDataCustomizations (some s.1.value)).firestoreID s.2 document =
      (s.update toDouble).bind fun update =>
        (s.label toDouble).map fun label => (update.apply document, label) := by
  obtain ⟨t, dataEntry⟩ := s
  rcases hvalue : toDouble dataEntry with _ | value
  · simp [setData, Save.update, hvalue]
  · rw [setData_shows hvalue]
    simp [Save.update, Save.label, hvalue, Update.apply]

/-- What the listener of a request sends for a document. Source: `MacrosFragment.kt`,
`calculateData`. -/
def Getter.update : Getter → Document → Option Update
  | .getDataInitially, _ => none
  | .getData, document => (refreshed document).map .macros

/-- A refresh is its texts and its update. -/
theorem getData_eq_update (document : Document) :
    MacrosFragment.getData document = (Getter.getData.texts document).map fun texts =>
      ((Getter.getData.update document).elim document (Update.apply document), texts) := by
  unfold Getter.texts Getter.update MacrosFragment.getData refreshed
  rcases hdata : toObject document with _ | data
  · simp [hdata]
  · rcases hcalc : calculateData Double data with _ | macroData <;>
      simp [MacrosFragment.calculateData, hdata, hcalc, Update.apply]

/-- An entry screen: its label, `none` while that is blank, and whether its get is under way.
Source: `AddSpecificData.kt`. -/
structure EntryScreen where
  dataType : DataTypes
  currentEntry : Option CurrentEntry
  getting : Bool
deriving DecidableEq, Repr

/-- The entry screen after an answer; `none` where the mapping throws. A list that is null leaves
the label as it is. Source: `AddSpecificData.kt`, `getData` and `setCurrent`. -/
def EntryScreen.answer (e : EntryScreen) (document : Document) : Option EntryScreen :=
  (toObject document).map fun data =>
    { e with
      getting := false
      currentEntry := match data.list e.dataType.field with
        | some _ => some (determineCurrentToSet data
            (getDataCustomizations (some e.dataType.value)).firestoreID .noCurrentValue)
        | none => e.currentEntry }

/-- A label that is not blank becomes what `getData` makes of it. -/
theorem EntryScreen.answer_eq_getData (t : DataTypes) (currentEntry : CurrentEntry)
    (getting : Bool) (document : Document) :
    EntryScreen.answer ⟨t, some currentEntry, getting⟩ document =
      (AddSpecificData.getData document (getDataCustomizations (some t.value)).firestoreID
        currentEntry).map fun label => ⟨t, some label, false⟩ := by
  unfold answer AddSpecificData.getData
  rw [Option.map_map]
  congr 1
  funext data
  simp only [Function.comp, firestoreID_value, determineCurrentToSet_eq]
  cases data.list t.field <;> rfl

/-- The listener of an entry screen that was left: whether it completes. It throws where the mapping
does, and on an empty list, where it asks a fragment no longer attached for a text. What it shows
nobody sees. Source: `AddSpecificData.kt`, `getData` and `setCurrent`. -/
def lateAnswer (t : DataTypes) (document : Document) : Bool :=
  match toObject document with
  | some data => decide (data.list t.field ≠ some [])
  | none => false

/-- The screens of a client. -/
structure Client where
  macros : MacrosScreen
  /-- The entry screen, while one is open. -/
  entry : Option EntryScreen
  /-- The data types of the entry screens left while their get was under way. -/
  left : List DataTypes

namespace Client

/-- A client just started. -/
def start : Client := ⟨.start, none, []⟩

/-- The entry screen is left, if one is open; its get stays under way. -/
def leave (x : Client) : Client :=
  { x with
    entry := none
    left := match x.entry with
      | some e => if e.getting then e.dataType :: x.left else x.left
      | none => x.left }

/-- The get of an entry screen that was left is over. -/
def drop (x : Client) (t : DataTypes) : Client := { x with left := x.left.erase t }

end Client

/-- The document and the clients. -/
structure Network where
  backend : Backend Document Update
  clients : ℕ → Client

namespace Network

/-- What happens. -/
inductive Event
  /-- The entry screen of a data type is opened. -/
  | openEntry (client : ℕ) (t : DataTypes)
  | leaveEntry (client : ℕ)
  /-- The get of an entry screen that was left is answered with a version of the document. -/
  | lateSuccess (client : ℕ) (t : DataTypes) (version : ℕ)
  /-- It fails. -/
  | lateFailure (client : ℕ) (t : DataTypes)
  /-- A tap on Save on an entry screen. -/
  | save (client : ℕ) (s : Save)
  /-- The get of an entry screen is answered with a version of the document. -/
  | entrySuccess (client version : ℕ)
  /-- It fails. -/
  | entryFailure (client : ℕ)
  /-- The macros screen of a client is created. -/
  | onCreateView (client fragment : ℕ)
  /-- A tap on the refresh button. -/
  | refresh (client : ℕ)
  /-- A request of a macros screen is answered with a version of the document. -/
  | success (client : ℕ) (request : Request) (version : ℕ)
  /-- It fails. -/
  | failure (client : ℕ) (request : Request)
  /-- The `i`-th update under way reaches the document. -/
  | apply (i : ℕ)
  /-- It never will. -/
  | refuse (i : ℕ)
deriving DecidableEq, Repr

/-- A document and clients just started. -/
def start (document : Document) : Network := ⟨.start document, fun _ => .start⟩

/-- A client becomes another. -/
def setClient (s : Network) (client : ℕ) (x : Client) : Network :=
  { s with clients := Function.update s.clients client x }

/-- The client becomes the other. -/
@[simp] theorem setClient_clients_self (s : Network) (client : ℕ) (x : Client) :
    (s.setClient client x).clients client = x := Function.update_self ..

/-- The other clients stay. -/
theorem setClient_clients_of_ne (s : Network) {client c : ℕ} (h : c ≠ client) (x : Client) :
    (s.setClient client x).clients c = s.clients c := Function.update_of_ne h ..

/-- An update is sent, if there is one. -/
def send (s : Network) (client : ℕ) (update : Option Update) : Network :=
  { s with backend := s.backend.send? client update }

/-- The macros screen of a client handles an event; where that throws, the process ends. -/
def handleMacros (s : Network) (client : ℕ) (e : MacrosScreen.Event) : Network :=
  s.setClient client <|
    match (s.clients client).macros.step e with
    | some screen => { s.clients client with macros := screen }
    | none => .start

/-- The entry screen of a client becomes another; where there is none, the process ends. -/
def setEntry (s : Network) (client : ℕ) (e : Option EntryScreen) : Network :=
  s.setClient client <|
    match e with
    | some e => { s.clients client with entry := some e }
    | none => .start

/-- One event. Source: `AddSpecificData.kt`, `onCreateView`, `getData` and `setData`;
`MacrosFragment.kt`, `onCreateView`, `getDataInitially`, `getData` and `calculateData`. -/
def handle (toDouble : String → Option ℚ) (s : Network) : Event → Network
  | .openEntry client t =>
      s.setClient client { (s.clients client).leave with entry := some ⟨t, none, true⟩ }
  | .leaveEntry client => s.setClient client (s.clients client).leave
  | .lateSuccess client t version =>
      match s.backend.view Update.apply client version with
      | some document => s.setClient client
          (if lateAnswer t document then (s.clients client).drop t else .start)
      | none => s
  | .lateFailure client t => s.setClient client ((s.clients client).drop t)
  | .save client entry =>
      match (s.clients client).entry with
      | some e => (s.send client (entry.update toDouble)).setEntry client
          ((entry.label toDouble).map fun label => { e with currentEntry := some label })
      | none => s
  | .entrySuccess client version =>
      match (s.clients client).entry, s.backend.view Update.apply client version with
      | some e, some document => s.setEntry client (e.answer document)
      | _, _ => s
  | .entryFailure client =>
      match (s.clients client).entry with
      | some e => s.setEntry client (some { e with getting := false })
      | none => s
  | .onCreateView client fragment => s.handleMacros client (.onCreateView fragment)
  | .refresh client => s.handleMacros client .refresh
  | .success client request version =>
      match s.backend.view Update.apply client version with
      | some document =>
          (s.send client (request.getter.update document)).handleMacros client
            (.complete request (.success (some document)))
      | none => s
  | .failure client request => s.handleMacros client (.complete request .failure)
  | .apply i => { s with backend := s.backend.apply Update.apply i }
  | .refuse i => { s with backend := s.backend.refuse i }

/-- What can happen: what the screens offer, answers with a version of the document, and the arrival
or loss of an update under way. -/
def Offers (s : Network) : Event → Prop
  | .openEntry _ _ | .leaveEntry _ | .onCreateView _ _ => True
  | .lateSuccess client t version =>
      t ∈ (s.clients client).left ∧ version < s.backend.versions.length
  | .lateFailure client t => t ∈ (s.clients client).left
  | .save client entry => ∃ e ∈ (s.clients client).entry, e.dataType = entry.1
  | .entrySuccess client version =>
      (∃ e ∈ (s.clients client).entry, e.getting = true) ∧ version < s.backend.versions.length
  | .entryFailure client => ∃ e ∈ (s.clients client).entry, e.getting = true
  | .refresh client => (s.clients client).macros.shown.isSome
  | .success client request version =>
      request ∈ (s.clients client).macros.requests ∧ version < s.backend.versions.length
  | .failure client request => request ∈ (s.clients client).macros.requests
  | .apply i | .refuse i => i < s.backend.updates.length

instance decidableOffers (s : Network) : (e : Event) → Decidable (s.Offers e)
  | .openEntry _ _ | .leaveEntry _ | .onCreateView _ _ => inferInstanceAs (Decidable True)
  | .lateSuccess client t version => inferInstanceAs (Decidable
      (t ∈ (s.clients client).left ∧ version < s.backend.versions.length))
  | .lateFailure client t => inferInstanceAs (Decidable (t ∈ (s.clients client).left))
  | .save client entry => inferInstanceAs (Decidable
      (∃ e ∈ (s.clients client).entry, e.dataType = entry.1))
  | .entrySuccess client version => inferInstanceAs (Decidable
      ((∃ e ∈ (s.clients client).entry, e.getting = true) ∧
        version < s.backend.versions.length))
  | .entryFailure client => inferInstanceAs (Decidable
      (∃ e ∈ (s.clients client).entry, e.getting = true))
  | .refresh client => inferInstanceAs (Decidable (s.clients client).macros.shown.isSome)
  | .success client request version => inferInstanceAs (Decidable
      (request ∈ (s.clients client).macros.requests ∧ version < s.backend.versions.length))
  | .failure client request => inferInstanceAs (Decidable
      (request ∈ (s.clients client).macros.requests))
  | .apply i | .refuse i => inferInstanceAs (Decidable (i < s.backend.updates.length))

/-- The clients behind the network. -/
def machine (toDouble : String → Option ℚ) : Machine Network Event :=
  ⟨fun s e => some (s.handle toDouble e), Offers⟩

instance (toDouble : String → Option ℚ) (s : Network) (e : Event) :
    Decidable ((machine toDouble).enabled s e) := decidableOffers s e

/-! ### The documents that can come about -/

variable (toDouble : String → Option ℚ) (document : Document) (es : List Event)

/-- What the Saves of a run, and amounts calculated from such documents, make of a document. -/
inductive Possible : Document → Prop
  | start : Possible document
  | save {d : Document} {client : ℕ} {s : Save} {value : ℚ} (hmem : .save client s ∈ es)
      (hvalue : toDouble s.2 = some value) (hd : Possible d) : Possible (d.union s.1.field value)
  | refresh {d d' : Document} {macroData : MacroData} (hd' : Possible d')
      (hmacros : refreshed d' = some macroData) (hd : Possible d) :
      Possible (writeData macroData d)

/-- A number was entered on an entry screen of the list field. -/
def Entered (f : ListField) (q : ℚ) : Prop :=
  ∃ client s, .save client s ∈ es ∧ s.1.field = f ∧ toDouble s.2 = some q

/-- The update of a Save of the run, or of amounts calculated from a possible document. -/
def PossibleUpdate : Update → Prop
  | .union f value => Entered toDouble es f value
  | .macros macroData => ∃ d, Possible toDouble document es d ∧ refreshed d = some macroData

variable {toDouble document es}

/-- An update that can come about makes a document that can. -/
theorem possible_apply (d : Document) (u : Update) (hd : Possible toDouble document es d)
    (hu : PossibleUpdate toDouble document es u) : Possible toDouble document es (u.apply d) := by
  cases u with
  | union f value =>
      obtain ⟨client, s, hmem, rfl, hvalue⟩ := hu
      exact .save hmem hvalue hd
  | macros macroData =>
      obtain ⟨d', hd', hmacros⟩ := hu
      exact .refresh hd' hmacros hd

/-- **The lists of a possible document** are those of the first one, with numbers entered for them
behind. -/
theorem entries_of_possible {d : Document} (h : Possible toDouble document es d) (f : ListField) :
    ∃ added, numbers d f = numbers document f ++ added ∧
      ∀ q ∈ added, Entered toDouble es f q := by
  induction h with
  | start => exact ⟨[], by simp, by simp⟩
  | @save d client s value hmem hvalue hd ih =>
      obtain ⟨added, hadded, hentered⟩ := ih
      rw [numbers_union]
      by_cases hf : f = s.1.field
      · subst hf
        rw [if_pos rfl]
        by_cases hold : value ∈ numbers d s.1.field
        · rw [appendNew_of_mem hold]
          exact ⟨added, hadded, hentered⟩
        · refine ⟨added ++ [value], ?_, ?_⟩
          · rw [appendNew_of_not_mem hold, hadded, List.append_assoc]
          · intro q hq
            rcases List.mem_append.mp hq with hq | hq
            · exact hentered q hq
            · obtain rfl := List.mem_singleton.mp hq
              exact ⟨client, s, hmem, rfl, hvalue⟩
      · rw [if_neg hf]
        exact ⟨added, hadded, hentered⟩
  | refresh hd' hmacros hd ih ih' =>
      rw [numbers_writeData]
      assumption

/-- The macro fields of a document are those of another. -/
def SameMacros (d d' : Document) : Prop :=
  d "macro_protein" = d' "macro_protein" ∧ d "macro_fat" = d' "macro_fat" ∧
    d "macro_carb" = d' "macro_carb"

/-- The macro fields stay over two updates that leave them. -/
theorem SameMacros.trans {d d' d'' : Document} (h : SameMacros d d') (h' : SameMacros d' d'') :
    SameMacros d d'' := ⟨h.1.trans h'.1, h.2.1.trans h'.2.1, h.2.2.trans h'.2.2⟩

/-- **The macro fields of a possible document** are those of the first one, or all three were
calculated from one possible document. -/
theorem macros_of_possible {d : Document} (h : Possible toDouble document es d) :
    SameMacros d document ∨ ∃ d' macroData, Possible toDouble document es d' ∧
      refreshed d' = some macroData ∧ SameMacros d (writeData macroData d) := by
  induction h with
  | start => exact Or.inl ⟨rfl, rfl, rfl⟩
  | @save d client s value hmem hvalue hd ih =>
      obtain ⟨hp, hf, hc⟩ := s.1.field.id_ne_macro
      have hsame : SameMacros (d.union s.1.field value) d :=
        ⟨d.union_of_ne _ value hp.symm, d.union_of_ne _ value hf.symm,
          d.union_of_ne _ value hc.symm⟩
      rcases ih with ih | ⟨d', macroData, hd', hmacros, ih⟩
      · exact Or.inl (hsame.trans ih)
      · exact Or.inr ⟨d', macroData, hd', hmacros, hsame.trans ih⟩
  | @refresh d d' macroData hd' hmacros hd ih ih' =>
      refine Or.inr ⟨d', macroData, hd', hmacros, ?_⟩
      simp [SameMacros, writeData]

/-! ### The texts that can come about -/

variable (toDouble document es)

/-- The amounts stored in a document, with the mark for those that are missing. -/
def StoredMacros (macroData : MacroData) : Prop :=
  ∃ p f c, toInt? (document "macro_protein") = some p ∧ toInt? (document "macro_fat") = some f ∧
    toInt? (document "macro_carb") = some c ∧
    macroData = ⟨p.getD (-404), f.getD (-404), c.getD (-404)⟩

/-- The amounts were stored at the beginning, or are calculated from one document whose lists are
those of the beginning with numbers entered for them behind. -/
def HasSource (macroData : MacroData) : Prop :=
  StoredMacros document macroData ∨
    ∃ d, refreshed d = some macroData ∧ ∀ f, ∃ added, numbers d f = numbers document f ++ added ∧
      ∀ q ∈ added, Entered toDouble es f q

/-- The texts say that an answer is awaited, or that data is missing, or show three amounts that
have one source. -/
def SaysTruth (texts : Texts) : Prop :=
  texts = MacrosFragment.setLoadingData ∨ texts = MacrosFragment.setStartState ∨
    ∃ macroData, HasSource toDouble document es macroData ∧
      texts = MacrosFragment.setData macroData

variable {toDouble document es}

/-- Amounts calculated from a document that can come about have a source. -/
theorem hasSource_of_refreshed {d : Document} (hd : Possible toDouble document es d)
    {macroData : MacroData} (hmacros : refreshed d = some macroData) :
    HasSource toDouble document es macroData :=
  Or.inr ⟨d, hmacros, entries_of_possible hd⟩

/-- Amounts calculated are read back as they are. -/
theorem toInt?_of_refreshed {d : Document} {macroData : MacroData}
    (hmacros : refreshed d = some macroData) :
    toInt? (some (.number macroData.protein)) = some (some macroData.protein) ∧
      toInt? (some (.number macroData.fat)) = some (some macroData.fat) ∧
      toInt? (some (.number macroData.carbs)) = some (some macroData.carbs) := by
  obtain ⟨data, -, hcalc⟩ := Option.bind_eq_some_iff.mp hmacros
  obtain ⟨energy, rfl⟩ := exists_shares hcalc
  simp [toInt?, shares, toInt32_toInt]

/-- What an opening shows of a possible document. -/
theorem saysTruth_determineWhatToDo {d : Document} (hd : Possible toDouble document es d)
    {data : NutritionData} (hdata : toObject d = some data) :
    SaysTruth toDouble document es (MacrosFragment.determineWhatToDo data) := by
  obtain ⟨-, hp, hf, hc⟩ := toObject_eq_some_iff.mp hdata
  unfold MacrosFragment.determineWhatToDo
  split
  · exact Or.inr (Or.inl rfl)
  · refine Or.inr (Or.inr ⟨_, ?_, rfl⟩)
    rcases macros_of_possible hd with ⟨hp', hf', hc'⟩ | ⟨d', macroData, hd', hmacros, hp', hf', hc'⟩
    · rw [hp'] at hp
      rw [hf'] at hf
      rw [hc'] at hc
      exact Or.inl ⟨_, _, _, hp, hf, hc, rfl⟩
    · obtain ⟨hprotein, hfat, hcarbs⟩ := toInt?_of_refreshed hmacros
      simp only [writeData, Function.update_self, Function.update_of_ne, ne_eq, String.reduceEq,
        not_false_eq_true] at hp' hf' hc'
      rw [hp', hprotein, Option.some_inj] at hp
      rw [hf', hfat, Option.some_inj] at hf
      rw [hc', hcarbs, Option.some_inj] at hc
      rw [← hp, ← hf, ← hc]
      exact hasSource_of_refreshed hd' hmacros

/-- What the listeners show of a possible document. -/
theorem saysTruth_of_texts {d : Document} (hd : Possible toDouble document es d) {getter : Getter}
    {texts : Texts} (htexts : getter.texts d = some texts) :
    SaysTruth toDouble document es texts := by
  cases getter with
  | getDataInitially =>
      obtain ⟨data, hdata, rfl⟩ := Option.map_eq_some_iff.mp htexts
      exact saysTruth_determineWhatToDo hd hdata
  | getData =>
      obtain ⟨⟨d', texts'⟩, hget, rfl⟩ := Option.map_eq_some_iff.mp htexts
      obtain ⟨data, hdata, hcalc⟩ := Option.map_eq_some_iff.mp hget
      unfold MacrosFragment.calculateData at hcalc
      rcases hmacros : calculateData Double data with _ | macroData
      · rw [hmacros] at hcalc
        exact Or.inr (Or.inl (congrArg Prod.snd hcalc).symm)
      · rw [hmacros] at hcalc
        refine Or.inr (Or.inr ⟨macroData, ?_, (congrArg Prod.snd hcalc).symm⟩)
        apply hasSource_of_refreshed hd
        rw [refreshed, hdata, Option.bind_some, hmacros]

variable (toDouble document es)

/-- The label of an entry screen is blank, or says that there is no value, or shows a number that
was there at the beginning or was entered for the same metric: truncated, as an opening shows it, or
as a Save does, cut to an `Int` or as the text of a `Double`. -/
def LabelSaysTruth (e : EntryScreen) : Prop :=
  e.currentEntry = none ∨ e.currentEntry = some .noCurrentValue ∨
    ∃ value, (value ∈ numbers document e.dataType.field ∨
        Entered toDouble es e.dataType.field value) ∧
      (e.currentEntry = some (.shownLong (trunc value)) ∨
        e.currentEntry =
          some (if e.dataType = .activityLevel then .shownDouble value
            else .shownLong (toInt value)))

variable {toDouble document es}

/-- What an answer with a possible document makes of a label. -/
theorem labelSaysTruth_answer {d : Document} (hd : Possible toDouble document es d)
    {e e' : EntryScreen} (he : LabelSaysTruth toDouble document es e)
    (hanswer : e.answer d = some e') : LabelSaysTruth toDouble document es e' := by
  obtain ⟨data, hdata, rfl⟩ := Option.map_eq_some_iff.mp hanswer
  rcases hlist : data.list e.dataType.field with _ | xs
  · exact he
  · simp only [hlist, firestoreID_value, determineCurrentToSet_eq, setCurrent]
    have hlongs := (toObject_eq_some_iff.mp hdata).1 e.dataType.field
    rw [hlist] at hlongs
    have hlast := getLast?_mapM (numbers_of_toLongs hlongs)
    rcases hx : xs.getLast? with _ | x
    · simp [LabelSaysTruth]
    · rw [Option.getD_some, hx] at hlast
      obtain ⟨value, hvalue, rfl⟩ := Option.map_eq_some_iff.mp hlast.symm
      obtain ⟨added, hadded, hentered⟩ := entries_of_possible hd e.dataType.field
      have hmem := List.mem_of_getLast? hvalue
      rw [hadded, List.mem_append] at hmem
      refine Or.inr (Or.inr ⟨value, hmem.imp_right (hentered value), Or.inl ?_⟩)
      simp

/-- What a Save makes of it. -/
theorem labelSaysTruth_save {client : ℕ} {s : Save} (hmem : .save client s ∈ es) {e : EntryScreen}
    (he : e.dataType = s.1) {label : CurrentEntry} (hlabel : s.label toDouble = some label) :
    LabelSaysTruth toDouble document es { e with currentEntry := some label } := by
  obtain ⟨value, hvalue, rfl⟩ := Option.map_eq_some_iff.mp hlabel
  refine Or.inr (Or.inr ⟨value, Or.inr ⟨client, s, hmem, by rw [he], hvalue⟩, Or.inr ?_⟩)
  rw [he]

/-! ### One event -/

/-- A property of texts is kept by a screen, if what an answer sets has it. -/
theorem texts_step {F : Texts → Prop} (hloading : F MacrosFragment.setLoadingData)
    {screen screen' : MacrosScreen} {e : MacrosScreen.Event}
    (hanswer : ∀ request outcome, e = .complete request outcome → ∀ d, outcome.data = some d →
      ∀ texts, request.getter.texts d = some texts → F texts)
    (hscreen : ∀ texts ∈ screen.texts, F texts) (hstep : screen.step e = some screen') :
    ∀ texts ∈ screen'.texts, F texts := by
  cases e with
  | onCreateView fragment =>
      obtain rfl := Option.some_inj.mp hstep
      intro texts htexts
      obtain rfl := Option.some_inj.mp htexts
      exact hloading
  | refresh =>
      obtain rfl := Option.some_inj.mp hstep
      rcases hshown : screen.shown with _ | v
      · exact hscreen
      · intro texts htexts
        obtain rfl := Option.some_inj.mp htexts
        exact hloading
  | complete request outcome =>
      simp only [MacrosScreen.step] at hstep
      rcases hdata : outcome.data with _ | d
      · rw [MacrosScreen.complete_of_no_data hdata] at hstep
        obtain rfl := Option.some_inj.mp hstep
        exact hscreen
      · rw [MacrosScreen.complete_of_data hdata] at hstep
        obtain ⟨answer, hanswered, rfl⟩ := Option.map_eq_some_iff.mp hstep
        intro texts htexts
        obtain ⟨v', hv', rfl⟩ := Option.map_eq_some_iff.mp htexts
        obtain ⟨v, hv, rfl⟩ := Option.map_eq_some_iff.mp hv'
        by_cases hfragment : v.fragment = request.fragment
        · rw [if_pos hfragment]
          exact hanswer request outcome rfl d hdata answer hanswered
        · rw [if_neg hfragment]
          exact hscreen v.texts (Option.mem_map_of_mem View.texts hv)

/-- The lists of a document begin with those of another. -/
def ListsGrow (d d' : Document) : Prop := ∀ f, numbers d f <+: numbers d' f

/-- A document as it is has lost nothing. -/
theorem ListsGrow.refl (d : Document) : ListsGrow d d := fun f => List.prefix_refl (numbers d f)

/-- What grows twice has grown. -/
theorem ListsGrow.trans {d d' d'' : Document} (h : ListsGrow d d') (h' : ListsGrow d' d'') :
    ListsGrow d d'' := fun f => (h f).trans (h' f)

/-- No update takes a number out of a list. -/
theorem listsGrow_apply (d : Document) (u : Update) : ListsGrow d (u.apply d) := by
  intro f
  cases u with
  | union g value =>
      rw [Update.apply, numbers_union]
      split
      · by_cases hold : value ∈ numbers d g
        · next hf => rw [hf, appendNew_of_mem hold]
        · next hf =>
            rw [hf, appendNew_of_not_mem hold]
            exact List.prefix_append _ _
      · exact List.prefix_refl _
  | macros macroData => rw [Update.apply, numbers_writeData]

variable (toDouble document es)

/-- What the screens of a client show has a source. -/
structure ClientSaysTruth (x : Client) : Prop where
  macros : ∀ texts ∈ x.macros.texts, SaysTruth toDouble document es texts
  entry : ∀ e ∈ x.entry, LabelSaysTruth toDouble document es e

/-- The invariant. -/
structure Sourced (s : Network) : Prop where
  backend : s.backend.Sourced (Possible toDouble document es) (PossibleUpdate toDouble document es)
  grows : s.backend.Grows ListsGrow
  clients : ∀ client, ClientSaysTruth toDouble document es (s.clients client)

variable {toDouble document es} {s : Network}

/-- A client just started shows nothing. -/
theorem clientSaysTruth_start : ClientSaysTruth toDouble document es .start := by
  refine ⟨fun texts htexts => ?_, fun e he => ?_⟩
  · simp [Client.start, MacrosScreen.start, MacrosScreen.texts] at htexts
  · simp [Client.start] at he

/-- At the start nothing is shown and nothing sent. -/
theorem sourced_start : Sourced toDouble document es (start document) :=
  ⟨Backend.sourced_start .start, Backend.grows_start ListsGrow.refl document,
    fun _ => clientSaysTruth_start⟩

/-- What is sent is possible. -/
theorem sourced_send (hs : Sourced toDouble document es s) (client : ℕ) {update : Option Update}
    (hupdate : ∀ u ∈ update, PossibleUpdate toDouble document es u) :
    Sourced toDouble document es (s.send client update) :=
  ⟨Backend.sourced_send? hs.backend client hupdate,
    (Backend.grows_send? client update).mpr hs.grows, hs.clients⟩

/-- A client that shows what has a source takes the place of another. -/
theorem sourced_setClient (hs : Sourced toDouble document es s) (client : ℕ) {x : Client}
    (hx : ClientSaysTruth toDouble document es x) :
    Sourced toDouble document es (s.setClient client x) := by
  refine ⟨hs.backend, hs.grows, fun c => ?_⟩
  by_cases hc : c = client
  · subst hc
    rw [setClient_clients_self]
    exact hx
  · rw [setClient_clients_of_ne s hc]
    exact hs.clients c

/-- A macros screen handles an event whose answer, if it is one, is a possible document. -/
theorem sourced_handleMacros (hs : Sourced toDouble document es s) (client : ℕ)
    {e : MacrosScreen.Event} (hanswer : ∀ request outcome, e = .complete request outcome →
      ∀ d, outcome.data = some d → Possible toDouble document es d) :
    Sourced toDouble document es (s.handleMacros client e) := by
  apply sourced_setClient hs
  rcases hstep : (s.clients client).macros.step e with _ | screen
  · exact clientSaysTruth_start
  · refine ⟨texts_step (Or.inl rfl) ?_ (hs.clients client).macros hstep, (hs.clients client).entry⟩
    intro request outcome he d hd texts htexts
    exact saysTruth_of_texts (hanswer request outcome he d hd) htexts

/-- An entry screen whose label has a source takes the place of another. -/
theorem sourced_setEntry (hs : Sourced toDouble document es s) (client : ℕ)
    {e : Option EntryScreen} (he : ∀ x ∈ e, LabelSaysTruth toDouble document es x) :
    Sourced toDouble document es (s.setEntry client e) := by
  apply sourced_setClient hs
  cases e with
  | none => exact clientSaysTruth_start
  | some e => exact ⟨(hs.clients client).macros, he⟩

/-- What a listener sends for a possible document. -/
theorem possibleUpdate_of_getter {d : Document} (hd : Possible toDouble document es d)
    (getter : Getter) : ∀ u ∈ getter.update d, PossibleUpdate toDouble document es u := by
  cases getter with
  | getDataInitially =>
      intro u hu
      simp [Getter.update] at hu
  | getData =>
      intro u hu
      obtain ⟨macroData, hmacros, rfl⟩ := Option.map_eq_some_iff.mp hu
      exact ⟨d, hd, hmacros⟩

/-- A Save on the entry screen that is open. -/
theorem sourced_save (hs : Sourced toDouble document es s) {client : ℕ} {entry : Save}
    (hmem : .save client entry ∈ es) {e : EntryScreen} (he : e.dataType = entry.1) :
    Sourced toDouble document es ((s.send client (entry.update toDouble)).setEntry client
      ((entry.label toDouble).map fun label => { e with currentEntry := some label })) := by
  apply sourced_setEntry
  · apply sourced_send hs
    intro u hu
    obtain ⟨value, hvalue, rfl⟩ := Option.map_eq_some_iff.mp hu
    exact ⟨client, entry, hmem, rfl, hvalue⟩
  · intro x hx
    obtain ⟨label, hlabel, rfl⟩ := Option.map_eq_some_iff.mp hx
    exact labelSaysTruth_save hmem he hlabel

/-- **Step lemma**: every event offered keeps the invariant. -/
theorem sourced_step (hs : Sourced toDouble document es s) {e : Event} (hen : s.Offers e)
    (hmem : e ∈ es) : Sourced toDouble document es (s.handle toDouble e) := by
  cases e with
  | openEntry client t =>
      simp only [handle]
      apply sourced_setClient hs
      refine ⟨(hs.clients client).macros, fun x hx => ?_⟩
      obtain rfl := Option.some_inj.mp hx
      exact Or.inl rfl
  | leaveEntry client =>
      simp only [handle]
      apply sourced_setClient hs
      exact ⟨(hs.clients client).macros, by simp [Client.leave]⟩
  | lateSuccess client t version =>
      obtain ⟨d, hd⟩ := Backend.exists_view Update.apply client hen.2
      simp only [handle, hd]
      apply sourced_setClient hs
      split
      · exact ⟨(hs.clients client).macros, (hs.clients client).entry⟩
      · exact clientSaysTruth_start
  | lateFailure client t =>
      simp only [handle]
      apply sourced_setClient hs
      exact ⟨(hs.clients client).macros, (hs.clients client).entry⟩
  | save client entry =>
      obtain ⟨e, he, htype⟩ := hen
      have hopen : (s.clients client).entry = some e := he
      simp only [handle, hopen]
      exact sourced_save hs hmem htype
  | entrySuccess client version =>
      obtain ⟨⟨e, he, -⟩, hversion⟩ := hen
      have hopen : (s.clients client).entry = some e := he
      obtain ⟨d, hd⟩ := Backend.exists_view Update.apply client hversion
      simp only [handle, hopen, hd]
      apply sourced_setEntry hs
      intro x hx
      apply labelSaysTruth_answer _ ((hs.clients client).entry e he) hx
      exact Backend.sourced_view possible_apply hs.backend hd
  | entryFailure client =>
      obtain ⟨e, he, -⟩ := hen
      have hopen : (s.clients client).entry = some e := he
      simp only [handle, hopen]
      apply sourced_setEntry hs
      intro x hx
      obtain rfl := Option.some_inj.mp hx
      exact (hs.clients client).entry e he
  | onCreateView client fragment =>
      simp only [handle]
      exact sourced_handleMacros hs client (by simp)
  | refresh client =>
      simp only [handle]
      exact sourced_handleMacros hs client (by simp)
  | success client request version =>
      obtain ⟨d, hd⟩ := Backend.exists_view Update.apply client hen.2
      have hpossible := Backend.sourced_view possible_apply hs.backend hd
      simp only [handle, hd]
      apply sourced_handleMacros
      · exact sourced_send hs client (possibleUpdate_of_getter hpossible request.getter)
      · rintro request' outcome he d' hd'
        obtain ⟨-, rfl⟩ := MacrosScreen.Event.complete.inj he
        obtain rfl := Option.some_inj.mp hd'
        exact hpossible
  | failure client request =>
      simp only [handle]
      apply sourced_handleMacros hs
      rintro request' outcome he d hd
      obtain ⟨-, rfl⟩ := MacrosScreen.Event.complete.inj he
      simp [Outcome.data] at hd
  | apply i =>
      refine ⟨Backend.sourced_apply possible_apply hs.backend i, ?_, hs.clients⟩
      exact Backend.grows_apply ListsGrow.refl (fun _ _ _ => ListsGrow.trans) listsGrow_apply
        hs.grows i
  | refuse i => exact ⟨Backend.sourced_refuse hs.backend i, hs.grows, hs.clients⟩

variable (toDouble document es)

/-- **What is shown has a source, over every run of any number of clients.** No run stops. At its
end the three texts of every macros screen are "Loading...", or "Add Data", or three amounts that
were stored together at the beginning, with -404 for one that was missing, or were calculated from
one document, whose lists were those of the beginning with numbers behind that Saves of the run had
entered for them. The label of every entry screen is blank, or says that there is no value, or shows
a number that was in the list of its metric at the beginning or that a Save of the run entered for
it: truncated, or, right after the Save, cut to 32 bits, on the screen of the activity level as the
text of a `Double`. And the lists of every version that the document has had are the beginnings of
those it has now. -/
theorem amounts_have_a_source (hlegal : (machine toDouble).Legal (start document) es) :
    ∃ s, (machine toDouble).run (start document) es = some s ∧
      (∀ client, ClientSaysTruth toDouble document es (s.clients client)) ∧
      ∀ d ∈ s.backend.versions, ∀ f, numbers d f <+: numbers s.backend.document f := by
  have hsteps : (machine toDouble).Each (fun s e => s.Offers e ∧ e ∈ es) (start document) es :=
    hlegal.and_forall fun _ => id
  obtain ⟨s, hrun, hs⟩ : ∃ s, (machine toDouble).run (start document) es = some s ∧
      Sourced toDouble document es s := by
    apply Machine.run_progress _ sourced_start hsteps
    intro s e hs hen
    exact ⟨s.handle toDouble e, rfl, sourced_step hs hen.1 hen.2⟩
  exact ⟨s, hrun, hs.clients, hs.grows⟩

/-- A refresh whose amounts are overtaken by the weight that another client saves, before the answer
that its entry screen awaits and after one it has left, and the macros screen of a third. -/
def overtaken : List Event :=
  [.onCreateView 0 0, .success 0 ⟨0, 0, .getDataInitially⟩ 0, .refresh 0,
    .success 0 ⟨1, 0, .getData⟩ 0, .openEntry 1 .height, .leaveEntry 1, .openEntry 1 .weight,
    .save 1 (.weight, "250"), .apply 1, .entrySuccess 1 1, .lateSuccess 1 .height 0, .apply 0,
    .onCreateView 2 0, .success 2 ⟨0, 0, .getDataInitially⟩ 0]

/-- The law for that run. -/
theorem amounts_have_a_source_overtaken :
    ∃ s, (machine decimal).run (start filledDocument) overtaken = some s ∧
      (∀ client, ClientSaysTruth decimal filledDocument overtaken (s.clients client)) ∧
      ∀ d ∈ s.backend.versions, ∀ f, numbers d f <+: numbers s.backend.document f :=
  amounts_have_a_source decimal filledDocument overtaken (by decide +kernel)

end Network

end AdvMad.MTrackerAndroid
